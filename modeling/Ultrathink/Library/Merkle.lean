import Mathlib.Algebra.Group.Nat.Defs
import Mathlib.Data.Nat.Log

/-!
# Merkle trees and their frontiers

The hash of a list splits it at the largest power of two below its length. A frontier keeps the
hashes of the perfect trees over a growing list, one for each set bit of its length, newest and
lowest first; bagging them from the lowest up gives the hash of the list.
-/

namespace Ultrathink.Library.Merkle

open List

structure Hashing (α β : Type) where
  leaf : α → β
  node : β → β → β

/-- The root of a perfect subtree of `2 ^ height` leaves. -/
structure Peak (β : Type) where
  height : Nat
  hash : β
  deriving DecidableEq

structure Frontier (β : Type) where
  size : Nat
  peaks : List (Peak β)
  deriving DecidableEq

variable {α β : Type}

def Frontier.empty : Frontier β := ⟨0, []⟩

variable {front back : List α} {height n : Nat} {peaks : List (Peak β)} {f : Frontier β}

section
variable (H : Hashing α β)

/-- Merges the new peak with those of its height. -/
def carry (hash : β) (height : Nat) : List (Peak β) → List (Peak β)
  | [] => [⟨height, hash⟩]
  | top :: rest =>
    if top.height = height then carry (H.node top.hash hash) (height + 1) rest
    else ⟨height, hash⟩ :: top :: rest

def push (f : Frontier β) (a : α) : Frontier β := ⟨f.size + 1, carry H (H.leaf a) 0 f.peaks⟩

def pushAll (f : Frontier β) (leaves : List α) : Frontier β := leaves.foldl (push H) f

def bag (acc : β) (peaks : List (Peak β)) : β :=
  peaks.foldl (fun acc peak => H.node peak.hash acc) acc

def root (emptyRoot : β) (f : Frontier β) : β :=
  match f.peaks with
  | [] => emptyRoot
  | last :: rest => bag H last.hash rest

/-- The largest power of two below a number above one. -/
def splitPoint (n : Nat) : Nat := 2 ^ Nat.log 2 (n - 1)

theorem splitPoint_lt (two : 2 ≤ n) : 0 < splitPoint n ∧ splitPoint n < n := by
  have le := Nat.pow_log_le_self 2 (show n - 1 ≠ 0 by omega)
  refine ⟨Nat.pow_pos (by decide), ?_⟩
  unfold splitPoint
  omega

def treeHash (emptyHash : β) (leaves : List α) : β :=
  match leaves with
  | [] => emptyHash
  | [a] => H.leaf a
  | a :: b :: rest =>
    let k := splitPoint (rest.length + 2)
    H.node (treeHash emptyHash ((a :: b :: rest).take k))
      (treeHash emptyHash ((a :: b :: rest).drop k))
termination_by leaves.length
decreasing_by
  · have split := splitPoint_lt (show 2 ≤ rest.length + 2 by omega)
    simp only [length_take, length_cons]
    omega
  · have split := splitPoint_lt (show 2 ≤ rest.length + 2 by omega)
    simp only [length_drop, length_cons]
    omega

end

section
variable {H : Hashing α β} {emptyHash : β}

@[simp] theorem pushAll_cons (f : Frontier β) (a : α) (rest : List α) :
    pushAll H f (a :: rest) = pushAll H (push H f a) rest := rfl

theorem pushAll_append (f : Frontier β) (first second : List α) :
    pushAll H f (first ++ second) = pushAll H (pushAll H f first) second :=
  foldl_append

theorem pushAll_size (f : Frontier β) (leaves : List α) :
    (pushAll H f leaves).size = f.size + leaves.length := by
  induction leaves generalizing f with
  | nil => rfl
  | cons a rest ih =>
    rw [pushAll_cons, ih, length_cons]
    dsimp only [push]
    omega

@[simp] theorem treeHash_nil : treeHash H emptyHash [] = emptyHash := by rw [treeHash]

@[simp] theorem treeHash_single (a : α) : treeHash H emptyHash [a] = H.leaf a := by rw [treeHash]

theorem splitPoint_of_parts (some_ : 0 < n) (le : n ≤ 2 ^ height) :
    splitPoint (2 ^ height + n) = 2 ^ height := by
  have log : Nat.log 2 (2 ^ height + n - 1) = height := by
    apply Nat.log_eq_of_pow_le_of_lt_pow
    · omega
    · rw [Nat.pow_succ]
      omega
  rw [splitPoint, log]

theorem treeHash_append (whole : front.length = 2 ^ height) (some_ : back ≠ [])
    (le : back.length ≤ 2 ^ height) :
    treeHash H emptyHash (front ++ back) =
      H.node (treeHash H emptyHash front) (treeHash H emptyHash back) := by
  have frontPos : 0 < 2 ^ height := Nat.pow_pos (by decide)
  have backPos := length_pos_iff.mpr some_
  have split := splitPoint_of_parts backPos le
  match list : front ++ back with
  | [] => simp [some_] at list
  | [a] =>
    have length := congrArg List.length list
    rw [length_append, length_singleton] at length
    omega
  | a :: b :: rest =>
    have length := congrArg List.length list
    rw [length_append, whole, length_cons, length_cons] at length
    rw [treeHash, ← length, split, ← list, ← whole, take_left, drop_left]

/-- The peaks, newest first, are the hashes of perfect trees that stand side by side. -/
inductive Covers (H : Hashing α β) (emptyHash : β) : List (Peak β) → List α → Prop
  | nil : Covers H emptyHash [] []
  | cons {peaks : List (Peak β)} {front segment : List α} {height : Nat} (older : Covers H emptyHash peaks front)
      (above : ∀ p ∈ peaks, height < p.height) (whole : segment.length = 2 ^ height) :
      Covers H emptyHash (⟨height, treeHash H emptyHash segment⟩ :: peaks) (front ++ segment)

theorem carry_covers {segment : List α} (covers : Covers H emptyHash peaks front)
    (atLeast : ∀ p ∈ peaks, height ≤ p.height) (whole : segment.length = 2 ^ height) :
    Covers H emptyHash (carry H (treeHash H emptyHash segment) height peaks) (front ++ segment) := by
  induction covers generalizing segment height with
  | nil => exact .cons .nil (fun p mem => absurd mem not_mem_nil) whole
  | @cons peaks front other top older above wholeOther ih =>
    unfold carry
    split
    · next same =>
      obtain rfl : top = height := same
      have some_ : segment ≠ [] := ne_nil_of_length_pos (whole ▸ Nat.pow_pos (by decide))
      rw [← treeHash_append wholeOther some_ whole.le, append_assoc]
      apply ih (fun p mem => above p mem)
      rw [length_append, wholeOther, whole, Nat.pow_succ]
      omega
    · next other_ =>
      have lower := atLeast _ mem_cons_self
      have strict : height < top := Nat.lt_of_le_of_ne lower fun eq => other_ eq.symm
      refine .cons (.cons older above wholeOther) ?_ whole
      intro p mem
      rcases mem_cons.mp mem with rfl | rest
      · exact strict
      · exact strict.trans (above p rest)

theorem pushAll_covers (covers : Covers H emptyHash f.peaks front) (leaves : List α) :
    Covers H emptyHash (pushAll H f leaves).peaks (front ++ leaves) := by
  induction leaves generalizing f front with
  | nil =>
    rw [append_nil]
    exact covers
  | cons a rest ih =>
    have pushed : Covers H emptyHash (push H f a).peaks (front ++ [a]) := by
      have grown := carry_covers covers (fun p _ => Nat.zero_le _) (show [a].length = 2 ^ 0 from rfl)
      rw [treeHash_single] at grown
      exact grown
    have all := ih pushed
    rw [append_assoc] at all
    exact all

theorem bag_covers (covers : Covers H emptyHash peaks front) (some_ : back ≠ [])
    (le : ∀ p ∈ peaks, back.length ≤ 2 ^ p.height) :
    bag H (treeHash H emptyHash back) peaks = treeHash H emptyHash (front ++ back) := by
  induction covers generalizing back with
  | nil => rfl
  | @cons peaks front segment height older above whole ih =>
    have here := le _ mem_cons_self
    have merged : treeHash H emptyHash (segment ++ back) =
        H.node (treeHash H emptyHash segment) (treeHash H emptyHash back) :=
      treeHash_append whole some_ here
    have later := @ih (segment ++ back) (append_ne_nil_of_right_ne_nil _ some_)
      fun p mem => by
        have doubled : 2 ^ (height + 1) ≤ 2 ^ p.height :=
          Nat.pow_le_pow_right (by decide) (above p mem)
        rw [Nat.pow_succ] at doubled
        rw [length_append, whole]
        simp only at here
        omega
    rw [merged] at later
    rw [append_assoc, ← later]
    rfl

theorem root_pushAll (emptyRoot : β) {leaves : List α} (some_ : leaves ≠ []) :
    root H emptyRoot (pushAll H .empty leaves) = treeHash H emptyHash leaves := by
  have covers : Covers H emptyHash (pushAll H .empty leaves).peaks ([] ++ leaves) :=
    pushAll_covers .nil leaves
  rw [nil_append] at covers
  unfold root
  generalize (pushAll H .empty leaves).peaks = peaks at covers
  cases covers with
  | nil => exact absurd rfl some_
  | @cons peaks front segment height older above whole =>
    refine bag_covers older ?_ ?_
    · exact ne_nil_of_length_pos (whole ▸ Nat.pow_pos (by decide))
    · intro p mem
      rw [whole]
      exact Nat.pow_le_pow_right (by decide) (above p mem).le

/-- A map of leaves and hashes that keeps the two hash functions keeps the hash of a list. -/
theorem treeHash_map {α' β' : Type} {H' : Hashing α' β'} {f : α → α'} {g : β → β'} {emptyHash' : β'}
    (empty : g emptyHash = emptyHash') (leaf : ∀ a, g (H.leaf a) = H'.leaf (f a))
    (node : ∀ l r, g (H.node l r) = H'.node (g l) (g r)) (leaves : List α) :
    g (treeHash H emptyHash leaves) = treeHash H' emptyHash' (leaves.map f) := by
  fun_induction treeHash H emptyHash leaves with
  | case1 => rw [map_nil, treeHash_nil, empty]
  | case2 a => rw [map_singleton, treeHash_single, leaf]
  | case3 a b rest k ihFront ihBack =>
    rw [node, ihFront, ihBack, map_cons, map_cons, treeHash, length_map,
      map_take, map_drop, map_cons, map_cons]

/-- The set bits of a count, lowest first, from the given height on. -/
def bits (n height : Nat) : List Nat :=
  if n = 0 then [] else
    if n % 2 = 1 then height :: bits (n / 2) (height + 1) else bits (n / 2) (height + 1)
termination_by n

/-- A peak for each set bit of the size. -/
def Frontier.Shaped (f : Frontier β) : Prop := f.peaks.map Peak.height = bits f.size 0

theorem le_of_mem_bits (n : Nat) : ∀ (height : Nat), ∀ h ∈ bits n height, height ≤ h := by
  induction n using Nat.strongRecOn with
  | ind n ih =>
    intro height h mem
    rw [bits] at mem
    split at mem
    · cases mem
    · next nonzero =>
      have half : n / 2 < n := by omega
      split at mem
      · rcases mem_cons.mp mem with rfl | later
        · exact Nat.le_refl _
        · have above := ih (n / 2) half (height + 1) h later
          omega
      · have above := ih (n / 2) half (height + 1) h mem
        omega

theorem carry_heights (n : Nat) : ∀ (hash : β) (height : Nat) (peaks : List (Peak β)),
    peaks.map Peak.height = bits n height →
      (carry H hash height peaks).map Peak.height = bits (n + 1) height := by
  induction n using Nat.strongRecOn with
  | ind n ih =>
    intro hash height peaks heights
    rw [bits] at heights
    rw [bits, if_neg (Nat.succ_ne_zero n)]
    by_cases zero : n = 0
    · subst zero
      rw [if_pos rfl, map_eq_nil_iff] at heights
      subst heights
      rw [bits]
      rfl
    rw [if_neg zero] at heights
    have half : n / 2 < n := by omega
    by_cases odd : n % 2 = 1
    · rw [if_pos odd] at heights
      rw [if_neg (by omega), show (n + 1) / 2 = n / 2 + 1 by omega]
      cases peaks with
      | nil => cases heights
      | cons top rest =>
        simp only [map_cons, List.cons.injEq] at heights
        rw [carry, if_pos heights.1]
        exact ih (n / 2) half _ _ _ heights.2
    · rw [if_neg odd] at heights
      rw [if_pos (by omega), show (n + 1) / 2 = n / 2 by omega]
      cases peaks with
      | nil =>
        rw [← heights]
        rfl
      | cons top rest =>
        have above := le_of_mem_bits (n / 2) (height + 1) top.height (by rw [← heights]; simp)
        rw [carry, if_neg (by omega), map_cons, heights]

theorem pushAll_shaped (shaped : f.Shaped) (leaves : List α) :
    (pushAll H f leaves).Shaped := by
  induction leaves generalizing f with
  | nil => exact shaped
  | cons a rest ih => exact ih (carry_heights f.size (H.leaf a) 0 f.peaks shaped)

theorem empty_shaped : (Frontier.empty : Frontier β).Shaped := by
  rw [Frontier.Shaped, bits]
  rfl

theorem mem_bits (n : Nat) : ∀ (height h : Nat),
    h ∈ bits n height ↔ height ≤ h ∧ n.testBit (h - height) = true := by
  induction n using Nat.strongRecOn with
  | ind n ih =>
    intro height h
    rw [bits]
    split
    · next zero => simp [zero]
    · next nonzero =>
      have half : n / 2 < n := by omega
      have later := ih (n / 2) half (height + 1) h
      have above : height < h → (n / 2).testBit (h - (height + 1)) = n.testBit (h - height) := by
        intro lt
        rw [show h - height = h - (height + 1) + 1 by omega, Nat.testBit_succ]
      have lowest : n.testBit (height - height) = decide (n % 2 = 1) := by
        rw [Nat.sub_self, Nat.testBit_zero]
      split
      · next odd =>
        rw [mem_cons, later]
        constructor
        · rintro (rfl | ⟨lt, set⟩)
          · exact ⟨Nat.le_refl _, by rw [lowest]; exact decide_eq_true odd⟩
          · exact ⟨Nat.le_of_succ_le lt, (above lt).symm.trans set⟩
        · rintro ⟨le, set⟩
          rcases Nat.eq_or_lt_of_le le with rfl | lt
          · exact .inl rfl
          · exact .inr ⟨lt, (above lt).trans set⟩
      · next even =>
        rw [later]
        constructor
        · rintro ⟨lt, set⟩
          exact ⟨Nat.le_of_succ_le lt, (above lt).symm.trans set⟩
        · rintro ⟨le, set⟩
          rcases Nat.eq_or_lt_of_le le with rfl | lt
          · rw [lowest] at set
            exact absurd (of_decide_eq_true set) even
          · exact ⟨lt, (above lt).trans set⟩

theorem bits_increasing (n : Nat) : ∀ height, (bits n height).Pairwise (· < ·) := by
  induction n using Nat.strongRecOn with
  | ind n ih =>
    intro height
    rw [bits]
    split
    · exact .nil
    · next nonzero =>
      have later := ih (n / 2) (by omega) (height + 1)
      split
      · exact pairwise_cons.mpr ⟨fun h mem => le_of_mem_bits _ _ h mem, later⟩
      · exact later

end

end Ultrathink.Library.Merkle
