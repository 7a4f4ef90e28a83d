import Mathlib.Data.List.Infix

/-!
# First and last occurrences

`indexOf` and `lastIndexOf` of one list in another. A needle that does not overlap itself
(`Unbordered`) is found where it stands once the text on one side of it is free of it.
-/

namespace Ultrathink.Library.Search

open List

variable {α : Type} [DecidableEq α] {needle pre post s t : List α}

/-- `t.indexOf(needle)` -/
def indexOf (needle : List α) : List α → Option Nat
  | [] => if needle = [] then some 0 else none
  | u :: rest =>
    if needle.isPrefixOf (u :: rest) then some 0 else (indexOf needle rest).map (· + 1)

/-- `t.lastIndexOf(needle)` -/
def lastIndexOf (needle : List α) : List α → Option Nat
  | [] => if needle = [] then some 0 else none
  | u :: rest =>
    match lastIndexOf needle rest with
    | some i => some (i + 1)
    | none => if needle.isPrefixOf (u :: rest) then some 0 else none

/-- `t.includes(needle)` -/
def includes (t needle : List α) : Bool := (indexOf needle t).isSome

/-- The two differ where both have an element. -/
def clash : List α → List α → Bool
  | [], _ => false
  | _ :: _, [] => false
  | a :: s, b :: t => a ≠ b || clash s t

/-- The needle does not begin within a text, whatever follows it. -/
def apart (needle : List α) : List α → Bool
  | [] => true
  | u :: rest => clash needle (u :: rest) && apart needle rest

/-- No end of the needle is a beginning of it. -/
def Unbordered (needle : List α) : Prop := needle ≠ [] ∧ apart needle needle.tail = true

instance (needle : List α) : Decidable (Unbordered needle) :=
  inferInstanceAs (Decidable (_ ∧ _))

theorem indexOf_none_iff (some_ : needle ≠ []) : indexOf needle t = none ↔ ¬needle <:+: t := by
  induction t with
  | nil => simp [indexOf, some_]
  | cons u rest ih =>
    rw [indexOf, infix_cons_iff, not_or, ← ih]
    by_cases here : needle <+: u :: rest
    · simp [here, isPrefixOf_iff_prefix.mpr here]
    · simp [here]

theorem includes_iff (some_ : needle ≠ []) : includes t needle = true ↔ needle <:+: t := by
  rw [includes, Option.isSome_iff_ne_none, Ne, indexOf_none_iff some_, not_not]

theorem lastIndexOf_none_iff (some_ : needle ≠ []) :
    lastIndexOf needle t = none ↔ ¬needle <:+: t := by
  induction t with
  | nil => simp [lastIndexOf, some_]
  | cons u rest ih =>
    rw [lastIndexOf, infix_cons_iff, not_or, ← ih]
    cases last : lastIndexOf needle rest with
    | some i => simp
    | none =>
      by_cases here : needle <+: u :: rest
      · simp [here, isPrefixOf_iff_prefix.mpr here]
      · simp [here]

variable {i k : Nat} {a : α}

theorem indexOf_split (found : indexOf needle t = some i) :
    ∃ rest, t = t.take i ++ needle ++ rest ∧ i + needle.length ≤ t.length := by
  induction t generalizing i with
  | nil =>
    simp only [indexOf] at found
    split at found
    next empty =>
      cases found
      exact ⟨[], by simp [empty], by simp [empty]⟩
    · cases found
  | cons u rest ih =>
    simp only [indexOf] at found
    split at found
    next here =>
      cases found
      obtain ⟨tail, same⟩ := isPrefixOf_iff_prefix.mp here
      exact ⟨tail, by simp [same], by simp [← same]⟩
    · obtain ⟨j, later, rfl⟩ := Option.map_eq_some_iff.mp found
      obtain ⟨tail, same, within⟩ := ih later
      refine ⟨tail, ?_, by simp only [length_cons]; omega⟩
      rw [take_succ_cons, cons_append, cons_append, ← same]

theorem lastIndexOf_split (found : lastIndexOf needle t = some i) :
    ∃ rest, t = t.take i ++ needle ++ rest ∧ i + needle.length ≤ t.length := by
  induction t generalizing i with
  | nil =>
    simp only [lastIndexOf] at found
    split at found
    next empty =>
      cases found
      exact ⟨[], by simp [empty], by simp [empty]⟩
    · cases found
  | cons u rest ih =>
    simp only [lastIndexOf] at found
    split at found
    next j later =>
      cases found
      obtain ⟨tail, same, within⟩ := ih later
      refine ⟨tail, ?_, by simp only [length_cons]; omega⟩
      rw [take_succ_cons, cons_append, cons_append, ← same]
    · split at found
      next here =>
        cases found
        obtain ⟨tail, same⟩ := isPrefixOf_iff_prefix.mp here
        exact ⟨tail, by simp [same], by simp [← same]⟩
      · cases found

theorem lastIndexOf_append (found : lastIndexOf needle t = some i) (s : List α) :
    lastIndexOf needle (s ++ t) = some (s.length + i) := by
  induction s with
  | nil => simpa using found
  | cons u rest ih =>
    rw [cons_append, lastIndexOf, ih]
    simp only [length_cons, Option.some.injEq]
    omega

theorem clash_comm (s t : List α) : clash s t = clash t s := by
  induction s generalizing t with
  | nil => cases t <;> rfl
  | cons a s ih =>
    cases t with
    | nil => rfl
    | cons b t =>
      simp only [clash, ih t, ne_comm]

theorem not_prefix_of_clash (apart_ : clash needle s = true) (t : List α) : ¬needle <+: s ++ t := by
  induction needle generalizing s with
  | nil => cases apart_
  | cons a needle ih =>
    cases s with
    | nil => cases apart_
    | cons b s =>
      rw [cons_append, cons_prefix_cons]
      rintro ⟨rfl, later⟩
      refine ih ?_ later
      simpa [clash] using apart_

theorem apart_drop (apart_ : apart needle s = true) (k : Nat) : apart needle (s.drop k) = true := by
  induction k generalizing s with
  | zero => simpa using apart_
  | succ k ih =>
    cases s with
    | nil => rfl
    | cons u rest =>
      simp only [apart, Bool.and_eq_true] at apart_
      exact ih apart_.2

theorem apart_of_head_not_mem (head : needle.head? = some a) (absent : a ∉ s) :
    apart needle s = true := by
  obtain ⟨rest, rfl⟩ := head?_eq_some_iff.mp head
  induction s with
  | nil => rfl
  | cons u s ih =>
    rw [mem_cons, not_or] at absent
    simp [apart, clash, absent.1, ih absent.2]

theorem infix_of_apart (apart_ : apart needle s = true) (found : needle <:+: s ++ t) :
    needle <:+: t := by
  induction s with
  | nil => exact found
  | cons u rest ih =>
    simp only [apart, Bool.and_eq_true] at apart_
    rw [cons_append] at found
    rcases infix_cons_iff.mp found with here | later
    · exact absurd here (not_prefix_of_clash apart_.1 t)
    · exact ih apart_.2 later

theorem not_infix_of_apart (some_ : needle ≠ []) (apart_ : apart needle s = true) :
    ¬needle <:+: s := by
  intro inside
  rw [← append_nil s] at inside
  exact some_ (infix_nil.mp (infix_of_apart apart_ inside))

theorem indexOf_of_apart (apart_ : apart needle s = true) (t : List α) :
    indexOf needle (s ++ t) = (indexOf needle t).map (s.length + ·) := by
  induction s with
  | nil => simp
  | cons u rest ih =>
    simp only [apart, Bool.and_eq_true] at apart_
    have here : ¬needle <+: u :: rest ++ t := not_prefix_of_clash apart_.1 t
    rw [cons_append] at here ⊢
    rw [indexOf, ih apart_.2]
    simp only [List.isPrefixOf_iff_prefix, here, if_false, Option.map_map, length_cons]
    congr 1
    funext i
    simp only [Function.comp_apply]
    omega

theorem Unbordered.apart_drop (u : Unbordered needle) (some_ : 0 < k) :
    apart needle (needle.drop k) = true := by
  obtain ⟨j, rfl⟩ := Nat.exists_eq_add_of_lt some_
  have tail := Search.apart_drop u.2 j
  rwa [drop_tail, ← Nat.zero_add j] at tail

theorem Unbordered.clash_drop (u : Unbordered needle) (some_ : 0 < k) (within : k < needle.length) :
    clash needle (needle.drop k) = true := by
  have whole := u.apart_drop some_
  rw [drop_eq_getElem_cons within] at whole ⊢
  simp only [apart, Bool.and_eq_true] at whole
  exact whole.1

theorem Unbordered.indexOf_eq (u : Unbordered needle) (free : ¬needle <:+: pre) :
    indexOf needle (pre ++ (needle ++ post)) = some pre.length := by
  induction pre with
  | nil =>
    obtain ⟨a, rest, same⟩ := exists_cons_of_ne_nil u.1
    rw [nil_append, same, cons_append, indexOf, ← cons_append, ← same]
    simp
  | cons a rest ih =>
    have later := ih fun inside => free (infix_cons inside)
    rw [cons_append, indexOf, later]
    by_cases here : needle <+: a :: (rest ++ (needle ++ post))
    · by_cases short : needle.length ≤ (a :: rest).length
      · have inside := prefix_of_prefix_length_le here
          (by rw [← cons_append]; exact prefix_append _ _) short
        exact absurd inside.isInfix free
      · -- the end of the needle would be a beginning of it
        obtain ⟨tail, same⟩ := here
        have behind : needle.drop (a :: rest).length ++ tail = needle ++ post := by
          have := congrArg (List.drop (a :: rest).length) same
          rwa [drop_append_of_le_length (by omega), ← cons_append,
            drop_left] at this
        have left : needle.drop (a :: rest).length <+: needle ++ post := ⟨tail, behind⟩
        have other := u.clash_drop (Nat.succ_pos rest.length) (Nat.lt_of_not_le short)
        rw [clash_comm] at other
        exact absurd left (not_prefix_of_clash other post)
    · simp [here]

theorem Unbordered.lastIndexOf_eq (u : Unbordered needle) (free : ¬needle <:+: post) :
    lastIndexOf needle (pre ++ (needle ++ post)) = some pre.length := by
  have here : lastIndexOf needle (needle ++ post) = some 0 := by
    obtain ⟨a, rest, same⟩ := exists_cons_of_ne_nil u.1
    have after : lastIndexOf needle (rest ++ post) = none := by
      rw [lastIndexOf_none_iff u.1]
      intro inside
      have tail : needle.drop 1 = rest := by rw [same]; rfl
      rw [← tail] at inside
      exact free (infix_of_apart (u.apart_drop Nat.one_pos) inside)
    have whole : needle ++ post = a :: (rest ++ post) := by rw [same]; rfl
    rw [whole, lastIndexOf, after, ← whole]
    simp
  simpa using lastIndexOf_append here pre

omit [DecidableEq α] in
theorem infix_or_of_not_mem (absent : a ∉ needle) (found : needle <:+: s ++ a :: t) :
    needle <:+: s ∨ needle <:+: t := by
  induction s with
  | nil =>
    rcases infix_cons_iff.mp found with here | later
    · cases needle with
      | nil => exact .inl (List.nil_infix)
      | cons b rest =>
        obtain ⟨same, -⟩ := cons_prefix_cons.mp here
        exact absurd (same ▸ mem_cons_self) absent
    · exact .inr later
  | cons b rest ih =>
    rw [cons_append] at found
    rcases infix_cons_iff.mp found with here | later
    · left
      by_cases short : needle.length ≤ (b :: rest).length
      · have both := prefix_of_prefix_length_le here
          (by rw [← cons_append]; exact prefix_append _ _) short
        exact both.isInfix
      · have mem : a ∈ needle := by
          obtain ⟨tail, same⟩ := here
          have at_ := congrArg (fun l => l[(b :: rest).length]?) same
          simp only [getElem?_append_left (show (b :: rest).length < needle.length by omega)] at at_
          rw [← cons_append, getElem?_append_right (le_refl _)] at at_
          simp only [Nat.sub_self, getElem?_cons_zero] at at_
          exact mem_of_getElem? at_
        exact absurd mem absent
    · rcases ih later with inside | after
      · exact .inl (infix_cons inside)
      · exact .inr after

theorem indexOf_append (found : indexOf needle s = some i) (t : List α) :
    indexOf needle (s ++ t) = some i := by
  induction s generalizing i with
  | nil =>
    simp only [indexOf] at found
    split at found
    next empty =>
      cases found
      cases t <;> simp [indexOf, empty]
    · cases found
  | cons u rest ih =>
    obtain ⟨-, -, within⟩ := indexOf_split found
    rw [cons_append]
    simp only [indexOf] at found ⊢
    split at found
    next here =>
      cases found
      have longer := (List.isPrefixOf_iff_prefix.mp here).trans (prefix_append _ t)
      exact if_pos (List.isPrefixOf_iff_prefix.mpr longer)
    next other =>
      obtain ⟨j, later, rfl⟩ := Option.map_eq_some_iff.mp found
      rw [ih later, if_neg, Option.map_some]
      intro longer
      refine other (List.isPrefixOf_iff_prefix.mpr ?_)
      exact prefix_of_prefix_length_le (List.isPrefixOf_iff_prefix.mp longer)
        (prefix_append (u :: rest) t) (by omega)

theorem lastIndexOf_rest (some_ : needle ≠ []) (found : lastIndexOf needle t = some i) :
    ¬needle <:+: t.drop (i + needle.length) := by
  induction t generalizing i with
  | nil => simpa using some_
  | cons u rest ih =>
    have positive := length_pos_of_ne_nil some_
    simp only [lastIndexOf] at found
    split at found
    next j later =>
      cases found
      have order : j + 1 + needle.length = j + needle.length + 1 := by omega
      rw [order, drop_succ_cons]
      exact ih later
    next last =>
      split at found
      · cases found
        intro inside
        have drop_ : (u :: rest).drop (0 + needle.length) = rest.drop (needle.length - 1) := by
          obtain ⟨k, more⟩ := Nat.exists_eq_add_of_lt positive
          rw [more]
          simp
        rw [drop_] at inside
        exact (lastIndexOf_none_iff some_).mp last (inside.trans (drop_suffix _ _).isInfix)
      · cases found

theorem indexOf_before (found : indexOf needle t = some i) (some_ : needle ≠ []) :
    ¬needle <:+: t.take i := by
  intro inside
  obtain ⟨j, earlier⟩ := Option.ne_none_iff_exists'.mp
    (mt (indexOf_none_iff some_).mp (not_not.mpr inside))
  have same := indexOf_append earlier (t.drop i)
  rw [take_append_drop, found] at same
  cases same
  obtain ⟨-, -, within⟩ := indexOf_split earlier
  have positive := length_pos_of_ne_nil some_
  rw [length_take] at within
  omega

end Ultrathink.Library.Search
