import Ultrathink.Library.JsText

/-!
# Occurrences in a text

Removing the matches of an expression one after the other, the last place of a pattern, and what
keeps a pattern from running over the seam of two texts.
-/

namespace Ultrathink.Library.Occurrences

open List JsText

/-- `replace` with a global expression and an empty replacement, past the first `skip` units;
`found` is the length of the match in front, zero where there is none. -/
def eraseFrom (found : Text → Nat) : Nat → Text → Text
  | _, [] => []
  | skip + 1, _ :: rest => eraseFrom found skip rest
  | 0, u :: rest =>
    match found (u :: rest) with
    | 0 => u :: eraseFrom found 0 rest
    | skip + 1 => eraseFrom found skip rest

def erase (found : Text → Nat) (t : Text) : Text := eraseFrom found 0 t

/-- No match starts in the text, whatever is in front of `after`. -/
def MissesBefore (found : Text → Nat) (t after : Text) : Prop :=
  ∀ s, s <:+ t → s ≠ [] → found (s ++ after) = 0

def Misses (found : Text → Nat) (t : Text) : Prop := MissesBefore found t []

variable {t b a p : Text} {c : UInt16} {found : Text → Nat}

theorem MissesBefore.suffix {s after : Text} (misses : MissesBefore found t after)
    (suffix : s <:+ t) : MissesBefore found s after :=
  fun r part solid => misses r (part.trans suffix) solid

theorem eraseFrom_length (found : Text → Nat) (m rest : Text) :
    eraseFrom found m.length (m ++ rest) = erase found rest := by
  induction m with
  | nil => rfl
  | cons u m ih => exact ih

theorem erase_match {m rest : Text} (solid : m ≠ []) (length : found (m ++ rest) = m.length) :
    erase found (m ++ rest) = erase found rest := by
  cases m with
  | nil => exact absurd rfl solid
  | cons u m =>
    rw [cons_append] at length ⊢
    rw [erase, eraseFrom, length]
    exact eraseFrom_length found m rest

theorem erase_append {after : Text} (misses : MissesBefore found t after) :
    erase found (t ++ after) = t ++ erase found after := by
  induction t with
  | nil => rfl
  | cons u t ih =>
    have none_ : found (u :: (t ++ after)) = 0 :=
      misses (u :: t) (suffix_refl _) (cons_ne_nil u t)
    have later := ih (misses.suffix (suffix_cons u t))
    rw [cons_append, erase, eraseFrom, none_, cons_append, ← later]
    rfl

theorem erase_misses (misses : Misses found t) :
    erase found t = t := by
  have whole := erase_append misses
  rwa [append_nil, show erase found [] = [] from rfl, append_nil] at whole

/-- `lastIndexOf` from a position. -/
def lastIndexFrom (pattern t : Text) : Nat → Option Nat
  | 0 => if pattern.isPrefixOf t then some 0 else none
  | position + 1 =>
    if pattern.isPrefixOf (t.drop (position + 1)) then some (position + 1)
    else lastIndexFrom pattern t position

theorem lastIndexFrom_eq_some {pattern : Text} {position i : Nat} :
    lastIndexFrom pattern t position = some i ↔
      i ≤ position ∧ pattern <+: t.drop i ∧ ∀ j, i < j → j ≤ position → ¬ pattern <+: t.drop j := by
  induction position with
  | zero =>
    rw [lastIndexFrom]
    constructor
    · intro found
      split at found
      · next here =>
        cases found
        exact ⟨Nat.le_refl 0, by simpa using here, fun j above below => by omega⟩
      · cases found
    · rintro ⟨bound, here, -⟩
      have zero : i = 0 := by omega
      subst zero
      rw [if_pos (by simpa using here)]
  | succ position ih =>
    rw [lastIndexFrom]
    constructor
    · intro found
      split at found
      · next here =>
        cases found
        exact ⟨Nat.le_refl _, by simpa using here, fun j above below => by omega⟩
      · next away =>
        obtain ⟨bound, here, later⟩ := ih.mp found
        refine ⟨by omega, here, fun j above below => ?_⟩
        rcases Nat.lt_or_ge position j with last | earlier
        · have same : j = position + 1 := by omega
          rw [same]
          simpa using away
        · exact later j above earlier
    · rintro ⟨bound, here, later⟩
      by_cases last : i = position + 1
      · subst last
        rw [if_pos (by simpa using here)]
      · have away := later (position + 1) (by omega) (Nat.le_refl _)
        rw [if_neg (by simpa using away)]
        exact ih.mpr ⟨by omega, here, fun j above below => later j above (by omega)⟩

theorem takeWhile_cut (inside : c ∈ t) :
    ∃ after, t = t.takeWhile (· ≠ c) ++ c :: after := by
  induction t with
  | nil => cases inside
  | cons u t ih =>
    by_cases here : u = c
    · subst here
      exact ⟨t, by simp⟩
    · obtain ⟨after, whole⟩ := ih ((mem_cons.mp inside).resolve_left (Ne.symm here))
      refine ⟨after, ?_⟩
      rw [takeWhile_cons_of_pos (by simpa using here), cons_append, ← whole]

theorem not_mem_takeWhile (c : UInt16) (t : Text) : c ∉ t.takeWhile (· ≠ c) := by
  intro mem
  have other := mem_takeWhile_imp mem
  simp at other

theorem takeWhile_append_of_mem (inside : c ∈ t) (e : Text) :
    (t ++ e).takeWhile (· ≠ c) = t.takeWhile (· ≠ c) := by
  rw [takeWhile_append, if_neg]
  intro all
  have whole : t.takeWhile (· ≠ c) = t := (List.takeWhile_prefix _).eq_of_length all
  exact not_mem_takeWhile c t (whole.symm ▸ inside)

theorem prefix_of_seam {p : UInt16} {q : Text} (guarded : c ∉ q) (solid : a ≠ [])
    (here : p :: q <+: a ++ c :: b) : p :: q <+: a := by
  rcases prefix_or_prefix_of_prefix here (prefix_append a (c :: b)) with inside | across
  · exact inside
  · obtain ⟨z, whole⟩ := across
    cases z with
    | nil =>
      rw [append_nil] at whole
      exact ⟨[], by rw [append_nil, whole]⟩
    | cons d z =>
      rw [← whole] at here
      have behind : d :: z <+: c :: b := (prefix_append_right_inj a).mp here
      have same : d = c := (cons_prefix_cons.mp behind).1
      cases a with
      | nil => exact absurd rfl solid
      | cons x a =>
        have tail : a ++ d :: z = q := (cons_eq_cons.mp whole).2
        exact absurd (by rw [← tail, ← same]; simp) guarded

theorem infix_append (inside : p <:+: a ++ b) :
    p <:+: a ∨ p <:+: b ∨ ∃ s, s <:+ a ∧ s ≠ [] ∧ s.length < p.length ∧ p <+: s ++ b := by
  obtain ⟨left, right, whole⟩ := inside
  rw [append_assoc] at whole
  rcases append_eq_append_iff.mp whole with ⟨s, same, rest⟩ | ⟨s, same, rest⟩
  · -- the pattern starts in the first part
    by_cases empty : s = []
    · right; left
      rw [empty, nil_append] at rest
      exact ⟨[], right, by rw [← rest]; simp⟩
    · by_cases short : s.length < p.length
      · exact .inr (.inr ⟨s, ⟨left, same.symm⟩, empty, short, ⟨right, rest⟩⟩)
      · left
        have prefixes : p <+: s := by
          have both : p <+: s ++ b := ⟨right, rest⟩
          exact prefix_of_prefix_length_le both (prefix_append s b) (by omega)
        exact prefixes.isInfix.trans (List.IsSuffix.isInfix ⟨left, same.symm⟩)
  · right; left
    exact ⟨s, right, by rw [append_assoc, ← rest]⟩

theorem mem_of_prefix_over {s : Text} (short : s.length < p.length) (across : p <+: s ++ c :: b) :
    c ∈ p := by
  have reach : s ++ [c] <+: p := by
    have whole : s ++ [c] <+: s ++ c :: b := ⟨b, by simp⟩
    exact prefix_of_prefix_length_le whole across (by simp; omega)
  obtain ⟨rest, rfl⟩ := reach
  simp

theorem prefix_of_free (free : c ∉ p) (here : p <+: a ++ c :: b) :
    p <+: a := by
  by_cases short : a.length < p.length
  · exact absurd (mem_of_prefix_over short here) free
  · exact prefix_of_prefix_length_le here (prefix_append a (c :: b)) (by omega)

end Ultrathink.Library.Occurrences
