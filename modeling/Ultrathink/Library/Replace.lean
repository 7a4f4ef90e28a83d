import Ultrathink.Library.Regex

/-!
# Global replacement

`String.prototype.replace` with a regular expression under the flag `g` and a function. A matcher
lists the ways to match at a cursor in the order of the backtracking matcher, so that what
stands around a match can be looked at without being read.
-/

namespace Ultrathink.Library.Replace

open List JsText Regex

abbrev Matcher := Cursor → List Cursor

/-- Every way to match reads a prefix of the rest. -/
def Advancing (m : Matcher) : Prop := ∀ c d, d ∈ m c → ∃ part, Advances c d part

theorem advancing_results (e : Expr) : Advancing (results e) := fun _ _ => results_advances e

/-- `(?<!p)` in front. -/
def notAfter (p : UInt16 → Bool) (m : Matcher) : Matcher :=
  fun c => if c.before.head?.any p then [] else m c

/-- `(?!p)` behind. -/
def notBefore (p : UInt16 → Bool) (m : Matcher) : Matcher :=
  fun c => (m c).filter fun d => !d.rest.head?.any p

theorem Advancing.notAfter {m : Matcher} (advancing : Advancing m) (p : UInt16 → Bool) :
    Advancing (notAfter p m) := by
  intro c d mem
  unfold Replace.notAfter at mem
  split at mem
  · cases mem
  · exact advancing c d mem

theorem Advancing.notBefore {m : Matcher} (advancing : Advancing m) (p : UInt16 → Bool) :
    Advancing (notBefore p m) :=
  fun c d mem => advancing c d (mem_filter.mp mem).1

/-- The first match from a position on. -/
def find (m : Matcher) (before : Text) : Text → Option Match
  | [] => (m ⟨before, [], []⟩).head?.map fun d => ⟨before.reverse, [], d.rest, d.groups⟩
  | u :: rest =>
    match m ⟨before, u :: rest, []⟩ with
    | d :: _ => some ⟨before.reverse, Cursor.upTo ⟨before, u :: rest, []⟩ d, d.rest, d.groups⟩
    | [] => find m (u :: before) rest

/-- Each match in turn from a position on; each round moves on, so the units left bound the rounds. -/
def replaceFrom (m : Matcher) (by_ : Match → Text) : Nat → Text → Text → Text
  | 0, _, rest => rest
  | fuel + 1, before, rest =>
    match find m before rest with
    | none => rest
    | some found =>
      let read := (found.before ++ found.matched).reverse
      found.before.drop before.length ++ by_ found ++
        match found.matched, found.after with
        | [], u :: after => u :: replaceFrom m by_ fuel (u :: read) after
        | [], [] => []
        | _ :: _, after => replaceFrom m by_ fuel read after

def replaceAll (m : Matcher) (by_ : Match → Text) (subject : Text) : Text :=
  replaceFrom m by_ (subject.length + 1) [] subject

theorem find_eq_some {m : Matcher} (advancing : Advancing m) {before rest : Text} {found : Match}
    (h : find m before rest = some found) :
    ∃ gap, found.before = before.reverse ++ gap ∧ rest = gap ++ found.matched ++ found.after := by
  induction rest generalizing before with
  | nil =>
    obtain ⟨d, first, rfl⟩ := Option.map_eq_some_iff.mp h
    obtain ⟨part, adv⟩ := advancing _ d (mem_of_head? first)
    have nothing : part = [] ∧ d.rest = [] := append_eq_nil_iff.mp adv.1.symm
    exact ⟨[], by simp, by simp [nothing.2]⟩
  | cons u rest ih =>
    unfold find at h
    split at h
    · next d others reached =>
      have mem : d ∈ m ⟨before, u :: rest, []⟩ := by
        rw [reached]
        exact mem_cons_self
      obtain ⟨part, adv⟩ := advancing _ d mem
      obtain rfl := Option.some.inj h
      refine ⟨[], by simp, ?_⟩
      dsimp only
      rw [adv.upTo_eq, nil_append]
      exact adv.1
    · obtain ⟨gap, start, split⟩ := ih h
      refine ⟨u :: gap, ?_, ?_⟩
      · rw [start, reverse_cons, append_assoc]
        rfl
      · rw [split]
        rfl

section Keeps

variable {m : Matcher} {by_ : Match → Text} {p : UInt16 → Prop}

theorem exists_replaceFrom (advancing : Advancing m)
    (keeps : ∀ found, (∃ u ∈ found.matched, p u) → ∃ u ∈ by_ found, p u) (fuel : Nat)
    {before rest : Text} (held : ∃ u ∈ rest, p u) : ∃ u ∈ replaceFrom m by_ fuel before rest, p u := by
  induction fuel generalizing before rest with
  | zero => exact held
  | succ fuel ih =>
    unfold replaceFrom
    split
    · exact held
    · next found at_ =>
      obtain ⟨gap, start, split⟩ := find_eq_some advancing at_
      have skipped : found.before.drop before.length = gap := by
        rw [start]
        exact drop_left' (length_reverse ..)
      dsimp only
      rw [skipped]
      obtain ⟨u, mem, holds⟩ := held
      rw [split, append_assoc, mem_append, mem_append] at mem
      rcases mem with inGap | inMatch | behind
      · exact ⟨u, mem_append_left _ (mem_append_left _ inGap), holds⟩
      · obtain ⟨v, kept, holds⟩ := keeps found ⟨u, inMatch, holds⟩
        exact ⟨v, mem_append_left _ (mem_append_right _ kept), holds⟩
      · have later : ∃ v ∈ (match found.matched, found.after with
            | [], u :: after =>
              u :: replaceFrom m by_ fuel (u :: (found.before ++ found.matched).reverse) after
            | [], [] => []
            | _ :: _, after =>
              replaceFrom m by_ fuel (found.before ++ found.matched).reverse after), p v := by
          split
          · next first after _ same =>
            rw [same] at behind
            rcases mem_cons.mp behind with rfl | rest
            · exact ⟨u, mem_cons_self, holds⟩
            · obtain ⟨v, kept, holds⟩ := @ih (first :: (found.before ++ found.matched).reverse) after
                ⟨u, rest, holds⟩
              exact ⟨v, mem_cons_of_mem _ kept, holds⟩
          · next same =>
            rw [same] at behind
            cases behind
          · exact ih ⟨u, behind, holds⟩
        obtain ⟨v, kept, holds⟩ := later
        exact ⟨v, mem_append_right _ kept, holds⟩

theorem exists_replaceAll (advancing : Advancing m)
    (keeps : ∀ found, (∃ u ∈ found.matched, p u) → ∃ u ∈ by_ found, p u) {subject : Text}
    (held : ∃ u ∈ subject, p u) : ∃ u ∈ replaceAll m by_ subject, p u :=
  exists_replaceFrom advancing keeps _ held

end Keeps

end Ultrathink.Library.Replace
