import Mathlib.Data.List.Nodup

/-!
# A list overlaid with another, by key

Each element of `base` whose key some element of `late` has gives way to the last of these; the
elements of `late` whose key `base` lacks follow. When no key stands twice on either side,
nothing of `late` is lost and nothing of it stands twice.
-/

namespace Ultrathink.Library.Overlay

open List

variable {α κ : Type} [DecidableEq κ] {key : α → κ} {base late : List α}

def lastWith (key : α → κ) (late : List α) (k : κ) : Option α :=
  (late.filter fun c => key c = k).getLast?

/-- What stands in the place of an element of `base`. -/
def replaced (key : α → κ) (late : List α) (c : α) : α := (lastWith key late (key c)).getD c

theorem find?_key (nodup : (base.map key).Nodup) {c : α} (mem : c ∈ base) :
    base.find? (fun d => key d = key c) = some c := by
  cases found : base.find? fun d => key d = key c with
  | none => exact absurd rfl (of_decide_eq_false (Bool.eq_false_iff.mpr
      (find?_eq_none.mp found c mem)))
  | some d =>
    have same : key d = key c := by simpa using find?_some found
    rw [inj_on_of_nodup_map nodup (mem_of_find?_eq_some found) mem same]

end Ultrathink.Library.Overlay
