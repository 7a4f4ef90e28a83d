import Ultrathink.Library.JsText

/-!
# The order of texts

`<=` on strings compares code units from the front.
-/

namespace Ultrathink.Library.JsText

theorem le_cons {u v : UInt16} {s t : Text} :
    le (u :: s) (v :: t) = true ↔ u.toNat < v.toNat ∨ (u = v ∧ le s t = true) := by
  rw [le, Bool.or_eq_true, Bool.and_eq_true, decide_eq_true_eq, decide_eq_true_eq,
    UInt16.lt_iff_toNat_lt]

theorem le_refl (t : Text) : le t t = true := by
  induction t with
  | nil => rfl
  | cons u t ih => exact le_cons.mpr (.inr ⟨rfl, ih⟩)

theorem le_total (s t : Text) : le s t = true ∨ le t s = true := by
  induction s generalizing t with
  | nil => exact .inl rfl
  | cons u s ih =>
    cases t with
    | nil => exact .inr rfl
    | cons v t =>
      rw [le_cons, le_cons]
      rcases Nat.lt_trichotomy u.toNat v.toNat with less | same | more
      · exact .inl (.inl less)
      · obtain rfl := UInt16.toNat_inj.mp same
        rcases ih t with front | back
        · exact .inl (.inr ⟨rfl, front⟩)
        · exact .inr (.inr ⟨rfl, back⟩)
      · exact .inr (.inl more)

theorem le_antisymm {s t : Text} (left : le s t = true) (right : le t s = true) : s = t := by
  induction s generalizing t with
  | nil =>
    cases t with
    | nil => rfl
    | cons v t => cases right
  | cons u s ih =>
    cases t with
    | nil => cases left
    | cons v t =>
      rw [le_cons] at left right
      rcases left with less | ⟨rfl, front⟩
      · rcases right with more | ⟨rfl, -⟩
        · omega
        · omega
      · rcases right with more | ⟨-, back⟩
        · omega
        · rw [ih front back]

theorem le_trans {r s t : Text} (left : le r s = true) (right : le s t = true) :
    le r t = true := by
  induction r generalizing s t with
  | nil => cases t <;> rfl
  | cons u r ih =>
    cases s with
    | nil => cases left
    | cons v s =>
      cases t with
      | nil => cases right
      | cons w t =>
        rw [le_cons] at left right ⊢
        rcases left with less | ⟨rfl, front⟩
        · rcases right with more | ⟨rfl, -⟩
          · exact .inl (by omega)
          · exact .inl less
        · rcases right with more | ⟨rfl, back⟩
          · exact .inl more
          · exact .inr ⟨rfl, ih front back⟩

/-- `<` on strings. -/
def lt (s t : Text) : Bool := !le t s

end Ultrathink.Library.JsText
