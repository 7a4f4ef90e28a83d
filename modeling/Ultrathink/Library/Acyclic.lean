import Mathlib.Data.Set.Finite.Basic
import Mathlib.Order.WellFounded

/-!
# Acyclic relations on finite lists

`needs a b` reads "a needs b". No chain of needs leads from an element back to
itself; on the elements of a list that is enough to prove a property of each
from the same property of all it needs.
-/

namespace Ultrathink.Library

variable {α : Type}

def Acyclic (needs : α → α → Prop) : Prop := ∀ a, ¬ Relation.TransGen needs a a

theorem acyclic_of_rank {needs : α → α → Prop} (rank : α → Nat)
    (lower : ∀ a b, needs a b → rank b < rank a) : Acyclic needs := by
  have chain : ∀ a b, Relation.TransGen needs a b → rank b < rank a := by
    intro a b path
    induction path with
    | single last => exact lower _ _ last
    | tail _ last ih => exact (lower _ _ last).trans ih
  exact fun a path => (chain a a path).false

theorem Acyclic.induction {needs : α → α → Prop} (acyclic : Acyclic needs) (l : List α)
    {P : α → Prop} (step : ∀ a ∈ l, (∀ b ∈ l, needs a b → P b) → P a) : ∀ a ∈ l, P a := by
  let below (b a : {x // x ∈ l}) : Prop := Relation.TransGen needs a.1 b.1
  have finite : Finite {x // x ∈ l} := List.finite_toSet l
  have trans : IsTrans {x // x ∈ l} below := ⟨fun _ _ _ ba cb => cb.trans ba⟩
  have irrefl : Std.Irrefl below := ⟨fun a => acyclic a.1⟩
  have wf : WellFounded below := Finite.wellFounded_of_trans_of_irrefl below
  intro a mem
  induction h : (⟨a, mem⟩ : {x // x ∈ l}) using wf.induction generalizing a with
  | h x ih =>
    subst h
    exact step a mem fun b memB need => ih ⟨b, memB⟩ (.single need) b memB rfl

theorem Acyclic.mono {needs fewer : α → α → Prop} (acyclic : Acyclic needs)
    (sub : ∀ a b, fewer a b → needs a b) : Acyclic fewer :=
  fun a path => acyclic a (Relation.TransGen.mono sub a a path)

/-- A chain of `k` needs starts at `a`. -/
inductive Descent (needs : α → α → Prop) : α → Nat → Prop
  | here (a : α) : Descent needs a 0
  | step {a b : α} {k : Nat} : needs a b → Descent needs b k → Descent needs a (k + 1)

/-- The longest chain is one longer than the longest chain of some need, or there is no need. -/
theorem greatest_descent {needs : α → α → Prop} {a : α} {depth : Nat}
    (reached : depth = 0 ∨ ∃ b k, needs a b ∧ Descent needs b k ∧ depth = k + 1)
    (bound : ∀ b k, needs a b → Descent needs b k → k + 1 ≤ depth) :
    IsGreatest {k | Descent needs a k} depth := by
  constructor
  · rcases reached with rfl | ⟨b, k, need, chain, rfl⟩
    · exact Descent.here a
    · exact Descent.step need chain
  · intro k chain
    cases chain with
    | here => exact Nat.zero_le depth
    | step need rest => exact bound _ _ need rest

end Ultrathink.Library
