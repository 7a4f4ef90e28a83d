import Mathlib.Logic.Function.Basic

/-!
# Tables of processes

A table gives for each process number where the process stands, none when there is no
such process. A ticket is a number that a process has drawn for itself.
-/

namespace Ultrathink.Library.Processes

variable {α : Type}

variable {value : α} {table : Nat → Option α} {p count : Nat} {ticket : α → Option Nat}

theorem update_some {ι : Type} [DecidableEq ι] {table : ι → Option α} {p q : ι} {value' : α}
    (here : Function.update table p (some value) q = some value') :
    (q = p ∧ value' = value) ∨ (q ≠ p ∧ table q = some value') := by
  rw [Function.update_apply] at here
  split at here
  next same => exact Or.inl ⟨same, (Option.some.inj here).symm⟩
  next other => exact Or.inr ⟨other, here⟩

theorem update_none {q : Nat} (here : Function.update table p none q = some value) :
    table q = some value := by
  rw [Function.update_apply] at here
  split at here
  · cases here
  · exact here

/-- Each process has a ticket of its own, drawn before the next number `count`. -/
structure Tickets (ticket : α → Option Nat) (count : Nat) (table : Nat → Option α) : Prop where
  drawn : ∀ p value t, table p = some value → ticket value = some t → t < count
  apart : ∀ p q value value' t, table p = some value → table q = some value' →
    ticket value = some t → ticket value' = some t → p = q

theorem Tickets.put {count' : Nat} (tickets : Tickets ticket count table) (grown : count ≤ count')
    (mine : ∀ t, ticket value = some t → (t = count ∧ t < count') ∨
      ∃ old, table p = some old ∧ ticket old = some t) :
    Tickets ticket count' (Function.update table p (some value)) := by
  have other : ∀ r value' t, r ≠ p → table r = some value' → ticket value = some t →
      ticket value' ≠ some t := by
    intro r value' t different was holds holds'
    rcases mine t holds with ⟨new, -⟩ | ⟨old, here, had⟩
    · have bound := tickets.drawn r value' t was holds'
      omega
    · exact different (tickets.apart r p value' old t was here holds' had)
  refine ⟨fun q value' t here holds => ?_, fun q r first second t here there one two => ?_⟩
  · rcases update_some here with ⟨rfl, rfl⟩ | ⟨-, was⟩
    · rcases mine t holds with ⟨-, bound⟩ | ⟨old, was, had⟩
      · exact bound
      · exact Nat.lt_of_lt_of_le (tickets.drawn q old t was had) grown
    · exact Nat.lt_of_lt_of_le (tickets.drawn q value' t was holds) grown
  · rcases update_some here with ⟨rfl, rfl⟩ | ⟨apart, was⟩ <;>
      rcases update_some there with ⟨rfl, rfl⟩ | ⟨apart', was'⟩
    · rfl
    · exact absurd two (other r second t apart' was' one)
    · exact absurd one (other q first t apart was two)
    · exact tickets.apart q r first second t was was' one two

theorem Tickets.crash (tickets : Tickets ticket count table) (p : Nat) :
    Tickets ticket count (Function.update table p none) :=
  ⟨fun q value t here => tickets.drawn q value t (update_none here),
    fun q r value value' t here there =>
      tickets.apart q r value value' t (update_none here) (update_none there)⟩

end Ultrathink.Library.Processes
