import Mathlib.Data.Nat.Find

/-!
# Windows that move around a ring

A window of a ring of places starts where the last one ended. When each window holds a
place, every place is in some window.
-/

namespace Ultrathink.Library.RoundRobin

/-- Positions on the line that the ring is wound from. -/
def position (start : Nat) (taken : Nat → Nat) : Nat → Nat
  | 0 => start
  | i + 1 => position start taken i + taken i

theorem le_position {start : Nat} {taken : Nat → Nat} (moves : ∀ i, 1 ≤ taken i) (i : Nat) :
    i ≤ position start taken i := by
  induction i with
  | zero => exact Nat.zero_le _
  | succ i ih =>
    have moved := moves i
    rw [position]
    omega

theorem exists_piece {start : Nat} {taken : Nat → Nat} (moves : ∀ i, 1 ≤ taken i) {p : Nat}
    (after : start ≤ p) :
    ∃ i, position start taken i ≤ p ∧ p < position start taken i + taken i := by
  have beyond : ∃ i, p < position start taken i := ⟨p + 1, le_position moves (p + 1)⟩
  let first := Nat.find beyond
  have found : p < position start taken first := Nat.find_spec beyond
  cases here : first with
  | zero =>
    rw [here] at found
    exact absurd found (Nat.not_lt.mpr after)
  | succ i =>
    refine ⟨i, Nat.not_lt.mp (Nat.find_min beyond ?_), ?_⟩
    · have bound : i < first := by omega
      exact bound
    · rw [here] at found
      exact found

theorem position_mod {m : Nat} {start taken : Nat → Nat}
    (next : ∀ i, start (i + 1) = (start i + taken i) % m) (i : Nat) :
    position (start 0) taken i % m = start i % m := by
  induction i with
  | zero => rfl
  | succ i ih => rw [position, Nat.add_mod, ih, ← Nat.add_mod, next, Nat.mod_mod]

theorem eventually_in_window {m : Nat} {start taken : Nat → Nat} (moves : ∀ i, 1 ≤ taken i)
    (next : ∀ i, start (i + 1) = (start i + taken i) % m) {j : Nat} (place : j < m) :
    ∃ i k, k < taken i ∧ (start i + k) % m = j := by
  have after : start 0 ≤ start 0 * m + j := by
    have scaled : start 0 * 1 ≤ start 0 * m := Nat.mul_le_mul_left _ (by omega)
    omega
  obtain ⟨i, lower, upper⟩ := @exists_piece (start 0) taken moves _ after
  refine ⟨i, start 0 * m + j - position (start 0) taken i, by omega, ?_⟩
  rw [Nat.add_mod, ← position_mod next i, ← Nat.add_mod, Nat.add_sub_cancel' lower,
    Nat.mul_add_mod', Nat.mod_eq_of_lt place]

theorem eventually_still {f : Nat → Nat} (falls : ∀ i, f (i + 1) ≤ f i) :
    ∃ n, ∀ i, f (n + i) = f n := by
  have falling : ∀ i d, f (i + d) ≤ f i := by
    intro i d
    induction d with
    | zero => exact Nat.le_refl _
    | succ d ih => exact Nat.le_trans (falls (i + d)) ih
  classical
  have least : ∃ v, ∃ n, f n = v := ⟨f 0, 0, rfl⟩
  obtain ⟨n, reached⟩ := Nat.find_spec least
  refine ⟨n, fun i => Nat.le_antisymm (falling n i) ?_⟩
  rw [reached]
  exact Nat.find_min' least ⟨n + i, rfl⟩

end Ultrathink.Library.RoundRobin
