import Mathlib.Data.List.DropRight
import Mathlib.Data.List.Sort

/-!
# Counting in a sliding window

Of readings that never go back, the last `n` decide whether `n` of them lie past a boundary: it
is so exactly when there are that many and the oldest of the last `n` does.
-/

namespace Ultrathink.Library.Window

open List

variable {τ : Type}

/-- Keeps the last `n` readings when one more comes. -/
def keepLast (n : Nat) (kept : List τ) (t : τ) : List τ :=
  if n < (kept ++ [t]).length then (kept ++ [t]).drop 1 else kept ++ [t]

theorem keepLast_rtake {n : Nat} (some_ : 0 < n) (readings : List τ) (t : τ) :
    keepLast n (readings.rtake n) t = (readings ++ [t]).rtake n := by
  obtain ⟨m, rfl⟩ : ∃ m, n = m + 1 := ⟨n - 1, by omega⟩
  have length : (readings.rtake (m + 1)).length = min (m + 1) readings.length := by
    rw [List.rtake, length_drop]
    omega
  rw [rtake_concat_succ, keepLast, length_append, length, length_singleton]
  by_cases full : m + 1 ≤ readings.length
  · rw [if_pos (by omega)]
    have one : readings.length - (m + 1) + 1 = readings.length - m := by omega
    rw [drop_append_of_le_length (by rw [length]; omega), List.rtake, List.rtake, drop_drop,
      one]
  · rw [if_neg (by omega), List.rtake, List.rtake, show readings.length - (m + 1) = 0 by omega,
      show readings.length - m = 0 by omega]

variable [LinearOrder τ]

/-- How many readings lie past a boundary. -/
def countAfter (boundary : τ) (readings : List τ) : Nat :=
  (readings.filter fun t => boundary < t).length

theorem le_countAfter_iff {n : Nat} (some_ : 0 < n) {readings : List τ} (boundary : τ)
    (ordered : readings.Pairwise (· ≤ ·)) :
    n ≤ countAfter boundary readings ↔
      (readings.rtake n).length = n ∧ ∀ oldest ∈ (readings.rtake n).head?, boundary < oldest := by
  have split : readings = readings.take (readings.length - n) ++ readings.rtake n :=
    (take_append_drop _ _).symm
  have length : (readings.rtake n).length = min n readings.length := by
    rw [List.rtake, length_drop]
    omega
  by_cases enough : n ≤ readings.length
  · generalize readings.take (readings.length - n) = older at split
    generalize readings.rtake n = kept at split length
    subst split
    rw [min_eq_left enough] at length
    rw [pairwise_append] at ordered
    obtain ⟨-, keptOrdered, across⟩ := ordered
    cases kept with
    | nil => simp only [length_nil] at length; omega
    | cons oldest later =>
      rw [pairwise_cons] at keptOrdered
      simp only [countAfter, head?_cons, Option.mem_some_iff, forall_eq', length, true_and]
      rw [filter_append, length_append]
      by_cases past : boundary < oldest
      · have all : (oldest :: later).filter (fun t => boundary < t) = oldest :: later := by
          rw [filter_eq_self]
          intro t mem
          rcases mem_cons.mp mem with rfl | rest
          · exact decide_eq_true past
          · exact decide_eq_true (lt_of_lt_of_le past (keptOrdered.1 t rest))
        rw [all, length]
        exact ⟨fun _ => past, fun _ => Nat.le_add_left _ _⟩
      · have none_ : older.filter (fun t => boundary < t) = [] := by
          rw [filter_eq_nil_iff]
          intro t mem counted
          exact past (lt_of_lt_of_le (of_decide_eq_true counted) (across t mem oldest mem_cons_self))
        have fewer := length_filter_le (fun t => decide (boundary < t)) later
        rw [none_, filter_cons_of_neg (by simpa using past)]
        rw [length_cons] at length
        simp only [length_nil, past, iff_false]
        omega
  · have fewer := length_filter_le (fun t => decide (boundary < t)) readings
    rw [countAfter]
    constructor
    · intro counted
      omega
    · rintro ⟨whole, -⟩
      omega

end Ultrathink.Library.Window
