import Mathlib.Data.Int.Order.Basic
import Mathlib.Data.List.Perm.Basic

/-!
# A pool of workers over a queue

Workers take items from the front of one queue. A worker is idle at the head of its
loop, or waits for the item it took; it leaves when it finds nothing to take.
-/

namespace Ultrathink.Library

open List

/-- `α` are the queued items, `β` what a worker keeps of the one it waits for. -/
structure Pool (α β : Type) where
  queue : List α
  flying : List β
  idle : Nat

variable {pool pool' : Pool α β} {item : α}

namespace Pool

variable {α β : Type}

/-- At most `limit` workers, at least one, and no more than there are items. -/
def start (limit : ℤ) (items : List α) : Pool α β :=
  ⟨items, [], (max 1 (min limit items.length)).toNat⟩

/-- An idle worker's next item, the pool without them. -/
def take (pool : Pool α β) : Option (α × Pool α β) :=
  match pool.queue, pool.idle with
  | item :: queue, idle + 1 => some (item, ⟨queue, pool.flying, idle⟩)
  | _, _ => none

def wait (pool : Pool α β) (item : β) : Pool α β := { pool with flying := pool.flying ++ [item] }

def back (pool : Pool α β) : Pool α β := { pool with idle := pool.idle + 1 }

/-- The item at this place among those under way, the pool without it. -/
def land (pool : Pool α β) (i : Nat) : Option (β × Pool α β) :=
  pool.flying[i]?.map fun item => (item, { pool with flying := pool.flying.eraseIdx i })

def leave (pool : Pool α β) : Option (Pool α β) :=
  match pool.idle with
  | idle + 1 => some { pool with idle }
  | 0 => none

def isDone (pool : Pool α β) : Bool := pool.flying.isEmpty && pool.idle = 0

def weight (pool : Pool α β) : Nat := 3 * pool.queue.length + 2 * pool.flying.length + pool.idle

theorem start_weight_le (limit : ℤ) (items : List α) :
    (start limit items : Pool α β).weight ≤ 4 * items.length + 1 := by
  simp only [weight, start, length_nil]
  omega

theorem take_eq_some (took : pool.take = some (item, pool')) :
    pool.queue = item :: pool'.queue ∧ pool'.flying = pool.flying ∧ pool.idle = pool'.idle + 1 := by
  unfold take at took
  split at took
  · rename_i queue idle hq hi
    cases took
    exact ⟨hq, rfl, hi⟩
  · cases took

theorem wait_weight_lt {pool pool' : Pool α β} {item : α} (took : pool.take = some (item, pool'))
    (kept : β) : (pool'.wait kept).weight < pool.weight := by
  obtain ⟨queue, flying, idle⟩ := take_eq_some took
  simp only [weight, wait, queue, flying, idle, length_cons, length_append,
    length_nil]
  omega

theorem back_weight_lt (took : pool.take = some (item, pool')) :
    pool'.back.weight < pool.weight := by
  obtain ⟨queue, flying, idle⟩ := take_eq_some took
  simp only [weight, back, queue, flying, idle, length_cons]
  omega

theorem land_eq_some {pool pool' : Pool α β} {i : Nat} {item : β}
    (landed : pool.land i = some (item, pool')) :
    item ∈ pool.flying ∧ pool'.queue = pool.queue ∧ pool'.flying.Sublist pool.flying ∧
      pool'.back.weight < pool.weight := by
  unfold land at landed
  obtain ⟨found, at_, same⟩ := Option.map_eq_some_iff.mp landed
  cases same
  obtain ⟨bound, -⟩ := List.getElem?_eq_some_iff.mp at_
  refine ⟨List.mem_of_getElem? at_, rfl, List.eraseIdx_sublist .., ?_⟩
  simp only [weight, back, List.length_eraseIdx, bound, if_true]
  omega

theorem land_perm {pool pool' : Pool α β} {i : Nat} {item : β}
    (landed : pool.land i = some (item, pool')) : pool.flying.Perm (item :: pool'.flying) := by
  unfold land at landed
  obtain ⟨found, at_, same⟩ := Option.map_eq_some_iff.mp landed
  cases same
  obtain ⟨bound, rfl⟩ := List.getElem?_eq_some_iff.mp at_
  exact (List.getElem_cons_eraseIdx_perm bound).symm

theorem leave_weight_lt (left : pool.leave = some pool') :
    pool'.queue = pool.queue ∧ pool'.flying = pool.flying ∧ pool'.weight < pool.weight := by
  unfold leave at left
  split at left
  · rename_i idle hi
    cases left
    refine ⟨rfl, rfl, ?_⟩
    simp only [weight, hi]
    omega
  · cases left

theorem idle_of_not_isDone (open_ : pool.isDone = false) (none_ : pool.flying = []) :
    ∃ pool', pool.leave = some pool' := by
  unfold leave
  cases idle : pool.idle with
  | zero => simp [isDone, none_, idle] at open_
  | succ n => exact ⟨_, rfl⟩

end Pool

end Ultrathink.Library
