import Ultrathink.Library.Runs
import Mathlib.Data.Int.Notation

/-!
# Circuit breaker

`createCircuitBreaker` of `engine/breaker.ts`. A slot is what the closure of an acquired call
holds; slots are named by the order they were handed out in. Each operation that reads the
clock reads it once; the reading is an argument here. The `onTransition` hook is left out.
-/

namespace Ultrathink.Source.Engine.CircuitBreaker

inductive BreakerState where
  | closed
  | open_
  | halfOpen
  deriving DecidableEq

inductive ReleaseOutcome where
  | success
  | failure
  | ignored
  deriving DecidableEq

/-- The options that `requirePositiveInteger` lets through. -/
structure CircuitBreakerOptions where
  failureThreshold : Nat
  windowMs : Nat
  openMs : Nat
  halfOpenMaxCalls : Nat
  thresholdPos : 1 ≤ failureThreshold
  windowPos : 1 ≤ windowMs
  openPos : 1 ≤ openMs
  callsPos : 1 ≤ halfOpenMaxCalls

def HALF_OPEN_RETRY_MS : ℤ := 1000

structure Breaker where
  state : BreakerState
  failures : Nat
  windowStart : Option ℤ
  openedAt : Option ℤ
  transitions : Nat
  generation : Nat
  inFlight : ℤ
  deriving DecidableEq

structure Slot where
  probe : Bool
  generation : Nat
  released : Bool
  deriving DecidableEq

structure State where
  breaker : Breaker
  slots : List Slot
  deriving DecidableEq

inductive Acquire where
  | ok (slot : Nat)
  | refused (retryAfterMs : ℤ)
  deriving DecidableEq

def createCircuitBreaker : State := ⟨⟨.closed, 0, none, none, 0, 0, 0⟩, []⟩

def transition (to_ : BreakerState) (b : Breaker) : Breaker :=
  { b with
    state := to_
    transitions := b.transitions + 1
    generation := b.generation + 1
    inFlight := 0 }

def openAt (t : ℤ) (b : Breaker) : Breaker := transition .open_ { b with openedAt := some t }

section
variable (o : CircuitBreakerOptions)

/-- A failure in the running window, or the first one of a new window. -/
def countFailure (t : ℤ) (b : Breaker) : Breaker :=
  match b.windowStart with
  | some start =>
    if o.windowMs ≤ t - start then { b with windowStart := some t, failures := 1 }
    else { b with failures := b.failures + 1 }
  | none => { b with windowStart := some t, failures := 1 }

def recordClosedFailure (t : ℤ) (b : Breaker) : Breaker :=
  let b := countFailure o t b
  if o.failureThreshold ≤ b.failures then openAt t b else b

def closedRelease (slot : Slot) (outcome : ReleaseOutcome) (t : ℤ) (b : Breaker) : Breaker :=
  if outcome = .failure ∧ b.state = .closed ∧ slot.generation = b.generation then
    recordClosedFailure o t b
  else b

def probeRelease (slot : Slot) (outcome : ReleaseOutcome) (t : ℤ) (b : Breaker) : Breaker :=
  if slot.generation ≠ b.generation then b
  else
    let b := { b with inFlight := b.inFlight - 1 }
    match outcome with
    | .success => transition .closed { b with failures := 0, windowStart := none }
    | .failure => openAt t { b with failures := b.failures + 1 }
    | .ignored => b

def reported (slot : Slot) (outcome : ReleaseOutcome) (t : ℤ) (b : Breaker) : Breaker :=
  if slot.probe then probeRelease slot outcome t b else closedRelease o slot outcome t b

def release (i : Nat) (outcome : ReleaseOutcome) (t : ℤ) (s : State) : State :=
  match s.slots[i]? with
  | some slot =>
    if slot.released then s
    else ⟨reported o slot outcome t s.breaker, s.slots.set i { slot with released := true }⟩
  | none => s

def closedAcquire (s : State) : State × Acquire :=
  (⟨s.breaker, s.slots ++ [⟨false, s.breaker.generation, false⟩]⟩, .ok s.slots.length)

def probeAcquire (s : State) : State × Acquire :=
  (⟨{ s.breaker with inFlight := s.breaker.inFlight + 1 },
    s.slots ++ [⟨true, s.breaker.generation, false⟩]⟩, .ok s.slots.length)

def halfOpenAcquire (s : State) : State × Acquire :=
  if o.halfOpenMaxCalls ≤ s.breaker.inFlight then (s, .refused HALF_OPEN_RETRY_MS)
  else probeAcquire s

/-- `openedAt` is set in the open state. -/
def elapsed (t : ℤ) (b : Breaker) : ℤ := t - b.openedAt.getD 0

def tryAcquire (t : ℤ) (s : State) : State × Acquire :=
  match s.breaker.state with
  | .open_ =>
    if elapsed t s.breaker < o.openMs then
      (s, .refused (min (o.openMs : ℤ) (max 1 (o.openMs - elapsed t s.breaker))))
    else halfOpenAcquire o { s with breaker := transition .halfOpen s.breaker }
  | .halfOpen => halfOpenAcquire o s
  | .closed => closedAcquire s

inductive Event where
  | acquire (t : ℤ)
  | report (slot : Nat) (outcome : ReleaseOutcome) (t : ℤ)
  deriving DecidableEq

def step (s : State) : Event → State
  | .acquire t => (tryAcquire o t s).1
  | .report i outcome t => release o i outcome t s

end

section
variable {o : CircuitBreakerOptions} {t : ℤ}

theorem recordClosedFailure_cases (t : ℤ) (b : Breaker) :
    (recordClosedFailure o t b = countFailure o t b) ∨
      (o.failureThreshold ≤ (countFailure o t b).failures ∧
        recordClosedFailure o t b = openAt t (countFailure o t b)) := by
  unfold recordClosedFailure
  dsimp only
  split
  · next reached => exact .inr ⟨reached, rfl⟩
  · exact .inl rfl

theorem countFailure_frame (t : ℤ) (b : Breaker) :
    (countFailure o t b).state = b.state ∧ (countFailure o t b).generation = b.generation ∧
      (countFailure o t b).inFlight = b.inFlight ∧
      (countFailure o t b).openedAt = b.openedAt := by
  unfold countFailure
  split
  · split <;> exact ⟨rfl, rfl, rfl, rfl⟩
  · exact ⟨rfl, rfl, rfl, rfl⟩

theorem closedRelease_cases (slot : Slot) (outcome : ReleaseOutcome) (t : ℤ) (b : Breaker) :
    (¬(outcome = .failure ∧ b.state = .closed ∧ slot.generation = b.generation) ∧
        closedRelease o slot outcome t b = b) ∨
      (outcome = .failure ∧ b.state = .closed ∧ slot.generation = b.generation ∧
        closedRelease o slot outcome t b = recordClosedFailure o t b) := by
  unfold closedRelease
  split
  · next counts => exact .inr ⟨counts.1, counts.2.1, counts.2.2, rfl⟩
  · next other => exact .inl ⟨other, rfl⟩

theorem probeRelease_stale {slot : Slot} {b : Breaker} (stale : slot.generation ≠ b.generation)
    (outcome : ReleaseOutcome) (t : ℤ) : probeRelease slot outcome t b = b := if_pos stale

theorem reported_stale {slot : Slot} {b : Breaker} (stale : slot.generation ≠ b.generation)
    (outcome : ReleaseOutcome) (t : ℤ) : reported o slot outcome t b = b := by
  unfold reported
  split
  · exact probeRelease_stale stale outcome t
  · rcases closedRelease_cases (o := o) slot outcome t b with ⟨_, same⟩ | ⟨_, _, fresh, _⟩
    · exact same
    · exact absurd fresh stale

/-- A probe of the running half-open period frees its slot and may end the period. -/
theorem reported_probe {slot : Slot} {b : Breaker} (probe : slot.probe = true)
    (fresh : slot.generation = b.generation) (outcome : ReleaseOutcome) (t : ℤ) :
    reported o slot outcome t b =
      match outcome with
      | .success => transition .closed
          { b with inFlight := b.inFlight - 1, failures := 0, windowStart := none }
      | .failure => openAt t { b with inFlight := b.inFlight - 1, failures := b.failures + 1 }
      | .ignored => { b with inFlight := b.inFlight - 1 } := by
  rw [reported, if_pos probe, probeRelease, if_neg (fun stale => stale fresh)]

theorem reported_closed {slot : Slot} (closed : slot.probe = false) (outcome : ReleaseOutcome)
    (t : ℤ) (b : Breaker) : reported o slot outcome t b = closedRelease o slot outcome t b := by
  rw [reported, closed, if_neg Bool.false_ne_true]

theorem release_cases (i : Nat) (outcome : ReleaseOutcome) (t : ℤ) (s : State) :
    release o i outcome t s = s ∨
      ∃ slot, s.slots[i]? = some slot ∧ slot.released = false ∧
        release o i outcome t s =
          ⟨reported o slot outcome t s.breaker, s.slots.set i { slot with released := true }⟩ := by
  unfold release
  cases found : s.slots[i]? with
  | none => exact .inl rfl
  | some slot =>
    cases done : slot.released with
    | true => exact .inl (by simp only [done, if_true])
    | false => exact .inr ⟨slot, rfl, done, by simp only [done, Bool.false_eq_true, if_false]⟩

end

end Ultrathink.Source.Engine.CircuitBreaker
