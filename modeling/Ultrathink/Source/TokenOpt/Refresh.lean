import Mathlib.Algebra.Order.Ring.Rat
import Ultrathink.Library.Runs

/-!
# Trailing refreshes (`omp-token-opt/src/refresh.ts`)

`createTrailingRefresh`: a read at a time, hook-driven calls at most once per `minMs`, and a
trailing read for a call that was skipped. The timers are those that are set and neither
cancelled nor fired. What was called, read and ended is written to a log, the latest first.
-/

namespace Ultrathink.Source.TokenOpt.Refresh

open Library.Runs

/-- A reading of the clock, in milliseconds. -/
abbrev Time := ℚ

/-- A promise in `inFlight`: its read runs, or has settled and `finally` is still to run. -/
inductive Stage where
  | reading
  | settled
  deriving DecidableEq

/-- The variables of one refresh, and the timers that it has set. -/
structure Refresh where
  inFlight : Option Stage
  lastAt : Time
  skipped : Bool
  cancelTimer : Option Nat
  timers : List (Nat × Time)
  drawn : Nat
  deriving DecidableEq

def createTrailingRefresh : Refresh := ⟨none, 0, false, none, [], 0⟩

def start (r : Refresh) : Refresh := { r with skipped := false, inFlight := some .reading }

/-- The timer may fire `Math.max(0, lastAt + minMs - now())` after `now`. -/
def schedule (minMs now : Time) (r : Refresh) : Refresh :=
  match r.cancelTimer with
  | some _ => r
  | none =>
    { r with
      cancelTimer := some r.drawn
      timers := (r.drawn, now + max 0 (r.lastAt + minMs - now)) :: r.timers
      drawn := r.drawn + 1 }

def clearTimer (r : Refresh) : Refresh :=
  match r.cancelTimer with
  | none => r
  | some id => { r with cancelTimer := none, timers := r.timers.filter fun timer => timer.1 ≠ id }

/-- A call, which reads the clock at `now` and again at `later`; whether it starts a read. -/
def call (minMs : Time) (force : Bool) (now later : Time) (r : Refresh) : Refresh × Bool :=
  if r.inFlight.isSome then ({ r with skipped := r.skipped || !force }, false)
  else if !force && now - r.lastAt < minMs then
    (schedule minMs later { r with skipped := true }, false)
  else (start (clearTimer r), true)

/-- The read resolves or rejects. -/
def settle (r : Refresh) : Refresh := { r with inFlight := some .settled }

/-- `finally`, which reads the clock at `now` and again at `later`. -/
def finish (minMs now later : Time) (r : Refresh) : Refresh :=
  let ended := { r with inFlight := none, lastAt := now }
  if r.skipped then schedule minMs later ended else ended

/-- The callback of a timer; whether it starts a read. -/
def fire (id : Nat) (r : Refresh) : Refresh × Bool :=
  let fired := { r with cancelTimer := none, timers := r.timers.filter fun timer => timer.1 ≠ id }
  if r.inFlight.isNone then (start fired, true) else ({ fired with skipped := true }, false)

inductive Entry where
  | called (force : Bool) (at_ : Time)
  | began (force : Bool) (at_ : Time)
  | ended (at_ : Time)
  deriving DecidableEq

structure State where
  refresh : Refresh
  clock : Time
  log : List Entry
  deriving DecidableEq

/-- Each input has its readings of the clock; a read may resolve or reject. -/
inductive Input where
  | call (force : Bool) (now later : Time)
  | settle (rejected : Bool) (now : Time)
  | finish (now later : Time)
  | fire (id : Nat) (now : Time)
  deriving DecidableEq

def step (minMs : Time) (s : State) : Input → Option State
  | .call force now later =>
    if s.clock ≤ now ∧ now ≤ later then
      let (r, reads) := call minMs force now later s.refresh
      some ⟨r, later,
        if reads then .began force later :: .called force now :: s.log
        else .called force now :: s.log⟩
    else none
  | .settle _ now =>
    if s.clock ≤ now ∧ s.refresh.inFlight = some .reading then
      some ⟨settle s.refresh, now, .ended now :: s.log⟩
    else none
  | .finish now later =>
    if s.clock ≤ now ∧ now ≤ later ∧ s.refresh.inFlight = some .settled then
      some ⟨finish minMs now later s.refresh, later, s.log⟩
    else none
  | .fire id now =>
    -- a timer fires no earlier than asked
    match s.refresh.timers.find? fun timer => timer.1 = id with
    | none => none
    | some (_, due) =>
      if s.clock ≤ now ∧ due ≤ now then
        let (r, reads) := fire id s.refresh
        some ⟨r, now, if reads then .began false now :: s.log else s.log⟩
      else none

/-- Any clock, and nothing called yet. -/
def Start (s : State) : Prop := s.refresh = createTrailingRefresh ∧ s.log = []

def system (minMs : Time) : System State Input := System.ofStep Start (step minMs)

end Ultrathink.Source.TokenOpt.Refresh
