import Mathlib.Algebra.GroupWithZero.Nat
import Ultrathink.Library.OrderedMap
import Ultrathink.Library.Runs

/-!
# Weighted admission for a bounded pool

Model of `services/ultrathink/obs/fair-share.ts`. The closure state of
`createFairShare` is one record; each API call and each callback that the
runtime delivers later (a release, a timer, an abort) is one input. A promise
returned by `admit` is named by the call's number, and the settlement a
promise receives is appended to `settled`. `handles` lists the granted
`release` functions with their `released` flag. `granted` and `dispatched` are
history variables: they record what was granted and under which budgets, and
no definition reads them.

Not modelled: the `onWait` callback (it may not release slots) and the text of
the security events beyond the three details they carry.
-/

namespace Ultrathink.Source.FairShare
open Ultrathink.Library

inductive AdmissionClass where
  | owner | connector | bearer
  deriving DecidableEq, Repr

structure Admission where
  principal : String
  cls : AdmissionClass
  deriving DecidableEq, Repr

/-- Highest priority first. The order in which freed slots are handed out. -/
def classOrder : List AdmissionClass := [.owner, .connector, .bearer]

inductive FairShareRefusal where
  | capacity | reserved | principal
  deriving DecidableEq, Repr

/-- The `cause` detail of a refusal reported to the security logger. -/
inductive Cause where
  | budget | queueFull | expired
  deriving DecidableEq, Repr

inductive AdmitResult where
  | granted (handle : Nat)
  | refused (reason : FairShareRefusal) (cause : Cause)
  | aborted
  deriving DecidableEq, Repr

def maxSafeInteger : Int := 9007199254740991

/-- The numbers given to `createFairShare`. A number that is no integer fails
the same tests as one out of range. -/
structure FairShareQueue where
  depth : Int
  waitMs : Int

structure FairShareOptions where
  capacity : Int
  reserve : Int
  perPrincipalMax : Option Int
  queue : Option FairShareQueue

/-- The validated numbers that the pool's functions close over. -/
structure Pool where
  capacity : Nat
  reserve : Nat
  perPrincipalMax : Nat
  depth : Nat
  capacity_pos : 0 < capacity
  reserve_lt : reserve < capacity
  perPrincipalMax_pos : 0 < perPrincipalMax
  perPrincipalMax_le : perPrincipalMax ≤ capacity

def isSafeInteger (n : Int) : Bool := -maxSafeInteger ≤ n ∧ n ≤ maxSafeInteger

/-- The construction-time checks, in the order of the source. The error names
the option that was refused. -/
def createFairShare (options : FairShareOptions) : Except String Pool :=
  let perPrincipalMax := options.perPrincipalMax.getD options.capacity
  if capacity : isSafeInteger options.capacity ∧ 0 < options.capacity then
    if reserve : isSafeInteger options.reserve ∧ 0 ≤ options.reserve ∧
        options.reserve < options.capacity then
      if principal : isSafeInteger perPrincipalMax ∧ 1 ≤ perPrincipalMax ∧
          perPrincipalMax ≤ options.capacity then
        let depthOk := options.queue.all (fun q => isSafeInteger q.depth ∧ 0 ≤ q.depth)
        let waitOk := options.queue.all (fun q => isSafeInteger q.waitMs ∧ 1 ≤ q.waitMs)
        if ¬ depthOk then .error "queue.depth"
        else if ¬ waitOk then .error "queue.waitMs"
        else .ok
          { capacity := options.capacity.toNat
            reserve := options.reserve.toNat
            perPrincipalMax := perPrincipalMax.toNat
            depth := ((options.queue.map FairShareQueue.depth).getD 0).toNat
            capacity_pos := by omega
            reserve_lt := by omega
            perPrincipalMax_pos := by omega
            perPrincipalMax_le := by omega }
      else .error "perPrincipalMax"
    else .error "reserve"
  else .error "capacity"

/-- One queued `admit` call. `blocked` is the refusal its timer reports. -/
structure Waiter where
  call : Nat
  admission : Admission
  signal : Bool
  blocked : FairShareRefusal
  deriving DecidableEq, Repr

/-- A `release` closure: whose slot it frees and whether it already did. -/
structure Handle where
  admission : Admission
  released : Bool
  deriving DecidableEq, Repr

/-- History of one granted slot: the counters `blockedBy` had just read. -/
structure Grant where
  admission : Admission
  held : Nat
  own : Nat
  deriving DecidableEq, Repr

structure Report where
  cls : AdmissionClass
  reason : FairShareRefusal
  cause : Cause
  deriving DecidableEq, Repr

structure State where
  held : Nat
  heldByPrincipal : OrderedMap String Nat
  waiting : AdmissionClass → List Waiter
  /-- Timers set by `admit` and not cleared, by call. -/
  timers : List Nat
  handles : List Handle
  calls : Nat
  settled : List (Nat × AdmitResult)
  reports : List Report
  granted : List Grant
  dispatched : List Waiter

def initial : State where
  held := 0
  heldByPrincipal := .empty
  waiting := fun _ => []
  timers := []
  handles := []
  calls := 0
  settled := []
  reports := []
  granted := []
  dispatched := []

def ownHeld (s : State) (principal : String) : Nat := (s.heldByPrincipal.get? principal).getD 0

/-- The first refusal rule the admission fails right now, or none when it fits
the budget. -/
def blockedBy (pool : Pool) (s : State) (admission : Admission) : Option FairShareRefusal :=
  if s.held ≥ pool.capacity then some .capacity
  else if admission.cls ≠ .owner ∧ s.held ≥ pool.capacity - pool.reserve then some .reserved
  else if admission.cls ≠ .owner ∧ ownHeld s admission.principal ≥ pool.perPrincipalMax then
    some .principal
  else none

/-- Takes a slot the admission already fits. The new release closure is the
last entry of `handles`. -/
def take (s : State) (admission : Admission) : State :=
  { s with
    held := s.held + 1
    heldByPrincipal :=
      s.heldByPrincipal.set admission.principal (ownHeld s admission.principal + 1)
    handles := s.handles ++ [⟨admission, false⟩]
    granted := s.granted ++ [⟨admission, s.held, ownHeld s admission.principal⟩] }

/-- Settles a waiter: clears its timer, then resolves its promise. -/
def finish (s : State) (waiter : Waiter) (result : AdmitResult) : State :=
  { s with
    timers := s.timers.filter (· ≠ waiter.call)
    settled := s.settled ++ [(waiter.call, result)] }

/-- The head of a class queue, when it is there and fits the budget. -/
def fittingHead (pool : Pool) (s : State) (cls : AdmissionClass) : Option Waiter :=
  (s.waiting cls).head?.filter (fun head => blockedBy pool s head.admission = none)

/-- The waiter the next pass of the dispatcher grants: the head of the highest
class whose head fits. -/
def nextWaiter (pool : Pool) (s : State) : Option Waiter :=
  classOrder.findSome? (fittingHead pool s)

def setLine (s : State) (cls : AdmissionClass) (line : List Waiter) : State :=
  { s with waiting := Function.update s.waiting cls line }

/-- One grant of the dispatcher: shift the queue, take the slot, settle. -/
def grantHead (s : State) (head : Waiter) : State :=
  let shifted := setLine s head.admission.cls (s.waiting head.admission.cls).tail
  let taken := take shifted head.admission
  let settled := finish taken head (.granted s.handles.length)
  { settled with dispatched := settled.dispatched ++ [head] }

def queued (s : State) : Nat := (classOrder.map (fun cls => (s.waiting cls).length)).sum

/-- The `while (granted)` loop. Every pass but the last shifts one waiter, so
one pass for each queued waiter is enough (`admitWaiters_atRest`). -/
def admitWaitersLoop (pool : Pool) : Nat → State → State
  | 0, s => s
  | passes + 1, s =>
    match nextWaiter pool s with
    | none => s
    | some head => admitWaitersLoop pool passes (grantHead s head)

/-- Hands freed slots to waiters, again and again until none fits. -/
def admitWaiters (pool : Pool) (s : State) : State := admitWaitersLoop pool (queued s) s

/-- The part of a release before the dispatcher runs. -/
def freeSlot (s : State) (handle : Nat) (admission : Admission) : State :=
  let remaining := (s.heldByPrincipal.get? admission.principal).getD 1 - 1
  { s with
    held := s.held - 1
    heldByPrincipal :=
      if remaining > 0 then s.heldByPrincipal.set admission.principal remaining
      else s.heldByPrincipal.erase admission.principal
    handles := s.handles.set handle ⟨admission, true⟩ }

/-- Calling the `handle`-th release closure. A second call frees nothing. -/
def release (pool : Pool) (s : State) (handle : Nat) : State :=
  match s.handles[handle]? with
  | none => s
  | some h => if h.released then s else admitWaiters pool (freeSlot s handle h.admission)

def report (s : State) (admission : Admission) (reason : FairShareRefusal) (cause : Cause) :
    State :=
  { s with reports := s.reports ++ [⟨admission.cls, reason, cause⟩] }

def acquire (pool : Pool) (s : State) (admission : Admission) : State :=
  match blockedBy pool s admission with
  | some blocked => report s admission blocked .budget
  | none => take s admission

/-- An `admit` that settles in the call itself. -/
def settleNow (s : State) (result : AdmitResult) : State :=
  { s with calls := s.calls + 1, settled := s.settled ++ [(s.calls, result)] }

def enqueue (s : State) (admission : Admission) (signal : Bool) (blocked : FairShareRefusal) :
    State :=
  let waiter : Waiter := ⟨s.calls, admission, signal, blocked⟩
  { setLine s admission.cls (s.waiting admission.cls ++ [waiter]) with
    calls := s.calls + 1
    timers := s.timers ++ [s.calls] }

/-- `signal` says whether the caller passed an abort signal, `aborted` whether
it had already fired. -/
def admitCall (pool : Pool) (s : State) (admission : Admission) (signal aborted : Bool) : State :=
  if signal ∧ aborted then settleNow s .aborted
  else match blockedBy pool s admission with
    | none => take (settleNow s (.granted s.handles.length)) admission
    | some blocked =>
      if (s.waiting admission.cls).length ≥ pool.depth then
        settleNow (report s admission blocked .queueFull) (.refused blocked .queueFull)
      else enqueue s admission signal blocked

/-- Everyone queued, highest class first. -/
def waiters (s : State) : List Waiter := classOrder.flatMap s.waiting

/-- The queued waiter of that call, if it has not left its queue. -/
def findWaiter (s : State) (call : Nat) : Option Waiter :=
  (waiters s).find? (fun w => w.call = call)

/-- Removes a waiter from its queue. -/
def removeWaiter (s : State) (waiter : Waiter) : State :=
  setLine s waiter.admission.cls ((s.waiting waiter.admission.cls).erase waiter)

/-- A waiter leaves by its timer: reported, settled as expired. -/
def expireWaiter (s : State) (waiter : Waiter) : State :=
  finish (report (removeWaiter s waiter) waiter.admission waiter.blocked .expired) waiter
    (.refused waiter.blocked .expired)

def abortWaiter (s : State) (waiter : Waiter) : State :=
  finish (removeWaiter s waiter) waiter .aborted

/-- The timer of an `admit` call fires. -/
def timeout (pool : Pool) (s : State) (call : Nat) : State :=
  match findWaiter s call with
  | none => s
  | some waiter => admitWaiters pool (expireWaiter s waiter)

/-- The signal of an `admit` call fires. -/
def abort (pool : Pool) (s : State) (call : Nat) : State :=
  match findWaiter s call with
  | none => s
  | some waiter => if waiter.signal then admitWaiters pool (abortWaiter s waiter) else s

inductive Input where
  | acquire (admission : Admission)
  | admitCall (admission : Admission) (signal aborted : Bool)
  | release (handle : Nat)
  | timeout (call : Nat)
  | abort (call : Nat)

def step (pool : Pool) (s : State) : Input → State
  | .acquire admission => acquire pool s admission
  | .admitCall admission signal aborted => admitCall pool s admission signal aborted
  | .release handle => release pool s handle
  | .timeout call => timeout pool s call
  | .abort call => abort pool s call

/-- The state after a sequence of inputs on a fresh pool. -/
def run (pool : Pool) (inputs : List Input) : State :=
  Runs.runInputs (step pool) initial inputs

end Ultrathink.Source.FairShare
