import Mathlib.Algebra.Ring.Int.Defs
import Ultrathink.Library.OrderedMap
import Ultrathink.Library.JsText
import Mathlib.Data.List.Sort
import Mathlib.Algebra.BigOperators.Group.List.Basic

/-!
# The runs database

The tables of `store/store.ts`, `cost/ledger.ts` and the worker's own schema, and
the statements and transactions that the worker sends. Each definition is one
statement or one IMMEDIATE transaction: it happens at once and sees no other
writer. `updated_at`, `route` and the retention job are left out; nothing modelled
reads them.
-/

namespace Ultrathink.Source.Store

open Library JsText

inductive RunStatus where
  | queued | discovering | discussing | planning | executing
  | pausedForDecision | pausedForBlocker | complete | failed
deriving DecidableEq

inductive Phase where
  | discover | discuss | plan | execute
deriving DecidableEq

def Phase.name : Phase → Text
  | .discover => js "discover"
  | .discuss => js "discuss"
  | .plan => js "plan"
  | .execute => js "execute"

/-- A row of `runs`; its id is its key in the table. -/
structure Run where
  ownerId : Text
  request : Text
  status : RunStatus
  currentPhase : Option Phase
  reason : Option Text
  createdAt : ℤ

structure Lease where
  holder : Text
  expiresAt : ℤ
deriving DecidableEq

/-- A row of `phases`; the worker only records complete ones. -/
structure PhaseRecord where
  runId : Text
  phase : Phase
  attempt : Nat
  output : Text
  createdAt : ℤ

inductive ReservationState where
  | reserved | settled | abandoned
deriving DecidableEq

structure Reservation where
  id : Nat
  runId : Text
  phase : Phase
  attempt : Nat
  day : ℤ
  reservedTokens : ℤ
  actualTokens : ℤ
  state : ReservationState

structure DecisionOption where
  label : Text
  tradeoff : Text
deriving DecidableEq

structure Decision where
  id : Nat
  runId : Text
  phase : Phase
  attempt : Nat
  question : Text
  options : List DecisionOption
  default : Text
  answer : Option Text

structure Db where
  runs : OrderedMap Text Run
  leases : OrderedMap Text Lease
  phases : List PhaseRecord
  ledger : List Reservation
  decisions : List Decision

def Db.empty : Db := ⟨.empty, .empty, [], [], []⟩

/-- The columns an update sets; an absent one keeps its value. -/
structure Patch where
  status : Option RunStatus
  currentPhase : Option (Option Phase)
  reason : Option (Option Text)

def Patch.apply (patch : Patch) (run : Run) : Run :=
  { run with
    status := patch.status.getD run.status
    currentPhase := patch.currentPhase.getD run.currentPhase
    reason := patch.reason.getD run.reason }

def updateRun (db : Db) (runId : Text) (patch : Patch) : Db :=
  { db with runs := db.runs.modify runId patch.apply }

/-- A fresh id; an id that is taken would make the insert fail. -/
def createRun (db : Db) (id ownerId request : Text) (now : ℤ) : Db :=
  if db.runs.contains id then db
  else { db with runs := db.runs.set id ⟨ownerId, request, .queued, none, none, now⟩ }

def getRunForOwner (db : Db) (runId ownerId : Text) : Option Run :=
  (db.runs.get? runId).filter fun run => run.ownerId = ownerId

def isClaimable (status : RunStatus) : Bool :=
  status = .queued || status = .discovering || status = .discussing || status = .planning ||
    status = .executing

/-- No lease, or an expired one. -/
def leaseFree (db : Db) (runId : Text) (now : ℤ) : Bool :=
  match db.leases.get? runId with
  | none => true
  | some lease => lease.expiresAt < now

/-- `ORDER BY created_at, id` -/
def runBefore (a b : Text × Run) : Bool :=
  a.2.createdAt < b.2.createdAt || (a.2.createdAt = b.2.createdAt && le a.1 b.1)

structure ClaimedRun where
  id : Text
  request : Text

def claimNext (db : Db) (holder : Text) (leaseMs now : ℤ) : Option (ClaimedRun × Db) :=
  let candidates := db.runs.entries.filter fun e => leaseFree db e.1 now && isClaimable e.2.status
  match (candidates.insertionSort fun a b => runBefore a b).head? with
  | none => none
  | some (id, run) =>
    some (⟨id, run.request⟩,
      { db with leases := db.leases.set id ⟨holder, now + leaseMs⟩ })

/-- `none` when the row is gone or another holder's: `LeaseLostError`. -/
def renewLease (db : Db) (runId holder : Text) (leaseMs now : ℤ) : Option Db :=
  match db.leases.get? runId with
  | some lease =>
    if lease.holder = holder then
      some { db with leases := db.leases.set runId ⟨holder, now + leaseMs⟩ }
    else none
  | none => none

def deleteLease (db : Db) (runId holder : Text) : Db :=
  match db.leases.get? runId with
  | some lease => if lease.holder = holder then { db with leases := db.leases.erase runId } else db
  | none => db

def phaseBefore (a b : PhaseRecord) : Bool :=
  a.createdAt < b.createdAt || (a.createdAt = b.createdAt &&
    (le a.phase.name b.phase.name && (a.phase ≠ b.phase || a.attempt ≤ b.attempt)))

def listPhases (db : Db) (runId : Text) : List PhaseRecord :=
  (db.phases.filter fun record => record.runId = runId).insertionSort fun a b => phaseBefore a b

abbrev Outputs := OrderedMap Phase Text

def completedOutputs (db : Db) (runId : Text) : Outputs :=
  (listPhases db runId).foldl (fun outputs record => outputs.set record.phase record.output) .empty

/-- `none` for a repeated key: `DuplicatePhaseError`. -/
def recordPhase (db : Db) (record : PhaseRecord) : Option Db :=
  if db.phases.any fun r => r.runId = record.runId && r.phase = record.phase &&
      r.attempt = record.attempt then none
  else some { db with phases := db.phases ++ [record] }

/-- The question of the phase's latest decision without an answer. -/
def pendingQuestion (db : Db) (runId : Text) (phase : Phase) : Option Text :=
  ((db.decisions.filter fun d => d.runId = runId && d.phase = phase && d.answer = none).getLast?).map
    (·.question)

structure OwnerAnswer where
  question : Text
  answer : Text

def latestAnswer (db : Db) (runId : Text) (phase : Phase) : Option OwnerAnswer :=
  match (db.decisions.filter fun d => d.runId = runId && d.phase = phase && d.answer ≠ none).getLast? with
  | some d => d.answer.map fun answer => ⟨d.question, answer⟩
  | none => none

def insertDecision (db : Db) (runId : Text) (phase : Phase) (attempt : Nat) (question : Text)
    (options : List DecisionOption) (default : Text) : Option Db :=
  if db.decisions.any fun d => d.runId = runId && d.phase = phase && d.attempt = attempt then none
  else some { db with decisions := db.decisions ++
    [⟨db.decisions.length + 1, runId, phase, attempt, question, options, default, none⟩] }

def nextAttempt (db : Db) (runId : Text) (phase : Phase) : Nat :=
  ((db.ledger.filter fun r => r.runId = runId && r.phase = phase).map (·.attempt)).foldl max 0 + 1

def reservedIds (db : Db) (runId : Text) : List Nat :=
  (db.ledger.filter fun r => r.runId = runId && r.state = .reserved).map (·.id)

/-- Settled rows count what was used, the others what was reserved. -/
def Reservation.spent (r : Reservation) : ℤ :=
  if r.state = .settled then r.actualTokens else r.reservedTokens

/-- The UTC day of a time in milliseconds, by number. -/
def dayOf (now : ℤ) : ℤ := now / 86400000

structure LedgerLimits where
  runTokenCeiling : ℤ
  dailyTokenCeiling : ℤ

inductive ReserveOutcome where
  | reserved (db : Db) (reservationId : Nat)
  | runCeiling
  | dayCeiling
  | writeError

def reserve (limits : LedgerLimits) (db : Db) (runId : Text) (phase : Phase) (attempt : Nat)
    (estimate now : ℤ) : ReserveOutcome :=
  let runSpent := ((db.ledger.filter fun r => r.runId = runId).map (·.spent)).sum
  let daySpent := ((db.ledger.filter fun r => r.day = dayOf now).map (·.spent)).sum
  if limits.runTokenCeiling < runSpent + estimate then .runCeiling
  else if limits.dailyTokenCeiling < daySpent + estimate then .dayCeiling
  else if db.ledger.any fun r => r.runId = runId && r.phase = phase && r.attempt = attempt then
    .writeError
  else
    let id := db.ledger.length + 1
    .reserved { db with ledger := db.ledger ++
      [⟨id, runId, phase, attempt, dayOf now, estimate, 0, .reserved⟩] } id

/-- Moves one reserved row on; `none` when there is no such row. -/
def transition (db : Db) (reservationId : Nat) (state : ReservationState) (actual : ℤ) : Option Db :=
  if db.ledger.any fun r => r.id = reservationId && r.state = .reserved then
    some { db with ledger := db.ledger.map fun r =>
      if r.id = reservationId && r.state = .reserved then { r with state, actualTokens := actual }
      else r }
  else none

/-- `actualTokens` is absent when the model reports no valid count. -/
def settle (db : Db) (reservationId : Nat) (actualTokens : Option Nat) : Option Db :=
  actualTokens.bind fun actual => transition db reservationId .settled actual

/-- Only a row that is still reserved is abandoned; otherwise nothing happens. -/
def abandonReservation (db : Db) (reservationId : Nat) : Db :=
  (transition db reservationId .abandoned 0).getD db

/-- Nothing but phases, the ledger and decisions differs. -/
def SameRuns (db db' : Db) : Prop := db'.runs = db.runs ∧ db'.leases = db.leases

theorem SameRuns.refl (db : Db) : SameRuns db db := ⟨rfl, rfl⟩

theorem SameRuns.trans {a b c : Db} (first : SameRuns a b) (second : SameRuns b c) :
    SameRuns a c := ⟨second.1.trans first.1, second.2.trans first.2⟩

variable {db db' : Db} {runId : Text} {id : Nat} {now : ℤ}

theorem recordPhase_sameRuns {record : PhaseRecord} (ok : recordPhase db record = some db') :
    SameRuns db db' := by
  unfold recordPhase at ok
  split at ok
  · cases ok
  · cases ok
    exact ⟨rfl, rfl⟩

variable {attempt : Nat} {holder : Text} {leaseMs : ℤ} {phase : Phase}

theorem insertDecision_sameRuns {question default : Text} {options : List DecisionOption}
    (ok : insertDecision db runId phase attempt question options default = some db') :
    SameRuns db db' := by
  unfold insertDecision at ok
  split at ok
  · cases ok
  · cases ok
    exact ⟨rfl, rfl⟩

theorem transition_sameRuns {state : ReservationState} {actual : ℤ}
    (ok : transition db id state actual = some db') : SameRuns db db' := by
  unfold transition at ok
  split at ok
  · cases ok
    exact ⟨rfl, rfl⟩
  · cases ok

theorem settle_sameRuns {actual : Option Nat} (ok : settle db id actual = some db') :
    SameRuns db db' := by
  obtain ⟨n, -, moved⟩ := Option.bind_eq_some_iff.mp ok
  exact transition_sameRuns moved

theorem abandonReservation_sameRuns (db : Db) (id : Nat) : SameRuns db (abandonReservation db id) := by
  unfold abandonReservation
  cases moved : transition db id .abandoned 0 with
  | none => exact .refl db
  | some db' => exact transition_sameRuns moved

theorem reserve_sameRuns {limits : LedgerLimits} {estimate : ℤ}
    (ok : reserve limits db runId phase attempt estimate now = .reserved db' id) :
    SameRuns db db' := by
  unfold reserve at ok
  simp only at ok
  split at ok
  · cases ok
  · split at ok
    · cases ok
    · split at ok
      · cases ok
      · cases ok
        exact ⟨rfl, rfl⟩

theorem renewLease_eq_some (ok : renewLease db runId holder leaseMs now = some db') :
    ∃ lease, db.leases.get? runId = some lease ∧ lease.holder = holder ∧ db'.runs = db.runs ∧
      db'.leases = db.leases.set runId ⟨holder, now + leaseMs⟩ := by
  unfold renewLease at ok
  split at ok
  · rename_i lease found
    split at ok
    · rename_i own
      cases ok
      exact ⟨lease, found, own, rfl, rfl⟩
    · cases ok
  · cases ok

theorem claimNext_eq_some {run : ClaimedRun}
    (ok : claimNext db holder leaseMs now = some (run, db')) :
    ∃ row, db.runs.get? run.id = some row ∧ isClaimable row.status = true ∧ db'.runs = db.runs ∧
      db'.leases = db.leases.set run.id ⟨holder, now + leaseMs⟩ := by
  unfold claimNext at ok
  simp only at ok
  split at ok
  · cases ok
  · rename_i id row first
    cases ok
    have mem := List.mem_of_head? first
    rw [List.mem_insertionSort, List.mem_filter] at mem
    obtain ⟨mem, eligible⟩ := mem
    exact ⟨row, (OrderedMap.get?_eq_some_iff _ _ _).mpr mem, ((Bool.and_eq_true _ _).mp eligible).2,
      rfl, rfl⟩

theorem deleteLease_runs (db : Db) (runId holder : Text) :
    (deleteLease db runId holder).runs = db.runs := by
  unfold deleteLease
  split
  · split <;> rfl
  · rfl

theorem deleteLease_leases (db : Db) (runId holder key : Text) (lease : Lease)
    (left : (deleteLease db runId holder).leases.get? key = some lease) :
    db.leases.get? key = some lease := by
  unfold deleteLease at left
  split at left
  · split at left
    · rw [OrderedMap.get?_erase] at left
      split at left
      · cases left
      · exact left
    · exact left
  · exact left

end Ultrathink.Source.Store
