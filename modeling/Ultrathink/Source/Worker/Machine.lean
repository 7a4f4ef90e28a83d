import Ultrathink.Library.Runs
import Ultrathink.Source.Worker.Protocol

/-!
# Workers over one database

`createWorker` of `worker/worker.ts` as a machine. Each worker stands at a point
between two statements (`Pc`); one step sends its next statement or transaction,
so any two workers interleave at every statement. A worker is named by its holder
id, so the ids are distinct. The clock may move anywhere at any time, a statement
may throw, a heartbeat may fire at any moment of a model call, and a process may
die at any point. The value of `tickOnce` only decides whether its loop sleeps
and is left out, as are the delays between model attempts.
-/

namespace Ultrathink.Source.Worker

open Library JsText Source.Store

structure Setup (ν : Type) where
  leaseMs : Text → ℤ
  leasePositive : ∀ holder, 0 < leaseMs holder
  maxModelAttempts : Nat
  limits : LedgerLimits
  parseJson : Text → Option (Json ν)

/-- What the heartbeat timer has recorded: nothing wrong, a lost lease, or
another error of its statement. -/
inductive Beat where
  | alive | leaseLost | broken
deriving DecidableEq

/-- A phase under way: its place in the loop and its reservation. -/
structure Work where
  run : ClaimedRun
  outputs : Outputs
  phase : Phase
  rest : List Phase
  attempt : Nat
  prompt : Text
  reservationId : Nat

/-- Where a worker stands: the statement that it sends next. -/
inductive Pc where
  | idle
  | sweepStart (run : ClaimedRun)
  | sweep (run : ClaimedRun) (ids : List Nat)
  | phases (run : ClaimedRun) (outputs : Outputs) (rest : List Phase)
  | attempt (run : ClaimedRun) (outputs : Outputs) (phase : Phase) (rest : List Phase)
  | readAnswer (run : ClaimedRun) (outputs : Outputs) (phase : Phase) (rest : List Phase)
      (attempt : Nat)
  | reserve (run : ClaimedRun) (outputs : Outputs) (phase : Phase) (rest : List Phase)
      (attempt : Nat) (answer : Option OwnerAnswer)
  | progress (work : Work)
  | call (work : Work) (tries : Nat) (beat : Beat)
  | commit (work : Work) (text : Text) (tokensUsed : Option Nat)
  | artifact (work : Work) (text : Text)
  | terminal (run : ClaimedRun) (patch : Patch) (reservation : Option Nat)
  | abandonOwn (run : ClaimedRun) (reservation : Nat)
  | lost (run : ClaimedRun) (reservation : Option Nat)
  | finish (run : ClaimedRun)

/-- What happens at a step: the statement succeeds, it throws, the heartbeat
fires, the model replies or fails, the race ends by the heartbeat's rejection,
or the process dies. -/
inductive Input where
  | go
  | fault
  | heartbeat
  | reply (text : Text) (tokensUsed : Option Nat)
  | modelFails
  | rejected
  | crash

/-- The database and the artifact files. -/
structure World where
  db : Db
  artifacts : OrderedMap (Text × Text) Text

def writeArtifact (world : World) (runId : Text) (phase : Phase) (content : Text) : World :=
  { world with artifacts := world.artifacts.set (runId, phase.name) content }

def terminalPatch (status : RunStatus) (reason : Text) : Patch := ⟨some status, none, some (some reason)⟩

def completePatch : Patch := ⟨some .complete, some none, none⟩

def progressPatch (phase : Phase) : Patch := ⟨some (phaseStatus phase), some (some phase), none⟩

section Steps
variable {ν : Type} (setup : Setup ν) (w : Text) (now : ℤ)

def claimStep (world : World) : World × Pc :=
  match claimNext world.db w (setup.leaseMs w) now with
  | none => (world, .idle)
  | some (run, db) => ({ world with db }, .sweepStart run)

/-- The head of the loop over `PHASES`: a finished phase only has its artifact
checked, another one its pending question. -/
def phasesStep (run : ClaimedRun) (outputs : Outputs) (rest : List Phase) (world : World) :
    World × Pc :=
  match rest with
  | [] => (world, .terminal run completePatch none)
  | phase :: rest =>
    match outputs.get? phase with
    | some output =>
      if world.artifacts.get? (run.id, phase.name) = some output then
        (world, .phases run outputs rest)
      else (writeArtifact world run.id phase output, .phases run outputs rest)
    | none =>
      match pendingQuestion world.db run.id phase with
      | some question =>
        (world, .terminal run (terminalPatch .pausedForDecision question) none)
      | none => (world, .attempt run outputs phase rest)

def reserveStep (run : ClaimedRun) (outputs : Outputs) (phase : Phase) (rest : List Phase)
    (attempt : Nat) (answer : Option OwnerAnswer) (world : World) : World × Pc :=
  let prompt := buildPrompt run.request phase outputs answer
  match Store.reserve setup.limits world.db run.id phase attempt
      (estimatedTokens (systemPrompt phase) prompt) now with
  | .reserved db id =>
    ({ world with db }, .progress ⟨run, outputs, phase, rest, attempt, prompt, id⟩)
  | .runCeiling => (world, .terminal run (terminalPatch .failed (js "run_token_ceiling")) none)
  | .dayCeiling =>
    (world, .terminal run (terminalPatch .pausedForBlocker (js "daily_token_ceiling")) none)
  | .writeError =>
    (world, .terminal run (terminalPatch .pausedForBlocker (js "ledger_unavailable")) none)

/-- The progress status, in a statement of its own: nothing checks the lease. -/
def progressStep (work : Work) (world : World) : World × Pc :=
  ({ world with db := updateRun world.db work.run.id (progressPatch work.phase) },
    .call work 0 .alive)

/-- A failed heartbeat ends the call as the error it recorded. -/
def beatEnds (work : Work) (world : World) : Beat → World × Pc
  | .alive => (world, .call work 0 .alive)
  | .leaseLost => (world, .lost work.run (some work.reservationId))
  | .broken => (world, .finish work.run)

def callStep (work : Work) (tries : Nat) (beat : Beat) (input : Input) (world : World) :
    World × Pc :=
  match input, beat with
  | .heartbeat, .alive =>
    match renewLease world.db work.run.id w (setup.leaseMs w) now with
    | some db => ({ world with db }, .call work tries .alive)
    | none => (world, .call work tries .leaseLost)
  | .fault, .alive => (world, .call work tries .broken)
  | .reply text tokensUsed, _ => (world, .commit work text tokensUsed)
  | .modelFails, .alive =>
    if setup.maxModelAttempts ≤ tries + 1 then
      (world, .terminal work.run (terminalPatch .pausedForBlocker (js "model_unavailable"))
        (some work.reservationId))
    else (world, .call work (tries + 1) .alive)
  | .modelFails, .leaseLost => beatEnds work world .leaseLost
  | .modelFails, .broken => beatEnds work world .broken
  | .rejected, .leaseLost => beatEnds work world .leaseLost
  | .rejected, .broken => beatEnds work world .broken
  | _, _ => (world, .call work tries beat)

/-- One transaction, fenced by the renewal: the decision and its pause, or the
phase's record. -/
def commitStep (work : Work) (text : Text) (tokensUsed : Option Nat) (world : World) :
    World × Pc :=
  match renewLease world.db work.run.id w (setup.leaseMs w) now with
  | none => (world, .lost work.run (some work.reservationId))
  | some db =>
    match parseDecision setup.parseJson text with
    | some decision =>
      match (settle db work.reservationId tokensUsed).bind fun db =>
          insertDecision db work.run.id work.phase work.attempt decision.question decision.options
            decision.default with
      | none => (world, .finish work.run)
      | some db =>
        let patch := terminalPatch .pausedForDecision decision.question
        ({ world with db := updateRun db work.run.id patch }, .finish work.run)
    | none =>
      match (recordPhase db ⟨work.run.id, work.phase, work.attempt, text, now⟩).bind fun db =>
          settle db work.reservationId tokensUsed with
      | none => (world, .finish work.run)
      | some db => ({ world with db }, .artifact work text)

def artifactStep (work : Work) (text : Text) (world : World) : World × Pc :=
  (writeArtifact world work.run.id work.phase text,
    .phases work.run (work.outputs.set work.phase text) work.rest)

/-- `setTerminalStatus`: the renewal and the status in one transaction. -/
def terminalStep (run : ClaimedRun) (patch : Patch) (reservation : Option Nat) (world : World) :
    World × Pc :=
  match renewLease world.db run.id w (setup.leaseMs w) now with
  | none => (world, .lost run reservation)
  | some db =>
    ({ world with db := updateRun db run.id patch },
      match reservation with
      | some id => .abandonOwn run id
      | none => .finish run)

/-- An error that nothing catches reaches `finally`; the ledger's own becomes a
pause, and the lost lease's cleanup swallows it. -/
def faultStep (world : World) : Pc → World × Pc
  | .idle => (world, .idle)
  | .sweepStart run => (world, .finish run)
  | .sweep run _ => (world, .finish run)
  | .phases run _ _ => (world, .finish run)
  | .attempt run _ _ _ => (world, .finish run)
  | .readAnswer run _ _ _ _ => (world, .finish run)
  | .reserve run _ _ _ _ _ =>
    (world, .terminal run (terminalPatch .pausedForBlocker (js "ledger_unavailable")) none)
  | .progress work => (world, .finish work.run)
  | .call work tries _ => (world, .call work tries .broken)
  | .commit work _ _ => (world, .finish work.run)
  | .artifact work _ => (world, .finish work.run)
  | .terminal run _ _ => (world, .finish run)
  | .abandonOwn run _ => (world, .finish run)
  | .lost run _ => (world, .finish run)
  | .finish _ => (world, .idle)

/-- The next statement of a worker at each point. -/
def goStep (world : World) : Pc → World × Pc
  | .idle => claimStep setup w now world
  | .sweepStart run => (world, .sweep run (reservedIds world.db run.id))
  | .sweep run [] => (world, .phases run (completedOutputs world.db run.id) allPhases)
  | .sweep run (id :: ids) =>
    ({ world with db := abandonReservation world.db id }, .sweep run ids)
  | .phases run outputs rest => phasesStep run outputs rest world
  | .attempt run outputs phase rest =>
    (world, .readAnswer run outputs phase rest (nextAttempt world.db run.id phase))
  | .readAnswer run outputs phase rest attempt =>
    (world, .reserve run outputs phase rest attempt (latestAnswer world.db run.id phase))
  | .reserve run outputs phase rest attempt answer =>
    reserveStep setup now run outputs phase rest attempt answer world
  | .progress work => progressStep work world
  | .call work tries beat => (world, .call work tries beat)
  | .commit work text tokensUsed => commitStep setup w now work text tokensUsed world
  | .artifact work text => artifactStep work text world
  | .terminal run patch reservation => terminalStep setup w now run patch reservation world
  | .abandonOwn run id => ({ world with db := abandonReservation world.db id }, .finish run)
  | .lost run (some id) => ({ world with db := abandonReservation world.db id }, .finish run)
  | .lost run none => (world, .finish run)
  | .finish run => ({ world with db := deleteLease world.db run.id w }, .idle)

def advance (input : Input) (pc : Pc) (world : World) : World × Pc :=
  match input, pc with
  | .crash, _ => (world, .idle)
  | .go, pc => goStep setup w now world pc
  | input, .call work tries beat => callStep setup w now work tries beat input world
  | .fault, pc => faultStep world pc
  | _, pc => (world, pc)

end Steps

structure State where
  world : World
  now : ℤ
  workers : OrderedMap Text Pc

def State.pc (s : State) (w : Text) : Pc := (s.workers.get? w).getD .idle

theorem pc_set (s : State) (world : World) (w v : Text) (pc : Pc) :
    ({ s with world, workers := s.workers.set w pc } : State).pc v =
      if v = w then pc else s.pc v := by
  simp only [State.pc, OrderedMap.get?_set]
  split <;> rfl

inductive Event where
  | worker (holder : Text) (input : Input)
  | clock (now : ℤ)
  | create (id ownerId request : Text)
  | answer (runId ownerId text : Text)

def step {ν : Type} (setup : Setup ν) (s : State) : Event → State
  | .worker w input =>
    let (world, pc) := advance setup w s.now input (s.pc w) s.world
    { s with world, workers := s.workers.set w pc }
  | .clock now => { s with now }
  | .create id ownerId request =>
    { s with world := { s.world with db := createRun s.world.db id ownerId request s.now } }
  | .answer runId ownerId text =>
    { s with world := { s.world with db := (answerDecision s.world.db runId ownerId text).2 } }

/-- Any database, no tick under way. -/
def system {ν : Type} (setup : Setup ν) : Runs.System State Event where
  start s := ∀ w, s.pc w = .idle
  step s event s' := s' = step setup s event

theorem system_step {ν : Type} (setup : Setup ν) (s : State) (event : Event) :
    (system setup).step s event (step setup s event) := rfl

end Ultrathink.Source.Worker
