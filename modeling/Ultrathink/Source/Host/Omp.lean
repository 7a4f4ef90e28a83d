import Ultrathink.Library.JsText
import Ultrathink.Library.OrderedMap
import Ultrathink.Library.Runs

/-!
# Omp's planner flights (`src/host/omp.ts`)

The extension between two turns of the event loop: every handler runs up to its next await,
and what a promise's settlement queued runs before the next timer. The host's answers that
only matter as a comparison (the live model and the planning target against a flight's) come
with the event that asks for them. The bar store, the dashboard and the cards show the state
and are left out.
-/

namespace Ultrathink.Host.Omp

open Library JsText

variable {Resolution : Type}

structure OmpPlan (Resolution : Type) where
  context : Text
  modelResolution : Option Resolution

/-- What ends a flight without a plan. -/
def noPlan : OmpPlan Resolution := ⟨[], none⟩

/-- `NO_PLAN` -/
def noPlanText : Text :=
  js "Ultrathink planning produced no plan. Continue with the user's request as written."

structure Flight (Resolution : Type) where
  sessionId : Text
  cwd : Text
  submission : Nat
  prompt : Text
  /-- What `finishFlight` settled `result` with. -/
  outcome : Option (OmpPlan Resolution) := none
  /-- `plan` has been called with the flight's signal. -/
  admitted : Bool := false
  deadlineTimer : Bool := false
  /-- `controller.signal.aborted` -/
  aborted : Bool := false
  deferred : Bool := false
  settled : Bool := false
  cancelled : Bool := false
  timedOut : Bool := false
  content : Text := []

structure Quick where
  sessionId : Text
  text : Text
  submission : Option Nat

/-- A run of `before_agent_start` past its first await, with its flight: the planner is not
yet admitted, or the run waits for the race. -/
inductive Handler where
  | launching (flight : Nat)
  | waiting (flight : Nat)
  deriving DecidableEq

/-- What the extension does that the host can see. -/
inductive Entry (Resolution : Type) where
  /-- `pendingMessage()` as a result of `before_agent_start`. -/
  | pending (flight : Nat)
  /-- `planMessage(content)` as a result of `before_agent_start`. -/
  | inline (flight : Nat) (content : Text)
  /-- `planMessage(NO_PLAN)` as a result of `before_agent_start`. -/
  | noPlanInline (flight : Nat)
  | aside (flight : Nat) (content : Text)
  | activity (flight : Nat)
  /-- `resolutions.set` -/
  | resolution (flight : Nat) (record : Resolution)
  /-- `spawnLanes`, with how many lanes started; none when it threw. -/
  | spawn (sessionId cwd prompt : Text) (started : Option Nat)
  deriving DecidableEq

/-- The flight an entry comes from. -/
def Entry.flight : Entry Resolution → Option Nat
  | .pending g | .inline g _ | .noPlanInline g | .aside g _ | .activity g | .resolution g _ => some g
  | .spawn .. => none

structure State (Resolution : Type) where
  turns : Text → Option Nat
  /-- The latest submission's flight per session, by its generation. -/
  flights : OrderedMap Text Nat
  /-- Every flight so far. -/
  made : Nat → Option (Flight Resolution)
  latestGeneration : Nat
  quick : Option Quick
  lastLane : Text
  shutDown : Bool
  handlers : Nat → Option Handler
  nextHandler : Nat
  log : List (Entry Resolution)

def State.initial : State Resolution where
  turns _ := none
  flights := OrderedMap.empty
  made _ := none
  latestGeneration := 0
  quick := none
  lastLane := []
  shutDown := false
  handlers _ := none
  nextHandler := 0
  log := []

namespace State

def put (g : Nat) (flight : Flight Resolution) (s : State Resolution) : State Resolution :=
  { s with made := Function.update s.made g (some flight) }

def note (entry : Entry Resolution) (s : State Resolution) : State Resolution :=
  { s with log := s.log ++ [entry] }

/-- `turns.get(sessionId) ?? 0` -/
def submission (s : State Resolution) (sessionId : Text) : Nat := (s.turns sessionId).getD 0

end State

open State

def owns (g : Nat) (s : State Resolution) : Bool :=
  match s.made g with
  | none => false
  | some flight => !flight.cancelled && s.flights.get? flight.sessionId = some g

/-- Only the first call settles the outcome; every call clears the timer. -/
def finishFlight (result : OmpPlan Resolution) (flight : Flight Resolution) : Flight Resolution :=
  { flight with outcome := flight.outcome.or (some result), deadlineTimer := false }

def cancelFlight (flight : Flight Resolution) : Flight Resolution :=
  { finishFlight noPlan flight with cancelled := true, aborted := true }

def cancel (g : Nat) (s : State Resolution) : State Resolution :=
  match s.made g with
  | none => s
  | some flight =>
    if flight.cancelled then s
    else
      { s.put g (cancelFlight flight) with
        flights :=
          if s.flights.get? flight.sessionId = some g then s.flights.erase flight.sessionId
          else s.flights }

/-- `current(flight)`; `same` is what `sameLive` says of its model and the observed one. -/
def current (same : Bool) (g : Nat) (s : State Resolution) : Bool × State Resolution :=
  if owns g s then if same then (true, s) else (false, cancel g s) else (false, s)

/-- The loop's body in `observeFlights`. -/
def visit (sessionId cwd : Text) (same : Nat → Bool) (s : State Resolution) (g : Nat) :
    State Resolution :=
  match s.made g with
  | none => s
  | some flight =>
    if flight.sessionId ≠ sessionId ∨ flight.cwd ≠ cwd then cancel g s
    else (current (same g) g s).2

def observeFlights (sessionId cwd : Text) (same : Nat → Bool) (s : State Resolution) :
    State Resolution :=
  s.flights.values.foldl (visit sessionId cwd same) s

def endFlights (s : State Resolution) : State Resolution :=
  { s.flights.values.foldl (fun s g => cancel g s) s with quick := none }

def observe (g : Nat) (record : Option Resolution) (s : State Resolution) : State Resolution :=
  match record with
  | none => s
  | some record => s.note (.resolution g record)

/-- What `settle` sets before it asks whether the flight is still current. -/
def settleFlight (result : OmpPlan Resolution) (flight : Flight Resolution) : Flight Resolution :=
  { flight with settled := true, content := result.context }

/-- `settle`, the first reaction to the flight's outcome. -/
def settle (same : Bool) (g : Nat) (s : State Resolution) : Option (State Resolution) :=
  match s.made g with
  | none => none
  | some flight =>
    match flight.outcome, flight.settled with
    | some result, false =>
      match current same g (s.put g (settleFlight result flight)) with
      | (false, s) => some s
      | (true, s) =>
        let s := observe g result.modelResolution s
        if flight.deferred then
          some (s.note (.aside g (if result.context = [] then noPlanText else result.context)))
        else some s
    | _, _ => none

/-- The events of the planner that are more than progress of the bar. -/
inductive ProgressEvent (Resolution : Type) where
  /-- `begin` or `end` with what `projectResolution` makes of its resolution. -/
  | resolved (record : Option Resolution)
  /-- An activity that has a notice. -/
  | activity

def onEvent (event : ProgressEvent Resolution) (g : Nat) (s : State Resolution) :
    Option (State Resolution) :=
  match s.made g with
  | none => none
  | some flight =>
    if !flight.admitted then none
    else if flight.timedOut || flight.settled || !owns g s then some s
    else
      match event with
      | .resolved record => some (observe g record s)
      | .activity =>
        if g = s.latestGeneration ∧ s.shutDown = false then some (s.note (.activity g)) else some s

/-- The request's `isCurrent`. -/
def isCurrent (same : Bool) (g : Nat) (s : State Resolution) : Option (State Resolution) :=
  match s.made g with
  | none => none
  | some flight =>
    if !flight.admitted then none
    else if flight.timedOut || flight.settled then some s
    else some (current same g s).2

/-- The planner's promise settles; a rejection, or a throw, gives `noPlan`. -/
def planned (result : OmpPlan Resolution) (g : Nat) (s : State Resolution) :
    Option (State Resolution) :=
  match s.made g with
  | none => none
  | some flight =>
    if flight.admitted then some (s.put g (finishFlight result flight)) else none

/-- The outer deadline's timer. -/
def deadline (g : Nat) (s : State Resolution) : Option (State Resolution) :=
  match s.made g with
  | none => none
  | some flight =>
    if flight.deadlineTimer then
      some (s.put g { finishFlight noPlan flight with timedOut := true, aborted := true })
    else none

structure Submission where
  prompt : Text
  cwd : Text
  sessionId : Text
  /-- `isSubagentSession(ctx, exists)` -/
  subagent : Bool
  /-- `flightConfig(cwd).swarm?.autoRun === true` -/
  autoRun : Bool
  /-- `resolveSwarmRoot` finds a root. -/
  swarmRoot : Bool
  /-- `isSdlcPrompt(prompt)` -/
  sdlc : Bool
  /-- How many lanes `spawnLanes` started; none when it threw. -/
  started : Option Nat
  /-- Whether the target is that of the flight a re-run finds. -/
  unchanged : Bool

/-- `start` up to where the planner is admitted. -/
def start (sub : Submission) (s : State Resolution) : State Resolution :=
  let previous := s.flights.get? sub.sessionId
  let generation := s.latestGeneration + 1
  let flight : Flight Resolution :=
    { sessionId := sub.sessionId, cwd := sub.cwd, submission := s.submission sub.sessionId
      prompt := sub.prompt }
  let s := { s.put generation flight with
    latestGeneration := generation
    flights := s.flights.set sub.sessionId generation }
  match previous with
  | none => s
  | some previous => cancel previous s

/-- The rest of `start`, once the abort of the previous flight has run its listeners. -/
def admitPlanner (maxRun : Bool) (g : Nat) (s : State Resolution) : State Resolution :=
  match s.made g with
  | none => s
  | some flight =>
    if flight.cancelled then s
    else s.put g { flight with admitted := true, deadlineTimer := maxRun }

def laneKey (sub : Submission) : Text :=
  sub.sessionId ++ js ":" ++ sub.cwd ++ js ":" ++ sub.prompt

/-- `maybeAutoRun` up to `spawnLanes`. -/
def wantsLane (sub : Submission) (s : State Resolution) : Bool :=
  !(sub.prompt = [] || (js "/").isPrefixOf sub.prompt || sub.prompt = s.lastLane) &&
    !sub.subagent && sub.autoRun && sub.swarmRoot && sub.sdlc && sub.sessionId ≠ []

def cancelOwned (sessionId : Text) (s : State Resolution) : State Resolution :=
  match s.flights.get? sessionId with
  | none => s
  | some older => cancel older s

/-- `maybeAutoRun`; a throw leaves `owned` false. -/
def maybeAutoRun (sub : Submission) (s : State Resolution) : Bool × State Resolution :=
  if wantsLane sub s then
    let s := s.note (.spawn sub.sessionId sub.cwd sub.prompt sub.started)
    match sub.started with
    | none | some 0 => (false, s)
    | some (_ + 1) =>
      let s := cancelOwned sub.sessionId s
      (true, { s with
        lastLane := laneKey sub
        quick := some ⟨sub.sessionId, trim sub.prompt, s.turns sub.sessionId⟩ })
  else (false, s)

def wait (handler : Handler) (s : State Resolution) : State Resolution :=
  { s with
    handlers := Function.update s.handlers s.nextHandler (some handler)
    nextHandler := s.nextHandler + 1 }

/-- The flight of an earlier run of the same submission, when its target is unchanged. -/
def sameFlight (sub : Submission) (s : State Resolution) :
    Option (Nat × Flight Resolution) × State Resolution :=
  match s.flights.get? sub.sessionId with
  | none => (none, s)
  | some g =>
    match s.made g with
    | none => (none, s)
    | some flight =>
      if flight.submission = s.submission sub.sessionId ∧ flight.prompt = sub.prompt ∧
          flight.cwd = sub.cwd then
        if sub.unchanged then (some (g, flight), s) else (none, cancel g s)
      else (none, s)

/-- `before_agent_start` after the lane, up to its await. -/
def plan (sub : Submission) (s : State Resolution) : State Resolution :=
  match sameFlight sub s with
  | (some (g, flight), s) =>
    if flight.deferred then if flight.settled then s else s.note (.pending g)
    else if flight.settled then
      if flight.content = [] then s else s.note (.inline g flight.content)
    else wait (.waiting g) s
  | (none, s) => wait (.launching (s.latestGeneration + 1)) (start sub s)

def quickMatches (sub : Submission) (quick : Quick) (s : State Resolution) : Bool :=
  quick.sessionId = sub.sessionId && quick.text = trim sub.prompt &&
    quick.submission.getD (s.submission sub.sessionId) = s.submission sub.sessionId

/-- `before_agent_start` after the quick bypass, up to its await. -/
def submitPrompt (sub : Submission) (s : State Resolution) : State Resolution :=
  match maybeAutoRun sub s with
  | (true, s) => s
  | (false, s) => plan sub s

/-- `before_agent_start`, up to its await. -/
def beforeAgentStart (sub : Submission) (s : State Resolution) : State Resolution :=
  if sub.subagent then s
  else
    match s.quick with
    | none => submitPrompt sub s
    | some quick =>
      if quickMatches sub quick s then
        let s := if quick.submission = none then cancelOwned sub.sessionId s else s
        { s with quick := some { quick with submission := some (s.submission sub.sessionId) } }
      else submitPrompt sub { s with quick := none }

def forget (handler : Nat) (s : State Resolution) : State Resolution :=
  { s with handlers := Function.update s.handlers handler none }

/-- The race's timer, which runs its handler to the end before anything else can settle. -/
def raceTimeout (handler : Nat) (s : State Resolution) : Option (State Resolution) :=
  match s.handlers handler with
  | some (.waiting g) =>
    match s.made g with
    | none => none
    | some flight =>
      if flight.outcome.isSome then none
      else if flight.cancelled then some (forget handler s)
      else some (((forget handler s).put g { flight with deferred := true }).note (.pending g))
  | _ => none

/-- The race's handler, queued behind `settle` by the flight's outcome. -/
def resume (handler : Nat) (s : State Resolution) : Option (State Resolution) :=
  match s.handlers handler with
  | some (.waiting g) =>
    match s.made g with
    | none => none
    | some flight =>
      match flight.outcome, flight.settled with
      | some result, true =>
        let s := forget handler s
        if flight.cancelled then some s
        else if result.context = [] then
          if flight.timedOut then some (s.note (.noPlanInline g)) else some s
        else some (s.note (.inline g result.context))
      | _, _ => none
  | _ => none

/-- A handler whose flight was just registered goes on to the planner, and then waits. -/
def proceed (maxRun : Bool) (handler : Nat) (s : State Resolution) : Option (State Resolution) :=
  match s.handlers handler with
  | some (.launching g) =>
    let s := admitPlanner maxRun g s
    some { s with handlers := Function.update s.handlers handler (some (.waiting g)) }
  | _ => none

inductive Event (Resolution : Type) where
  | submit (sub : Submission)
  | proceed (handler : Nat)
  | raceTimeout (handler : Nat)
  | resume (handler : Nat)
  | planner (flight : Nat) (event : ProgressEvent Resolution)
  | isCurrent (flight : Nat) (same : Bool)
  | planned (flight : Nat) (result : OmpPlan Resolution)
  | deadline (flight : Nat)
  | settle (flight : Nat) (same : Bool)
  | turnStart (sessionId cwd : Text) (same : Nat → Bool)
  /-- Any other event that observes the flights: `agent_start`, `turn_end` and so on. -/
  | observed (sessionId cwd : Text) (same : Nat → Bool)
  | sessionStart
  | sessionSwitch
  | sessionShutdown
  /-- `/ultrathink-quick` -/
  | quick (sessionId text : Text)
  /-- `sendUserMessage` threw. -/
  | quickFailed

/-- The step of the extension; `maxRun` is `maxRunMs > 0`. -/
def step (maxRun : Bool) (s : State Resolution) : Event Resolution → Option (State Resolution)
  | .submit sub => some (beforeAgentStart sub s)
  | .proceed handler => proceed maxRun handler s
  | .raceTimeout handler => raceTimeout handler s
  | .resume handler => resume handler s
  | .planner g event => onEvent event g s
  | .isCurrent g same => isCurrent same g s
  | .planned g result => planned result g s
  | .deadline g => deadline g s
  | .settle g same => settle same g s
  | .turnStart sessionId cwd same =>
    let s := observeFlights sessionId cwd same s
    some { s with
      turns := Function.update s.turns sessionId (some (s.submission sessionId + 1)) }
  | .observed sessionId cwd same => some (observeFlights sessionId cwd same s)
  | .sessionStart => some { s with shutDown := false }
  | .sessionSwitch => some { endFlights s with shutDown := false }
  | .sessionShutdown => some (endFlights { s with shutDown := true })
  | .quick sessionId text => some { s with quick := some ⟨sessionId, text, none⟩ }
  | .quickFailed => some { s with quick := none }

def system (Resolution : Type) (maxRun : Bool) :
    Runs.System (State Resolution) (Event Resolution) :=
  Runs.System.ofStep (fun s => s = State.initial) (step maxRun)

end Ultrathink.Host.Omp
