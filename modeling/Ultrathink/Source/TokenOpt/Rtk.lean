import Ultrathink.Library.JsText
import Ultrathink.Source.TokenOpt.Refresh

/-!
# RTK savings of a session (`omp-token-opt/src/index.ts`)

`beginSession`, `readRtkDelta` and the refresh around it, from one `await` to the next. An
`rtk gain` reads the total of its log at some time between its start and its end, and may
fail; the total never goes down. The ledger writes to the session that is active, which is
the one that `loadSnapshot` has loaded, or fails to.
-/

namespace Ultrathink.Source.TokenOpt.Rtk

open Library JsText Runs Refresh

def rtkRefreshMinMs : Refresh.Time := 5000

/-- An `rtk gain` that runs: the total that it has read so far, if any. -/
abbrev Gain := Option Nat

/-- The start read of a session. -/
inductive StartRead where
  | running (gain : Gain)
  | ended (total : Option Nat)
  deriving DecidableEq

/-- Where `readRtkDelta` stands: at `await rtkBaselineRead`, with the session that the
promise is of, or at its own `rtk gain`. -/
inductive Delta where
  | baseline (epoch : Nat)
  | latest (gain : Gain)
  deriving DecidableEq

/-- `rtkSavedTokens` as it was written to the ledger of a session. -/
structure Write where
  sessionId : Text
  epoch : Nat
  rtkSavedTokens : Nat
  deriving DecidableEq

/-- `rtkEpoch` counts the sessions that began, a return to one included; `total` is what
RTK has saved, and `totals` are the totals that were read, with the session active then. -/
structure State where
  refresh : Refresh.State
  delta : Option Delta
  rtkBaseline : Option Nat
  rtkEpoch : Nat
  starts : Nat → Option StartRead
  active : Text
  total : Nat
  totals : List (Nat × Nat)
  writes : List Write

inductive Input where
  | beginSession (sessionId : Text)
  /-- RTK saves more. -/
  | saves (tokens : Nat)
  /-- The start read of a session reads the total. -/
  | startReads (epoch : Nat)
  | startEnds (epoch : Nat) (failed : Bool)
  | refresh (force : Bool) (now later : Refresh.Time)
  | timer (id : Nat) (now : Refresh.Time)
  /-- `readRtkDelta` goes on after its first await. -/
  | resumed (now : Refresh.Time)
  | latestReads
  | latestEnds (failed ledgerFails : Bool) (now : Refresh.Time)
  | finally_ (now later : Refresh.Time)

def begun (sessionId : Text) (s : State) : State :=
  { s with
    rtkEpoch := s.rtkEpoch + 1
    starts := Function.update s.starts (s.rtkEpoch + 1) (some (.running none))
    active := sessionId }

/-- The total is read while the session with this epoch is active. -/
def State.reads (s : State) : State := { s with totals := (s.rtkEpoch, s.total) :: s.totals }

/-- `.then((total) => …)` of the start read. -/
def startEnded (epoch : Nat) (total : Option Nat) (s : State) : State :=
  { s with
    starts := Function.update s.starts epoch (some (.ended total))
    rtkBaseline := if epoch = s.rtkEpoch then total.or s.rtkBaseline else s.rtkBaseline }

/-- The refresh has taken an input; a read that it started is `readRtkDelta`, up to its
first await. -/
def State.refreshed (s : State) (r : Refresh.State) : State :=
  { s with
    refresh := r
    delta := if s.delta.isNone && r.refresh.inFlight = some .reading then
        some (.baseline s.rtkEpoch)
      else s.delta }

/-- `readRtkDelta` returns. -/
def returned (now : Refresh.Time) (s : State) : Option State :=
  (Refresh.step rtkRefreshMinMs s.refresh (.settle false now)).map fun r =>
    { s with refresh := r, delta := none }

/-- `ledger.notePerf({ rtkSavedTokens })` -/
def noted (latest baseline : Nat) (s : State) : State :=
  { s with writes := ⟨s.active, s.rtkEpoch, latest - baseline⟩ :: s.writes }

def step (s : State) : Input → Option State
  | .beginSession sessionId => some (begun sessionId s)
  | .saves tokens => some { s with total := s.total + tokens }
  | .startReads epoch =>
    match s.starts epoch with
    | some (.running none) =>
      some { s.reads with
        starts := Function.update s.starts epoch (some (.running (some s.total))) }
    | _ => none
  | .startEnds epoch failed =>
    match s.starts epoch with
    | some (.running gain) =>
      if failed then some (startEnded epoch none s)
      else gain.map fun total => startEnded epoch (some total) s
    | _ => none
  | .refresh force now later =>
    (Refresh.step rtkRefreshMinMs s.refresh (.call force now later)).map s.refreshed
  | .timer id now => (Refresh.step rtkRefreshMinMs s.refresh (.fire id now)).map s.refreshed
  | .resumed now =>
    match s.delta with
    | some (.baseline epoch) =>
      -- before the first session `rtkBaselineRead` is a promise that has resolved
      if epoch = 0 ∨ (s.starts epoch).any (fun start => match start with
          | .ended _ => true
          | .running _ => false) then
        match s.rtkBaseline with
        | none => returned now s
        | some _ => some { s with delta := some (.latest none) }
      else none
    | _ => none
  | .latestReads =>
    match s.delta with
    | some (.latest none) => some { s.reads with delta := some (.latest (some s.total)) }
    | _ => none
  | .latestEnds failed ledgerFails now =>
    match s.delta with
    | some (.latest gain) =>
      if failed then returned now s
      else
        match gain, s.rtkBaseline with
        | some latest, some baseline =>
          if ledgerFails then returned now s else returned now (noted latest baseline s)
        | _, _ => none
    | _ => none
  | .finally_ now later =>
    (Refresh.step rtkRefreshMinMs s.refresh (.finish now later)).map fun r => { s with refresh := r }

structure Start (s : State) : Prop where
  refresh : Refresh.Start s.refresh
  delta : s.delta = none
  rtkBaseline : s.rtkBaseline = none
  rtkEpoch : s.rtkEpoch = 0
  starts : s.starts = fun _ => none
  totals : s.totals = []
  writes : s.writes = []

def system : System State Input := System.ofStep Start step

end Ultrathink.Source.TokenOpt.Rtk
