import Ultrathink.Source.TokenOpt.Effects

/-!
# The token ledger when writes fail

The ledger of `omp-token-opt/src/ledger.ts` as in `Ledger.lean`, where each `writeAtomic` may
throw. It renames a whole file into place, so a file is replaced or left alone. Between two
operations other processes may change the files.
-/

namespace Ultrathink.Source.TokenOpt.Faulty

open Library JsText JsNumber

/-- What `writeAtomic` throws, as when the lock is not free in time. -/
abbrev Fault := Option Text

/-- The two writes of `writeSnapshot`. -/
structure Faults where
  session : Fault
  live : Fault

/-- What a call throws: its own refusal, or the fault of a write. -/
inductive Thrown where
  | reject (message : Reject)
  | fault (message : Text)
  deriving DecidableEq

def putSession (doc : Doc) (disk : Disk) : Disk :=
  { disk with file := Function.update disk.file (sessionIdOf doc) (some (.written doc)) }

def putLive (doc : Doc) (disk : Disk) : Disk := { disk with latest := some (.written doc) }

def writeSnapshot (doc : Doc) (faults : Faults) (l : Ledger) : Ledger × Except Thrown Unit :=
  match faults.session with
  | some message => (l, .error (.fault message))
  | none =>
    match faults.live with
    | some message => ({ l with disk := putSession doc l.disk }, .error (.fault message))
    | none =>
      ({ l with disk := putLive doc (putSession doc l.disk), completed := l.completed + 1 }, .ok ())

/-- A write that fails is counted, and the next session follows. -/
def drainOne (faults : Text → Faults) (l : Ledger) (id : Text) : Ledger :=
  match l.memory id with
  | none => l
  | some doc =>
    match writeSnapshot doc (faults id) l with
    | (l, .ok ()) => l
    | (l, .error _) => { l with dropped := l.dropped + 1 }

def drainDirty (faults : Text → Faults) (l : Ledger) : Ledger :=
  l.dirty.foldl (drainOne faults) { l with dirty := [], flushTimer := false }

/-- `load` before it writes. -/
def entered (id : Text) (now : Time) (l : Ledger) : Ledger :=
  let snap := found id now l.disk
  { adoptUsage id snap { l with memory := Function.update l.memory id (some snap) } with
    activeId := some id }

def load (o : Options) (id : Text) (now : Time) (faults : Faults) (l : Ledger) :
    Ledger × Except Thrown Doc :=
  if !isValidSessionId id then (l, .error (.reject (js "invalid session id")))
  else
    let snap := found id now l.disk
    let l := entered id now l
    if o.asyncWrites then (markDirty o id l, .ok snap)
    else
      match writeSnapshot snap faults l with
      | (l, .ok ()) => (l, .ok snap)
      | (l, .error thrown) => (l, .error thrown)

def activeOf (l : Ledger) : Except Thrown (Text × Doc) :=
  match l.activeId.bind fun id => (l.memory id).map fun previous => (id, previous) with
  | none => .error (.reject (js "no session"))
  | some found => .ok found

def requireActive (o : Options) (now : Time) (faults : Faults) (l : Ledger) :
    Ledger × Except Thrown (Text × Doc) :=
  if (snapshot l).isNone then
    match load o (js "default") now faults l with
    | (l, .error thrown) => (l, .error thrown)
    | (l, .ok _) => (l, activeOf l)
  else (l, activeOf l)

def commit (o : Options) (next : Doc) (id : Text) (faults : Faults) (l : Ledger) :
    Ledger × Except Thrown Doc :=
  if !isValidDoc next id then (l, .error (.reject (js "snapshot invariant failed")))
  else if o.asyncWrites then
    (markDirty o id { l with memory := Function.update l.memory id (some next) }, .ok next)
  else
    match writeSnapshot next faults l with
    | (l, .ok ()) => ({ l with memory := Function.update l.memory id (some next) }, .ok next)
    | (l, .error thrown) => (l, .error thrown)

/-- When the session `default` is loaded and when the snapshot is made, and their writes. -/
structure Moments where
  loaded : Time
  now : Time
  loading : Faults
  writing : Faults

def record (o : Options) (point : Value) (at_ : Moments) (l : Ledger) : Ledger × Except Thrown Doc :=
  if !isValidPoint point then (l, .error (.reject (js "invalid savings point")))
  else
    match requireActive o at_.loaded at_.loading l with
    | (l, .error thrown) => (l, .error thrown)
    | (l, .ok (id, previous)) =>
      commit o (nextRecorded id previous point at_.now) id at_.writing l

def notePerf (o : Options) (fields : Doc) (at_ : Moments) (l : Ledger) : Ledger × Except Thrown Doc :=
  match perfFields.find? fun field => !optionalField (Json.field fields field.1) field.2 with
  | some field => (l, .error (.reject (js "invalid " ++ field.1)))
  | none =>
    match requireActive o at_.loaded at_.loading l with
    | (l, .error thrown) => (l, .error thrown)
    | (l, .ok (id, previous)) => commit o (nextNoted id previous fields at_.now) id at_.writing l

def isSafe (n : Number) : Bool := (safeNat n).isSome

def billed (totals : ProviderTotals) : Doc :=
  [(js "cacheHitPct", .num (cacheHitPct totals)), (js "providerInput", .num totals.input),
    (js "providerOutput", .num totals.output), (js "providerCacheRead", .num totals.cacheRead),
    (js "providerCacheWrite", .num totals.cacheWrite)]

/-- The totals of the session change before `notePerf` is called. -/
def addProviderUsage (o : Options) (input cacheRead cacheWrite output : Number) (at_ : Moments)
    (l : Ledger) : Ledger × Except Thrown Doc :=
  if !(isSafe input && isSafe cacheRead && isSafe cacheWrite && isSafe output) then
    (l, .error (.reject (js "invalid provider usage")))
  else
    match requireActive o at_.loaded at_.loading l with
    | (l, .error thrown) => (l, .error thrown)
    | (l, .ok (id, _)) =>
      let row := (l.usage id).getD zeroTotals
      let totals : ProviderTotals := ⟨plus row.input input, plus row.cacheRead cacheRead,
        plus row.cacheWrite cacheWrite, plus row.output output⟩
      if !(isSafe totals.input && isSafe totals.cacheRead && isSafe totals.cacheWrite &&
          isSafe totals.output) then (l, .error (.reject (js "invalid provider usage")))
      else notePerf o (billed totals) at_ { l with usage := Function.update l.usage id (some totals) }

inductive Op where
  | load (id : Text) (now : Time) (faults : Faults)
  | record (point : Value) (at_ : Moments)
  | notePerf (fields : Doc) (at_ : Moments)
  | addProviderUsage (input cacheRead cacheWrite output : Number) (at_ : Moments)
  | flush (faults : Text → Faults)
  | timer (faults : Text → Faults)
  /-- Other processes have changed the files. -/
  | others (disk : Disk)

/-- The ledger after an operation, and the snapshot returned or what is thrown. -/
def perform (o : Options) (l : Ledger) : Op → Ledger × Option (Except Thrown Doc)
  | .load id now faults => ((load o id now faults l).1, some (load o id now faults l).2)
  | .record point at_ => ((record o point at_ l).1, some (record o point at_ l).2)
  | .notePerf fields at_ => ((notePerf o fields at_ l).1, some (notePerf o fields at_ l).2)
  | .addProviderUsage input cacheRead cacheWrite output at_ =>
    ((addProviderUsage o input cacheRead cacheWrite output at_ l).1,
      some (addProviderUsage o input cacheRead cacheWrite output at_ l).2)
  | .flush faults => (if o.asyncWrites then drainDirty faults l else l, none)
  | .timer faults => (if l.flushTimer then drainDirty faults l else l, none)
  | .others disk => ({ l with disk }, none)

def step (o : Options) (l : Ledger) (op : Op) : Ledger := (perform o l op).1

def free : Faults := ⟨none, none⟩

end Ultrathink.Source.TokenOpt.Faulty
