import Ultrathink.Library.Json
import Ultrathink.Library.JsNumber
import Ultrathink.Library.OrderedMap
import Ultrathink.Library.WriteBack

/-!
# The token ledger

`createLedger` of `omp-token-opt/src/ledger.ts` with both values of `asyncWrites`. A
snapshot is a JSON object, whose fields keep their order and whose unknown fields are
carried along; writes do not fail. A file that the ledger wrote is read back as
`JSON.parse` reads what `JSON.stringify` has written.
-/

namespace Ultrathink.Source.TokenOpt

open Library JsText JsNumber WriteBack

abbrev Value := Json Number

abbrev Doc := Json.Record Number

def maxSafe : Nat := 2 ^ 53 - 1

/-- `isNonNegInt`, with the integer; the negative zero is one. -/
def safeNat (n : Number) : Option Nat :=
  match toInt? n with
  | some i => if 0 ≤ i ∧ i ≤ maxSafe then some i.toNat else none
  | none => none

def nonNegInt : Value → Option Nat
  | .num n => safeNat n
  | _ => none

def isNegativeZero : Number → Bool
  | .finite x => x.negative && x.units = 0
  | _ => false

/-- `a + b` of two safe integers. -/
def plus (a b : Number) : Number :=
  if isNegativeZero a && isNegativeZero b then a
  else ofNat ((safeNat a).getD 0 + (safeNat b).getD 0)

/-- `a - b` of two safe integers. -/
def minus (a b : Number) : Number :=
  let x := (safeNat a).getD 0
  let y := (safeNat b).getD 0
  if isNegativeZero a && y = 0 && !isNegativeZero b then a
  else if y ≤ x then ofNat (x - y)
  else ofDecimal true (y - x) 0

/-- A whole number as a double. -/
def double (n : Nat) : Nat := nearest n 1

/-- `Math.round(read * 100 / denom)`, a half rounded up. -/
def hitPct (read denom : Nat) : Nat :=
  (2 * nearest (double (read * 100) * one) denom + one) / (2 * one)

/-- What a number is after `JSON.stringify` and `JSON.parse`. -/
def rereadNumber (n : Number) : Value :=
  match n with
  | .nan => .null
  | .infinity _ => .null
  | .finite x => .num (if x.units = 0 then ofNat 0 else .finite x)

mutual

def reread : Value → Value
  | .null => .null
  | .bool b => .bool b
  | .num n => rereadNumber n
  | .str s => .str s
  | .arr items => .arr (rereadItems items)
  | .obj fields => .obj (rereadFields fields)

def rereadItems : List Value → List Value
  | [] => []
  | item :: rest => reread item :: rereadItems rest

def rereadFields : Doc → Doc
  | [] => []
  | (name, value) :: rest => (name, reread value) :: rereadFields rest

end

def maxPoints : Nat := 200

def sources : List Text := [js "provider", js "compress", js "graph"]

/-- `SOURCES[source]` also finds what every object inherits. -/
def inherited : List Text :=
  [js "constructor", js "toString", js "toLocaleString", js "valueOf", js "hasOwnProperty",
    js "isPrototypeOf", js "propertyIsEnumerable", js "__defineGetter__", js "__defineSetter__",
    js "__lookupGetter__", js "__lookupSetter__", js "__proto__"]

def isValidSessionId (id : Text) : Bool :=
  1 ≤ id.length && id.length ≤ 128 && !id.contains 0x2F && !id.contains 0x5C && !id.contains 0 &&
    id ≠ js "." && id ≠ js ".." && id ≠ js "live"

/-- The fields of `PerfFields` in the order of `copyPerf`, with their bounds. -/
def perfFields : List (Text × Option Nat) :=
  [(js "lastTurnMs", none), (js "cacheHitPct", some 100), (js "lastQueryMs", none),
    (js "rtkSavedTokens", none), (js "lastPayloadChars", none), (js "ttftMs", none),
    (js "lastIdleMs", none), (js "costCents", none), (js "providerInput", none),
    (js "providerOutput", none), (js "providerCacheRead", none), (js "providerCacheWrite", none),
    (js "prefixChanged", some 1), (js "toolsChanged", some 1), (js "graphReady", some 1)]

def optionalField (value : Option Value) (max : Option Nat) : Bool :=
  match value with
  | none => true
  | some value =>
    match nonNegInt value with
    | none => false
    | some n => max.all fun max => n ≤ max

def natField (doc : Doc) (name : Text) : Option Nat := (Json.field doc name).bind nonNegInt

structure Window where
  baseline : Nat
  current : Nat
  saved : Nat

/-- The sums of a valid point. -/
def pointWindow : Value → Option Window
  | .obj point =>
    match natField point (js "at"), natField point (js "baseline"), natField point (js "current"),
        natField point (js "saved"), Json.field point (js "source") with
    | some _, some baseline, some current, some saved, some (.str source) =>
      if (source ∈ sources ∨ source ∈ inherited) ∧ saved + current = baseline then
        some ⟨baseline, current, saved⟩
      else none
    | _, _, _, _, _ => none
  | _ => none

def isValidPoint (point : Value) : Bool := (pointWindow point).isSome

/-- The window sums, none when a point is invalid. -/
def pointsWindow : List Value → Option Window
  | [] => some ⟨0, 0, 0⟩
  | point :: rest =>
    match pointWindow point, pointsWindow rest with
    | some first, some sums =>
      some ⟨first.baseline + sums.baseline, first.current + sums.current, first.saved + sums.saved⟩
    | _, _ => none

def pointsValid (points : List Value) (baseline current saved : Nat) : Bool :=
  points.length ≤ maxPoints &&
    match pointsWindow points with
    | none => false
    | some sums => sums.baseline ≤ baseline && sums.current ≤ current && sums.saved ≤ saved

def sessionIdOf (doc : Doc) : Text :=
  match Json.field doc (js "sessionId") with
  | some (.str id) => id
  | _ => []

def isValidDoc (doc : Doc) (id : Text) : Bool :=
  natField doc (js "v") = some 1 && isValidSessionId id &&
    (match Json.field doc (js "sessionId") with
      | some (.str sessionId) => sessionId = id
      | _ => false) &&
    (natField doc (js "updatedAt")).isSome &&
    (match natField doc (js "baselineTokens"), natField doc (js "currentTokens"),
        natField doc (js "savedTokens"), Json.field doc (js "points") with
      | some baseline, some current, some saved, some (.arr points) =>
        saved + current = baseline && pointsValid points baseline current saved
      | _, _, _, _ => false) &&
    perfFields.all fun field => optionalField (Json.field doc field.1) field.2

/-- `isValidSnapshot(value, id)`, with the object. -/
def validSnapshot (id : Text) : Option Value → Option Doc
  | some (.obj doc) => if isValidDoc doc id then some doc else none
  | _ => none

/-- A file that the ledger has not written is its text and what `JSON.parse` makes of
that. -/
inductive File where
  | foreign (text : List UInt8) (parsed : Option Value)
  | written (doc : Doc)

def File.parsed : File → Option Value
  | .foreign _ parsed => parsed
  | .written doc => some (reread (.obj doc))

/-- The session files by session, and `live.json`. -/
abbrev Disk := Files Text File

def readJson (file : Option File) : Option Value := file.bind File.parsed

structure ProviderTotals where
  input : Number
  cacheRead : Number
  cacheWrite : Number
  output : Number
  deriving DecidableEq

structure Options where
  asyncWrites : Bool
  maxPendingSessions : Nat
  positive : 0 < maxPendingSessions

structure Ledger where
  memory : Text → Option Doc
  usage : Text → Option ProviderTotals
  dirty : List Text
  flushTimer : Bool
  dropped : Nat
  completed : Nat
  activeId : Option Text
  disk : Disk

def createLedger (disk : Disk) : Ledger :=
  ⟨fun _ => none, fun _ => none, [], false, 0, 0, none, disk⟩

/-- A `LedgerReject`, with its message. -/
abbrev Reject := Text

def snapshot (l : Ledger) : Option Doc := l.activeId.bind l.memory

def writeSnapshot (doc : Doc) (l : Ledger) : Ledger :=
  { l with disk := l.disk.write (sessionIdOf doc) (.written doc), completed := l.completed + 1 }

def drainDirty (l : Ledger) : Ledger :=
  l.dirty.foldl (fun l id =>
    match l.memory id with
    | none => l
    | some doc => writeSnapshot doc l) { l with dirty := [], flushTimer := false }

def markDirty (o : Options) (id : Text) (l : Ledger) : Ledger :=
  let touched := touch id l.dirty
  if o.maxPendingSessions < touched.length then
    { l with dirty := touched.tail, dropped := l.dropped + 1, flushTimer := true }
  else { l with dirty := touched, flushTimer := true }

def numberField (doc : Doc) (name : Text) : Option Number :=
  match Json.field doc name with
  | some (.num n) => some n
  | _ => none

/-- Without any billed field the totals are zero as well. -/
def adoptUsage (id : Text) (doc : Doc) (l : Ledger) : Ledger :=
  if (l.usage id).isSome then l
  else
    let total := fun name => (numberField doc name).getD (ofNat 0)
    { l with
      usage := Function.update l.usage id (some ⟨total (js "providerInput"),
        total (js "providerCacheRead"), total (js "providerCacheWrite"),
        total (js "providerOutput")⟩) }

/-- A clock reading, a safe integer as `Date.now()` is. -/
abbrev Time := Fin (2 ^ 53)

instance neZero_clock : NeZero (2 ^ 53) := ⟨by decide⟩

def freshSnapshot (id : Text) (now : Time) : Doc :=
  [(js "v", .num (ofNat 1)), (js "sessionId", .str id), (js "updatedAt", .num (ofNat now)),
    (js "baselineTokens", .num (ofNat 0)), (js "currentTokens", .num (ofNat 0)),
    (js "savedTokens", .num (ofNat 0)), (js "points", .arr [])]

/-- The snapshot that `load` finds: the session's file, else `live.json`, else a new one. -/
def found (id : Text) (now : Time) (disk : Disk) : Doc :=
  ((validSnapshot id (readJson (disk.file id))).or
    (validSnapshot id (readJson disk.latest))).getD (freshSnapshot id now)

def load (o : Options) (id : Text) (now : Time) (l : Ledger) : Ledger × Except Reject Doc :=
  if !isValidSessionId id then (l, .error (js "invalid session id"))
  else
    let snap := found id now l.disk
    let l := adoptUsage id snap { l with memory := Function.update l.memory id (some snap) }
    let l := { l with activeId := some id }
    (if o.asyncWrites then markDirty o id l else writeSnapshot snap l, .ok snap)

/-- Loads the session `default` when there is none. -/
def requireActive (o : Options) (now : Time) (l : Ledger) :
    Ledger × Option (Text × Doc) :=
  let l := if (snapshot l).isNone then (load o (js "default") now l).1 else l
  (l, l.activeId.bind fun id => (l.memory id).map fun previous => (id, previous))

def commit (o : Options) (next : Doc) (id : Text) (l : Ledger) : Ledger × Except Reject Doc :=
  if !isValidDoc next id then (l, .error (js "snapshot invariant failed"))
  else
    let kept := { l with memory := Function.update l.memory id (some next) }
    (if o.asyncWrites then markDirty o id kept else writeSnapshot next kept, .ok next)

/-- The fields of `from` that are set go onto `onto`, in the order of `copyPerf`. -/
def copyPerf (source onto : Doc) : Doc :=
  perfFields.foldl (fun onto field =>
    match Json.field source field.1 with
    | none => onto
    | some value => OrderedMap.place field.1 value onto) onto

def valueField (doc : Doc) (name : Text) : Value := (Json.field doc name).getD .null

def pointsOf (doc : Doc) : List Value :=
  match Json.field doc (js "points") with
  | some (.arr points) => points
  | _ => []

/-- The last 199 points once there are 200, and the new one. -/
def pushPoint (points : List Value) (point : Value) : List Value :=
  (if maxPoints ≤ points.length then points.drop (points.length - (maxPoints - 1)) else points) ++
    [point]

def totalWith (previous : Doc) (point : Value) (total field : Text) : Number :=
  match point with
  | .obj point =>
    plus ((numberField previous total).getD (ofNat 0)) ((numberField point field).getD (ofNat 0))
  | _ => (numberField previous total).getD (ofNat 0)

def nextRecorded (id : Text) (previous : Doc) (point : Value) (now : Time) : Doc :=
  let baselineTokens := totalWith previous point (js "baselineTokens") (js "baseline")
  let currentTokens := totalWith previous point (js "currentTokens") (js "current")
  copyPerf previous
    [(js "v", .num (ofNat 1)), (js "sessionId", .str id), (js "updatedAt", .num (ofNat now)),
      (js "baselineTokens", .num baselineTokens), (js "currentTokens", .num currentTokens),
      (js "savedTokens", .num (minus baselineTokens currentTokens)),
      (js "points", .arr (pushPoint (pointsOf previous) point))]

/-- `loaded` is the clock when the session `default` is loaded, `now` when the snapshot
is made. -/
def record (o : Options) (point : Value) (loaded now : Time) (l : Ledger) :
    Ledger × Except Reject Doc :=
  if !isValidPoint point then (l, .error (js "invalid savings point"))
  else
    match requireActive o loaded l with
    | (l, none) => (l, .error (js "no session"))
    | (l, some (id, previous)) => commit o (nextRecorded id previous point now) id l

def nextNoted (id : Text) (previous fields : Doc) (now : Time) : Doc :=
  copyPerf fields (copyPerf previous
    [(js "v", .num (ofNat 1)), (js "sessionId", .str id), (js "updatedAt", .num (ofNat now)),
      (js "baselineTokens", valueField previous (js "baselineTokens")),
      (js "currentTokens", valueField previous (js "currentTokens")),
      (js "savedTokens", valueField previous (js "savedTokens")),
      (js "points", .arr (pointsOf previous))])

/-- `fields` holds the fields that are not undefined. -/
def notePerf (o : Options) (fields : Doc) (loaded now : Time) (l : Ledger) :
    Ledger × Except Reject Doc :=
  match perfFields.find? fun field => !optionalField (Json.field fields field.1) field.2 with
  | some field => (l, .error (js "invalid " ++ field.1))
  | none =>
    match requireActive o loaded l with
    | (l, none) => (l, .error (js "no session"))
    | (l, some (id, previous)) => commit o (nextNoted id previous fields now) id l

def zeroTotals : ProviderTotals := ⟨ofNat 0, ofNat 0, ofNat 0, ofNat 0⟩

def cacheHitPct (totals : ProviderTotals) : Number :=
  let nat := fun n => (safeNat n).getD 0
  let denom := double (double (nat totals.input + nat totals.cacheRead) + nat totals.cacheWrite)
  if denom = 0 then ofNat 0
  else if isNegativeZero totals.cacheRead then totals.cacheRead
  else ofNat (hitPct (nat totals.cacheRead) denom)

def addProviderUsage (o : Options) (input cacheRead cacheWrite output : Number)
    (loaded now : Time) (l : Ledger) : Ledger × Except Reject Doc :=
  let safe := fun n => (safeNat n).isSome
  if !(safe input && safe cacheRead && safe cacheWrite && safe output) then
    (l, .error (js "invalid provider usage"))
  else
    match requireActive o loaded l with
    | (l, none) => (l, .error (js "no session"))
    | (l, some (id, _)) =>
      let row := (l.usage id).getD zeroTotals
      let totals : ProviderTotals := ⟨plus row.input input, plus row.cacheRead cacheRead,
        plus row.cacheWrite cacheWrite, plus row.output output⟩
      if !(safe totals.input && safe totals.cacheRead && safe totals.cacheWrite &&
          safe totals.output) then (l, .error (js "invalid provider usage"))
      else
        notePerf o [(js "cacheHitPct", .num (cacheHitPct totals)),
            (js "providerInput", .num totals.input), (js "providerOutput", .num totals.output),
            (js "providerCacheRead", .num totals.cacheRead),
            (js "providerCacheWrite", .num totals.cacheWrite)] loaded now
          { l with usage := Function.update l.usage id (some totals) }

/-- An operation, or a turn of the event loop in which the flush timer fires. -/
inductive Op where
  | load (id : Text) (now : Time)
  | record (point : Value) (loaded now : Time)
  | notePerf (fields : Doc) (loaded now : Time)
  | addProviderUsage (input cacheRead cacheWrite output : Number) (loaded now : Time)
  | flush
  | timer

def flush (o : Options) (l : Ledger) : Ledger := if o.asyncWrites then drainDirty l else l

def step (o : Options) (l : Ledger) : Op → Ledger
  | .load id now => (load o id now l).1
  | .record point loaded now => (record o point loaded now l).1
  | .notePerf fields loaded now => (notePerf o fields loaded now l).1
  | .addProviderUsage input cacheRead cacheWrite output loaded now =>
    (addProviderUsage o input cacheRead cacheWrite output loaded now l).1
  | .flush => flush o l
  | .timer => if l.flushTimer then drainDirty l else l

end Ultrathink.Source.TokenOpt
