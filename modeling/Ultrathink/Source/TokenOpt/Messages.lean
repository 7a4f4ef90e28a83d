import Ultrathink.Library.Runs
import Ultrathink.Source.TokenOpt.Ledger

/-!
# Messages and what they cost (`omp-token-opt/src/index.ts`)

The `message_end` handler over the operations of the ledger that it calls, with writes that
throw. Amounts are exact numbers. Of a snapshot this keeps the fields that the handler reads
or sets; what is committed is made of checked fields and a valid snapshot, so `commit` fails
only where its write does. What a session's files hold when it is loaded is an input.
-/

namespace Ultrathink.Source.TokenOpt.Messages

open Library JsText Runs

structure Totals where
  input : Nat
  cacheRead : Nat
  cacheWrite : Nat
  output : Nat
  deriving DecidableEq

def Totals.zero : Totals := ⟨0, 0, 0, 0⟩

def Totals.add (a b : Totals) : Totals :=
  ⟨a.input + b.input, a.cacheRead + b.cacheRead, a.cacheWrite + b.cacheWrite, a.output + b.output⟩

/-- `isNonNegInt` of the four. -/
def Totals.isSafe (a : Totals) : Bool :=
  a.input ≤ maxSafe && a.cacheRead ≤ maxSafe && a.cacheWrite ≤ maxSafe && a.output ≤ maxSafe

structure Snapshot where
  costCents : Option Nat
  providerInput : Option Nat
  providerCacheRead : Option Nat
  providerCacheWrite : Option Nat
  providerOutput : Option Nat
  deriving DecidableEq

def Snapshot.billed (snap : Snapshot) : Totals :=
  ⟨snap.providerInput.getD 0, snap.providerCacheRead.getD 0, snap.providerCacheWrite.getD 0,
    snap.providerOutput.getD 0⟩

structure Ledger where
  memory : Text → Option Snapshot
  usage : Text → Option Totals
  activeId : Option Text

/-- The files of a session that an operation may load, and whether its writes throw. -/
structure Disk where
  found : Snapshot
  loadThrows : Bool
  commitThrows : Bool

/-- An operation: the ledger, and whether it has returned. -/
abbrev Done := Ledger × Bool

def adoptUsage (id : Text) (snap : Snapshot) (l : Ledger) : Ledger :=
  match l.usage id with
  | some _ => l
  | none => { l with usage := Function.update l.usage id (some snap.billed) }

/-- Memory, usage and the active session are set before the snapshot is written. -/
def load (id : Text) (found : Snapshot) (throws_ : Bool) (l : Ledger) : Done :=
  if !isValidSessionId id then (l, false)
  else
    let l := adoptUsage id found { l with memory := Function.update l.memory id (some found) }
    ({ l with activeId := some id }, !throws_)

def current (l : Ledger) : Option (Text × Snapshot) :=
  l.activeId.bind fun id => (l.memory id).map fun snap => (id, snap)

def requireActive (d : Disk) (l : Ledger) : Ledger × Option (Text × Snapshot) :=
  match current l with
  | some active => (l, some active)
  | none =>
    let (l, loaded) := load (js "default") d.found d.loadThrows l
    (l, if loaded then current l else none)

def notePerf (fields : Snapshot → Snapshot) (d : Disk) (l : Ledger) : Done :=
  match requireActive d l with
  | (l, none) => (l, false)
  | (l, some (id, previous)) =>
    if d.commitThrows then (l, false)
    else ({ l with memory := Function.update l.memory id (some (fields previous)) }, true)

def addProviderUsage (tokens : Totals) (d : Disk) (l : Ledger) : Done :=
  match requireActive d l with
  | (l, none) => (l, false)
  | (l, some (id, _)) =>
    let totals := ((l.usage id).getD .zero).add tokens
    if !totals.isSafe then (l, false)
    else
      notePerf (fun snap => { snap with
          providerInput := some totals.input
          providerCacheRead := some totals.cacheRead
          providerCacheWrite := some totals.cacheWrite
          providerOutput := some totals.output }) d
        { l with usage := Function.update l.usage id (some totals) }

/-- A value of a message that should be a number. -/
inductive Amount where
  | absent
  | number (value : ℚ)
  | notFinite
  | other
  deriving DecidableEq

structure Usage where
  costUsd : Amount
  /-- `cost.total`, absent when `cost` is no object. -/
  costTotal : Amount
  input : Amount
  output : Amount
  cacheRead : Amount
  cacheWrite : Amount
  deriving DecidableEq

/-- A response id, or the message object that has none. -/
inductive Key where
  | response (id : Text)
  | object (id : Nat)
  deriving DecidableEq

structure Message where
  assistant : Bool
  key : Key
  duration : Amount
  ttft : Amount
  usage : Option Usage
  deriving DecidableEq

/-- `Math.round` -/
def round (value : ℚ) : Int := (value + 1 / 2).floor

def finiteInt : Amount → Option Nat
  | .absent => some 0
  | .number value =>
    if value.den = 1 ∧ 0 ≤ value.num ∧ value.num ≤ maxSafe then some value.num.toNat else none
  | .notFinite => none
  | .other => none

def safeDuration : Amount → Option Nat
  | .number value => if 0 ≤ value ∧ round value ≤ maxSafe then some (round value).toNat else none
  | _ => none

def costUsdFrom (u : Usage) : Option ℚ :=
  match u.costUsd with
  | .number value => if 0 ≤ value then some value else none
  | .notFinite => none
  | _ =>
    match u.costTotal with
    | .number value => if 0 ≤ value then some value else none
    | _ => none

def tokensOf (u : Usage) : Option Totals :=
  match finiteInt u.input, finiteInt u.output, finiteInt u.cacheRead, finiteInt u.cacheWrite with
  | some input, some output, some cacheRead, some cacheWrite =>
    some ⟨input, cacheRead, cacheWrite, output⟩
  | _, _, _, _ => none

def sessionCostsMax : Nat := 64

/-- `seenTiming` and `seenMessages` stand for the sets of ids and the weak sets of objects. -/
structure State where
  ledger : Ledger
  sessionCostUsd : ℚ
  sessionCosts : List (Text × ℚ)
  turnStartedAt : Option Nat
  seenTiming : List Key
  seenMessages : List Key

def costOf (costs : List (Text × ℚ)) (id : Text) : Option ℚ :=
  (costs.find? fun entry => entry.1 = id).map Prod.snd

def activeSession (l : Ledger) : Text := ((current l).map Prod.fst).getD (js "default")

/-- `delete`, `set`, and the oldest entry dropped beyond the limit. -/
def setCost (id : Text) (total : ℚ) (costs : List (Text × ℚ)) : List (Text × ℚ) :=
  let next := costs.filter (fun entry => entry.1 ≠ id) ++ [(id, total)]
  if sessionCostsMax < next.length then next.tail else next

def centsOf (total : ℚ) : Nat := (round (total * 100)).toNat

/-- What the snapshot says the session has cost; it counts in cents. -/
def costIn (found : Snapshot) : ℚ := found.costCents.getD 0 / 100

/-- `loadSnapshot`; whether it has returned. -/
def loadSnapshot (id : Text) (found : Snapshot) (throws_ : Bool) (s : State) : State × Bool :=
  let done := load id found throws_ s.ledger
  let s := { s with ledger := done.1 }
  if done.2 then
    ({ s with sessionCostUsd := (costOf s.sessionCosts id).getD (costIn found) }, true)
  else (s, false)

/-- The session that is asked for, else the session `default`. -/
def beginSession (id : Text) (own fallback : Disk) (s : State) : State :=
  let first := loadSnapshot id own.found own.loadThrows { s with turnStartedAt := none }
  if first.2 then first.1
  else (loadSnapshot (js "default") fallback.found fallback.loadThrows first.1).1

def lastTurnMs (m : Message) (now : Nat) (s : State) : Option Nat :=
  (safeDuration m.duration).or
    (s.turnStartedAt.bind fun started => if started ≤ now then some (now - started) else none)

/-- The timing of the message is noted once; whether nothing has thrown. -/
def noteTiming (m : Message) (now : Nat) (d : Disk) (s : State) : State × Bool :=
  if m.key ∈ s.seenTiming then (s, true)
  else
    if (lastTurnMs m now s).isNone && (safeDuration m.ttft).isNone then
      ({ s with seenTiming := m.key :: s.seenTiming }, true)
    else
      match notePerf id d s.ledger with
      | (l, false) => ({ s with ledger := l }, false)
      | (l, true) => ({ s with ledger := l, seenTiming := m.key :: s.seenTiming }, true)

/-- The cost of the message; whether nothing has thrown. -/
def noteCost (dollars : Option ℚ) (d : Disk) (s : State) : State × Bool :=
  match dollars with
  | none => (s, true)
  | some dollars =>
    let nextTotal := s.sessionCostUsd + dollars
    if centsOf nextTotal ≤ maxSafe then
      match notePerf (fun snap => { snap with costCents := some (centsOf nextTotal) }) d s.ledger with
      | (l, false) => ({ s with ledger := l }, false)
      | (l, true) =>
        ({ s with
          ledger := l
          sessionCostUsd := nextTotal
          sessionCosts := setCost (activeSession l) nextTotal s.sessionCosts }, true)
    else (s, true)

/-- What `message_end` takes of a message whose counts are all numbers: cost and tokens. -/
def chargeOf (m : Message) : Option (Option ℚ × Totals) :=
  m.usage.bind fun u => (tokensOf u).map fun tokens => (costUsdFrom u, tokens)

def noteUsage (key : Key) (tokens : Totals) (d : Disk) (s : State) : State :=
  match addProviderUsage tokens d s.ledger with
  | (l, false) => { s with ledger := l }
  | (l, true) => { s with ledger := l, seenMessages := key :: s.seenMessages }

/-- The files and writes of the three operations. -/
structure Disks where
  timing : Disk
  cost : Disk
  usage : Disk

def messageEnd (m : Message) (now : Nat) (d : Disks) (s : State) : State :=
  if !m.assistant || m.key ∈ s.seenMessages then s
  else
    match noteTiming m now d.timing s with
    | (s, false) => s
    | (s, true) =>
      match chargeOf m with
      | none => s
      | some (dollars, tokens) =>
        match noteCost dollars d.cost s with
        | (s, false) => s
        | (s, true) => noteUsage m.key tokens d.usage s

inductive Input where
  | beginSession (id : Text) (own fallback : Disk)
  | turnStart (now : Nat)
  | messageEnd (m : Message) (now : Nat) (d : Disks)
  /-- A point is recorded, or a field noted that is none of these. -/
  | noteOther (d : Disk)

def step (s : State) : Input → State
  | .beginSession id own fallback => beginSession id own fallback s
  | .turnStart now => { s with turnStartedAt := some now }
  | .messageEnd m now d => messageEnd m now d s
  | .noteOther d => { s with ledger := (notePerf id d s.ledger).1 }

structure Start (s : State) : Prop where
  memory : s.ledger.memory = fun _ => none
  usage : s.ledger.usage = fun _ => none
  activeId : s.ledger.activeId = none
  sessionCostUsd : s.sessionCostUsd = 0
  sessionCosts : s.sessionCosts = []
  seenTiming : s.seenTiming = []
  seenMessages : s.seenMessages = []

def system : System State Input := ⟨Start, fun s i t => t = step s i⟩

end Ultrathink.Source.TokenOpt.Messages
