import Ultrathink.Library.JsonWrite
import Ultrathink.Library.OrderedMap
import Ultrathink.Library.Window

/-!
# Anomaly rules

`parseAnomalyRules` and `createAnomalyDetector` of `obs/anomaly.ts`. The clock is read once for
each event that counts at all; the reading is an argument here.
-/

namespace Ultrathink.Source.Obs.Anomaly

open Library JsText JsNumber JsonText JsonWrite Window

inductive Primitive where
  | text (s : Text)
  | number (n : Number)
  | flag (b : Bool)
  deriving DecidableEq

/-- `===` on numbers: no NaN equals itself, and the two zeros are one. -/
def sameNumber : Number → Number → Bool
  | .finite x, .finite y => x.units = y.units && (x.negative = y.negative || x.units = 0)
  | .infinity a, .infinity b => a = b
  | _, _ => false

def Primitive.same : Primitive → Primitive → Bool
  | .text s, .text t => s = t
  | .number m, .number n => sameNumber m n
  | .flag a, .flag b => a = b
  | _, _ => false

/-- `String(value)`. -/
def Primitive.toText : Primitive → Text
  | .text s => s
  | .number n => numberText n
  | .flag b => ofBool b

abbrev Fields := List (Text × Primitive)

def functionText (name : Text) : Text := js "function " ++ name ++ js "() \x7b [native code] \x7d"

/-- What a plain object answers for a name that it does not hold, as `String` shows it. -/
def inherited (name : Text) : Option Text :=
  if name = js "__proto__" then some (js "[object Object]")
  else if name = js "constructor" then some (functionText (js "Object"))
  else if name ∈ [js "__defineGetter__", js "__defineSetter__", js "hasOwnProperty",
      js "__lookupGetter__", js "__lookupSetter__", js "isPrototypeOf", js "propertyIsEnumerable",
      js "toString", js "valueOf", js "toLocaleString"] then some (functionText name)
  else none

def own (fields : Fields) (name : Text) : Option Primitive :=
  (fields.find? fun f => f.1 = name).map Prod.snd

/-- `String(fields[name])`, nothing when the property is undefined. -/
def keyText (fields : Fields) (name : Text) : Option Text :=
  match own fields name with
  | some value => some value.toText
  | none => inherited name

structure AnomalyRule where
  name : Text
  event : Text
  count : Nat
  windowSec : Nat
  groupBy : Option Text
  where_ : Option Fields
  deriving DecidableEq

def AUDIT_OWN_EVENTS : List Text :=
  [js "audit_anchor", js "anomaly_detected", js "audit_tamper_detected",
    js "audit_retention_pruned"]

def RULE_FIELDS : List Text :=
  [js "name", js "event", js "count", js "windowSec", js "groupBy", js "where"]

def MAX_COUNT : Nat := 10000

def MAX_WINDOW_SEC : Nat := 86400

/-- Distinct keys tracked per rule. -/
def MAX_KEYS_PER_RULE : Nat := 10000

def UNGROUPED_KEY : Text := js "*"

def stringOf : Option Value → Option Text
  | some (.str s) => some s
  | _ => none

def nonEmpty (value : Option Value) : Option Text := (stringOf value).filter fun t => t ≠ []

def ruleFailure (index : Nat) (name : Option Value) (problem : Text) : Text :=
  let label := match nonEmpty name with
    | some name => js " (\"" ++ name ++ js "\")"
    | none => []
  js "anomaly rule " ++ digits index ++ label ++ js ": " ++ problem

def require {α : Type} (value : Option α) (message : Text) : Except Text α :=
  value.elim (.error message) .ok

def primitiveOf : Value → Option Primitive
  | .str s => some (.text s)
  | .num n => some (.number n)
  | .bool b => some (.flag b)
  | _ => none

def objectOf : Value → Option (List (Text × Value))
  | .obj members => some members
  | _ => none

def integerIn (low high : Nat) : Option Value → Option Nat
  | some (.num n) =>
    match toInt? n with
    | some i => if (low : ℤ) ≤ i ∧ i ≤ (high : ℤ) then some i.toNat else none
    | none => none
  | _ => none

/-- The entries in turn. Assigning a primitive to `where.__proto__` does nothing. -/
def parseEntries (index : Nat) (name : Option Value) : List (Text × Value) → Except Text Fields
  | [] => .ok []
  | (field, v) :: rest => do
    let value ← require (primitiveOf v)
      (ruleFailure index name (js "where." ++ field ++ js " must be a string, number or boolean"))
    let where_ ← parseEntries index name rest
    return if field = js "__proto__" then where_ else (field, value) :: where_

def parseWhere (raw : Value) (index : Nat) (name : Option Value) : Except Text Fields := do
  let members ← require (objectOf raw) (ruleFailure index name (js "where must be an object"))
  parseEntries index name (ownOrder members)

def parseGroupBy (raw : Option Value) (index : Nat) (name : Option Value) :
    Except Text (Option Text) :=
  match raw with
  | none => .ok none
  | some raw => do
    let groupBy ← require (nonEmpty (some raw))
      (ruleFailure index name (js "groupBy must be a non-empty string"))
    return some groupBy

/-- One rule, with the names of the rules before it. -/
def parseRule (raw : Value) (index : Nat) (names : List Text) : Except Text AnomalyRule := do
  let members ← require (objectOf raw) (ruleFailure index none (js "must be an object"))
  let field := Json.field members
  let nameValue := field (js "name")
  let failure := ruleFailure index nameValue
  match (ownOrder members).find? fun m => m.1 ∉ RULE_FIELDS with
  | some unknown => .error (failure (js "unknown field \"" ++ unknown.1 ++ js "\""))
  | none =>
    let name ← require (nonEmpty nameValue) (failure (js "name must be a non-empty string"))
    if name ∈ names then .error (failure (js "duplicate name"))
    else
      let event ← require (nonEmpty (field (js "event")))
        (failure (js "event must be a non-empty string"))
      if event ∈ AUDIT_OWN_EVENTS then
        .error (failure (js "event \"" ++ event ++
          js "\" is written by the audit trail and cannot be counted"))
      else
        let count ← require (integerIn 1 MAX_COUNT (field (js "count")))
          (failure (js "count must be an integer 1.." ++ digits MAX_COUNT))
        let windowSec ← require (integerIn 1 MAX_WINDOW_SEC (field (js "windowSec")))
          (failure (js "windowSec must be an integer 1.." ++ digits MAX_WINDOW_SEC))
        let groupBy ← parseGroupBy (field (js "groupBy")) index nameValue
        match field (js "where") with
        | none => .ok ⟨name, event, count, windowSec, groupBy, none⟩
        | some raw => do
          let where_ ← parseWhere raw index nameValue
          return ⟨name, event, count, windowSec, groupBy, some where_⟩

def parseRules (index : Nat) (names : List Text) : List Value → Except Text (List AnomalyRule)
  | [] => .ok []
  | raw :: more => do
    let rule ← parseRule raw index names
    let rules ← parseRules (index + 1) (rule.name :: names) more
    return rule :: rules

def parseAnomalyRules (value : Value) : Except Text (List AnomalyRule) :=
  match value with
  | .arr items => parseRules 0 [] items
  | _ => .error (js "anomaly rules must be an array")

structure AnomalyAlert where
  rule : Text
  key : Text
  count : Nat
  windowSec : Nat
  deriving DecidableEq

/-- The most recent `count` readings, and until when alerts are suppressed. -/
structure KeyState where
  recent : List ℤ
  suppressedUntil : Option ℤ

structure RuleState where
  rule : AnomalyRule
  keys : OrderedMap Text KeyState

abbrev Detector := List RuleState

def matchesWhere (where_ : Option Fields) (fields : Fields) : Bool :=
  match where_ with
  | none => true
  | some where_ => where_.all fun w => (own fields w.1).any fun value => value.same w.2

/-- The key that an event counts for under a rule. -/
def keyOf (rule : AnomalyRule) (event : Text) (fields : Fields) : Option Text :=
  if rule.event ≠ event ∨ matchesWhere rule.where_ fields = false then none
  else
    match rule.groupBy with
    | none => some UNGROUPED_KEY
    | some name => keyText fields name

def windowMs (rule : AnomalyRule) : ℤ := rule.windowSec * 1000

def alertOf (rule : AnomalyRule) (key : Text) : AnomalyAlert :=
  ⟨rule.name, key, rule.count, rule.windowSec⟩

/-- Room for one more key: beyond the limit the oldest is evicted. -/
def makeRoom (keys : OrderedMap Text KeyState) : OrderedMap Text KeyState :=
  if MAX_KEYS_PER_RULE ≤ keys.size then
    match keys.entries.head? with
    | some oldest => keys.erase oldest.1
    | none => keys
  else keys

/-- The map that holds the key, and what it holds for it. -/
def entryFor (keys : OrderedMap Text KeyState) (key : Text) : OrderedMap Text KeyState × KeyState :=
  match keys.get? key with
  | some entry => (keys, entry)
  | none => (makeRoom keys, ⟨[], none⟩)

/-- Whether the window is full and its alert not suppressed. -/
def crosses (rule : AnomalyRule) (recent : List ℤ) (suppressedUntil : Option ℤ) (now : ℤ) : Bool :=
  if recent.length < rule.count then false
  else if recent.head?.all (· ≤ now - windowMs rule) then false
  else suppressedUntil.all (· ≤ now)

def record (s : RuleState) (key : Text) (now : ℤ) : RuleState × Option AnomalyAlert :=
  let (keys, entry) := entryFor s.keys key
  let recent := keepLast s.rule.count entry.recent now
  if crosses s.rule recent entry.suppressedUntil now then
    (⟨s.rule, keys.set key ⟨recent, some (now + windowMs s.rule)⟩⟩, some (alertOf s.rule key))
  else (⟨s.rule, keys.set key ⟨recent, entry.suppressedUntil⟩⟩, none)

structure Event where
  name : Text
  fields : Fields
  at_ : ℤ

def observeRule (e : Event) (s : RuleState) : RuleState × Option AnomalyAlert :=
  match keyOf s.rule e.name e.fields with
  | none => (s, none)
  | some key => record s key e.at_

def createAnomalyDetector (rules : List AnomalyRule) : Detector :=
  rules.map fun rule => ⟨rule, .empty⟩

def observe (d : Detector) (e : Event) : Detector × List AnomalyAlert :=
  if e.name ∈ AUDIT_OWN_EVENTS then (d, [])
  else (d.map fun s => (observeRule e s).1, d.filterMap fun s => (observeRule e s).2)

end Ultrathink.Source.Obs.Anomaly
