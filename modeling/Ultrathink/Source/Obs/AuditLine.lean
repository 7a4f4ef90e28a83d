import Ultrathink.Library.JsonWrite

/-!
# Audit lines

The lines of the audit log in `obs/audit.ts`: what `writeRecord` puts into the file, how
`eachLine` cuts the file into lines and what `checkLine` accepts of one.
-/

namespace Ultrathink.Source.Obs.AuditLine

open Library JsText JsNumber JsonText JsonWrite Sha256

/-- `string | number | boolean` of a record's fields; the numbers are finite. -/
inductive Primitive where
  | text (s : Text)
  | number (x : Finite)
  | flag (b : Bool)

def Primitive.value : Primitive → Value
  | .text s => .str s
  | .number x => .num (.finite x)
  | .flag b => .bool b

/-- The fields stand in the order of their own keys. -/
structure AuditRecord where
  seq : Finite
  ts : Text
  event : Text
  prev : Text
  hash : Text
  fields : List (Text × Primitive)

def fieldsValue (fields : List (Text × Primitive)) : Value :=
  .obj (fields.map fun f => (f.1, f.2.value))

/-- `Object.keys(record).sort()` applied to members. -/
def sortByName {β : Type} (members : List (Text × β)) : List (Text × β) :=
  members.insertionSort fun a b => le a.1 b.1

mutual

def canonical : Value → Text
  | .arr items => arrayText (canonicalItems items)
  | .obj members => objectText (sortByName (canonicalMembers members))
  | .null => stringify .null
  | .bool b => stringify (.bool b)
  | .num n => stringify (.num n)
  | .str s => stringify (.str s)

def canonicalItems : List Value → List Text
  | [] => []
  | v :: rest => canonical v :: canonicalItems rest

def canonicalMembers : List (Text × Value) → List (Text × Text)
  | [] => []
  | (name, v) :: rest => (name, canonical v) :: canonicalMembers rest

end

/-- The text that is hashed for a record. -/
def hashedText (seq : Finite) (ts event prev : Text) (fields : List (Text × Primitive)) : Text :=
  prev ++ 0x0A :: canonical (.obj [(js "seq", .num (.finite seq)), (js "ts", .str ts),
    (js "event", .str event), (js "prev", .str prev), (js "fields", fieldsValue fields)])

def hashRecord (seq : Finite) (ts event prev : Text) (fields : List (Text × Primitive)) : Text :=
  sha256Hex (toUtf8 (hashedText seq ts event prev fields))

/-- `{ seq, ts, event, prev, hash, fields }` -/
def AuditRecord.members (r : AuditRecord) : List (Text × Value) :=
  [(js "seq", .num (.finite r.seq)), (js "ts", .str r.ts), (js "event", .str r.event),
    (js "prev", .str r.prev), (js "hash", .str r.hash), (js "fields", fieldsValue r.fields)]

/-- What `writeRecord` appends for a record, before the line end. -/
def recordBytes (r : AuditRecord) : List UInt8 := toUtf8 (stringify (.obj r.members))

/-- The record that `writeRecord` builds. -/
def recordOf (seq : Finite) (ts event prev : Text) (fields : List (Text × Primitive)) :
    AuditRecord :=
  ⟨seq, ts, event, prev, hashRecord seq ts event prev fields, fields⟩

/-- The exact key set of a record line, sorted. -/
def RECORD_KEYS : List Text :=
  [js "event", js "fields", js "hash", js "prev", js "seq", js "ts"]

/-- What `checkLine` returns for a line that it accepts. -/
structure CheckedLine where
  hash : Text
  ts : Text
  event : Text
  fields : List (Text × Primitive)

def isPlainObject : Value → Option (List (Text × Value))
  | .obj members => some members
  | _ => none

def integerOf : Option Value → Option Finite
  | some (.num (.finite n)) => if (toInt? (.finite n)).isSome then some n else none
  | _ => none

def stringOf : Option Value → Option Text
  | some (.str s) => some s
  | _ => none

def primitiveOf : Value → Option Primitive
  | .str s => some (.text s)
  | .bool b => some (.flag b)
  | .num (.finite x) => some (.number x)
  | _ => none

/-- `===` on numbers: the two zeros are one. -/
def sameNumber (m n : Finite) : Bool := m.units = n.units && (m.negative = n.negative || m.units = 0)

/-- A value, or the reason of the line that lacks it. -/
def orReason {α : Type} (value : Option α) (reason : Text) : Except Text α :=
  value.elim (.error reason) .ok

def check (holds : Bool) (reason : Text) : Except Text Unit :=
  if holds then .ok () else .error reason

def proto : Text := js "__proto__"

/-- The loop over the fields. Assigning a primitive to `flat.__proto__` reaches the setter of
`Object.prototype`, which ignores it. -/
def flatten : List (Text × Value) → Except Text (List (Text × Primitive))
  | [] => .ok []
  | (key, v) :: rest => do
    let value ← orReason (primitiveOf v) (js "field " ++ quoted key ++ js " is not a primitive")
    let flat ← flatten rest
    return if key = proto then flat else (key, value) :: flat

def checkLine (line : Text) (expectedSeq : Finite) (expectedPrev : Text) :
    Except Text CheckedLine := do
  let value ← orReason (parse line) (js "not valid JSON")
  let parsed ← orReason (isPlainObject value) (js "record is not an object")
  check (decide ((sortByName parsed).map Prod.fst = RECORD_KEYS))
    (js "record does not have exactly the keys seq, ts, event, prev, hash and fields")
  check (decide (stringify (.obj parsed) = line))
    (js "line is not the canonical serialization of its record (duplicate keys or extra whitespace)")
  let seq ← orReason (integerOf (Json.field parsed (js "seq"))) (js "seq is not an integer")
  check (sameNumber seq expectedSeq)
    (js "seq " ++ numberText (.finite seq) ++ js " where " ++ numberText (.finite expectedSeq) ++
      js " was expected")
  let ts ← orReason (stringOf (Json.field parsed (js "ts"))) (js "ts is not a string")
  let event ← orReason ((stringOf (Json.field parsed (js "event"))).filter fun t => t ≠ [])
    (js "event is not a string")
  let prev ← orReason ((stringOf (Json.field parsed (js "prev"))).filter isHex64)
    (js "prev is not a sha256 hex digest")
  check (decide (prev = expectedPrev)) (js "prev does not match the previous record's hash")
  let hash ← orReason ((stringOf (Json.field parsed (js "hash"))).filter isHex64)
    (js "hash is not a sha256 hex digest")
  let fields ← orReason ((Json.field parsed (js "fields")).bind isPlainObject)
    (js "fields is not an object")
  let flat ← flatten (ownOrder fields)
  check (decide (hashRecord seq ts event prev flat = hash)) (js "hash does not match the record")
  return ⟨hash, ts, event, flat⟩

/-- Longer lines than this cannot have been written by `record()`. -/
def MAX_LINE_BYTES : Nat := 1024 * 1024

variable {σ : Type}

/-- One chunk, from behind `tail`: the bytes that are pending after it and the state. -/
def scanChunk (onLine : σ → Text → Except Text σ) (pending tail : List UInt8) :
    List UInt8 → σ → Except Text (List UInt8 × σ)
  | [], s =>
    if tail ≠ [] ∧ MAX_LINE_BYTES < pending.length + tail.length then
      .error (js "record exceeds the maximum line length")
    else .ok (pending ++ tail, s)
  | b :: rest, s =>
    if b ≠ 0x0A then scanChunk onLine pending (tail ++ [b]) rest s
    else if MAX_LINE_BYTES < pending.length + tail.length then
      .error (js "record exceeds the maximum line length")
    else do
      let s ← onLine s (ofUtf8 (pending ++ tail))
      scanChunk onLine [] [] rest s

/-- The chunks that the file is read in, until a line is rejected. -/
def eachLine (onLine : σ → Text → Except Text σ) (pending : List UInt8) :
    List (List UInt8) → σ → Except Text σ
  | [], s =>
    if pending = [] then .ok s
    else .error (js "truncated last record (no trailing newline)")
  | chunk :: more, s => do
    let (pending, s) ← scanChunk onLine pending [] chunk s
    eachLine onLine pending more s

end Ultrathink.Source.Obs.AuditLine
