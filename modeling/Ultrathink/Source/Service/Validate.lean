import Ultrathink.Library.JsonWrite

/-!
# Arguments against a tool's schema (`services/ultrathink/mcp/validate.ts`)

A schema is given as `compileNode` compiles it; the checks that it makes of a schema are left
out, since every schema of the service is a constant. `validateNode` is none where the source
answers `{ ok: true }`.
-/

namespace Ultrathink.Service.Validate

open List Library JsText JsonWrite
open Library.JsNumber (Number Finite toInt? isFinite)

abbrev Value := Json Number

abbrev Record := Json.Record Number

def Finite.signed (x : Finite) : Int := if x.negative then -x.units else x.units

/-- `a <= b` -/
def atMost : Number → Number → Bool
  | .nan, _ => false
  | _, .nan => false
  | .infinity true, _ => true
  | _, .infinity false => true
  | .infinity false, _ => false
  | _, .infinity true => false
  | .finite x, .finite y => Finite.signed x ≤ Finite.signed y

/-- `Array.prototype.includes` on primitive values. -/
def sameValueZero : Value → Value → Bool
  | .null, .null => true
  | .bool a, .bool b => a = b
  | .str a, .str b => a = b
  | .num a, .num b => (a = .nan && b = .nan) || (atMost a b && atMost b a)
  | _, _ => false

inductive SchemaType where
  | string | number | integer | boolean | object | array | null
  deriving DecidableEq

def SchemaType.text : SchemaType → Text
  | .string => js "string"
  | .number => js "number"
  | .integer => js "integer"
  | .boolean => js "boolean"
  | .object => js "object"
  | .array => js "array"
  | .null => js "null"

def matchesType : SchemaType → Value → Bool
  | .string, .str _ => true
  | .integer, .num n => (toInt? n).isSome
  | .number, .num n => isFinite n
  | .boolean, .bool _ => true
  | .array, .arr _ => true
  | .object, .obj _ => true
  | .null, .null => true
  | _, _ => false

/-- The keywords that name no other schema. -/
structure Keywords where
  types : Option (List SchemaType) := none
  enumValues : Option (List Value) := none
  minimum : Option Number := none
  maximum : Option Number := none
  minLength : Option Nat := none
  maxLength : Option Nat := none
  required : Option (List Text) := none

/-- The compiled form of one schema node. Extra keys are allowed, refused or checked by
`additional`. -/
inductive Node where
  | mk (keywords : Keywords) (properties : Option (List (Text × Node))) (additional : Bool ⊕ Node)
    (items : Option Node)

namespace Node

def keywords : Node → Keywords
  | mk keywords _ _ _ => keywords

def properties : Node → Option (List (Text × Node))
  | mk _ properties _ _ => properties

def additional : Node → Bool ⊕ Node
  | mk _ _ additional _ => additional

def items : Node → Option Node
  | mk _ _ _ items => items

end Node

/-- What a key of an object is held to. -/
inductive Rule where
  | node (child : Node)
  | unknown
  | free

def ruleOf (node : Node) (key : Text) : Rule :=
  match (node.properties.getD []).find? fun p => p.1 = key with
  | some (_, child) => .node child
  | none =>
    match node.additional with
    | .inl false => .unknown
    | .inl true => .free
    | .inr child => .node child

structure Failure where
  path : Text
  reason : Text
  deriving DecidableEq

def MAX_PATH_KEY_CHARS : Nat := 64

/-- `/^[A-Za-z_$][\w$]*$/` -/
def isIdentifier : Text → Bool
  | [] => false
  | u :: rest =>
    (isUpperLetter u || isLowerLetter u || u = 0x5F || u = 0x24) &&
      rest.all fun v => isWord v || v = 0x24

def keyPath (parent key : Text) : Text :=
  let shown := if MAX_PATH_KEY_CHARS < key.length then key.take MAX_PATH_KEY_CHARS ++ js "…" else key
  if isIdentifier shown then parent ++ js "." ++ shown
  else parent ++ js "[" ++ quoted shown ++ js "]"

def indexPath (path : Text) (index : Nat) : Text :=
  path ++ js "[" ++ JsText.ofNat index ++ js "]"

/-- `when ? fail(path, reason) : next` -/
def failIf (when : Bool) (path reason : Text) : Option Failure :=
  if when then some ⟨path, reason⟩ else none

def boundFailure (k : Keywords) (path : Text) : Value → Option Failure
  | .num n =>
    (k.minimum.bind fun b =>
      failIf (!atMost b n) path (js "below minimum " ++ numberText b)).or
    (k.maximum.bind fun b =>
      failIf (!atMost n b) path (js "above maximum " ++ numberText b))
  | .str s =>
    (k.minLength.bind fun b =>
      failIf (s.length < b) path (js "shorter than " ++ JsText.ofNat b ++ js " characters")).or
    (k.maxLength.bind fun b =>
      failIf (b < s.length) path (js "longer than " ++ JsText.ofNat b ++ js " characters"))
  | _ => none

/-- The checks that look at the value alone. -/
def ownFailure (k : Keywords) (path : Text) (value : Value) : Option Failure :=
  (k.types.bind fun types =>
    failIf (!types.any fun type => matchesType type value) path
      (js "expected " ++ join (js " or ") (types.map SchemaType.text))).or
  ((k.enumValues.bind fun values =>
    failIf (!values.any fun member => sameValueZero member value) path
      (js "not one of the allowed values")).or
  (boundFailure k path value))

def missingFailure (k : Keywords) (path : Text) (fields : Record) : Option Failure :=
  ((k.required.getD []).find? fun key => (Json.field fields key).isNone).map fun key =>
    ⟨keyPath path key, js "missing required property"⟩

/-- The first failure, in the order of the object's own keys. -/
def firstFailure (results : List (Text × Option Failure)) : Option Failure :=
  (ownOrder results).findSome? Prod.snd

mutual

def validateNode (node : Node) (path : Text) : Value → Option Failure
  | .arr values =>
    (ownFailure node.keywords path (.arr values)).or <|
      match node.items with
      | some items => validateItems items path 0 values
      | none => none
  | .obj fields =>
    (ownFailure node.keywords path (.obj fields)).or <|
      (missingFailure node.keywords path fields).or (firstFailure (validateFields node path fields))
  | .null => ownFailure node.keywords path .null
  | .bool b => ownFailure node.keywords path (.bool b)
  | .num n => ownFailure node.keywords path (.num n)
  | .str s => ownFailure node.keywords path (.str s)

def validateItems (items : Node) (path : Text) : Nat → List Value → Option Failure
  | _, [] => none
  | index, value :: rest =>
    (validateNode items (indexPath path index) value).or (validateItems items path (index + 1) rest)

def validateFields (node : Node) (path : Text) : List (Text × Value) → List (Text × Option Failure)
  | [] => []
  | (key, value) :: rest =>
    (key, match ruleOf node key with
      | .node child => validateNode child (keyPath path key) value
      | .unknown => some ⟨keyPath path key, js "unknown property"⟩
      | .free => none) :: validateFields node path rest

end

/-- The validator that `compileSchema` returns. -/
def validate (schema : Node) (value : Value) : Option Failure := validateNode schema (js "arguments") value

/-- The keywords that look at the value alone. -/
structure Meets (k : Keywords) (value : Value) : Prop where
  typed : ∀ types, k.types = some types → ∃ type ∈ types, matchesType type value = true
  listed : ∀ values, k.enumValues = some values → ∃ member ∈ values, sameValueZero member value = true
  least : ∀ n b, value = .num n → k.minimum = some b → atMost b n = true
  most : ∀ n b, value = .num n → k.maximum = some b → atMost n b = true
  long : ∀ s b, value = .str s → k.minLength = some b → b ≤ s.length
  short : ∀ s b, value = .str s → k.maxLength = some b → s.length ≤ b

/-- The value is what the schema describes. -/
inductive Conforms : Node → Value → Prop
  | intro {node : Node} {value : Value} (meets : Meets node.keywords value)
      (items : ∀ values child, value = .arr values → node.items = some child →
        ∀ item ∈ values, Conforms child item)
      (required : ∀ fields, value = .obj fields →
        ∀ key ∈ node.keywords.required.getD [], (Json.field fields key).isSome)
      (known : ∀ fields, value = .obj fields → ∀ key item, (key, item) ∈ fields →
        ruleOf node key ≠ .unknown)
      (fields : ∀ fields, value = .obj fields → ∀ key item, (key, item) ∈ fields →
        ∀ child, ruleOf node key = .node child → Conforms child item) :
      Conforms node value

theorem failIf_none {when : Bool} {path reason : Text} : failIf when path reason = none ↔ when = false := by
  cases when <;> simp [failIf]

theorem bind_none {α : Type} {o : Option α} {f : α → Option Failure} :
    o.bind f = none ↔ ∀ a, o = some a → f a = none := by
  cases o <;> simp

theorem boundFailure_none (k : Keywords) (path : Text) (value : Value) :
    boundFailure k path value = none ↔
      (∀ n b, value = .num n → k.minimum = some b → atMost b n = true) ∧
      (∀ n b, value = .num n → k.maximum = some b → atMost n b = true) ∧
      (∀ s b, value = .str s → k.minLength = some b → b ≤ s.length) ∧
      (∀ s b, value = .str s → k.maxLength = some b → s.length ≤ b) := by
  cases value with
  | num n =>
    simp only [boundFailure, Option.or_eq_none_iff, bind_none, failIf_none, Bool.not_eq_false']
    constructor
    · rintro ⟨least, most⟩
      refine ⟨?_, ?_, nofun, nofun⟩
      · rintro _ b ⟨⟩
        exact least b
      · rintro _ b ⟨⟩
        exact most b
    · rintro ⟨least, most, -, -⟩
      exact ⟨fun b => least n b rfl, fun b => most n b rfl⟩
  | str s =>
    simp only [boundFailure, Option.or_eq_none_iff, bind_none, failIf_none, decide_eq_false_iff_not, not_lt]
    constructor
    · rintro ⟨long, short⟩
      refine ⟨nofun, nofun, ?_, ?_⟩
      · rintro _ b ⟨⟩
        exact long b
      · rintro _ b ⟨⟩
        exact short b
    · rintro ⟨-, -, long, short⟩
      exact ⟨fun b => long s b rfl, fun b => short s b rfl⟩
  | null | bool | arr | obj => simp [boundFailure]

theorem ownFailure_none (k : Keywords) (path : Text) (value : Value) :
    ownFailure k path value = none ↔ Meets k value := by
  rw [ownFailure, Option.or_eq_none_iff, Option.or_eq_none_iff, boundFailure_none, bind_none, bind_none]
  simp only [failIf_none, Bool.not_eq_false', any_eq_true]
  constructor
  · rintro ⟨typed, listed, least, most, long, short⟩
    exact ⟨typed, listed, least, most, long, short⟩
  · rintro ⟨typed, listed, least, most, long, short⟩
    exact ⟨typed, listed, least, most, long, short⟩

theorem missingFailure_none (k : Keywords) (path : Text) (fields : Record) :
    missingFailure k path fields = none ↔
      ∀ key ∈ k.required.getD [], (Json.field fields key).isSome := by
  simp [missingFailure, Option.isSome_iff_ne_none]

theorem firstFailure_none (results : List (Text × Option Failure)) :
    firstFailure results = none ↔ ∀ r ∈ results, r.2 = none := by
  rw [firstFailure, findSome?_eq_none_iff]
  exact forall_congr' fun r => imp_congr_left (ownOrder_perm results).mem_iff

theorem conforms_scalar {node : Node} {value : Value} (noArray : ∀ values, value ≠ .arr values)
    (noObject : ∀ fields, value ≠ .obj fields) : Conforms node value ↔ Meets node.keywords value := by
  constructor
  · rintro ⟨meets⟩
    exact meets
  · intro meets
    exact ⟨meets, fun values _ is => absurd is (noArray values), fun fields is => absurd is (noObject fields),
      fun fields is => absurd is (noObject fields), fun fields is => absurd is (noObject fields)⟩

/-- What one field of an object is held to. -/
def Allowed (node : Node) (key : Text) (item : Value) : Prop :=
  ruleOf node key ≠ .unknown ∧ ∀ child, ruleOf node key = .node child → Conforms child item

mutual

theorem validateNode_none (node : Node) (path : Text) :
    (value : Value) → (validateNode node path value = none ↔ Conforms node value)
  | .arr values => by
    rw [validateNode, Option.or_eq_none_iff, ownFailure_none]
    constructor
    · rintro ⟨meets, items⟩
      refine ⟨meets, ?_, nofun, nofun, nofun⟩
      rintro _ child ⟨⟩ is
      rw [is] at items
      exact (validateItems_none child path 0 values).mp items
    · rintro ⟨meets, items, -, -, -⟩
      refine ⟨meets, ?_⟩
      split
      · next child is => exact (validateItems_none child path 0 values).mpr (items values child rfl is)
      · rfl
  | .obj fields => by
    rw [validateNode, Option.or_eq_none_iff, Option.or_eq_none_iff, ownFailure_none, missingFailure_none,
      firstFailure_none, validateFields_none node path fields]
    constructor
    · rintro ⟨meets, required, allowed⟩
      refine ⟨meets, nofun, ?_, ?_, ?_⟩
      · rintro _ ⟨⟩
        exact required
      · rintro _ ⟨⟩ key item mem
        exact (allowed key item mem).1
      · rintro _ ⟨⟩ key item mem
        exact (allowed key item mem).2
    · rintro ⟨meets, -, required, known, inner⟩
      exact ⟨meets, required fields rfl,
        fun key item mem => ⟨known fields rfl key item mem, inner fields rfl key item mem⟩⟩
  | .null => by rw [validateNode, ownFailure_none, conforms_scalar (by simp) (by simp)]
  | .bool b => by rw [validateNode, ownFailure_none, conforms_scalar (by simp) (by simp)]
  | .num n => by rw [validateNode, ownFailure_none, conforms_scalar (by simp) (by simp)]
  | .str s => by rw [validateNode, ownFailure_none, conforms_scalar (by simp) (by simp)]

theorem validateItems_none (items : Node) (path : Text) (index : Nat) :
    (values : List Value) →
      (validateItems items path index values = none ↔ ∀ item ∈ values, Conforms items item)
  | [] => by simp [validateItems]
  | value :: rest => by
    rw [validateItems, Option.or_eq_none_iff, validateNode_none items _ value,
      validateItems_none items path (index + 1) rest, forall_mem_cons]

theorem validateFields_none (node : Node) (path : Text) :
    (fields : List (Text × Value)) →
      ((∀ r ∈ validateFields node path fields, r.2 = none) ↔
        ∀ key item, (key, item) ∈ fields → Allowed node key item)
  | [] => by simp [validateFields]
  | (key, value) :: rest => by
    rw [validateFields, forall_mem_cons, validateFields_none node path rest]
    have head : (match ruleOf node key with
        | .node child => validateNode child (keyPath path key) value
        | .unknown => some ⟨keyPath path key, js "unknown property"⟩
        | .free => none) = none ↔ Allowed node key value := by
      cases rule : ruleOf node key with
      | node child => simp [Allowed, rule, validateNode_none child (keyPath path key) value]
      | unknown => simp [Allowed, rule]
      | free => simp [Allowed, rule]
    constructor
    · rintro ⟨first, others⟩ name item mem
      rcases mem_cons.mp mem with same | old
      · cases same
        exact head.mp first
      · exact others name item old
    · intro all
      exact ⟨head.mpr (all key value mem_cons_self),
        fun name item mem => all name item (mem_cons_of_mem _ mem)⟩

end

end Ultrathink.Service.Validate
