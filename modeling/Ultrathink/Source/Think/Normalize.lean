import Ultrathink.Library.Json
import Ultrathink.Library.JsNumber
import Ultrathink.Source.Think.Graph

/-!
# Reading a graph from a model's reply

`normalizeGraph` of `think/graph.ts`, on any JSON value. The first pass,
`readNodes`, takes the entries of `nodes` in order, gives each an id and keeps
its dependencies as written; the second rewrites the dependencies to the ids of
the nodes that were kept.
-/

namespace Ultrathink.Source.Think.Graph

open List Library JsText

variable {ν : Type}

/-- A property of an object or an array; arrays have none of the names read here. -/
def property (value : Json ν) (name : String) : Option (Json ν) :=
  match value with
  | .obj fields => Json.field fields (js name)
  | _ => none

/-- `value && typeof value === "object"` -/
def isObject : Json ν → Bool
  | .obj _ => true
  | .arr _ => true
  | _ => false

def asString : Option (Json ν) → Text
  | some (.str s) => trim s
  | _ => []

/-- `a ?? b` on JSON values -/
def orElse (a b : Option (Json ν)) : Option (Json ν) :=
  match a with
  | none => b
  | some .null => b
  | some value => some value

def allKinds : List NodeKind :=
  [.understand, .decompose, .generate, .compare, .critique, .aggregate, .refine, .synthesize]

/-- Lower case where it can make a kind: no other unit folds to a letter of one. -/
def kindOf (raw : Text) : Option NodeKind := allKinds.find? fun kind => kind.text = raw.map foldCase

def isSeparator (u : UInt16) : Bool := u = 0x2C || isSpace u

/-- `split(/[,\s]+/)` differs from splitting at every separator in empty pieces only,
which are dropped. -/
def parseDependsOn : Option (Json ν) → List Text
  | some (.arr items) => (items.map fun item => asString (some item)).filter (· ≠ [])
  | some (.str s) => ((s.splitOnP isSeparator).map trim).filter (· ≠ [])
  | _ => []

/-- `Object.getOwnPropertyNames(Object.prototype)` -/
def prototypeNames : List Text :=
  ["constructor", "__defineGetter__", "__defineSetter__", "hasOwnProperty", "__lookupGetter__",
    "__lookupSetter__", "isPrototypeOf", "propertyIsEnumerable", "toString", "valueOf", "__proto__",
    "toLocaleString"].map js

/-- `NODE_ID.test(raw) && !Object.hasOwn(Object.prototype, raw)` -/
def isNodeId (raw : Text) : Bool :=
  1 ≤ raw.length && raw.length ≤ 64 && raw.all (fun u => isWord u || u = 0x2D) &&
    raw ∉ prototypeNames

def rawId (entry : Json ν) : Text := asString (property entry "id")

def reservedIds (sourceNodes : List (Json ν)) : List Text :=
  (sourceNodes.map rawId).filter isNodeId

def positionalId (k : Nat) : Text := js "n" ++ ofNat k

/-- The turns of the `while` loop are those of `freshId_free`. -/
def freshFrom (taken : List Text) : Nat → Nat → Text
  | 0, k => positionalId k
  | turns + 1, k => if positionalId k ∈ taken then freshFrom taken turns (k + 1) else positionalId k

def freshId (taken : List Text) (index : Nat) : Text := freshFrom taken taken.length (index + 1)

theorem positionalId_injective {a b : Nat} (same : positionalId a = positionalId b) : a = b := by
  have digits := append_cancel_left same
  rw [JsNumber.ofNat_eq_digits, JsNumber.ofNat_eq_digits] at digits
  have values := congrArg JsNumber.valueOf digits
  rwa [JsNumber.valueOf_digits, JsNumber.valueOf_digits] at values

theorem freshFrom_taken {taken : List Text} {turns k : Nat} (used : freshFrom taken turns k ∈ taken) :
    ∀ j ≤ turns, positionalId (k + j) ∈ taken := by
  induction turns generalizing k with
  | zero =>
    intro j le
    obtain rfl : j = 0 := by omega
    exact used
  | succ turns ih =>
    unfold freshFrom at used
    split at used
    · rename_i first
      intro j le
      cases j with
      | zero => exact first
      | succ j =>
        have later := ih used j (by omega)
        rwa [show k + 1 + j = k + (j + 1) by omega] at later
    · rename_i free
      exact absurd used free

/-- The loop has found a free id by its last turn: it cannot have met more ids than are taken. -/
theorem freshId_free (taken : List Text) (index : Nat) : freshId taken index ∉ taken := by
  intro used
  have met := freshFrom_taken used
  have distinct : ((List.range (taken.length + 1)).map fun j => positionalId (index + 1 + j)).Nodup := by
    refine List.Nodup.map (fun a b same => ?_) nodup_range
    have := positionalId_injective same
    omega
  have subset : ((List.range (taken.length + 1)).map fun j => positionalId (index + 1 + j)) ⊆ taken := by
    intro id mem
    obtain ⟨j, small, rfl⟩ := mem_map.mp mem
    exact met j (by have := mem_range.mp small; omega)
  have le := (distinct.subperm subset).length_le
  rw [length_map, length_range] at le
  omega

/-- The nodes so far, in order, and the ids given in place of the model's. -/
structure Reading where
  nodes : List ThoughtNode
  seen : List Text
  renamed : OrderedMap Text Text

/-- `a || b` on strings -/
def orText (a b : Text) : Text := if a = [] then b else a

def nodeOf (entry : Json ν) (id : Text) (index : Nat) : ThoughtNode where
  id
  title := orText (asString (property entry "title")) id
  kind := (kindOf (asString (property entry "kind"))).getD
    (if index = 0 then .understand else .generate)
  question := orText (asString (property entry "question"))
    (orText (asString (property entry "prompt")) (js "Reason about " ++ id))
  dependsOn := parseDependsOn (orElse (property entry "depends_on") (property entry "dependsOn"))
  thinking := none
  conclusion := none

def idOf (reserved : List Text) (r : Reading) (entry : Json ν) (index : Nat) : Text :=
  if isNodeId (rawId entry) then rawId entry else freshId (reserved ++ r.seen) index

/-- Takes an entry whose id was not seen. -/
def takeEntry (r : Reading) (entry : Json ν) (id : Text) (index : Nat) : Reading where
  nodes := r.nodes ++ [nodeOf entry id index]
  seen := r.seen ++ [id]
  renamed :=
    if rawId entry ≠ [] ∧ rawId entry ≠ id ∧ !r.renamed.contains (rawId entry) then
      r.renamed.set (rawId entry) id
    else r.renamed

def readNodes (reserved : List Text) (maxNodes : Nat) : List (Json ν × Nat) → Reading → Reading
  | [], r => r
  | (entry, index) :: rest, r =>
    if !isObject entry then readNodes reserved maxNodes rest r
    else
      let id := idOf reserved r entry index
      if id ∈ r.seen then readNodes reserved maxNodes rest r
      else
        let r := takeEntry r entry id index
        if maxNodes ≤ r.nodes.length then r else readNodes reserved maxNodes rest r

def sourceNodes (raw : Json ν) : List (Json ν) :=
  match property raw "nodes" with
  | some (.arr items) => items
  | _ => []

def readReply (raw : Json ν) (maxNodes : Nat) : Reading :=
  readNodes (reservedIds (sourceNodes raw)) maxNodes (sourceNodes raw).zipIdx ⟨[], [], .empty⟩

def fallbackNode (id title question : String) (kind : NodeKind) (dependsOn : List String) :
    ThoughtNode :=
  ⟨js id, js title, kind, js question, dependsOn.map js, none, none⟩

def fallbackGraph : ThoughtGraph where
  goal := js "Understand the request, decompose it, weigh approaches, and produce an execution plan"
  nodes := [
    fallbackNode "n1" "Understand" "What is the user actually asking for, including implicit goals and quality bar?"
      .understand [],
    fallbackNode "n2" "Decompose" "What subproblems must be solved, in what order, and what does each depend on?"
      .decompose ["n1"],
    fallbackNode "n3" "Approaches" "What are 2-3 viable approaches and the tradeoffs of each for this specific task?"
      .generate ["n2"],
    fallbackNode "n4" "Risks" "What could go wrong: missing constraints, edge cases, regressions, or over-scoping?"
      .critique ["n3"],
    fallbackNode "n5" "Plan" "What is the concrete execution plan for the coding agent, in order?"
      .synthesize ["n4"]]

/-- `renamed.get(dep) ?? dep` -/
def Reading.resolve (r : Reading) (dep : Text) : Text := (r.renamed.get? dep).getD dep

def Reading.ids (r : Reading) : List Text := r.nodes.map (·.id)

def resolveNode (r : Reading) (node : ThoughtNode) : ThoughtNode :=
  { node with
    dependsOn := (node.dependsOn.map r.resolve).filter fun dep => dep ∈ r.ids && dep ≠ node.id }

/-- `if (last) last.kind = "synthesize"` -/
def closeWithSynthesis : List ThoughtNode → List ThoughtNode
  | [] => []
  | [last] => [{ last with kind := .synthesize }]
  | node :: rest => node :: closeWithSynthesis rest

def normalizeGraph (raw : Json ν) (fallbackGoal : Text) (minNodes maxNodes : Nat) : ThoughtGraph :=
  let r := readReply raw maxNodes
  if r.nodes.length < minNodes then fallbackGraph
  else
    { goal := orText (asString (property raw "goal")) (orText fallbackGoal fallbackGraph.goal)
      nodes := closeWithSynthesis (r.nodes.map (resolveNode r)) }

end Ultrathink.Source.Think.Graph
