import Ultrathink.Source.Think.Normalize
import Ultrathink.Source.Track.Steps

/-!
# Graph views

`buildGraphView` of `engine/graph-view.ts`, on any record. What the caps cut is reported as the source
reports it, in the flag `truncated`.
-/

namespace Ultrathink.Source.Engine.GraphViews

open Library JsText Think.Graph Track.Steps

variable {ν : Type}

def ID_MAX : Nat := 40
def TITLE_MAX : Nat := 120
def QUESTION_MAX : Nat := 1000
def STEP_MAX : Nat := 600
def STEPS_MAX : Nat := 12
def CONCLUSION_MAX : Nat := 2000
def GOAL_MAX : Nat := 300
def NODES_MAX : Nat := 24
def NODES_READ_MAX : Nat := 256
def THINKING_READ_MAX : Nat := 100000

structure GraphViewNode where
  id : Text
  title : Text
  kind : Text
  question : Text
  dependsOn : List Text
  wave : Nat
  steps : List Text
  conclusion : Text
  fallback : Bool

structure Counts where
  nodes : Nat
  edges : Nat
  waves : Nat
  steps : Nat

structure GraphView where
  version : Nat
  goal : Text
  nodes : List GraphViewNode
  waves : List WorkflowWave
  counts : Counts
  fills : List Text
  truncated : Bool

/-- `\p{Cc}` -/
def isControl (u : UInt16) : Bool := u ≤ 0x1F || (0x7F ≤ u && u ≤ 0x9F)

/-- `[\u202A-\u202E\u2066-\u2069]` -/
def isDirection (u : UInt16) : Bool := (0x202A ≤ u && u ≤ 0x202E) || (0x2066 ≤ u && u ≤ 0x2069)

def str : Option (Json ν) → Text
  | some (.str s) => s
  | _ => []

def cut (text : Text) (max : Nat) : Text :=
  if text.length ≤ max then text
  else if (text[max - 1]?).any isHighSurrogate && 0 < max then text.take (max - 1)
  else text.take max

def trimEnd (text : Text) : Text := text.rdropWhile isSpace

def clip (text : Text) (max : Nat) : Text :=
  if text.length ≤ max then text else trimEnd (cut text (max - 1)) ++ js "…"

/-- `replace(/\s+/g, " ")`; a run of white space that goes on is dropped. -/
def collapse (goesOn : Bool) : Text → Text
  | [] => []
  | u :: rest =>
    if isSpace u then (if goesOn then collapse true rest else 0x20 :: collapse true rest)
    else u :: collapse false rest

def flatText (t : Text) : Text :=
  trim (collapse false (t.map fun u => if isControl u || isDirection u then 0x20 else u))

def flat (value : Option (Json ν)) : Text := flatText (str value)

def tooLong (text : Text) (max : Nat) : Bool := max < text.length

/-- The text of `bound`; that it was cut is `tooLong`. -/
def bound (text : Text) (max : Nat) : Text := if text.length ≤ max then text else clip text max

/-- `replace(/\r\n?/g, "\n")`; a line feed behind a return is dropped. -/
def lineFeeds (afterReturn : Bool) : Text → Text
  | [] => []
  | u :: rest =>
    if u = 0x0D then 0x0A :: lineFeeds true rest
    else if afterReturn && u = 0x0A then lineFeeds false rest
    else u :: lineFeeds false rest

/-- `replace(/\n{3,}/g, "\n\n")`, behind `run` line feeds. -/
def capLines (run : Nat) : Text → Text
  | [] => []
  | u :: rest =>
    if u = 0x0A then (if run < 2 then u :: capLines (run + 1) rest else capLines (run + 1) rest)
    else u :: capLines 0 rest

def block (value : Option (Json ν)) : Text :=
  trim (capLines 0 ((lineFeeds false (str value)).filter fun u =>
    !((isControl u && u ≠ 0x0A && u ≠ 0x09) || isDirection u)))

def isNodeKind (value : Text) : Bool := allKinds.any fun kind => kind.text = value

def nodeSteps (thinking conclusion question : Text) : List Text :=
  let steps := splitRationaleSteps thinking
  if 0 < steps.length then steps else [if conclusion = [] then question else conclusion]

def rawOf (item : Json ν) : Text := trim (str (property item "id"))

/-- The ids given so far: `ids` has the empty id where there is none. -/
structure Naming where
  taken : List Text
  ids : List Text
  byRaw : OrderedMap Text Text
  truncated : Bool

/-- The first node with an id owns it. -/
def claimId (s : Naming) (entry : Text × Nat) : Naming :=
  let raw := entry.1
  if raw = [] || s.byRaw.contains raw then s
  else
    let id := bound (flatText raw) ID_MAX
    let s := { s with truncated := s.truncated || tooLong (flatText raw) ID_MAX }
    if id = [] || id ∈ s.taken then s
    else { s with taken := s.taken ++ [id], ids := s.ids.set entry.2 id, byRaw := s.byRaw.set raw id }

/-- The `n`th try for the node at `i`. -/
def candidate (i n : Nat) : Text :=
  if n = 0 then positionalId (i + 1) else positionalId (i + 1) ++ (js "-" ++ ofNat (n + 1))

def freeFrom (taken : List Text) (i : Nat) : Nat → Nat → Text
  | 0, n => candidate i n
  | turns + 1, n => if candidate i n ∈ taken then freeFrom taken i turns (n + 1) else candidate i n

/-- One of more tries than ids are taken is free (`generatedId_free`). -/
def generatedId (taken : List Text) (i : Nat) : Text := freeFrom taken i taken.length 0

def generateId (s : Naming) (entry : Text × Nat) : Naming :=
  if s.ids[entry.2]? ≠ some [] then s
  else
    let raw := entry.1
    let id := generatedId s.taken entry.2
    { s with
      taken := s.taken ++ [id]
      ids := s.ids.set entry.2 id
      byRaw := if raw ≠ [] && !s.byRaw.contains raw then s.byRaw.set raw id else s.byRaw }

def nameNodes (raws : List Text) : Naming :=
  raws.zipIdx.foldl generateId
    (raws.zipIdx.foldl claimId ⟨[], raws.map fun _ => [], .empty, false⟩)

def entriesOf : Option (Json ν) → List (Json ν)
  | some (.arr items) => items
  | _ => []

def addDep (byRaw : OrderedMap Text Text) (own : Text) (deps : List Text) (dep : Json ν) : List Text :=
  match byRaw.get? (trim (str (some dep))) with
  | some id => if id ≠ own && id ∉ deps then deps ++ [id] else deps
  | none => deps

def skeletonNode (byRaw : OrderedMap Text Text) (item : Json ν) (own : Text) : ThoughtNode :=
  ⟨own, [], .understand, [], (entriesOf (property item "dependsOn")).foldl (addDep byRaw own) [], none, none⟩

def skeleton (byRaw : OrderedMap Text Text) (read : List (Json ν)) (ids : List Text) : List ThoughtNode :=
  List.zipWith (skeletonNode byRaw) read ids

/-- `new Map(pairs)` -/
def mapOf {β : Type} (pairs : List (Text × β)) : OrderedMap Text β :=
  pairs.foldl (fun m p => m.set p.1 p.2) .empty

/-- The dependencies that stand before the node. -/
def cutBackEdges (kept : List ThoughtNode) : List ThoughtNode :=
  let position := mapOf (kept.zipIdx.map fun entry => (entry.1.id, entry.2))
  kept.zipIdx.map fun entry =>
    { entry.1 with dependsOn := entry.1.dependsOn.filter fun dep => (position.get? dep).any (· < entry.2) }

def isText (value : Option (Json ν)) (t : Text) : Bool :=
  match value with
  | some (.str s) => s = t
  | _ => false

def isFallbackGraph (goal : Option (Json ν)) (items : List (Json ν)) : Bool :=
  isText goal fallbackGraph.goal && items.length = fallbackGraph.nodes.length &&
    (List.zip fallbackGraph.nodes items).all fun entry =>
      isText (property entry.2 "id") entry.1.id && isText (property entry.2 "kind") entry.1.kind.text &&
        isText (property entry.2 "question") entry.1.question

def fillPrefix : Text := js "fill:"

def degradedIds (degraded : Option (Json ν)) : List Text :=
  (entriesOf degraded).filterMap fun entry =>
    match entry with
    | .str s => if fillPrefix <+: s then some (trim (s.drop fillPrefix.length)) else none
    | _ => none

/-- What a node of the view is made of: its record, and the maps that the source looks it up in. -/
structure Sources (ν : Type) where
  sourceById : OrderedMap Text (Json ν)
  dependsById : OrderedMap Text (List Text)
  waveOf : OrderedMap Text Nat
  byRaw : OrderedMap Text Text
  degraded : List Text

/-- The node, and whether some field of it was cut. -/
def viewNode (m : Sources ν) (id : Text) (source : Json ν) : GraphViewNode × Bool :=
  let raw := rawOf source
  let written := str (property source "thinking")
  let thinking := if tooLong written THINKING_READ_MAX then cut written THINKING_READ_MAX else written
  let conclusion := block (property source "conclusion")
  let question := flat (property source "question")
  let steps := nodeSteps thinking conclusion question
  let title := flat (property source "title")
  let lines := (steps.take STEPS_MAX).map flatText
  ({ id
     title := bound title TITLE_MAX
     kind := if isNodeKind (str (property source "kind")) then str (property source "kind")
       else NodeKind.understand.text
     question := bound question QUESTION_MAX
     dependsOn := (m.dependsById.get? id).getD []
     wave := (m.waveOf.get? id).getD 1
     steps := (lines.map fun line => bound line STEP_MAX).filter fun step => 0 < step.length
     conclusion := bound conclusion CONCLUSION_MAX
     fallback := raw ∈ m.degraded && m.byRaw.get? raw = some id },
    tooLong written THINKING_READ_MAX || STEPS_MAX < steps.length || tooLong title TITLE_MAX ||
      tooLong question QUESTION_MAX || (lines.any fun line => tooLong line STEP_MAX) ||
      tooLong conclusion CONCLUSION_MAX)

/-- `graph.nodes.filter(...)`; nothing when there is no array of nodes. -/
def itemsOf (graph : Option (Json ν)) : Option (List (Json ν)) :=
  match graph.bind fun graph => property graph "nodes" with
  | some (.arr nodes) => some (nodes.filter isObject)
  | _ => none

/-- The graph that is drawn: the names, the kept nodes in order without back edges, and the waves. -/
structure Plan where
  naming : Naming
  acyclic : List ThoughtNode
  waves : List WorkflowWave
  truncated : Bool

def planOf (read : List (Json ν)) : Plan :=
  let naming := nameNodes (read.map rawOf)
  let ordered := topoSort (skeleton naming.byRaw read naming.ids)
  let acyclic := cutBackEdges (ordered.take NODES_MAX)
  { naming, acyclic, waves := workflowWaves ⟨[], acyclic⟩
    truncated := naming.truncated || NODES_MAX < ordered.length }

def sourcesOf (record : Json ν) (read : List (Json ν)) (plan : Plan) : Sources ν where
  sourceById := mapOf (plan.naming.ids.zip read)
  dependsById := mapOf (plan.acyclic.map fun node => (node.id, node.dependsOn))
  waveOf := mapOf (plan.waves.flatMap fun wave => wave.ids.map fun id => (id, wave.wave))
  byRaw := plan.naming.byRaw
  degraded := degradedIds (property record "degraded")

/-- `built`, with the flag of each node. -/
def builtNodes (sources : Sources ν) (ids : List Text) : OrderedMap Text (GraphViewNode × Bool) :=
  mapOf (ids.filterMap fun id => (sources.sourceById.get? id).map fun source =>
    (id, viewNode sources id source))

/-- The nodes, wave by wave. -/
def viewNodes (built : OrderedMap Text (GraphViewNode × Bool)) (waves : List WorkflowWave) :
    List GraphViewNode :=
  (waves.flatMap (·.ids)).filterMap fun id => (built.get? id).map Prod.fst

def readOf (items : List (Json ν)) : List (Json ν) := items.take NODES_READ_MAX

def viewOf (record : Json ν) (goal : Option (Json ν)) (items : List (Json ν)) : GraphView :=
  let read := readOf items
  let plan := planOf read
  let built := builtNodes (sourcesOf record read plan) (plan.acyclic.map (·.id))
  let nodes := viewNodes built plan.waves
  { version := 1
    goal := bound (flat goal) GOAL_MAX
    nodes
    waves := plan.waves
    counts := ⟨nodes.length, (nodes.map fun node => node.dependsOn.length).sum, plan.waves.length,
      (nodes.map fun node => node.steps.length).sum⟩
    fills := (nodes.filter (·.fallback)).map (·.id)
    truncated := decide (read.length < items.length) || plan.truncated || built.values.any Prod.snd ||
      tooLong (flat goal) GOAL_MAX }

def buildGraphView (record : Json ν) : Option GraphView :=
  let graph := property record "graph"
  let goal := graph.bind fun graph => property graph "goal"
  match itemsOf graph with
  | none => none
  | some items =>
    if items.length = 0 then none
    else if isFallbackGraph goal items then none
    else some (viewOf record goal items)

end Ultrathink.Source.Engine.GraphViews
