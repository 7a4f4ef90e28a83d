import Ultrathink.Library.Pool
import Ultrathink.Library.Runs
import Ultrathink.Source.Think.Normalize

/-!
# The think pipeline (`think/pipeline.ts`)

`buildGraph`, the two ways in which `runThink` fills the nodes, and what it returns. A
completer is a function of the two texts, none for an error that is no abort. Node objects
are known by their ids, which `normalizeGraph` keeps apart. Progress callbacks are left out.
-/

namespace Ultrathink.Source.Think.Pipeline

open Library JsText Regex Think.Graph Uplift.Xml

variable {ν : Type}

/-- ``new RegExp(`<${tag}(?:\\s[^>]*)?>([\\s\\S]*?)</${tag}>`, "i")`` -/
def tagRe (tag : Text) : Expr :=
  .seq (literal true (js "<" ++ tag))
    (.seq (.alt (.seq (.one isSpace) (.many true (.one fun u => u ≠ 0x3E))) .empty)
      (.seq (.one fun u => u = 0x3E)
        (.seq (.group 1 (.many false (.one anyUnit))) (literal true (js "</" ++ tag ++ js ">")))))

def extractTag (xml tag : Text) : Text :=
  trim (((exec (tagRe tag) xml).bind fun m => m.group 1).getD [])

structure NodeFill where
  thinking : Text
  conclusion : Text

def parseNodeFill (xml : Text) : NodeFill :=
  let body := orText (extractTag xml (js "node")) xml
  let thinking := orText (extractTag body (js "rationale"))
    (orText (extractTag body (js "thinking")) (extractTag body (js "chain_of_thought")))
  let conclusion := orText (extractTag body (js "conclusion")) (extractTag body (js "answer"))
  if thinking ≠ [] ∨ conclusion ≠ [] then
    ⟨orText thinking conclusion, orText conclusion thinking⟩
  else ⟨trim xml, trim xml⟩

/-- The node after its call; an error leaves its question. -/
def written (node : ThoughtNode) (reply : Option Text) : ThoughtNode :=
  match reply with
  | some raw =>
    let fill := parseNodeFill raw
    { node with thinking := some fill.thinking, conclusion := some fill.conclusion }
  | none => { node with thinking := some node.question, conclusion := some node.question }

/-- `fallback` of a call with this reply. -/
def degraded (reply : Option Text) : Bool :=
  match reply with
  | some raw =>
    let fill := parseNodeFill raw
    fill.thinking = [] && fill.conclusion = []
  | none => true

/-- `new Map(nodes.map((node) => [node.id, node])).get(id)`: the later node of an id. -/
def lookup (nodes : List ThoughtNode) (id : Text) : Option ThoughtNode :=
  nodes.reverse.find? fun node => node.id = id

def predecessorText (pred : ThoughtNode) : Text :=
  js "<predecessor id=\"" ++ pred.id ++ js "\" title=\"" ++ pred.title ++ js "\">\n" ++
    orText (trim (pred.conclusion.getD [])) (js "(not filled)") ++ js "\n</predecessor>"

def predecessorBlock (nodes : List ThoughtNode) (node : ThoughtNode) : Text :=
  let preds := node.dependsOn.filterMap (lookup nodes)
  if preds = [] then js "(no predecessors)" else join (js "\n\n") (preds.map predecessorText)

def sketchLine (node : ThoughtNode) : Text :=
  let deps := if node.dependsOn = [] then [] else js "  deps=" ++ join (js ",") node.dependsOn
  node.id ++ js "  " ++ node.title ++ js "  " ++ node.kind.text ++ deps

def graphSketch (nodes : List ThoughtNode) : Text := join (js "\n") (nodes.map sketchLine)

structure Spec where
  original : Text
  xml : Text

def graphUserPayload (uplift : Spec) : Text := uplift.original ++ js "\n\n" ++ uplift.xml

def cotUserPayload (uplift : Spec) (goal : Text) (nodes : List ThoughtNode) (node : ThoughtNode) :
    Text :=
  join (js "\n") [
    js "<original>" ++ uplift.original ++ js "</original>", [], uplift.xml, [],
    js "<graph_goal>" ++ goal ++ js "</graph_goal>", js "<graph>", graphSketch nodes,
    js "</graph>", [], js "<predecessors>", predecessorBlock nodes node, js "</predecessors>", [],
    js "<current_node id=\"" ++ node.id ++ js "\" kind=\"" ++ node.kind.text ++ js "\" title=\"" ++
      node.title ++ js "\">", node.question, js "</current_node>"]

/-- What the pipeline asks of its surroundings: the model, its two system prompts and
`extractJsonObject`. -/
structure Model (ν : Type) where
  complete : Text → Text → Option Text
  graphSystem : Text
  cotSystem : Text
  extractJsonObject : Text → Json ν

def isFallbackGraph (graph : ThoughtGraph) : Bool :=
  graph.goal = fallbackGraph.goal && graph.nodes.length = fallbackGraph.nodes.length &&
    (fallbackGraph.nodes.zip graph.nodes).all fun (node, item) =>
      item.id = node.id && item.kind = node.kind && item.question = node.question

def buildGraph (model : Model ν) (uplift : Spec) (minNodes maxNodes : Nat) : ThoughtGraph × Bool :=
  match model.complete model.graphSystem (graphUserPayload uplift) with
  | some raw =>
    let graph := normalizeGraph (model.extractJsonObject raw) uplift.original minNodes maxNodes
    (graph, isFallbackGraph graph)
  | none => (normalizeGraph (.null : Json ν) uplift.original minNodes maxNodes, true)

/-- The nodes while they are filled, the ids of degraded fills and the prompts sent. -/
structure Filling where
  nodes : List ThoughtNode
  fills : List Text
  sent : List (Text × Text)

/-- What every call of a run shares. -/
structure Calls where
  complete : Text → Option Text
  uplift : Spec
  goal : Text

/-- The call of `fillNode`, with what it will give. -/
def send (calls : Calls) (id : Text) (s : Filling) : Option Text × Filling :=
  match lookup s.nodes id with
  | none => (none, s)
  | some node =>
    let prompt := cotUserPayload calls.uplift calls.goal s.nodes node
    (calls.complete prompt, { s with sent := s.sent ++ [(id, prompt)] })

/-- `fillNode` after its call, and `push` of a degraded fill. -/
def write (id : Text) (reply : Option Text) (s : Filling) : Filling :=
  { s with
    nodes := s.nodes.map fun node => if node.id = id then written node reply else node
    fills := if degraded reply then s.fills ++ [id] else s.fills }

def fillNode (calls : Calls) (s : Filling) (id : Text) : Filling :=
  let (reply, s) := send calls id s
  write id reply s

/-- The loop for a concurrency of one. -/
def fillInOrder (calls : Calls) (nodes : List ThoughtNode) : Filling :=
  (nodes.map (·.id)).foldl (fillNode calls) ⟨nodes, [], []⟩

/-- `Math.max(1, Math.floor(opts.concurrency ?? 1))` -/
inductive Limit where
  | nan
  | most (count : Nat)
  | unbounded
  deriving DecidableEq

def limitOf : Option JsNumber.Number → Limit
  | none => .most 1
  | some .nan => .nan
  | some (.infinity false) => .unbounded
  | some (.infinity true) => .most 1
  | some (.finite x) => .most (if x.negative then 1 else max 1 (x.units / JsNumber.one))

/-- `Array.from({ length: Math.min(limit, group.length) }, worker)`; NaN gives no worker. -/
def workers (limit : Limit) (group : List Text) : Pool Text (Text × Option Text) :=
  match limit with
  | .nan => ⟨group, [], 0⟩
  | .most count => ⟨group, [], min count group.length⟩
  | .unbounded => ⟨group, [], group.length⟩

/-- `fillLevel` on one level, and the levels after it. -/
structure Work where
  filling : Filling
  pool : Pool Text (Text × Option Text)
  levels : List (List Text)

inductive Move where
  | take
  | land (place : Nat)
  | leave
  | next

def move (calls : Calls) (limit : Limit) (w : Work) : Move → Option Work
  | .take =>
    match w.pool.take with
    | none => none
    | some (id, pool) =>
      let (reply, filling) := send calls id w.filling
      some { w with filling, pool := pool.wait (id, reply) }
  | .land place =>
    match w.pool.land place with
    | none => none
    | some ((id, reply), pool) =>
      some { w with filling := write id reply w.filling, pool := pool.back }
  | .leave =>
    if w.pool.queue = [] then w.pool.leave.map fun pool => { w with pool } else none
  | .next =>
    if w.pool.isDone then
      match w.levels with
      | [] => none
      | level :: levels => some { w with pool := workers limit level, levels }
    else none

def Work.start (nodes : List ThoughtNode) : Work where
  filling := ⟨nodes, [], []⟩
  pool := ⟨[], [], 0⟩
  levels := (dependencyLevels nodes).map fun group => group.map (·.id)

def Work.finished (w : Work) : Prop := w.pool.isDone ∧ w.levels = []

def workSystem (calls : Calls) (limit : Limit) (nodes : List ThoughtNode) :
    Runs.System Work Move :=
  Runs.System.ofStep (fun w => w = Work.start nodes) (move calls limit)

/-- What the filling of `runThink` may come to, in whatever order its calls finish. -/
def Fills (calls : Calls) (limit : Limit) (nodes : List ThoughtNode) (filling : Filling) : Prop :=
  if limit = .most 1 then filling = fillInOrder calls nodes
  else ∃ w, (workSystem calls limit nodes).Reachable w ∧ w.finished ∧ w.filling = filling

structure ThinkResult where
  xml : Text
  graph : ThoughtGraph
  degradedGraph : Bool
  degradedFills : List Text

/-- The graph's nodes, sorted, and the calls that fill them. -/
def sortedNodes (model : Model ν) (uplift : Spec) (minNodes maxNodes : Nat) : List ThoughtNode :=
  topoSort (buildGraph model uplift minNodes maxNodes).1.nodes

def callsOf (model : Model ν) (uplift : Spec) (minNodes maxNodes : Nat) : Calls where
  complete := model.complete model.cotSystem
  uplift
  goal := (buildGraph model uplift minNodes maxNodes).1.goal

def resultOf (model : Model ν) (uplift : Spec) (minNodes maxNodes : Nat) (filling : Filling) :
    ThinkResult :=
  let built := buildGraph model uplift minNodes maxNodes
  let graph : ThoughtGraph := ⟨built.1.goal, filling.nodes⟩
  ⟨injectGraphXml uplift.xml graph, graph, built.2, filling.fills⟩

end Ultrathink.Source.Think.Pipeline
