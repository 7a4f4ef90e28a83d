import Ultrathink.Library.Pool
import Ultrathink.Library.Runs
import Ultrathink.Source.Track.Read

/-!
# Creating tracker rows

`createTracking` of `track/create.ts` as a machine. A step is a stretch of code between
two awaits, or the settling of one tool call: with any answer or any error, or, once the
budget is exhausted, with the signal's own rejection. The calls of one pool settle in
any order. Every call that is made is kept, with the rows that it submits. Progress
events, the log and the clock are left out.
-/

namespace Ultrathink.Source.Track

open Library JsText Think.Graph

/-- The place of a row's reference; a step's is named by its `stepKey`. -/
inductive RowKey where
  | linearNode (nodeId : Text)
  | linearStep (key : Text)
  | notionTask
  | notionNode (nodeId : Text)
  | notionStep (key : Text)
deriving DecidableEq

def LinearIssuePlan.row (issue : LinearIssuePlan) : RowKey := .linearNode issue.nodeId

def LinearSubIssuePlan.row (sub : LinearSubIssuePlan) : RowKey :=
  .linearStep (stepKey sub.nodeId sub.step)

def IssueRow.row (row : IssueRow) : RowKey := .notionNode row.nodeId

def SubIssueRow.row (row : SubIssueRow) : RowKey := .notionStep (stepKey row.nodeId row.step)

structure ToolCall (ν : Type) where
  name : Text
  args : Json.Record ν

structure Sent (ν : Type) where
  rows : List RowKey
  call : ToolCall ν

structure Deps where
  linear : Bool
  notion : Bool
  linearTeam : Option Text
  notionDataSource : Option Text
  /-- Already rounded down; what is no number counts as 0. -/
  concurrency : ℤ

/-- A string that is set and not empty. -/
def configured (value : Option Text) : Bool := value.any (· ≠ [])

structure Input where
  plan : TrackPlan
  graph : Option ThoughtGraph
  existing : Option Refs
  deps : Deps

abbrev NodePool := Pool Text (Text × Text)
abbrev StepPool := Pool LinearSubIssuePlan LinearSubIssuePlan
abbrev BatchPool := Pool (List SubIssueRow) (List SubIssueRow)

/-- The Notion rows that were missing when `createNotion` began, and the columns of the
data source. -/
structure NotionWork where
  names : List Text
  nodeRows : List IssueRow
  stepRows : List SubIssueRow

inductive Pc where
  | start
  | adoptingLinear
  | adoptNotion
  | adoptingNotion
  | linearStart
  | levels (rest : List (List Text))
  | level (pool : NodePool) (rest : List (List Text))
  | stepsStart
  | steps (pool : StepPool)
  | notionStart
  | fetchingSchema (nodeRows : List IssueRow) (stepRows : List SubIssueRow)
  | creatingTask (work : NotionWork)
  | nodesStart (work : NotionWork)
  | creatingNodes (work : NotionWork)
  | batchesStart (work : NotionWork)
  | batches (work : NotionWork) (pool : BatchPool)
  | finish
  | done (status : TrackingStatus)

structure State (ν : Type) where
  refs : Refs
  aborted : Bool
  sent : List (Sent ν)
  pc : Pc

inductive Event (ν : Type) where
  /-- The code up to its next await, outside the pools. -/
  | go
  /-- A worker of the pool takes the next item, or finds none. -/
  | take
  | leave
  /-- The call at this place among those under way settles. -/
  | reply (i : Nat) (value : Json ν)
  | fails (i : Nat) (message : Text)
  | expires (i : Nat)
  /-- The budget runs out. -/
  | abort

inductive Outcome (ν : Type) where
  | reply (value : Json ν)
  | error (message : Text)

def budgetExhausted : Text := js "budget exhausted"

def footer (graphId nodeId : Text) (step : Option Nat) : Text :=
  js "ultrathink graph " ++ graphId ++ js " · node " ++ nodeId ++
    ((step.map fun n => js " · step " ++ ofNat n).getD [])

def trackingStatus (plan : TrackPlan) (refs : Refs) (linearConfigured notionConfigured : Bool) :
    TrackingStatus :=
  let linearDone := !linearConfigured ||
    (plan.linearIssues.all (fun issue => refs.hasLinearNode issue.nodeId) &&
      plan.linearSubIssues.all (fun sub => refs.hasLinearStep (stepKey sub.nodeId sub.step)))
  let notionDone := !notionConfigured ||
    (refs.hasTask && plan.issues.all (fun row => refs.hasNotionNode row.nodeId) &&
      plan.subIssues.all (fun row => refs.hasNotionStep (stepKey row.nodeId row.step)))
  if linearDone && notionDone then .complete
  else if 0 < refs.linearNodes.size + refs.linearSteps.size + refs.notionNodes.size +
      refs.notionSteps.size + (if refs.hasTask then 1 else 0) then .partly
  else .failed

section Statements
variable {ν : Type} (host : Host ν) (input : Input)

def State.fail (s : State ν) (message : Text) : State ν :=
  { s with refs := { s.refs with errors := s.refs.errors ++ [message] } }

def State.send (s : State ν) (rows : List RowKey) (name : Text) (args : Json.Record ν) : State ν :=
  { s with sent := s.sent ++ [⟨rows, ⟨name, args⟩⟩] }

def linearIds (plan : TrackPlan) : List Text := plan.linearIssues.map (·.nodeId)

/-- `byNode.get`: the last issue of that node. -/
def byNode (plan : TrackPlan) (nodeId : Text) : Option LinearIssuePlan :=
  plan.linearIssues.reverse.find? (·.nodeId = nodeId)

def nodeDeps (nodeId : Text) : List Text :=
  ((dependenciesIn (linearIds input.plan) input.graph).get? nodeId).getD []

def issueTitle (nodeId title : Text) : Text :=
  let label := js "[" ++ nodeId ++ js "]"
  if label.isPrefixOf title then title else label ++ js " " ++ title

def team : Json ν := .str (input.deps.linearTeam.getD [])

def blockedBy (refs : Refs) (deps : List Text) : List Text :=
  deps.filterMap fun dep => (refs.linearNodes.get? dep).map (·.identifier)

def nodeArgs (refs : Refs) (nodeId title : Text) (issue : LinearIssuePlan) : Json.Record ν :=
  let blocked := blockedBy refs (nodeDeps input nodeId)
  [(js "team", team input), (js "title", .str title),
    (js "description", .str (issue.description ++ js "\n\n" ++ footer input.plan.graphId nodeId none))] ++
    (if blocked = [] then [] else [(js "blockedBy", .arr (blocked.map .str))])

/-- A worker of a level with the node it took. -/
def nodeWork (s : State ν) (nodeId : Text) (pool : NodePool) : State ν × NodePool :=
  match byNode input.plan nodeId with
  | none => (s, pool.back)
  | some issue =>
    let title := issueTitle nodeId issue.title
    if (nodeDeps input nodeId).any fun dep => !s.refs.hasLinearNode dep then
      (s.fail (js "linear " ++ nodeId ++ js ": dependency missing"), pool.back)
    else
      (s.send [.linearNode nodeId] (js "save_issue") (nodeArgs input s.refs nodeId title issue),
        pool.wait (nodeId, title))

/-- `save` after its call: a reference, or the failure noted. -/
def saved (s : State ν) (label title : Text) : Outcome ν → State ν × Option IssueRef
  | .reply value =>
    match extractIssueRef host value title with
    | some ref => (s, some ref)
    | none => (s.fail (js "linear " ++ label ++ js ": no identifier in result"), none)
  | .error message => (s.fail (js "linear " ++ label ++ js ": " ++ shortError message), none)

def nodeSaved (s : State ν) (nodeId title : Text) (outcome : Outcome ν) : State ν :=
  match saved host s nodeId title outcome with
  | (s, some ref) =>
    { s with refs := { s.refs with linearNodes := s.refs.linearNodes.set nodeId ref } }
  | (s, none) => s

def linearStart (s : State ν) : State ν :=
  let plan := input.plan
  if !configured input.deps.linearTeam then { s with pc := .notionStart }
  else if plan.linearIssues.all (fun issue => s.refs.hasLinearNode issue.nodeId) &&
      plan.linearSubIssues.all (fun sub => s.refs.hasLinearStep (stepKey sub.nodeId sub.step)) then
    { s with pc := .notionStart }
  else if !input.deps.linear then { s.fail (js "linear: login required") with pc := .notionStart }
  else { s with pc := .levels (nodeLevels (linearIds plan) input.graph) }

def nextLevel (s : State ν) : List (List Text) → State ν
  | [] => { s with pc := .stepsStart }
  | level :: rest =>
    if s.aborted then { s with pc := .notionStart }
    else
      let todo := level.filter fun id => !s.refs.hasLinearNode id
      { s with pc := .level (.start input.deps.concurrency todo) rest }

/-- The sub-issues to create; one whose parent has no reference is noted. -/
def pickSteps (s : State ν) : List LinearSubIssuePlan → State ν × List LinearSubIssuePlan
  | [] => (s, [])
  | sub :: rest =>
    if s.refs.hasLinearStep (stepKey sub.nodeId sub.step) then pickSteps s rest
    else if s.refs.hasLinearNode sub.nodeId then
      let (s, subs) := pickSteps s rest
      (s, sub :: subs)
    else pickSteps (s.fail (js "linear " ++ stepKey sub.nodeId sub.step ++ js ": parent missing")) rest

def stepsStart (s : State ν) : State ν :=
  let (s, subs) := pickSteps s input.plan.linearSubIssues
  { s with pc := .steps (.start input.deps.concurrency subs) }

def stepWork (s : State ν) (sub : LinearSubIssuePlan) (pool : StepPool) : State ν × StepPool :=
  let parent := (s.refs.linearNodes.get? sub.nodeId).map (·.identifier)
  (s.send [sub.row] (js "save_issue")
    [(js "team", team input), (js "title", .str sub.title),
      (js "description", .str (sub.description ++ js "\n\n" ++
        footer input.plan.graphId sub.nodeId (some sub.step))),
      (js "parentId", .str (parent.getD []))],
    pool.wait sub)

def stepSaved (s : State ν) (sub : LinearSubIssuePlan) (outcome : Outcome ν) : State ν :=
  let key := stepKey sub.nodeId sub.step
  match saved host s key sub.title outcome with
  | (s, some ref) => { s with refs := { s.refs with linearSteps := s.refs.linearSteps.set key ref } }
  | (s, none) => s

def dataSource : Text := input.deps.notionDataSource.getD []

/-- Whether the schema read gave the names that every data source of this kind has. -/
def understood (names : List Text) : Bool :=
  [js "Item", js "Level", js "Graph ID"].all fun name => names.contains name

/-- An empty or absent value is not sent, nor is a name that an understood schema lacks. -/
def props (names : List Text) (values : List (Text × Option (Json ν))) : Json ν :=
  .obj (values.filterMap fun (name, value) =>
    match value with
    | none | some (.str []) => none
    | some value =>
      if understood names && !names.contains name then none else some (name, value))

def text (value : Text) : Option (Json ν) := some (.str value)

def optional (value : Option Text) : Option (Json ν) := value.map .str

def page (properties : Json ν) : Json ν := .obj [(js "properties", properties)]

def taskPage (names : List Text) : Json ν :=
  let task := input.plan.task
  page (props names [(js "Item", text task.item), (js "Level", text (js "Task")),
    (js "Description", text task.description), (js "Uplifted Prompt", text task.upliftedPrompt),
    (js "Agent", text task.agent), (js "Status", text task.status),
    (js "Linear State", text task.linearState), (js "Repo", optional task.repo),
    (js "Branch", optional task.branch), (js "Graph ID", text input.plan.graphId)])

/-- The columns that node and step pages share, the step's own between them. -/
def rowPage (names : List Text) (level item thought : Text) (step : Option (Json ν)) (parent : Text)
    (linear : Option IssueRef) : Json ν :=
  let task := input.plan.task
  page (props names ([(js "Item", text item), (js "Level", text level), (js "Agent", text task.agent),
    (js "Status", text task.status), (js "Linear State", text task.linearState),
    (js "Graph ID", text input.plan.graphId), (js "Thought", text thought)] ++
    (if step.isSome then [(js "Step", step)] else []) ++
    [(js "Parent Item", some (.str (host.stringify (.arr [.str parent])))),
      (js "Linear URL", optional (linear.map (·.url))),
      (js "Issue ID", optional (linear.map (·.identifier)))]))

def nodePage (names : List Text) (refs : Refs) (row : IssueRow) : Json ν :=
  rowPage host input names (js "Issue") row.item row.thought none (refs.taskUrl.getD [])
    (refs.linearNodes.get? row.nodeId)

def stepPage (names : List Text) (refs : Refs) (row : SubIssueRow) : Json ν :=
  rowPage host input names (js "Sub-Issue") row.item row.thought (some (.num (host.ofNat row.step)))
    ((refs.notionNodes.get? row.nodeId).getD []) (refs.linearSteps.get? (stepKey row.nodeId row.step))

def createPages (pages : List (Json ν)) : Json.Record ν :=
  [(js "parent", .obj [(js "data_source_id", .str (dataSource input))]),
    (js "pages", .arr pages), (js "allow_async", .bool false)]

/-- `create` after its call: as many urls as pages, or the failure noted. -/
def created (s : State ν) (label : Text) (pages : Nat) : Outcome ν → State ν × Option (List Text)
  | .reply value =>
    let urls := notionUrls host value
    if urls.length = pages then (s, some urls)
    else (s.fail (js "notion " ++ label ++ js ": expected " ++ ofNat pages ++ js " page urls, got " ++
      ofNat urls.length), none)
  | .error message => (s.fail (js "notion " ++ label ++ js ": " ++ shortError message), none)

def setAll (m : OrderedMap Text Text) (entries : List (Text × Text)) : OrderedMap Text Text :=
  entries.foldl (fun m e => m.set e.1 e.2) m

def notionStart (s : State ν) : State ν :=
  let nodeRows := input.plan.issues.filter fun row => !s.refs.hasNotionNode row.nodeId
  let stepRows := input.plan.subIssues.filter fun row =>
    !s.refs.hasNotionStep (stepKey row.nodeId row.step)
  if !configured input.deps.notionDataSource then { s with pc := .finish }
  else if s.refs.hasTask && nodeRows.isEmpty && stepRows.isEmpty then { s with pc := .finish }
  else if !input.deps.notion then { s.fail (js "notion: login required") with pc := .finish }
  else if s.aborted then { s with pc := .finish }
  else { s.send [] (js "notion-fetch") [(js "id", .str (js "collection://" ++ dataSource input))] with
    pc := .fetchingSchema nodeRows stepRows }

def schemaFetched (s : State ν) (nodeRows : List IssueRow) (stepRows : List SubIssueRow) :
    Outcome ν → State ν
  | .reply value =>
    let work : NotionWork := ⟨host.collectSchemaNames value, nodeRows, stepRows⟩
    if s.refs.hasTask then { s with pc := .nodesStart work }
    else { s.send [.notionTask] (js "notion-create-pages")
        (createPages input [taskPage input work.names]) with pc := .creatingTask work }
  | .error message => { s.fail (js "notion schema: " ++ shortError message) with pc := .finish }

def taskCreated (s : State ν) (work : NotionWork) (outcome : Outcome ν) : State ν :=
  match created host s (js "task") 1 outcome with
  | (s, some urls) => { s with refs := { s.refs with taskUrl := urls.head? }, pc := .nodesStart work }
  | (s, none) => { s with pc := .finish }

def nodesStart (s : State ν) (work : NotionWork) : State ν :=
  if !work.nodeRows.isEmpty && !s.aborted then
    { s.send (work.nodeRows.map (·.row)) (js "notion-create-pages")
        (createPages input (work.nodeRows.map (nodePage host input work.names s.refs))) with
      pc := .creatingNodes work }
  else { s with pc := .batchesStart work }

def nodesCreated (s : State ν) (work : NotionWork) (outcome : Outcome ν) : State ν :=
  match created host s (js "nodes") work.nodeRows.length outcome with
  | (s, some urls) =>
    let entries := (work.nodeRows.map (·.nodeId)).zip urls
    { s with
      refs := { s.refs with notionNodes := setAll s.refs.notionNodes entries }
      pc := .batchesStart work }
  | (s, none) => { s with pc := .batchesStart work }

/-- The rows whose parent has a reference; the others are noted. -/
def pickRows (s : State ν) : List SubIssueRow → State ν × List SubIssueRow
  | [] => (s, [])
  | row :: rest =>
    if s.refs.hasNotionNode row.nodeId then
      let (s, rows) := pickRows s rest
      (s, row :: rows)
    else pickRows (s.fail (js "notion " ++ stepKey row.nodeId row.step ++ js ": parent missing")) rest

def notionBatch : Nat := 25

/-- Slices of `notionBatch` rows; each takes a row, so their number bounds the slices. -/
def slices : Nat → List SubIssueRow → List (List SubIssueRow)
  | fuel + 1, row :: rows =>
    (row :: rows).take notionBatch :: slices fuel ((row :: rows).drop notionBatch)
  | _, _ => []

def batchesStart (s : State ν) (work : NotionWork) : State ν :=
  let (s, ready) := pickRows s work.stepRows
  { s with pc := .batches work (.start input.deps.concurrency (slices ready.length ready)) }

def batchWork (s : State ν) (work : NotionWork) (batch : List SubIssueRow) (pool : BatchPool) :
    State ν × BatchPool :=
  (s.send (batch.map (·.row)) (js "notion-create-pages")
      (createPages input (batch.map (stepPage host input work.names s.refs))),
    pool.wait batch)

def batchLabel (batch : List SubIssueRow) : Text :=
  js "steps " ++ ((batch.head?.map fun row => stepKey row.nodeId row.step).getD []) ++ js "+"

def batchCreated (s : State ν) (batch : List SubIssueRow) (outcome : Outcome ν) : State ν :=
  match created host s (batchLabel batch) batch.length outcome with
  | (s, some urls) =>
    let entries := (batch.map fun row => stepKey row.nodeId row.step).zip urls
    { s with refs := { s.refs with notionSteps := setAll s.refs.notionSteps entries } }
  | (s, none) => s

def listArgs : Json.Record ν :=
  [(js "query", .str (js "ultrathink graph " ++ input.plan.graphId)),
    (js "limit", .num (host.ofNat 250))]

def queryArgs : Json.Record ν :=
  let collection := js "collection://" ++ dataSource input
  [(js "data", .obj [(js "data_source_urls", .arr [.str collection]),
    (js "query", .str (js "SELECT url, \"Level\", \"Item\", \"Step\" FROM \"" ++ collection ++
      js "\" WHERE \"Graph ID\" = ?")),
    (js "params", .arr [.str input.plan.graphId])])]

def emptyRefs : Refs := ⟨.empty, .empty, none, .empty, .empty, []⟩

/-- A copy of the existing references, without their errors. -/
def startRefs (existing : Option Refs) : Refs := { existing.getD emptyRefs with errors := [] }

def adoptStart (s : State ν) : State ν :=
  if input.existing.isNone then { s with pc := .linearStart }
  else if input.deps.linear && configured input.deps.linearTeam then
    { s.send [] (js "list_issues") (listArgs host input) with pc := .adoptingLinear }
  else { s with pc := .adoptNotion }

def adoptNotionStart (s : State ν) : State ν :=
  if input.deps.notion && configured input.deps.notionDataSource then
    { s.send [] (js "notion-query-data-sources") (queryArgs input) with pc := .adoptingNotion }
  else { s with pc := .linearStart }

def finish (s : State ν) : State ν :=
  let s := if s.aborted then s.fail (js "tracking: budget exhausted") else s
  { s with pc := .done (trackingStatus input.plan s.refs (configured input.deps.linearTeam)
      (configured input.deps.notionDataSource)) }

def go (s : State ν) : Option (State ν) :=
  match s.pc with
  | .start => some (adoptStart host input s)
  | .adoptNotion => some (adoptNotionStart input s)
  | .linearStart => some (linearStart input s)
  | .levels rest => some (nextLevel input s rest)
  | .level pool rest => if pool.isDone then some { s with pc := .levels rest } else none
  | .stepsStart => some (stepsStart input s)
  | .steps pool => if pool.isDone then some { s with pc := .notionStart } else none
  | .notionStart => some (notionStart input s)
  | .nodesStart work => some (nodesStart host input s work)
  | .batchesStart work => some (batchesStart input s work)
  | .batches _ pool => if pool.isDone then some { s with pc := .finish } else none
  | .finish => some (finish input s)
  | .adoptingLinear | .adoptingNotion | .fetchingSchema .. | .creatingTask _ | .creatingNodes _
  | .done _ => none

/-- A worker finds an item, the signal not aborted. -/
def takeItem (s : State ν) : Option (State ν) :=
  if s.aborted then none
  else
    match s.pc with
    | .level pool rest => pool.take.map fun (nodeId, pool) =>
      let (s, pool) := nodeWork input s nodeId pool
      { s with pc := .level pool rest }
    | .steps pool => pool.take.map fun (sub, pool) =>
      let (s, pool) := stepWork input s sub pool
      { s with pc := .steps pool }
    | .batches work pool => pool.take.map fun (batch, pool) =>
      let (s, pool) := batchWork host input s work batch pool
      { s with pc := .batches work pool }
    | _ => none

/-- A worker whose loop ends: nothing queued, or the signal aborted. -/
def leavePool (s : State ν) : Option (State ν) :=
  match s.pc with
  | .level pool rest =>
    if pool.queue.isEmpty || s.aborted then
      pool.leave.map fun pool => { s with pc := .level pool rest }
    else none
  | .steps pool =>
    if pool.queue.isEmpty || s.aborted then pool.leave.map fun pool => { s with pc := .steps pool }
    else none
  | .batches work pool =>
    if pool.queue.isEmpty || s.aborted then
      pool.leave.map fun pool => { s with pc := .batches work pool }
    else none
  | _ => none

def adopted (s : State ν) (adopt : Refs → Json ν → Refs) : Outcome ν → State ν
  | .reply value => { s with refs := adopt s.refs value }
  | .error _ => s

/-- The call at place `i` settles; outside the pools one call is under way. -/
def settle (s : State ν) (i : Nat) (outcome : Outcome ν) : Option (State ν) :=
  match s.pc with
  | .adoptingLinear =>
    some { adopted s (adoptLinear host input.plan.graphId) outcome with pc := .adoptNotion }
  | .adoptingNotion => some { adopted s (adoptNotion host) outcome with pc := .linearStart }
  | .level pool rest => (pool.land i).map fun ((nodeId, title), pool) =>
    { nodeSaved host s nodeId title outcome with pc := .level pool.back rest }
  | .steps pool => (pool.land i).map fun (sub, pool) =>
    { stepSaved host s sub outcome with pc := .steps pool.back }
  | .fetchingSchema nodeRows stepRows => some (schemaFetched host input s nodeRows stepRows outcome)
  | .creatingTask work => some (taskCreated host s work outcome)
  | .creatingNodes work => some (nodesCreated host s work outcome)
  | .batches work pool => (pool.land i).map fun (batch, pool) =>
    { batchCreated host s batch outcome with pc := .batches work pool.back }
  | _ => none

def isDone (s : State ν) : Bool :=
  match s.pc with
  | .done _ => true
  | _ => false

def step (s : State ν) : Event ν → Option (State ν)
  | .go => go host input s
  | .take => takeItem host input s
  | .leave => leavePool s
  | .reply i value => if s.aborted then none else settle host input s i (.reply value)
  | .fails i message => if s.aborted then none else settle host input s i (.error message)
  | .expires i => if s.aborted then settle host input s i (.error budgetExhausted) else none
  | .abort => if s.aborted || isDone s then none else some { s with aborted := true }

end Statements

def startState {ν : Type} (input : Input) : State ν := ⟨startRefs input.existing, false, [], .start⟩

/-- The runs of one `createTracking` call. -/
def system {ν : Type} (host : Host ν) (input : Input) : Runs.System (State ν) (Event ν) where
  start s := s = startState input
  step s event s' := step host input s event = some s'

end Ultrathink.Source.Track
