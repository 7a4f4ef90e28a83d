import Ultrathink.Source.Think.Graph

/-!
# Track plans and their levels

`track/types.ts` and the pure parts of `track/create.ts`: the rows of a plan, the
references of a run, and `nodeLevels`. `hitl` and the rows' own copies of the graph
id are left out, `createTracking` reads neither.
-/

namespace Ultrathink.Source.Track

open List Library JsText Think.Graph

structure TaskRow where
  item : Text
  description : Text
  upliftedPrompt : Text
  agent : Text
  status : Text
  linearState : Text
  repo : Option Text
  branch : Option Text

structure IssueRow where
  nodeId : Text
  item : Text
  thought : Text

structure SubIssueRow where
  nodeId : Text
  item : Text
  step : Nat
  thought : Text

structure LinearIssuePlan where
  nodeId : Text
  title : Text
  description : Text

structure LinearSubIssuePlan where
  nodeId : Text
  step : Nat
  title : Text
  description : Text

structure TrackPlan where
  graphId : Text
  task : TaskRow
  issues : List IssueRow
  subIssues : List SubIssueRow
  linearIssues : List LinearIssuePlan
  linearSubIssues : List LinearSubIssuePlan

structure IssueRef where
  id : Text
  identifier : Text
  url : Text
  title : Text
deriving DecidableEq

inductive TrackingStatus where
  | complete | partly | failed
deriving DecidableEq

/-- `TrackingRefs`, the status apart: it is computed when the run ends. -/
structure Refs where
  linearNodes : OrderedMap Text IssueRef
  linearSteps : OrderedMap Text IssueRef
  taskUrl : Option Text
  notionNodes : OrderedMap Text Text
  notionSteps : OrderedMap Text Text
  errors : List Text

def stepKey (nodeId : Text) (step : Nat) : Text := nodeId ++ js "." ++ ofNat step

/-! ## What a reference map holds

An empty url is falsy, and so no reference. -/

def Refs.hasLinearNode (refs : Refs) (nodeId : Text) : Bool := (refs.linearNodes.get? nodeId).isSome

def Refs.hasLinearStep (refs : Refs) (key : Text) : Bool := (refs.linearSteps.get? key).isSome

def isUrl (url : Option Text) : Bool := url.any (· ≠ [])

def Refs.hasTask (refs : Refs) : Bool := isUrl refs.taskUrl

def Refs.hasNotionNode (refs : Refs) (nodeId : Text) : Bool := isUrl (refs.notionNodes.get? nodeId)

def Refs.hasNotionStep (refs : Refs) (key : Text) : Bool := isUrl (refs.notionSteps.get? key)

/-- Each node's dependencies among `ids`, itself apart; a later node of the same id wins. -/
def dependenciesIn (ids : List Text) (graph : Option ThoughtGraph) : OrderedMap Text (List Text) :=
  ((graph.map (·.nodes)).getD []).foldl
    (fun m node => m.set node.id (node.dependsOn.filter fun dep => ids.contains dep && dep ≠ node.id))
    .empty

abbrev Levels := OrderedMap Text Nat

def depthAll (depth : Levels → Text → Nat × Levels) : List Text → Levels → List Nat × Levels
  | [], level => ([], level)
  | id :: ids, level =>
    let (d, level) := depth level id
    let (ds, level) := depthAll depth ids level
    (d :: ds, level)

/-- The recursive `depth` of `nodeLevels` over its memo; a node under way counts 0.
`depth_enough`: the fuel that `nodeLevels` gives is never used up. -/
def depth (deps : OrderedMap Text (List Text)) : Nat → List Text → Levels → Text → Nat × Levels
  | 0, _, level, _ => (0, level)
  | fuel + 1, visiting, level, id =>
    match level.get? id with
    | some known => (known, level)
    | none =>
      if id ∈ visiting then (0, level)
      else
        let (depths, level) :=
          depthAll (depth deps fuel (id :: visiting)) ((deps.get? id).getD []) level
        let value := (depths.map (· + 1)).foldl max 0
        (value, level.set id value)

/-- `(levels[d] ??= []).push(id)`, a hole being an empty level. -/
def pushAt (id : Text) : Nat → List (List Text) → List (List Text)
  | 0, [] => [[id]]
  | 0, ids :: rest => (ids ++ [id]) :: rest
  | d + 1, [] => [] :: pushAt id d []
  | d + 1, ids :: rest => ids :: pushAt id d rest

def placeAll (depth : Levels → Text → Nat × Levels) :
    List Text → Levels → List (List Text) → List (List Text)
  | [], _, levels => levels
  | id :: ids, level, levels =>
    let (d, level) := depth level id
    placeAll depth ids level (pushAt id d levels)

/-- Dependency levels of the plan's nodes, one level without a graph. -/
def nodeLevels (nodeIds : List Text) (graph : Option ThoughtGraph) : List (List Text) :=
  let deps := dependenciesIn nodeIds graph
  (placeAll (depth deps (deps.size + 1) []) nodeIds .empty []).filter (· ≠ [])

theorem flatten_pushAt (id : Text) (d : Nat) (levels : List (List Text)) :
    (pushAt id d levels).flatten.Perm (id :: levels.flatten) := by
  induction d, levels using pushAt.induct with
  | case1 => exact .refl _
  | case2 ids rest =>
    simp only [pushAt, flatten_cons, append_assoc]
    exact perm_middle
  | case3 d ih =>
    simp only [pushAt, flatten_cons, nil_append]
    exact ih
  | case4 d ids rest ih =>
    simp only [pushAt, flatten_cons]
    exact (ih.append_left ids).trans perm_middle

theorem flatten_placeAll (depth : Levels → Text → Nat × Levels) (ids : List Text) (level : Levels)
    (levels : List (List Text)) :
    (placeAll depth ids level levels).flatten.Perm (ids ++ levels.flatten) := by
  induction ids generalizing level levels with
  | nil => exact .refl _
  | cons id ids ih =>
    refine (ih _ _).trans ?_
    refine ((flatten_pushAt id _ levels).append_left ids).trans ?_
    exact perm_middle

theorem flatten_filter_nonempty (levels : List (List Text)) :
    (levels.filter (· ≠ [])).flatten = levels.flatten := by
  induction levels with
  | nil => rfl
  | cons ids rest ih =>
    rw [filter_cons]
    split
    · rw [flatten_cons, flatten_cons, ih]
    · rename_i empty
      have none_ : ids = [] := by simpa using empty
      rw [flatten_cons, ih, none_, nil_append]

theorem nodeLevels_perm (nodeIds : List Text) (graph : Option ThoughtGraph) :
    (nodeLevels nodeIds graph).flatten.Perm nodeIds := by
  unfold nodeLevels
  simp only [flatten_filter_nonempty]
  refine (flatten_placeAll _ nodeIds _ _).trans ?_
  simp

/-- The nodes with dependencies that are not under way. -/
def unvisited (deps : OrderedMap Text (List Text)) (visiting : List Text) : Nat :=
  (deps.entries.filter fun e => e.1 ∉ visiting).length

theorem unvisited_cons_lt {deps : OrderedMap Text (List Text)} {visiting : List Text} {id : Text}
    {children : List Text} (known : deps.get? id = some children) (fresh : id ∉ visiting) :
    unvisited deps (id :: visiting) < unvisited deps visiting := by
  unfold unvisited
  have mem := (OrderedMap.get?_eq_some_iff deps id children).mp known
  have fewer : (deps.entries.filter fun e => e.1 ∉ id :: visiting).Sublist
      (deps.entries.filter fun e => e.1 ∉ visiting) := by
    refine monotone_filter_right _ fun e kept => ?_
    simp only [mem_cons, not_or, decide_eq_true_eq] at kept ⊢
    exact kept.2
  refine Nat.lt_of_le_of_ne fewer.length_le fun same => ?_
  have all := fewer.eq_of_length same
  have inside : (id, children) ∈ deps.entries.filter fun e => e.1 ∉ id :: visiting :=
    all ▸ mem_filter.mpr ⟨mem, by simpa using fresh⟩
  simpa using (mem_filter.mp inside).2

theorem depthAll_congr {f g : Levels → Text → Nat × Levels} (same : ∀ level id, f level id = g level id)
    (ids : List Text) (level : Levels) : depthAll f ids level = depthAll g ids level := by
  have : f = g := funext fun level => funext fun id => same level id
  rw [this]

theorem depth_enough (deps : OrderedMap Text (List Text)) (fuel : Nat) (visiting : List Text)
    (enough : unvisited deps visiting < fuel) (level : Levels) (id : Text) :
    depth deps (fuel + 1) visiting level id = depth deps fuel visiting level id := by
  induction fuel generalizing visiting level id with
  | zero => omega
  | succ fuel ih =>
    rw [depth, depth]
    split
    · rfl
    · split
      · rfl
      · rename_i fresh
        cases known : deps.get? id with
        | none => rfl
        | some children =>
          have fewer := unvisited_cons_lt known fresh
          simp only [Option.getD_some]
          have deeper : ∀ level child, depth deps (fuel + 1) (id :: visiting) level child =
              depth deps fuel (id :: visiting) level child :=
            fun level child => ih (id :: visiting) (by omega) level child
          rw [depthAll_congr deeper]

theorem depth_ends (deps : OrderedMap Text (List Text)) (more : Nat) :
    depth deps (deps.size + 1 + more) [] = depth deps (deps.size + 1) [] := by
  induction more with
  | zero => rfl
  | succ more ih =>
    rw [← ih]
    funext level id
    have few : unvisited deps [] ≤ deps.size := length_filter_le _ _
    exact depth_enough deps (deps.size + 1 + more) [] (by omega) level id

end Ultrathink.Source.Track
