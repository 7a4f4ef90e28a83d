import Ultrathink.Library.OrderedMap
import Ultrathink.Source.Uplift.Xml
import Mathlib.Data.List.Perm.Subperm

/-!
# Thought graphs: order, waves and XML

`think/graph.ts`: `topoSort`, `dependencyLevels`, `workflowWaves`, `graphToXml`
and `injectGraphXml`. A node of the array is kept with its position, which
stands for the identity of the object (`ordered.includes`); two nodes may share
an id, and then the maps keep the later one as `Map` does. `normalizeGraph` is in
`Normalize.lean`; `parseNodeFill` and `graphSketch` are not modelled.
-/

namespace Ultrathink.Source.Think.Graph

open List Library JsText Regex Uplift.Xml

inductive NodeKind where
  | understand | decompose | generate | compare | critique | aggregate | refine | synthesize
deriving DecidableEq

def NodeKind.text : NodeKind → Text
  | .understand => js "understand"
  | .decompose => js "decompose"
  | .generate => js "generate"
  | .compare => js "compare"
  | .critique => js "critique"
  | .aggregate => js "aggregate"
  | .refine => js "refine"
  | .synthesize => js "synthesize"

structure ThoughtNode where
  id : Text
  title : Text
  kind : NodeKind
  question : Text
  dependsOn : List Text
  thinking : Option Text
  conclusion : Option Text
deriving DecidableEq

structure ThoughtGraph where
  goal : Text
  nodes : List ThoughtNode

/-- A node object: the node and its place in the array. -/
abbrev NodeRef := ThoughtNode × Nat

def nodesById (refs : List NodeRef) : OrderedMap Text NodeRef :=
  refs.foldl (fun m ref => m.set ref.1.id ref) .empty

structure Edges where
  incoming : OrderedMap Text Int
  children : OrderedMap Text (List Text)

def noEdges (nodes : List ThoughtNode) : Edges :=
  { incoming := nodes.foldl (fun m node => m.set node.id 0) .empty
    children := nodes.foldl (fun m node => m.set node.id []) .empty }

def addEdge (byId : OrderedMap Text NodeRef) (node : ThoughtNode) (e : Edges) (dep : Text) :
    Edges :=
  if byId.contains dep then
    { incoming := e.incoming.set node.id ((e.incoming.get? node.id).getD 0 + 1)
      children := e.children.modify dep (fun list => list ++ [node.id]) }
  else e

def countEdges (byId : OrderedMap Text NodeRef) (nodes : List ThoughtNode) : Edges :=
  nodes.foldl (fun e node => node.dependsOn.foldl (addEdge byId node) e) (noEdges nodes)

structure TopoState where
  queue : List Text
  incoming : OrderedMap Text Int
  ordered : List NodeRef

/-- One child of a finished node: its count goes down, at zero it is queued. -/
def relax (s : TopoState) (child : Text) : TopoState :=
  let next := (s.incoming.get? child).getD 1 - 1
  { s with
    incoming := s.incoming.set child next
    queue := if next = 0 then s.queue ++ [child] else s.queue }

/-- One turn of the `while` loop; `none` when the loop ends: the queue is empty,
or the id it yields is falsy. -/
def topoStep (byId : OrderedMap Text NodeRef) (children : OrderedMap Text (List Text))
    (s : TopoState) : Option TopoState :=
  match s.queue with
  | [] => none
  | id :: rest =>
    if id = [] then none
    else
      let ordered := match byId.get? id with
        | some ref => s.ordered ++ [ref]
        | none => s.ordered
      some (((children.get? id).getD []).foldl relax { s with queue := rest, ordered })

def topoLoop (byId : OrderedMap Text NodeRef) (children : OrderedMap Text (List Text)) :
    Nat → TopoState → TopoState
  | 0, s => s
  | turns + 1, s =>
    match topoStep byId children s with
    | none => s
    | some s' => topoLoop byId children turns s'

def topoStart (nodes : List ThoughtNode) (incoming : OrderedMap Text Int) : TopoState :=
  { queue := (nodes.filter fun node => (incoming.get? node.id).getD 0 = 0).map (·.id)
    incoming
    ordered := [] }

/-- The loop takes at most one turn a node (`topoLoop_done`). -/
def topoSort (nodes : List ThoughtNode) : List ThoughtNode :=
  let refs := nodes.zipIdx
  let byId := nodesById refs
  let edges := countEdges byId nodes
  let ordered := (topoLoop byId edges.children nodes.length (topoStart nodes edges.incoming)).ordered
  let rest := refs.filter fun ref => ref.2 ∉ ordered.map Prod.snd
  (ordered ++ rest).map Prod.fst

/-! ### The loop ends

Each turn takes one id off the queue and queues a child only when its count
falls from one to zero, so the queue and the positive counts together shrink.
-/

def pendingWork (s : TopoState) : Nat :=
  s.queue.length + s.incoming.entries.countP (fun e => 0 < e.2)

/-- Every child listed under an id has a count. -/
def ChildrenCounted (children : OrderedMap Text (List Text)) (incoming : OrderedMap Text Int) :
    Prop :=
  ∀ id list, children.get? id = some list → ∀ child ∈ list, (incoming.get? child).isSome

theorem relax_pendingWork (s : TopoState) (child : Text)
    (counted : (s.incoming.get? child).isSome) : pendingWork (relax s child) ≤ pendingWork s := by
  obtain ⟨count, present⟩ := Option.isSome_iff_exists.mp counted
  have moved := s.incoming.countP_set (fun n => decide (0 < n)) (count - 1) present
  simp only [relax, pendingWork, present, Option.getD_some]
  split
  · rename_i zero
    have one : count = 1 := by omega
    simp [one] at moved ⊢
    omega
  · rename_i nonzero
    by_cases positive : 0 < count
    · have still : 0 < count - 1 := by omega
      simp only [positive, still, decide_true, if_true] at moved
      omega
    · have still : ¬0 < count - 1 := by omega
      simp only [positive, still, decide_false, Bool.false_eq_true, if_false] at moved
      omega

theorem relax_counted (s : TopoState) (child key : Text) (counted : (s.incoming.get? key).isSome) :
    ((relax s child).incoming.get? key).isSome := by
  simp only [relax, OrderedMap.get?_set]
  split
  · rfl
  · exact counted

theorem relaxAll_pendingWork (list : List Text) (s : TopoState)
    (counted : ∀ child ∈ list, (s.incoming.get? child).isSome) :
    pendingWork (list.foldl relax s) ≤ pendingWork s ∧
      ∀ key, (s.incoming.get? key).isSome → ((list.foldl relax s).incoming.get? key).isSome := by
  induction list generalizing s with
  | nil => exact ⟨Nat.le_refl _, fun _ h => h⟩
  | cons child list ih =>
    have step := relax_pendingWork s child (counted child (by simp))
    obtain ⟨less, kept⟩ := ih (relax s child)
      (fun c hc => relax_counted s child c (counted c (mem_cons_of_mem _ hc)))
    exact ⟨less.trans step, fun key h => kept key (relax_counted s child key h)⟩

variable {byId : OrderedMap Text NodeRef} {children : OrderedMap Text (List Text)} {e : Edges}

theorem topoStep_pendingWork {s s' : TopoState} (counted : ChildrenCounted children s.incoming)
    (turn : topoStep byId children s = some s') :
    pendingWork s' < pendingWork s ∧ ChildrenCounted children s'.incoming := by
  unfold topoStep at turn
  split at turn
  · cases turn
  · rename_i id rest queue
    split at turn
    · cases turn
    · cases turn
      have listed : ∀ child ∈ (children.get? id).getD [], (s.incoming.get? child).isSome := by
        cases found : children.get? id with
        | none => simp
        | some list => exact counted id list found
      obtain ⟨less, kept⟩ := relaxAll_pendingWork ((children.get? id).getD [])
        { s with queue := rest, ordered := match byId.get? id with
            | some ref => s.ordered ++ [ref]
            | none => s.ordered } listed
      refine ⟨lt_of_le_of_lt less ?_, fun key list found child hc => kept child ?_⟩
      · simp only [pendingWork, queue, length_cons]
        omega
      · exact counted key list found child hc

theorem topoLoop_ends (turns : Nat) (s : TopoState) (counted : ChildrenCounted children s.incoming)
    (enough : pendingWork s ≤ turns) :
    topoStep byId children (topoLoop byId children turns s) = none := by
  induction turns generalizing s with
  | zero =>
    have empty : s.queue = [] := by
      simp only [pendingWork] at enough
      exact eq_nil_of_length_eq_zero (by omega)
    simp [topoLoop, topoStep, empty]
  | succ turns ih =>
    cases turn : topoStep byId children s with
    | none => simp only [topoLoop, turn]
    | some s' =>
      obtain ⟨less, counted'⟩ := topoStep_pendingWork counted turn
      simp only [topoLoop, turn]
      exact ih s' counted' (by omega)

/-- The counts and child lists name ids of the nodes only. -/
structure EdgesOver (ids : List Text) (e : Edges) : Prop where
  incoming : ∀ key ∈ e.incoming.entries.map Prod.fst, key ∈ ids
  counted : ∀ key ∈ ids, (e.incoming.get? key).isSome
  children : ∀ key list, e.children.get? key = some list → ∀ child ∈ list, child ∈ ids

theorem noEdges_over (nodes : List ThoughtNode) : EdgesOver (nodes.map (·.id)) (noEdges nodes) := by
  have sweep : ∀ (rest : List ThoughtNode) (counts : OrderedMap Text Int)
      (lists : OrderedMap Text (List Text)),
      let counts' := rest.foldl (fun m node => m.set node.id 0) counts
      let lists' := rest.foldl (fun m node => m.set node.id []) lists
      (∀ key ∈ counts'.entries.map Prod.fst,
        key ∈ counts.entries.map Prod.fst ∨ key ∈ rest.map (·.id)) ∧
      (∀ key, key ∈ rest.map (·.id) ∨ (counts.get? key).isSome → (counts'.get? key).isSome) ∧
      (∀ key list, lists'.get? key = some list → list = [] ∨ lists.get? key = some list) := by
    intro rest
    induction rest with
    | nil =>
      intro counts lists
      exact ⟨fun _ h => Or.inl h, fun _ h => h.resolve_left (by simp), fun _ _ h => Or.inr h⟩
    | cons node rest ih =>
      intro counts lists
      obtain ⟨keys, present, empties⟩ := ih (counts.set node.id 0) (lists.set node.id [])
      refine ⟨?_, ?_, ?_⟩
      · intro key hk
        rcases keys key hk with old | new
        · rcases (OrderedMap.mem_keys_place _ _ _ _).mp old with rfl | old
          · exact Or.inr (by simp)
          · exact Or.inl old
        · exact Or.inr (by simp only [map_cons, mem_cons]; exact Or.inr new)
      · intro key hk
        refine present key ?_
        simp only [map_cons, mem_cons] at hk
        by_cases same : key = node.id
        · exact Or.inr (by simp [same])
        · rcases hk with (h | h) | h
          · exact absurd h same
          · exact Or.inl h
          · exact Or.inr (by simpa [same] using h)
      · intro key list h
        rcases empties key list h with h | h
        · exact Or.inl h
        · by_cases same : key = node.id
          · simp only [OrderedMap.get?_set, if_pos same, Option.some.injEq] at h
            exact Or.inl h.symm
          · simp only [OrderedMap.get?_set, if_neg same] at h
            exact Or.inr h
  obtain ⟨keys, present, empties⟩ := sweep nodes .empty .empty
  refine ⟨?_, fun key h => present key (Or.inl h), ?_⟩
  · intro key h
    rcases keys key h with old | new
    · simp [OrderedMap.empty] at old
    · exact new
  · intro key list h child hc
    rcases empties key list h with rfl | h
    · simp at hc
    · simp at h

theorem addEdge_over {ids : List Text} {node : ThoughtNode} (dep : Text) (mem : node.id ∈ ids)
    (bounded : EdgesOver ids e) :
    EdgesOver ids (addEdge byId node e dep) := by
  unfold addEdge
  split
  · refine ⟨?_, ?_, ?_⟩
    · intro key h
      rcases (OrderedMap.mem_keys_place _ _ _ _).mp h with rfl | old
      · exact mem
      · exact bounded.incoming key old
    · intro key h
      by_cases same : key = node.id
      · simp [same]
      · simpa [same] using bounded.counted key h
    · intro key list h child hc
      by_cases same : key = dep
      · simp only [OrderedMap.get?_modify, if_pos same, Option.map_eq_some_iff] at h
        obtain ⟨old, found, rfl⟩ := h
        rcases mem_append.mp hc with hc | hc
        · exact bounded.children dep old found child hc
        · rw [mem_singleton.mp hc]
          exact mem
      · simp only [OrderedMap.get?_modify, if_neg same] at h
        exact bounded.children key list h child hc
  · exact bounded

theorem countEdges_over (byId : OrderedMap Text NodeRef) (nodes : List ThoughtNode) :
    EdgesOver (nodes.map (·.id)) (countEdges byId nodes) := by
  have inner : ∀ (node : ThoughtNode) (deps : List Text) (e : Edges),
      node.id ∈ nodes.map (·.id) → EdgesOver (nodes.map (·.id)) e →
        EdgesOver (nodes.map (·.id)) (deps.foldl (addEdge byId node) e) := by
    intro node deps
    induction deps with
    | nil => exact fun e _ bounded => bounded
    | cons dep deps ih => exact fun e mem bounded => ih _ mem (addEdge_over dep mem bounded)
  have outer : ∀ (rest : List ThoughtNode) (e : Edges), (∀ node ∈ rest, node ∈ nodes) →
      EdgesOver (nodes.map (·.id)) e → EdgesOver (nodes.map (·.id))
        (rest.foldl (fun e node => node.dependsOn.foldl (addEdge byId node) e) e) := by
    intro rest
    induction rest with
    | nil => exact fun e _ bounded => bounded
    | cons node rest ih =>
      intro e mem bounded
      refine ih _ (fun n hn => mem n (mem_cons_of_mem _ hn)) ?_
      exact inner node _ e (mem_map.mpr ⟨node, mem node (by simp), rfl⟩) bounded
  exact outer nodes _ (fun _ h => h) (noEdges_over nodes)

theorem topoStart_pendingWork {nodes : List ThoughtNode}
    (bounded : EdgesOver (nodes.map (·.id)) e) :
    pendingWork (topoStart nodes e.incoming) ≤ nodes.length := by
  let queued : ThoughtNode → Bool := fun node => (e.incoming.get? node.id).getD 0 = 0
  have waiting : e.incoming.entries.countP (fun x => 0 < x.2) ≤
      (nodes.filter (fun node => !queued node)).length := by
    have ids : ((nodes.filter fun node => !queued node).map (·.id)).length =
        (nodes.filter fun node => !queued node).length := length_map ..
    rw [countP_eq_length_filter, ← length_map (f := Prod.fst), ← ids]
    refine (List.Nodup.subperm (e.incoming.nodup.sublist (filter_sublist.map _)) ?_).length_le
    intro key hk
    obtain ⟨entry, he, rfl⟩ := mem_map.mp hk
    obtain ⟨hmem, positive⟩ := mem_filter.mp he
    obtain ⟨node, hn, same⟩ := mem_map.mp (bounded.incoming _ (mem_map.mpr ⟨_, hmem, rfl⟩))
    refine mem_map.mpr ⟨node, mem_filter.mpr ⟨hn, ?_⟩, same⟩
    have found : e.incoming.get? node.id = some entry.2 :=
      (OrderedMap.get?_eq_some_iff _ _ _).mpr (by rw [same]; exact hmem)
    have positive : 0 < entry.2 := by simpa using positive
    simp only [queued, found, Option.getD_some, Bool.not_eq_true', decide_eq_false_iff_not]
    omega
  have parts : (nodes.filter queued).length + (nodes.filter (fun node => !queued node)).length =
      nodes.length := by
    rw [← countP_eq_length_filter, ← countP_eq_length_filter]
    exact (length_eq_countP_add_countP queued).symm ▸ by simp
  have same : nodes.filter (fun node => (e.incoming.get? node.id).getD 0 = 0) = nodes.filter queued :=
    rfl
  simp only [pendingWork, topoStart, length_map, same]
  omega

theorem topoLoop_done (nodes : List ThoughtNode) :
    let byId := nodesById nodes.zipIdx
    let edges := countEdges byId nodes
    topoStep byId edges.children
      (topoLoop byId edges.children nodes.length (topoStart nodes edges.incoming)) = none := by
  intro byId edges
  have bounded := countEdges_over byId nodes
  refine topoLoop_ends nodes.length _ ?_ (topoStart_pendingWork bounded)
  intro id list found child hc
  exact bounded.counted child (bounded.children id list found child hc)

structure LevelState where
  level : OrderedMap Text Nat
  levels : List (List ThoughtNode)

/-- `(levels[depth] ??= []).push(node)` -/
def pushAt (node : ThoughtNode) : Nat → List (List ThoughtNode) → List (List ThoughtNode)
  | 0, [] => [[node]]
  | 0, group :: rest => (group ++ [node]) :: rest
  | depth + 1, [] => [] :: pushAt node depth []
  | depth + 1, group :: rest => group :: pushAt node depth rest

def depthOf (level : OrderedMap Text Nat) (deps : List Text) : Nat :=
  deps.foldl (fun depth dep =>
    match level.get? dep with
    | some seen => max depth (seen + 1)
    | none => depth) 0

def placeNode (s : LevelState) (node : ThoughtNode) : LevelState :=
  let depth := depthOf s.level node.dependsOn
  { level := s.level.set node.id depth, levels := pushAt node depth s.levels }

def dependencyLevels (nodes : List ThoughtNode) : List (List ThoughtNode) :=
  (nodes.foldl placeNode ⟨.empty, []⟩).levels.filter fun group => 0 < group.length

structure WorkflowWave where
  wave : Nat
  parallel : Bool
  ids : List Text

def workflowWaves (graph : ThoughtGraph) : List WorkflowWave :=
  (dependencyLevels (topoSort graph.nodes)).zipIdx.map fun (group, index) =>
    { wave := index + 1, parallel := 1 < group.length, ids := group.map (·.id) }

def nodeXml (node : ThoughtNode) : Text :=
  let deps :=
    if 0 < node.dependsOn.length then
      js "\t\t<DEPENDS_ON>" ++ escapeXml (join (js ",") node.dependsOn) ++ js "</DEPENDS_ON>"
    else js "\t\t<DEPENDS_ON></DEPENDS_ON>"
  join (js "\n") [
    js "\t<NODE id=\"" ++ escapeXml node.id ++ js "\" kind=\"" ++ escapeXml node.kind.text ++
      js "\" title=\"" ++ escapeXml node.title ++ js "\">",
    js "\t\t<QUESTION>" ++ escapeXml node.question ++ js "</QUESTION>",
    deps,
    js "\t\t<RATIONALE>" ++ escapeXml (node.thinking.getD []) ++ js "</RATIONALE>",
    js "\t\t<CONCLUSION>" ++ escapeXml (node.conclusion.getD []) ++ js "</CONCLUSION>",
    js "\t</NODE>"]

def waveXml (wave : WorkflowWave) : Text :=
  js "\t\t<WAVE n=\"" ++ ofNat wave.wave ++ js "\" parallel=\"" ++ ofBool wave.parallel ++
    js "\">" ++ escapeXml (join (js ", ") wave.ids) ++ js "</WAVE>"

def workflowXml (graph : ThoughtGraph) : List Text :=
  [js "\t<WORKFLOW>"] ++ (workflowWaves graph).map waveXml ++ [js "\t</WORKFLOW>"]

def graphToXml (graph : ThoughtGraph) : Text :=
  join (js "\n") ([js "<GRAPH_OF_THOUGHT>", js "\t<GOAL>" ++ escapeXml graph.goal ++ js "</GOAL>"] ++
    graph.nodes.map nodeXml ++ workflowXml graph ++ [js "</GRAPH_OF_THOUGHT>"])

def graphBlockRe : Expr := blockRe (js "GRAPH_OF_THOUGHT")

def injectGraphXml (upliftXml : Text) (graph : ThoughtGraph) : Text :=
  let graphXml := graphToXml graph
  if test graphBlockRe upliftXml then replaceFirst graphBlockRe upliftXml graphXml
  else insertBlock (trim upliftXml) graphXml

end Ultrathink.Source.Think.Graph
