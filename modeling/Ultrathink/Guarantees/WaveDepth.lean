import Ultrathink.Guarantees.WorkflowWaves

/-!
# Waves are as early as they can be

`topoSort` reads ids and the dependencies that name a node, so a list sorts like the list without
its other dependencies. In the sorted list every dependency comes first, and the level that a node
is given is the length of the longest chain of dependencies below it.
-/

namespace Ultrathink.Guarantees.WaveDepth

open List Library JsText Source.Think.Graph WorkflowWaves

/-- The node of id `a` depends on the node of id `b`. -/
def Needs (nodes : List ThoughtNode) (a b : Text) : Prop :=
  DependsOn nodes a b ∧ b ∈ nodes.map (·.id)

section Pruned
variable (ids : List Text)

/-- The node without the dependencies that name no node. -/
def pruned (node : ThoughtNode) : ThoughtNode :=
  { node with dependsOn := node.dependsOn.filter (· ∈ ids) }

def prunedRef (ref : NodeRef) : NodeRef := (pruned ids ref.1, ref.2)

def prunedState (s : TopoState) : TopoState := { s with ordered := s.ordered.map (prunedRef ids) }

theorem ids_pruned (nodes : List ThoughtNode) :
    (nodes.map (pruned ids)).map (·.id) = nodes.map (·.id) := by
  rw [map_map]
  rfl

theorem zipIdx_pruned (nodes : List ThoughtNode) :
    (nodes.map (pruned ids)).zipIdx = nodes.zipIdx.map (prunedRef ids) := by
  rw [zipIdx_map]
  rfl

theorem nodesById_pruned (refs : List NodeRef) (id : Text) :
    (nodesById (refs.map (prunedRef ids))).get? id =
      ((nodesById refs).get? id).map (prunedRef ids) := by
  have fold : ∀ m m' : OrderedMap Text NodeRef,
      (∀ id, m'.get? id = (m.get? id).map (prunedRef ids)) →
      ((refs.map (prunedRef ids)).foldl (fun m ref => m.set ref.1.id ref) m').get? id =
        ((refs.foldl (fun m ref => m.set ref.1.id ref) m).get? id).map (prunedRef ids) := by
    induction refs with
    | nil => exact fun m m' same => same id
    | cons ref rest ih =>
      intro m m' same
      apply ih
      intro key
      rw [OrderedMap.get?_set, OrderedMap.get?_set, same]
      show (if key = ref.1.id then _ else _) = _
      split <;> rfl
  exact fold .empty .empty fun _ => rfl

theorem contains_pruned (refs : List NodeRef) (id : Text) :
    (nodesById (refs.map (prunedRef ids))).contains id = (nodesById refs).contains id := by
  rw [OrderedMap.contains, nodesById_pruned, Option.isSome_map, ← OrderedMap.contains]

theorem relaxAll_pruned (list : List Text) (s : TopoState) :
    list.foldl relax (prunedState ids s) = prunedState ids (list.foldl relax s) := by
  induction list generalizing s with
  | nil => rfl
  | cons child rest ih => exact ih (relax s child)

theorem topoStep_pruned (refs : List NodeRef) (children : OrderedMap Text (List Text))
    (s : TopoState) :
    topoStep (nodesById (refs.map (prunedRef ids))) children (prunedState ids s) =
      (topoStep (nodesById refs) children s).map (prunedState ids) := by
  unfold topoStep
  rw [show (prunedState ids s).queue = s.queue from rfl]
  cases s.queue with
  | nil => rfl
  | cons id rest =>
    dsimp only
    split
    · rfl
    · rw [nodesById_pruned, Option.map_some, ← relaxAll_pruned]
      congr 3
      cases (nodesById refs).get? id with
      | none => rfl
      | some ref =>
        show (s.ordered.map (prunedRef ids)) ++ [prunedRef ids ref] = _
        simp

theorem topoLoop_pruned (refs : List NodeRef) (children : OrderedMap Text (List Text))
    (turns : Nat) (s : TopoState) :
    topoLoop (nodesById (refs.map (prunedRef ids))) children turns (prunedState ids s) =
      prunedState ids (topoLoop (nodesById refs) children turns s) := by
  induction turns generalizing s with
  | zero => rfl
  | succ turns ih =>
    rw [topoLoop, topoLoop, topoStep_pruned]
    cases topoStep (nodesById refs) children s with
    | none => rfl
    | some s' => exact ih s'

end Pruned

section Sorted
variable {nodes : List ThoughtNode} (distinct : (nodes.map (·.id)).Nodup)
include distinct

theorem contains_iff (id : Text) :
    (nodesById nodes.zipIdx).contains id = true ↔ id ∈ nodes.map (·.id) := by
  rw [OrderedMap.contains, Option.isSome_iff_exists, ← ids_zipIdx, mem_map]
  exact exists_congr fun ref => nodesById_get? distinct id ref

theorem countEdges_pruned :
    countEdges (nodesById (nodes.zipIdx.map (prunedRef (nodes.map (·.id)))))
        (nodes.map (pruned (nodes.map (·.id)))) =
      countEdges (nodesById nodes.zipIdx) nodes := by
  have none_ : noEdges (nodes.map (pruned (nodes.map (·.id)))) = noEdges nodes := by
    rw [noEdges, foldl_map, foldl_map]
    rfl
  have edge : ∀ (node : ThoughtNode) (e : Edges) (dep : Text),
      (if decide (dep ∈ nodes.map (·.id)) = true then
        addEdge (nodesById (nodes.zipIdx.map (prunedRef (nodes.map (·.id)))))
          (pruned (nodes.map (·.id)) node) e dep else e) =
        addEdge (nodesById nodes.zipIdx) node e dep := by
    intro node e dep
    unfold addEdge
    rw [contains_pruned]
    by_cases known : dep ∈ nodes.map (·.id)
    · rw [if_pos (decide_eq_true known)]
      rfl
    · rw [if_neg (by simpa using known), if_neg fun held => known ((contains_iff distinct dep).mp held)]
  rw [countEdges, countEdges, none_, foldl_map]
  congr 1
  funext e node
  show (node.dependsOn.filter (· ∈ nodes.map (·.id))).foldl _ e = _
  rw [foldl_filter]
  congr 1
  funext e dep
  exact edge node e dep

theorem topoSort_pruned :
    topoSort (nodes.map (pruned (nodes.map (·.id)))) =
      (topoSort nodes).map (pruned (nodes.map (·.id))) := by
  have start : ∀ incoming, topoStart (nodes.map (pruned (nodes.map (·.id)))) incoming =
      prunedState (nodes.map (·.id)) (topoStart nodes incoming) := by
    intro incoming
    unfold topoStart prunedState
    rw [filter_map, map_map]
    rfl
  unfold topoSort
  dsimp only
  rw [zipIdx_pruned, countEdges_pruned distinct, start, length_map, topoLoop_pruned]
  generalize topoLoop _ _ _ _ = s
  have snd : (prunedState (nodes.map (·.id)) s).ordered.map Prod.snd = s.ordered.map Prod.snd := by
    show (s.ordered.map (prunedRef _)).map Prod.snd = _
    rw [map_map]
    rfl
  rw [snd, filter_map]
  show ((s.ordered.map (prunedRef _)) ++ _).map Prod.fst = _
  rw [← map_append, map_map, map_map]
  rfl

theorem ordered_objects (children : OrderedMap Text (List Text)) (turns : Nat) (s : TopoState)
    (objects : ∀ ref ∈ s.ordered, ref ∈ nodes.zipIdx) :
    ∀ ref ∈ (topoLoop (nodesById nodes.zipIdx) children turns s).ordered, ref ∈ nodes.zipIdx := by
  have kept : ∀ (list : List Text) (s : TopoState), (list.foldl relax s).ordered = s.ordered := by
    intro list
    induction list with
    | nil => exact fun _ => rfl
    | cons child rest ih => exact fun s => ih (relax s child)
  induction turns generalizing s with
  | zero => exact objects
  | succ turns ih =>
    unfold topoLoop
    split
    · exact objects
    · next s' turn =>
      apply ih
      unfold topoStep at turn
      split at turn
      · cases turn
      · split at turn
        · cases turn
        · cases turn
          rw [kept]
          dsimp only
          split
          · next ref found =>
            intro other mem
            rcases mem_append.mp mem with old | new
            · exact objects other old
            · rw [mem_singleton.mp new]
              exact ((nodesById_get? distinct _ ref).mp found).1
          · exact objects

theorem topoSort_subset : topoSort nodes ⊆ nodes := by
  intro node mem
  obtain ⟨ref, memRef, rfl⟩ := mem_map.mp mem
  have inside : ref ∈ nodes.zipIdx := by
    rcases mem_append.mp memRef with placed | left
    · exact ordered_objects distinct _ _ _ (fun ref mem => absurd mem not_mem_nil) ref placed
    · exact (mem_filter.mp left).1
  exact mem_of_getElem? (mem_zipIdx_iff_getElem?.mp inside)

variable (named : ∀ node ∈ nodes, node.id ≠ [])
include named

theorem closed_pruned : Closed (nodes.map (pruned (nodes.map (·.id)))) := by
  refine ⟨by rwa [ids_pruned], ?_, ?_⟩
  · intro node mem
    obtain ⟨original, memOriginal, rfl⟩ := mem_map.mp mem
    exact named original memOriginal
  · intro node mem dep listed
    obtain ⟨original, -, rfl⟩ := mem_map.mp mem
    rw [ids_pruned]
    exact of_decide_eq_true (mem_filter.mp listed).2

theorem sorted_perm : (topoSort nodes).Perm nodes := by
  have ids := (topoSort_perm (closed_pruned distinct named)).map (·.id)
  rw [topoSort_pruned distinct, ids_pruned, ids_pruned] at ids
  have sortedDistinct : (topoSort nodes).Nodup := (ids.nodup_iff.mpr distinct).of_map
  apply (sortedDistinct.subperm (topoSort_subset distinct)).perm_of_length_le
  have length := ids.length_eq
  rw [length_map, length_map] at length
  omega

theorem sorted_order (acyclic : Acyclic (DependsOn nodes)) :
    ∀ before node after, topoSort nodes = before ++ node :: after →
      ∀ dep ∈ node.dependsOn, dep ∈ nodes.map (·.id) → dep ∈ before.map (·.id) := by
  intro before node after split dep listed known
  have acyclic' : Acyclic (DependsOn (nodes.map (pruned (nodes.map (·.id))))) := by
    apply acyclic.mono
    rintro a b ⟨_, mem, same, listed⟩
    obtain ⟨original, memOriginal, rfl⟩ := mem_map.mp mem
    exact ⟨original, memOriginal, same, (mem_filter.mp listed).1⟩
  have whole := topoSort_pruned distinct
  rw [split, map_append, map_cons] at whole
  have first := topoSort_order (closed_pruned distinct named) acyclic' _ _ _ whole dep
    (mem_filter.mpr ⟨listed, decide_eq_true known⟩)
  rwa [ids_pruned] at first

end Sorted

theorem depthOf_append (level : OrderedMap Text Nat) (deps : List Text) (last : Text) :
    depthOf level (deps ++ [last]) = match level.get? last with
      | some seen => max (depthOf level deps) (seen + 1)
      | none => depthOf level deps := by
  rw [depthOf, foldl_append]
  rfl

theorem depthOf_reached {level : OrderedMap Text Nat} (deps : List Text) :
    depthOf level deps = 0 ∨
      ∃ dep ∈ deps, ∃ seen, level.get? dep = some seen ∧ depthOf level deps = seen + 1 := by
  induction deps using List.reverseRecOn with
  | nil => exact .inl rfl
  | append_singleton deps last ih =>
    have old : depthOf level deps = 0 ∨ ∃ dep ∈ deps ++ [last], ∃ seen,
        level.get? dep = some seen ∧ depthOf level deps = seen + 1 := by
      rcases ih with zero | ⟨dep, mem, reached⟩
      · exact .inl zero
      · exact .inr ⟨dep, mem_append_left _ mem, reached⟩
    rw [depthOf_append]
    cases found : level.get? last with
    | none => exact old
    | some seen =>
      dsimp only
      rcases Nat.le_total (depthOf level deps) (seen + 1) with less | more
      · rw [Nat.max_eq_right less]
        exact .inr ⟨last, mem_append_right _ (mem_singleton_self last), seen, found, rfl⟩
      · rw [Nat.max_eq_left more]
        exact old

theorem pushAt_length (node : ThoughtNode) (depth : Nat) (levels : List (List ThoughtNode)) :
    (pushAt node depth levels).length = max levels.length (depth + 1) := by
  induction depth generalizing levels with
  | zero =>
    cases levels with
    | nil => rfl
    | cons group rest =>
      rw [pushAt, length_cons, length_cons]
      omega
  | succ depth ih =>
    cases levels with
    | nil =>
      rw [pushAt, length_cons, ih, length_nil]
      omega
    | cons group rest =>
      rw [pushAt, length_cons, ih, length_cons]
      omega

theorem pushAt_groups (node : ThoughtNode) (depth : Nat) (levels : List (List ThoughtNode))
    (near : depth ≤ levels.length) :
    ∀ (i : Nat) (group : List ThoughtNode), (pushAt node depth levels)[i]? = some group →
      levels[i]? = some group ∨ (i = depth ∧ group = (levels[i]?).getD [] ++ [node]) := by
  induction depth generalizing levels with
  | zero =>
    intro i group held
    cases levels with
    | nil =>
      cases i with
      | zero => exact .inr ⟨rfl, (Option.some.inj held).symm⟩
      | succ i => cases held
    | cons first rest =>
      cases i with
      | zero => exact .inr ⟨rfl, (Option.some.inj held).symm⟩
      | succ i => exact .inl held
  | succ depth ih =>
    intro i group held
    cases levels with
    | nil => cases near
    | cons first rest =>
      cases i with
      | zero => exact .inl held
      | succ i =>
        rcases ih rest (Nat.le_of_succ_le_succ near) i group held with old | ⟨rfl, own⟩
        · exact .inl old
        · exact .inr ⟨rfl, own⟩

/-- The level of each placed node is the length of its longest chain, and no level is empty. -/
structure Deep (needs : Text → Text → Prop) (placed : List ThoughtNode) (s : LevelState) : Prop where
  keys : ∀ id depth, s.level.get? id = some depth → id ∈ placed.map (·.id) ∧ depth < s.levels.length
  depth : ∀ node ∈ placed, ∃ depth, s.level.get? node.id = some depth ∧
    IsGreatest {k | Descent needs node.id k} depth
  groups : ∀ (i : Nat) (group : List ThoughtNode), s.levels[i]? = some group →
    group ≠ [] ∧ ∀ node ∈ group, node ∈ placed ∧ s.level.get? node.id = some i

theorem Deep.place {needs : Text → Text → Prop} {placed : List ThoughtNode} {s : LevelState}
    (deep : Deep needs placed s) {node : ThoughtNode} (new : node.id ∉ placed.map (·.id))
    (own : ∀ dep, needs node.id dep ↔ dep ∈ node.dependsOn ∧ dep ∈ placed.map (·.id)) :
    Deep needs (placed ++ [node]) (placeNode s node) := by
  have others : ∀ id ∈ placed.map (·.id), (placeNode s node).level.get? id = s.level.get? id := by
    intro id mem
    exact OrderedMap.get?_set_of_ne _ _ fun same => new (same ▸ mem)
  have self : (placeNode s node).level.get? node.id = some (depthOf s.level node.dependsOn) :=
    OrderedMap.get?_set_self _ _ _
  have length : (placeNode s node).levels.length =
      max s.levels.length (depthOf s.level node.dependsOn + 1) := pushAt_length _ _ _
  have reached := @depthOf_reached s.level node.dependsOn
  have near : depthOf s.level node.dependsOn ≤ s.levels.length := by
    rcases reached with zero | ⟨dep, -, seen, found, eq⟩
    · omega
    · have small := (deep.keys dep seen found).2
      omega
  have greatest : IsGreatest {k | Descent needs node.id k} (depthOf s.level node.dependsOn) := by
    apply greatest_descent
    · rcases reached with zero | ⟨dep, listed, seen, found, eq⟩
      · exact .inl zero
      · have mem := (deep.keys dep seen found).1
        obtain ⟨other, memOther, rfl⟩ := mem_map.mp mem
        obtain ⟨depth, at_, chain, -⟩ := deep.depth other memOther
        rw [found] at at_
        obtain rfl := Option.some.inj at_
        exact .inr ⟨_, seen, (own _).mpr ⟨listed, mem⟩, chain, eq⟩
    · intro dep k need chain
      obtain ⟨listed, mem⟩ := (own dep).mp need
      obtain ⟨other, memOther, rfl⟩ := mem_map.mp mem
      obtain ⟨depth, at_, -, most⟩ := deep.depth other memOther
      have below := lt_depthOf listed at_
      have le := most chain
      omega
  refine ⟨?_, ?_, ?_⟩
  · intro id depth found
    rw [map_append, map_singleton, length]
    by_cases same : id = node.id
    · rw [same, self] at found
      obtain rfl := Option.some.inj found
      exact ⟨mem_append_right _ (by simp [same]), by omega⟩
    · rw [placeNode, OrderedMap.get?_set_of_ne _ _ same] at found
      obtain ⟨mem, small⟩ := deep.keys id depth found
      exact ⟨mem_append_left _ mem, by omega⟩
  · intro other mem
    rcases mem_append.mp mem with old | last
    · rw [others _ (mem_map_of_mem old)]
      exact deep.depth other old
    · rw [mem_singleton.mp last]
      exact ⟨_, self, greatest⟩
  · intro i group held
    have kept : ∀ g, s.levels[i]? = some g → g ≠ [] ∧ ∀ other ∈ g, other ∈ placed ++ [node] ∧
        (placeNode s node).level.get? other.id = some i := by
      intro g old
      obtain ⟨some_, each⟩ := deep.groups i g old
      refine ⟨some_, fun other mem => ?_⟩
      obtain ⟨memPlaced, level⟩ := each other mem
      exact ⟨mem_append_left _ memPlaced, (others _ (mem_map_of_mem memPlaced)).trans level⟩
    rcases pushAt_groups node _ s.levels near i group held with old | ⟨rfl, rfl⟩
    · exact kept group old
    · refine ⟨by simp, fun other mem => ?_⟩
      rcases mem_append.mp mem with before | last
      · cases old : s.levels[depthOf s.level node.dependsOn]? with
        | none =>
          rw [old] at before
          cases before
        | some g =>
          rw [old] at before
          exact (kept g old).2 other before
      · rw [mem_singleton.mp last]
        exact ⟨mem_append_right _ (mem_singleton_self node), self⟩

theorem deep_of_order {needs : Text → Text → Prop} (nodes : List ThoughtNode)
    (distinct : (nodes.map (·.id)).Nodup)
    (own : ∀ before node after, nodes = before ++ node :: after →
      ∀ dep, needs node.id dep ↔ dep ∈ node.dependsOn ∧ dep ∈ before.map (·.id)) :
    Deep needs nodes (nodes.foldl placeNode ⟨.empty, []⟩) := by
  induction nodes using List.reverseRecOn with
  | nil => exact ⟨fun _ _ held => (by cases held), by simp, by simp⟩
  | append_singleton nodes node ih =>
    rw [map_append, map_singleton, nodup_append] at distinct
    have deep := ih distinct.1 fun before other after eq =>
      own before other (after ++ [node]) (by rw [eq]; simp)
    rw [foldl_append, foldl_cons, foldl_nil]
    apply deep.place
    · intro mem
      exact distinct.2.2 node.id mem node.id (mem_singleton_self _) rfl
    · exact own nodes node [] rfl

section Waves
variable {nodes : List ThoughtNode} (distinct : (nodes.map (·.id)).Nodup)
  (named : ∀ node ∈ nodes, node.id ≠ []) (acyclic : Acyclic (DependsOn nodes))
include distinct named acyclic

theorem deep_sorted :
    Deep (Needs nodes) (topoSort nodes) ((topoSort nodes).foldl placeNode ⟨.empty, []⟩) := by
  have perm := sorted_perm distinct named
  apply deep_of_order _ ((perm.map _).nodup_iff.mpr distinct)
  intro before node after split dep
  have mem : node ∈ nodes := perm.mem_iff.mp (by rw [split]; simp)
  constructor
  · rintro ⟨⟨other, memOther, same, listed⟩, known⟩
    obtain rfl := inj_on_of_nodup_map distinct memOther mem same
    exact ⟨listed, sorted_order distinct named acyclic before other after split dep listed known⟩
  · rintro ⟨listed, first⟩
    refine ⟨⟨node, mem, rfl, listed⟩, ?_⟩
    rw [← (perm.map (·.id)).mem_iff, split, map_append]
    exact mem_append_left _ first

theorem dependencyLevels_sorted :
    dependencyLevels (topoSort nodes) =
      ((topoSort nodes).foldl placeNode ⟨.empty, []⟩).levels := by
  rw [dependencyLevels, filter_eq_self]
  intro group mem
  obtain ⟨i, at_⟩ := getElem?_of_mem mem
  have some_ := ((deep_sorted distinct named acyclic).groups i group at_).1
  simpa [length_pos_iff] using some_

/-- The sort is a permutation in which every node follows its dependencies, every node is in a
wave, and its wave is one plus the length of its longest chain of dependencies. -/
theorem wave_numbers (goal : Text) :
    (topoSort nodes).Perm nodes ∧
    (∀ before node after, topoSort nodes = before ++ node :: after →
      ∀ dep ∈ node.dependsOn, dep ∈ nodes.map (·.id) → dep ∈ before.map (·.id)) ∧
    (∀ node ∈ nodes, ∃ wave ∈ workflowWaves ⟨goal, nodes⟩, node.id ∈ wave.ids) ∧
    ∀ wave ∈ workflowWaves ⟨goal, nodes⟩, ∀ id ∈ wave.ids,
      ∃ longest, IsGreatest {k | Descent (Needs nodes) id k} longest ∧ wave.wave = 1 + longest := by
  have perm := sorted_perm distinct named
  have deep := deep_sorted distinct named acyclic
  have levels := dependencyLevels_sorted distinct named acyclic
  refine ⟨perm, sorted_order distinct named acyclic, ?_, ?_⟩
  · intro node mem
    have inLevels : node ∈ (dependencyLevels (topoSort nodes)).flatten := by
      rw [levels, (levels_perm _).mem_iff, perm.mem_iff]
      exact mem
    obtain ⟨group, memGroup, memNode⟩ := mem_flatten.mp inLevels
    obtain ⟨i, at_⟩ := getElem?_of_mem memGroup
    exact ⟨_, @mem_workflowWaves ⟨goal, nodes⟩ i group at_, mem_map_of_mem memNode⟩
  · intro wave memWave id memId
    obtain ⟨⟨group, i⟩, held, rfl⟩ := mem_map.mp memWave
    have at_ : (dependencyLevels (topoSort nodes))[i]? = some group :=
      mem_zipIdx_iff_getElem?.mp held
    rw [levels] at at_
    obtain ⟨node, memNode, rfl⟩ := mem_map.mp memId
    obtain ⟨memSorted, level⟩ := (deep.groups i group at_).2 node memNode
    obtain ⟨longest, found, greatest⟩ := deep.depth node memSorted
    rw [level] at found
    obtain rfl := Option.some.inj found
    exact ⟨i, greatest, Nat.add_comm i 1⟩

end Waves

def waveNode (id : String) (dependsOn : List String) : ThoughtNode :=
  ⟨js id, js id, .generate, js id, dependsOn.map js, none, none⟩

/-- A diamond with a dependency that names no node. -/
def diamond : List ThoughtNode :=
  [waveNode "d" ["b", "c"], waveNode "b" ["a"], waveNode "c" ["a", "zz"], waveNode "a" []]

/-- A list of ids in which every dependency comes before shows that there is no circle. -/
theorem acyclic_of_list {nodes : List ThoughtNode} (order : List Text)
    (earlier : ∀ node ∈ nodes, ∀ dep ∈ node.dependsOn, order.idxOf dep < order.idxOf node.id) :
    Acyclic (DependsOn nodes) := by
  apply acyclic_of_rank order.idxOf
  rintro _ dep ⟨node, mem, rfl, listed⟩
  exact earlier node mem dep listed

theorem acyclic_diamond : Acyclic (DependsOn diamond) :=
  acyclic_of_list [js "zz", js "a", js "b", js "c", js "d"] (by decide +kernel)

theorem wave_numbers_diamond : (topoSort diamond).Perm diamond :=
  (@wave_numbers diamond (by decide +kernel) (by decide +kernel) acyclic_diamond []).1

def unnamed : List ThoughtNode := [waveNode "" [], waveNode "a" ["b"], waveNode "b" []]

/-- At a node with the empty id the sort stops: what it left stays as it came, here a node before
its dependency and in the same wave. -/
theorem empty_id_stops :
    (unnamed.map (·.id)).Nodup ∧ Acyclic (DependsOn unnamed) ∧
    (topoSort unnamed).map (·.id) = [js "", js "a", js "b"] ∧
    Descent (Needs unnamed) (js "a") 1 ∧
    (workflowWaves ⟨[], unnamed⟩).map (fun wave => (wave.wave, wave.ids)) =
      [(1, [js "", js "a", js "b"])] := by
  refine ⟨by decide +kernel, acyclic_of_list [js "b", js "a", js ""] (by decide +kernel),
    by decide +kernel, ?_, by decide +kernel⟩
  have need : Needs unnamed (js "a") (js "b") :=
    ⟨⟨waveNode "a" ["b"], by simp [unnamed], rfl, by decide +kernel⟩, by decide +kernel⟩
  exact .step need (.here _)

end Ultrathink.Guarantees.WaveDepth
