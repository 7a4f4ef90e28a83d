import Mathlib.Data.List.Pairwise
import Ultrathink.Source.Think.Normalize
import Ultrathink.Source.Think.Order

/-!
# Waves of a normalized graph

Whatever a model replies, the waves of the normalized graph hold each node once. `normalizeGraph`
drops self references and unknown ids, but no cycle: the nodes of a cycle are levelled as they
come.
-/

namespace Ultrathink.Guarantees.WorkflowWaves

open List Library JsText Source.Think.Graph

/-- The waves hold each node once, and each dependency in an earlier wave. -/
structure WavesSound (nodes : List ThoughtNode) (waves : List WorkflowWave) : Prop where
  cover : (waves.flatMap (·.ids)).Perm (nodes.map (·.id))
  distinct : (waves.flatMap (·.ids)).Nodup
  nonempty : ∀ wave ∈ waves, wave.ids ≠ []
  earlier : ∀ node ∈ nodes, ∀ dep ∈ node.dependsOn, ∃ first ∈ waves, ∃ later ∈ waves,
    dep ∈ first.ids ∧ node.id ∈ later.ids ∧ first.wave < later.wave

theorem pushAt_perm (node : ThoughtNode) (depth : Nat) (levels : List (List ThoughtNode)) :
    (pushAt node depth levels).flatten.Perm (levels.flatten ++ [node]) := by
  induction levels generalizing depth with
  | nil =>
    induction depth with
    | zero => exact List.Perm.refl _
    | succ depth ih => simpa [pushAt] using ih
  | cons group rest ih =>
    cases depth with
    | zero =>
      simp only [pushAt, flatten_cons, append_assoc]
      exact perm_append_comm.append_left group
    | succ depth =>
      simp only [pushAt, flatten_cons, append_assoc]
      exact (ih depth).append_left group

theorem pushAt_self (node : ThoughtNode) (depth : Nat) (levels : List (List ThoughtNode)) :
    ∃ group, (pushAt node depth levels)[depth]? = some group ∧ node ∈ group := by
  induction depth generalizing levels with
  | zero =>
    cases levels with
    | nil => exact ⟨[node], rfl, by simp⟩
    | cons group rest => exact ⟨group ++ [node], rfl, by simp⟩
  | succ depth ih =>
    cases levels with
    | nil => simpa [pushAt] using ih []
    | cons group rest => simpa [pushAt] using ih rest

theorem pushAt_keeps (node : ThoughtNode) (depth : Nat) (levels : List (List ThoughtNode))
    {at_ : Nat} {group : List ThoughtNode} (held : levels[at_]? = some group) :
    ∃ more, (pushAt node depth levels)[at_]? = some more ∧ group ⊆ more := by
  induction depth generalizing levels at_ with
  | zero =>
    cases levels with
    | nil => simp at held
    | cons first rest =>
      cases at_ with
      | zero =>
        cases held
        exact ⟨group ++ [node], rfl, subset_append_left group [node]⟩
      | succ at_ => exact ⟨group, by simpa [pushAt] using held, fun _ h => h⟩
  | succ depth ih =>
    cases levels with
    | nil => simp at held
    | cons first rest =>
      cases at_ with
      | zero => exact ⟨group, by simpa [pushAt] using held, fun _ h => h⟩
      | succ at_ => simpa [pushAt] using ih rest (by simpa using held)

theorem le_foldDepth (level : OrderedMap Text Nat) (deps : List Text) (start : Nat) :
    start ≤ deps.foldl (fun depth dep => match level.get? dep with
      | some seen => max depth (seen + 1)
      | none => depth) start := by
  induction deps generalizing start with
  | nil => exact Nat.le_refl start
  | cons first rest ih =>
    refine le_trans ?_ (ih _)
    dsimp only
    split
    · exact Nat.le_max_left _ _
    · exact Nat.le_refl _

theorem lt_foldDepth {level : OrderedMap Text Nat} {deps : List Text} {dep : Text} {seen : Nat}
    (mem : dep ∈ deps) (found : level.get? dep = some seen) (start : Nat) :
    seen < deps.foldl (fun depth dep => match level.get? dep with
      | some seen => max depth (seen + 1)
      | none => depth) start := by
  induction deps generalizing start with
  | nil => exact absurd mem not_mem_nil
  | cons first rest ih =>
    rcases mem_cons.mp mem with rfl | later
    · rw [foldl_cons, found]
      exact lt_of_lt_of_le (by omega) (le_foldDepth level rest (max start (seen + 1)))
    · exact ih later _

theorem lt_depthOf {level : OrderedMap Text Nat} {deps : List Text} {dep : Text} {seen : Nat}
    (mem : dep ∈ deps) (found : level.get? dep = some seen) : seen < depthOf level deps :=
  lt_foldDepth mem found 0

/-- Each node stands in its level, above the levels of all it depends on. -/
structure Leveled (nodes : List ThoughtNode) (s : LevelState) : Prop where
  known : ∀ node ∈ nodes, ∀ dep ∈ node.dependsOn, dep ∈ nodes.map (·.id)
  placed : ∀ node ∈ nodes, ∃ depth group,
    s.level.get? node.id = some depth ∧ s.levels[depth]? = some group ∧ node ∈ group
  below : ∀ node ∈ nodes, ∀ dep ∈ node.dependsOn, ∃ low high,
    s.level.get? dep = some low ∧ s.level.get? node.id = some high ∧ low < high

variable {nodes nodes' : List ThoughtNode} {waves : List WorkflowWave} {id : Text} {r : Reading}

theorem Leveled.place {s : LevelState} (leveled : Leveled nodes s) {node : ThoughtNode}
    (new : node.id ∉ nodes.map (·.id)) (deps : ∀ dep ∈ node.dependsOn, dep ∈ nodes.map (·.id)) :
    Leveled (nodes ++ [node]) (placeNode s node) := by
  have keeps : ∀ id ∈ nodes.map (·.id), (placeNode s node).level.get? id = s.level.get? id := by
    intro id mem
    exact OrderedMap.get?_set_of_ne _ _ fun same => new (same ▸ mem)
  have self : (placeNode s node).level.get? node.id = some (depthOf s.level node.dependsOn) :=
    OrderedMap.get?_set_self _ _ _
  refine ⟨fun other mem dep listed => ?_, fun other mem => ?_, fun other mem dep listed => ?_⟩
  · rw [map_append]
    refine mem_append_left _ ?_
    rcases mem_append.mp mem with old | last
    · exact leveled.known other old dep listed
    · exact deps dep (mem_singleton.mp last ▸ listed)
  · rcases mem_append.mp mem with old | last
    · obtain ⟨depth, group, level, held, memGroup⟩ := leveled.placed other old
      obtain ⟨more, held', subset⟩ := pushAt_keeps node (depthOf s.level node.dependsOn) s.levels held
      exact ⟨depth, more, (keeps _ (mem_map.mpr ⟨other, old, rfl⟩)).trans level, held',
        subset memGroup⟩
    · obtain rfl := mem_singleton.mp last
      obtain ⟨group, held, memGroup⟩ := pushAt_self other (depthOf s.level other.dependsOn) s.levels
      exact ⟨_, group, self, held, memGroup⟩
  · rcases mem_append.mp mem with old | last
    · obtain ⟨low, high, levelDep, levelNode, lt⟩ := leveled.below other old dep listed
      exact ⟨low, high, (keeps dep (leveled.known other old dep listed)).trans levelDep,
        (keeps _ (mem_map.mpr ⟨other, old, rfl⟩)).trans levelNode, lt⟩
    · obtain rfl := mem_singleton.mp last
      have known := deps dep listed
      obtain ⟨source, memSource, rfl⟩ := mem_map.mp known
      obtain ⟨depth, _, level, -, -⟩ := leveled.placed source memSource
      exact ⟨depth, _, (keeps _ known).trans level, self, lt_depthOf listed level⟩

theorem leveled_of_order (nodes : List ThoughtNode) (distinct : (nodes.map (·.id)).Nodup)
    (order : ∀ before node after, nodes = before ++ node :: after →
      ∀ dep ∈ node.dependsOn, dep ∈ before.map (·.id)) :
    Leveled nodes (nodes.foldl placeNode ⟨.empty, []⟩) := by
  induction nodes using List.reverseRecOn with
  | nil => exact ⟨by simp, by simp, by simp⟩
  | append_singleton nodes node ih =>
    rw [map_append, map_singleton, nodup_append] at distinct
    have leveled := ih distinct.1 fun before other after eq =>
      order before other (after ++ [node]) (by rw [eq]; simp)
    rw [foldl_append, foldl_cons, foldl_nil]
    refine leveled.place (fun mem => ?_) (order nodes node [] rfl)
    exact distinct.2.2 node.id mem node.id (by simp) rfl

theorem levels_perm (nodes : List ThoughtNode) :
    (nodes.foldl placeNode ⟨.empty, []⟩).levels.flatten.Perm nodes := by
  induction nodes using List.reverseRecOn with
  | nil => exact List.Perm.refl _
  | append_singleton nodes node ih =>
    rw [foldl_append, foldl_cons, foldl_nil]
    exact (pushAt_perm _ _ _).trans (ih.append_right [node])

theorem flatten_filter_nonempty (levels : List (List ThoughtNode)) :
    (levels.filter fun group => 0 < group.length).flatten = levels.flatten := by
  induction levels with
  | nil => rfl
  | cons group rest ih =>
    cases group with
    | nil => simpa using ih
    | cons node more => simpa using ih

theorem filter_order {levels : List (List ThoughtNode)} {low high : Nat}
    {a b : List ThoughtNode} (lt : low < high) (heldA : levels[low]? = some a)
    (heldB : levels[high]? = some b) (p : List ThoughtNode → Bool) (keptA : p a) (keptB : p b) :
    ∃ i j : Nat, i < j ∧ (levels.filter p)[i]? = some a ∧ (levels.filter p)[j]? = some b := by
  have memA : a ∈ (levels.take high).filter p := by
    refine mem_filter.mpr ⟨mem_of_getElem? (i := low) ?_, keptA⟩
    rw [getElem?_take, if_pos lt, heldA]
  have memB : b ∈ (levels.drop high).filter p := by
    refine mem_filter.mpr ⟨mem_of_getElem? (i := 0) ?_, keptB⟩
    rw [getElem?_drop, Nat.add_zero, heldB]
  have whole : levels.filter p = (levels.take high).filter p ++ (levels.drop high).filter p := by
    rw [← filter_append, take_append_drop]
  obtain ⟨i, atI⟩ := List.getElem?_of_mem memA
  obtain ⟨j, atJ⟩ := List.getElem?_of_mem memB
  obtain ⟨small, -⟩ := List.getElem?_eq_some_iff.mp atI
  refine ⟨i, ((levels.take high).filter p).length + j, by omega, ?_, ?_⟩
  · rw [whole, List.getElem?_append_left small, atI]
  · rw [whole, getElem?_append_right (by omega), Nat.add_sub_cancel_left, atJ]

theorem workflowWaves_ids (graph : ThoughtGraph) :
    (workflowWaves graph).flatMap (·.ids) =
      (dependencyLevels (topoSort graph.nodes)).flatten.map (·.id) := by
  have each : ∀ (levels : List (List ThoughtNode)) (start : Nat),
      ((levels.zipIdx start).map fun entry : List ThoughtNode × Nat =>
        WorkflowWave.mk (entry.2 + 1) (1 < entry.1.length) (entry.1.map (·.id))).flatMap (·.ids) =
          levels.flatten.map (·.id) := by
    intro levels
    induction levels with
    | nil => exact fun _ => rfl
    | cons group rest ih =>
      intro start
      rw [zipIdx_cons, map_cons, flatMap_cons, ih, flatten_cons, map_append]
  exact each _ 0

theorem mem_workflowWaves {graph : ThoughtGraph} {index : Nat} {group : List ThoughtNode}
    (held : (dependencyLevels (topoSort graph.nodes))[index]? = some group) :
    ({ wave := index + 1, parallel := 1 < group.length, ids := group.map (·.id) } : WorkflowWave) ∈
      workflowWaves graph :=
  mem_map.mpr ⟨(group, index), mem_zipIdx_iff_getElem?.mpr held, rfl⟩

section Closed
variable {nodes : List ThoughtNode} (closed : Closed nodes) (goal : Text)
include closed

theorem workflowWaves_cover :
    ((workflowWaves ⟨goal, nodes⟩).flatMap (·.ids)).Perm (nodes.map (·.id)) := by
  rw [workflowWaves_ids]
  refine List.Perm.map _ ?_
  rw [dependencyLevels, flatten_filter_nonempty]
  exact (levels_perm _).trans (topoSort_perm closed)

theorem workflowWaves_earlier (acyclic : Acyclic (DependsOn nodes)) :
    ∀ node ∈ nodes, ∀ dep ∈ node.dependsOn, ∃ first ∈ workflowWaves ⟨goal, nodes⟩,
      ∃ later ∈ workflowWaves ⟨goal, nodes⟩,
        dep ∈ first.ids ∧ node.id ∈ later.ids ∧ first.wave < later.wave := by
  have sorted := topoSort_perm closed
  have distinct : ((topoSort nodes).map (·.id)).Nodup := (sorted.map _).nodup_iff.mpr closed.nodup
  have leveled := leveled_of_order (topoSort nodes) distinct (topoSort_order closed acyclic)
  intro node mem dep listed
  have memSorted := sorted.mem_iff.mpr mem
  obtain ⟨low, high, levelDep, levelNode, lt⟩ := leveled.below node memSorted dep listed
  obtain ⟨source, memSource, sameId⟩ := mem_map.mp (leveled.known node memSorted dep listed)
  obtain ⟨low', lowGroup, levelSource, heldLow, memLow⟩ := leveled.placed source memSource
  obtain ⟨high', highGroup, levelNode', heldHigh, memHigh⟩ := leveled.placed node memSorted
  rw [sameId, levelDep] at levelSource
  rw [levelNode] at levelNode'
  cases levelSource
  cases levelNode'
  obtain ⟨i, j, lt, heldI, heldJ⟩ := filter_order lt heldLow heldHigh (fun group => 0 < group.length)
    (by simpa using length_pos_of_mem memLow) (by simpa using length_pos_of_mem memHigh)
  refine ⟨_, @mem_workflowWaves ⟨goal, nodes⟩ _ _ heldI, _, @mem_workflowWaves ⟨goal, nodes⟩ _ _ heldJ,
    ?_, mem_map.mpr ⟨node, memHigh, rfl⟩, ?_⟩
  · exact mem_map.mpr ⟨source, memLow, sameId⟩
  · exact Nat.succ_lt_succ lt

omit closed in
theorem wave_unique (distinct : (waves.flatMap (·.ids)).Nodup) {a b : WorkflowWave}
    (memA : a ∈ waves) (memB : b ∈ waves) (inA : id ∈ a.ids) (inB : id ∈ b.ids) :
    a = b := by
  have symm : Std.Symm (Function.onFun List.Disjoint fun wave : WorkflowWave => wave.ids) :=
    ⟨fun _ _ apart => apart.symm⟩
  by_contra ne
  exact (nodup_flatMap.mp distinct).2.forall memA memB ne inA inB

/-- The waves of nodes with different ids that depend on each other only are sound
exactly when no node depends on itself through others. -/
theorem workflowWaves_sound_iff :
    WavesSound nodes (workflowWaves ⟨goal, nodes⟩) ↔ Acyclic (DependsOn nodes) := by
  constructor
  · intro sound
    let waves := workflowWaves ⟨goal, nodes⟩
    let rank (id : Text) : Nat := ((waves.find? fun wave => id ∈ wave.ids).map (·.wave)).getD 0
    have rank_eq : ∀ wave ∈ waves, ∀ id ∈ wave.ids, rank id = wave.wave := by
      intro wave mem id inside
      cases found : waves.find? fun wave => id ∈ wave.ids with
      | none =>
        have none := find?_eq_none.mp found wave mem
        exact absurd inside (by simpa using none)
      | some other =>
        have same : other = wave := wave_unique sound.distinct (mem_of_find?_eq_some found) mem
          (by simpa using find?_some found) inside
        simp only [rank, found, same, Option.map_some, Option.getD_some]
    refine acyclic_of_rank rank ?_
    rintro _ dep ⟨node, mem, rfl, listed⟩
    obtain ⟨first, memFirst, later, memLater, inFirst, inLater, lt⟩ :=
      sound.earlier node mem dep listed
    rwa [rank_eq first memFirst dep inFirst, rank_eq later memLater node.id inLater]
  · intro acyclic
    have cover := workflowWaves_cover closed goal
    refine ⟨cover, cover.nodup_iff.mpr closed.nodup, fun wave mem => ?_,
      workflowWaves_earlier closed goal acyclic⟩
    obtain ⟨⟨group, index⟩, held, rfl⟩ := mem_map.mp mem
    have kept := mem_of_getElem? (mem_zipIdx_iff_getElem?.mp held)
    have long : 0 < group.length := of_decide_eq_true (mem_filter.mp kept).2
    intro empty
    rw [map_eq_nil_iff.mp empty] at long
    cases long

end Closed

variable {ν : Type}

theorem positionalId_ne_nil (k : Nat) : positionalId k ≠ [] := by
  unfold positionalId
  intro empty
  have head := (append_eq_nil_iff.mp empty).1
  revert head
  decide

theorem freshId_ne_nil (taken : List Text) (index : Nat) : freshId taken index ≠ [] := by
  unfold freshId
  generalize taken.length = turns
  generalize index + 1 = k
  induction turns generalizing k with
  | zero => exact positionalId_ne_nil k
  | succ turns ih =>
    unfold freshFrom
    split
    · exact ih (k + 1)
    · exact positionalId_ne_nil k

/-- The nodes read so far have different, nonempty ids, which are the ids seen. -/
structure ReadWell (r : Reading) : Prop where
  seen : r.seen = r.ids
  nodup : r.ids.Nodup
  named : ∀ id ∈ r.ids, id ≠ []

theorem idOf_ne_nil (reserved : List Text) (r : Reading) (entry : Json ν) (index : Nat) :
    idOf reserved r entry index ≠ [] := by
  unfold idOf
  split
  · rename_i valid
    intro empty
    rw [empty] at valid
    revert valid
    decide
  · exact freshId_ne_nil _ _

theorem ReadWell.take (well : ReadWell r) (entry : Json ν) (index : Nat) (named : id ≠ [])
    (new : id ∉ r.seen) : ReadWell (takeEntry r entry id index) := by
  have ids : (takeEntry r entry id index).ids = r.ids ++ [id] := by
    simp [Reading.ids, takeEntry, nodeOf]
  refine ⟨?_, ?_, ?_⟩
  · rw [ids, ← well.seen]
    rfl
  · rw [ids, nodup_append]
    refine ⟨well.nodup, by simp, fun a memA b memB same => ?_⟩
    rw [mem_singleton.mp memB] at same
    exact new (well.seen ▸ same ▸ memA)
  · rw [ids]
    intro other mem
    rcases mem_append.mp mem with old | last
    · exact well.named other old
    · rwa [mem_singleton.mp last]

theorem readNodes_well (reserved : List Text) (maxNodes : Nat) (entries : List (Json ν × Nat))
    (r : Reading) (well : ReadWell r) : ReadWell (readNodes reserved maxNodes entries r) := by
  induction entries generalizing r with
  | nil => exact well
  | cons entry rest ih =>
    obtain ⟨entry, index⟩ := entry
    unfold readNodes
    dsimp only
    split
    · exact ih r well
    · split
      · exact ih r well
      · rename_i new
        have taken := well.take entry index (idOf_ne_nil reserved r entry index) new
        split
        · exact taken
        · exact ih _ taken

theorem readReply_well (raw : Json ν) (maxNodes : Nat) : ReadWell (readReply raw maxNodes) :=
  readNodes_well _ _ _ _ ⟨rfl, nodup_nil, by simp [Reading.ids]⟩

/-- In the reply, the node of id `a` lists the node of another id `b`: by that id, or
by the name that `b` was given in place of. -/
def Lists (r : Reading) (a b : Text) : Prop :=
  ∃ node ∈ r.nodes, node.id = a ∧ b ∈ node.dependsOn.map r.resolve ∧ b ∈ r.ids ∧ b ≠ a

/-- The nodes kept by `p` are known from their ids and dependencies, which closing keeps. -/
theorem mem_closeWithSynthesis (nodes : List ThoughtNode) (id : Text) (deps : List Text) :
    (∃ node ∈ closeWithSynthesis nodes, node.id = id ∧ node.dependsOn = deps) ↔
      ∃ node ∈ nodes, node.id = id ∧ node.dependsOn = deps := by
  induction nodes with
  | nil => rfl
  | cons node rest ih =>
    cases rest with
    | nil => simp [closeWithSynthesis]
    | cons next more =>
      unfold closeWithSynthesis
      simp only [exists_mem_cons_iff] at ih ⊢
      rw [ih]

theorem ids_closeWithSynthesis (nodes : List ThoughtNode) :
    (closeWithSynthesis nodes).map (·.id) = nodes.map (·.id) := by
  induction nodes with
  | nil => rfl
  | cons node rest ih =>
    cases rest with
    | nil => rfl
    | cons next more =>
      unfold closeWithSynthesis
      rw [map_cons, ih, map_cons (l := next :: more)]

theorem closed_resolved (well : ReadWell r) :
    Closed (closeWithSynthesis (r.nodes.map (resolveNode r))) := by
  have ids : (closeWithSynthesis (r.nodes.map (resolveNode r))).map (·.id) = r.ids := by
    rw [ids_closeWithSynthesis, map_map]
    rfl
  have deps : ∀ node ∈ closeWithSynthesis (r.nodes.map (resolveNode r)), ∀ dep ∈ node.dependsOn,
      dep ∈ r.ids := by
    intro node mem dep listed
    obtain ⟨resolved, memResolved, -, same⟩ :=
      (mem_closeWithSynthesis _ node.id node.dependsOn).mp ⟨node, mem, rfl, rfl⟩
    obtain ⟨original, -, rfl⟩ := mem_map.mp memResolved
    rw [← same] at listed
    have kept := (mem_filter.mp listed).2
    simp only [Bool.and_eq_true, decide_eq_true_eq] at kept
    exact kept.1
  refine ⟨ids ▸ well.nodup, fun node mem => ?_, fun node mem dep listed => ids ▸ deps node mem dep listed⟩
  exact well.named node.id (ids ▸ mem_map.mpr ⟨node, mem, rfl⟩)

theorem dependsOn_resolved (r : Reading) (a b : Text) :
    DependsOn (closeWithSynthesis (r.nodes.map (resolveNode r))) a b ↔ Lists r a b := by
  have byLists : DependsOn (closeWithSynthesis (r.nodes.map (resolveNode r))) a b ↔
      ∃ deps, b ∈ deps ∧ ∃ node ∈ closeWithSynthesis (r.nodes.map (resolveNode r)),
        node.id = a ∧ node.dependsOn = deps :=
    ⟨fun ⟨node, mem, same, listed⟩ => ⟨_, listed, node, mem, same, rfl⟩,
      fun ⟨_, listed, node, mem, same, eq⟩ => ⟨node, mem, same, eq ▸ listed⟩⟩
  rw [byLists]
  simp only [mem_closeWithSynthesis]
  constructor
  · rintro ⟨_, listed, _, mem, rfl, rfl⟩
    obtain ⟨node, memNode, rfl⟩ := mem_map.mp mem
    obtain ⟨mapped, kept⟩ := mem_filter.mp listed
    simp only [Bool.and_eq_true, decide_eq_true_eq] at kept
    exact ⟨node, memNode, rfl, mapped, kept.1, kept.2⟩
  · rintro ⟨node, mem, rfl, mapped, known, other⟩
    refine ⟨_, mem_filter.mpr ⟨mapped, ?_⟩, resolveNode r node,
      mem_map.mpr ⟨node, mem, rfl⟩, rfl, rfl⟩
    simp [known, other]

theorem closed_fallback : Closed fallbackGraph.nodes :=
  ⟨by decide, by decide, by decide⟩

theorem acyclic_fallback : Acyclic (DependsOn fallbackGraph.nodes) := by
  refine acyclic_of_rank (fun id => (fallbackGraph.nodes.map (·.id)).idxOf id) ?_
  rintro _ dep ⟨node, mem, rfl, listed⟩
  have ranked : ∀ node ∈ fallbackGraph.nodes, ∀ dep ∈ node.dependsOn,
      (fallbackGraph.nodes.map (·.id)).idxOf dep < (fallbackGraph.nodes.map (·.id)).idxOf node.id := by
    decide
  exact ranked node mem dep listed

theorem normalizeGraph_closed (raw : Json ν) (fallbackGoal : Text) (minNodes maxNodes : Nat) :
    Closed (normalizeGraph raw fallbackGoal minNodes maxNodes).nodes := by
  unfold normalizeGraph
  dsimp only
  split
  · exact closed_fallback
  · exact closed_resolved (readReply_well raw maxNodes)

theorem normalizeGraph_acyclic_iff (raw : Json ν) (fallbackGoal : Text) (minNodes maxNodes : Nat) :
    Acyclic (DependsOn (normalizeGraph raw fallbackGoal minNodes maxNodes).nodes) ↔
      (readReply raw maxNodes).nodes.length < minNodes ∨ Acyclic (Lists (readReply raw maxNodes)) := by
  unfold normalizeGraph
  dsimp only
  split
  · rename_i few
    exact ⟨fun _ => Or.inl few, fun _ => acyclic_fallback⟩
  · rename_i enough
    have same : DependsOn (closeWithSynthesis
        ((readReply raw maxNodes).nodes.map (resolveNode (readReply raw maxNodes)))) =
          Lists (readReply raw maxNodes) := by
      funext a b
      exact propext (dependsOn_resolved _ a b)
    rw [same]
    exact ⟨Or.inr, fun h => h.resolve_left enough⟩

theorem WavesSound.of_perm (sound : WavesSound nodes waves) (perm : nodes'.Perm nodes) :
    WavesSound nodes' waves :=
  ⟨sound.cover.trans (perm.symm.map _), sound.distinct, sound.nonempty,
    fun node mem => sound.earlier node (perm.mem_iff.mp mem)⟩

theorem closed_of_perm (closed : Closed nodes) (perm : nodes'.Perm nodes) : Closed nodes' :=
  ⟨(perm.map _).nodup_iff.mpr closed.nodup, fun node mem => closed.named node (perm.mem_iff.mp mem),
    fun node mem dep listed =>
      (perm.map _).mem_iff.mpr (closed.deps node (perm.mem_iff.mp mem) dep listed)⟩

theorem dependsOn_of_perm (perm : nodes'.Perm nodes) :
    DependsOn nodes' = DependsOn nodes := by
  funext a b
  simp only [Source.Think.Graph.DependsOn, perm.mem_iff]

/-- The waves of the graph, and those of the graph that the pipeline has sorted
before, are sound for the nodes exactly when too few entries of the reply become
nodes (and the fallback graph stands in) or those that do list each other in no
circle. -/
theorem workflow_waves_iff (raw : Json ν) (fallbackGoal : Text) (minNodes maxNodes : Nat) :
    let graph := normalizeGraph raw fallbackGoal minNodes maxNodes
    let sound := (readReply raw maxNodes).nodes.length < minNodes ∨
      Acyclic (Lists (readReply raw maxNodes))
    (WavesSound graph.nodes (workflowWaves graph) ↔ sound) ∧
      (WavesSound graph.nodes (workflowWaves { graph with nodes := topoSort graph.nodes }) ↔ sound) := by
  intro graph sound
  have closed := normalizeGraph_closed raw fallbackGoal minNodes maxNodes
  have condition : Acyclic (DependsOn graph.nodes) ↔ sound :=
    normalizeGraph_acyclic_iff raw fallbackGoal minNodes maxNodes
  have sorted : (topoSort graph.nodes).Perm graph.nodes := topoSort_perm closed
  refine ⟨(workflowWaves_sound_iff closed graph.goal).trans condition, Iff.trans ?_ condition⟩
  have ofSorted := workflowWaves_sound_iff (closed_of_perm closed sorted) graph.goal
  rw [dependsOn_of_perm sorted] at ofSorted
  exact ⟨fun h => ofSorted.mp (h.of_perm sorted), fun h => (ofSorted.mpr h).of_perm sorted.symm⟩

def replyNode (id : String) (dependsOn : List String) : Json Unit :=
  .obj [(js "id", .str (js id)), (js "depends_on", .arr (dependsOn.map fun dep => .str (js dep)))]

/-- Five nodes, of which the first two list each other. -/
def circularReply : Json Unit :=
  .obj [(js "nodes", .arr [replyNode "a" ["b"], replyNode "b" ["a"], replyNode "c" ["b"],
    replyNode "d" ["c"], replyNode "e" ["d"]])]

theorem circular_reply_unsound :
    let graph := normalizeGraph circularReply [] 5 8
    ¬ WavesSound graph.nodes (workflowWaves { graph with nodes := topoSort graph.nodes }) := by
  intro graph sound
  have earlier : ¬ ∀ node ∈ graph.nodes, ∀ dep ∈ node.dependsOn,
      ∃ first ∈ workflowWaves { graph with nodes := topoSort graph.nodes },
        ∃ later ∈ workflowWaves { graph with nodes := topoSort graph.nodes },
          dep ∈ first.ids ∧ node.id ∈ later.ids ∧ first.wave < later.wave := by decide
  exact earlier sound.earlier

end Ultrathink.Guarantees.WorkflowWaves
