import Ultrathink.Library.Acyclic
import Ultrathink.Source.Think.Graph

/-!
# What `topoSort` computes

For nodes with different ids that depend on each other only. The loop keeps, for each node, the
number of its dependencies that are not placed yet; a node is queued when that number falls to
zero.
-/

namespace Ultrathink.Source.Think.Graph

open List Library JsText

/-- Ids are there, differ, and are all that `dependsOn` names. -/
structure Closed (nodes : List ThoughtNode) : Prop where
  nodup : (nodes.map (·.id)).Nodup
  named : ∀ node ∈ nodes, node.id ≠ []
  deps : ∀ node ∈ nodes, ∀ dep ∈ node.dependsOn, dep ∈ nodes.map (·.id)

/-- The node of id `a` lists the id `b`. -/
def DependsOn (nodes : List ThoughtNode) (a b : Text) : Prop :=
  ∃ node ∈ nodes, node.id = a ∧ b ∈ node.dependsOn

theorem nodesById_spec (refs : List NodeRef) (m : OrderedMap Text NodeRef)
    (distinct : (refs.map fun ref => ref.1.id).Nodup) :
    (∀ ref ∈ refs, (refs.foldl (fun m ref => m.set ref.1.id ref) m).get? ref.1.id = some ref) ∧
      ∀ key, key ∉ refs.map (fun ref => ref.1.id) →
        (refs.foldl (fun m ref => m.set ref.1.id ref) m).get? key = m.get? key := by
  induction refs generalizing m with
  | nil => simp
  | cons first rest ih =>
    simp only [map_cons, nodup_cons] at distinct
    obtain ⟨found, others⟩ := ih (m.set first.1.id first) distinct.2
    refine ⟨fun ref mem => ?_, fun key absent => ?_⟩
    · rcases mem_cons.mp mem with rfl | later
      · rw [foldl_cons, others _ distinct.1, OrderedMap.get?_set_self]
      · exact found ref later
    · simp only [map_cons, mem_cons, not_or] at absent
      rw [foldl_cons, others key absent.2, OrderedMap.get?_set_of_ne _ _ absent.1]

theorem ids_zipIdx (nodes : List ThoughtNode) :
    nodes.zipIdx.map (fun ref => ref.1.id) = nodes.map (·.id) := by
  rw [← zipIdx_map_fst 0 nodes, map_map, zipIdx_map_fst]
  rfl

theorem nodesById_get? {nodes : List ThoughtNode} (distinct : (nodes.map (·.id)).Nodup)
    (id : Text) (ref : NodeRef) :
    (nodesById nodes.zipIdx).get? id = some ref ↔ ref ∈ nodes.zipIdx ∧ ref.1.id = id := by
  obtain ⟨found, others⟩ := nodesById_spec nodes.zipIdx .empty (by rwa [ids_zipIdx])
  constructor
  · intro held
    by_cases mem : id ∈ nodes.zipIdx.map (fun ref => ref.1.id)
    · obtain ⟨ref', mem', rfl⟩ := mem_map.mp mem
      have same : some ref' = some ref := (found ref' mem').symm.trans held
      cases same
      exact ⟨mem', rfl⟩
    · have absent := others id mem
      rw [nodesById, absent] at held
      cases held
  · rintro ⟨mem, rfl⟩
    exact found ref mem

/-- Every dependency as a pair of a node and a listed id. -/
def dependencies (nodes : List ThoughtNode) : List (ThoughtNode × Text) :=
  nodes.flatMap fun node => node.dependsOn.map fun dep => (node, dep)

theorem mem_dependencies {nodes : List ThoughtNode} {node : ThoughtNode} {dep : Text} :
    (node, dep) ∈ dependencies nodes ↔ node ∈ nodes ∧ dep ∈ node.dependsOn := by
  simp [dependencies, and_comm]

theorem countEdges_eq (byId : OrderedMap Text NodeRef) (nodes : List ThoughtNode) :
    countEdges byId nodes =
      (dependencies nodes).foldl (fun e pair => addEdge byId pair.1 e pair.2) (noEdges nodes) := by
  rw [countEdges, dependencies, foldl_flatMap]
  simp only [foldl_map]

/-- After the pairs, each count has grown by the pairs of its node and each list by
the nodes of its dependency. -/
theorem addEdges_spec {byId : OrderedMap Text NodeRef} (pairs : List (ThoughtNode × Text))
    (known : ∀ pair ∈ pairs, byId.contains pair.2) (e : Edges) (ids : List Text)
    (counted : ∀ id ∈ ids, (e.incoming.get? id).isSome) (inside : ∀ pair ∈ pairs, pair.1.id ∈ ids) :
    let after := pairs.foldl (fun e pair => addEdge byId pair.1 e pair.2) e
    (∀ id count, e.incoming.get? id = some count →
      after.incoming.get? id = some (count + (pairs.countP (fun pair => pair.1.id = id) : Int))) ∧
    ∀ id list, e.children.get? id = some list →
      after.children.get? id = some (list ++ (pairs.filter (fun pair => pair.2 = id)).map (·.1.id)) := by
  induction pairs generalizing e with
  | nil => exact ⟨fun id count found => by simpa using found, fun id list found => by simpa using found⟩
  | cons pair rest ih =>
    have present := known pair mem_cons_self
    have mem := inside pair mem_cons_self
    obtain ⟨old, foundOld⟩ := Option.isSome_iff_exists.mp (counted _ mem)
    have step : addEdge byId pair.1 e pair.2 =
        { incoming := e.incoming.set pair.1.id (old + 1)
          children := e.children.modify pair.2 (fun list => list ++ [pair.1.id]) } := by
      rw [addEdge, if_pos present, foundOld, Option.getD_some]
    have stillCounted : ∀ id ∈ ids, ((addEdge byId pair.1 e pair.2).incoming.get? id).isSome := by
      intro id h
      rw [step, OrderedMap.get?_set]
      split
      · rfl
      · exact counted id h
    obtain ⟨counts, lists⟩ := ih (fun p h => known p (mem_cons_of_mem _ h)) _ stillCounted
      (fun p h => inside p (mem_cons_of_mem _ h))
    refine ⟨fun id count found => ?_, fun id list found => ?_⟩
    · by_cases same : pair.1.id = id
      · subst same
        obtain rfl : old = count := Option.some.inj (foundOld.symm.trans found)
        rw [foldl_cons, counts pair.1.id (old + 1) (by rw [step, OrderedMap.get?_set_self]),
          countP_cons_of_pos (by simp)]
        congr 1
        omega
      · rw [foldl_cons, counts id count (by
          rw [step, OrderedMap.get?_set_of_ne _ _ (Ne.symm same), found]),
          countP_cons_of_neg (by simpa using same)]
    · by_cases same : pair.2 = id
      · subst same
        rw [foldl_cons, lists pair.2 (list ++ [pair.1.id]) (by
          rw [step, OrderedMap.get?_modify, if_pos rfl, found, Option.map_some]),
          filter_cons_of_pos (by simp), map_cons, append_assoc, singleton_append]
      · rw [foldl_cons, lists id list (by
          rw [step, OrderedMap.get?_modify, if_neg (Ne.symm same), found]),
          filter_cons_of_neg (by simpa using same)]

theorem noEdges_get? (nodes : List ThoughtNode) :
    ∀ id ∈ nodes.map (·.id),
      (noEdges nodes).incoming.get? id = some 0 ∧ (noEdges nodes).children.get? id = some [] := by
  have sweep : ∀ {β : Type} (rest : List ThoughtNode) (m : OrderedMap Text β) (b : β) (id : Text),
      (m.get? id = some b ∨ id ∈ rest.map (·.id)) →
        (rest.foldl (fun m node => m.set node.id b) m).get? id = some b := by
    intro β rest m b id held
    induction rest generalizing m with
    | nil => exact held.resolve_right (by simp)
    | cons node rest ih =>
      refine ih (m.set node.id b) ?_
      by_cases same : id = node.id
      · exact Or.inl (by rw [OrderedMap.get?_set, if_pos same])
      · rw [OrderedMap.get?_set_of_ne _ _ same]
        exact held.imp_right fun mem => (mem_cons.mp mem).resolve_left same
  exact fun id mem => ⟨sweep nodes .empty 0 id (Or.inr mem), sweep nodes .empty [] id (Or.inr mem)⟩

/-- The children of a placed node lose one each time they are listed; those that
reach zero are queued, once each. -/
theorem relaxAll_spec (list : List Text) (s : TopoState)
    (enough : ∀ id ∈ list, ∃ count, s.incoming.get? id = some count ∧ (list.count id : Int) ≤ count) :
    (∀ id count, s.incoming.get? id = some count →
      (list.foldl relax s).incoming.get? id = some (count - (list.count id : Int))) ∧
    (list.foldl relax s).ordered = s.ordered ∧
    ∃ freed, (list.foldl relax s).queue = s.queue ++ freed ∧ freed.Nodup ∧
      ∀ id, id ∈ freed ↔ id ∈ list ∧ s.incoming.get? id = some (list.count id : Int) := by
  induction list generalizing s with
  | nil => exact ⟨fun id count found => by simpa using found, rfl, [], by simp, nodup_nil, by simp⟩
  | cons child rest ih =>
    obtain ⟨old, foundOld, oldEnough⟩ := enough child mem_cons_self
    rw [count_cons_self] at oldEnough
    push_cast at oldEnough
    have step : (relax s child).incoming = s.incoming.set child (old - 1) := by
      simp only [relax, foundOld, Option.getD_some]
    have restEnough : ∀ id ∈ rest, ∃ count, (relax s child).incoming.get? id = some count ∧
        (rest.count id : Int) ≤ count := by
      intro id mem
      obtain ⟨count, found, le⟩ := enough id (mem_cons_of_mem _ mem)
      by_cases same : id = child
      · subst same
        exact ⟨old - 1, by rw [step, OrderedMap.get?_set_self], by omega⟩
      · rw [count_cons_of_ne (Ne.symm same)] at le
        exact ⟨count, by rw [step, OrderedMap.get?_set_of_ne _ _ same, found], le⟩
    obtain ⟨counts, ordered, freed, queue, distinct, members⟩ := ih (relax s child) restEnough
    refine ⟨fun id count found => ?_, ordered, (if old - 1 = 0 then [child] else []) ++ freed, ?_, ?_,
      fun id => ?_⟩
    · by_cases same : id = child
      · subst same
        obtain rfl : old = count := Option.some.inj (foundOld.symm.trans found)
        rw [foldl_cons, counts id (old - 1) (by rw [step, OrderedMap.get?_set_self]),
          count_cons_self]
        congr 1
        omega
      · rw [foldl_cons, counts id count (by
          rw [step, OrderedMap.get?_set_of_ne _ _ same, found]), count_cons_of_ne (Ne.symm same)]
    · rw [foldl_cons, queue]
      simp only [relax, foundOld, Option.getD_some]
      split <;> simp
    · split
      · rename_i zero
        have last : child ∉ rest := by
          rw [← count_eq_zero]
          omega
        rw [singleton_append, nodup_cons]
        exact ⟨fun mem => last ((members child).mp mem).1, distinct⟩
      · exact distinct
    · rw [mem_append, members]
      by_cases same : id = child
      · subst same
        rw [step, OrderedMap.get?_set_self, foundOld, count_cons_self, Option.some.injEq,
          Option.some.injEq]
        split
        · exact ⟨fun _ => ⟨mem_cons_self, by omega⟩, fun _ => Or.inl (by simp)⟩
        · refine ⟨fun h => ⟨mem_cons_self, ?_⟩, fun h => Or.inr ⟨?_, by omega⟩⟩
          · obtain ⟨-, left⟩ := h.resolve_left (by simp)
            omega
          · rw [← count_pos_iff]
            omega
      · rw [step, OrderedMap.get?_set_of_ne _ _ same, count_cons_of_ne (Ne.symm same)]
        split <;> simp [same]

/-- What has been placed. -/
def TopoState.done (s : TopoState) : List Text := s.ordered.map (·.1.id)

/-- The dependencies of a node that are not placed yet. -/
def waiting (nodes : List ThoughtNode) (done : List Text) (id : Text) : Nat :=
  (dependencies nodes).countP fun pair => pair.1.id = id ∧ pair.2 ∉ done

theorem waiting_eq_zero {nodes : List ThoughtNode} {done : List Text} {id : Text} :
    waiting nodes done id = 0 ↔ ∀ dep, DependsOn nodes id dep → dep ∈ done := by
  rw [waiting, countP_eq_zero]
  constructor
  · rintro none dep ⟨node, mem, rfl, listed⟩
    by_contra missing
    exact none (node, dep) (mem_dependencies.mpr ⟨mem, listed⟩) (by simp [missing])
  · rintro all ⟨node, dep⟩ mem
    obtain ⟨mem, listed⟩ := mem_dependencies.mp mem
    simp only [decide_eq_true_eq, not_and, not_not]
    rintro rfl
    exact all dep ⟨node, mem, rfl, listed⟩

theorem waiting_place {nodes : List ThoughtNode} {done : List Text} {placed : Text}
    (new : placed ∉ done) (id : Text) :
    waiting nodes done id = waiting nodes (done ++ [placed]) id +
      (((dependencies nodes).filter fun pair => pair.2 = placed).map (·.1.id)).count id := by
  unfold waiting
  induction dependencies nodes with
  | nil => rfl
  | cons pair rest ih =>
    by_cases here : pair.2 = placed
    · rw [filter_cons_of_pos (by simpa using here), map_cons, count_cons,
        countP_cons, countP_cons, ih]
      have out : pair.2 ∉ done := here ▸ new
      by_cases owner : pair.1.id = id
      · simp [here, new, owner]
        omega
      · simp [owner]
    · rw [filter_cons_of_neg (by simpa using here), countP_cons, countP_cons, ih]
      by_cases owner : pair.1.id = id
      · by_cases out : pair.2 ∈ done
        · simp [out]
        · simp [owner, out, here]
          omega
      · simp [owner]

/-- The state of the loop between two turns. -/
structure Turning (nodes : List ThoughtNode) (s : TopoState) : Prop where
  counts : ∀ id ∈ nodes.map (·.id), s.incoming.get? id = some (waiting nodes s.done id : Int)
  distinct : (s.done ++ s.queue).Nodup
  inside : ∀ id ∈ s.done ++ s.queue, id ∈ nodes.map (·.id)
  free : ∀ id ∈ nodes.map (·.id), id ∈ s.done ++ s.queue ↔ waiting nodes s.done id = 0
  objects : ∀ ref ∈ s.ordered, ref ∈ nodes.zipIdx
  order : ∀ before ref after, s.ordered = before ++ ref :: after →
    ∀ dep ∈ ref.1.dependsOn, dep ∈ before.map (·.1.id)

section Loop
variable {nodes : List ThoughtNode} (closed : Closed nodes)
include closed

theorem mem_of_dependencies {pair : ThoughtNode × Text} (mem : pair ∈ dependencies nodes) :
    pair.1.id ∈ nodes.map (·.id) ∧ pair.2 ∈ nodes.map (·.id) := by
  obtain ⟨memNode, listed⟩ := mem_dependencies.mp (show (pair.1, pair.2) ∈ _ from mem)
  exact ⟨mem_map.mpr ⟨pair.1, memNode, rfl⟩, closed.deps pair.1 memNode pair.2 listed⟩

theorem countEdges_spec :
    (∀ id ∈ nodes.map (·.id), (countEdges (nodesById nodes.zipIdx) nodes).incoming.get? id =
      some (waiting nodes [] id : Int)) ∧
    ∀ id ∈ nodes.map (·.id), (countEdges (nodesById nodes.zipIdx) nodes).children.get? id =
      some (((dependencies nodes).filter fun pair => pair.2 = id).map (·.1.id)) := by
  have known : ∀ pair ∈ dependencies nodes, (nodesById nodes.zipIdx).contains pair.2 := by
    intro pair mem
    obtain ⟨-, target⟩ := mem_of_dependencies closed mem
    rw [← ids_zipIdx] at target
    obtain ⟨ref, memRef, same⟩ := mem_map.mp target
    exact Option.isSome_iff_exists.mpr
      ⟨ref, (nodesById_get? closed.nodup pair.2 ref).mpr ⟨memRef, same⟩⟩
  obtain ⟨counts, lists⟩ := addEdges_spec (dependencies nodes) known (noEdges nodes)
    (nodes.map (·.id)) (fun id mem => by rw [(noEdges_get? nodes id mem).1]; rfl)
    (fun pair mem => (mem_of_dependencies closed mem).1)
  rw [countEdges_eq]
  refine ⟨fun id mem => ?_, fun id mem => ?_⟩
  · rw [counts id 0 (noEdges_get? nodes id mem).1]
    simp [waiting]
  · rw [lists id [] (noEdges_get? nodes id mem).2, nil_append]

theorem turning_start :
    Turning nodes (topoStart nodes (countEdges (nodesById nodes.zipIdx) nodes).incoming) := by
  obtain ⟨counts, -⟩ := countEdges_spec closed
  have zero : ∀ node ∈ nodes,
      (((countEdges (nodesById nodes.zipIdx) nodes).incoming.get? node.id).getD 0 = 0 ↔
        waiting nodes [] node.id = 0) := by
    intro node mem
    rw [counts node.id (mem_map.mpr ⟨node, mem, rfl⟩), Option.getD_some]
    exact Int.natCast_eq_zero
  refine ⟨counts, ?_, ?_, ?_, by simp [topoStart], by simp [topoStart]⟩
  · exact closed.nodup.sublist (filter_sublist.map _)
  · intro id mem
    obtain ⟨node, kept, rfl⟩ := mem_map.mp mem
    exact mem_map.mpr ⟨node, (mem_filter.mp kept).1, rfl⟩
  · intro id mem
    obtain ⟨node, memNode, rfl⟩ := mem_map.mp mem
    change node.id ∈ (nodes.filter _).map (·.id) ↔ waiting nodes [] node.id = 0
    rw [← zero node memNode]
    constructor
    · intro queued
      obtain ⟨other, kept, same⟩ := mem_map.mp queued
      rw [← same]
      exact of_decide_eq_true (mem_filter.mp kept).2
    · exact fun none => mem_map.mpr
        ⟨node, mem_filter.mpr ⟨memNode, decide_eq_true none⟩, rfl⟩

theorem turning_step {s s' : TopoState} (turning : Turning nodes s)
    (turn : topoStep (nodesById nodes.zipIdx) (countEdges (nodesById nodes.zipIdx) nodes).children s =
      some s') : Turning nodes s' := by
  obtain ⟨-, lists⟩ := countEdges_spec closed
  unfold topoStep at turn
  split at turn
  · cases turn
  rename_i id rest queue
  split at turn
  · cases turn
  have queued : id ∈ s.done ++ s.queue := by simp [queue]
  have mem := turning.inside id queued
  have ready := (turning.free id mem).mp queued
  obtain ⟨ref, memRef, sameId⟩ : ∃ ref ∈ nodes.zipIdx, ref.1.id = id := by
    rw [← ids_zipIdx] at mem
    exact mem_map.mp mem
  have found := (nodesById_get? closed.nodup id ref).mpr ⟨memRef, sameId⟩
  have fresh : id ∉ s.done := by
    have distinct := turning.distinct
    rw [queue, nodup_append] at distinct
    exact fun held => distinct.2.2 id held id mem_cons_self rfl
  rw [found, lists id mem, Option.getD_some] at turn
  obtain ⟨counts, ordered, freed, queue', freedDistinct, freedMembers⟩ := relaxAll_spec
    (((dependencies nodes).filter fun pair => pair.2 = id).map (·.1.id))
    { s with queue := rest, ordered := s.ordered ++ [ref] } (by
      intro child memChild
      obtain ⟨pair, kept, rfl⟩ := mem_map.mp memChild
      have inside := (mem_of_dependencies closed (mem_filter.mp kept).1).1
      refine ⟨_, turning.counts _ inside, ?_⟩
      have split : waiting nodes s.done _ = _ + _ := waiting_place fresh pair.1.id
      omega)
  cases turn
  have done' : (List.foldl relax { s with queue := rest, ordered := s.ordered ++ [ref] }
      (((dependencies nodes).filter fun pair => pair.2 = id).map (·.1.id))).done = s.done ++ [id] := by
    rw [TopoState.done, ordered, map_append, map_singleton, sameId]
    rfl
  have split := fun other => @waiting_place nodes s.done id fresh other
  have members : ∀ other ∈ nodes.map (·.id), other ∈ freed ↔
      waiting nodes (s.done ++ [id]) other = 0 ∧ waiting nodes s.done other ≠ 0 := by
    intro other memOther
    have parts := split other
    rw [freedMembers, turning.counts other memOther, ← count_pos_iff, Option.some.injEq]
    omega
  have stays : s.done ++ [id] ++ (rest ++ freed) = s.done ++ s.queue ++ freed := by
    rw [queue]
    simp
  refine ⟨fun other memOther => ?_, ?_, ?_, ?_, ?_, ?_⟩
  · have parts := split other
    rw [counts other _ (turning.counts other memOther), done']
    congr 1
    omega
  · rw [done', queue', stays, nodup_append]
    refine ⟨turning.distinct, freedDistinct, ?_⟩
    rintro other old _ new rfl
    have inside := turning.inside other old
    exact ((members other inside).mp new).2 ((turning.free other inside).mp old)
  · rw [done', queue', stays]
    intro other held
    rcases mem_append.mp held with old | new
    · exact turning.inside other old
    · obtain ⟨pair, kept, rfl⟩ := mem_map.mp ((freedMembers other).mp new).1
      exact (mem_of_dependencies closed (mem_filter.mp kept).1).1
  · intro other memOther
    have parts := split other
    rw [done', queue', stays, mem_append, turning.free other memOther, members other memOther]
    omega
  · rw [ordered]
    intro other held
    rcases mem_append.mp held with old | new
    · exact turning.objects other old
    · rw [mem_singleton.mp new]
      exact memRef
  · rw [ordered]
    intro before other after eq dep listed
    rcases eq_nil_or_concat after with rfl | ⟨more, last, rfl⟩
    · obtain ⟨rfl, same⟩ := append_inj' eq rfl
      cases same
      have memNode := mem_of_getElem? (mem_zipIdx_iff_getElem?.mp memRef)
      exact waiting_eq_zero.mp ready dep ⟨ref.1, memNode, sameId, listed⟩
    · have whole : s.ordered ++ [ref] = (before ++ other :: more) ++ [last] := by simpa using eq
      exact turning.order before other more (append_inj' whole rfl).1 dep listed

theorem turning_loop (turns : Nat) {s : TopoState} (turning : Turning nodes s) :
    Turning nodes (topoLoop (nodesById nodes.zipIdx)
      (countEdges (nodesById nodes.zipIdx) nodes).children turns s) := by
  induction turns generalizing s with
  | zero => exact turning
  | succ turns ih =>
    unfold topoLoop
    split
    · exact turning
    · rename_i s' turn
      exact ih (turning_step closed turning turn)

/-- The loop's last state. -/
def topoEnd (nodes : List ThoughtNode) : TopoState :=
  let edges := countEdges (nodesById nodes.zipIdx) nodes
  topoLoop (nodesById nodes.zipIdx) edges.children nodes.length (topoStart nodes edges.incoming)

theorem turning_end : Turning nodes (topoEnd nodes) := turning_loop closed _ (turning_start closed)

theorem topoEnd_queue : (topoEnd nodes).queue = [] := by
  have done := topoLoop_done nodes
  have turning := turning_end closed
  change topoStep _ _ (topoEnd nodes) = none at done
  unfold topoStep at done
  split at done
  · assumption
  · rename_i id rest queue
    split at done
    · rename_i unnamed
      obtain ⟨node, mem, same⟩ := mem_map.mp (turning.inside id (by simp [queue]))
      exact absurd (same.trans unnamed) (closed.named node mem)
    · cases done

theorem topoSort_perm : (topoSort nodes).Perm nodes := by
  have turning := turning_end closed
  have ids : (nodes.zipIdx.map fun ref => ref.1.id).Nodup := by
    rw [ids_zipIdx]
    exact closed.nodup
  have refsNodup := ids.of_map
  have orderedNodup : (topoEnd nodes).ordered.Nodup :=
    (nodup_append.mp turning.distinct).1.of_map
  have apart : ∀ ref ∈ (topoEnd nodes).ordered, ∀ other ∈ nodes.zipIdx, ref.2 = other.2 → ref = other := by
    intro ref memRef other memOther same
    have here := mem_zipIdx_iff_getElem?.mp (turning.objects ref memRef)
    have there := mem_zipIdx_iff_getElem?.mp memOther
    rw [same, there] at here
    exact Prod.ext (Option.some.inj here).symm same
  have perm : ((topoEnd nodes).ordered ++ nodes.zipIdx.filter fun ref =>
      ref.2 ∉ (topoEnd nodes).ordered.map Prod.snd).Perm nodes.zipIdx := by
    refine (perm_ext_iff_of_nodup ?_ refsNodup).mpr fun ref => ?_
    · rw [nodup_append]
      refine ⟨orderedNodup, refsNodup.filter _, ?_⟩
      rintro ref memRef _ left rfl
      have out := of_decide_eq_true (mem_filter.mp left).2
      exact out (mem_map.mpr ⟨ref, memRef, rfl⟩)
    · rw [mem_append, mem_filter, decide_eq_true_eq]
      constructor
      · exact fun h => h.elim (turning.objects ref) (·.1)
      · intro mem
        by_cases placed : ref.2 ∈ (topoEnd nodes).ordered.map Prod.snd
        · obtain ⟨other, memOther, same⟩ := mem_map.mp placed
          exact Or.inl (apart other memOther ref mem same ▸ memOther)
        · exact Or.inr ⟨mem, placed⟩
  have sorted := perm.map Prod.fst
  rwa [zipIdx_map_fst] at sorted

theorem topoSort_order (acyclic : Acyclic (DependsOn nodes)) :
    ∀ before node after, topoSort nodes = before ++ node :: after →
      ∀ dep ∈ node.dependsOn, dep ∈ before.map (·.id) := by
  have turning := turning_end closed
  have empty := topoEnd_queue closed
  have all : ∀ id ∈ nodes.map (·.id), id ∈ (topoEnd nodes).done := by
    refine acyclic.induction (nodes.map (·.id)) fun id mem placed => ?_
    have ready : waiting nodes (topoEnd nodes).done id = 0 := by
      refine waiting_eq_zero.mpr fun dep need => placed dep ?_ need
      obtain ⟨node, memNode, -, listed⟩ := need
      exact closed.deps node memNode dep listed
    have placed := (turning.free id mem).mpr ready
    rwa [empty, append_nil] at placed
  have none_left : (nodes.zipIdx.filter fun ref =>
      ref.2 ∉ (topoEnd nodes).ordered.map Prod.snd) = [] := by
    rw [filter_eq_nil_iff]
    intro ref mem
    simp only [decide_eq_true_eq, not_not]
    have memId : ref.1.id ∈ nodes.map (·.id) := by
      rw [← ids_zipIdx]
      exact mem_map.mpr ⟨ref, mem, rfl⟩
    obtain ⟨other, memOther, same⟩ := mem_map.mp (all _ memId)
    have ids : (nodes.zipIdx.map fun ref => ref.1.id).Nodup := by
      rw [ids_zipIdx]
      exact closed.nodup
    obtain rfl := inj_on_of_nodup_map ids (turning.objects other memOther) mem same
    exact mem_map.mpr ⟨other, memOther, rfl⟩
  have whole : topoSort nodes = (topoEnd nodes).ordered.map Prod.fst := by
    change ((topoEnd nodes).ordered ++ nodes.zipIdx.filter fun ref =>
      ref.2 ∉ (topoEnd nodes).ordered.map Prod.snd).map Prod.fst = _
    rw [none_left, append_nil]
  intro before node after eq dep listed
  rw [whole] at eq
  obtain ⟨first, rest, split, rfl, tail⟩ := map_eq_append_iff.mp eq
  obtain ⟨ref, more, rfl, rfl, -⟩ := map_eq_cons_iff.mp tail
  have inOrder := turning.order first ref more split dep listed
  rwa [map_map]

end Loop

end Ultrathink.Source.Think.Graph
