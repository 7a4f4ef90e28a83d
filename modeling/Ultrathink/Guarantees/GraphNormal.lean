import Ultrathink.Guarantees.WorkflowWaves

/-!
# What normalization keeps of a reply

Every object entry becomes a node but for one with a valid id that an earlier entry has and those
beyond the cap. The first pass is followed entry by entry: the nodes read so far are made from
the usable entries before it, and a name that was replaced leads to the first node it was
replaced in.
-/

namespace Ultrathink.Guarantees.GraphNormal

open List Library JsText Source.Think.Graph WorkflowWaves

variable {ν : Type}

/-- A valid id that an earlier entry has. -/
def repeats (source : List (Json ν)) (entry : Json ν) (index : Nat) : Bool :=
  isNodeId (rawId entry) &&
    (source.take index).any fun earlier => isObject earlier && decide (rawId earlier = rawId entry)

def isUsable (source : List (Json ν)) (entry : Json ν × Nat) : Bool :=
  isObject entry.1 && !repeats source entry.1 entry.2

/-- The object entries that repeat no id, with their places. -/
def usable (source : List (Json ν)) : List (Json ν × Nat) := source.zipIdx.filter (isUsable source)

/-- Different ids of the grammar, dependencies among them, and a closing synthesis. -/
structure GoodGraph (nodes : List ThoughtNode) : Prop where
  ids : (nodes.map (·.id)).Nodup
  grammar : ∀ node ∈ nodes, isNodeId node.id = true
  known : ∀ node ∈ nodes, ∀ dep ∈ node.dependsOn, dep ∈ nodes.map (·.id) ∧ dep ≠ node.id
  last : ∃ front final, nodes = front ++ [final] ∧ final.kind = .synthesize

/-- The nodes are those of the usable entries, up to the cap. -/
structure FromReply (source : List (Json ν)) (maxNodes : Nat) (nodes : List ThoughtNode) : Prop where
  count : nodes.length ≤ maxNodes
  kept : nodes.length = ((usable source).take maxNodes).length
  own : ∀ (p : Nat) (entry : Json ν × Nat) (node : ThoughtNode),
    ((usable source).take maxNodes)[p]? = some entry → nodes[p]? = some node →
      isNodeId (rawId entry.1) = true → node.id = rawId entry.1
  /-- A listed name that was replaced leads to the first entry that carried it. -/
  references : ∀ (p q : Nat) (entry target : Json ν × Nat) (node targetNode : ThoughtNode),
    ((usable source).take maxNodes)[p]? = some entry →
    ((usable source).take maxNodes)[q]? = some target →
    nodes[p]? = some node → nodes[q]? = some targetNode → p ≠ q →
    ∀ items, property entry.1 "depends_on" = some (.arr items) →
    ∀ name, Json.str name ∈ items → trim name = rawId target.1 → rawId target.1 ≠ [] →
      isNodeId (rawId target.1) = false →
      (∀ earlier ∈ source.take target.2, isObject earlier = true → rawId earlier ≠ rawId target.1) →
      targetNode.id ∈ node.dependsOn

theorem freshFrom_positional (taken : List Text) (turns k : Nat) :
    ∃ j ≤ turns, freshFrom taken turns k = positionalId (k + j) := by
  induction turns generalizing k with
  | zero => exact ⟨0, Nat.le_refl 0, rfl⟩
  | succ turns ih =>
    unfold freshFrom
    split
    · obtain ⟨j, le, same⟩ := ih (k + 1)
      refine ⟨j + 1, by omega, ?_⟩
      rw [same, show k + 1 + j = k + (j + 1) by omega]
    · exact ⟨0, by omega, rfl⟩

theorem prototypeNames_head : ∀ name ∈ prototypeNames, name.head? ≠ some 0x6E := by
  decide +kernel

theorem isNodeId_positional {k : Nat} (small : k < 10 ^ 63) : isNodeId (positionalId k) = true := by
  have shape : positionalId k = 0x6E :: JsNumber.digits k := by
    rw [positionalId, JsNumber.ofNat_eq_digits]
    rfl
  have short := @JsNumber.digits_length_le k 62 small
  have units : (JsNumber.digits k).all (fun u => isWord u || u = 0x2D) = true := by
    rw [all_eq_true]
    intro u mem
    have digit := JsNumber.isDigit_of_mem_digits k u mem
    simp [isWord, digit]
  have ordinary : positionalId k ∉ prototypeNames := by
    intro mem
    apply prototypeNames_head _ mem
    rw [shape]
    rfl
  simp only [isNodeId, Bool.and_eq_true, decide_eq_true_eq]
  refine ⟨⟨⟨?_, ?_⟩, ?_⟩, ordinary⟩
  · rw [shape]
    exact Nat.succ_le_succ (Nat.zero_le _)
  · rw [shape, length_cons]
    omega
  · rw [shape, all_cons, units]
    rfl

/-- The node of an entry: under its own id, or a positional one that no entry wrote. -/
structure Made (source : List (Json ν)) (entry : Json ν × Nat) (node : ThoughtNode) : Prop where
  built : node = nodeOf entry.1 node.id entry.2
  object : isObject entry.1 = true
  own : isNodeId (rawId entry.1) = true → node.id = rawId entry.1
  positional : isNodeId (rawId entry.1) = false →
    node.id ∉ reservedIds source ∧ ∃ k ≤ 3 * source.length, node.id = positionalId k

/-- The name of the entry was replaced. -/
def replaces (name : Text) (pair : (Json ν × Nat) × ThoughtNode) : Bool :=
  rawId pair.1.1 = name && name ≠ [] && name ≠ pair.2.id

/-- What was read is made from the entries of `done`. -/
structure Progress (source : List (Json ν)) (done : List (Json ν × Nat)) (r : Reading) : Prop where
  made : List.Forall₂ (Made source) done r.nodes
  well : ReadWell r
  renamed : ∀ name, r.renamed.get? name =
    ((done.zip r.nodes).find? (replaces name)).map (fun pair => pair.2.id)

variable {source : List (Json ν)} {maxNodes : Nat} {r : Reading} {entry : Json ν}
  {done : List (Json ν × Nat)} {α : Type} {node : ThoughtNode}

theorem reserved_of_mem (mem : entry ∈ source) (valid : isNodeId (rawId entry) = true) :
    rawId entry ∈ reservedIds source :=
  mem_filter.mpr ⟨mem_map_of_mem mem, valid⟩

theorem reservedIds_length (source : List (Json ν)) : (reservedIds source).length ≤ source.length := by
  have le := length_filter_le isNodeId (source.map rawId)
  rwa [List.length_map] at le

theorem Progress.length (progress : Progress source done r) : r.nodes.length = done.length :=
  progress.made.length_eq.symm

theorem Progress.seen_length (progress : Progress source done r) : r.seen.length = done.length := by
  rw [progress.well.seen, Reading.ids, List.length_map, progress.length]

theorem forall₂_right {β : Type} {R : α → β → Prop} {xs : List α} {ys : List β}
    (related : List.Forall₂ R xs ys) {y : β} (mem : y ∈ ys) : ∃ x ∈ xs, R x y := by
  induction related with
  | nil => cases mem
  | cons head _ ih =>
    rcases mem_cons.mp mem with rfl | mem
    · exact ⟨_, mem_cons_self, head⟩
    · obtain ⟨x, memX, rel⟩ := ih mem
      exact ⟨x, mem_cons_of_mem _ memX, rel⟩

theorem seen_iff {before rest : List (Json ν)} (whole : source = before ++ entry :: rest)
    (progress : Progress source (before.zipIdx.filter (isUsable source)) r)
    (covers : ∀ earlier ∈ before, isObject earlier = true → isNodeId (rawId earlier) = true →
      rawId earlier ∈ r.seen) :
    idOf (reservedIds source) r entry before.length ∈ r.seen ↔
      repeats source entry before.length = true := by
  have mem : entry ∈ source := by
    rw [whole]
    exact mem_append_right _ mem_cons_self
  have prefix_ : source.take before.length = before := by
    rw [whole]
    exact take_left
  unfold idOf repeats
  rw [prefix_]
  cases valid : isNodeId (rawId entry) with
  | false =>
    have free := freshId_free (reservedIds source ++ r.seen) before.length
    simp only [Bool.false_eq_true, if_false, Bool.false_and, iff_false]
    exact fun used => free (mem_append_right _ used)
  | true =>
    simp only [if_true, Bool.true_and, any_eq_true, Bool.and_eq_true, decide_eq_true_eq]
    constructor
    · intro used
      rw [progress.well.seen] at used
      obtain ⟨node, memNode, same⟩ := mem_map.mp used
      obtain ⟨⟨earlier, index⟩, memDone, made⟩ := forall₂_right progress.made memNode
      have memBefore : earlier ∈ before :=
        (mem_zipIdx' (mem_filter.mp memDone).1).2 ▸ getElem_mem _
      cases own : isNodeId (rawId earlier) with
      | true => exact ⟨earlier, memBefore, made.object, (made.own own).symm.trans same⟩
      | false =>
        have unreserved := (made.positional own).1
        rw [same] at unreserved
        exact absurd (reserved_of_mem mem valid) unreserved
    · rintro ⟨earlier, memEarlier, object, same⟩
      rw [← same]
      exact covers earlier memEarlier object (same ▸ valid)

theorem find?_append_one (p : α → Bool) (xs : List α) (x : α) :
    (xs ++ [x]).find? p = (xs.find? p).or (if p x then some x else none) := by
  rw [find?_append, find?_singleton]

theorem takeEntry_renamed (r : Reading) (entry : Json ν) (id : Text) (index : Nat) (name : Text) :
    (takeEntry r entry id index).renamed.get? name = (r.renamed.get? name).or
      (if replaces name ((entry, index), nodeOf entry id index) then some id else none) := by
  have test : replaces name ((entry, index), nodeOf entry id index) =
      (decide (rawId entry = name) && decide (name ≠ []) && decide (name ≠ id)) := rfl
  rw [test]
  unfold takeEntry OrderedMap.contains
  dsimp only
  by_cases same : rawId entry = name
  · subst same
    simp only [decide_true, Bool.true_and, Bool.and_eq_true, decide_eq_true_eq]
    by_cases replaced : rawId entry ≠ [] ∧ rawId entry ≠ id
    · cases known : r.renamed.get? (rawId entry) with
      | some other => simp [known]
      | none => simp [replaced.1, replaced.2]
    · rw [if_neg replaced, if_neg (fun h => replaced ⟨h.1, h.2.1⟩), Option.or_none]
  · have other : name ≠ rawId entry := fun h => same h.symm
    simp only [same, decide_false, Bool.false_and, Bool.false_eq_true, if_false, Option.or_none]
    split
    · rw [OrderedMap.get?_set_of_ne _ _ other]
    · rfl

theorem Progress.take (progress : Progress source done r) {index : Nat}
    (object : isObject entry = true) (place : index < source.length) (few : done.length ≤ index)
    (new : idOf (reservedIds source) r entry index ∉ r.seen) :
    Progress source (done ++ [(entry, index)])
      (takeEntry r entry (idOf (reservedIds source) r entry index) index) := by
  have made : Made source (entry, index)
      (nodeOf entry (idOf (reservedIds source) r entry index) index) := by
    refine ⟨rfl, object, ?_, ?_⟩
    · intro valid
      show idOf .. = _
      rw [idOf, if_pos valid]
    · intro invalid
      have free := freshId_free (reservedIds source ++ r.seen) index
      have same : idOf (reservedIds source) r entry index =
          freshId (reservedIds source ++ r.seen) index := by
        rw [idOf, if_neg (by simp [invalid])]
      show idOf .. ∉ _ ∧ ∃ k ≤ _, idOf .. = _
      rw [same]
      refine ⟨fun used => free (mem_append_left _ used), ?_⟩
      obtain ⟨j, le, shape⟩ := freshFrom_positional (reservedIds source ++ r.seen)
        (reservedIds source ++ r.seen).length (index + 1)
      refine ⟨index + 1 + j, ?_, shape⟩
      have reserved := reservedIds_length source
      rw [length_append, progress.seen_length] at le
      omega
  refine ⟨rel_append progress.made (.cons made .nil), progress.well.take entry index
    (idOf_ne_nil _ r entry index) new, ?_⟩
  intro name
  rw [takeEntry_renamed, progress.renamed name]
  generalize idOf (reservedIds source) r entry index = id
  have zipped : (done ++ [(entry, index)]).zip (takeEntry r entry id index).nodes =
      done.zip r.nodes ++ [((entry, index), nodeOf entry id index)] :=
    zip_append progress.length.symm
  rw [zipped, find?_append_one, Option.map_or]
  split <;> rfl

theorem usable_snoc (source before : List (Json ν)) (entry : Json ν) :
    ((before ++ [entry]).zipIdx.filter (isUsable source)) =
      before.zipIdx.filter (isUsable source) ++
        if isUsable source (entry, before.length) then [(entry, before.length)] else [] := by
  rw [zipIdx_append, filter_append, Nat.zero_add, zipIdx_singleton,
    filter_singleton]
  cases isUsable source (entry, before.length) <;> rfl

/-- The first pass, from the entries behind `before` on: it stops with the usable entries, or with
as many of them as the cap allows. -/
theorem readNodes_progress (rest : List (Json ν)) :
    ∀ (before : List (Json ν)) (r : Reading), source = before ++ rest →
      Progress source (before.zipIdx.filter (isUsable source)) r →
      (∀ earlier ∈ before, isObject earlier = true → isNodeId (rawId earlier) = true →
        rawId earlier ∈ r.seen) → r.nodes.length < maxNodes →
      Progress source ((usable source).take maxNodes)
        (readNodes (reservedIds source) maxNodes (rest.zipIdx before.length) r) := by
  induction rest with
  | nil =>
    intro before r whole progress _ few
    rw [append_nil] at whole
    subst whole
    rw [progress.length] at few
    rw [usable, take_of_length_le (Nat.le_of_lt few)]
    exact progress
  | cons entry rest ih =>
    intro before r whole progress covers few
    have next : source = (before ++ [entry]) ++ rest := by simp [whole]
    have place : before.length < source.length := by simp [whole]
    have step := usable_snoc source before entry
    have index : before.length + 1 = (before ++ [entry]).length := by simp
    rw [zipIdx_cons, readNodes]
    cases object : isObject entry with
    | false =>
      have skipped : isUsable source (entry, before.length) = false := by
        simp [isUsable, object]
      rw [skipped, if_neg Bool.false_ne_true, append_nil] at step
      simp only [Bool.not_false, if_true]
      rw [index]
      apply ih _ r next (step ▸ progress) _ few
      intro earlier mem isObj valid
      rcases mem_append.mp mem with old | last
      · exact covers earlier old isObj valid
      · rw [mem_singleton.mp last, object] at isObj
        cases isObj
    | true =>
      simp only [Bool.not_true, Bool.false_eq_true, if_false]
      have seen := seen_iff whole progress covers
      split
      · next used =>
        have skipped : isUsable source (entry, before.length) = false := by
          simp [isUsable, seen.mp used]
        rw [skipped, if_neg Bool.false_ne_true, append_nil] at step
        rw [index]
        apply ih _ r next (step ▸ progress) _ few
        intro earlier mem isObj valid
        rcases mem_append.mp mem with old | last
        · exact covers earlier old isObj valid
        · rw [mem_singleton.mp last] at valid ⊢
          rw [idOf, if_pos valid] at used
          exact used
      · next new =>
        have unrepeated : repeats source entry before.length = false :=
          Bool.eq_false_iff.mpr fun h => new (seen.mpr h)
        have taken_ : isUsable source (entry, before.length) = true := by
          simp [isUsable, object, unrepeated]
        rw [taken_, if_pos rfl] at step
        have short : (before.zipIdx.filter (isUsable source)).length ≤ before.length := by
          have le := length_filter_le (isUsable source) before.zipIdx
          rwa [length_zipIdx] at le
        have taken := progress.take object place short new
        rw [← step] at taken
        have count : (takeEntry r entry (idOf (reservedIds source) r entry before.length)
            before.length).nodes.length = r.nodes.length + 1 := by
          simp [takeEntry]
        split
        · next full =>
          have front : (usable source).take maxNodes =
              (before ++ [entry]).zipIdx.filter (isUsable source) := by
            have exact_ : ((before ++ [entry]).zipIdx.filter (isUsable source)).length = maxNodes := by
              rw [← taken.length, count]
              omega
            have split_ : usable source = (before ++ [entry]).zipIdx.filter (isUsable source) ++
                (rest.zipIdx (0 + (before ++ [entry]).length)).filter (isUsable source) := by
              rw [usable, ← filter_append, ← zipIdx_append, ← next]
            rw [split_, ← exact_, take_left]
          rw [front]
          exact taken
        · next open_ =>
          rw [index]
          apply ih _ _ next taken _ (by omega)
          intro earlier mem isObj valid
          rcases mem_append.mp mem with old | last
          · exact mem_append_left _ (covers earlier old isObj valid)
          · rw [mem_singleton.mp last] at valid ⊢
            apply mem_append_right
            rw [idOf, if_pos valid]
            exact mem_singleton_self _

theorem readReply_progress (raw : Json ν) (cap : 1 ≤ maxNodes) :
    Progress (sourceNodes raw) ((usable (sourceNodes raw)).take maxNodes) (readReply raw maxNodes) := by
  apply readNodes_progress (sourceNodes raw) [] ⟨[], [], .empty⟩ rfl
  · exact ⟨.nil, ⟨rfl, nodup_nil, by simp [Reading.ids]⟩, fun _ => rfl⟩
  · exact fun earlier mem => absurd mem not_mem_nil
  · exact cap

theorem closeWithSynthesis_get (nodes : List ThoughtNode) :
    ∀ (p : Nat) (node : ThoughtNode), (closeWithSynthesis nodes)[p]? = some node →
      ∃ before, nodes[p]? = some before ∧ node.id = before.id ∧ node.dependsOn = before.dependsOn := by
  induction nodes with
  | nil => exact fun p node at_ => absurd at_ (by simp [closeWithSynthesis])
  | cons first rest ih =>
    intro p node at_
    cases rest with
    | nil =>
      cases p with
      | zero =>
        obtain rfl := Option.some.inj at_
        exact ⟨first, rfl, rfl, rfl⟩
      | succ p => exact absurd at_ (by simp [closeWithSynthesis])
    | cons next more =>
      cases p with
      | zero =>
        obtain rfl := Option.some.inj at_
        exact ⟨first, rfl, rfl, rfl⟩
      | succ p =>
        exact ih p node at_

theorem closeWithSynthesis_last {nodes : List ThoughtNode} (some_ : nodes ≠ []) :
    ∃ front final, closeWithSynthesis nodes = front ++ [final] ∧ final.kind = .synthesize := by
  induction nodes with
  | nil => exact absurd rfl some_
  | cons first rest ih =>
    cases rest with
    | nil => exact ⟨[], { first with kind := .synthesize }, rfl, rfl⟩
    | cons next more =>
      obtain ⟨front, final, shape, kind⟩ := ih (cons_ne_nil _ _)
      exact ⟨first :: front, final, congrArg (first :: ·) shape, kind⟩

theorem length_closeWithSynthesis (nodes : List ThoughtNode) :
    (closeWithSynthesis nodes).length = nodes.length := by
  have same := congrArg List.length (ids_closeWithSynthesis nodes)
  rwa [List.length_map, List.length_map] at same

section Result
variable {source : List (Json ν)} {done : List (Json ν × Nat)} {r : Reading}

/-- The nodes that the second pass leaves. -/
abbrev settled (r : Reading) : List ThoughtNode := closeWithSynthesis (r.nodes.map (resolveNode r))

theorem settled_get {p : Nat} (at_ : (settled r)[p]? = some node) :
    ∃ read, r.nodes[p]? = some read ∧ node.id = read.id ∧
      node.dependsOn = (resolveNode r read).dependsOn := by
  obtain ⟨resolved, atResolved, id, deps⟩ := closeWithSynthesis_get _ p node at_
  rw [List.getElem?_map, Option.map_eq_some_iff] at atResolved
  obtain ⟨read, atRead, rfl⟩ := atResolved
  exact ⟨read, atRead, id, deps⟩

theorem settled_ids : (settled r).map (·.id) = r.ids := by
  rw [ids_closeWithSynthesis, map_map]
  rfl

theorem made_get (progress : Progress source done r) {p : Nat} {entry : Json ν × Nat}
    (atEntry : done[p]? = some entry) (atNode : r.nodes[p]? = some node) :
    Made source entry node := by
  obtain ⟨small, rfl⟩ := List.getElem?_eq_some_iff.mp atEntry
  obtain ⟨small', rfl⟩ := List.getElem?_eq_some_iff.mp atNode
  exact (List.forall₂_iff_get.mp progress.made).2 p small small'

theorem Made.grammar {entry : Json ν × Nat} (made : Made source entry node)
    (array : source.length < 2 ^ 32) : isNodeId node.id = true := by
  cases valid : isNodeId (rawId entry.1) with
  | true => rw [made.own valid, valid]
  | false =>
    obtain ⟨-, k, small, shape⟩ := made.positional valid
    rw [shape]
    apply isNodeId_positional
    calc
      k ≤ 3 * source.length := small
      _ < 10 ^ 63 := by omega

theorem goodGraph (progress : Progress source done r) (array : source.length < 2 ^ 32)
    (some_ : r.nodes ≠ []) : GoodGraph (settled r) := by
  refine ⟨settled_ids ▸ progress.well.nodup, ?_, ?_, closeWithSynthesis_last (by simpa using some_)⟩
  · intro node mem
    obtain ⟨p, at_⟩ := getElem?_of_mem mem
    obtain ⟨read, atRead, id, -⟩ := settled_get at_
    obtain ⟨entry, -, made⟩ := forall₂_right progress.made (List.mem_of_getElem? atRead)
    rw [id]
    exact made.grammar array
  · intro node mem dep listed
    obtain ⟨p, at_⟩ := getElem?_of_mem mem
    obtain ⟨read, -, id, deps⟩ := settled_get at_
    rw [deps] at listed
    have kept := (mem_filter.mp listed).2
    simp only [Bool.and_eq_true, decide_eq_true_eq] at kept
    rw [settled_ids, id]
    exact kept

theorem find?_at {p : α → Bool} {xs : List α} {q : Nat} {x : α} (at_ : xs[q]? = some x)
    (yes : p x = true) (before : ∀ j < q, ∀ y, xs[j]? = some y → p y = false) :
    xs.find? p = some x := by
  induction xs generalizing q with
  | nil => simp at at_
  | cons first rest ih =>
    cases q with
    | zero =>
      obtain rfl := Option.some.inj at_
      exact find?_cons_of_pos yes
    | succ q =>
      have no := before 0 (Nat.succ_pos q) first rfl
      rw [find?_cons_of_neg (by simp [no])]
      exact ih at_ fun j lt y atY => before (j + 1) (Nat.succ_lt_succ lt) y atY

theorem usable_sorted (source : List (Json ν)) (maxNodes : Nat) :
    ((usable source).take maxNodes).Pairwise (fun a b => a.2 < b.2) := by
  have indices : source.zipIdx.Pairwise (fun a b => a.2 < b.2) := by
    rw [← pairwise_map (f := Prod.snd) (R := (· < ·)), zipIdx_map_snd]
    exact pairwise_lt_range'
  exact (indices.sublist filter_sublist).sublist (take_sublist _ _)

theorem usable_mem {entry : Json ν × Nat} (mem : entry ∈ (usable source).take maxNodes) :
    source[entry.2]? = some entry.1 ∧ isObject entry.1 = true := by
  obtain ⟨inSource, kept⟩ := mem_filter.mp (mem_of_mem_take mem)
  have place := mem_zipIdx' (show (entry.1, entry.2) ∈ source.zipIdx from inSource)
  simp only [isUsable, Bool.and_eq_true] at kept
  exact ⟨List.getElem?_eq_some_iff.mpr ⟨place.1, place.2.symm⟩, kept.1⟩

theorem resolve_first (progress : Progress source ((usable source).take maxNodes) r) {q : Nat}
    {target : Json ν × Nat} {targetNode : ThoughtNode}
    (atTarget : ((usable source).take maxNodes)[q]? = some target)
    (atNode : r.nodes[q]? = some targetNode) (named : rawId target.1 ≠ [])
    (replaced : rawId target.1 ≠ targetNode.id)
    (first : ∀ earlier ∈ source.take target.2, isObject earlier = true →
      rawId earlier ≠ rawId target.1) :
    r.resolve (rawId target.1) = targetNode.id := by
  have zipped : (((usable source).take maxNodes).zip r.nodes)[q]? = some (target, targetNode) :=
    getElem?_zip_eq_some.mpr ⟨atTarget, atNode⟩
  have found := find?_at (p := replaces (rawId target.1)) zipped
    (by simp [replaces, named, replaced]) (by
      intro j lt pair atPair
      obtain ⟨atEarlier, -⟩ := getElem?_zip_eq_some.mp atPair
      obtain ⟨inSource, object⟩ := usable_mem (List.mem_of_getElem? atEarlier)
      obtain ⟨small, same⟩ := List.getElem?_eq_some_iff.mp atEarlier
      obtain ⟨small', same'⟩ := List.getElem?_eq_some_iff.mp atTarget
      have order := List.pairwise_iff_getElem.mp (usable_sorted source maxNodes) j q small small' lt
      rw [same, same'] at order
      have before : pair.1.1 ∈ source.take target.2 :=
        List.mem_of_getElem? (i := pair.1.2) (by rw [getElem?_take_of_lt order, inSource])
      simp [replaces, first _ before object])
  rw [Reading.resolve, progress.renamed, found]
  rfl

theorem fromReply (progress : Progress source ((usable source).take maxNodes) r)
    (array : source.length < 2 ^ 32) : FromReply source maxNodes (settled r) := by
  have count : (settled r).length = ((usable source).take maxNodes).length := by
    rw [length_closeWithSynthesis, List.length_map, progress.length]
  refine ⟨?_, count, ?_, ?_⟩
  · rw [count]
    exact length_take_le _ _
  · intro p entry node atEntry atNode valid
    obtain ⟨read, atRead, id, -⟩ := settled_get atNode
    rw [id]
    exact (made_get progress atEntry atRead).own valid
  · intro p q entry target node targetNode atEntry atTarget atNode atTargetNode other items array_
      name listed trimmed named invalid first
    obtain ⟨read, atRead, id, deps⟩ := settled_get atNode
    obtain ⟨readTarget, atReadTarget, targetId, -⟩ := settled_get atTargetNode
    have made := made_get progress atEntry atRead
    have madeTarget := made_get progress atTarget atReadTarget
    have valid := madeTarget.grammar array
    have replaced : rawId target.1 ≠ readTarget.id := by
      intro same
      rw [← same, invalid] at valid
      cases valid
    have resolved := resolve_first progress atTarget atReadTarget named replaced first
    have written : rawId target.1 ∈ read.dependsOn := by
      rw [made.built, nodeOf]
      simp only [array_, orElse, parseDependsOn]
      refine mem_filter.mpr ⟨mem_map.mpr ⟨_, listed, trimmed⟩, by simpa using named⟩
    rw [deps, targetId]
    refine mem_filter.mpr ⟨mem_map.mpr ⟨_, written, resolved⟩, ?_⟩
    have distinct : readTarget.id ≠ read.id := by
      intro same
      apply other
      have small : p < r.ids.length := by
        rw [Reading.ids, List.length_map]
        exact (List.getElem?_eq_some_iff.mp atRead).1
      apply (List.getElem?_inj small progress.well.nodup).mp
      rw [Reading.ids, List.getElem?_map, List.getElem?_map, atRead, atReadTarget, Option.map_some,
        Option.map_some, same]
    have known : readTarget.id ∈ r.ids := mem_map_of_mem (List.mem_of_getElem? atReadTarget)
    simp [known, distinct]

end Result

theorem goodGraph_fallback : GoodGraph fallbackGraph.nodes :=
  ⟨by decide, by decide +kernel, by decide, fallbackGraph.nodes.dropLast,
    fallbackGraph.nodes.getLast (cons_ne_nil _ _), rfl, rfl⟩

/-- A result has different ids of the grammar, dependencies among them and a closing synthesis; it
is the fallback graph when too few entries become nodes, and else what the reply gives. -/
theorem normalized_graph (raw : Json ν) (fallbackGoal : Text) (minNodes maxNodes : Nat)
    (least : 1 ≤ minNodes) (cap : 1 ≤ maxNodes) (array : (sourceNodes raw).length < 2 ^ 32) :
    GoodGraph (normalizeGraph raw fallbackGoal minNodes maxNodes).nodes ∧
      if ((usable (sourceNodes raw)).take maxNodes).length < minNodes then
        normalizeGraph raw fallbackGoal minNodes maxNodes = fallbackGraph
      else
        FromReply (sourceNodes raw) maxNodes (normalizeGraph raw fallbackGoal minNodes maxNodes).nodes := by
  have progress := readReply_progress raw cap
  rw [← progress.length]
  unfold normalizeGraph
  dsimp only
  split
  · exact ⟨goodGraph_fallback, rfl⟩
  · next enough =>
    have some_ : (readReply raw maxNodes).nodes ≠ [] := by
      intro none_
      rw [none_] at enough
      exact enough least
    exact ⟨goodGraph progress array some_, fromReply progress array⟩

/-- Three entries, of which the last lists a replaced name and its own. -/
def renamedReply : Json Unit :=
  .obj [(js "nodes", .arr [replyNode "a b" [], replyNode "c" [], replyNode "d e" ["a b", "d e"]])]

theorem normalized_graph_renamed :
    (1 ≤ 2 ∧ 1 ≤ 8 ∧ (sourceNodes renamedReply).length < 2 ^ 32) ∧
      GoodGraph (normalizeGraph renamedReply [] 2 8).nodes :=
  ⟨⟨by decide, by decide, by decide⟩,
    (normalized_graph renamedReply [] 2 8 (by decide) (by decide) (by decide)).1⟩

/-- The fallback graph passes a cap of three and drops the only entry, a cap of zero keeps one
node, no least number leaves none, and a reference of an entry to itself is dropped. -/
theorem cap_and_entries_missed :
    (normalizeGraph (.obj [(js "nodes", .arr [replyNode "a" []])] : Json Unit) [] 2 3).nodes.length = 5 ∧
    js "a" ∉ (normalizeGraph (.obj [(js "nodes", .arr [replyNode "a" []])] : Json Unit) [] 2 3).nodes.map (·.id) ∧
    (normalizeGraph (.obj [(js "nodes", .arr [replyNode "a" []])] : Json Unit) [] 1 0).nodes.length = 1 ∧
    (normalizeGraph (.obj [] : Json Unit) [] 0 3).nodes.length = 0 ∧
    (normalizeGraph renamedReply [] 2 8).nodes.map (fun node => (node.id, node.dependsOn)) =
      [(js "n1", []), (js "c", []), (js "n3", [js "n1"])] := by
  decide +kernel

end Ultrathink.Guarantees.GraphNormal
