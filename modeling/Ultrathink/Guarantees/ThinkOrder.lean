import Ultrathink.Guarantees.WorkflowWaves
import Ultrathink.Source.Think.Pipeline

/-!
# Concurrent thinking is sequential thinking

A prompt reads the fixed parts of the graph and the conclusions of the node's dependencies.
Filled nodes stay as they are, so a prompt that was sent when these were filled is the prompt
of the final graph, and the final graph is the only one in which every node is what its own
prompt gives.
-/

namespace Ultrathink.Guarantees.ThinkOrder

open Library JsText Source.Think.Graph Source.Think.Pipeline
open List hiding asString lookup

def Trimmed (t : Text) : Prop := trim t = t

theorem trimmed_trim (t : Text) : Trimmed (trim t) := trim_trim t

variable {filled filled' : List Text} {w : Work} {node node' : ThoughtNode} {id t : Text}
  {nodes nodes' : List ThoughtNode} {ν : Type} {limit : Limit} {s : Filling}
  {pool : Pool Text (Text × Option Text)}

variable {u : UInt16} {uplift : Spec} {goal key : Text} {s' : Filling} {w' : Work} {m : Move}
  {calls : Calls}

theorem trimmed_append {s : Text} {rest : Text} (starts : s = u :: rest) (solid : isSpace u = false)
    (some_ : t ≠ []) (trimmed : ∀ u ∈ t, isSpace u = false) :
    Trimmed (s ++ t) := by
  subst starts
  have front : (u :: rest ++ t).dropWhile isSpace = u :: rest ++ t := by simp [solid]
  rw [Trimmed, trim, front, rdropWhile_eq_self_iff]
  intro _
  rw [getLast_append_of_ne_nil _ some_]
  simp [trimmed _ (getLast_mem some_)]

theorem trimmed_orText {s : Text} (first : Trimmed s) (second : Trimmed t) :
    Trimmed (orText s t) := by
  unfold orText
  split
  · exact second
  · exact first

theorem trimmed_parseNodeFill (xml : Text) : Trimmed (parseNodeFill xml).conclusion := by
  unfold parseNodeFill
  simp only
  split
  · refine trimmed_orText (trimmed_orText ?_ ?_) (trimmed_orText ?_ (trimmed_orText ?_ ?_)) <;>
      exact trimmed_trim _
  · exact trimmed_trim _

theorem trimmed_asString (value : Option (Json ν)) : Trimmed (asString value) := by
  unfold asString
  split
  · exact trimmed_trim _
  · rfl

theorem solid_word (word : isWord u = true ∨ u = 0x2D) : isSpace u = false := by
  rcases word with word | rfl
  · simp only [isWord, isUpperLetter, isLowerLetter, isDigit, Bool.or_eq_true, Bool.and_eq_true,
      decide_eq_true_eq, UInt16.le_iff_toNat_le, ← UInt16.toNat_inj, UInt16.reduceToNat] at word
    exact isSpace_graphic (by omega) (by omega)
  · rfl

theorem solid_ofNat (n : Nat) : ∀ u ∈ JsText.ofNat n, isSpace u = false := by
  intro u mem
  rw [JsNumber.ofNat_eq_digits, JsNumber.digits] at mem
  obtain ⟨c, inDigits, rfl⟩ := mem_map.mp mem
  have isDigit := Nat.isDigit_of_mem_toDigits (by decide) (by decide) inDigits
  simp only [Char.isDigit, Bool.and_eq_true, decide_eq_true_eq, UInt32.le_iff_toNat_le] at isDigit
  have value : c.toNat = c.val.toNat := rfl
  have every : ∀ n < 0x3A, 0x30 ≤ n → isSpace n.toUInt16 = false := by decide
  have low : ('0'.val).toNat = 48 := rfl
  have high : ('9'.val).toNat = 57 := rfl
  exact every c.toNat (by omega) (by omega)

theorem solid_positionalId (k : Nat) : ∀ u ∈ positionalId k, isSpace u = false := by
  have letter : js "n" = [0x6E] := by decide
  intro u mem
  rcases mem_append.mp mem with first | rest
  · rw [letter, mem_singleton] at first
    rw [first]
    decide
  · exact solid_ofNat k u rest

theorem solid_freshId (taken : List Text) (index : Nat) :
    ∀ u ∈ freshId taken index, isSpace u = false := by
  unfold freshId
  generalize taken.length = turns
  generalize index + 1 = k
  induction turns generalizing k with
  | zero => exact solid_positionalId k
  | succ turns ih =>
    unfold freshFrom
    split
    · exact ih (k + 1)
    · exact solid_positionalId k

theorem solid_idOf (reserved : List Text) (r : Reading) (entry : Json ν) (index : Nat) :
    ∀ u ∈ idOf reserved r entry index, isSpace u = false := by
  unfold idOf
  split
  next valid =>
    intro u mem
    simp only [isNodeId, Bool.and_eq_true, all_eq_true, Bool.or_eq_true,
      decide_eq_true_eq] at valid
    exact solid_word (valid.1.2 u mem)
  · exact solid_freshId _ index

theorem trimmed_nodeOf (reserved : List Text) (r : Reading) (entry : Json ν) (index : Nat) :
    Trimmed (nodeOf entry (idOf reserved r entry index) index).question := by
  refine trimmed_orText (trimmed_asString _) (trimmed_orText (trimmed_asString _) ?_)
  have starts : js "Reason about " = 0x52 :: (js "Reason about ").tail := by decide
  exact trimmed_append starts (by decide) (WorkflowWaves.idOf_ne_nil reserved r entry index)
    (solid_idOf reserved r entry index)

theorem trimmed_readNodes (reserved : List Text) (maxNodes : Nat) (entries : List (Json ν × Nat))
    (r : Reading) (before : ∀ node ∈ r.nodes, Trimmed node.question) :
    ∀ node ∈ (readNodes reserved maxNodes entries r).nodes, Trimmed node.question := by
  induction entries generalizing r with
  | nil => exact before
  | cons entry rest ih =>
    obtain ⟨entry, index⟩ := entry
    unfold readNodes
    simp only
    split
    · exact ih r before
    · split
      · exact ih r before
      · have after : ∀ node ∈ (takeEntry r entry (idOf reserved r entry index) index).nodes,
            Trimmed node.question := by
          intro node mem
          rcases mem_append.mp mem with old | new
          · exact before node old
          · rw [mem_singleton.mp new]
            exact trimmed_nodeOf reserved r entry index
        split
        · exact after
        · exact ih _ after

theorem trimmed_closeWithSynthesis (nodes : List ThoughtNode)
    (before : ∀ node ∈ nodes, Trimmed node.question) :
    ∀ node ∈ closeWithSynthesis nodes, Trimmed node.question := by
  induction nodes with
  | nil => exact before
  | cons first rest ih =>
    cases rest with
    | nil => simpa [closeWithSynthesis] using before
    | cons next more =>
      intro node mem
      unfold closeWithSynthesis at mem
      rcases mem_cons.mp mem with rfl | later
      · exact before _ mem_cons_self
      · exact ih (fun node mem => before node (mem_cons_of_mem _ mem)) node later

theorem trimmed_normalizeGraph (raw : Json ν) (fallbackGoal : Text) (minNodes maxNodes : Nat) :
    ∀ node ∈ (normalizeGraph raw fallbackGoal minNodes maxNodes).nodes, Trimmed node.question := by
  unfold normalizeGraph
  simp only
  split
  · unfold Trimmed
    decide
  · refine trimmed_closeWithSynthesis _ fun node mem => ?_
    obtain ⟨original, there, rfl⟩ := mem_map.mp mem
    exact trimmed_readNodes _ maxNodes _ _ (by simp) original there

def plain (node : ThoughtNode) : ThoughtNode := { node with thinking := none, conclusion := none }

theorem plain_written (node : ThoughtNode) (reply : Option Text) :
    plain (written node reply) = plain node := by
  cases reply <;> rfl

theorem written_of_plain (same : plain node = plain node') (reply : Option Text) :
    written node reply = written node' reply := by
  simp only [plain, ThoughtNode.mk.injEq, and_true] at same
  obtain ⟨id, title, kind, question, deps⟩ := same
  cases reply <;> simp [written, id, title, kind, question, deps]

theorem ids_of_plain (same : nodes.map plain = nodes'.map plain) :
    nodes.map (·.id) = nodes'.map (·.id) := by
  have ids := congrArg (List.map (·.id)) same
  rwa [map_map, map_map] at ids

theorem lookup_of_mem (distinct : (nodes.map (·.id)).Nodup) (mem : node ∈ nodes) :
    lookup nodes node.id = some node := by
  cases found : lookup nodes node.id with
  | none =>
    have absent := find?_eq_none.mp found node (mem_reverse.mpr mem)
    simp at absent
  | some other =>
    have inside := mem_reverse.mp (mem_of_find?_eq_some found)
    have same : other.id = node.id := by simpa using find?_some found
    exact congrArg some (inj_on_of_nodup_map distinct inside mem same)

theorem mem_of_lookup (found : lookup nodes id = some node) : node ∈ nodes ∧ node.id = id := by
  refine ⟨mem_reverse.mp (mem_of_find?_eq_some found), ?_⟩
  simpa using find?_some found

theorem lookup_plain (same : nodes.map plain = nodes'.map plain) (id : Text) :
    (lookup nodes id).map plain = (lookup nodes' id).map plain := by
  have each : ∀ nodes : List ThoughtNode, (lookup nodes id).map plain =
      ((nodes.map plain).reverse.find? fun node => node.id = id) := by
    intro nodes
    rw [← map_reverse, find?_map]
    rfl
  rw [each, each, same]

/-- The conclusion that a prompt reads of the node of this id. -/
def conclusionOf (nodes : List ThoughtNode) (id : Text) : Option Text :=
  (lookup nodes id).bind (·.conclusion)

theorem predecessorText_congr (same : plain node = plain node')
    (conclusion : node.conclusion = node'.conclusion) :
    predecessorText node = predecessorText node' := by
  simp only [plain, ThoughtNode.mk.injEq, and_true] at same
  simp only [predecessorText, same.1, same.2.1, conclusion]

theorem predecessorTexts_congr (deps : List Text) (same : nodes.map plain = nodes'.map plain)
    (agree : ∀ dep ∈ deps, conclusionOf nodes dep = conclusionOf nodes' dep) :
    (deps.filterMap (lookup nodes)).map predecessorText =
      (deps.filterMap (lookup nodes')).map predecessorText := by
  induction deps with
  | nil => rfl
  | cons dep rest ih =>
    have later := ih fun dep' mem => agree dep' (mem_cons_of_mem _ mem)
    have first := agree dep mem_cons_self
    have fixed := lookup_plain same dep
    simp only [conclusionOf] at first
    cases here : lookup nodes dep with
    | none =>
      rw [here, Option.map_none] at fixed
      have there : lookup nodes' dep = none := Option.map_eq_none_iff.mp fixed.symm
      simp only [filterMap_cons, here, there, later]
    | some node =>
      rw [here, Option.map_some] at fixed
      obtain ⟨node', there, plain'⟩ := Option.map_eq_some_iff.mp fixed.symm
      rw [here, there, Option.bind_some, Option.bind_some] at first
      simp only [filterMap_cons, here, there, map_cons, later,
        predecessorText_congr plain'.symm first]

theorem cotUserPayload_congr (same : nodes.map plain = nodes'.map plain)
    (fixed : plain node = plain node')
    (agree : ∀ dep ∈ node.dependsOn, conclusionOf nodes dep = conclusionOf nodes' dep) :
    cotUserPayload uplift goal nodes node = cotUserPayload uplift goal nodes' node' := by
  have sketch : graphSketch nodes = graphSketch nodes' := by
    have lines : ∀ nodes : List ThoughtNode, nodes.map sketchLine =
        (nodes.map plain).map sketchLine := by
      intro nodes
      rw [map_map]
      rfl
    rw [graphSketch, graphSketch, lines nodes, lines nodes', same]
  simp only [plain, ThoughtNode.mk.injEq, and_true] at fixed
  obtain ⟨id, title, kind, question, deps⟩ := fixed
  have block : predecessorBlock nodes node = predecessorBlock nodes' node' := by
    have texts := predecessorTexts_congr node.dependsOn same agree
    simp only [predecessorBlock, ← deps]
    have empty : node.dependsOn.filterMap (lookup nodes) = [] ↔
        node.dependsOn.filterMap (lookup nodes') = [] := by
      rw [← map_eq_nil_iff (f := predecessorText), texts, map_eq_nil_iff]
    by_cases none_ : node.dependsOn.filterMap (lookup nodes) = []
    · rw [if_pos none_, if_pos (empty.mp none_)]
    · rw [if_neg none_, if_neg fun bad => none_ (empty.mpr bad), texts]
  simp only [cotUserPayload, sketch, block, id, title, kind, question]

theorem infix_join {sep : Text} {texts : List Text} (mem : t ∈ texts) : t <:+: join sep texts := by
  induction texts with
  | nil => cases mem
  | cons first rest ih =>
    cases rest with
    | nil =>
      rw [mem_singleton.mp mem]
      exact infix_refl _
    | cons next more =>
      rw [join]
      rcases mem_cons.mp mem with rfl | later
      · rw [append_assoc]
        exact (prefix_append ..).isInfix
      · exact (ih later).trans (suffix_append ..).isInfix
      · simp

theorem conclusion_in_prompt {pred : ThoughtNode} {conclusion : Text}
    (dep : pred.id ∈ node.dependsOn) (found : lookup nodes pred.id = some pred)
    (ended : pred.conclusion = some conclusion) (trimmed : Trimmed conclusion) :
    conclusion <:+: cotUserPayload uplift goal nodes node := by
  have here : pred ∈ node.dependsOn.filterMap (lookup nodes) :=
    mem_filterMap.mpr ⟨pred.id, dep, found⟩
  have text : conclusion <:+: predecessorText pred := by
    rw [predecessorText, ended, Option.getD_some, show trim conclusion = conclusion from trimmed,
      orText]
    split
    next empty =>
      rw [empty]
      exact nil_infix
    · exact (suffix_append ..).isInfix.trans (prefix_append ..).isInfix
  have block : conclusion <:+: predecessorBlock nodes node := by
    simp only [predecessorBlock]
    rw [if_neg (ne_nil_of_mem here)]
    exact text.trans (infix_join (mem_map.mpr ⟨pred, here, rfl⟩))
  refine block.trans (infix_join ?_)
  simp

def promptOf (calls : Calls) (nodes : List ThoughtNode) (node : ThoughtNode) : Text :=
  cotUserPayload calls.uplift calls.goal nodes node

def replyTo (calls : Calls) (nodes : List ThoughtNode) (node : ThoughtNode) : Option Text :=
  calls.complete (promptOf calls nodes node)

/-- Whether the fill of the node of this id is degraded. -/
def degradedAt (calls : Calls) (nodes : List ThoughtNode) (id : Text) : Bool :=
  (lookup nodes id).any fun node => degraded (replyTo calls nodes node)

/-- All that the node of this id depends on is filled. -/
def Ready (filled : List Text) (nodes : List ThoughtNode) (id : Text) : Prop :=
  ∀ node ∈ nodes, node.id = id → ∀ dep ∈ node.dependsOn, dep ∈ filled

/-- The filled nodes, in the order of their fills, are what their prompts give, and all
prompts sent are those of the nodes as they stand. -/
structure Good (calls : Calls) (nodes : List ThoughtNode) (filled : List Text) (s : Filling) :
    Prop where
  fixed : s.nodes.map plain = nodes.map plain
  done : ∀ node ∈ s.nodes, node.id ∈ filled → node = written node (replyTo calls s.nodes node)
  ready : ∀ id ∈ filled, Ready filled s.nodes id
  fills : s.fills = filled.filter (degradedAt calls s.nodes)
  sent : ∀ e ∈ s.sent, Ready filled s.nodes e.1 ∧
    ∃ node, lookup s.nodes e.1 = some node ∧ e.2 = promptOf calls s.nodes node

section Fills

variable {calls : Calls} {nodes : List ThoughtNode} {filled : List Text} {s : Filling}

theorem Ready.mono (ready : Ready filled nodes id) (more : filled ⊆ filled') :
    Ready filled' nodes id :=
  fun node mem same dep listed => more (ready node mem same dep listed)

theorem ready_congr (same : nodes.map plain = nodes'.map plain) (ready : Ready filled nodes id) :
    Ready filled nodes' id := by
  intro node' mem' about dep listed
  have there : plain node' ∈ nodes.map plain := by
    rw [same]
    exact mem_map.mpr ⟨node', mem', rfl⟩
  obtain ⟨node, mem, fixed⟩ := mem_map.mp there
  simp only [plain, ThoughtNode.mk.injEq, and_true] at fixed
  refine ready node mem (fixed.1.trans about) dep ?_
  rw [fixed.2.2.2.2]
  exact listed

theorem Good.distinct (good : Good calls nodes filled s) (distinct : (nodes.map (·.id)).Nodup) :
    (s.nodes.map (·.id)).Nodup := by
  rw [ids_of_plain good.fixed]
  exact distinct

theorem lookup_map {g : ThoughtNode → ThoughtNode} (kept : ∀ node, (g node).id = node.id)
    (nodes : List ThoughtNode) (id : Text) : lookup (nodes.map g) id = (lookup nodes id).map g := by
  unfold lookup
  rw [← map_reverse, find?_map]
  simp only [Function.comp_def, kept]

theorem write_nodes_id (id : Text) (reply : Option Text) (node : ThoughtNode) :
    (if node.id = id then written node reply else node).id = node.id := by
  split
  · cases reply <;> rfl
  · rfl

theorem plain_write (id : Text) (reply : Option Text) (s : Filling) :
    (write id reply s).nodes.map plain = s.nodes.map plain := by
  simp only [write, map_map]
  apply map_congr_left
  intro node _
  simp only [Function.comp_def]
  split
  · exact plain_written node reply
  · rfl

theorem conclusionOf_write {dep : Text} (other : dep ≠ id) (reply : Option Text) (s : Filling) :
    conclusionOf (write id reply s).nodes dep = conclusionOf s.nodes dep := by
  simp only [conclusionOf, write, lookup_map (write_nodes_id id reply)]
  cases found : lookup s.nodes dep with
  | none => rfl
  | some node =>
    have apart : node.id ≠ id := by
      rw [(mem_of_lookup found).2]
      exact other
    simp [apart]

/-- A node whose dependencies are filled has its prompt, whatever else is written. -/
theorem prompt_write (calls : Calls) (s : Filling) (fresh : id ∉ filled) (reply : Option Text)
    (fixed : plain node' = plain node) (ready : ∀ dep ∈ node.dependsOn, dep ∈ filled) :
    promptOf calls (write id reply s).nodes node' = promptOf calls s.nodes node := by
  refine (cotUserPayload_congr (plain_write id reply s).symm fixed.symm fun dep listed => ?_).symm
  refine (conclusionOf_write ?_ reply s).symm
  rintro rfl
  exact fresh (ready dep listed)

theorem lookup_write (id : Text) (reply : Option Text) (found : lookup s.nodes key = some node) :
    ∃ node', lookup (write id reply s).nodes key = some node' ∧ plain node' = plain node := by
  refine ⟨if node.id = id then written node reply else node, ?_, ?_⟩
  · simp only [write, lookup_map (write_nodes_id id reply), found, Option.map_some]
  · split
    · exact plain_written node reply
    · rfl

theorem degradedAt_write (fresh : id ∉ filled) (reply : Option Text)
    (ready : Ready filled s.nodes key) :
    degradedAt calls (write id reply s).nodes key = degradedAt calls s.nodes key := by
  unfold degradedAt
  cases found : lookup s.nodes key with
  | none => simp [write, lookup_map (write_nodes_id id reply), found]
  | some node =>
    obtain ⟨node', found', fixed⟩ := lookup_write id reply found
    obtain ⟨mem, same⟩ := mem_of_lookup found
    rw [found', Option.any_some, Option.any_some, replyTo, replyTo,
      prompt_write calls s fresh reply fixed (ready node mem same)]

theorem Good.after_write (good : Good calls nodes filled s) (distinct : (nodes.map (·.id)).Nodup)
    (fresh : id ∉ filled) (found : lookup s.nodes id = some node)
    (ready : Ready filled s.nodes id) :
    Good calls nodes (filled ++ [id]) (write id (replyTo calls s.nodes node) s) := by
  obtain ⟨here, about⟩ := mem_of_lookup found
  have grown : filled ⊆ filled ++ [id] := subset_append_left ..
  have fixed := plain_write id (replyTo calls s.nodes node) s
  have readyNow : ∀ key, Ready filled s.nodes key →
      Ready (filled ++ [id]) (write id (replyTo calls s.nodes node) s).nodes key :=
    fun key was => ready_congr fixed.symm (was.mono grown)
  refine ⟨fixed.trans good.fixed, ?_, ?_, ?_, ?_⟩
  · intro node' mem' inFilled
    obtain ⟨old, there, rfl⟩ := mem_map.mp mem'
    by_cases same : old.id = id
    · have one : old = node := inj_on_of_nodup_map (good.distinct distinct) there here
        (same.trans about.symm)
      subst one
      rw [if_pos same]
      have prompt := prompt_write calls s fresh (replyTo calls s.nodes old)
        (plain_written old (replyTo calls s.nodes old)) (ready old here same)
      rw [written_of_plain (plain_written old (replyTo calls s.nodes old))]
      exact congrArg (written old) (congrArg calls.complete prompt).symm
    · rw [if_neg same] at inFilled ⊢
      have was : old.id ∈ filled := by
        rcases mem_append.mp inFilled with was | new
        · exact was
        · exact absurd (mem_singleton.mp new) same
      have prompt := prompt_write calls s fresh (replyTo calls s.nodes node)
        (rfl : plain old = plain old) (good.ready old.id was old there rfl)
      refine (good.done old there was).trans ?_
      exact congrArg (written old) (congrArg calls.complete prompt).symm
  · intro key inFilled
    rcases mem_append.mp inFilled with was | new
    · exact readyNow key (good.ready key was)
    · rw [mem_singleton.mp new]
      exact readyNow id ready
  · have old : filled.filter (degradedAt calls
        (write id (replyTo calls s.nodes node) s).nodes) =
        filled.filter (degradedAt calls s.nodes) := by
      apply filter_congr
      intro key mem
      exact degradedAt_write fresh (replyTo calls s.nodes node) (good.ready key mem)
    have new : degradedAt calls (write id (replyTo calls s.nodes node) s).nodes id =
        degraded (replyTo calls s.nodes node) := by
      rw [degradedAt_write fresh (replyTo calls s.nodes node) ready, degradedAt, found,
        Option.any_some]
    rw [filter_append, old, ← good.fills, filter_singleton, new]
    simp only [write]
    cases degraded (replyTo calls s.nodes node) <;> simp
  · intro e mem
    obtain ⟨was, old, found', same⟩ := good.sent e mem
    obtain ⟨node', found'', fixed'⟩ :=
      lookup_write id (replyTo calls s.nodes node) found'
    obtain ⟨there, about'⟩ := mem_of_lookup found'
    refine ⟨readyNow e.1 was, node', found'', same.trans ?_⟩
    exact (prompt_write calls s fresh (replyTo calls s.nodes node) fixed' (was old there about')).symm

theorem Good.after_send (good : Good calls nodes filled s) (found : lookup s.nodes id = some node)
    (ready : Ready filled s.nodes id) :
    (send calls id s).1 = replyTo calls s.nodes node ∧ (send calls id s).2.nodes = s.nodes ∧
      (send calls id s).2.sent.map Prod.fst = s.sent.map Prod.fst ++ [id] ∧
      Good calls nodes filled (send calls id s).2 := by
  have form : send calls id s = (replyTo calls s.nodes node,
      { s with sent := s.sent ++ [(id, promptOf calls s.nodes node)] }) := by
    simp only [send, found]
    rfl
  rw [form]
  refine ⟨rfl, rfl, by simp, good.fixed, good.done, good.ready, good.fills, fun e mem => ?_⟩
  rcases mem_append.mp mem with old | new
  · exact good.sent e old
  · rw [mem_singleton.mp new]
    exact ⟨ready, node, found, rfl⟩

end Fills

section Order

variable {calls : Calls} {nodes : List ThoughtNode}

/-- Each node stands after all it depends on. -/
def Ordered (nodes : List ThoughtNode) : Prop :=
  ∀ before node after, nodes = before ++ node :: after →
    ∀ dep ∈ node.dependsOn, dep ∈ before.map (·.id)

def Full (calls : Calls) (nodes : List ThoughtNode) (filled : List Text) (s : Filling) : Prop :=
  Good calls nodes filled s ∧ filled.Perm (nodes.map (·.id))

theorem full_nodes_eq (distinct : (nodes.map (·.id)).Nodup) (ordered : Ordered nodes)
    (full : Full calls nodes filled s) (full' : Full calls nodes filled' s') :
    s.nodes = s'.nodes := by
  obtain ⟨good, all⟩ := full
  obtain ⟨good', all'⟩ := full'
  have same : s.nodes.map plain = s'.nodes.map plain := good.fixed.trans good'.fixed.symm
  have lengths : s.nodes.length = s'.nodes.length := by simpa using congrArg List.length same
  have prefixes : ∀ k, s.nodes.take k = s'.nodes.take k := by
    intro k
    induction k with
    | zero => rfl
    | succ k ih =>
      rcases Nat.lt_or_ge k s.nodes.length with inside | outside
      · have inside' : k < s'.nodes.length := by omega
        rw [take_succ_eq_append_getElem inside, take_succ_eq_append_getElem inside', ih]
        congr 2
        have mem : s.nodes[k] ∈ s.nodes := getElem_mem inside
        have mem' : s'.nodes[k] ∈ s'.nodes := getElem_mem inside'
        have fixed : plain s.nodes[k] = plain s'.nodes[k] := by
          have at_ := congrArg (fun l => l[k]?) same
          simpa [inside, inside'] using at_
        have inAll : s.nodes[k].id ∈ filled := by
          rw [all.mem_iff, ← ids_of_plain good.fixed]
          exact mem_map.mpr ⟨_, mem, rfl⟩
        have inAll' : s'.nodes[k].id ∈ filled' := by
          rw [all'.mem_iff, ← ids_of_plain good'.fixed]
          exact mem_map.mpr ⟨_, mem', rfl⟩
        have prompt : promptOf calls s.nodes s.nodes[k] = promptOf calls s'.nodes s'.nodes[k] := by
          refine cotUserPayload_congr same fixed fun dep listed => ?_
          have early : dep ∈ (s.nodes.take k).map (·.id) := by
            have bound : k < nodes.length := by
              have count : s.nodes.length = nodes.length := by
                simpa using congrArg List.length good.fixed
              omega
            have split : nodes = nodes.take k ++ nodes[k] :: nodes.drop (k + 1) := by
              rw [← drop_eq_getElem_cons bound, take_append_drop]
            have first : plain s.nodes[k] = plain nodes[k] := by
              have at_ := congrArg (fun l => l[k]?) good.fixed
              simpa [inside, bound] using at_
            simp only [plain, ThoughtNode.mk.injEq, and_true] at first
            rw [first.2.2.2.2] at listed
            have there := ordered _ _ _ split dep listed
            rw [map_take] at there ⊢
            rwa [ids_of_plain good.fixed]
          obtain ⟨pred, inPrefix, rfl⟩ := mem_map.mp early
          have one := lookup_of_mem (good.distinct distinct) (mem_of_mem_take inPrefix)
          have two := lookup_of_mem (good'.distinct distinct)
            (mem_of_mem_take (ih ▸ inPrefix : pred ∈ s'.nodes.take k))
          rw [conclusionOf, conclusionOf, one, two]
        refine (good.done _ mem inAll).trans (Eq.trans ?_ (good'.done _ mem' inAll').symm)
        rw [written_of_plain fixed, replyTo, replyTo, prompt]
      · rw [take_of_length_le (by omega), take_of_length_le (by omega)] at ih
        rw [take_of_length_le (by omega), take_of_length_le (by omega)]
        exact ih
  have whole := prefixes s.nodes.length
  rwa [take_length, lengths, take_length] at whole

theorem full_fills_perm (distinct : (nodes.map (·.id)).Nodup) (ordered : Ordered nodes)
    (full : Full calls nodes filled s) (full' : Full calls nodes filled' s') :
    s.fills.Perm s'.fills := by
  rw [full.1.fills, full'.1.fills, full_nodes_eq distinct ordered full full']
  exact (full.2.trans full'.2.symm).filter _

theorem fillInOrder_full (distinct : (nodes.map (·.id)).Nodup) (ordered : Ordered nodes) :
    Full calls nodes (nodes.map (·.id)) (fillInOrder calls nodes) ∧
      (fillInOrder calls nodes).sent.map Prod.fst = nodes.map (·.id) := by
  have each : ∀ before after : List ThoughtNode, nodes = before ++ after →
      Good calls nodes (before.map (·.id))
          ((before.map (·.id)).foldl (fillNode calls) ⟨nodes, [], []⟩) ∧
        ((before.map (·.id)).foldl (fillNode calls) ⟨nodes, [], []⟩).sent.map Prod.fst =
          before.map (·.id) := by
    intro before
    induction before using List.reverseRecOn with
    | nil =>
      intro after _
      refine ⟨⟨rfl, ?_, ?_, rfl, ?_⟩, rfl⟩
      · intro node _ bad
        cases bad
      · intro id bad
        cases bad
      · intro e bad
        cases bad
    | append_singleton before node ih =>
      intro after split
      obtain ⟨good, sent⟩ := ih (node :: after) (by rw [split]; simp)
      rw [map_append, map_singleton, foldl_append, foldl_cons, foldl_nil]
      rw [append_assoc, singleton_append] at split
      have mem : node ∈ nodes := by
        rw [split]
        simp
      have fresh : node.id ∉ before.map (·.id) := by
        rw [split, map_append, nodup_append] at distinct
        exact fun bad => distinct.2.2 _ bad _ mem_cons_self rfl
      have ready : Ready (before.map (·.id)) nodes node.id := by
        intro other there same dep listed
        have one : other = node := inj_on_of_nodup_map distinct there mem same
        subst one
        exact ordered before other after split dep listed
      have here := lookup_plain good.fixed node.id
      rw [lookup_of_mem distinct mem] at here
      obtain ⟨current, found, -⟩ := Option.map_eq_some_iff.mp here
      obtain ⟨reply, kept, sent', good'⟩ :=
        good.after_send found (ready_congr good.fixed.symm ready)
      rw [fillNode]
      rw [← kept] at found
      have written := good'.after_write distinct fresh found
        (ready_congr (kept.symm ▸ good.fixed.symm) ready)
      rw [kept, ← reply] at written
      refine ⟨written, ?_⟩
      simp only [write]
      rw [sent', sent]
  obtain ⟨good, sent⟩ := each nodes [] (by simp)
  exact ⟨⟨good, List.Perm.refl _⟩, sent⟩

theorem dependencyLevels_before (distinct : (nodes.map (·.id)).Nodup) (ordered : Ordered nodes)
    {before after : List (List ThoughtNode)} {group : List ThoughtNode}
    (split : dependencyLevels nodes = before ++ group :: after) :
    ∀ node ∈ group, ∀ dep ∈ node.dependsOn, dep ∈ before.flatten.map (·.id) := by
  intro node inGroup dep listed
  have leveled := WorkflowWaves.leveled_of_order nodes distinct ordered
  have flat : (dependencyLevels nodes).flatten.Perm nodes := by
    rw [dependencyLevels, WorkflowWaves.flatten_filter_nonempty]
    exact WorkflowWaves.levels_perm nodes
  have mem : node ∈ nodes := by
    rw [← flat.mem_iff, split]
    simp [inGroup]
  obtain ⟨low, high, levelDep, levelNode, lt⟩ := leveled.below node mem dep listed
  obtain ⟨source, memSource, rfl⟩ := mem_map.mp (leveled.known node mem dep listed)
  obtain ⟨low', lowGroup, levelSource, heldLow, memLow⟩ := leveled.placed source memSource
  obtain ⟨high', highGroup, levelNode', heldHigh, memHigh⟩ := leveled.placed node mem
  cases levelDep.symm.trans levelSource
  cases levelNode.symm.trans levelNode'
  obtain ⟨i, j, lt, heldI, heldJ⟩ := WorkflowWaves.filter_order lt heldLow heldHigh
    (fun group => 0 < group.length) (by simpa using length_pos_of_mem memLow)
    (by simpa using length_pos_of_mem memHigh)
  have apart : (dependencyLevels nodes).flatten.Nodup := flat.nodup_iff.mpr distinct.of_map
  have pairwise := (nodup_flatten.mp apart).2
  have heldI : (dependencyLevels nodes)[i]? = some lowGroup := heldI
  have heldJ : (dependencyLevels nodes)[j]? = some highGroup := heldJ
  have here : (dependencyLevels nodes)[before.length]? = some group := by
    rw [split]
    simp
  have place : j = before.length := by
    obtain ⟨boundJ, atJ⟩ := List.getElem?_eq_some_iff.mp heldJ
    obtain ⟨bound, at_⟩ := List.getElem?_eq_some_iff.mp here
    by_contra other
    rcases Nat.lt_or_gt_of_ne other with less | more
    · have disjoint := pairwise_iff_getElem.mp pairwise j before.length boundJ bound less
      rw [atJ, at_] at disjoint
      exact disjoint memHigh inGroup
    · have disjoint := pairwise_iff_getElem.mp pairwise before.length j bound boundJ more
      rw [atJ, at_] at disjoint
      exact disjoint inGroup memHigh
  subst place
  rw [split, getElem?_append_left lt] at heldI
  exact mem_map.mpr ⟨source, mem_flatten.mpr ⟨lowGroup, mem_of_getElem? heldI,
    memLow⟩, rfl⟩

def Staffed : Limit → Prop
  | .nan => False
  | .most count => 0 < count
  | .unbounded => True

/-- Filled, under way, queued and yet to come: each node is one of these, and its
dependencies are filled before it is sent. -/
structure Working (calls : Calls) (nodes : List ThoughtNode) (filled : List Text) (w : Work) :
    Prop where
  good : Good calls nodes filled w.filling
  flying : ∀ e ∈ w.pool.flying, Ready filled w.filling.nodes e.1 ∧
    ∃ node, lookup w.filling.nodes e.1 = some node ∧ e.2 = replyTo calls w.filling.nodes node
  all : (filled ++ (w.pool.flying.map Prod.fst ++ (w.pool.queue ++ w.levels.flatten))).Perm
    (nodes.map (·.id))
  queue : ∀ id ∈ w.pool.queue, Ready filled nodes id
  levels : ∀ before level after, w.levels = before ++ level :: after → ∀ id ∈ level,
    Ready (filled ++ (w.pool.flying.map Prod.fst ++ (w.pool.queue ++ before.flatten))) nodes id
  sent : (w.filling.sent.map Prod.fst).Perm (filled ++ w.pool.flying.map Prod.fst)
  manned : w.pool.queue ≠ [] → 0 < w.pool.idle + w.pool.flying.length

theorem working_start (distinct : (nodes.map (·.id)).Nodup) (ordered : Ordered nodes) :
    Working calls nodes [] (Work.start nodes) := by
  have flat : ∀ groups : List (List ThoughtNode),
      (groups.map fun group => group.map (·.id)).flatten = groups.flatten.map (·.id) := by
    intro groups
    rw [map_flatten]
  refine ⟨⟨rfl, ?_, ?_, rfl, ?_⟩, ?_, ?_, ?_, ?_, List.Perm.refl _, ?_⟩
  · intro node _ bad
    cases bad
  · intro id bad
    cases bad
  · intro e bad
    cases bad
  · intro e bad
    cases bad
  · have perm : (dependencyLevels nodes).flatten.Perm nodes := by
      rw [dependencyLevels, WorkflowWaves.flatten_filter_nonempty]
      exact WorkflowWaves.levels_perm nodes
    simp only [Work.start, map_nil, nil_append, flat]
    exact perm.map _
  · intro id bad
    cases bad
  · intro before level after split id mem node here same dep listed
    obtain ⟨groups, rest, split', rfl, tail⟩ := map_eq_append_iff.mp split
    obtain ⟨group, more, rfl, rfl, -⟩ := map_eq_cons_iff.mp tail
    obtain ⟨node', inGroup, about⟩ := mem_map.mp mem
    have perm : (dependencyLevels nodes).flatten.Perm nodes := by
      rw [dependencyLevels, WorkflowWaves.flatten_filter_nonempty]
      exact WorkflowWaves.levels_perm nodes
    have inNodes : node' ∈ nodes := by
      rw [← perm.mem_iff, split']
      simp [inGroup]
    have one : node' = node := inj_on_of_nodup_map distinct inNodes here
      (about.trans same.symm)
    subst one
    have early := dependencyLevels_before distinct ordered split' node' inGroup dep listed
    simp only [Work.start, map_nil, nil_append, flat]
    exact early
  · intro bad
    exact absurd rfl bad

theorem Working.distinct_all (working : Working calls nodes filled w)
    (distinct : (nodes.map (·.id)).Nodup) :
    (filled ++ (w.pool.flying.map Prod.fst ++ (w.pool.queue ++ w.levels.flatten))).Nodup :=
  working.all.nodup_iff.mpr distinct

theorem Working.found (working : Working calls nodes filled w) (distinct : (nodes.map (·.id)).Nodup)
    (mem : id ∈ nodes.map (·.id)) :
    ∃ node, lookup w.filling.nodes id = some node := by
  rw [← ids_of_plain working.good.fixed] at mem
  obtain ⟨node, here, rfl⟩ := mem_map.mp mem
  exact ⟨node, lookup_of_mem (working.good.distinct distinct) here⟩

theorem Working.take (working : Working calls nodes filled w) (distinct : (nodes.map (·.id)).Nodup)
    (took : w.pool.take = some (id, pool)) :
    Working calls nodes filled
      ⟨(send calls id w.filling).2, pool.wait (id, (send calls id w.filling).1), w.levels⟩ := by
  obtain ⟨queue, flying, idle⟩ := Pool.take_eq_some took
  have inQueue : id ∈ w.pool.queue := by
    rw [queue]
    exact mem_cons_self
  have inAll : id ∈ nodes.map (·.id) := by
    rw [← working.all.mem_iff]
    simp [inQueue]
  obtain ⟨node, found⟩ := working.found distinct inAll
  have ready := ready_congr working.good.fixed.symm (working.queue id inQueue)
  obtain ⟨reply, kept, sent, good⟩ := working.good.after_send found ready
  have shift : (filled ++ ((pool.wait (id, (send calls id w.filling).1)).flying.map Prod.fst ++
      pool.queue)) = filled ++ (w.pool.flying.map Prod.fst ++ w.pool.queue) := by
    simp [Pool.wait, flying, queue]
  refine ⟨good, ?_, ?_, ?_, ?_, ?_, ?_⟩
  · intro e mem
    rw [kept]
    rcases mem_append.mp mem with old | new
    · rw [flying] at old
      exact working.flying e old
    · rw [mem_singleton.mp new]
      exact ⟨ready, node, found, reply⟩
  · have all := working.all
    simp only [← append_assoc] at all shift ⊢
    rw [← shift] at all
    exact all
  · intro id' mem
    refine working.queue id' ?_
    rw [queue]
    exact mem_cons_of_mem _ mem
  · intro before level after split id' mem
    have was := working.levels before level after split id' mem
    simp only [← append_assoc] at was shift ⊢
    rw [← shift] at was
    exact was
  · rw [sent]
    simp only [Pool.wait, flying, map_append, map_singleton, ← append_assoc]
    exact working.sent.append_right [id]
  · intro _
    simp only [Pool.wait, length_append, length_singleton]
    omega

theorem Working.land (working : Working calls nodes filled w) (distinct : (nodes.map (·.id)).Nodup)
    {place : Nat} {reply : Option Text} (landed : w.pool.land place = some ((id, reply), pool)) :
    Working calls nodes (filled ++ [id]) ⟨write id reply w.filling, pool.back, w.levels⟩ := by
  have perm := Pool.land_perm landed
  obtain ⟨mem, queue, -, -⟩ := Pool.land_eq_some landed
  obtain ⟨ready, node, found, rfl⟩ := working.flying _ mem
  have apart := working.distinct_all distinct
  have ids : (w.pool.flying.map Prod.fst).Perm (id :: pool.flying.map Prod.fst) := perm.map Prod.fst
  have fresh : id ∉ filled := by
    intro bad
    have inFlying : id ∈ w.pool.flying.map Prod.fst := mem_map.mpr ⟨_, mem, rfl⟩
    exact (nodup_append.mp apart).2.2 id bad id (mem_append_left _ inFlying) rfl
  have good := working.good.after_write distinct fresh found ready
  have moved : ∀ rest : List Text, (filled ++ (w.pool.flying.map Prod.fst ++ rest)).Perm
      (filled ++ [id] ++ (pool.flying.map Prod.fst ++ rest)) := by
    intro rest
    rw [append_assoc]
    exact ((ids.append_right rest).append_left filled)
  have grown : filled ⊆ filled ++ [id] := subset_append_left ..
  have fixed := plain_write id (replyTo calls w.filling.nodes node) w.filling
  refine ⟨good, ?_, ?_, ?_, ?_, ?_, ?_⟩
  · intro e there
    have inOld : e ∈ w.pool.flying := by
      rw [perm.mem_iff]
      exact mem_cons_of_mem _ there
    obtain ⟨ready', other, found', reply'⟩ := working.flying e inOld
    obtain ⟨other', found'', fixed'⟩ :=
      lookup_write id (replyTo calls w.filling.nodes node) found'
    obtain ⟨inside, about⟩ := mem_of_lookup found'
    refine ⟨ready_congr fixed.symm (ready'.mono grown), other', found'', reply'.trans ?_⟩
    have prompt := prompt_write calls w.filling fresh (replyTo calls w.filling.nodes node) fixed'
      (ready' other inside about)
    exact (congrArg calls.complete prompt).symm
  · refine ((moved _).symm.trans ?_)
    rw [show pool.back.queue = w.pool.queue from queue]
    exact working.all
  · intro id' there
    rw [show pool.back.queue = w.pool.queue from queue] at there
    exact (working.queue id' there).mono grown
  · intro before level after split id' there
    rw [show pool.back.queue = w.pool.queue from queue]
    exact (working.levels before level after split id' there).mono (moved _).subset
  · have old : (write id (replyTo calls w.filling.nodes node) w.filling).sent = w.filling.sent := rfl
    rw [old]
    refine working.sent.trans ?_
    have whole := moved []
    rwa [append_nil, append_nil] at whole
  · intro _
    simp only [Pool.back]
    omega

theorem Working.leave (working : Working calls nodes filled w) (none_ : w.pool.queue = [])
    (left : w.pool.leave = some pool) :
    Working calls nodes filled ⟨w.filling, pool, w.levels⟩ := by
  obtain ⟨queue, flying, -⟩ := Pool.leave_weight_lt left
  refine ⟨working.good, ?_, ?_, ?_, ?_, ?_, ?_⟩
  · rw [flying]
    exact working.flying
  · simp only [flying, queue]
    exact working.all
  · rw [queue]
    exact working.queue
  · simp only [flying, queue]
    exact working.levels
  · rw [flying]
    exact working.sent
  · intro bad
    rw [queue] at bad
    exact absurd none_ bad

theorem Working.ended (working : Working calls nodes filled w) (done : w.pool.isDone = true) :
    w.pool.flying = [] ∧ w.pool.queue = [] := by
  simp only [Pool.isDone, Bool.and_eq_true, List.isEmpty_iff, decide_eq_true_eq] at done
  refine ⟨done.1, ?_⟩
  by_contra some_
  have alive := working.manned some_
  rw [done.1, done.2] at alive
  exact Nat.lt_irrefl _ alive

theorem Working.next (working : Working calls nodes filled w) (staffed : Staffed limit)
    (done : w.pool.isDone = true) {level : List Text} {levels : List (List Text)}
    (more : w.levels = level :: levels) :
    Working calls nodes filled ⟨w.filling, workers limit level, levels⟩ := by
  obtain ⟨flying, queue⟩ := working.ended done
  have form : (workers limit level).flying = [] ∧ (workers limit level).queue = level ∧
      (level ≠ [] → 0 < (workers limit level).idle) := by
    cases limit with
    | nan => exact staffed.elim
    | most count =>
      refine ⟨rfl, rfl, fun some_ => ?_⟩
      have long := length_pos_iff.mpr some_
      have positive : 0 < count := staffed
      simp only [workers]
      omega
    | unbounded => exact ⟨rfl, rfl, fun some_ => length_pos_iff.mpr some_⟩
  obtain ⟨air, rest, manned⟩ := form
  refine ⟨working.good, ?_, ?_, ?_, ?_, ?_, ?_⟩
  · intro e bad
    rw [air] at bad
    cases bad
  · have all := working.all
    simp only [flying, queue, more, map_nil, nil_append, flatten_cons] at all
    simpa only [air, rest, map_nil, nil_append] using all
  · intro id mem
    rw [rest] at mem
    have ready := working.levels [] level levels more id mem
    simpa [flying, queue] using ready
  · intro before level' after split id mem
    have ready := working.levels (level :: before) level' after (by rw [more]; exact congrArg _ split)
      id mem
    simpa only [air, rest, flying, queue, map_nil, nil_append, flatten_cons]
      using ready
  · rw [air]
    have sent := working.sent
    rwa [flying] at sent
  · intro some_
    rw [rest] at some_
    exact Nat.lt_of_lt_of_le (manned some_) (Nat.le_add_right ..)

theorem working_move (working : Working calls nodes filled w) (distinct : (nodes.map (·.id)).Nodup)
    (staffed : Staffed limit) (moved : move calls limit w m = some w') :
    ∃ filled', Working calls nodes filled' w' := by
  cases m with
  | take =>
    simp only [move] at moved
    cases took : w.pool.take with
    | none => simp [took] at moved
    | some taken =>
      obtain ⟨id, pool⟩ := taken
      simp only [took] at moved
      cases moved
      exact ⟨filled, working.take distinct took⟩
  | land place =>
    simp only [move] at moved
    cases landed : w.pool.land place with
    | none => simp [landed] at moved
    | some entry =>
      obtain ⟨⟨id, reply⟩, pool⟩ := entry
      simp only [landed] at moved
      cases moved
      exact ⟨filled ++ [id], working.land distinct landed⟩
  | leave =>
    simp only [move] at moved
    split at moved
    next none_ =>
      obtain ⟨pool, left, rfl⟩ := Option.map_eq_some_iff.mp moved
      exact ⟨filled, working.leave none_ left⟩
    · cases moved
  | next =>
    simp only [move] at moved
    split at moved
    next done =>
      cases more : w.levels with
      | nil => simp [more] at moved
      | cons level levels =>
        simp only [more] at moved
        cases moved
        exact ⟨filled, working.next staffed done more⟩
    · cases moved

theorem working_of_reachable (distinct : (nodes.map (·.id)).Nodup) (ordered : Ordered nodes)
    (staffed : Staffed limit) (reached : (workSystem calls limit nodes).Reachable w) :
    ∃ filled, Working calls nodes filled w := by
  refine reached.invariant (fun w => ∃ filled, Working calls nodes filled w) ?_ ?_
  · rintro _ rfl
    exact ⟨[], working_start distinct ordered⟩
  · rintro w m w' moved ⟨filled, working⟩
    exact working_move working distinct staffed moved

theorem full_of_finished (distinct : (nodes.map (·.id)).Nodup) (ordered : Ordered nodes)
    (staffed : Staffed limit) (reached : (workSystem calls limit nodes).Reachable w)
    (finished : w.finished) :
    ∃ filled, Full calls nodes filled w.filling ∧
      (w.filling.sent.map Prod.fst).Perm (nodes.map (·.id)) := by
  obtain ⟨filled, working⟩ := working_of_reachable distinct ordered staffed reached
  obtain ⟨flying, queue⟩ := working.ended finished.1
  have all := working.all
  have sent := working.sent
  rw [flying, queue, finished.2] at all
  rw [flying] at sent
  simp only [map_nil, flatten_nil, append_nil] at all sent
  exact ⟨filled, ⟨working.good, all⟩, sent.trans all⟩

/-- A level that is not begun takes at most four moves for each node, and one to begin. -/
def workLeft (w : Work) : Nat := w.pool.weight + (w.levels.map fun level => 4 * level.length + 1).sum

theorem workers_weight_le (limit : Limit) (level : List Text) :
    (workers limit level).weight ≤ 4 * level.length := by
  cases limit <;> simp only [workers, Pool.weight, length_nil] <;> omega

theorem move_workLeft (moved : move calls limit w m = some w') :
    workLeft w' < workLeft w := by
  cases m with
  | take =>
    simp only [move] at moved
    cases took : w.pool.take with
    | none => simp [took] at moved
    | some taken =>
      obtain ⟨id, pool⟩ := taken
      simp only [took] at moved
      cases moved
      exact Nat.add_lt_add_right (Pool.wait_weight_lt took _) _
  | land place =>
    simp only [move] at moved
    cases landed : w.pool.land place with
    | none => simp [landed] at moved
    | some entry =>
      obtain ⟨⟨id, reply⟩, pool⟩ := entry
      simp only [landed] at moved
      cases moved
      exact Nat.add_lt_add_right (Pool.land_eq_some landed).2.2.2 _
  | leave =>
    simp only [move] at moved
    split at moved
    · obtain ⟨pool, left, rfl⟩ := Option.map_eq_some_iff.mp moved
      exact Nat.add_lt_add_right (Pool.leave_weight_lt left).2.2 _
    · cases moved
  | next =>
    simp only [move] at moved
    split at moved
    · cases more : w.levels with
      | nil => simp [more] at moved
      | cons level levels =>
        simp only [more] at moved
        cases moved
        have bound := workers_weight_le limit level
        simp only [workLeft, more, map_cons, sum_cons]
        omega
    · cases moved

theorem can_move (calls : Calls) (limit : Limit) (open_ : ¬ w.finished) :
    ∃ m w', move calls limit w m = some w' := by
  cases done : w.pool.isDone with
  | true =>
    cases more : w.levels with
    | nil => exact absurd ⟨done, more⟩ open_
    | cons level levels =>
      refine ⟨.next, ⟨w.filling, workers limit level, levels⟩, ?_⟩
      simp only [move, done, more, if_true]
  | false =>
    cases air : w.pool.flying with
    | cons entry rest =>
      have landed : w.pool.land 0 = some (entry, { w.pool with flying := rest }) := by
        simp [Pool.land, air]
      refine ⟨.land 0, ?_⟩
      simp only [move, landed]
      exact ⟨_, rfl⟩
    | nil =>
      obtain ⟨pool, left⟩ := Pool.idle_of_not_isDone done air
      cases queue : w.pool.queue with
      | nil =>
        refine ⟨.leave, ?_⟩
        simp only [move, queue, left, if_true, Option.map_some]
        exact ⟨_, rfl⟩
      | cons id rest =>
        cases idle : w.pool.idle with
        | zero => simp [Pool.leave, idle] at left
        | succ n =>
          have took : w.pool.take = some (id, ⟨rest, w.pool.flying, n⟩) := by
            simp [Pool.take, queue, idle]
          refine ⟨.take, ?_⟩
          simp only [move, took]
          exact ⟨_, rfl⟩

theorem finishes {limit : Limit} (w : Work) :
    ∃ steps w', (workSystem calls limit nodes).Run w steps w' ∧ w'.finished := by
  induction left : workLeft w using Nat.strongRecOn generalizing w with
  | ind n ih =>
    by_cases finished : w.finished
    · exact ⟨[], w, .refl w, finished⟩
    · obtain ⟨m, w', moved⟩ := can_move calls limit finished
      have less := move_workLeft moved
      obtain ⟨steps, last, run, finished'⟩ := ih (workLeft w') (by omega) w' rfl
      exact ⟨_, last, run.cons moved, finished'⟩

theorem nan_reaches (filling : Filling) (levels : List (List Text))
    (pool : Pool Text (Text × Option Text)) (done : pool.isDone = true) :
    ∃ steps w, (workSystem calls .nan nodes).Run ⟨filling, pool, levels⟩ steps w ∧ w.finished ∧
      w.filling = filling := by
  induction levels generalizing pool with
  | nil => exact ⟨[], _, .refl _, ⟨done, rfl⟩, rfl⟩
  | cons level levels ih =>
    obtain ⟨steps, w, run, finished, same⟩ := ih (workers .nan level) rfl
    have first : (workSystem calls .nan nodes).step ⟨filling, pool, level :: levels⟩ .next
        ⟨filling, workers .nan level, levels⟩ := by
      change move calls .nan _ .next = _
      simp only [move, done, if_true]
    exact ⟨_, w, run.cons first, finished, same⟩

end Order

section Think

variable {ν : Type} (model : Model ν) (uplift : Spec) (minNodes maxNodes : Nat)

theorem buildGraph_closed : Closed (buildGraph model uplift minNodes maxNodes).1.nodes := by
  unfold buildGraph
  split <;> exact WorkflowWaves.normalizeGraph_closed ..

theorem buildGraph_trimmed :
    ∀ node ∈ (buildGraph model uplift minNodes maxNodes).1.nodes, Trimmed node.question := by
  unfold buildGraph
  split
  next raw _ =>
    exact trimmed_normalizeGraph (model.extractJsonObject raw) uplift.original minNodes maxNodes
  · exact trimmed_normalizeGraph .null uplift.original minNodes maxNodes

theorem sortedNodes_perm : (sortedNodes model uplift minNodes maxNodes).Perm
    (buildGraph model uplift minNodes maxNodes).1.nodes :=
  topoSort_perm (buildGraph_closed model uplift minNodes maxNodes)

theorem sortedNodes_distinct : ((sortedNodes model uplift minNodes maxNodes).map (·.id)).Nodup :=
  ((sortedNodes_perm model uplift minNodes maxNodes).map _).nodup_iff.mpr
    (buildGraph_closed model uplift minNodes maxNodes).nodup

end Think

theorem staffed_limitOf {concurrency : Option JsNumber.Number}
    (number : concurrency ≠ some .nan) : Staffed (limitOf concurrency) := by
  rcases concurrency with _ | value
  · exact Nat.one_pos
  · cases value with
    | nan => exact absurd rfl number
    | infinity negative =>
      cases negative
      · trivial
      · exact Nat.one_pos
    | finite x =>
      simp only [limitOf]
      split
      · exact Nat.one_pos
      · exact Nat.lt_of_lt_of_le Nat.one_pos (Nat.le_max_left ..)

theorem Full.trimmed (full : Full calls nodes filled s)
    (questions : ∀ node ∈ nodes, Trimmed node.question) (mem : node ∈ s.nodes) :
    ∃ conclusion, node.conclusion = some conclusion ∧ Trimmed conclusion := by
  have inFilled : node.id ∈ filled := by
    rw [full.2.mem_iff, ← ids_of_plain full.1.fixed]
    exact mem_map.mpr ⟨node, mem, rfl⟩
  have done := full.1.done node mem inFilled
  cases answer : replyTo calls s.nodes node with
  | some raw =>
    rw [answer] at done
    refine ⟨(parseNodeFill raw).conclusion, ?_, trimmed_parseNodeFill raw⟩
    rw [done]
    rfl
  | none =>
    rw [answer] at done
    have there : plain node ∈ nodes.map plain := by
      rw [← full.1.fixed]
      exact mem_map.mpr ⟨node, mem, rfl⟩
    obtain ⟨original, inNodes, fixed⟩ := mem_map.mp there
    simp only [plain, ThoughtNode.mk.injEq, and_true] at fixed
    refine ⟨node.question, ?_, ?_⟩
    · conv_lhs => rw [done]
      rfl
    · rw [← fixed.2.2.2.1]
      exact questions original inNodes

/-- Each prompt sent holds the conclusions that the node's dependencies end with. -/
theorem Full.prompts (full : Full calls nodes filled s) (distinct : (nodes.map (·.id)).Nodup)
    (questions : ∀ node ∈ nodes, Trimmed node.question) :
    ∀ e ∈ s.sent, ∀ node ∈ s.nodes, node.id = e.1 → ∀ dep ∈ node.dependsOn,
      ∃ pred ∈ s.nodes, pred.id = dep ∧ ∃ conclusion, pred.conclusion = some conclusion ∧
        conclusion <:+: e.2 := by
  intro e mem node here about dep listed
  obtain ⟨ready, sender, found, prompt⟩ := full.1.sent e mem
  have one := lookup_of_mem (full.1.distinct distinct) here
  rw [about, found] at one
  cases one
  have inFilled := ready node here about dep listed
  rw [full.2.mem_iff, ← ids_of_plain full.1.fixed] at inFilled
  obtain ⟨pred, inside, rfl⟩ := mem_map.mp inFilled
  obtain ⟨conclusion, ended, trimmed⟩ := full.trimmed questions inside
  refine ⟨pred, inside, rfl, conclusion, ended, ?_⟩
  rw [prompt]
  exact conclusion_in_prompt listed (lookup_of_mem (full.1.distinct distinct) inside) ended trimmed

/-- For every completer, every reply whose normalized graph is acyclic and every concurrency
that is a number: the work ends, and in whatever order its calls finish it gives the graph,
the XML and the degraded fills of the sequential loop, after one prompt for each node that
holds the final conclusions of the node's dependencies. -/
theorem concurrent_thinking_sequential {ν : Type} (model : Model ν) (uplift : Spec)
    (minNodes maxNodes : Nat) (concurrency : Option JsNumber.Number)
    (number : concurrency ≠ some .nan)
    (acyclic : Acyclic (DependsOn (buildGraph model uplift minNodes maxNodes).1.nodes)) :
    let nodes := sortedNodes model uplift minNodes maxNodes
    let calls := callsOf model uplift minNodes maxNodes
    let result := resultOf model uplift minNodes maxNodes
    let sequential := fillInOrder calls nodes
    (∀ filling, Fills calls (limitOf concurrency) nodes filling →
      (result filling).graph = (result sequential).graph ∧
      (result filling).xml = (result sequential).xml ∧
      (result filling).degradedGraph = (result sequential).degradedGraph ∧
      (result filling).degradedFills.Perm (result sequential).degradedFills ∧
      (filling.sent.map Prod.fst).Perm (nodes.map (·.id)) ∧
      ∀ e ∈ filling.sent, ∀ node ∈ filling.nodes, node.id = e.1 → ∀ dep ∈ node.dependsOn,
        ∃ pred ∈ filling.nodes, pred.id = dep ∧ ∃ conclusion, pred.conclusion = some conclusion ∧
          conclusion <:+: e.2) ∧
    ∀ steps w, (workSystem calls (limitOf concurrency) nodes).Run (Work.start nodes) steps w →
      steps.length ≤ workLeft (Work.start nodes) ∧
        (w.finished ∨ ∃ m w', move calls (limitOf concurrency) w m = some w') := by
  intro nodes calls result sequential
  have distinct := sortedNodes_distinct model uplift minNodes maxNodes
  have ordered : Ordered nodes :=
    topoSort_order (buildGraph_closed model uplift minNodes maxNodes) acyclic
  have questions : ∀ node ∈ nodes, Trimmed node.question := fun node mem =>
    buildGraph_trimmed model uplift minNodes maxNodes node
      ((sortedNodes_perm model uplift minNodes maxNodes).mem_iff.mp mem)
  have alone := @fillInOrder_full calls nodes distinct ordered
  refine ⟨fun filling fills => ?_, fun steps w run => ⟨?_, ?_⟩⟩
  · have filled : ∃ filled, Full calls nodes filled filling ∧
        (filling.sent.map Prod.fst).Perm (nodes.map (·.id)) := by
      unfold Fills at fills
      split at fills
      · rw [fills]
        exact ⟨_, alone.1, by rw [alone.2]⟩
      · obtain ⟨w, reached, finished, rfl⟩ := fills
        exact full_of_finished distinct ordered (staffed_limitOf number) reached finished
    obtain ⟨filled, full, sent⟩ := filled
    have same := full_nodes_eq distinct ordered full alone.1
    have graph : (result filling).graph = (result sequential).graph := by
      simp only [result, resultOf, sequential, same]
    have degraded : (result filling).degradedGraph = (result sequential).degradedGraph := by
      simp only [result, resultOf]
    refine ⟨graph, ?_, degraded, full_fills_perm distinct ordered full alone.1, sent,
      full.prompts distinct questions⟩
    simp only [result, resultOf, sequential, same]
  · have bound := run.length_le workLeft fun m i n moved => move_workLeft moved
    omega
  · by_cases finished : w.finished
    · exact Or.inl finished
    · exact Or.inr (can_move calls _ finished)

/-- A model whose replies are no JSON: the fallback graph, and every node is `x`. -/
def plainModel : Model Unit where
  complete _ _ := some (js "x")
  graphSystem := []
  cotSystem := []
  extractJsonObject _ := .null

def someSpec : Spec := ⟨js "task", js "<TASK></TASK>"⟩

theorem plainModel_nodes : (buildGraph plainModel someSpec 5 8).1.nodes = fallbackGraph.nodes := by
  decide

theorem concurrent_thinking_sequential_fallback :
    ∃ w, (workSystem (callsOf plainModel someSpec 5 8) .unbounded
        (sortedNodes plainModel someSpec 5 8)).Reachable w ∧ w.finished ∧
      (resultOf plainModel someSpec 5 8 w.filling).xml =
        (resultOf plainModel someSpec 5 8 (fillInOrder (callsOf plainModel someSpec 5 8)
          (sortedNodes plainModel someSpec 5 8))).xml := by
  obtain ⟨steps, w, run, finished⟩ := @finishes (callsOf plainModel someSpec 5 8)
    (sortedNodes plainModel someSpec 5 8) .unbounded
    (Work.start (sortedNodes plainModel someSpec 5 8))
  have reached : (workSystem (callsOf plainModel someSpec 5 8) .unbounded
      (sortedNodes plainModel someSpec 5 8)).Reachable w := ⟨_, steps, rfl, run⟩
  refine ⟨w, reached, finished, ?_⟩
  refine ((concurrent_thinking_sequential plainModel someSpec 5 8 (some (.infinity false))
    (by simp) ?_).1 w.filling ?_).2.1
  · rw [plainModel_nodes]
    exact WorkflowWaves.acyclic_fallback
  · exact ⟨w, reached, finished, rfl⟩

/-- NaN as the concurrency starts no worker: no node is filled. -/
theorem nan_concurrency_fills_nothing :
    ∃ filling, Acyclic (DependsOn (buildGraph plainModel someSpec 5 8).1.nodes) ∧
      Fills (callsOf plainModel someSpec 5 8) (limitOf (some .nan))
        (sortedNodes plainModel someSpec 5 8) filling ∧
      (resultOf plainModel someSpec 5 8 filling).graph ≠
        (resultOf plainModel someSpec 5 8 (fillInOrder (callsOf plainModel someSpec 5 8)
          (sortedNodes plainModel someSpec 5 8))).graph := by
  have acyclic : Acyclic (DependsOn (buildGraph plainModel someSpec 5 8).1.nodes) := by
    rw [plainModel_nodes]
    exact WorkflowWaves.acyclic_fallback
  have distinct := sortedNodes_distinct plainModel someSpec 5 8
  have ordered : Ordered (sortedNodes plainModel someSpec 5 8) :=
    topoSort_order (buildGraph_closed plainModel someSpec 5 8) acyclic
  obtain ⟨steps, w, run, finished, same⟩ := @nan_reaches (callsOf plainModel someSpec 5 8)
    (sortedNodes plainModel someSpec 5 8) ⟨sortedNodes plainModel someSpec 5 8, [], []⟩
    ((dependencyLevels (sortedNodes plainModel someSpec 5 8)).map fun group => group.map (·.id))
    ⟨[], [], 0⟩ rfl
  refine ⟨w.filling, acyclic, ⟨w, ⟨_, steps, rfl, run⟩, finished, rfl⟩, fun equal => ?_⟩
  have nodes : sortedNodes plainModel someSpec 5 8 =
      (fillInOrder (callsOf plainModel someSpec 5 8) (sortedNodes plainModel someSpec 5 8)).nodes := by
    have graphs := congrArg ThoughtGraph.nodes equal
    rwa [resultOf, resultOf, same] at graphs
  obtain ⟨node, mem⟩ : ∃ node, node ∈ fallbackGraph.nodes := ⟨_, mem_cons_self⟩
  have sorted : node ∈ sortedNodes plainModel someSpec 5 8 := by
    rw [(sortedNodes_perm plainModel someSpec 5 8).mem_iff, plainModel_nodes]
    exact mem
  have unfilled : ∀ node ∈ fallbackGraph.nodes, node.conclusion = none := by decide
  have questions : ∀ node ∈ sortedNodes plainModel someSpec 5 8, Trimmed node.question :=
    fun node mem => buildGraph_trimmed plainModel someSpec 5 8 node
      ((sortedNodes_perm plainModel someSpec 5 8).mem_iff.mp mem)
  rw [nodes] at sorted
  obtain ⟨conclusion, some_, -⟩ := (fillInOrder_full distinct ordered).1.trimmed questions sorted
  rw [unfilled node mem] at some_
  cases some_

/-- A run asks for no node twice, and its calls have their dependencies. -/
theorem calls_wait (distinct : (nodes.map (·.id)).Nodup) (ordered : Ordered nodes)
    (staffed : Staffed limit) (reached : (workSystem calls limit nodes).Reachable w) :
    (w.filling.sent.map Prod.fst).Nodup ∧
      ∀ e ∈ w.pool.flying, ∀ node ∈ w.filling.nodes, node.id = e.1 → ∀ dep ∈ node.dependsOn,
        ∃ pred ∈ w.filling.nodes, pred.id = dep ∧ pred.conclusion.isSome := by
  obtain ⟨filled, working⟩ := working_of_reachable distinct ordered staffed reached
  constructor
  · have all := working.distinct_all distinct
    rw [← append_assoc] at all
    exact working.sent.nodup_iff.mpr all.of_append_left
  · intro e mem node here about dep listed
    have done := (working.flying e mem).1 node here about dep listed
    have known := working.all.subset (mem_append_left _ done)
    rw [← ids_of_plain working.good.fixed] at known
    obtain ⟨pred, inside, rfl⟩ := mem_map.mp known
    refine ⟨pred, inside, rfl, ?_⟩
    rw [working.good.done pred inside done]
    cases replyTo calls w.filling.nodes pred <;> rfl

theorem calls_wait_finished :
    ∃ w : Work, w.finished ∧ (w.filling.sent.map Prod.fst).Nodup := by
  obtain ⟨steps, w, run, finished⟩ := @finishes (callsOf plainModel someSpec 5 8)
    (sortedNodes plainModel someSpec 5 8) .unbounded (Work.start _)
  refine ⟨w, finished, (calls_wait (sortedNodes_distinct ..)
    (topoSort_order (buildGraph_closed ..) ?_) (by trivial) ⟨_, steps, rfl, run⟩).1⟩
  rw [plainModel_nodes]
  exact WorkflowWaves.acyclic_fallback

end Ultrathink.Guarantees.ThinkOrder
