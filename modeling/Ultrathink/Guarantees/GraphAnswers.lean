import Ultrathink.Guarantees.GraphNormal
import Ultrathink.Source.Config.Merge
import Ultrathink.Source.Host.Grokbot

/-!
# An accepted graph answer in the run after it

The step that stores an answer reads the graph with the bounds 5 and 8, the run that is resumed
reads it with the configured ones.
-/

namespace Ultrathink.Guarantees.GraphAnswers

open Library JsText Host.Grokbot
open Library.JsNumber (Number)
open Source.Think.Graph Source.Think.Pipeline
open Source.Config (ThinkConfig mergeThink defaultConfig)
open GraphNormal (length_closeWithSynthesis)

def Accepted (raw : Text) (recorded : Option Text) : Prop := (validateAnswer raw recorded).ok = true

/-- The entries of the answer's graph. -/
def entries (raw : Text) : List Value := sourceNodes (extractJsonObject raw)

/-- The graph of the answer as the step reads it, with the goal `original` where it names
none. -/
def answered (raw original : Text) : ThoughtGraph :=
  normalizeGraph (extractJsonObject raw) original MIN_NODES MAX_NODES

/-- A configured bound; `mergeThink_bounds` says that they are whole numbers from 1 to 8. -/
def bound (q : ℚ) : Nat := q.num.toNat

/-- The run uses the graph of the answer, and does not report the fallback graph. -/
def Uses (model : Model Number) (uplift : Spec) (think : ThinkConfig) (raw : Text) : Prop :=
  buildGraph model uplift (bound think.minNodes) (bound think.maxNodes) =
    (answered raw uplift.original, false)

/-- The answer names no goal, the run's own is that of the fallback graph or blank, and the
nodes are those of the fallback graph: then the answer reads as the boilerplate. -/
def Boilerplate (raw original : Text) : Prop :=
  asString (property (extractJsonObject raw) "goal") = [] ∧
  orText original fallbackGraph.goal = fallbackGraph.goal ∧
  isFallbackGraph ⟨fallbackGraph.goal, (answered raw original).nodes⟩ = true

instance (raw original : Text) : Decidable (Boilerplate raw original) :=
  inferInstanceAs (Decidable (_ ∧ _ ∧ _))

variable {raw : Value} {m n : Nat} {goal : Text} {reserved : List Text} {recorded : Option Text}

theorem readNodes_bounds (rest : List (Value × Nat)) (r : Reading)
    (below : r.nodes.length + rest.length ≤ m) (below' : r.nodes.length + rest.length ≤ n) :
    readNodes reserved m rest r = readNodes reserved n rest r := by
  induction rest generalizing r with
  | nil => rfl
  | cons head rest ih =>
    obtain ⟨entry, index⟩ := head
    rw [List.length_cons] at below below'
    rw [readNodes, readNodes]
    split
    · exact ih r (by omega) (by omega)
    dsimp only
    split
    · exact ih r (by omega) (by omega)
    · have count : (takeEntry r entry (idOf reserved r entry index) index).nodes.length =
          r.nodes.length + 1 := by
        simp [takeEntry]
      -- A bound that is met here is met with the last entry.
      have last : ∀ k, r.nodes.length + (rest.length + 1) ≤ k →
          k ≤ (takeEntry r entry (idOf reserved r entry index) index).nodes.length → rest = [] := by
        intro k fits full
        rw [count] at full
        exact List.eq_nil_of_length_eq_zero (by omega)
      split
      · next full =>
        rw [last m below full]
        split <;> rfl
      · split
        · next full =>
          rw [last n below' full]
          rfl
        · exact ih _ (by omega) (by omega)

theorem readNodes_length (rest : List (Value × Nat)) (r : Reading)
    (short : r.nodes.length < max m 1) :
    (readNodes reserved m rest r).nodes.length ≤ max m 1 := by
  induction rest generalizing r with
  | nil => exact Nat.le_of_lt short
  | cons head rest ih =>
    obtain ⟨entry, index⟩ := head
    rw [readNodes]
    split
    · exact ih r short
    dsimp only
    split
    · exact ih r short
    · have count : (takeEntry r entry (idOf reserved r entry index) index).nodes.length =
          r.nodes.length + 1 := by
        simp [takeEntry]
      split
      · omega
      · exact ih _ (by omega)

theorem readReply_bounds (below : (sourceNodes raw).length ≤ m)
    (below' : (sourceNodes raw).length ≤ n) : readReply raw m = readReply raw n := by
  apply readNodes_bounds <;> simpa [List.length_zipIdx]

theorem readReply_length (raw : Value) (m : Nat) : (readReply raw m).nodes.length ≤ max m 1 :=
  readNodes_length _ _ (by simp)

theorem normalizeGraph_few {minNodes maxNodes : Nat}
    (few : (readReply raw maxNodes).nodes.length < minNodes) :
    normalizeGraph raw goal minNodes maxNodes = fallbackGraph := by
  unfold normalizeGraph
  exact if_pos few

theorem normalizeGraph_enough {minNodes maxNodes : Nat}
    (enough : ¬ (readReply raw maxNodes).nodes.length < minNodes) :
    normalizeGraph raw goal minNodes maxNodes =
      ⟨orText (asString (property raw "goal")) (orText goal fallbackGraph.goal),
        closeWithSynthesis ((readReply raw maxNodes).nodes.map (resolveNode (readReply raw maxNodes)))⟩ := by
  unfold normalizeGraph
  exact if_neg enough

theorem normalizeGraph_length {minNodes maxNodes : Nat}
    (enough : ¬ (readReply raw maxNodes).nodes.length < minNodes) :
    (normalizeGraph raw goal minNodes maxNodes).nodes.length = (readReply raw maxNodes).nodes.length := by
  rw [normalizeGraph_enough enough]
  simp [length_closeWithSynthesis]

theorem isFallbackGraph_fallback : isFallbackGraph fallbackGraph = true := by decide +kernel

theorem isFallbackGraph_iff (graph : ThoughtGraph) :
    isFallbackGraph graph = true ↔
      graph.goal = fallbackGraph.goal ∧ isFallbackGraph ⟨fallbackGraph.goal, graph.nodes⟩ = true := by
  simp only [isFallbackGraph, Bool.and_eq_true, decide_eq_true_eq, and_assoc, true_and]

theorem check_nil {when : Bool} {text : Text} : check when text = [] ↔ when = false := by
  cases when <;> simp [check]

/-- An accepted answer has five to eight entries, each of which becomes a node of a graph that
is not the boilerplate. -/
theorem accepted_graph {raw : Text} (accepted : Accepted raw recorded) :
    MIN_NODES ≤ (entries raw).length ∧ (entries raw).length ≤ MAX_NODES ∧
    (readReply (extractJsonObject raw) MAX_NODES).nodes.length = (entries raw).length ∧
    isFallbackGraph (answered raw (recorded.getD [])) = false := by
  unfold Accepted validateAnswer validateGraph at accepted
  split at accepted
  · cases accepted
  split at accepted
  · cases accepted
  dsimp only at accepted
  split at accepted
  · next nodes listed =>
    have source : entries raw = nodes := by
      rw [entries, sourceNodes, listed]
    simp only [graphErrors, List.isEmpty_iff, List.append_eq_nil_iff, check_nil, Bool.or_eq_false_iff,
      decide_eq_false_iff_not, not_lt, not_not] at accepted
    obtain ⟨⟨⟨⟨⟨⟨least, most⟩, real⟩, kept⟩, -⟩, -⟩, -⟩ := accepted
    have enough : ¬ (readReply (extractJsonObject raw) MAX_NODES).nodes.length < MIN_NODES := by
      intro few
      rw [normalizeGraph_few few, isFallbackGraph_fallback] at real
      cases real
    rw [normalizeGraph_length enough] at kept
    rw [source]
    exact ⟨least, most, kept, real⟩
  · cases accepted

theorem buildGraph_resumed (graphSystem cotSystem : Text) (complete : Text → Text → Option Text)
    (uplift : Spec) (minNodes maxNodes : Nat) (raw : Text) :
    buildGraph (resumed graphSystem cotSystem complete uplift raw) uplift minNodes maxNodes =
      (normalizeGraph (extractJsonObject raw) uplift.original minNodes maxNodes,
        isFallbackGraph (normalizeGraph (extractJsonObject raw) uplift.original minNodes maxNodes)) := by
  simp [buildGraph, resumed]

theorem orText_nil (b : Text) : orText [] b = b := if_pos rfl

theorem orText_some {a : Text} (given : a ≠ []) (b : Text) : orText a b = a := if_neg given

/-- The goal of the run makes an accepted answer the boilerplate only where the answer names
none. -/
theorem isFallbackGraph_answered {raw : Text} (accepted : Accepted raw recorded) (original : Text) :
    isFallbackGraph (answered raw original) = true ↔ Boilerplate raw original := by
  obtain ⟨least, most, kept, real⟩ := accepted_graph accepted
  have enough : ¬ (readReply (extractJsonObject raw) MAX_NODES).nodes.length < MIN_NODES := by omega
  have same : (answered raw (recorded.getD [])).nodes = (answered raw original).nodes := by
    rw [answered, answered, normalizeGraph_enough enough, normalizeGraph_enough enough]
  have goal : ∀ own, (answered raw own).goal =
      orText (asString (property (extractJsonObject raw) "goal")) (orText own fallbackGraph.goal) := by
    intro own
    rw [answered, normalizeGraph_enough enough]
  rw [isFallbackGraph_iff, goal, Boilerplate]
  by_cases named : asString (property (extractJsonObject raw) "goal") = []
  · rw [named, orText_nil]
    exact ⟨fun both => ⟨rfl, both⟩, fun both => both.2⟩
  · rw [orText_some named]
    constructor
    · rintro ⟨goalIs, nodes⟩
      -- With this goal and these nodes the step would have refused the answer.
      have refusedBefore : isFallbackGraph (answered raw (recorded.getD [])) = true := by
        rw [isFallbackGraph_iff, goal, orText_some named, same]
        exact ⟨goalIs, nodes⟩
      rw [real] at refusedBefore
      cases refusedBefore
    · intro both
      exact absurd both.1 named

/-- The accepted answer is the graph of the run exactly when the configured bounds allow the
number of its entries and the run's own goal does not make it the boilerplate. -/
theorem accepted_used {raw : Text} {recorded : Option Text} (accepted : Accepted raw recorded)
    (graphSystem cotSystem : Text) (complete : Text → Text → Option Text) (uplift : Spec)
    (think : ThinkConfig) :
    Uses (resumed graphSystem cotSystem complete uplift raw) uplift think raw ↔
      bound think.minNodes ≤ (entries raw).length ∧ (entries raw).length ≤ bound think.maxNodes ∧
        ¬ Boilerplate raw uplift.original := by
  obtain ⟨least, most, kept, -⟩ := accepted_graph accepted
  have five : 5 ≤ (entries raw).length := least
  have enough : ¬ (readReply (extractJsonObject raw) MAX_NODES).nodes.length < MIN_NODES := by omega
  rw [Uses, buildGraph_resumed, Prod.mk.injEq]
  generalize bound think.minNodes = minNodes
  generalize bound think.maxNodes = maxNodes
  constructor
  · rintro ⟨graph, real⟩
    have taken : ¬ (readReply (extractJsonObject raw) maxNodes).nodes.length < minNodes := by
      intro few
      rw [normalizeGraph_few few, isFallbackGraph_fallback] at real
      cases real
    have count := congrArg (fun graph : ThoughtGraph => graph.nodes.length) graph
    rw [normalizeGraph_length taken, answered, normalizeGraph_length enough, kept] at count
    have bound := readReply_length (extractJsonObject raw) maxNodes
    refine ⟨by omega, by omega, ?_⟩
    rw [← isFallbackGraph_answered accepted, ← graph, real]
    exact Bool.false_ne_true
  · rintro ⟨enoughEntries, fits, real⟩
    have same : readReply (extractJsonObject raw) maxNodes = readReply (extractJsonObject raw) MAX_NODES :=
      readReply_bounds fits most
    have taken : ¬ (readReply (extractJsonObject raw) maxNodes).nodes.length < minNodes := by
      rw [same, kept]
      omega
    have graph : normalizeGraph (extractJsonObject raw) uplift.original minNodes maxNodes =
        answered raw uplift.original := by
      rw [answered, normalizeGraph_enough taken, normalizeGraph_enough enough, same]
    rw [graph]
    exact ⟨rfl, Bool.eq_false_iff.mpr fun boiler => real ((isFallbackGraph_answered accepted _).mp boiler)⟩

/-- Five nodes, of which the step asks for the kinds of the first and of a critique. -/
def fiveNodes : Text :=
  js <| "\x7b\"nodes\":[\x7b\"kind\":\"understand\"\x7d,\x7b\x7d,\x7b\x7d," ++
    "\x7b\"kind\":\"critique\"\x7d,\x7b\x7d]\x7d"

/-- A configuration that asks for six nodes at least. -/
def sixAtLeast : ThinkConfig :=
  mergeThink (some [(js "minNodes", .num (.finite 6))]) defaultConfig.think

theorem fiveNodes_accepted : Accepted fiveNodes (some (js "x")) := by
  unfold Accepted
  decide +kernel

def planner : Spec := ⟨js "x", []⟩

theorem accepted_used_default :
    Uses (resumed [] [] (fun _ _ => none) planner fiveNodes) planner defaultConfig.think
      fiveNodes := by
  apply (accepted_used fiveNodes_accepted [] [] (fun _ _ => none) planner _).mpr
  decide +kernel

/-- With six nodes at least the run replaces the five accepted ones. -/
theorem accepted_replaced :
    Accepted fiveNodes (some (js "x")) ∧
    ¬ Uses (resumed [] [] (fun _ _ => none) planner fiveNodes) planner sixAtLeast fiveNodes := by
  refine ⟨fiveNodes_accepted, fun uses => ?_⟩
  have flag := congrArg Prod.snd uses
  revert flag
  decide +kernel

end Ultrathink.Guarantees.GraphAnswers
