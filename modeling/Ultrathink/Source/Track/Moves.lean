import Ultrathink.Library.JsNumber
import Ultrathink.Source.Track.Create

/-!
# What one step of a tracking run does

The references by row (`Refs.get`), what each statement changes of them and what it
sends. An answer only fills the places of the rows of its own call; adoption only fills
empty places.
-/

namespace Ultrathink.Source.Track

open List Library JsText

theorem append_dot_inj {s s' t t' : Text} {u : UInt16} (no : u ∉ t) (no' : u ∉ t')
    (same : s ++ u :: t = s' ++ u :: t') : s = s' ∧ t = t' := by
  have reversed := congrArg List.reverse same
  simp only [reverse_append, reverse_cons, append_assoc, singleton_append] at reversed
  have head : ∀ {a b : Text}, u ∉ a → (a.reverse ++ u :: b).takeWhile (· ≠ u) = a.reverse := by
    intro a b fresh
    rw [takeWhile_append_of_pos]
    · simp
    · intro v mem
      rw [mem_reverse] at mem
      have other : v ≠ u := fun eq => fresh (eq ▸ mem)
      simpa using other
  have tails : t = t' := by
    have := congrArg (List.takeWhile (· ≠ u)) reversed
    rwa [head no, head no', reverse_inj] at this
  subst tails
  exact ⟨(append_left_inj _).mp same, rfl⟩

theorem stepKey_inj {nodeId nodeId' : Text} {step step' : Nat}
    (same : stepKey nodeId step = stepKey nodeId' step') : nodeId = nodeId' ∧ step = step' := by
  have no : ∀ n, (0x2E : UInt16) ∉ ofNat n := by
    intro n mem
    rw [JsNumber.ofNat_eq_digits] at mem
    exact absurd (JsNumber.isDigit_of_mem_digits n _ mem) (by decide)
  have dot : js "." = [0x2E] := by decide
  simp only [stepKey, dot, append_assoc, singleton_append] at same
  obtain ⟨nodes, steps⟩ := append_dot_inj (no step) (no step') same
  rw [JsNumber.ofNat_eq_digits, JsNumber.ofNat_eq_digits] at steps
  exact ⟨nodes, by rw [← JsNumber.valueOf_digits step, steps, JsNumber.valueOf_digits]⟩

inductive Reference where
  | issue (ref : IssueRef)
  | url (url : Text)
deriving DecidableEq

def Refs.get (refs : Refs) : RowKey → Option Reference
  | .linearNode nodeId => (refs.linearNodes.get? nodeId).map .issue
  | .linearStep key => (refs.linearSteps.get? key).map .issue
  | .notionTask => (refs.taskUrl.filter (· ≠ [])).map .url
  | .notionNode nodeId => ((refs.notionNodes.get? nodeId).filter (· ≠ [])).map .url
  | .notionStep key => ((refs.notionSteps.get? key).filter (· ≠ [])).map .url

def Refs.has (refs : Refs) (row : RowKey) : Bool := (refs.get row).isSome

theorem isUrl_eq (url : Option Text) : isUrl url = (url.filter (· ≠ [])).isSome := by
  cases url with
  | none => rfl
  | some t => by_cases empty : t = [] <;> simp [isUrl, Option.filter, empty]

@[simp] theorem hasLinearNode_eq (refs : Refs) (nodeId : Text) :
    refs.hasLinearNode nodeId = refs.has (.linearNode nodeId) := by
  simp [Refs.hasLinearNode, Refs.has, Refs.get]

@[simp] theorem hasLinearStep_eq (refs : Refs) (key : Text) :
    refs.hasLinearStep key = refs.has (.linearStep key) := by
  simp [Refs.hasLinearStep, Refs.has, Refs.get]

@[simp] theorem hasTask_eq (refs : Refs) : refs.hasTask = refs.has .notionTask := by
  simp [Refs.hasTask, Refs.has, Refs.get, isUrl_eq]

@[simp] theorem hasNotionNode_eq (refs : Refs) (nodeId : Text) :
    refs.hasNotionNode nodeId = refs.has (.notionNode nodeId) := by
  simp [Refs.hasNotionNode, Refs.has, Refs.get, isUrl_eq]

@[simp] theorem hasNotionStep_eq (refs : Refs) (key : Text) :
    refs.hasNotionStep key = refs.has (.notionStep key) := by
  simp [Refs.hasNotionStep, Refs.has, Refs.get, isUrl_eq]

/-- No reference but those of these rows differs. -/
def ChangesOnly (rows : List RowKey) (refs refs' : Refs) : Prop :=
  ∀ k ∉ rows, refs'.get k = refs.get k

/-- Every reference of `refs` is still there. -/
def Includes (refs refs' : Refs) : Prop := ∀ k r, refs.get k = some r → refs'.get k = some r

theorem ChangesOnly.refl (rows : List RowKey) (refs : Refs) : ChangesOnly rows refs refs :=
  fun _ _ => rfl

theorem Includes.refl (refs : Refs) : Includes refs refs := fun _ _ => id

theorem Includes.trans {a b c : Refs} (first : Includes a b) (second : Includes b c) :
    Includes a c := fun k r known => second k r (first k r known)

theorem Includes.has {refs refs' : Refs} (includes : Includes refs refs') {k : RowKey}
    (known : refs.has k = true) : refs'.has k = true := by
  obtain ⟨r, found⟩ := Option.isSome_iff_exists.mp known
  rw [Refs.has, includes k r found]
  rfl

section Adoption
variable {ν : Type} (host : Host ν)

theorem includes_foldl {ι : Type} (adopt : Refs → ι → Refs)
    (each : ∀ refs item, Includes refs (adopt refs item)) (items : List ι) (refs : Refs) :
    Includes refs (items.foldl adopt refs) := by
  induction items generalizing refs with
  | nil => exact .refl refs
  | cons item items ih => exact (each refs item).trans (ih _)

theorem adoptIssue_includes (graphId : Text) (refs : Refs) (issue : Json.Record ν) :
    Includes refs (adoptIssue host graphId refs issue) := by
  unfold adoptIssue
  split
  · exact .refl refs
  · simp only
    split
    · exact .refl refs
    · split
      · split
        · exact .refl refs
        · rename_i free
          intro k r known
          cases k with
          | linearNode key =>
            simp only [Refs.get, OrderedMap.get?_set]
            split
            · rename_i same
              rw [hasLinearNode_eq, Refs.has, ← same, known] at free
              exact absurd rfl free
            · exact known
          | _ => exact known
      · split
        · exact .refl refs
        · rename_i free
          intro k r known
          cases k with
          | linearStep key =>
            simp only [Refs.get, OrderedMap.get?_set]
            split
            · rename_i same
              rw [hasLinearStep_eq, Refs.has, ← same, known] at free
              exact absurd rfl free
            · exact known
          | _ => exact known

theorem adoptLinear_includes (graphId : Text) (refs : Refs) (result : Json ν) :
    Includes refs (adoptLinear host graphId refs result) :=
  includes_foldl _ (adoptIssue_includes host graphId) _ refs

theorem setMissing_kept {m : OrderedMap Text Text} (key url : Text) {k : Text} {r : Reference}
    (known : ((m.get? k).filter (· ≠ [])).map Reference.url = some r) :
    (((setMissing m key url).get? k).filter (· ≠ [])).map Reference.url = some r := by
  unfold setMissing
  split
  · exact known
  · rename_i free
    rw [OrderedMap.get?_set]
    split
    · rename_i same
      rw [same, Option.not_isSome_iff_eq_none.mp free] at known
      cases known
    · exact known

theorem adoptRow_includes (refs : Refs) (row : Json.Record ν) :
    Includes refs (adoptRow host refs row) := by
  unfold adoptRow
  split
  · rename_i url level _ _
    split
    · intro k r known
      cases k with
      | notionTask =>
        cases task : refs.taskUrl with
        | none =>
          simp only [Refs.get, task] at known
          cases known
        | some old =>
          simp only [Refs.get, task] at known ⊢
          exact known
      | _ => exact known
    · split
      · exact .refl refs
      · split
        · intro k r known
          cases k with
          | notionNode key => exact setMissing_kept _ _ known
          | _ => exact known
        · split
          · simp only
            split
            · intro k r known
              cases k with
              | notionStep key => exact setMissing_kept _ _ known
              | _ => exact known
            · exact .refl refs
          · exact .refl refs
  · exact .refl refs

theorem adoptNotion_includes (refs : Refs) (result : Json ν) :
    Includes refs (adoptNotion host refs result) :=
  includes_foldl _ (adoptRow_includes host) _ refs

end Adoption

section Settling
variable {ν : Type} (host : Host ν) (s : State ν)

/-- Only errors and these rows' references differ. -/
structure Fills (rows : List RowKey) (s s' : State ν) : Prop where
  refs : ChangesOnly rows s.refs s'.refs
  sent : s'.sent = s.sent
  aborted : s'.aborted = s.aborted

theorem fail_get (message : Text) (k : RowKey) : (s.fail message).refs.get k = s.refs.get k := by
  cases k <;> rfl

theorem Fills.refl (rows : List RowKey) : Fills rows s s := ⟨.refl _ _, rfl, rfl⟩

theorem Fills.fail (rows : List RowKey) (message : Text) : Fills rows s (s.fail message) :=
  ⟨fun k _ => fail_get s message k, rfl, rfl⟩

theorem saved_fills (rows : List RowKey) (label title : Text) (outcome : Outcome ν) :
    Fills rows s (saved host s label title outcome).1 := by
  cases outcome with
  | reply value =>
    unfold saved
    simp only
    split
    · exact .refl s rows
    · exact .fail s rows _
  | error message => exact .fail s rows _

theorem nodeSaved_fills (nodeId title : Text) (outcome : Outcome ν) :
    Fills [.linearNode nodeId] s (nodeSaved host s nodeId title outcome) := by
  have before := saved_fills host s [.linearNode nodeId] nodeId title outcome
  unfold nodeSaved
  split
  · rename_i s' ref same
    rw [same] at before
    refine ⟨fun k fresh => ?_, before.sent, before.aborted⟩
    rw [← before.refs k fresh]
    cases k with
    | linearNode id =>
      have other : id ≠ nodeId := fun eq => fresh (eq ▸ mem_singleton_self _)
      simp [Refs.get, other]
    | _ => rfl
  · rename_i s' same
    rw [same] at before
    exact before

theorem stepSaved_fills (sub : LinearSubIssuePlan) (outcome : Outcome ν) :
    Fills [sub.row] s (stepSaved host s sub outcome) := by
  have before := saved_fills host s [sub.row] (stepKey sub.nodeId sub.step) sub.title outcome
  unfold stepSaved
  simp only
  split
  · rename_i s' ref same
    rw [same] at before
    refine ⟨fun k fresh => ?_, before.sent, before.aborted⟩
    rw [← before.refs k fresh]
    cases k with
    | linearStep key =>
      have other : key ≠ stepKey sub.nodeId sub.step := fun eq =>
        fresh (eq ▸ mem_singleton_self _)
      simp [Refs.get, other]
    | _ => rfl
  · rename_i s' same
    rw [same] at before
    exact before

theorem created_fills (rows : List RowKey) (label : Text) (pages : Nat) (outcome : Outcome ν) :
    Fills rows s (created host s label pages outcome).1 := by
  cases outcome with
  | reply value =>
    unfold created
    simp only
    split
    · exact .refl s rows
    · exact .fail s rows _
  | error message => exact .fail s rows _

theorem setAll_get? (m : OrderedMap Text Text) (entries : List (Text × Text)) {k : Text}
    (fresh : k ∉ entries.map Prod.fst) : (setAll m entries).get? k = m.get? k := by
  induction entries generalizing m with
  | nil => rfl
  | cons e entries ih =>
    simp only [map_cons, mem_cons, not_or] at fresh
    exact (ih (m.set e.1 e.2) fresh.2).trans (OrderedMap.get?_set_of_ne m e.2 fresh.1)

theorem mem_zip_fst {keys urls : List Text} {k : Text} (mem : k ∈ (keys.zip urls).map Prod.fst) :
    k ∈ keys := by
  obtain ⟨e, inside, rfl⟩ := mem_map.mp mem
  exact (of_mem_zip inside).1

theorem taskCreated_fills (work : NotionWork) (outcome : Outcome ν) :
    Fills [.notionTask] s (taskCreated host s work outcome) := by
  have before := created_fills host s [.notionTask] (js "task") 1 outcome
  unfold taskCreated
  split
  · rename_i s' urls same
    rw [same] at before
    refine ⟨fun k fresh => ?_, before.sent, before.aborted⟩
    rw [← before.refs k fresh]
    cases k with
    | notionTask => exact absurd (mem_singleton_self _) fresh
    | _ => rfl
  · rename_i s' same
    rw [same] at before
    exact ⟨before.refs, before.sent, before.aborted⟩

theorem nodesCreated_fills (work : NotionWork) (outcome : Outcome ν) :
    Fills (work.nodeRows.map (·.row)) s (nodesCreated host s work outcome) := by
  have before := created_fills host s (work.nodeRows.map (·.row)) (js "nodes") work.nodeRows.length
    outcome
  unfold nodesCreated
  split
  · rename_i s' urls same
    rw [same] at before
    refine ⟨fun k fresh => ?_, before.sent, before.aborted⟩
    rw [← before.refs k fresh]
    cases k with
    | notionNode key =>
      simp only [Refs.get]
      rw [setAll_get? _ _ fun mem => ?_]
      obtain ⟨row, inside, named⟩ := mem_map.mp (mem_zip_fst mem)
      exact fresh (mem_map.mpr ⟨row, inside, congrArg RowKey.notionNode named⟩)
    | _ => rfl
  · rename_i s' same
    rw [same] at before
    exact ⟨before.refs, before.sent, before.aborted⟩

theorem batchCreated_fills (batch : List SubIssueRow) (outcome : Outcome ν) :
    Fills (batch.map (·.row)) s (batchCreated host s batch outcome) := by
  have before := created_fills host s (batch.map (·.row)) (batchLabel batch) batch.length outcome
  unfold batchCreated
  split
  · rename_i s' urls same
    rw [same] at before
    refine ⟨fun k fresh => ?_, before.sent, before.aborted⟩
    rw [← before.refs k fresh]
    cases k with
    | notionStep key =>
      simp only [Refs.get]
      rw [setAll_get? _ _ fun mem => ?_]
      obtain ⟨row, inside, named⟩ := mem_map.mp (mem_zip_fst mem)
      exact fresh (mem_map.mpr ⟨row, inside, congrArg RowKey.notionStep named⟩)
    | _ => rfl
  · rename_i s' same
    rw [same] at before
    exact before

end Settling

section Picking
variable {ν : Type}

/-- Only errors are added while rows are picked. -/
structure SameBut (s s' : State ν) : Prop where
  get : ∀ k, s'.refs.get k = s.refs.get k
  sent : s'.sent = s.sent
  aborted : s'.aborted = s.aborted

theorem SameBut.has {s s' : State ν} (same : SameBut s s') (k : RowKey) :
    s'.refs.has k = s.refs.has k := by
  rw [Refs.has, Refs.has, same.get]

theorem SameBut.refl (s : State ν) : SameBut s s := ⟨fun _ => rfl, rfl, rfl⟩

theorem SameBut.fail (s : State ν) (message : Text) : SameBut s (s.fail message) :=
  ⟨fail_get s message, rfl, rfl⟩

theorem SameBut.trans {a b c : State ν} (first : SameBut a b) (second : SameBut b c) :
    SameBut a c :=
  ⟨fun k => (second.get k).trans (first.get k), second.sent.trans first.sent,
    second.aborted.trans first.aborted⟩

theorem pickSteps_spec (s : State ν) (subs : List LinearSubIssuePlan) :
    SameBut s (pickSteps s subs).1 ∧ (pickSteps s subs).2.Sublist subs ∧
      ∀ sub ∈ (pickSteps s subs).2,
        s.refs.has sub.row = false ∧ s.refs.has (.linearNode sub.nodeId) = true := by
  induction subs generalizing s with
  | nil => exact ⟨.refl s, .refl _, by simp [pickSteps]⟩
  | cons sub rest ih =>
    rw [pickSteps]
    split
    · obtain ⟨same, sublist, picked⟩ := ih s
      exact ⟨same, .cons _ sublist, picked⟩
    · rename_i absent
      split
      · rename_i parent
        obtain ⟨same, sublist, picked⟩ := ih s
        refine ⟨same, .cons_cons _ sublist, fun one mem => ?_⟩
        rcases mem_cons.mp mem with rfl | later
        · exact ⟨by simpa [LinearSubIssuePlan.row] using absent, by simpa using parent⟩
        · exact picked one later
      · have failed := SameBut.fail s
          (js "linear " ++ stepKey sub.nodeId sub.step ++ js ": parent missing")
        obtain ⟨same, sublist, picked⟩ := ih (s.fail _)
        refine ⟨failed.trans same, .cons _ sublist, fun one mem => ?_⟩
        rw [← failed.has, ← failed.has]
        exact picked one mem

theorem pickRows_spec (s : State ν) (rows : List SubIssueRow) :
    SameBut s (pickRows s rows).1 ∧ (pickRows s rows).2.Sublist rows ∧
      ∀ row ∈ (pickRows s rows).2, s.refs.has (.notionNode row.nodeId) = true := by
  induction rows generalizing s with
  | nil => exact ⟨.refl s, .refl _, by simp [pickRows]⟩
  | cons row rest ih =>
    rw [pickRows]
    split
    · rename_i parent
      obtain ⟨same, sublist, picked⟩ := ih s
      refine ⟨same, .cons_cons _ sublist, fun one mem => ?_⟩
      rcases mem_cons.mp mem with rfl | later
      · simpa using parent
      · exact picked one later
    · have failed := SameBut.fail s
        (js "notion " ++ stepKey row.nodeId row.step ++ js ": parent missing")
      obtain ⟨same, sublist, picked⟩ := ih (s.fail _)
      refine ⟨failed.trans same, .cons _ sublist, fun one mem => ?_⟩
      rw [← failed.has]
      exact picked one mem

theorem flatten_slices (fuel : Nat) (rows : List SubIssueRow) (enough : rows.length ≤ fuel) :
    (slices fuel rows).flatten = rows := by
  induction fuel generalizing rows with
  | zero =>
    have none_ : rows = [] := length_eq_zero_iff.mp (by omega)
    rw [none_]
    rfl
  | succ fuel ih =>
    cases rows with
    | nil => rfl
    | cons row rows =>
      rw [slices, flatten_cons, ih, take_append_drop]
      simp only [notionBatch, length_drop, length_cons] at enough ⊢
      omega

theorem length_slices_le (fuel : Nat) (rows : List SubIssueRow) :
    (slices fuel rows).length ≤ rows.length := by
  induction fuel generalizing rows with
  | zero => simp [slices]
  | succ fuel ih =>
    cases rows with
    | nil => simp [slices]
    | cons row rows =>
      have rest := ih ((row :: rows).drop notionBatch)
      simp only [slices, notionBatch, length_cons, length_drop] at rest ⊢
      omega

end Picking

end Ultrathink.Source.Track
