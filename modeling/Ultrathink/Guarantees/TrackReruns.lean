import Ultrathink.Guarantees.TrackOnce

/-!
# A tracking run on the record of an earlier one

A row that the record names, or an entry of a lookup's answer names, is not submitted
again: not in any run, not for a plan that lists it twice. A lookup that fails names
nothing, and then a row that only the tracker holds is submitted once more.
-/

namespace Ultrathink.Guarantees.TrackReruns

open List Library JsText Regex Runs Source.Track TrackOnce

/-- The rows that the run has submitted, found missing or waits for. -/
def touched {ν : Type} (s : State ν) : List RowKey := submitted s ++ (picked s.pc ++ flying s.pc)

/-- A reference is lost only while its row is under way, and a row is touched only when it
was before or has no reference. -/
structure Stays {ν : Type} (s s' : State ν) : Prop where
  refs : ∀ k ∉ flying s.pc, s.refs.has k = true → s'.refs.has k = true
  rows : ∀ k ∈ touched s', k ∈ touched s ∨ s.refs.has k = false

variable {k : RowKey} {refs : Refs} {i : Nat} {work : NotionWork} {pc : Pc}

variable {rows : List RowKey} {graphId key url : Text} {m : OrderedMap Text Text}

section Steps
variable {ν : Type} (host : Host ν) (input : Input) {s s' : State ν}

theorem mem_touched :
    k ∈ touched s ↔ k ∈ submitted s ∨ k ∈ picked s.pc ∨ k ∈ flying s.pc := by
  rw [touched, mem_append, mem_append]

theorem Stays.of_moves {filled new : List RowKey} (moves : Moves input s s' filled new) :
    Stays s s' := by
  constructor
  · intro k still known
    have other : k ∉ filled := fun inside => still (moves.answered k inside)
    rw [Refs.has, moves.refs k other]
    exact known
  · intro k mem
    rcases mem_touched.mp mem with old | found | under
    · rw [moves.sends.submitted, mem_append] at old
      rcases old with old | fresh
      · exact Or.inl (mem_touched.mpr (Or.inl old))
      · exact Or.inr (moves.sends.missing k fresh)
    · exact Or.inr (moves.missing k found).2
    · rcases moves.under k under with old | fresh
      · exact Or.inl (mem_touched.mpr (Or.inr (Or.inr old)))
      · exact Or.inr (moves.sends.missing k fresh)

theorem Stays.of_rows (refs : ∀ k ∉ flying s.pc, s'.refs.has k = s.refs.has k)
    (rows : ∀ k ∈ touched s', k ∈ touched s) : Stays s s' :=
  ⟨fun k still known => (refs k still).trans known, fun k mem => Or.inl (rows k mem)⟩

theorem Stays.of_fills (fills : Fills rows s s') (answered : ∀ k ∈ rows, k ∈ flying s.pc)
    (found : ∀ k ∈ picked s'.pc, k ∈ picked s.pc) (under : ∀ k ∈ flying s'.pc, k ∈ flying s.pc) :
    Stays s s' := by
  apply Stays.of_rows
  · intro k still
    have other : k ∉ rows := fun inside => still (answered k inside)
    rw [Refs.has, Refs.has, fills.refs k other]
  · intro k mem
    rw [mem_touched, submitted, fills.sent] at mem
    rw [mem_touched]
    rcases mem with old | old | old
    · exact Or.inl old
    · exact Or.inr (Or.inl (found k old))
    · exact Or.inr (Or.inr (under k old))

theorem Stays.of_same (same : SameBut s s') (found : ∀ k ∈ picked s'.pc, k ∈ picked s.pc)
    (under : ∀ k ∈ flying s'.pc, k ∈ flying s.pc) : Stays s s' :=
  .of_fills (show Fills [] s s' from ⟨fun k _ => same.get k, same.sent, same.aborted⟩) (by simp) found
    under

theorem Stays.of_sent {sent : Sent ν} (refs : s'.refs = s.refs) (grown : s'.sent = s.sent ++ [sent])
    (rows : ∀ k ∈ sent.rows, k ∈ picked s.pc) (found : ∀ k ∈ picked s'.pc, k ∈ picked s.pc)
    (under : ∀ k ∈ flying s'.pc, k ∈ flying s.pc ∨ k ∈ sent.rows) : Stays s s' := by
  apply Stays.of_rows
  · intro k _
    rw [refs]
  · intro k mem
    rw [mem_touched, submitted, grown, flatMap_append, mem_append] at mem
    rw [mem_touched, submitted]
    rcases mem with (old | new) | old | new
    · exact Or.inl old
    · exact Or.inr (Or.inl (rows k (by simpa using new)))
    · exact Or.inr (Or.inl (found k old))
    · rcases under k new with old | new
      · exact Or.inr (Or.inr old)
      · exact Or.inr (Or.inl (rows k new))

theorem nodesStart_stays (at_ : s.pc = .nodesStart work) :
    Stays s (nodesStart host input s work) := by
  unfold nodesStart
  split
  · refine .of_sent rfl rfl ?_ ?_ fun k mem => Or.inr mem
    · intro k mem
      rw [at_]
      exact mem_append_left _ mem
    · intro k mem
      rw [at_]
      exact mem_append_right _ mem
  · refine .of_same ⟨fun _ => rfl, rfl, rfl⟩ ?_ (by simp [flying])
    intro k mem
    rw [at_]
    exact mem_append_right _ mem

theorem batchesStart_stays (at_ : s.pc = .batchesStart work) :
    Stays s (batchesStart input s work) := by
  obtain ⟨same, sublist, -⟩ := pickRows_spec s work.stepRows
  have all := flatten_slices _ (pickRows s work.stepRows).2 (Nat.le_refl _)
  unfold batchesStart
  refine .of_same ⟨same.get, same.sent, same.aborted⟩ ?_ (by simp [flying, Pool.start])
  intro k mem
  simp only [picked, Pool.start, all] at mem
  rw [at_]
  exact (sublist.map (·.row)).subset mem

theorem go_stays (ok : go host input s = some s') : Stays s s' := by
  unfold go at ok
  split at ok
  · rename_i at_
    cases ok
    exact .of_moves input (adoptStart_moves host input s at_)
  · rename_i at_
    cases ok
    exact .of_moves input (adoptNotionStart_moves input s at_)
  · rename_i at_
    cases ok
    exact .of_moves input (linearStart_moves input s at_)
  · rename_i rest at_
    cases ok
    exact .of_moves input (nextLevel_moves input s at_)
  · rename_i pool rest at_
    split at ok
    · cases ok
      exact .of_same ⟨fun _ => rfl, rfl, rfl⟩ (by simp [picked]) (by simp [flying])
    · cases ok
  · rename_i at_
    cases ok
    exact .of_moves input (stepsStart_moves input s at_)
  · rename_i pool at_
    split at ok
    · cases ok
      exact .of_same ⟨fun _ => rfl, rfl, rfl⟩ (by simp [picked]) (by simp [flying])
    · cases ok
  · rename_i at_
    cases ok
    exact .of_moves input (notionStart_moves input s at_)
  · rename_i work at_
    cases ok
    exact nodesStart_stays host input at_
  · rename_i work at_
    cases ok
    exact batchesStart_stays input at_
  · rename_i work pool at_
    split at ok
    · cases ok
      exact .of_same ⟨fun _ => rfl, rfl, rfl⟩ (by simp [picked]) (by simp [flying])
    · cases ok
  · rename_i at_
    cases ok
    exact .of_moves input (finish_moves input s at_)
  all_goals cases ok

theorem nodeWork_stays {nodeId : Text} {pool pool' : NodePool} {rest : List (List Text)}
    (at_ : s.pc = .level pool rest) (took : pool.take = some (nodeId, pool')) :
    Stays s { (nodeWork input s nodeId pool').1 with
      pc := .level (nodeWork input s nodeId pool').2 rest } := by
  obtain ⟨queue, air, -⟩ := Pool.take_eq_some took
  have later : ∀ k ∈ pool'.queue.map nodeRow, k ∈ picked s.pc := by
    intro k mem
    rw [at_, picked, queue]
    exact mem_cons_of_mem _ mem
  have back : ∀ t : State ν, SameBut s t → Stays s { t with pc := .level pool'.back rest } := by
    intro t same
    refine .of_same ⟨same.get, same.sent, same.aborted⟩ later ?_
    rw [at_]
    simp [flying, Pool.back, air]
  unfold nodeWork
  split
  · exact back s (.refl s)
  · simp only
    split
    · exact back (s.fail _) (.fail s _)
    · refine .of_sent rfl rfl ?_ later ?_
      · intro k mem
        rw [mem_singleton.mp mem, at_, picked, queue]
        exact mem_cons_self
      · intro k mem
        rw [at_]
        simp only [flying, Pool.wait, map_append, mem_append, air] at mem ⊢
        exact mem

theorem stepWork_stays {sub : LinearSubIssuePlan} {pool pool' : StepPool}
    (at_ : s.pc = .steps pool) (took : pool.take = some (sub, pool')) :
    Stays s { (stepWork input s sub pool').1 with
      pc := .steps (stepWork input s sub pool').2 } := by
  obtain ⟨queue, air, -⟩ := Pool.take_eq_some took
  refine .of_sent rfl rfl ?_ ?_ ?_
  · intro k mem
    rw [mem_singleton.mp mem, at_, picked, queue]
    exact mem_cons_self
  · intro k mem
    rw [at_, picked, queue]
    exact mem_cons_of_mem _ mem
  · intro k mem
    rw [at_]
    simp only [flying, stepWork, Pool.wait, map_append, mem_append, air] at mem ⊢
    exact mem

theorem batchWork_stays {batch : List SubIssueRow} {pool pool' : BatchPool}
    (at_ : s.pc = .batches work pool) (took : pool.take = some (batch, pool')) :
    Stays s { (batchWork host input s work batch pool').1 with
      pc := .batches work (batchWork host input s work batch pool').2 } := by
  obtain ⟨queue, air, -⟩ := Pool.take_eq_some took
  refine .of_sent rfl rfl ?_ ?_ ?_
  · intro k mem
    rw [at_, picked, queue, flatten_cons, map_append]
    exact mem_append_left _ mem
  · intro k mem
    rw [at_, picked, queue, flatten_cons, map_append]
    exact mem_append_right _ mem
  · intro k mem
    rw [at_]
    simp only [flying, batchWork, Pool.wait, flatten_append, map_append, mem_append,
      air, flatten_cons, flatten_nil, append_nil] at mem ⊢
    exact mem

theorem take_stays (ok : takeItem host input s = some s') : Stays s s' := by
  unfold takeItem at ok
  split at ok
  · cases ok
  · split at ok
    · rename_i pool rest at_
      obtain ⟨⟨nodeId, pool'⟩, took, rfl⟩ := Option.map_eq_some_iff.mp ok
      exact nodeWork_stays input at_ took
    · rename_i pool at_
      obtain ⟨⟨sub, pool'⟩, took, rfl⟩ := Option.map_eq_some_iff.mp ok
      exact stepWork_stays input at_ took
    · rename_i work pool at_
      obtain ⟨⟨batch, pool'⟩, took, rfl⟩ := Option.map_eq_some_iff.mp ok
      exact batchWork_stays host input at_ took
    · cases ok

theorem leave_stays (input : Input) (ok : leavePool s = some s') : Stays s s' := by
  obtain ⟨pc, rfl, -, under, found, -⟩ := leavePool_kept input s ok
  refine .of_same ⟨fun _ => rfl, rfl, rfl⟩ ?_ ?_
  · intro k mem
    rwa [found] at mem
  · intro k mem
    rwa [under] at mem

theorem Stays.adopt {adopt : Refs → Json ν → Refs}
    (includes : ∀ refs value, Includes refs (adopt refs value)) (outcome : Outcome ν)
    (found : picked pc = []) (under : flying pc = []) :
    Stays s { adopted s adopt outcome with pc } := by
  have sent : (adopted s adopt outcome).sent = s.sent := by cases outcome <;> rfl
  constructor
  · intro k _ known
    cases outcome with
    | reply value => exact (includes s.refs value).has known
    | error message => exact known
  · intro k mem
    rw [mem_touched] at mem
    rw [mem_touched]
    simp only [found, under, not_mem_nil, or_false] at mem
    rw [submitted, sent] at mem
    exact Or.inl (Or.inl mem)

theorem schemaFetched_stays {nodeRows : List IssueRow} {stepRows : List SubIssueRow}
    (at_ : s.pc = .fetchingSchema nodeRows stepRows) (outcome : Outcome ν) :
    Stays s (schemaFetched host input s nodeRows stepRows outcome) := by
  cases outcome with
  | error message =>
    exact .of_same ⟨fail_get s _, rfl, rfl⟩ (by simp [schemaFetched, picked])
      (by simp [schemaFetched, flying])
  | reply value =>
    unfold schemaFetched
    simp only
    split
    · refine .of_same ⟨fun _ => rfl, rfl, rfl⟩ ?_ (by simp [flying])
      rw [at_]
      exact fun k mem => mem
    · rename_i absent
      constructor
      · exact fun k _ known => known
      · intro k mem
        rw [mem_touched] at mem ⊢
        have missing : s.refs.has .notionTask = false := by simpa using absent
        simp only [submitted, State.send, flatMap_append, flatMap_cons, flatMap_nil,
          append_nil, mem_append, mem_singleton, picked, flying, at_] at mem ⊢
        rcases mem with (old | rfl) | old | rfl
        · exact Or.inl (Or.inl old)
        · exact Or.inr missing
        · exact Or.inl (Or.inr (Or.inl old))
        · exact Or.inr missing

theorem Stays.of_landed {t : State ν} (fills : Fills rows s t)
    (answered : ∀ k ∈ rows, k ∈ flying s.pc) (found : picked pc = picked s.pc)
    (under : ∀ k ∈ flying pc, k ∈ flying s.pc) : Stays s { t with pc } := by
  have same : Fills rows s { t with pc } := ⟨fills.refs, fills.sent, fills.aborted⟩
  refine .of_fills same answered ?_ under
  intro k mem
  rwa [found] at mem

theorem settle_stays (outcome : Outcome ν) (ok : settle host input s i outcome = some s') :
    Stays s s' := by
  unfold settle at ok
  split at ok
  · cases ok
    exact .adopt (adoptLinear_includes host _) outcome rfl rfl
  · cases ok
    exact .adopt (adoptNotion_includes host) outcome rfl rfl
  · rename_i pool rest at_
    obtain ⟨⟨⟨nodeId, title⟩, pool'⟩, landed, rfl⟩ := Option.map_eq_some_iff.mp ok
    obtain ⟨mem, queue, fewer, -⟩ := Pool.land_eq_some landed
    refine .of_landed (nodeSaved_fills host s nodeId title outcome) ?_ ?_ ?_
    · intro k only
      rw [mem_singleton.mp only, at_]
      exact mem_map.mpr ⟨_, mem, rfl⟩
    · simp [at_, picked, Pool.back, queue]
    · rw [at_]
      exact (fewer.map _).subset
  · rename_i pool at_
    obtain ⟨⟨sub, pool'⟩, landed, rfl⟩ := Option.map_eq_some_iff.mp ok
    obtain ⟨mem, queue, fewer, -⟩ := Pool.land_eq_some landed
    refine .of_landed (stepSaved_fills host s sub outcome) ?_ ?_ ?_
    · intro k only
      rw [mem_singleton.mp only, at_]
      exact mem_map.mpr ⟨_, mem, rfl⟩
    · simp [at_, picked, Pool.back, queue]
    · rw [at_]
      exact (fewer.map _).subset
  · rename_i nodeRows stepRows at_
    cases ok
    exact schemaFetched_stays host input at_ outcome
  · rename_i work at_
    cases ok
    refine .of_fills (taskCreated_fills host s work outcome) (by simp [at_, flying]) ?_ ?_
    all_goals rw [at_]; unfold taskCreated
    all_goals split
    · exact fun k mem => mem
    · simp [picked]
    · simp [flying]
    · simp [flying]
  · rename_i work at_
    cases ok
    refine .of_fills (nodesCreated_fills host s work outcome) (by simp [at_, flying]) ?_ ?_
    all_goals rw [at_]; unfold nodesCreated
    all_goals split
    · exact fun k mem => mem
    · exact fun k mem => mem
    · simp [flying]
    · simp [flying]
  · rename_i work pool at_
    obtain ⟨⟨batch, pool'⟩, landed, rfl⟩ := Option.map_eq_some_iff.mp ok
    obtain ⟨mem, queue, fewer, -⟩ := Pool.land_eq_some landed
    refine .of_landed (batchCreated_fills host s batch outcome) ?_ ?_ ?_
    · intro k inside
      obtain ⟨row, here, rfl⟩ := mem_map.mp inside
      rw [at_]
      exact mem_map.mpr ⟨row, mem_flatten.mpr ⟨batch, mem, here⟩, rfl⟩
    · simp [at_, picked, Pool.back, queue]
    · rw [at_]
      intro k inside
      obtain ⟨row, here, rfl⟩ := mem_map.mp inside
      obtain ⟨other, air, within⟩ := mem_flatten.mp here
      exact mem_map.mpr ⟨row, mem_flatten.mpr ⟨other, fewer.subset air, within⟩, rfl⟩
  · cases ok

theorem step_stays {event : Event ν} (ok : step host input s event = some s') : Stays s s' := by
  cases event with
  | go => exact go_stays host input ok
  | take => exact take_stays host input ok
  | leave => exact leave_stays input ok
  | reply i value =>
    simp only [step] at ok
    split at ok
    · cases ok
    · exact settle_stays host input _ ok
  | fails i message =>
    simp only [step] at ok
    split at ok
    · cases ok
    · exact settle_stays host input _ ok
  | expires i =>
    simp only [step] at ok
    split at ok
    · exact settle_stays host input _ ok
    · cases ok
  | abort =>
    simp only [step] at ok
    split at ok
    · cases ok
    · cases ok
      exact .of_rows (fun _ _ => rfl) fun _ mem => mem

/-- A row with a reference that the run has not touched. -/
def Clear (s : State ν) (k : RowKey) : Prop := s.refs.has k = true ∧ k ∉ touched s

theorem Clear.stays (clear : Clear s k) (stays : Stays s s') : Clear s' k := by
  obtain ⟨known, apart⟩ := clear
  have still : k ∉ flying s.pc := fun under => apart (mem_touched.mpr (Or.inr (Or.inr under)))
  refine ⟨stays.refs k still known, ?_⟩
  intro mem
  rcases stays.rows k mem with old | missing
  · exact apart old
  · rw [known] at missing
    cases missing

theorem Clear.not_submitted (clear : Clear s k) : k ∉ submitted s :=
  fun mem => clear.2 (mem_touched.mpr (Or.inl mem))

end Steps

section Naming
variable {ν : Type} (host : Host ν)

/-- The row whose copy a listed issue is: its description ends in the footer of the graph,
and it has an identifier and a url. -/
def issueRow (graphId : Text) (issue : Json.Record ν) : Option RowKey :=
  match (str (Json.field issue (js "description"))).bind (exec (footerRe graphId)),
      extractIssueRef host (.obj issue) ((str (Json.field issue (js "title"))).getD []) with
  | some m, some _ =>
    match m.group 2 with
    | none => some (.linearNode ((m.group 1).getD []))
    | some digits =>
      some (.linearStep ((m.group 1).getD [] ++ js "." ++ host.numberText (some (.str digits))))
  | _, _ => none

/-- The row whose copy a listed page is. -/
def pageRow (row : Json.Record ν) : Option RowKey :=
  match str (Json.field row (js "url")), str (Json.field row (js "Level")) with
  | some _, some level =>
    if level = js "Task" then some .notionTask
    else
      match (str (Json.field row (js "Item"))).bind fun item => (exec itemRe item).bind (·.group 1) with
      | none => none
      | some nodeId =>
        let step := host.numberText (Json.field row (js "Step"))
        if level = js "Issue" then some (.notionNode nodeId)
        else if level = js "Sub-Issue" ∧ isFiniteText step = true then
          some (.notionStep (nodeId ++ js "." ++ step))
        else none
  | _, _ => none

/-- The place of this row holds an empty url, which is no reference and is not filled by
adoption. -/
def blank (refs : Refs) : RowKey → Prop
  | .linearNode _ | .linearStep _ => False
  | .notionTask => refs.taskUrl = some []
  | .notionNode nodeId => refs.notionNodes.get? nodeId = some []
  | .notionStep key => refs.notionSteps.get? key = some []

theorem adoptIssue_has {issue : Json.Record ν} (named : issueRow host graphId issue = some k) :
    (adoptIssue host graphId refs issue).has k = true := by
  unfold issueRow at named
  unfold adoptIssue
  split at named
  · rename_i m ref found made
    rw [found]
    simp only [made]
    cases step : m.group 2 with
    | none =>
      simp only [step] at named ⊢
      cases named
      split
      · rename_i known
        rwa [hasLinearNode_eq] at known
      · rw [Refs.has, Refs.get]
        simp
    | some digits =>
      simp only [step] at named ⊢
      cases named
      split
      · rename_i known
        rwa [hasLinearStep_eq] at known
      · rw [Refs.has, Refs.get]
        simp
  · cases named

theorem str_ne_nil {value : Option (Json ν)} {text : Text} (found : str value = some text) :
    text ≠ [] := by
  unfold str at found
  split at found
  · split at found
    · cases found
    · rename_i solid
      cases found
      exact solid
  · cases found

theorem setMissing_has (solid : url ≠ []) (open_ : m.get? key ≠ some []) :
    (((setMissing m key url).get? key).filter (· ≠ [])).isSome = true := by
  unfold setMissing
  split
  · rename_i held
    obtain ⟨old, found⟩ := Option.isSome_iff_exists.mp held
    have full : old ≠ [] := fun empty => open_ (by rw [found, empty])
    rw [found]
    simp [Option.filter, full]
  · rw [OrderedMap.get?_set_self]
    simp [Option.filter, solid]

theorem adoptRow_has {row : Json.Record ν} (named : pageRow host row = some k)
    (open_ : ¬ blank refs k) :
    (adoptRow host refs row).has k = true := by
  unfold pageRow at named
  unfold adoptRow
  cases urlFound : str (Json.field row (js "url")) with
  | none => simp [urlFound] at named
  | some url =>
    cases levelFound : str (Json.field row (js "Level")) with
    | none => simp [urlFound, levelFound] at named
    | some level =>
      simp only [urlFound, levelFound] at named ⊢
      have solid := str_ne_nil urlFound
      split at named
      · rename_i task
        cases named
        rw [if_pos task, Refs.has, Refs.get]
        cases held : refs.taskUrl with
        | none => simp [Option.filter, solid]
        | some old =>
          have full : old ≠ [] := fun empty => open_ (by rw [blank, held, empty])
          simp [Option.filter, full]
      · rename_i task
        rw [if_neg task]
        cases item : (str (Json.field row (js "Item"))).bind
            fun item => (exec itemRe item).bind fun m => m.group 1 with
        | none => simp [item] at named
        | some nodeId =>
          simp only [item] at named ⊢
          split at named
          · rename_i issue
            cases named
            rw [if_pos issue, Refs.has, Refs.get, Option.isSome_map]
            exact setMissing_has solid open_
          · rename_i issue
            rw [if_neg issue]
            split at named
            · rename_i sub
              cases named
              rw [if_pos sub.1, if_pos sub.2, Refs.has, Refs.get, Option.isSome_map]
              exact setMissing_has solid open_
            · cases named

theorem setMissing_open {k : Text} (solid : url ≠ []) (open_ : m.get? k ≠ some []) :
    (setMissing m key url).get? k ≠ some [] := by
  unfold setMissing
  split
  · exact open_
  · rw [OrderedMap.get?_set]
    split
    · simpa using solid
    · exact open_

theorem adoptRow_open (row : Json.Record ν) (open_ : ¬ blank refs k) :
    ¬ blank (adoptRow host refs row) k := by
  unfold adoptRow
  split
  · rename_i url level urlFound levelFound
    have solid := str_ne_nil urlFound
    split
    · cases k with
      | notionTask =>
        cases held : refs.taskUrl with
        | none => simpa [blank, held] using solid
        | some old => simpa [blank, held] using open_
      | _ => exact open_
    · split
      · exact open_
      · split
        · cases k with
          | notionNode key => exact setMissing_open solid open_
          | _ => exact open_
        · split
          · simp only
            split
            · cases k with
              | notionStep key => exact setMissing_open solid open_
              | _ => exact open_
            · exact open_
          · exact open_
  · exact open_

theorem adoptIssue_open (graphId : Text) (issue : Json.Record ν) (open_ : ¬ blank refs k) :
    ¬ blank (adoptIssue host graphId refs issue) k := by
  unfold adoptIssue
  split
  · exact open_
  · simp only
    split
    · exact open_
    · split
      · split <;> cases k <;> exact open_
      · split <;> cases k <;> exact open_

/-- An entry that names a row leaves it with a reference, whatever stands beside it. -/
theorem foldl_has {ι : Type} {adopt : Refs → ι → Refs} (good : Refs → Prop)
    (includes : ∀ refs item, Includes refs (adopt refs item))
    (kept : ∀ refs item, good refs → good (adopt refs item)) {item : ι}
    (named : ∀ refs, good refs → (adopt refs item).has k = true) {items : List ι}
    (mem : item ∈ items) (start : good refs) :
    (items.foldl adopt refs).has k = true := by
  induction items generalizing refs with
  | nil => cases mem
  | cons head rest ih =>
    rw [foldl_cons]
    rcases mem_cons.mp mem with rfl | later
    · exact (includes_foldl adopt includes rest _).has (named refs start)
    · exact ih later (kept refs head start)

theorem adoptLinear_has {value : Json ν} {issue : Json.Record ν}
    (listed : issue ∈ listEntries host value) (named : issueRow host graphId issue = some k) :
    (adoptLinear host graphId refs value).has k = true :=
  foldl_has (fun _ => True) (adoptIssue_includes host graphId) (fun _ _ _ => trivial)
    (fun _ _ => adoptIssue_has host named) listed trivial

theorem adoptNotion_has {value : Json ν} {row : Json.Record ν}
    (listed : row ∈ listEntries host value) (named : pageRow host row = some k)
    (open_ : ¬ blank refs k) : (adoptNotion host refs value).has k = true :=
  foldl_has (fun refs => ¬ blank refs k) (adoptRow_includes host)
    (fun _ row open_ => adoptRow_open host row open_) (fun _ open_ => adoptRow_has host named open_)
    listed open_

end Naming

/-- The points up to the second lookup's answer. -/
def lookingUp : Pc → Bool
  | .start | .adoptingLinear | .adoptNotion | .adoptingNotion => true
  | _ => false

section Lookups
variable {ν : Type} (host : Host ν) (input : Input) {s s' : State ν}

theorem go_looks (ok : go host input s = some s') (there : lookingUp s'.pc = true) :
    lookingUp s.pc = true ∧ submitted s' = submitted s ∧ s'.refs = s.refs := by
  have sends : ∀ (name : Text) (args : Json.Record ν) (pc : Pc),
      submitted { s.send [] name args with pc } = submitted s := by
    intro name args pc
    simp [submitted, State.send]
  unfold go at ok
  split at ok
  · rename_i at_
    cases ok
    refine ⟨by rw [at_]; rfl, ?_⟩
    unfold adoptStart
    split
    · exact ⟨rfl, rfl⟩
    · split
      · exact ⟨sends _ _ _, rfl⟩
      · exact ⟨rfl, rfl⟩
  · rename_i at_
    cases ok
    refine ⟨by rw [at_]; rfl, ?_⟩
    unfold adoptNotionStart
    split
    · exact ⟨sends _ _ _, rfl⟩
    · exact ⟨rfl, rfl⟩
  · cases ok
    unfold linearStart at there
    simp only at there
    split_ifs at there <;> cases there
  · rename_i rest at_
    cases ok
    cases rest with
    | nil => cases there
    | cons level rest =>
      simp only [nextLevel] at there
      split_ifs at there <;> cases there
  · split at ok
    · cases ok
      cases there
    · cases ok
  · cases ok
    cases there
  · split at ok
    · cases ok
      cases there
    · cases ok
  · cases ok
    unfold notionStart at there
    simp only at there
    split_ifs at there <;> cases there
  · cases ok
    unfold nodesStart at there
    split_ifs at there <;> cases there
  · cases ok
    cases there
  · split at ok
    · cases ok
      cases there
    · cases ok
  · cases ok
    cases there
  all_goals cases ok

theorem pools_look (pc : Pc) (there : lookingUp pc = true) : picked pc = [] ∧ flying pc = [] := by
  cases pc <;> first | exact ⟨rfl, rfl⟩ | cases there

theorem settle_looks {outcome : Outcome ν} (ok : settle host input s i outcome = some s')
    (there : lookingUp s'.pc = true) : s.pc = .adoptingLinear ∧
      s' = { adopted s (adoptLinear host input.plan.graphId) outcome with pc := .adoptNotion } := by
  unfold settle at ok
  split at ok
  · rename_i at_
    cases ok
    exact ⟨at_, rfl⟩
  · cases ok
    cases there
  · obtain ⟨item, -, rfl⟩ := Option.map_eq_some_iff.mp ok
    cases there
  · obtain ⟨item, -, rfl⟩ := Option.map_eq_some_iff.mp ok
    cases there
  · cases ok
    cases outcome with
    | error message => cases there
    | reply value =>
      unfold schemaFetched at there
      simp only at there
      split_ifs at there <;> cases there
  · cases ok
    unfold taskCreated at there
    split at there <;> cases there
  · cases ok
    unfold nodesCreated at there
    split at there <;> cases there
  · obtain ⟨item, -, rfl⟩ := Option.map_eq_some_iff.mp ok
    cases there
  · cases ok

theorem take_past (ok : takeItem host input s = some s') : lookingUp s'.pc = false := by
  unfold takeItem at ok
  split at ok
  · cases ok
  · split at ok
    · obtain ⟨item, -, rfl⟩ := Option.map_eq_some_iff.mp ok
      rfl
    · obtain ⟨item, -, rfl⟩ := Option.map_eq_some_iff.mp ok
      rfl
    · obtain ⟨item, -, rfl⟩ := Option.map_eq_some_iff.mp ok
      rfl
    · cases ok

theorem leave_past (ok : leavePool s = some s') : lookingUp s'.pc = false := by
  unfold leavePool at ok
  split at ok
  · split at ok
    · obtain ⟨pool, -, rfl⟩ := Option.map_eq_some_iff.mp ok
      rfl
    · cases ok
  · split at ok
    · obtain ⟨pool, -, rfl⟩ := Option.map_eq_some_iff.mp ok
      rfl
    · cases ok
  · split at ok
    · obtain ⟨pool, -, rfl⟩ := Option.map_eq_some_iff.mp ok
      rfl
    · cases ok
  · cases ok

/-- Up to the second lookup's answer nothing is submitted, and a place that was not blank
is not. -/
def Ahead (k : RowKey) (s : State ν) : Prop :=
  lookingUp s.pc = true → submitted s = [] ∧ (¬ blank (startRefs input.existing) k → ¬ blank s.refs k)

theorem ahead_settle {outcome : Outcome ν} (ok : settle host input s i outcome = some s')
    (ahead : Ahead input k s) :
    Ahead input k s' := by
  intro there
  obtain ⟨at_, rfl⟩ := settle_looks host input ok there
  obtain ⟨quiet, open_⟩ := ahead (by rw [at_]; rfl)
  refine ⟨?_, fun clean => ?_⟩
  · rw [submitted, adopted_sent]
    exact quiet
  · cases outcome with
    | error message => exact open_ clean
    | reply value =>
      have each : ∀ issues : List (Json.Record ν), ∀ refs : Refs, ¬ blank refs k →
          ¬ blank (issues.foldl (adoptIssue host input.plan.graphId) refs) k := by
        intro issues
        induction issues with
        | nil => exact fun _ clean => clean
        | cons issue issues ih =>
          exact fun refs clean => ih _ (adoptIssue_open host input.plan.graphId issue clean)
      exact each _ _ (open_ clean)

theorem ahead_step {event : Event ν} (ok : step host input s event = some s')
    (ahead : Ahead input k s) : Ahead input k s' := by
  unfold step at ok
  split at ok
  · intro there
    obtain ⟨before, same, refs⟩ := go_looks host input ok there
    rw [same, refs]
    exact ahead before
  · intro there
    rw [take_past host input ok] at there
    cases there
  · intro there
    rw [leave_past ok] at there
    cases there
  · split at ok
    · cases ok
    · exact ahead_settle host input ok ahead
  · split at ok
    · cases ok
    · exact ahead_settle host input ok ahead
  · split at ok
    · exact ahead_settle host input ok ahead
    · cases ok
  · split at ok
    · cases ok
    · cases ok
      exact ahead

theorem untouched (ahead : Ahead input k s) (there : lookingUp s.pc = true) :
    k ∉ touched s := by
  intro mem
  obtain ⟨found, under⟩ := pools_look s.pc there
  rw [mem_touched, (ahead there).1, found, under] at mem
  simp at mem

theorem lookup_answered {value : Json ν} {adopt : Refs → Json ν → Refs}
    (ok : step host input s (.reply i value) = some s') (there : lookingUp s.pc = true)
    (settled : settle host input s i (.reply value) =
      some { adopted s adopt (.reply value) with pc }) (found : picked pc = [])
    (under : flying pc = []) :
    s'.refs = adopt s.refs value ∧ touched s' = touched s := by
  simp only [step] at ok
  split at ok
  · cases ok
  · rw [settled] at ok
    cases ok
    obtain ⟨found', under'⟩ := pools_look s.pc there
    refine ⟨rfl, ?_⟩
    simp only [touched, found, under, found', under']
    rfl

end Lookups

/-- The rows that a run on a record does not submit. -/
structure NotAgain {ν : Type} (host : Host ν) (input : Input)
    (steps : List (Step (State ν) (Event ν))) (t : State ν) : Prop where
  recorded : ∀ k, (startRefs input.existing).has k = true → k ∉ submitted t
  listed : ∀ x ∈ steps, x.before.pc = .adoptingLinear → ∀ i value, x.label = .reply i value →
    ∀ issue ∈ listEntries host value, ∀ k, issueRow host input.plan.graphId issue = some k →
      k ∉ submitted t
  queried : ∀ x ∈ steps, x.before.pc = .adoptingNotion → ∀ i value, x.label = .reply i value →
    ∀ row ∈ listEntries host value, ∀ k, pageRow host row = some k →
      ¬ blank (startRefs input.existing) k → k ∉ submitted t

/-- What the record or a lookup's answer names is not submitted, in any run. -/
theorem reruns_create_missing {ν : Type} (host : Host ν) (input : Input)
    {steps : List (Step (State ν) (Event ν))} {t : State ν}
    (run : (system host input).Run (startState input) steps t) : NotAgain host input steps t := by
  have ahead : ∀ k, ∀ x ∈ steps, Ahead input k x.before := by
    intro k
    refine run.steps_of (Ahead input k) (fun _ => True) (fun x => Ahead input k x.before)
      (fun _ => ⟨rfl, id⟩) ?_ (fun _ _ _ _ _ ahead => ahead) fun _ _ => trivial
    exact fun _ _ _ ok _ ahead => ahead_step host input ok ahead
  have stays := fun k m i n (ok : step host input m i = some n) (clear : Clear m k) =>
    clear.stays (step_stays host input ok)
  have after : ∀ k, ∀ x ∈ steps, lookingUp x.before.pc = true → x.after.refs.has k = true →
      touched x.after = touched x.before → k ∉ submitted t := by
    intro k x mem there known same
    have clear : Clear x.after k := by
      refine ⟨known, ?_⟩
      rw [same]
      exact untouched input (ahead k x mem) there
    exact (run.kept_since (Clear · k) (stays k) mem clear).not_submitted
  refine ⟨?_, ?_, ?_⟩
  · intro k known
    exact (run.invariant (Clear · k) ⟨known, not_mem_nil⟩ (stays k)).not_submitted
  · intro x mem at_ i value label issue inside k named
    have there : lookingUp x.before.pc = true := by rw [at_]; rfl
    have ok := run.mem_step x mem
    rw [label] at ok
    obtain ⟨refs, same⟩ := lookup_answered host input ok there (by rw [settle, at_]) rfl rfl
    apply after k x mem there _ same
    rw [refs]
    exact adoptLinear_has host inside named
  · intro x mem at_ i value label row inside k named clean
    have there : lookingUp x.before.pc = true := by rw [at_]; rfl
    have ok := run.mem_step x mem
    rw [label] at ok
    obtain ⟨refs, same⟩ := lookup_answered host input ok there (by rw [settle, at_]) rfl rfl
    apply after k x mem there _ same
    rw [refs]
    exact adoptNotion_has host inside named ((ahead k x mem there).2 clean)

def firstInput : Input := ⟨linearPlan [js "a"], none, none, linearDeps⟩

/-- The answer to the creation is lost; the issue may be there. -/
def lostEvents : List (Event Unit) :=
  [.go, .go, .go, .take, .fails 0 [], .leave, .go, .go, .go, .leave, .go, .go, .go]

def lostRun : Option (State Unit) :=
  lostEvents.foldlM (step plainHost firstInput) (startState firstInput)

/-- The same plan on the record of that run. -/
def againInput : Input := { firstInput with existing := lostRun.map (·.refs) }

/-- The listed copy of the issue, as the tracker gives it back. -/
def listedIssue : Json.Record Unit :=
  [(js "identifier", .str (js "ENG-1")), (js "url", .str (js "https://linear.app/o/issue/ENG-1")),
    (js "description", .str (js "\n\n" ++ footer (js "g") (js "a") none))]

def foundEvents : List (Event Unit) :=
  [.go, .reply 0 (.arr [.obj listedIssue]), .go, .go, .go, .go]

example : issueRow plainHost (js "g") listedIssue = some (.linearNode (js "a")) := by decide

theorem reruns_create_missing_found : ∃ steps t,
    (system plainHost againInput).Run (startState againInput) steps t ∧ isDone t = true ∧
      NotAgain plainHost againInput steps t := by
  have done : (foundEvents.foldlM (step plainHost againInput) (startState againInput)).any isDone =
      true := by
    decide
  obtain ⟨t, taken, last⟩ := (Option.any_eq_true _ _).mp done
  obtain ⟨steps, run⟩ := System.Run.of_foldlM (M := system plainHost againInput) (fun _ _ _ => id) taken
  exact ⟨steps, t, run, last, reruns_create_missing plainHost againInput run⟩

/-- The lookup fails, and the row is submitted once more. -/
def unreachableEvents : List (Event Unit) := [.go, .fails 0 [], .go, .go, .go, .take]

/-- `held` are the rows of which the tracker has a copy from the earlier run. -/
theorem failed_lookup_creates_again :
    ¬∀ {ν : Type} (host : Host ν) (input : Input) {steps : List (Step (State ν) (Event ν))}
        {t : State ν}, (system host input).Run (startState input) steps t → isDone t = true →
      ∀ {steps' : List (Step (State ν) (Event ν))} {t' : State ν},
        (system host { input with existing := some t.refs }).Run
          (startState { input with existing := some t.refs }) steps' t' →
        ∀ held : List RowKey, (∀ k ∈ held, k ∈ submitted t) → ∀ k ∈ held, k ∉ submitted t' := by
  intro never
  have first : lostRun.any (fun t => isDone t && (submitted t = [.linearNode (js "a")] : Bool)) =
      true := by
    decide
  have again : (unreachableEvents.foldlM (step plainHost againInput) (startState againInput)).any
      (fun t => (submitted t = [.linearNode (js "a")] : Bool)) = true := by
    decide
  obtain ⟨t, taken, ended⟩ := (Option.any_eq_true _ _).mp first
  obtain ⟨done, sent⟩ := Bool.and_eq_true_iff.mp ended
  have resumed : againInput = { firstInput with existing := some t.refs } := by
    rw [againInput, taken]
    rfl
  rw [resumed] at again
  obtain ⟨t', taken', sent'⟩ := (Option.any_eq_true _ _).mp again
  obtain ⟨steps, run⟩ := System.Run.of_foldlM (M := system plainHost firstInput) (fun _ _ _ => id) taken
  obtain ⟨steps', run'⟩ := System.Run.of_foldlM
    (M := system plainHost { firstInput with existing := some t.refs }) (fun _ _ _ => id) taken'
  refine never plainHost firstInput run done run' [.linearNode (js "a")] ?_ (.linearNode (js "a"))
    (mem_singleton_self _) ?_
  · rw [of_decide_eq_true sent]
    exact fun k mem => mem
  · rw [of_decide_eq_true sent']
    exact mem_singleton_self _

end Ultrathink.Guarantees.TrackReruns
