import Ultrathink.Source.Track.Moves

/-!
# Tracker rows at most once

What one `createTracking` run sends, for any plan with one row for each place, any existing and
adopted references, and any order of answers, failures and the abort. A run ends even where the
dependencies are cyclic.
-/

namespace Ultrathink.Guarantees.TrackOnce

open List Library JsText Runs Source.Track Source.Think.Graph

def linearStepRows (input : Input) : List RowKey := input.plan.linearSubIssues.map (·.row)

def linearRows (input : Input) : List RowKey :=
  if configured input.deps.linearTeam then input.plan.linearIssues.map (·.row) ++ linearStepRows input
  else []

def notionRows (input : Input) : List RowKey :=
  if configured input.deps.notionDataSource then
    .notionTask :: (input.plan.issues.map (·.row) ++ input.plan.subIssues.map (·.row))
  else []

/-- The rows of the configured trackers. -/
def plannedRows (input : Input) : List RowKey := linearRows input ++ notionRows input

def nodeRow (nodeId : Text) : RowKey := .linearNode nodeId

/-- What a run at this point may still submit. -/
def upcoming (input : Input) : Pc → List RowKey
  | .start | .adoptingLinear | .adoptNotion | .adoptingNotion | .linearStart => plannedRows input
  | .levels rest => rest.flatten.map nodeRow ++ (linearStepRows input ++ notionRows input)
  | .level pool rest => pool.queue.map nodeRow ++
      (rest.flatten.map nodeRow ++ (linearStepRows input ++ notionRows input))
  | .stepsStart => linearStepRows input ++ notionRows input
  | .steps pool => pool.queue.map (·.row) ++ notionRows input
  | .notionStart => notionRows input
  | .fetchingSchema nodes steps => .notionTask :: (nodes.map (·.row) ++ steps.map (·.row))
  | .creatingTask work => work.nodeRows.map (·.row) ++ work.stepRows.map (·.row)
  | .nodesStart work => work.nodeRows.map (·.row) ++ work.stepRows.map (·.row)
  | .creatingNodes work => work.stepRows.map (·.row)
  | .batchesStart work => work.stepRows.map (·.row)
  | .batches _ pool => pool.queue.flatten.map (·.row)
  | .finish | .done _ => []

def flying : Pc → List RowKey
  | .level pool _ => pool.flying.map fun item => nodeRow item.1
  | .steps pool => pool.flying.map (·.row)
  | .creatingTask _ => [.notionTask]
  | .creatingNodes work => work.nodeRows.map (·.row)
  | .batches _ pool => pool.flying.flatten.map (·.row)
  | _ => []

/-- The rows that were found missing and are not submitted yet. -/
def picked : Pc → List RowKey
  | .level pool _ => pool.queue.map nodeRow
  | .steps pool => pool.queue.map (·.row)
  | .fetchingSchema nodes steps => nodes.map (·.row) ++ steps.map (·.row)
  | .creatingTask work => work.nodeRows.map (·.row) ++ work.stepRows.map (·.row)
  | .nodesStart work => work.nodeRows.map (·.row) ++ work.stepRows.map (·.row)
  | .creatingNodes work => work.stepRows.map (·.row)
  | .batchesStart work => work.stepRows.map (·.row)
  | .batches _ pool => pool.queue.flatten.map (·.row)
  | _ => []

/-- The parents that were found for what is queued. -/
def parentRows : Pc → List RowKey
  | .steps pool => pool.queue.map fun sub => nodeRow sub.nodeId
  | .batches _ pool => pool.queue.flatten.map fun row => .notionNode row.nodeId
  | _ => []

def submitted {ν : Type} (s : State ν) : List RowKey := s.sent.flatMap (·.rows)

/-- The names by which these nodes' issues are known. -/
def Named (refs : Refs) (nodes names : List Text) : Prop :=
  List.Forall₂ (fun node name => ∃ ref, refs.linearNodes.get? node = some ref ∧
    ref.identifier = name) nodes names

structure ProperCall {ν : Type} (input : Input) (refs : Refs) (sent : Sent ν) : Prop where
  missing : ∀ k ∈ sent.rows, refs.has k = false
  node : ∀ nodeId, .linearNode nodeId ∈ sent.rows → ∃ names,
    Named refs (nodeDeps input nodeId) names ∧ Json.field sent.call.args (js "blockedBy") =
      if names = [] then none else some (.arr (names.map .str))
  linearStep : ∀ nodeId step, .linearStep (stepKey nodeId step) ∈ sent.rows → ∃ parent,
    refs.linearNodes.get? nodeId = some parent ∧
      Json.field sent.call.args (js "parentId") = some (.str parent.identifier)
  notionStep : ∀ nodeId step, .notionStep (stepKey nodeId step) ∈ sent.rows →
    refs.has (.notionNode nodeId) = true

/-- A step makes no call, or one proper call. -/
def Sends {ν : Type} (input : Input) (s s' : State ν) (rows : List RowKey) : Prop :=
  (s'.sent = s.sent ∧ rows = []) ∨
    ∃ sent, s'.sent = s.sent ++ [sent] ∧ sent.rows = rows ∧ ProperCall input s.refs sent

structure Sound {ν : Type} (input : Input) (s : State ν) : Prop where
  counted : (submitted s ++ upcoming input s.pc).Subperm (plannedRows input)
  new : ∀ k ∈ submitted s, (startRefs input.existing).has k = false
  under : ∀ k ∈ flying s.pc, k ∈ submitted s
  kept : Includes (startRefs input.existing) s.refs
  missing : ∀ k ∈ picked s.pc, s.refs.has k = false
  parents : ∀ k ∈ parentRows s.pc, s.refs.has k = true
  status : ∀ status, s.pc = .done status → status = trackingStatus input.plan s.refs
    (configured input.deps.linearTeam) (configured input.deps.notionDataSource)

/-- What a step has to show: it fills places of calls under way, and submits rows that
were still to come. -/
structure Moves {ν : Type} (input : Input) (s s' : State ν) (filled new : List RowKey) : Prop where
  refs : ChangesOnly filled s.refs s'.refs
  answered : ∀ k ∈ filled, k ∈ flying s.pc
  sends : Sends input s s' new
  counted : (new ++ upcoming input s'.pc).Subperm (upcoming input s.pc)
  under : ∀ k ∈ flying s'.pc, k ∈ flying s.pc ∨ k ∈ new
  missing : ∀ k ∈ picked s'.pc, k ∈ upcoming input s'.pc ∧ s.refs.has k = false
  parents : ∀ k ∈ parentRows s'.pc, k ∉ filled ∧ s.refs.has k = true
  status : ∀ status, s'.pc = .done status → status = trackingStatus input.plan s'.refs
    (configured input.deps.linearTeam) (configured input.deps.notionDataSource)

variable {work : NotionWork} {i : Nat} {rows : List RowKey} {rest : List (List Text)}
  {nodeId : Text} {pool pool' : NodePool}

section Invariant
variable {ν : Type} {input : Input} {s s' : State ν}

theorem Sends.submitted (sends : Sends input s s' rows) :
    submitted s' = submitted s ++ rows := by
  rcases sends with ⟨same, rfl⟩ | ⟨sent, grown, rfl, -⟩
  · rw [TrackOnce.submitted, same, append_nil, TrackOnce.submitted]
  · rw [TrackOnce.submitted, grown, flatMap_append, TrackOnce.submitted]
    simp

theorem Sends.missing (sends : Sends input s s' rows) :
    ∀ k ∈ rows, s.refs.has k = false := by
  rcases sends with ⟨-, rfl⟩ | ⟨sent, -, rfl, proper⟩
  · simp
  · exact proper.missing

theorem Sound.missing_existing (sound : Sound input s) {k : RowKey} (missing : s.refs.has k = false) :
    (startRefs input.existing).has k = false := by
  by_contra present
  rw [sound.kept.has (by simpa using present)] at missing
  cases missing

theorem Sound.moves {filled new : List RowKey} (distinct : (plannedRows input).Nodup)
    (sound : Sound input s) (moves : Moves input s s' filled new) : Sound input s' := by
  have submitted_eq := moves.sends.submitted
  have nodup : (submitted s ++ upcoming input s.pc).Nodup := by
    obtain ⟨same, perm, sublist⟩ := sound.counted
    exact perm.nodup_iff.mp (sublist.nodup distinct)
  have apart : ∀ k ∈ upcoming input s.pc, k ∉ filled := by
    intro k later filled
    exact (nodup_append.mp nodup).2.2 k (sound.under k (moves.answered k filled)) k later rfl
  have same : ∀ k, k ∉ filled → s'.refs.has k = s.refs.has k := by
    intro k other
    rw [Refs.has, Refs.has, moves.refs k other]
  refine ⟨?_, ?_, ?_, ?_, ?_, ?_, moves.status⟩
  · rw [submitted_eq, append_assoc]
    exact ((subperm_append_left _).mpr moves.counted).trans sound.counted
  · intro k mem
    rw [submitted_eq] at mem
    rcases mem_append.mp mem with old | fresh
    · exact sound.new k old
    · exact sound.missing_existing (moves.sends.missing k fresh)
  · intro k mem
    rw [submitted_eq, mem_append]
    rcases moves.under k mem with old | fresh
    · exact Or.inl (sound.under k old)
    · exact Or.inr fresh
  · intro k r known
    have other : k ∉ filled := by
      intro inside
      have absent := sound.new k (sound.under k (moves.answered k inside))
      rw [Refs.has, known] at absent
      cases absent
    rw [moves.refs k other]
    exact sound.kept k r known
  · intro k mem
    obtain ⟨later, missing⟩ := moves.missing k mem
    have before : k ∈ upcoming input s.pc :=
      moves.counted.subset (mem_append_right _ later)
    rw [same k (apart k before)]
    exact missing
  · intro k mem
    obtain ⟨other, known⟩ := moves.parents k mem
    rw [same k other]
    exact known

theorem Moves.quiet (same : SameBut s s')
    (counted : (upcoming input s'.pc).Subperm (upcoming input s.pc))
    (under : ∀ k ∈ flying s'.pc, k ∈ flying s.pc)
    (missing : ∀ k ∈ picked s'.pc, k ∈ upcoming input s'.pc ∧ s.refs.has k = false)
    (parents : ∀ k ∈ parentRows s'.pc, s.refs.has k = true)
    (status : ∀ status, s'.pc ≠ .done status) : Moves input s s' [] [] where
  refs k _ := same.get k
  answered k mem := by cases mem
  sends := Or.inl ⟨same.sent, rfl⟩
  counted := counted
  under k mem := Or.inl (under k mem)
  missing := missing
  parents k mem := ⟨by simp, parents k mem⟩
  status st at_ := absurd at_ (status st)

theorem Moves.plain (same : SameBut s s')
    (counted : (upcoming input s'.pc).Subperm (upcoming input s.pc))
    (under : flying s'.pc = []) (missing : picked s'.pc = []) (parents : parentRows s'.pc = [])
    (status : ∀ status, s'.pc ≠ .done status) : Moves input s s' [] [] :=
  .quiet same counted (by simp [under]) (by simp [missing]) (by simp [parents]) status

theorem ProperCall.nothing (refs : Refs) (call : ToolCall ν) : ProperCall input refs ⟨[], call⟩ where
  missing k mem := by cases mem
  node nodeId mem := by cases mem
  linearStep nodeId step mem := by cases mem
  notionStep nodeId step mem := by cases mem

theorem Moves.call (refs : s'.refs = s.refs) (call : ToolCall ν) (sent : s'.sent = s.sent ++ [⟨[], call⟩])
    (counted : (upcoming input s'.pc).Subperm (upcoming input s.pc)) (under : flying s'.pc = [])
    (missing : ∀ k ∈ picked s'.pc, k ∈ upcoming input s'.pc ∧ s.refs.has k = false)
    (parents : parentRows s'.pc = []) (status : ∀ status, s'.pc ≠ .done status) :
    Moves input s s' [] [] where
  refs k _ := by rw [refs]
  answered k mem := by cases mem
  sends := Or.inr ⟨_, sent, rfl, .nothing _ _⟩
  counted := counted
  under k mem := by
    rw [under] at mem
    cases mem
  missing := missing
  parents k mem := by
    rw [parents] at mem
    cases mem
  status st at_ := absurd at_ (status st)

end Invariant

section Going
variable {ν : Type} (host : Host ν) (input : Input) (s : State ν)

theorem adoptStart_moves (at_ : s.pc = .start) :
    Moves input s (adoptStart host input s) [] [] := by
  have same : ∀ pc : Pc, SameBut s { s with pc } := fun pc => ⟨fun _ => rfl, rfl, rfl⟩
  unfold adoptStart
  split
  · exact .plain (same _) (by rw [at_]; exact .refl _) rfl rfl rfl (by simp)
  · split
    · exact .call rfl _ rfl (by rw [at_]; exact .refl _) rfl (by simp [picked]) rfl (by simp)
    · exact .plain (same _) (by rw [at_]; exact .refl _) rfl rfl rfl (by simp)

theorem adoptNotionStart_moves (at_ : s.pc = .adoptNotion) :
    Moves input s (adoptNotionStart input s) [] [] := by
  unfold adoptNotionStart
  split
  · exact .call rfl _ rfl (by rw [at_]; exact .refl _) rfl (by simp [picked]) rfl (by simp)
  · exact .plain ⟨fun _ => rfl, rfl, rfl⟩ (by rw [at_]; exact .refl _) rfl rfl rfl (by simp)

theorem linearStart_moves (at_ : s.pc = .linearStart) :
    Moves input s (linearStart input s) [] [] := by
  have skip : ∀ s' : State ν, SameBut s s' → s'.pc = .notionStart → Moves input s s' [] [] := by
    intro s' same there
    refine .plain same ?_ (by rw [there]; rfl) (by rw [there]; rfl) (by rw [there]; rfl)
      (by simp [there])
    rw [at_, there]
    exact (sublist_append_right _ _).subperm
  unfold linearStart
  simp only
  split
  · exact skip _ ⟨fun _ => rfl, rfl, rfl⟩ rfl
  · rename_i team
    split
    · exact skip _ ⟨fun _ => rfl, rfl, rfl⟩ rfl
    · split
      · exact skip _ ⟨fail_get s _, rfl, rfl⟩ rfl
      · refine .plain ⟨fun _ => rfl, rfl, rfl⟩ ?_ rfl rfl rfl (by simp)
        rw [at_]
        have levels := (nodeLevels_perm (linearIds input.plan) input.graph).map nodeRow
        have rows : (linearIds input.plan).map nodeRow = input.plan.linearIssues.map (·.row) := by
          simp [linearIds, nodeRow, LinearIssuePlan.row, Function.comp_def]
        rw [rows] at levels
        have planned : plannedRows input = input.plan.linearIssues.map (·.row) ++
            (linearStepRows input ++ notionRows input) := by
          have on : configured input.deps.linearTeam = true := by simpa using team
          simp [plannedRows, linearRows, on]
        simp only [upcoming, planned]
        exact (levels.append_right _).subperm

theorem nextLevel_moves (at_ : s.pc = .levels rest) :
    Moves input s (nextLevel input s rest) [] [] := by
  cases rest with
  | nil =>
    refine .plain ⟨fun _ => rfl, rfl, rfl⟩ ?_ rfl rfl rfl (by simp [nextLevel])
    rw [at_]
    exact .refl _
  | cons level rest =>
    simp only [nextLevel]
    split
    · refine .plain ⟨fun _ => rfl, rfl, rfl⟩ ?_ rfl rfl rfl (by simp)
      rw [at_]
      have tail := sublist_append_right (linearStepRows input) (notionRows input)
      exact (tail.trans (sublist_append_right _ _)).subperm
    · refine .quiet ⟨fun _ => rfl, rfl, rfl⟩ ?_ (by simp [flying, Pool.start]) ?_ (by simp [parentRows])
        (by simp)
      · rw [at_]
        simp only [upcoming, Pool.start, flatten_cons, map_append, append_assoc]
        refine List.Sublist.subperm (List.Sublist.append ?_ (.refl _))
        exact List.Sublist.map nodeRow filter_sublist
      · intro k mem
        refine ⟨mem_append_left _ mem, ?_⟩
        obtain ⟨id, todo, rfl⟩ := mem_map.mp mem
        simpa [nodeRow] using (mem_filter.mp todo).2

theorem stepsStart_moves (at_ : s.pc = .stepsStart) :
    Moves input s (stepsStart input s) [] [] := by
  obtain ⟨same, sublist, found⟩ := pickSteps_spec s input.plan.linearSubIssues
  unfold stepsStart
  refine .quiet ⟨same.get, same.sent, same.aborted⟩ ?_ (by simp [flying, Pool.start]) ?_ ?_ (by simp)
  · rw [at_]
    exact ((sublist.map (·.row)).append (.refl _)).subperm
  · intro k mem
    refine ⟨mem_append_left _ mem, ?_⟩
    obtain ⟨sub, queued, rfl⟩ := mem_map.mp mem
    exact (found sub queued).1
  · intro k mem
    obtain ⟨sub, queued, rfl⟩ := mem_map.mp mem
    exact (found sub queued).2

theorem notionStart_moves (at_ : s.pc = .notionStart) :
    Moves input s (notionStart input s) [] [] := by
  have skip : ∀ s' : State ν, SameBut s s' → s'.pc = .finish → Moves input s s' [] [] := by
    intro s' same there
    refine .plain same ?_ (by rw [there]; rfl) (by rw [there]; rfl) (by rw [there]; rfl)
      (by simp [there])
    rw [there]
    exact nil_subperm
  unfold notionStart
  simp only
  split
  · exact skip _ ⟨fun _ => rfl, rfl, rfl⟩ rfl
  · rename_i source
    split
    · exact skip _ ⟨fun _ => rfl, rfl, rfl⟩ rfl
    · split
      · exact skip _ ⟨fail_get s _, rfl, rfl⟩ rfl
      · split
        · exact skip _ ⟨fun _ => rfl, rfl, rfl⟩ rfl
        · refine .call rfl _ rfl ?_ rfl ?_ rfl (by simp)
          · rw [at_]
            have on : configured input.deps.notionDataSource = true := by simpa using source
            simp only [upcoming, notionRows, on, if_true]
            refine List.Sublist.subperm (.cons_cons _ (List.Sublist.append ?_ ?_))
            · exact List.Sublist.map _ filter_sublist
            · exact List.Sublist.map _ filter_sublist
          · intro k mem
            refine ⟨mem_cons_of_mem _ mem, ?_⟩
            rcases mem_append.mp mem with node | step
            · obtain ⟨row, kept, rfl⟩ := mem_map.mp node
              simpa [IssueRow.row] using (mem_filter.mp kept).2
            · obtain ⟨row, kept, rfl⟩ := mem_map.mp step
              simpa [SubIssueRow.row] using (mem_filter.mp kept).2

theorem nodesStart_moves (sound : Sound input s) (at_ : s.pc = .nodesStart work) :
    ∃ new, Moves input s (nodesStart host input s work) [] new := by
  have missing := sound.missing
  rw [at_] at missing
  unfold nodesStart
  split
  · refine ⟨work.nodeRows.map (·.row), fun _ _ => rfl, by simp, Or.inr ⟨_, rfl, rfl, ?_⟩, ?_, ?_, ?_,
      by simp [parentRows], by simp⟩
    · refine ⟨fun k mem => missing k (mem_append_left _ mem), ?_, ?_, ?_⟩
      · intro nodeId mem
        obtain ⟨row, -, same⟩ := mem_map.mp mem
        cases same
      · intro nodeId step mem
        obtain ⟨row, -, same⟩ := mem_map.mp mem
        cases same
      · intro nodeId step mem
        obtain ⟨row, -, same⟩ := mem_map.mp mem
        cases same
    · rw [at_]
      exact .refl _
    · intro k mem
      exact Or.inr mem
    · intro k mem
      exact ⟨mem, missing k (mem_append_right _ mem)⟩
  · refine ⟨[], .quiet ⟨fun _ => rfl, rfl, rfl⟩ ?_ (by simp [flying]) ?_ (by simp [parentRows])
      (by simp)⟩
    · rw [at_]
      exact (sublist_append_right _ _).subperm
    · intro k mem
      exact ⟨mem, missing k (mem_append_right _ mem)⟩

theorem batchesStart_moves (sound : Sound input s) (at_ : s.pc = .batchesStart work) :
    Moves input s (batchesStart input s work) [] [] := by
  have missing := sound.missing
  rw [at_] at missing
  obtain ⟨same, sublist, found⟩ := pickRows_spec s work.stepRows
  have all := flatten_slices _ (pickRows s work.stepRows).2 (Nat.le_refl _)
  unfold batchesStart
  refine .quiet ⟨same.get, same.sent, same.aborted⟩ ?_ (by simp [flying, Pool.start]) ?_ ?_ (by simp)
  · rw [at_]
    simp only [upcoming, Pool.start, all]
    exact (sublist.map (·.row)).subperm
  · intro k mem
    refine ⟨mem, missing k ?_⟩
    simp only [picked, Pool.start, all] at mem
    exact (sublist.map (·.row)).subset mem
  · intro k mem
    simp only [parentRows, Pool.start, all] at mem
    obtain ⟨row, ready, rfl⟩ := mem_map.mp mem
    exact found row ready

theorem finish_moves (at_ : s.pc = .finish) : Moves input s (finish input s) [] [] := by
  have same : SameBut s (if s.aborted then s.fail (js "tracking: budget exhausted") else s) := by
    split
    · exact .fail s _
    · exact .refl s
  refine ⟨fun k _ => same.get k, by simp, Or.inl ⟨same.sent, rfl⟩, ?_, by simp [finish, flying],
    by simp [finish, picked], by simp [finish, parentRows], ?_⟩
  · rw [at_]
    exact .refl _
  · intro status at_
    exact (Pc.done.inj at_).symm

theorem go_moves {s' : State ν} (sound : Sound input s) (ok : go host input s = some s') :
    ∃ new, Moves input s s' [] new := by
  unfold go at ok
  split at ok
  · rename_i at_
    cases ok
    exact ⟨_, adoptStart_moves host input s at_⟩
  · rename_i at_
    cases ok
    exact ⟨_, adoptNotionStart_moves input s at_⟩
  · rename_i at_
    cases ok
    exact ⟨_, linearStart_moves input s at_⟩
  · rename_i rest at_
    cases ok
    exact ⟨_, nextLevel_moves input s at_⟩
  · rename_i pool rest at_
    split at ok
    · cases ok
      refine ⟨_, .plain ⟨fun _ => rfl, rfl, rfl⟩ ?_ rfl rfl rfl (by simp)⟩
      rw [at_]
      exact (sublist_append_right _ _).subperm
    · cases ok
  · rename_i at_
    cases ok
    exact ⟨_, stepsStart_moves input s at_⟩
  · rename_i pool at_
    split at ok
    · cases ok
      refine ⟨_, .plain ⟨fun _ => rfl, rfl, rfl⟩ ?_ rfl rfl rfl (by simp)⟩
      rw [at_]
      exact (sublist_append_right _ _).subperm
    · cases ok
  · rename_i at_
    cases ok
    exact ⟨_, notionStart_moves input s at_⟩
  · rename_i work at_
    cases ok
    exact nodesStart_moves host input s sound at_
  · rename_i work at_
    cases ok
    exact ⟨_, batchesStart_moves input s sound at_⟩
  · rename_i work pool at_
    split at ok
    · cases ok
      exact ⟨_, .plain ⟨fun _ => rfl, rfl, rfl⟩ nil_subperm rfl rfl rfl (by simp)⟩
    · cases ok
  · rename_i at_
    cases ok
    exact ⟨_, finish_moves input s at_⟩
  all_goals cases ok

end Going

section Pools
variable {ν : Type} (host : Host ν) (input : Input) (s : State ν)

theorem blockedBy_named (refs : Refs) (deps : List Text)
    (all : ∀ dep ∈ deps, refs.hasLinearNode dep = true) : Named refs deps (blockedBy refs deps) := by
  induction deps with
  | nil => exact .nil
  | cons dep deps ih =>
    obtain ⟨ref, found⟩ := Option.isSome_iff_exists.mp (all dep (mem_cons_self ..))
    have here : blockedBy refs (dep :: deps) = ref.identifier :: blockedBy refs deps := by
      simp [blockedBy, found]
    rw [here]
    exact .cons ⟨ref, found, rfl⟩ (ih fun d mem => all d (mem_cons_of_mem _ mem))

theorem nodeArgs_blockedBy (refs : Refs) (nodeId title : Text) (issue : LinearIssuePlan) :
    Json.field (nodeArgs (ν := ν) input refs nodeId title issue) (js "blockedBy") =
      if blockedBy refs (nodeDeps input nodeId) = [] then none
      else some (.arr ((blockedBy refs (nodeDeps input nodeId)).map .str)) := by
  have team : ¬js "team" = js "blockedBy" := by decide
  have title' : ¬js "title" = js "blockedBy" := by decide
  have description : ¬js "description" = js "blockedBy" := by decide
  by_cases empty : blockedBy refs (nodeDeps input nodeId) = []
  · simp [nodeArgs, Json.field, empty, team, title', description]
  · simp [nodeArgs, Json.field, empty, team, title', description]

theorem nodeWork_moves (sound : Sound input s) (at_ : s.pc = .level pool rest)
    (took : pool.take = some (nodeId, pool')) :
    ∃ new, Moves input s { (nodeWork input s nodeId pool').1 with
      pc := .level (nodeWork input s nodeId pool').2 rest } [] new := by
  obtain ⟨queue, air, -⟩ := Pool.take_eq_some took
  have missing := sound.missing
  rw [at_] at missing
  simp only [picked, queue, map_cons, forall_mem_cons] at missing
  have back : ∀ s' : State ν, SameBut s s' →
      Moves input s { s' with pc := .level pool'.back rest } [] [] := by
    intro s' same
    refine .quiet ⟨same.get, same.sent, same.aborted⟩ ?_ ?_ ?_ (by simp [parentRows]) (by simp)
    · rw [at_]
      simp only [upcoming, Pool.back, queue, map_cons, cons_append]
      exact (sublist_cons_self _ _).subperm
    · rw [at_]
      simp [flying, Pool.back, air]
    · intro k mem
      exact ⟨mem_append_left _ mem, missing.2 k mem⟩
  unfold nodeWork
  split
  · exact ⟨_, back s (.refl s)⟩
  · rename_i issue found
    simp only
    split
    · exact ⟨_, back (s.fail _) (.fail s _)⟩
    · rename_i present
      have all : ∀ dep ∈ nodeDeps input nodeId, s.refs.hasLinearNode dep = true := by
        simpa using present
      refine ⟨[.linearNode nodeId], fun _ _ => rfl, by simp, Or.inr ⟨_, rfl, rfl, ?_⟩, ?_, ?_, ?_,
        by simp [parentRows], by simp⟩
      · refine ⟨?_, ?_, by simp, by simp⟩
        · intro k mem
          rw [mem_singleton.mp mem]
          exact missing.1
        · intro id mem
          obtain rfl := RowKey.linearNode.inj (mem_singleton.mp mem)
          exact ⟨_, blockedBy_named s.refs _ all, nodeArgs_blockedBy input s.refs _ _ issue⟩
      · rw [at_]
        simp only [upcoming, Pool.wait, queue, map_cons, cons_append, nil_append]
        exact .refl _
      · intro k mem
        rw [at_]
        simp only [flying, Pool.wait, map_append, mem_append, air] at mem ⊢
        exact mem
      · intro k mem
        exact ⟨mem_append_left _ mem, missing.2 k mem⟩

theorem stepWork_moves {sub : LinearSubIssuePlan} {pool pool' : StepPool} (sound : Sound input s)
    (at_ : s.pc = .steps pool) (took : pool.take = some (sub, pool')) :
    Moves input s { (stepWork input s sub pool').1 with pc := .steps (stepWork input s sub pool').2 }
      [] [sub.row] := by
  obtain ⟨queue, air, -⟩ := Pool.take_eq_some took
  have missing := sound.missing
  rw [at_] at missing
  simp only [picked, queue, map_cons, forall_mem_cons] at missing
  have parents := sound.parents
  rw [at_] at parents
  simp only [parentRows, queue, map_cons, forall_mem_cons] at parents
  refine ⟨fun _ _ => rfl, by simp, Or.inr ⟨_, rfl, rfl, ?_⟩, ?_, ?_, ?_, ?_, by simp⟩
  · refine ⟨?_, ?_, ?_, ?_⟩
    · intro k mem
      rw [mem_singleton.mp mem]
      exact missing.1
    · intro nodeId mem
      cases mem_singleton.mp mem
    · intro nodeId step mem
      obtain ⟨rfl, -⟩ := stepKey_inj (RowKey.linearStep.inj (mem_singleton.mp mem))
      obtain ⟨ref, found⟩ : ∃ ref, s.refs.linearNodes.get? sub.nodeId = some ref := by
        have known := parents.1
        rw [nodeRow, ← hasLinearNode_eq] at known
        exact Option.isSome_iff_exists.mp known
      have team : ¬js "team" = js "parentId" := by decide
      have title : ¬js "title" = js "parentId" := by decide
      have description : ¬js "description" = js "parentId" := by decide
      exact ⟨ref, found, by simp [Json.field, found, team, title, description]⟩
    · intro nodeId step mem
      cases mem_singleton.mp mem
  · rw [at_]
    simp only [upcoming, stepWork, Pool.wait, queue, map_cons, cons_append,
      nil_append]
    exact .refl _
  · intro k mem
    rw [at_]
    simp only [flying, stepWork, Pool.wait, map_append, mem_append, air] at mem ⊢
    exact mem
  · intro k mem
    exact ⟨mem_append_left _ mem, missing.2 k mem⟩
  · intro k mem
    exact ⟨by simp, parents.2 k mem⟩

theorem batchWork_moves {batch : List SubIssueRow} {pool pool' : BatchPool} (sound : Sound input s)
    (at_ : s.pc = .batches work pool) (took : pool.take = some (batch, pool')) :
    Moves input s { (batchWork host input s work batch pool').1 with
      pc := .batches work (batchWork host input s work batch pool').2 } [] (batch.map (·.row)) := by
  obtain ⟨queue, air, -⟩ := Pool.take_eq_some took
  have missing := sound.missing
  rw [at_] at missing
  simp only [picked, queue, flatten_cons, map_append] at missing
  have parents := sound.parents
  rw [at_] at parents
  simp only [parentRows, queue, flatten_cons, map_append] at parents
  refine ⟨fun _ _ => rfl, by simp, Or.inr ⟨_, rfl, rfl, ?_⟩, ?_, ?_, ?_, ?_, by simp⟩
  · refine ⟨fun k mem => missing k (mem_append_left _ mem), ?_, ?_, ?_⟩
    · intro nodeId mem
      obtain ⟨row, -, same⟩ := mem_map.mp mem
      cases same
    · intro nodeId step mem
      obtain ⟨row, -, same⟩ := mem_map.mp mem
      cases same
    · intro nodeId step mem
      obtain ⟨row, inside, same⟩ := mem_map.mp mem
      obtain ⟨rfl, -⟩ := stepKey_inj (RowKey.notionStep.inj same)
      exact parents _ (mem_append_left _ (mem_map.mpr ⟨row, inside, rfl⟩))
  · rw [at_]
    simp only [upcoming, batchWork, Pool.wait, queue, flatten_cons, map_append]
    exact .refl _
  · intro k mem
    rw [at_]
    simp only [flying, batchWork, Pool.wait, flatten_append, map_append, mem_append,
      air, flatten_cons, flatten_nil, append_nil] at mem ⊢
    exact mem
  · intro k mem
    exact ⟨mem, missing k (mem_append_right _ mem)⟩
  · intro k mem
    exact ⟨by simp, parents k (mem_append_right _ mem)⟩

theorem take_moves {s' : State ν} (sound : Sound input s) (ok : takeItem host input s = some s') :
    ∃ new, Moves input s s' [] new := by
  unfold takeItem at ok
  split at ok
  · cases ok
  · split at ok
    · rename_i pool rest at_
      obtain ⟨⟨nodeId, pool'⟩, took, rfl⟩ := Option.map_eq_some_iff.mp ok
      exact nodeWork_moves input s sound at_ took
    · rename_i pool at_
      obtain ⟨⟨sub, pool'⟩, took, rfl⟩ := Option.map_eq_some_iff.mp ok
      exact ⟨_, stepWork_moves input s sound at_ took⟩
    · rename_i work pool at_
      obtain ⟨⟨batch, pool'⟩, took, rfl⟩ := Option.map_eq_some_iff.mp ok
      exact ⟨_, batchWork_moves host input s sound at_ took⟩
    · cases ok

theorem Moves.still {s' : State ν} (sound : Sound input s) (same : SameBut s s')
    (counted : upcoming input s'.pc = upcoming input s.pc) (under : flying s'.pc = flying s.pc)
    (missing : picked s'.pc = picked s.pc)
    (inside : ∀ k ∈ picked s.pc, k ∈ upcoming input s.pc) (parents : parentRows s'.pc = parentRows s.pc)
    (status : ∀ status, s'.pc ≠ .done status) : Moves input s s' [] [] := by
  refine .quiet same (by rw [counted]) (by simp [under]) ?_ ?_ status
  · intro k mem
    rw [missing] at mem
    rw [counted]
    exact ⟨inside k mem, sound.missing k mem⟩
  · intro k mem
    rw [parents] at mem
    exact sound.parents k mem

theorem picked_upcoming (pc : Pc) : ∀ k ∈ picked pc, k ∈ upcoming input pc := by
  intro k mem
  cases pc with
  | level pool rest => exact mem_append_left _ mem
  | steps pool => exact mem_append_left _ mem
  | fetchingSchema nodes steps => exact mem_cons_of_mem _ mem
  | creatingTask work => exact mem
  | nodesStart work => exact mem
  | creatingNodes work => exact mem
  | batchesStart work => exact mem
  | batches work pool => exact mem
  | _ => cases mem

/-- Leaving a pool changes no list of rows. -/
theorem leavePool_kept {s' : State ν} (ok : leavePool s = some s') :
    ∃ pc, s' = { s with pc } ∧ upcoming input pc = upcoming input s.pc ∧ flying pc = flying s.pc ∧
      picked pc = picked s.pc ∧ parentRows pc = parentRows s.pc ∧ ∀ status, pc ≠ .done status := by
  unfold leavePool at ok
  split at ok
  · rename_i pool rest at_
    split at ok
    · obtain ⟨pool', left, rfl⟩ := Option.map_eq_some_iff.mp ok
      obtain ⟨queue, air, -⟩ := Pool.leave_weight_lt left
      rw [at_]
      exact ⟨_, rfl, by simp [upcoming, queue], by simp [flying, air], by simp [picked, queue], rfl,
        nofun⟩
    · cases ok
  · rename_i pool at_
    split at ok
    · obtain ⟨pool', left, rfl⟩ := Option.map_eq_some_iff.mp ok
      obtain ⟨queue, air, -⟩ := Pool.leave_weight_lt left
      rw [at_]
      exact ⟨_, rfl, by simp [upcoming, queue], by simp [flying, air], by simp [picked, queue],
        by simp [parentRows, queue], nofun⟩
    · cases ok
  · rename_i work pool at_
    split at ok
    · obtain ⟨pool', left, rfl⟩ := Option.map_eq_some_iff.mp ok
      obtain ⟨queue, air, -⟩ := Pool.leave_weight_lt left
      rw [at_]
      exact ⟨_, rfl, by simp [upcoming, queue], by simp [flying, air], by simp [picked, queue],
        by simp [parentRows, queue], nofun⟩
    · cases ok
  · cases ok

theorem leave_moves {s' : State ν} (sound : Sound input s) (ok : leavePool s = some s') :
    Moves input s s' [] [] := by
  obtain ⟨pc, rfl, counted, under, missing, parents, status⟩ := leavePool_kept input s ok
  exact .still input s sound ⟨fun _ => rfl, rfl, rfl⟩ counted under missing
    (picked_upcoming input s.pc) parents status

/-- A call of the run is answered: its rows' places may be filled, nothing is sent. -/
theorem Moves.answer {s' : State ν} (sound : Sound input s) (fills : Fills rows s s')
    (answered : ∀ k ∈ rows, k ∈ flying s.pc)
    (counted : (upcoming input s'.pc).Subperm (upcoming input s.pc))
    (under : ∀ k ∈ flying s'.pc, k ∈ flying s.pc) (missing : ∀ k ∈ picked s'.pc, k ∈ picked s.pc)
    (parents : ∀ k ∈ parentRows s'.pc, k ∈ parentRows s.pc ∧ k ∉ rows)
    (status : ∀ status, s'.pc ≠ .done status) : Moves input s s' rows [] where
  refs := fills.refs
  answered := answered
  sends := Or.inl ⟨fills.sent, rfl⟩
  counted := counted
  under k mem := Or.inl (under k mem)
  missing k mem := ⟨picked_upcoming input s'.pc k mem, sound.missing k (missing k mem)⟩
  parents k mem := ⟨(parents k mem).2, sound.parents k (parents k mem).1⟩
  status st at_ := absurd at_ (status st)

theorem schemaFetched_moves {nodeRows : List IssueRow} {stepRows : List SubIssueRow}
    (sound : Sound input s) (at_ : s.pc = .fetchingSchema nodeRows stepRows) (outcome : Outcome ν) :
    ∃ new, Moves input s (schemaFetched host input s nodeRows stepRows outcome) [] new := by
  have missing := sound.missing
  rw [at_] at missing
  cases outcome with
  | error message =>
    exact ⟨_, .plain ⟨fail_get s _, rfl, rfl⟩ nil_subperm rfl rfl rfl (by simp [schemaFetched])⟩
  | reply value =>
    unfold schemaFetched
    simp only
    split
    · refine ⟨_, .quiet ⟨fun _ => rfl, rfl, rfl⟩ ?_ (by simp [flying]) ?_ (by simp [parentRows])
        (by simp)⟩
      · rw [at_]
        exact (sublist_cons_self _ _).subperm
      · exact fun k mem => ⟨mem, missing k mem⟩
    · rename_i absent
      refine ⟨[.notionTask], fun _ _ => rfl, by simp, Or.inr ⟨_, rfl, rfl, ?_⟩, ?_, ?_, ?_,
        by simp [parentRows], by simp⟩
      · refine ⟨?_, by simp, by simp, by simp⟩
        intro k mem
        rw [mem_singleton.mp mem]
        simpa using absent
      · rw [at_]
        exact .refl _
      · exact fun k mem => Or.inr mem
      · exact fun k mem => ⟨mem, missing k mem⟩

theorem nodeSaved_moves {title : Text} (sound : Sound input s) (at_ : s.pc = .level pool rest)
    (landed : pool.land i = some ((nodeId, title), pool')) (outcome : Outcome ν) :
    Moves input s { nodeSaved host s nodeId title outcome with pc := .level pool'.back rest }
      [.linearNode nodeId] [] := by
  obtain ⟨mem, queue, fewer, -⟩ := Pool.land_eq_some landed
  have fills := nodeSaved_fills host s nodeId title outcome
  refine .answer input s sound ⟨fills.refs, fills.sent, fills.aborted⟩ ?_ ?_ ?_ ?_
    (by simp [parentRows]) (by simp)
  · intro k only
    rw [mem_singleton.mp only, at_]
    exact mem_map.mpr ⟨_, mem, rfl⟩
  · rw [at_]
    simp only [upcoming, Pool.back, queue]
    exact .refl _
  · rw [at_]
    exact (fewer.map _).subset
  · rw [at_]
    simp [picked, Pool.back, queue]

theorem stepSaved_moves {sub : LinearSubIssuePlan} {pool pool' : StepPool} (sound : Sound input s)
    (at_ : s.pc = .steps pool) (landed : pool.land i = some (sub, pool')) (outcome : Outcome ν) :
    Moves input s { stepSaved host s sub outcome with pc := .steps pool'.back } [sub.row] [] := by
  obtain ⟨mem, queue, fewer, -⟩ := Pool.land_eq_some landed
  have fills := stepSaved_fills host s sub outcome
  refine .answer input s sound ⟨fills.refs, fills.sent, fills.aborted⟩ ?_ ?_ ?_ ?_ ?_ (by simp)
  · intro k only
    rw [mem_singleton.mp only, at_]
    exact mem_map.mpr ⟨_, mem, rfl⟩
  · rw [at_]
    simp only [upcoming, Pool.back, queue]
    exact .refl _
  · rw [at_]
    exact (fewer.map _).subset
  · rw [at_]
    simp [picked, Pool.back, queue]
  · rw [at_]
    intro k parent
    simp only [parentRows, Pool.back, queue] at parent ⊢
    refine ⟨parent, ?_⟩
    obtain ⟨other, -, rfl⟩ := mem_map.mp parent
    simp [nodeRow, LinearSubIssuePlan.row]

theorem taskCreated_moves (sound : Sound input s) (at_ : s.pc = .creatingTask work)
    (outcome : Outcome ν) :
    Moves input s (taskCreated host s work outcome) [.notionTask] [] := by
  have fills := taskCreated_fills host s work outcome
  have there : (taskCreated host s work outcome).pc = .nodesStart work ∨
      (taskCreated host s work outcome).pc = .finish := by
    unfold taskCreated
    split
    · exact Or.inl rfl
    · exact Or.inr rfl
  refine .answer input s sound fills (by simp [at_, flying]) ?_ ?_ ?_ ?_ ?_
  all_goals rcases there with next | next
  all_goals rw [next]
  · rw [at_]
    exact .refl _
  · exact nil_subperm
  · simp [flying]
  · simp [flying]
  · rw [at_]
    exact fun _ => id
  · simp [picked]
  · simp [parentRows]
  · simp [parentRows]
  · simp
  · simp

theorem nodesCreated_moves (sound : Sound input s) (at_ : s.pc = .creatingNodes work)
    (outcome : Outcome ν) :
    Moves input s (nodesCreated host s work outcome) (work.nodeRows.map (·.row)) [] := by
  have fills := nodesCreated_fills host s work outcome
  have there : (nodesCreated host s work outcome).pc = .batchesStart work := by
    unfold nodesCreated
    split <;> rfl
  refine .answer input s sound fills (by simp [at_, flying]) ?_ ?_ ?_ ?_ ?_
  all_goals rw [there]
  · rw [at_]
    exact .refl _
  · simp [flying]
  · rw [at_]
    exact fun _ => id
  · simp [parentRows]
  · simp

theorem batchCreated_moves {batch : List SubIssueRow} {pool pool' : BatchPool}
    (sound : Sound input s) (at_ : s.pc = .batches work pool)
    (landed : pool.land i = some (batch, pool')) (outcome : Outcome ν) :
    Moves input s { batchCreated host s batch outcome with pc := .batches work pool'.back }
      (batch.map (·.row)) [] := by
  obtain ⟨mem, queue, fewer, -⟩ := Pool.land_eq_some landed
  have fills := batchCreated_fills host s batch outcome
  refine .answer input s sound ⟨fills.refs, fills.sent, fills.aborted⟩ ?_ ?_ ?_ ?_ ?_ (by simp)
  · intro k inside
    obtain ⟨row, here, rfl⟩ := mem_map.mp inside
    rw [at_]
    exact mem_map.mpr ⟨row, mem_flatten.mpr ⟨batch, mem, here⟩, rfl⟩
  · rw [at_]
    simp only [upcoming, Pool.back, queue]
    exact .refl _
  · rw [at_]
    intro k inside
    obtain ⟨row, here, rfl⟩ := mem_map.mp inside
    obtain ⟨other, air, within⟩ := mem_flatten.mp here
    exact mem_map.mpr ⟨row, mem_flatten.mpr ⟨other, fewer.subset air, within⟩, rfl⟩
  · rw [at_]
    simp [picked, Pool.back, queue]
  · rw [at_]
    intro k parent
    simp only [parentRows, Pool.back, queue] at parent ⊢
    refine ⟨parent, ?_⟩
    obtain ⟨other, -, rfl⟩ := mem_map.mp parent
    simp [SubIssueRow.row]

theorem Sound.adopt {adopt : Refs → Json ν → Refs} (sound : Sound input s)
    (includes : ∀ refs value, Includes refs (adopt refs value)) (outcome : Outcome ν) {pc : Pc}
    (before : upcoming input s.pc = upcoming input pc) (under : flying pc = [])
    (missing : picked pc = []) (parents : parentRows pc = []) (status : ∀ status, pc ≠ .done status) :
    Sound input { adopted s adopt outcome with pc } := by
  have grown : Includes s.refs (adopted s adopt outcome).refs := by
    cases outcome with
    | reply value => exact includes _ _
    | error message => exact .refl _
  have sent : (adopted s adopt outcome).sent = s.sent := by cases outcome <;> rfl
  refine ⟨?_, ?_, by simp [under], sound.kept.trans grown, by simp [missing], by simp [parents],
    fun st at_ => absurd at_ (status st)⟩
  · simp only [submitted, sent, ← before]
    exact sound.counted
  · simp only [submitted, sent]
    exact sound.new

theorem adopted_sent (adopt : Refs → Json ν → Refs) (outcome : Outcome ν) :
    (adopted s adopt outcome).sent = s.sent := by
  cases outcome <;> rfl

theorem settle_sound {s' : State ν} (distinct : (plannedRows input).Nodup) (sound : Sound input s)
    {outcome : Outcome ν} (ok : settle host input s i outcome = some s') :
    Sound input s' ∧ ∃ rows, Sends input s s' rows := by
  have of : ∀ {filled new : List RowKey}, Moves input s s' filled new →
      Sound input s' ∧ ∃ rows, Sends input s s' rows :=
    fun moves => ⟨sound.moves distinct moves, _, moves.sends⟩
  unfold settle at ok
  split at ok
  · rename_i at_
    cases ok
    refine ⟨.adopt input s sound (adoptLinear_includes host _) outcome ?_ rfl rfl rfl (by simp), [],
      Or.inl ⟨adopted_sent s _ outcome, rfl⟩⟩
    rw [at_]
    rfl
  · rename_i at_
    cases ok
    refine ⟨.adopt input s sound (adoptNotion_includes host) outcome ?_ rfl rfl rfl (by simp), [],
      Or.inl ⟨adopted_sent s _ outcome, rfl⟩⟩
    rw [at_]
    rfl
  · rename_i pool rest at_
    obtain ⟨⟨⟨nodeId, title⟩, pool'⟩, landed, rfl⟩ := Option.map_eq_some_iff.mp ok
    exact of (nodeSaved_moves host input s sound at_ landed outcome)
  · rename_i pool at_
    obtain ⟨⟨sub, pool'⟩, landed, rfl⟩ := Option.map_eq_some_iff.mp ok
    exact of (stepSaved_moves host input s sound at_ landed outcome)
  · rename_i nodeRows stepRows at_
    cases ok
    obtain ⟨new, moves⟩ := schemaFetched_moves host input s sound at_ outcome
    exact of moves
  · rename_i work at_
    cases ok
    exact of (taskCreated_moves host input s sound at_ outcome)
  · rename_i work at_
    cases ok
    exact of (nodesCreated_moves host input s sound at_ outcome)
  · rename_i work pool at_
    obtain ⟨⟨batch, pool'⟩, landed, rfl⟩ := Option.map_eq_some_iff.mp ok
    exact of (batchCreated_moves host input s sound at_ landed outcome)
  · cases ok

theorem step_sound {s' : State ν} {event : Event ν} (distinct : (plannedRows input).Nodup)
    (sound : Sound input s) (ok : step host input s event = some s') :
    Sound input s' ∧ ∃ rows, Sends input s s' rows := by
  have of : ∀ {filled new : List RowKey}, Moves input s s' filled new →
      Sound input s' ∧ ∃ rows, Sends input s s' rows :=
    fun moves => ⟨sound.moves distinct moves, _, moves.sends⟩
  unfold step at ok
  split at ok
  · obtain ⟨new, moves⟩ := go_moves host input s sound ok
    exact of moves
  · obtain ⟨new, moves⟩ := take_moves host input s sound ok
    exact of moves
  · exact of (leave_moves input s sound ok)
  · split at ok
    · cases ok
    · exact settle_sound host input s distinct sound ok
  · split at ok
    · cases ok
    · exact settle_sound host input s distinct sound ok
  · split at ok
    · exact settle_sound host input s distinct sound ok
    · cases ok
  · split at ok
    · cases ok
    · cases ok
      exact ⟨⟨sound.counted, sound.new, sound.under, sound.kept, sound.missing, sound.parents,
        sound.status⟩, [], Or.inl ⟨rfl, rfl⟩⟩

end Pools

def levelsWeight (rest : List (List Text)) : Nat := (rest.map fun level => 4 * level.length + 3).sum

def stepsWeight (input : Input) : Nat :=
  4 * input.plan.linearSubIssues.length + 4 * input.plan.subIssues.length + 14

/-- What is left to do at this point; no step adds to it. -/
def pcWeight (input : Input) : Pc → Nat
  | .start => 7 * input.plan.linearIssues.length + stepsWeight input + 6
  | .adoptingLinear => 7 * input.plan.linearIssues.length + stepsWeight input + 5
  | .adoptNotion => 7 * input.plan.linearIssues.length + stepsWeight input + 4
  | .adoptingNotion => 7 * input.plan.linearIssues.length + stepsWeight input + 3
  | .linearStart => 7 * input.plan.linearIssues.length + stepsWeight input + 2
  | .levels rest => levelsWeight rest + stepsWeight input + 1
  | .level pool rest => pool.weight + (levelsWeight rest + stepsWeight input + 2)
  | .stepsStart => stepsWeight input
  | .steps pool => pool.weight + (4 * input.plan.subIssues.length + 11)
  | .notionStart => 4 * input.plan.subIssues.length + 10
  | .fetchingSchema _ steps => 4 * steps.length + 9
  | .creatingTask work => 4 * work.stepRows.length + 8
  | .nodesStart work => 4 * work.stepRows.length + 7
  | .creatingNodes work => 4 * work.stepRows.length + 6
  | .batchesStart work => 4 * work.stepRows.length + 5
  | .batches _ pool => pool.weight + 2
  | .finish => 1
  | .done _ => 0

def weight {ν : Type} (input : Input) (s : State ν) : Nat :=
  pcWeight input s.pc + if s.aborted then 0 else 1

theorem levelsWeight_le (levels : List (List Text)) (full : ∀ level ∈ levels, level ≠ []) :
    levelsWeight levels ≤ 7 * levels.flatten.length := by
  induction levels with
  | nil => simp [levelsWeight]
  | cons level rest ih =>
    have later := ih fun l mem => full l (mem_cons_of_mem _ mem)
    have here : 0 < level.length := length_pos_iff.mpr (full level (mem_cons_self ..))
    simp only [levelsWeight, map_cons, sum_cons, flatten_cons,
      length_append] at later ⊢
    omega

theorem levelsWeight_nodeLevels (nodeIds : List Text) (graph : Option ThoughtGraph) :
    levelsWeight (nodeLevels nodeIds graph) ≤ 7 * nodeIds.length := by
  rw [← (nodeLevels_perm nodeIds graph).length_eq]
  refine levelsWeight_le _ fun level mem => ?_
  simpa using (mem_filter.mp mem).2

/-- Less is left to do, and the abort is as it was. -/
structure Lighter {ν : Type} (input : Input) (s s' : State ν) : Prop where
  less : pcWeight input s'.pc < pcWeight input s.pc
  aborted : s'.aborted = s.aborted

section Ending
variable {ν : Type} (host : Host ν) (input : Input) (s : State ν)

theorem go_lighter {s' : State ν} (ok : go host input s = some s') : Lighter input s s' := by
  unfold go at ok
  split at ok
  · rename_i at_
    cases ok
    unfold adoptStart
    split
    · exact ⟨by simp only [at_, pcWeight]; omega, rfl⟩
    · split
      · exact ⟨by simp only [at_, pcWeight]; omega, rfl⟩
      · exact ⟨by simp only [at_, pcWeight]; omega, rfl⟩
  · rename_i at_
    cases ok
    unfold adoptNotionStart
    split
    · exact ⟨by simp only [at_, pcWeight]; omega, rfl⟩
    · exact ⟨by simp only [at_, pcWeight]; omega, rfl⟩
  · rename_i at_
    cases ok
    have levels := levelsWeight_nodeLevels (linearIds input.plan) input.graph
    simp only [linearIds, length_map] at levels
    unfold linearStart
    simp only
    split
    · exact ⟨by simp only [at_, pcWeight, stepsWeight]; omega, rfl⟩
    · split
      · exact ⟨by simp only [at_, pcWeight, stepsWeight]; omega, rfl⟩
      · split
        · exact ⟨by simp only [at_, pcWeight, stepsWeight]; omega, rfl⟩
        · refine ⟨?_, rfl⟩
          simp only [at_, pcWeight, linearIds]
          omega
  · rename_i rest at_
    cases ok
    cases rest with
    | nil => exact ⟨by simp only [nextLevel, at_, pcWeight]; omega, rfl⟩
    | cons level rest =>
      simp only [nextLevel]
      split
      · exact ⟨by simp only [at_, pcWeight, stepsWeight]; omega, rfl⟩
      · refine ⟨?_, rfl⟩
        have todo := length_filter_le (fun id => !s.refs.hasLinearNode id) level
        have start := Pool.start_weight_le (β := Text × Text) input.deps.concurrency
          (level.filter fun id => !s.refs.hasLinearNode id)
        simp only [at_, pcWeight, levelsWeight, map_cons, sum_cons]
        omega
  · rename_i pool rest at_
    split at ok
    · cases ok
      exact ⟨by simp only [at_, pcWeight]; omega, rfl⟩
    · cases ok
  · rename_i at_
    cases ok
    obtain ⟨same, sublist, -⟩ := pickSteps_spec s input.plan.linearSubIssues
    refine ⟨?_, same.aborted⟩
    have fewer := sublist.length_le
    have start := Pool.start_weight_le (β := LinearSubIssuePlan) input.deps.concurrency
      (pickSteps s input.plan.linearSubIssues).2
    simp only [stepsStart, at_, pcWeight, stepsWeight]
    omega
  · rename_i pool at_
    split at ok
    · cases ok
      exact ⟨by simp only [at_, pcWeight]; omega, rfl⟩
    · cases ok
  · rename_i at_
    cases ok
    unfold notionStart
    simp only
    split
    · exact ⟨by simp only [at_, pcWeight]; omega, rfl⟩
    · split
      · exact ⟨by simp only [at_, pcWeight]; omega, rfl⟩
      · split
        · exact ⟨by simp only [at_, pcWeight]; omega, rfl⟩
        · split
          · exact ⟨by simp only [at_, pcWeight]; omega, rfl⟩
          · refine ⟨?_, rfl⟩
            have fewer := length_filter_le
              (fun row => !s.refs.hasNotionStep (stepKey row.nodeId row.step)) input.plan.subIssues
            simp only [at_, pcWeight]
            omega
  · rename_i work at_
    cases ok
    unfold nodesStart
    split
    · exact ⟨by simp only [at_, pcWeight]; omega, rfl⟩
    · exact ⟨by simp only [at_, pcWeight]; omega, rfl⟩
  · rename_i work at_
    cases ok
    obtain ⟨same, sublist, -⟩ := pickRows_spec s work.stepRows
    refine ⟨?_, same.aborted⟩
    have fewer := sublist.length_le
    have parts := length_slices_le (pickRows s work.stepRows).2.length (pickRows s work.stepRows).2
    have start := Pool.start_weight_le (β := List SubIssueRow) input.deps.concurrency
      (slices (pickRows s work.stepRows).2.length (pickRows s work.stepRows).2)
    simp only [batchesStart, at_, pcWeight]
    omega
  · rename_i work pool at_
    split at ok
    · cases ok
      exact ⟨by simp only [at_, pcWeight]; omega, rfl⟩
    · cases ok
  · rename_i at_
    cases ok
    refine ⟨by simp [finish, at_, pcWeight], ?_⟩
    unfold finish
    simp only
    split <;> rfl
  all_goals cases ok

theorem nodeWork_weight (took : pool.take = some (nodeId, pool')) :
    (nodeWork input s nodeId pool').2.weight < pool.weight ∧
      (nodeWork input s nodeId pool').1.aborted = s.aborted := by
  have back := Pool.back_weight_lt took
  unfold nodeWork
  split
  · exact ⟨back, rfl⟩
  · simp only
    split
    · exact ⟨back, rfl⟩
    · exact ⟨Pool.wait_weight_lt took _, rfl⟩

theorem take_lighter {s' : State ν} (ok : takeItem host input s = some s') : Lighter input s s' := by
  unfold takeItem at ok
  split at ok
  · cases ok
  · split at ok
    · rename_i pool rest at_
      obtain ⟨⟨nodeId, pool'⟩, took, rfl⟩ := Option.map_eq_some_iff.mp ok
      obtain ⟨fewer, same⟩ := nodeWork_weight input s took
      exact ⟨by simp only [at_, pcWeight]; omega, same⟩
    · rename_i pool at_
      obtain ⟨⟨sub, pool'⟩, took, rfl⟩ := Option.map_eq_some_iff.mp ok
      have wait := Pool.wait_weight_lt took sub
      exact ⟨by simp only [stepWork, at_, pcWeight]; omega, rfl⟩
    · rename_i work pool at_
      obtain ⟨⟨batch, pool'⟩, took, rfl⟩ := Option.map_eq_some_iff.mp ok
      have wait := Pool.wait_weight_lt took batch
      exact ⟨by simp only [batchWork, at_, pcWeight]; omega, rfl⟩
    · cases ok

theorem leave_lighter {s' : State ν} (ok : leavePool s = some s') : Lighter input s s' := by
  unfold leavePool at ok
  split at ok
  · rename_i pool rest at_
    split at ok
    · obtain ⟨pool', left, rfl⟩ := Option.map_eq_some_iff.mp ok
      have fewer := (Pool.leave_weight_lt left).2.2
      exact ⟨by simp only [at_, pcWeight]; omega, rfl⟩
    · cases ok
  · rename_i pool at_
    split at ok
    · obtain ⟨pool', left, rfl⟩ := Option.map_eq_some_iff.mp ok
      have fewer := (Pool.leave_weight_lt left).2.2
      exact ⟨by simp only [at_, pcWeight]; omega, rfl⟩
    · cases ok
  · rename_i work pool at_
    split at ok
    · obtain ⟨pool', left, rfl⟩ := Option.map_eq_some_iff.mp ok
      have fewer := (Pool.leave_weight_lt left).2.2
      exact ⟨by simp only [at_, pcWeight]; omega, rfl⟩
    · cases ok
  · cases ok

theorem settle_lighter {s' : State ν} {outcome : Outcome ν}
    (ok : settle host input s i outcome = some s') : Lighter input s s' := by
  unfold settle at ok
  split at ok
  · rename_i at_
    cases ok
    exact ⟨by simp only [at_, pcWeight]; omega, by cases outcome <;> rfl⟩
  · rename_i at_
    cases ok
    exact ⟨by simp only [at_, pcWeight]; omega, by cases outcome <;> rfl⟩
  · rename_i pool rest at_
    obtain ⟨⟨⟨nodeId, title⟩, pool'⟩, landed, rfl⟩ := Option.map_eq_some_iff.mp ok
    have fewer := (Pool.land_eq_some landed).2.2.2
    exact ⟨by simp only [at_, pcWeight]; omega, (nodeSaved_fills host s nodeId title outcome).aborted⟩
  · rename_i pool at_
    obtain ⟨⟨sub, pool'⟩, landed, rfl⟩ := Option.map_eq_some_iff.mp ok
    have fewer := (Pool.land_eq_some landed).2.2.2
    exact ⟨by simp only [at_, pcWeight]; omega, (stepSaved_fills host s sub outcome).aborted⟩
  · rename_i nodeRows stepRows at_
    cases ok
    cases outcome with
    | error message => exact ⟨by simp only [schemaFetched, at_, pcWeight]; omega, rfl⟩
    | reply value =>
      unfold schemaFetched
      simp only
      split
      · exact ⟨by simp only [at_, pcWeight]; omega, rfl⟩
      · exact ⟨by simp only [at_, pcWeight]; omega, rfl⟩
  · rename_i work at_
    cases ok
    refine ⟨?_, (taskCreated_fills host s work outcome).aborted⟩
    unfold taskCreated
    split
    · simp only [at_, pcWeight]
      omega
    · simp only [at_, pcWeight]
      omega
  · rename_i work at_
    cases ok
    refine ⟨?_, (nodesCreated_fills host s work outcome).aborted⟩
    unfold nodesCreated
    split
    · simp only [at_, pcWeight]
      omega
    · simp only [at_, pcWeight]
      omega
  · rename_i work pool at_
    obtain ⟨⟨batch, pool'⟩, landed, rfl⟩ := Option.map_eq_some_iff.mp ok
    have fewer := (Pool.land_eq_some landed).2.2.2
    exact ⟨by simp only [at_, pcWeight]; omega, (batchCreated_fills host s batch outcome).aborted⟩
  · cases ok

theorem Lighter.weight_lt {s' : State ν} (lighter : Lighter input s s') :
    weight input s' < weight input s := by
  unfold weight
  rw [lighter.aborted]
  exact Nat.add_lt_add_right lighter.less _

theorem step_weight_lt {s' : State ν} {event : Event ν} (ok : step host input s event = some s') :
    weight input s' < weight input s := by
  unfold step at ok
  split at ok
  · exact (go_lighter host input s ok).weight_lt
  · exact (take_lighter host input s ok).weight_lt
  · exact (leave_lighter input s ok).weight_lt
  · split at ok
    · cases ok
    · exact (settle_lighter host input s ok).weight_lt
  · split at ok
    · cases ok
    · exact (settle_lighter host input s ok).weight_lt
  · split at ok
    · exact (settle_lighter host input s ok).weight_lt
    · cases ok
  · split at ok
    · cases ok
    · rename_i running
      cases ok
      simp only [Bool.or_eq_true, not_or, Bool.not_eq_true] at running
      simp [weight, running.1]

theorem pool_ends {α β : Type} (pool : Pool α β) :
    pool.isDone = true ∨ (∃ landed, pool.land 0 = some landed) ∨ ∃ left, pool.leave = some left := by
  cases air : pool.flying with
  | nil =>
    by_cases over_ : pool.isDone = true
    · exact Or.inl over_
    · exact Or.inr (Or.inr (Pool.idle_of_not_isDone (by simpa using over_) air))
  | cons item rest =>
    refine Or.inr (Or.inl ⟨(item, { pool with flying := pool.flying.eraseIdx 0 }), ?_⟩)
    simp [Pool.land, air]

theorem ends_alone (running : isDone s = false) (aborted : s.aborted = true) :
    ∃ event ∈ [Event.go, .leave, .expires 0], (step host input s event).isSome = true := by
  have going : ∀ {s' : State ν}, go host input s = some s' →
      ∃ event ∈ [Event.go, .leave, .expires 0], (step host input s event).isSome = true :=
    fun next => ⟨.go, by simp, by simp [step, next]⟩
  have expiring : ∀ {s' : State ν}, settle host input s 0 (.error budgetExhausted) = some s' →
      ∃ event ∈ [Event.go, .leave, .expires 0], (step host input s event).isSome = true :=
    fun next => ⟨.expires 0, by simp, by simp [step, aborted, next]⟩
  have leaving : ∀ {s' : State ν}, leavePool s = some s' →
      ∃ event ∈ [Event.go, .leave, .expires 0], (step host input s event).isSome = true :=
    fun next => ⟨.leave, by simp, by simp [step, next]⟩
  cases at_ : s.pc with
  | level pool rest =>
    rcases pool_ends pool with over_ | ⟨landed, first⟩ | ⟨left, gone⟩
    · exact going (by rw [go, at_]; exact if_pos over_)
    · exact expiring (by rw [settle, at_]; exact congrArg (Option.map _) first)
    · exact leaving (by rw [leavePool, at_]; simp only [aborted, gone, Bool.or_true, if_true]; rfl)
  | steps pool =>
    rcases pool_ends pool with over_ | ⟨landed, first⟩ | ⟨left, gone⟩
    · exact going (by rw [go, at_]; exact if_pos over_)
    · exact expiring (by rw [settle, at_]; exact congrArg (Option.map _) first)
    · exact leaving (by rw [leavePool, at_]; simp only [aborted, gone, Bool.or_true, if_true]; rfl)
  | batches work pool =>
    rcases pool_ends pool with over_ | ⟨landed, first⟩ | ⟨left, gone⟩
    · exact going (by rw [go, at_]; exact if_pos over_)
    · exact expiring (by rw [settle, at_]; exact congrArg (Option.map _) first)
    · exact leaving (by rw [leavePool, at_]; simp only [aborted, gone, Bool.or_true, if_true]; rfl)
  | adoptingLinear => exact expiring (by rw [settle, at_])
  | adoptingNotion => exact expiring (by rw [settle, at_])
  | fetchingSchema nodeRows stepRows => exact expiring (by rw [settle, at_])
  | creatingTask work => exact expiring (by rw [settle, at_])
  | creatingNodes work => exact expiring (by rw [settle, at_])
  | done status =>
    rw [isDone, at_] at running
    cases running
  | _ => exact going (by rw [go, at_])

end Ending

/-- One row for each place, as a plan built from a graph with distinct node ids has. -/
structure DistinctRows (plan : TrackPlan) : Prop where
  linearIssues : (plan.linearIssues.map (·.nodeId)).Nodup
  linearSubIssues : (plan.linearSubIssues.map fun sub => (sub.nodeId, sub.step)).Nodup
  issues : (plan.issues.map (·.nodeId)).Nodup
  subIssues : (plan.subIssues.map fun row => (row.nodeId, row.step)).Nodup

theorem nodup_map_of {α β γ : Type} {f : α → β} {g : α → γ} {l : List α} (nodup : (l.map f).Nodup)
    (finer : ∀ a ∈ l, ∀ b ∈ l, g a = g b → f a = f b) : (l.map g).Nodup := by
  induction l with
  | nil => exact nodup_nil
  | cons a l ih =>
    rw [map_cons, nodup_cons] at nodup ⊢
    refine ⟨fun mem => nodup.1 ?_, ih nodup.2 fun x hx y hy =>
      finer x (mem_cons_of_mem _ hx) y (mem_cons_of_mem _ hy)⟩
    obtain ⟨b, inside, same⟩ := mem_map.mp mem
    exact mem_map.mpr
      ⟨b, inside, finer b (mem_cons_of_mem _ inside) a (mem_cons_self ..) same⟩

theorem plannedRows_nodup {input : Input} (distinct : DistinctRows input.plan) :
    (plannedRows input).Nodup := by
  have linearNodes : (input.plan.linearIssues.map (·.row)).Nodup :=
    nodup_map_of distinct.linearIssues fun a _ b _ same => RowKey.linearNode.inj same
  have linearSteps : (linearStepRows input).Nodup :=
    nodup_map_of distinct.linearSubIssues fun a _ b _ same =>
      have keys := stepKey_inj (RowKey.linearStep.inj same)
      Prod.ext keys.1 keys.2
  have notionNodes : (input.plan.issues.map (·.row)).Nodup :=
    nodup_map_of distinct.issues fun a _ b _ same => RowKey.notionNode.inj same
  have notionSteps : (input.plan.subIssues.map (·.row)).Nodup :=
    nodup_map_of distinct.subIssues fun a _ b _ same =>
      have keys := stepKey_inj (RowKey.notionStep.inj same)
      Prod.ext keys.1 keys.2
  have linear : (linearRows input).Nodup := by
    unfold linearRows
    split
    · refine nodup_append.mpr ⟨linearNodes, linearSteps, ?_⟩
      rintro k node k' step rfl
      obtain ⟨a, -, rfl⟩ := mem_map.mp node
      obtain ⟨b, -, same⟩ := mem_map.mp step
      cases same
    · exact nodup_nil
  have notion : (notionRows input).Nodup := by
    unfold notionRows
    split
    · refine nodup_cons.mpr ⟨?_, nodup_append.mpr ⟨notionNodes, notionSteps, ?_⟩⟩
      · simp [IssueRow.row, SubIssueRow.row]
      · rintro k node k' step rfl
        obtain ⟨a, -, rfl⟩ := mem_map.mp node
        obtain ⟨b, -, same⟩ := mem_map.mp step
        cases same
    · exact nodup_nil
  refine nodup_append.mpr ⟨linear, notion, ?_⟩
  rintro k left k' right rfl
  unfold linearRows linearStepRows at left
  unfold notionRows at right
  split at left
  · split at right
    · simp only [mem_append, mem_map, mem_cons] at left right
      rcases left with ⟨a, -, rfl⟩ | ⟨a, -, rfl⟩
      · rcases right with same | ⟨b, -, same⟩ | ⟨b, -, same⟩ <;> cases same
      · rcases right with same | ⟨b, -, same⟩ | ⟨b, -, same⟩ <;> cases same
    · cases right
  · cases left

theorem Sound.start {ν : Type} (input : Input) : Sound input (startState (ν := ν) input) where
  counted := .refl _
  new k mem := by cases mem
  under k mem := by cases mem
  kept := .refl _
  missing k mem := by cases mem
  parents k mem := by cases mem
  status st at_ := by cases at_

theorem trackingStatus_complete {plan : TrackPlan} {refs : Refs} {deps : Deps}
    {graph : Option ThoughtGraph} {existing : Option Refs}
    (complete : trackingStatus plan refs (configured deps.linearTeam)
      (configured deps.notionDataSource) = .complete) :
    ∀ k ∈ plannedRows ⟨plan, graph, existing, deps⟩, refs.has k = true := by
  unfold trackingStatus at complete
  simp only at complete
  split at complete
  · rename_i all
    simp only [Bool.and_eq_true, Bool.or_eq_true, Bool.not_eq_true', all_eq_true,
      hasLinearNode_eq, hasLinearStep_eq, hasTask_eq, hasNotionNode_eq, hasNotionStep_eq] at all
    obtain ⟨linear, notion⟩ := all
    intro k mem
    unfold plannedRows linearRows notionRows at mem
    rcases mem_append.mp mem with left | right
    · split at left
      · rename_i on
        obtain ⟨nodes, steps⟩ := linear.resolve_left (by simp [on])
        rcases mem_append.mp left with node | step
        · obtain ⟨issue, inside, rfl⟩ := mem_map.mp node
          exact nodes issue inside
        · obtain ⟨sub, inside, rfl⟩ := mem_map.mp step
          exact steps sub inside
      · cases left
    · split at right
      · rename_i on
        obtain ⟨⟨task, nodes⟩, steps⟩ := notion.resolve_left (by simp [on])
        rcases mem_cons.mp right with rfl | row
        · exact task
        · rcases mem_append.mp row with node | step
          · obtain ⟨issue, inside, rfl⟩ := mem_map.mp node
            exact nodes issue inside
          · obtain ⟨sub, inside, rfl⟩ := mem_map.mp step
            exact steps sub inside
      · cases right
  · have never : ∀ n : Nat, (if 0 < n then TrackingStatus.partly else .failed) ≠ .complete := by
      intro n
      split <;> simp
    exact absurd complete (never _)

structure OnceEach {ν : Type} (host : Host ν) (input : Input) (steps : List (Step (State ν) (Event ν)))
    (t : State ν) : Prop where
  once : ∀ k, (submitted t).count k ≤ 1
  planned : ∀ k ∈ submitted t, k ∈ plannedRows input
  proper : ∀ x ∈ steps, ∃ rows, Sends input x.before x.after rows
  existing : ∀ old, input.existing = some old → Includes old t.refs
  complete : t.pc = .done .complete → ∀ k ∈ plannedRows input, t.refs.has k = true
  bounded : steps.length ≤ 7 * input.plan.linearIssues.length +
    4 * input.plan.linearSubIssues.length + 4 * input.plan.subIssues.length + 21
  ends : isDone t = false →
    if t.aborted then
      ∃ event ∈ [Event.go, .leave, .expires 0], (step host input t event).isSome = true
    else (step host input t .abort).isSome = true

/-- Rows at most once, in proper order and to an end, in every run over a plan with
distinct rows. -/
theorem track_once {ν : Type} (host : Host ν) (input : Input) (distinct : DistinctRows input.plan)
    {steps : List (Step (State ν) (Event ν))} {t : State ν}
    (run : (system host input).Run (startState input) steps t) : OnceEach host input steps t := by
  have nodup := plannedRows_nodup distinct
  have sound : Sound input t := by
    refine run.invariant (Sound input) (.start input) ?_
    intro m event n ok sound
    exact (step_sound host input m nodup sound ok).1
  have counted : (submitted t).Subperm (plannedRows input) :=
    (sublist_append_left _ _).subperm.trans sound.counted
  refine ⟨?_, fun k mem => counted.subset mem, ?_, ?_, ?_, ?_, ?_⟩
  · exact fun k => (counted.count_le k).trans (nodup_iff_count_le_one.mp nodup k)
  · refine run.steps_of (Sound input) (fun _ => True) _ (.start input) ?_ ?_ fun _ _ => trivial
    · intro m event n ok _ sound
      exact (step_sound host input m nodup sound ok).1
    · intro m event n ok _ sound
      exact (step_sound host input m nodup sound ok).2
  · intro old known k r found
    refine sound.kept k r ?_
    rw [startRefs, known]
    cases k <;> exact found
  · intro at_
    have status := sound.status .complete at_
    exact trackingStatus_complete status.symm
  · have shorter := run.length_le (weight input) fun m event n ok => step_weight_lt host input m ok
    have whole : weight input (startState (ν := ν) input) = 7 * input.plan.linearIssues.length +
        stepsWeight input + 7 := rfl
    simp only [stepsWeight] at whole
    omega
  · intro running
    split
    · rename_i aborted
      exact ends_alone host input t running aborted
    · rename_i open_
      simp [step, running, open_]

/-- A host that reads nothing out of any answer. -/
def plainHost : Host Unit := ⟨fun _ => none, fun _ => [], fun _ => [], fun _ => (), fun _ => []⟩

def linearPlan (nodeIds : List Text) : TrackPlan :=
  ⟨js "g", ⟨[], [], [], [], [], [], none, none⟩, [], [], nodeIds.map fun id => ⟨id, js "t", []⟩, []⟩

def linearDeps : Deps := ⟨true, false, some (js "team"), none, 1⟩

def node (id : Text) (dependsOn : List Text) : ThoughtNode := ⟨id, [], .generate, [], dependsOn, none, none⟩

/-- Two issues that wait for each other. -/
def cyclicInput : Input :=
  ⟨linearPlan [js "a", js "b"], some ⟨[], [node (js "a") [js "b"], node (js "b") [js "a"]]⟩, none,
    linearDeps⟩

/-- Both levels are run through with nothing submitted. -/
def cyclicEvents : List (Event Unit) :=
  [.go, .go, .go, .take, .leave, .go, .go, .take, .leave, .go, .go, .go, .leave, .go, .go, .go]

theorem track_once_cyclic : ∃ steps t, (system plainHost cyclicInput).Run (startState cyclicInput) steps t ∧
    isDone t = true ∧ OnceEach plainHost cyclicInput steps t := by
  have done : (cyclicEvents.foldlM (step plainHost cyclicInput) (startState cyclicInput)).any isDone =
      true := by
    decide
  obtain ⟨t, taken, last⟩ := (Option.any_eq_true _ _).mp done
  obtain ⟨steps, run⟩ := System.Run.of_foldlM (M := system plainHost cyclicInput) (fun _ _ _ => id) taken
  exact ⟨steps, t, run, last, track_once plainHost cyclicInput
    ⟨by decide, by decide, by decide, by decide⟩ run⟩

def twiceInput : Input := ⟨linearPlan [js "a", js "a"], none, none, linearDeps⟩

/-- Both list entries are taken; each submits the later row. -/
def twiceEvents : List (Event Unit) := [.go, .go, .go, .take, .fails 0 [], .take]

theorem repeated_row_submitted_twice :
    ¬∀ {ν : Type} (host : Host ν) (input : Input) {steps : List (Step (State ν) (Event ν))}
        {t : State ν}, (system host input).Run (startState input) steps t →
      ∀ k, (submitted t).count k ≤ 1 := by
  intro once
  have twice : (twiceEvents.foldlM (step plainHost twiceInput) (startState twiceInput)).any
      (fun t => (submitted t).count (.linearNode (js "a")) = 2) = true := by
    decide
  obtain ⟨t, taken, both⟩ := (Option.any_eq_true _ _).mp twice
  obtain ⟨steps, run⟩ := System.Run.of_foldlM (M := system plainHost twiceInput) (fun _ _ _ => id) taken
  have bound := once plainHost twiceInput run (.linearNode (js "a"))
  rw [of_decide_eq_true both] at bound
  omega

end Ultrathink.Guarantees.TrackOnce
