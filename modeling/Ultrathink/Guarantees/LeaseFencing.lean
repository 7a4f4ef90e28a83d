import Ultrathink.Source.Worker.Effects

/-!
# Lease fencing

Who writes a run's status over any interleaving of workers. Every pause and
terminal status is written behind a renewal in its own transaction, but the
progress status before a model call is a bare update: a worker whose lease has
run out still writes it, even over a finished run.
-/

namespace Ultrathink.Guarantees.LeaseFencing

open Library JsText Runs Source.Store Source.Worker

def statusOf (s : State) (runId : Text) : Option RunStatus :=
  (s.world.db.runs.get? runId).map (·.status)

def isFinal (status : RunStatus) : Bool := status = .complete || status = .failed

/-- `w` is the run's current holder and its lease has not run out. -/
def holds (s : State) (w runId : Text) : Bool :=
  match s.world.db.leases.get? runId with
  | some lease => lease.holder = w && s.now ≤ lease.expiresAt
  | none => false

abbrev WorkerStep := Runs.Step State Event

/-- If the step writes a progress status, its writer holds the lease. -/
def progressFenced (x : WorkerStep) : Bool :=
  match x.label with
  | .worker w .go =>
    match x.before.pc w with
    | .progress work => holds x.before w work.run.id
    | _ => true
  | _ => true

/-- A changed status was written by the holder of the unexpired lease, or by the
owner's answer. -/
def StatusOwned (x : WorkerStep) : Prop :=
  ∀ runId status, statusOf x.before runId = some status → statusOf x.after runId ≠ some status →
    (∃ w input, x.label = .worker w input ∧ holds x.after w runId = true) ∨
      ∃ ownerId text, x.label = .answer runId ownerId text

/-- A run that is complete or failed keeps its status. -/
def FinalKept (x : WorkerStep) : Prop :=
  ∀ runId status, statusOf x.before runId = some status → isFinal status = true →
    statusOf x.after runId = some status

/-- A worker that may still write and whose lease row stands works on an
unfinished run. -/
def Unfinished (s : State) : Prop :=
  ∀ w runId lease status, (s.pc w).working = some runId →
    s.world.db.leases.get? runId = some lease → lease.holder = w →
      statusOf s runId = some status → isFinal status = false

variable {s t : State} {ν : Type} {runId id ownerId w : Text} {status : RunStatus} {now leaseMs : ℤ}
  {input : Input}

theorem claimable_not_final (claimable : isClaimable status = true) :
    isFinal status = false := by
  cases status <;> first | rfl | exact absurd claimable (by decide)

theorem statusOf_eq_of_runs (same : t.world.db.runs = s.world.db.runs) (runId : Text) :
    statusOf t runId = statusOf s runId := by
  rw [statusOf, statusOf, same]

theorem statusOf_modify {r : Text} {patch : Patch}
    (runs : t.world.db.runs = s.world.db.runs.modify r patch.apply) (runId : Text) :
    statusOf t runId =
      if runId = r then (statusOf s r).map (fun status => patch.status.getD status)
      else statusOf s runId := by
  simp only [statusOf, runs, OrderedMap.get?_modify]
  split
  · simp [Option.map_map, Function.comp_def, Patch.apply]
  · rfl

theorem step_worker (setup : Setup ν) (s : State) (w : Text) (input : Input) :
    ∃ world pc, step setup s (.worker w input) =
        { s with world, workers := s.workers.set w pc } ∧
      Effect w s.now (setup.leaseMs w) input (s.pc w) s.world.db world.db pc :=
  ⟨_, _, rfl, advance_effect setup w s.now input (s.pc w) s.world⟩

section Step
variable {s : State} {w : Text} {world : World} {pc : Pc}

/-- A status that a worker's step changes was changed on the run that it works
on, by the progress write or behind a renewal. -/
theorem effect_changes (effect : Effect w now leaseMs input (s.pc w) s.world.db world.db pc)
    (before : statusOf s runId = some status)
    (changed : statusOf { s with world, workers := s.workers.set w pc } runId ≠ some status) :
    (∃ work, s.pc w = .progress work ∧ input = .go ∧ work.run.id = runId ∧
        world.db.leases = s.world.db.leases) ∨
      (s.pc w).working = some runId ∧ ∃ lease, s.world.db.leases.get? runId = some lease ∧
        lease.holder = w ∧ world.db.leases = s.world.db.leases.set runId ⟨w, now + leaseMs⟩ := by
  have unchanged : world.db.runs = s.world.db.runs → False := fun same =>
    changed ((statusOf_eq_of_runs (by exact same) runId).trans before)
  have other : ∀ {r : Text} {patch : Patch},
      world.db.runs = s.world.db.runs.modify r patch.apply → runId = r := by
    intro r patch runs
    by_contra ne
    refine changed ?_
    rw [statusOf_modify (s := s) runs, if_neg ne, before]
  generalize hdb : world.db = db' at effect unchanged other
  generalize hpc : s.pc w = pc₀ at effect
  cases effect with
  | quiet same stays => exact (unchanged same.1).elim
  | claimed found claimable runs leases working => exact (unchanged runs).elim
  | renewed on found own runs leases stays => exact (unchanged runs).elim
  | released runs fewer stops => exact (unchanged runs).elim
  | progressed work at_ sent =>
    exact Or.inl ⟨work, at_, sent, (other rfl).symm, rfl⟩
  | fenced patch on found own runs leases stops =>
    obtain rfl := other runs
    exact Or.inr ⟨on, _, found, own, leases⟩

theorem effect_unfinished (inv : Unfinished s)
    (effect : Effect w now leaseMs input (s.pc w) s.world.db world.db pc) :
    Unfinished { s with world, workers := s.workers.set w pc } := by
  intro v runId lease status working found own current
  rw [pc_set] at working
  replace found : world.db.leases.get? runId = some lease := found
  generalize hdb : world.db = db' at effect found
  generalize hpc : s.pc w = pc₀ at effect
  cases effect with
  | quiet same stays =>
    have working₀ : (s.pc v).working = some runId := by
      split at working
      · rename_i me
        rw [me, hpc]
        rcases stays with same | stop
        · rw [← same, working]
        · rw [stop] at working
          cases working
      · exact working
    rw [same.2] at found
    exact inv v runId lease status working₀ found own
      ((statusOf_eq_of_runs (by rw [← same.1, ← hdb]) runId).symm.trans current)
  | @claimed _ _ r row foundRow claimable runs leases claimedRun =>
    have current₀ : statusOf s runId = some status :=
      (statusOf_eq_of_runs (by rw [← runs, ← hdb]) runId).symm.trans current
    by_cases taken : runId = r
    · subst taken
      rw [statusOf, foundRow, Option.map_some, Option.some.injEq] at current₀
      exact current₀ ▸ claimable_not_final claimable
    · rw [leases, OrderedMap.get?_set, if_neg taken] at found
      split at working
      · rw [claimedRun, Option.some.injEq] at working
        exact absurd working.symm taken
      · exact inv v runId lease status working found own current₀
  | @renewed _ _ r old on foundOld ownOld runs leases stays =>
    have current₀ : statusOf s runId = some status :=
      (statusOf_eq_of_runs (by rw [← runs, ← hdb]) runId).symm.trans current
    by_cases here : runId = r
    · subst here
      exact inv w runId old status (hpc ▸ on) foundOld ownOld current₀
    · rw [leases, OrderedMap.get?_set, if_neg here] at found
      have working₀ : (s.pc v).working = some runId := by
        split at working
        · rcases stays with same | stop
          · rw [same, on, Option.some.injEq] at working
            exact absurd working.symm here
          · rw [stop] at working
            cases working
        · exact working
      exact inv v runId lease status working₀ found own current₀
  | released runs fewer stops =>
    have working₀ : (s.pc v).working = some runId := by
      split at working
      · rw [stops] at working
        cases working
      · exact working
    exact inv v runId lease status working₀ (fewer runId lease found) own
      ((statusOf_eq_of_runs (by rw [← runs, ← hdb]) runId).symm.trans current)
  | progressed work at_ sent =>
    have moved : world.db.runs = s.world.db.runs.modify work.run.id (progressPatch work.phase).apply :=
      hdb ▸ rfl
    rw [statusOf_modify (s := s) moved] at current
    by_cases here : runId = work.run.id
    · rw [if_pos here] at current
      obtain ⟨old, -, same⟩ := Option.map_eq_some_iff.mp current
      rw [← same]
      cases work.phase <;> rfl
    · rw [if_neg here] at current
      have working₀ : (s.pc v).working = some runId := by
        split at working
        · exact absurd (Option.some.inj working).symm here
        · exact working
      exact inv v runId lease status working₀ found own current
  | @fenced _ _ r old patch on foundOld ownOld runs leases stops =>
    have working₀ : v ≠ w ∧ (s.pc v).working = some runId := by
      split at working
      · rw [stops] at working
        cases working
      · rename_i ne
        exact ⟨ne, working⟩
    by_cases here : runId = r
    · -- the fenced run's lease is the writer's, so nobody else holds it
      rw [leases, OrderedMap.get?_set, if_pos here, Option.some.injEq] at found
      rw [← found] at own
      exact absurd own.symm working₀.1
    · rw [leases, OrderedMap.get?_set, if_neg here] at found
      rw [statusOf_modify (s := s) (hdb ▸ runs), if_neg here] at current
      exact inv v runId lease status working₀.2 found own current

end Step

theorem statusOf_create (world : World) {request : Text}
    (created : world.db = createRun s.world.db id ownerId request s.now) (runId : Text) :
    statusOf { s with world } runId = statusOf s runId ∨
      statusOf s runId = none ∧ statusOf { s with world } runId = some .queued := by
  unfold statusOf
  rw [created]
  unfold createRun
  split
  · exact Or.inl rfl
  · rename_i free
    by_cases here : runId = id
    · subst here
      simp only [OrderedMap.contains, Bool.not_eq_true, Option.isSome_eq_false_iff,
        Option.isNone_iff_eq_none] at free
      exact Or.inr (by simp [free])
    · exact Or.inl (by simp [here])

theorem statusOf_answer (world : World) {text : Text}
    (answered : world.db = (answerDecision s.world.db id ownerId text).2) (runId : Text) :
    statusOf { s with world } runId = statusOf s runId ∨
      runId = id ∧ statusOf s runId = some .pausedForDecision ∧
        statusOf { s with world } runId = some .queued := by
  rcases (answerDecision_effect s.world.db id ownerId text).2 with same | ⟨row, found, paused, moved⟩
  · exact Or.inl (statusOf_eq_of_runs (by rw [← same, ← answered]) runId)
  · rw [statusOf_modify (s := s) (answered ▸ moved)]
    by_cases here : runId = id
    · subst here
      exact Or.inr ⟨rfl, by simp [statusOf, found, paused], by simp [statusOf, found]⟩
    · exact Or.inl (if_neg here)

theorem step_unfinished (setup : Setup ν) (s : State) (event : Event) (inv : Unfinished s) :
    Unfinished (step setup s event) := by
  cases event with
  | worker w input =>
    obtain ⟨world, pc, same, effect⟩ := step_worker setup s w input
    rw [same]
    exact effect_unfinished inv effect
  | clock now => exact inv
  | create id ownerId request =>
    intro v runId lease status working found own current
    have leases : (createRun s.world.db id ownerId request s.now).leases = s.world.db.leases := by
      unfold createRun
      split <;> rfl
    rcases statusOf_create (s := s) { s.world with
        db := createRun s.world.db id ownerId request s.now } rfl runId with same | ⟨-, queued⟩
    · exact inv v runId lease status working (leases ▸ found) own (same ▸ current)
    · have : status = .queued := Option.some.inj (current.symm.trans queued)
      rw [this]
      rfl
  | answer id ownerId text =>
    intro v runId lease status working found own current
    have leases := (answerDecision_effect s.world.db id ownerId text).1
    rcases statusOf_answer (s := s) { s.world with
        db := (answerDecision s.world.db id ownerId text).2 } rfl runId with
      same | ⟨-, -, queued⟩
    · exact inv v runId lease status working (leases ▸ found) own (same ▸ current)
    · have : status = .queued := Option.some.inj (current.symm.trans queued)
      rw [this]
      rfl

theorem holds_of_set {expiresAt : ℤ} {leases : OrderedMap Text Lease}
    (set : s.world.db.leases = leases.set runId ⟨w, expiresAt⟩) (live : s.now ≤ expiresAt) :
    holds s w runId = true := by
  simp [holds, set, live]

theorem holds_lease (held : holds s w runId = true) :
    ∃ lease, s.world.db.leases.get? runId = some lease ∧ lease.holder = w := by
  unfold holds at held
  split at held
  · rename_i lease found
    exact ⟨lease, found, by simpa using ((Bool.and_eq_true _ _).mp held).1⟩
  · cases held

theorem step_fenced (setup : Setup ν) (s : State) (event : Event) (inv : Unfinished s)
    (fenced : progressFenced ⟨s, event, step setup s event⟩ = true) :
    StatusOwned ⟨s, event, step setup s event⟩ ∧ FinalKept ⟨s, event, step setup s event⟩ := by
  cases event with
  | worker w input =>
    obtain ⟨world, pc, same, effect⟩ := step_worker setup s w input
    rw [same] at fenced ⊢
    -- either way the writer is the lease's holder, on the run that it works on
    have owned : ∀ runId status, statusOf s runId = some status →
        statusOf { s with world, workers := s.workers.set w pc } runId ≠ some status →
          holds { s with world, workers := s.workers.set w pc } w runId = true ∧
            (s.pc w).working = some runId ∧
              ∃ lease, s.world.db.leases.get? runId = some lease ∧ lease.holder = w := by
      intro runId status before changed
      rcases effect_changes effect before changed with
        ⟨work, at_, sent, here, leases⟩ | ⟨on, lease, found, own, leases⟩
      · have held : holds s w runId = true := by
          subst sent
          simpa [progressFenced, at_, here] using fenced
        refine ⟨?_, by rw [at_]; exact congrArg some here, holds_lease held⟩
        simpa only [holds, leases] using held
      · refine ⟨holds_of_set leases ?_, on, lease, found, own⟩
        have := setup.leasePositive w
        show s.now ≤ s.now + setup.leaseMs w
        omega
    refine ⟨fun runId status before changed => ?_, fun runId status before final => ?_⟩
    · exact Or.inl ⟨w, input, rfl, (owned runId status before changed).1⟩
    · by_contra changed
      obtain ⟨-, on, lease, found, own⟩ := owned runId status before changed
      have unfinished := inv w runId lease status on found own before
      rw [final] at unfinished
      cases unfinished
  | clock now =>
    exact ⟨fun runId status before changed => (changed before).elim,
      fun runId status before _ => before⟩
  | create id ownerId request =>
    have kept : ∀ runId status, statusOf s runId = some status →
        statusOf (step setup s (.create id ownerId request)) runId = some status := by
      intro runId status before
      rcases statusOf_create (s := s) { s.world with
          db := createRun s.world.db id ownerId request s.now } rfl runId with same | ⟨none_, -⟩
      · exact same.trans before
      · rw [before] at none_
        cases none_
    exact ⟨fun runId status before changed => (changed (kept runId status before)).elim,
      fun runId status before _ => kept runId status before⟩
  | answer id ownerId text =>
    have outcome := fun runId => statusOf_answer (s := s) { s.world with
      db := (answerDecision s.world.db id ownerId text).2 } rfl runId
    refine ⟨fun runId status before changed => ?_, fun runId status before final => ?_⟩
    · rcases outcome runId with same | ⟨rfl, -, -⟩
      · exact (changed (same.trans before)).elim
      · exact Or.inr ⟨ownerId, text, rfl⟩
    · rcases outcome runId with same | ⟨-, paused, -⟩
      · exact same.trans before
      · rw [before, Option.some.injEq] at paused
        rw [paused] at final
        cases final

/-- In a run whose progress writes are all made under the unexpired lease, every
status change is the holder's or the owner's, and finished runs stay finished. -/
theorem lease_fencing {ν : Type} (setup : Setup ν) {s t : State} {steps : List WorkerStep}
    (start : (system setup).start s) (run : (system setup).Run s steps t)
    (fenced : ∀ x ∈ steps, progressFenced x = true) :
    ∀ x ∈ steps, StatusOwned x ∧ FinalKept x := by
  refine run.steps_of Unfinished (fun x => progressFenced x = true)
    (fun x => StatusOwned x ∧ FinalKept x) ?_ ?_ ?_ fenced
  · intro w runId lease status working
    rw [start w] at working
    cases working
  · rintro m event n rfl - inv
    exact step_unfinished setup m event inv
  · rintro m event n rfl met inv
    exact step_fenced setup m event inv met

/-! ### A concrete setup

Model replies that are no JSON, one-minute leases, generous ceilings. -/

def plainSetup : Setup Unit where
  leaseMs := fun _ => 60000
  leasePositive := fun _ => by decide
  maxModelAttempts := 3
  limits := ⟨1000000, 1000000⟩
  parseJson := fun _ => none

def emptyState : State := ⟨⟨.empty, .empty⟩, 0, .empty⟩

/-- A run is created and worker `a` stands before its progress write. -/
def upToProgress : List Event :=
  .create (js "r") (js "o") (js "q") :: List.replicate 7 (.worker (js "a") .go)

/-- One phase of worker `b`, from its pending check to its artifact. -/
def onePhase : List Event :=
  List.replicate 5 (.worker (js "b") .go) ++ [.worker (js "b") (.reply (js "out") (some 5))] ++
    List.replicate 2 (.worker (js "b") .go)

/-- The lease of `a` runs out, `b` claims the run and completes it. -/
def completedByOther : List Event :=
  upToProgress ++ [.clock 100000] ++ List.replicate 4 (.worker (js "b") .go) ++
    (List.replicate 4 onePhase).flatten ++ List.replicate 3 (.worker (js "b") .go)

def completedState : State := runInputs (step plainSetup) emptyState completedByOther

def progressRun : List WorkerStep :=
  traceOf (step plainSetup) emptyState (upToProgress ++ [.worker (js "a") .go])

/-- The progress write of `a`, under its own lease. -/
def progressWrite : WorkerStep := progressRun.getLast (List.cons_ne_nil _ _)

theorem lease_fencing_progress : StatusOwned progressWrite ∧ FinalKept progressWrite :=
  lease_fencing plainSetup (fun _ => rfl) (run_traceOf (system_step plainSetup) _ _)
    (by decide +kernel) progressWrite (List.getLast_mem _)

theorem completedState_overwritten :
    statusOf completedState (js "r") = some .complete ∧
      statusOf (step plainSetup completedState (.worker (js "a") .go)) (js "r") =
        some .discovering := by
  decide +kernel

/-- After `b` has completed the run, `a` writes "discovering" over it. -/
theorem progress_overwrites_complete :
    ¬∀ {ν : Type} (setup : Setup ν) {s t : State} {steps : List WorkerStep},
      (system setup).start s → (system setup).Run s steps t →
        ∀ x ∈ steps, StatusOwned x ∧ FinalKept x := by
  intro fencing
  have overwritten := completedState_overwritten
  have reached : ∃ steps, (system plainSetup).Run emptyState steps completedState :=
    ⟨_, run_traceOf (system_step plainSetup) emptyState completedByOther⟩
  generalize completedState = s at overwritten reached
  obtain ⟨steps, run⟩ := reached
  have last := system_step plainSetup s (.worker (js "a") .go)
  have kept := (fencing plainSetup (fun _ => rfl) (run.tail last) _
    (List.mem_append_right _ (List.mem_cons_self ..))).2
  have still := kept (js "r") .complete overwritten.1 rfl
  rw [overwritten.2] at still
  cases still

end Ultrathink.Guarantees.LeaseFencing
