import Ultrathink.Source.Host.Omp

/-!
# One lane for each request

What the submissions so far say of the last lane, and when the extension's marker and key
agree with it.
-/

namespace Ultrathink.Host.Omp

open List Library JsText Runs State

variable {Resolution : Type}

def isSpawn : Entry Resolution → Bool
  | .spawn .. => true
  | _ => false

/-- The calls of `spawnLanes` so far. -/
def spawns (s : State Resolution) : List (Entry Resolution) := s.log.filter isSpawn

/-- The last submission that started a lane. -/
structure Lane where
  sessionId : Text
  cwd : Text
  prompt : Text
  /-- The turn of its session in which it was submitted, or when the session had had none,
  in which its text was first submitted again. -/
  turn : Option Nat
  /-- Since then only its text was submitted, in its session and in that turn. -/
  alone : Bool
  deriving DecidableEq

/-- A submission of the lane's text in its session and turn, with nothing else in between. -/
def Lane.Resubmitted (lane : Lane) (sub : Submission) (turn : Nat) : Prop :=
  lane.alone = true ∧ lane.sessionId = sub.sessionId ∧ trim lane.prompt = trim sub.prompt ∧
    lane.turn.getD turn = turn

instance (lane : Lane) (sub : Submission) (turn : Nat) : Decidable (lane.Resubmitted sub turn) :=
  inferInstanceAs (Decidable (_ ∧ _ ∧ _ ∧ _))

def Lane.next (lane : Lane) (sub : Submission) (turn : Nat) : Lane :=
  if lane.Resubmitted sub turn then { lane with turn := some turn } else { lane with alone := false }

abbrev Taken (Resolution : Type) := Runs.Step (State Resolution) (Event Resolution)

def startedLane (sub : Submission) (x : Taken Resolution) : Prop :=
  (spawns x.before).length < (spawns x.after).length ∧ 0 < sub.started.getD 0

instance (sub : Submission) (x : Taken Resolution) : Decidable (startedLane sub x) :=
  inferInstanceAs (Decidable (_ ∧ _))

def noteLane (past : Option Lane) (x : Taken Resolution) : Option Lane :=
  match x.label with
  | .submit sub =>
    if sub.subagent then past
    else if startedLane sub x then
      some ⟨sub.sessionId, sub.cwd, sub.prompt, x.before.turns sub.sessionId, true⟩
    else past.map fun lane => lane.next sub (x.before.submission sub.sessionId)
  | _ => past

def lastLaneOf (steps : List (Taken Resolution)) : Option Lane := steps.foldl noteLane none

/-- Session, directory and prompt are those of the lane. -/
def Repeats (past : Option Lane) (sub : Submission) : Prop :=
  ∃ lane, past = some lane ∧ lane.sessionId = sub.sessionId ∧ lane.cwd = sub.cwd ∧
    lane.prompt = sub.prompt

/-- A submission that `maybeAutoRun` starts a lane for when it is no repetition. -/
structure Eligible (sub : Submission) : Prop where
  prompt : sub.prompt ≠ []
  typed : (js "/").isPrefixOf sub.prompt = false
  top : sub.subagent = false
  autoRun : sub.autoRun = true
  swarmRoot : sub.swarmRoot = true
  sdlc : sub.sdlc = true
  sessionId : sub.sessionId ≠ []

def laneText (lane : Lane) : Text :=
  lane.sessionId ++ js ":" ++ lane.cwd ++ js ":" ++ lane.prompt

/-- Whether the step is one of those that arm or drop the marker by themselves. -/
def disarms : Event Resolution → Bool
  | .quick .. | .quickFailed | .sessionSwitch | .sessionShutdown => true
  | _ => false

/-- A repetition comes in the lane's turn, with nothing else submitted since the lane; any
other submission that may start a lane is not the lane's text submitted there, nor the
lane's key. -/
def InTurn (past : Option Lane) (x : Taken Resolution) : Prop :=
  disarms x.label = false ∧ ∀ sub, x.label = .submit sub → sub.subagent = false →
    (Repeats past sub → ∀ lane, past = some lane →
      lane.Resubmitted sub (x.before.submission sub.sessionId)) ∧
    (¬ Repeats past sub → Eligible sub → ∀ lane, past = some lane →
      ¬ lane.Resubmitted sub (x.before.submission sub.sessionId) ∧ sub.prompt ≠ laneText lane)

/-- A repetition neither spawns a lane nor starts a flight; another submission may spawn one. -/
def SpawnedOnce (past : Option Lane) (x : Taken Resolution) : Prop :=
  ∀ sub, x.label = .submit sub →
    (Repeats past sub → spawns x.after = spawns x.before ∧
      x.after.latestGeneration = x.before.latestGeneration) ∧
    (¬ Repeats past sub → Eligible sub →
      spawns x.after = spawns x.before ++ [.spawn sub.sessionId sub.cwd sub.prompt sub.started])

structure Kept (s s' : State Resolution) : Prop where
  quick : s'.quick = s.quick
  lastLane : s'.lastLane = s.lastLane
  turns : s'.turns = s.turns
  spawns : spawns s' = spawns s

variable {sub : Submission} {past : Option Lane} {g : Nat}

section Frames

variable {s s' s'' : State Resolution}

theorem Kept.refl (s : State Resolution) : Kept s s := ⟨rfl, rfl, rfl, rfl⟩

theorem Kept.trans (first : Kept s s') (second : Kept s' s'') : Kept s s'' :=
  ⟨second.quick.trans first.quick, second.lastLane.trans first.lastLane,
    second.turns.trans first.turns, second.spawns.trans first.spawns⟩

theorem kept_note {e : Entry Resolution} (other : isSpawn e = false) (s : State Resolution) :
    Kept s (s.note e) := by
  refine ⟨rfl, rfl, rfl, ?_⟩
  simp [spawns, note, filter_append, other]

theorem kept_cancel (g : Nat) (s : State Resolution) :
    Kept s (cancel g s) ∧ (cancel g s).latestGeneration = s.latestGeneration := by
  unfold cancel
  cases s.made g with
  | none => exact ⟨.refl s, rfl⟩
  | some flight =>
    simp only
    split
    · exact ⟨.refl s, rfl⟩
    · exact ⟨⟨rfl, rfl, rfl, rfl⟩, rfl⟩

theorem kept_current (same : Bool) (g : Nat) (s : State Resolution) :
    Kept s (current same g s).2 := by
  unfold current
  split
  · split
    · exact .refl s
    · exact (kept_cancel g s).1
  · exact .refl s

theorem kept_observeFlights (sessionId cwd : Text) (same : Nat → Bool) (s : State Resolution) :
    Kept s (observeFlights sessionId cwd same s) := by
  refine runInputs_invariant (visit sessionId cwd same) (Kept s) (fun m g kept => ?_) s (.refl s)
    s.flights.values
  refine kept.trans ?_
  unfold visit
  cases m.made g with
  | none => exact .refl m
  | some flight =>
    simp only
    split
    · exact (kept_cancel g m).1
    · exact kept_current (same g) g m

theorem kept_cancelOwned (sessionId : Text) (s : State Resolution) :
    Kept s (cancelOwned sessionId s) ∧
      (cancelOwned sessionId s).latestGeneration = s.latestGeneration := by
  unfold cancelOwned
  cases s.flights.get? sessionId with
  | none => exact ⟨.refl s, rfl⟩
  | some older => exact kept_cancel older s

theorem kept_observe (g : Nat) (record : Option Resolution) (s : State Resolution) :
    Kept s (observe g record s) := by
  cases record with
  | none => exact .refl s
  | some record => exact kept_note rfl s

theorem kept_start (sub : Submission) (s : State Resolution) : Kept s (start sub s) := by
  unfold start
  cases s.flights.get? sub.sessionId with
  | none => exact ⟨rfl, rfl, rfl, rfl⟩
  | some previous =>
    simp only
    refine Kept.trans ?_ (kept_cancel previous _).1
    exact ⟨rfl, rfl, rfl, rfl⟩

theorem kept_sameFlight (sub : Submission) (s : State Resolution) :
    Kept s (sameFlight sub s).2 := by
  unfold sameFlight
  cases s.flights.get? sub.sessionId with
  | none => exact .refl s
  | some g =>
    simp only
    cases s.made g with
    | none => exact .refl s
    | some flight =>
      simp only
      split
      · split
        · exact .refl s
        · exact (kept_cancel g s).1
      · exact .refl s

theorem kept_plan (sub : Submission) (s : State Resolution) : Kept s (plan sub s) := by
  have found := kept_sameFlight sub s
  unfold plan
  cases same : sameFlight sub s with
  | mk flight after =>
    rw [same] at found
    cases flight with
    | none =>
      refine (found.trans (kept_start sub after)).trans ?_
      exact ⟨rfl, rfl, rfl, rfl⟩
    | some value =>
      refine found.trans ?_
      simp only
      split
      · split
        · exact .refl after
        · exact kept_note rfl after
      · split
        · split
          · exact .refl after
          · exact kept_note rfl after
        · exact ⟨rfl, rfl, rfl, rfl⟩

/-- What the marker and the key are, which only submissions and a few events change. -/
def Armed (s s' : State Resolution) : Prop := s'.quick = s.quick ∧ s'.lastLane = s.lastLane

theorem Kept.armed (kept : Kept s s') : Armed s s' := ⟨kept.quick, kept.lastLane⟩

theorem armed_settle {same : Bool} (stepped : settle same g s = some s') :
    Armed s s' := by
  unfold settle at stepped
  cases here : s.made g with
  | none => simp [here] at stepped
  | some flight =>
    simp only [here] at stepped
    split at stepped
    next result ended unsettled =>
      have put : Kept s (s.put g (settleFlight result flight)) := ⟨rfl, rfl, rfl, rfl⟩
      have seen := put.trans (kept_current same g (s.put g (settleFlight result flight)))
      cases answer : current same g (s.put g (settleFlight result flight)) with
      | mk live after =>
        rw [answer] at seen
        simp only [answer] at stepped
        cases live with
        | false =>
          cases stepped
          exact seen.armed
        | true =>
          have recorded := seen.trans (kept_observe g result.modelResolution after)
          simp only at stepped
          split at stepped
          · cases stepped
            exact (recorded.trans (kept_note rfl _)).armed
          · cases stepped
            exact recorded.armed
    · cases stepped

theorem armed_onEvent {event : ProgressEvent Resolution} (stepped : onEvent event g s = some s') :
    Armed s s' := by
  unfold onEvent at stepped
  cases here : s.made g with
  | none => simp [here] at stepped
  | some flight =>
    simp only [here] at stepped
    split at stepped
    · cases stepped
    · split at stepped
      · cases stepped
        exact ⟨rfl, rfl⟩
      · cases event with
        | resolved record =>
          cases stepped
          exact (kept_observe g record s).armed
        | activity =>
          simp only at stepped
          split at stepped <;> cases stepped <;> exact ⟨rfl, rfl⟩

theorem armed_flight {s' : State Resolution} (f : Flight Resolution → Option (State Resolution))
    (stepped : (match s.made g with | none => none | some flight => f flight) = some s')
    (each : ∀ flight, f flight = some s' → Armed s s') : Armed s s' := by
  cases here : s.made g with
  | none => simp [here] at stepped
  | some flight =>
    simp only [here] at stepped
    exact each flight stepped

theorem armed_proceed {maxRun : Bool} {handler : Nat}
    (stepped : proceed maxRun handler s = some s') : Armed s s' := by
  unfold proceed at stepped
  split at stepped
  next g there =>
    cases stepped
    unfold admitPlanner
    cases s.made g with
    | none => exact ⟨rfl, rfl⟩
    | some flight =>
      simp only
      split <;> exact ⟨rfl, rfl⟩
  · cases stepped

theorem armed_race {handler : Nat}
    (stepped : raceTimeout handler s = some s' ∨ resume handler s = some s') : Armed s s' := by
  rcases stepped with stepped | stepped
  · unfold raceTimeout at stepped
    split at stepped
    · refine armed_flight _ stepped fun flight stepped => ?_
      split at stepped
      · cases stepped
      · split at stepped <;> cases stepped <;> exact ⟨rfl, rfl⟩
    · cases stepped
  · unfold resume at stepped
    split at stepped
    · refine armed_flight _ stepped fun flight stepped => ?_
      split at stepped
      · simp only at stepped
        split at stepped
        · cases stepped
          exact ⟨rfl, rfl⟩
        · split at stepped
          · split at stepped <;> cases stepped <;> exact ⟨rfl, rfl⟩
          · cases stepped
            exact ⟨rfl, rfl⟩
      · cases stepped
    · cases stepped

theorem armed_step {maxRun : Bool} {event : Event Resolution}
    (stepped : step maxRun s event = some s') (quiet : disarms event = false)
    (other : ∀ sub, event ≠ .submit sub) : Armed s s' := by
  cases event with
  | submit sub => exact absurd rfl (other sub)
  | proceed handler => exact armed_proceed stepped
  | raceTimeout handler => exact armed_race (Or.inl stepped)
  | resume handler => exact armed_race (Or.inr stepped)
  | planner g event => exact armed_onEvent stepped
  | isCurrent g same =>
    refine armed_flight _ stepped fun flight stepped => ?_
    split at stepped
    · cases stepped
    · split at stepped <;> cases stepped
      · exact ⟨rfl, rfl⟩
      · exact (kept_current same g s).armed
  | planned g result =>
    refine armed_flight _ stepped fun flight stepped => ?_
    split at stepped <;> cases stepped
    exact ⟨rfl, rfl⟩
  | deadline g =>
    refine armed_flight _ stepped fun flight stepped => ?_
    split at stepped <;> cases stepped
    exact ⟨rfl, rfl⟩
  | settle g same => exact armed_settle stepped
  | turnStart sessionId cwd same =>
    cases stepped
    exact (kept_observeFlights sessionId cwd same s).armed
  | observed sessionId cwd same =>
    cases stepped
    exact (kept_observeFlights sessionId cwd same s).armed
  | sessionStart =>
    cases stepped
    exact ⟨rfl, rfl⟩
  | _ => cases quiet

theorem submitPrompt_other (none_ : wantsLane sub s = false) :
    Kept s (submitPrompt sub s) := by
  have skipped : maybeAutoRun sub s = (false, s) := by
    rw [maybeAutoRun, none_]
    rfl
  rw [submitPrompt, skipped]
  exact kept_plan sub s

theorem submitPrompt_lane (wants : wantsLane sub s = true) :
    spawns (submitPrompt sub s) =
        spawns s ++ [.spawn sub.sessionId sub.cwd sub.prompt sub.started] ∧
      (0 < sub.started.getD 0 → (submitPrompt sub s).lastLane = laneKey sub ∧
        (submitPrompt sub s).quick =
          some ⟨sub.sessionId, trim sub.prompt, s.turns sub.sessionId⟩) ∧
      (sub.started.getD 0 = 0 → Armed s (submitPrompt sub s)) := by
  have spawned : spawns (s.note (.spawn sub.sessionId sub.cwd sub.prompt sub.started)) =
      spawns s ++ [.spawn sub.sessionId sub.cwd sub.prompt sub.started] := by
    simp [spawns, note, filter_append, isSpawn]
  cases started : sub.started.getD 0 with
  | zero =>
    have tried : maybeAutoRun sub s =
        (false, s.note (.spawn sub.sessionId sub.cwd sub.prompt sub.started)) := by
      rw [maybeAutoRun, wants]
      rcases count : sub.started with _ | _ | n
      · rfl
      · rfl
      · simp [count] at started
    have planned := kept_plan sub (s.note (.spawn sub.sessionId sub.cwd sub.prompt sub.started))
    rw [submitPrompt, tried]
    refine ⟨planned.spawns.trans spawned, fun bad => ?_, fun _ => planned.armed⟩
    omega
  | succ n =>
    have count : sub.started = some (n + 1) := by
      rcases count : sub.started with _ | m
      · simp [count] at started
      · simpa [count] using started
    have ended := (kept_cancelOwned sub.sessionId
      (s.note (.spawn sub.sessionId sub.cwd sub.prompt sub.started))).1
    have form : submitPrompt sub s =
        { cancelOwned sub.sessionId
            (s.note (.spawn sub.sessionId sub.cwd sub.prompt sub.started)) with
          lastLane := laneKey sub
          quick := some ⟨sub.sessionId, trim sub.prompt, (cancelOwned sub.sessionId
            (s.note (.spawn sub.sessionId sub.cwd sub.prompt sub.started))).turns
              sub.sessionId⟩ } := by
      rw [submitPrompt, maybeAutoRun, wants]
      simp only [count, if_true]
    rw [form]
    refine ⟨ended.spawns.trans spawned, fun _ => ⟨rfl, ?_⟩, fun bad => ?_⟩
    · simp only [ended.turns]
      rfl
    · omega

theorem wantsLane_of_eligible {sub : Submission} (eligible : Eligible sub)
    (other : sub.prompt ≠ s.lastLane) : wantsLane sub s = true := by
  simp [wantsLane, eligible.prompt, eligible.typed, eligible.top, eligible.autoRun,
    eligible.swarmRoot, eligible.sdlc, eligible.sessionId, other]

/-- The marker and the key are those of the last lane. -/
def Marked (past : Option Lane) (s : State Resolution) : Prop :=
  match past with
  | none => s.quick = none ∧ s.lastLane = []
  | some lane => s.lastLane = laneText lane ∧
      s.quick = if lane.alone then some ⟨lane.sessionId, trim lane.prompt, lane.turn⟩ else none

theorem Marked.armed (marked : Marked past s) (armed : Armed s s') :
    Marked past s' := by
  obtain ⟨quick, key⟩ := armed
  unfold Marked at marked ⊢
  rw [quick, key]
  exact marked

theorem quickMatches_iff {lane : Lane} (alone : lane.alone = true) (sub : Submission) :
    quickMatches sub ⟨lane.sessionId, trim lane.prompt, lane.turn⟩ s = true ↔
      lane.Resubmitted sub (s.submission sub.sessionId) := by
  simp [quickMatches, Lane.Resubmitted, alone, and_assoc]

theorem bypassed_or (marked : Marked past s) (top : sub.subagent = false) :
    (∃ lane, past = some lane ∧ lane.Resubmitted sub (s.submission sub.sessionId) ∧
      spawns (beforeAgentStart sub s) = spawns s ∧
      (beforeAgentStart sub s).latestGeneration = s.latestGeneration ∧
      (beforeAgentStart sub s).lastLane = s.lastLane ∧
      (beforeAgentStart sub s).quick = some
        ⟨lane.sessionId, trim lane.prompt, some (s.submission sub.sessionId)⟩) ∨
    (∀ lane, past = some lane → ¬ lane.Resubmitted sub (s.submission sub.sessionId)) ∧
      beforeAgentStart sub s = submitPrompt sub { s with quick := none } := by
  unfold beforeAgentStart
  simp only [top, Bool.false_eq_true, if_false]
  cases past with
  | none =>
    obtain ⟨none_, -⟩ := marked
    refine Or.inr ⟨?_, ?_⟩
    · intro lane bad
      cases bad
    · rw [none_]
      simp only [← none_]
  | some lane =>
    obtain ⟨-, armed⟩ := marked
    cases alone : lane.alone with
    | false =>
      rw [alone] at armed
      refine Or.inr ⟨fun lane' same resubmitted => ?_, ?_⟩
      · cases same
        exact absurd (alone.symm.trans resubmitted.1) (by decide)
      · have none_ : s.quick = none := armed
        rw [none_]
        simp only [← none_]
    | true =>
      rw [alone] at armed
      have some_ : s.quick = some ⟨lane.sessionId, trim lane.prompt, lane.turn⟩ := armed
      simp only [some_]
      by_cases again : quickMatches sub ⟨lane.sessionId, trim lane.prompt, lane.turn⟩ s = true
      · rw [if_pos again]
        refine Or.inl ⟨lane, rfl, (quickMatches_iff alone sub).mp again, ?_⟩
        split
        · obtain ⟨kept, generation⟩ := kept_cancelOwned sub.sessionId s
          refine ⟨kept.spawns, generation, kept.lastLane, ?_⟩
          simp only [submission, kept.turns]
        · exact ⟨rfl, rfl, rfl, rfl⟩
      · rw [if_neg again]
        refine Or.inr ⟨fun lane' same resubmitted => ?_, rfl⟩
        cases same
        exact again ((quickMatches_iff alone sub).mpr resubmitted)

end Frames

section Sequences

variable {s s' : State Resolution} {maxRun : Bool}

theorem submit_step (marked : Marked past s) (top : sub.subagent = false)
    (inTurn : InTurn past ⟨s, .submit sub, beforeAgentStart sub s⟩) :
    Marked (noteLane past ⟨s, .submit sub, beforeAgentStart sub s⟩) (beforeAgentStart sub s) ∧
      SpawnedOnce past ⟨s, .submit sub, beforeAgentStart sub s⟩ := by
  obtain ⟨repeated, others⟩ := inTurn.2 sub rfl top
  rcases bypassed_or marked top with
    ⟨lane, rfl, resubmitted, spawned, generation, key, quick⟩ | ⟨fresh, form⟩
  · have still : ¬ startedLane sub ⟨s, .submit sub, beforeAgentStart sub s⟩ := by
      intro started
      have longer := started.1
      rw [spawned] at longer
      exact Nat.lt_irrefl _ longer
    refine ⟨?_, fun sub' same => ?_⟩
    · simp only [noteLane, top, Bool.false_eq_true, if_false, if_neg still, Option.map_some,
        Lane.next, if_pos resubmitted]
      obtain ⟨key', -⟩ := marked
      refine ⟨key.trans key', ?_⟩
      rw [quick, resubmitted.1]
      rfl
    · cases same
      refine ⟨fun _ => ⟨spawned, generation⟩, fun other eligible => ?_⟩
      exact absurd resubmitted (others other eligible lane rfl).1
  · have other : ¬ Repeats past sub := by
      rintro ⟨lane, rfl, same⟩
      exact fresh lane rfl (repeated ⟨lane, rfl, same⟩ lane rfl)
    have disarmed : past.map (fun lane => lane.next sub (s.submission sub.sessionId)) =
        past.map fun lane => { lane with alone := false } := by
      cases past with
      | none => rfl
      | some lane => simp [Lane.next, if_neg (fresh lane rfl)]
    have dropped : Marked (past.map fun lane => { lane with alone := false })
        { s with quick := none } := by
      cases past with
      | none => exact ⟨rfl, marked.2⟩
      | some lane => exact ⟨marked.1, rfl⟩
    cases wants : wantsLane sub { s with quick := none } with
    | false =>
      have kept := submitPrompt_other wants
      rw [← form] at kept
      have still : ¬ startedLane sub ⟨s, .submit sub, beforeAgentStart sub s⟩ := by
        intro started
        have longer := started.1
        rw [kept.spawns] at longer
        exact Nat.lt_irrefl _ longer
      refine ⟨?_, fun sub' same => ?_⟩
      · simp only [noteLane, top, Bool.false_eq_true, if_false, if_neg still, disarmed]
        exact dropped.armed kept.armed
      · cases same
        refine ⟨fun bad => absurd bad other, fun _ eligible => ?_⟩
        have apart : sub.prompt ≠ s.lastLane := by
          cases past with
          | none =>
            rw [marked.2]
            exact eligible.prompt
          | some lane =>
            rw [marked.1]
            exact (others other eligible lane rfl).2
        rw [@wantsLane_of_eligible _ { s with quick := none } sub eligible apart] at wants
        cases wants
    | true =>
      obtain ⟨spawned, started, failed⟩ := submitPrompt_lane wants
      rw [← form] at spawned started failed
      have longer : (spawns s).length < (spawns (beforeAgentStart sub s)).length := by
        rw [spawned, length_append, length_singleton]
        exact Nat.lt_succ_self _
      refine ⟨?_, fun sub' same => ?_⟩
      · simp only [noteLane, top, Bool.false_eq_true, if_false, disarmed]
        split
        next lane =>
          obtain ⟨key, quick⟩ := started lane.2
          exact ⟨key, quick⟩
        next noLane =>
          refine dropped.armed (failed ?_)
          by_contra positive
          exact noLane ⟨longer, Nat.pos_of_ne_zero positive⟩
      · cases same
        exact ⟨fun bad => absurd bad other, fun _ _ => spawned⟩

theorem marked_step (marked : Marked past s) {event : Event Resolution}
    (stepped : step maxRun s event = some s') (inTurn : InTurn past ⟨s, event, s'⟩) :
    Marked (noteLane past ⟨s, event, s'⟩) s' ∧ SpawnedOnce past ⟨s, event, s'⟩ := by
  by_cases submission : ∃ sub, event = .submit sub
  · obtain ⟨sub, rfl⟩ := submission
    cases stepped
    cases top : sub.subagent with
    | false => exact submit_step marked top inTurn
    | true =>
      have same : beforeAgentStart sub s = s := by simp [beforeAgentStart, top]
      rw [same]
      refine ⟨by simpa [noteLane, top] using marked, fun sub' same' => ?_⟩
      cases same'
      refine ⟨fun _ => ⟨rfl, rfl⟩, fun _ eligible => ?_⟩
      rw [eligible.top] at top
      cases top
  · have other : ∀ sub, event ≠ .submit sub := fun sub same => submission ⟨sub, same⟩
    refine ⟨?_, fun sub same => absurd same (other sub)⟩
    have kept : noteLane past ⟨s, event, s'⟩ = past := by
      cases event with
      | submit sub => exact absurd rfl (other sub)
      | _ => rfl
    rw [kept]
    exact marked.armed (armed_step stepped inTurn.1 other)

/-- In every run in which each submission comes `InTurn`, each repetition of the last lane's
request spawns no lane and starts no flight, and each other eligible submission may spawn one. -/
theorem lane_spawned_once {steps : List (Taken Resolution)}
    (run : (system Resolution maxRun).Run State.initial steps s)
    (met : ∀ before x later, steps = before ++ x :: later → InTurn (lastLaneOf before) x) :
    ∀ before x later, steps = before ++ x :: later → SpawnedOnce (lastLaneOf before) x := by
  have both : Marked (lastLaneOf steps) s ∧ ∀ before x later, steps = before ++ x :: later →
      SpawnedOnce (lastLaneOf before) x := by
    induction run with
    | refl =>
      refine ⟨⟨rfl, rfl⟩, fun before x later split => ?_⟩
      cases before <;> cases split
    | @tail m t old event head last ih =>
      obtain ⟨marked, once⟩ := ih fun before x later split =>
        met before x (later ++ [⟨m, event, t⟩]) (by rw [split]; simp)
      obtain ⟨marked', once'⟩ := marked_step marked last (met old _ [] rfl)
      refine ⟨?_, fun before x later split => ?_⟩
      · rw [lastLaneOf, foldl_append]
        exact marked'
      · rcases eq_nil_or_concat later with rfl | ⟨rest, y, rfl⟩
        · obtain ⟨rfl, same⟩ := append_inj' split rfl
          cases same
          exact once'
        · rw [concat_eq_append, ← cons_append, ← append_assoc] at split
          obtain ⟨rfl, -⟩ := append_inj' split rfl
          exact once before x rest rfl
  exact both.2

end Sequences

def laneRequest : Submission where
  prompt := js "implement it"
  cwd := js "/repo"
  sessionId := js "s"
  subagent := false
  autoRun := true
  swarmRoot := true
  sdlc := true
  started := some 1
  unchanged := true

def submitted (s : State Nat) : Taken Nat :=
  ⟨s, .submit laneRequest, beforeAgentStart laneRequest s⟩

/-- The request again in the same turn: still one lane. -/
theorem lane_spawned_once_again :
    spawns (beforeAgentStart laneRequest (beforeAgentStart laneRequest State.initial)) =
      spawns (beforeAgentStart laneRequest (State.initial : State Nat)) := by
  let first : Taken Nat := submitted State.initial
  let second : Taken Nat := submitted (beforeAgentStart laneRequest State.initial)
  have run : (system Nat false).Run State.initial ([first] ++ [second]) second.after :=
    .tail (.tail (.refl _) rfl) rfl
  have lane : lastLaneOf [first] =
      some ⟨js "s", js "/repo", js "implement it", none, true⟩ := by decide
  have met : ∀ before x later, [first] ++ [second] = before ++ x :: later →
      InTurn (lastLaneOf before) x := by
    rintro before x later split
    rcases before with _ | ⟨y, _ | ⟨z, rest⟩⟩
    · cases split
      refine ⟨rfl, fun sub same _ => ?_⟩
      exact ⟨fun _ lane bad => (by cases bad), fun _ _ lane bad => (by cases bad)⟩
    · cases split
      refine ⟨rfl, fun sub same _ => ?_⟩
      cases same
      refine ⟨fun _ lane' there => ?_, fun other => absurd ⟨_, lane, rfl, rfl, rfl⟩ other⟩
      cases lane.symm.trans there
      decide
    · simp at split
  exact ((lane_spawned_once run met [first] second [] rfl laneRequest rfl).1
    ⟨_, lane, rfl, rfl, rfl⟩).1

/-- The request again after a turn: a second lane. -/
theorem lane_spawned_twice :
    ∃ (before : List (Taken Nat)) (x : Taken Nat),
      (system Nat false).Run State.initial (before ++ [x]) x.after ∧
      (∀ y ∈ before, disarms y.label = false) ∧ x.label = .submit laneRequest ∧
      Repeats (lastLaneOf before) laneRequest ∧
      (spawns x.after).length = (spawns x.before).length + 1 := by
  let turn (s : State Nat) : Taken Nat := ⟨s, .turnStart (js "s") (js "/repo") (fun _ => true),
    (stepped (step false) s (.turnStart (js "s") (js "/repo") (fun _ => true)))⟩
  let first := turn State.initial
  let second := submitted first.after
  let third := turn second.after
  let last := submitted third.after
  have lane : lastLaneOf [first, second, third] =
      some ⟨js "s", js "/repo", js "implement it", some 1, true⟩ := by decide
  refine ⟨[first, second, third], last, ?_, ?_, rfl, ⟨_, lane, rfl, rfl, rfl⟩,
    by decide⟩
  · exact .tail (.tail (.tail (.tail (.refl _) rfl) rfl) rfl) rfl
  · intro y mem
    simp only [mem_cons, not_mem_nil, or_false] at mem
    rcases mem with rfl | rfl | rfl <;> rfl

end Ultrathink.Host.Omp
