import Ultrathink.Source.TokenOpt.Rtk

/-!
# RTK savings belong to their session

`rtkBaseline` outlives the session whose start read set it, so a value is the session's own
only when the start read of the session that is active has given a total. Under that
condition every value is a total read while the session was active less its start total.
-/

namespace Ultrathink.Guarantees.RtkSavings

open List Library JsText Runs Source.TokenOpt.Rtk

/-- A total read while the session was active, less the total of its own start read. -/
def Belongs (s : State) (w : Write) : Prop :=
  ∃ baseline latest, s.starts w.epoch = some (.ended (some baseline)) ∧
    (w.epoch, latest) ∈ s.totals ∧ baseline ≤ latest ∧ w.rtkSavedTokens = latest - baseline

def AllBelong (s : State) : Prop := ∀ w ∈ s.writes, Belongs s w

/-- When the total of a refresh arrives, the start read of the session that is active has
given its total. -/
def Met (x : Step State Input) : Prop :=
  match x.label with
  | .latestEnds false _ _ => ∃ total, x.before.starts x.before.rtkEpoch = some (.ended (some total))
  | _ => True

structure Inv (s : State) : Prop where
  belong : AllBelong s
  /-- Totals only grow from one session to the next. -/
  totals : ∀ a ∈ s.totals, a.1 ≤ s.rtkEpoch ∧ a.2 ≤ s.total
  ordered : ∀ a ∈ s.totals, ∀ b ∈ s.totals, a.1 < b.1 → a.2 ≤ b.2
  begun : ∀ epoch start, s.starts epoch = some start → epoch ≤ s.rtkEpoch
  running : ∀ epoch total, s.starts epoch = some (.running (some total)) →
    epoch = s.rtkEpoch → (epoch, total) ∈ s.totals
  own : ∀ total, s.starts s.rtkEpoch = some (.ended (some total)) →
    s.rtkBaseline = some total ∧ (s.rtkEpoch, total) ∈ s.totals
  latest : ∀ total, s.delta = some (.latest (some total)) → ∃ epoch, (epoch, total) ∈ s.totals

variable {s s' : State}

theorem inv_start (first : Start s) : Inv s where
  belong := by
    intro w mem
    rw [first.writes] at mem
    cases mem
  totals := by simp [first.totals]
  ordered := by simp [first.totals]
  begun := by simp [first.starts]
  running := by simp [first.starts]
  own := by simp [first.starts]
  latest := by simp [first.delta]

theorem Belongs.kept {w : Write} (belongs : Belongs s w)
    (ended : ∀ epoch total, s.starts epoch = some (.ended total) →
      s'.starts epoch = some (.ended total)) (totals : ∀ a ∈ s.totals, a ∈ s'.totals) :
    Belongs s' w := by
  obtain ⟨baseline, latest, start, read, least, value⟩ := belongs
  exact ⟨baseline, latest, ended _ _ start, totals _ read, least, value⟩

theorem Inv.moved (inv : Inv s) (r : Source.TokenOpt.Refresh.State) {d : Option Delta}
    (latest : ∀ total, d = some (.latest (some total)) → ∃ epoch, (epoch, total) ∈ s.totals) :
    Inv { s with refresh := r, delta := d } where
  belong := inv.belong
  totals := inv.totals
  ordered := inv.ordered
  begun := inv.begun
  running := inv.running
  own := inv.own
  latest := latest

theorem begun_inv (inv : Inv s) (sessionId : Text) : Inv (begun sessionId s) where
  belong := by
    intro w mem
    apply (inv.belong w mem).kept
    · intro epoch total start
      have old := inv.begun epoch _ start
      have other : epoch ≠ s.rtkEpoch + 1 := by omega
      simpa [begun, Function.update_of_ne other] using start
    · exact fun _ read => read
  totals := by
    intro a mem
    obtain ⟨epoch, total⟩ := inv.totals a mem
    exact ⟨Nat.le_succ_of_le epoch, total⟩
  ordered := inv.ordered
  begun := by
    intro epoch start value
    by_cases this_ : epoch = s.rtkEpoch + 1
    · exact le_of_eq this_
    · simp only [begun, Function.update_of_ne this_] at value
      exact Nat.le_succ_of_le (inv.begun epoch start value)
  running := by
    intro epoch total value current
    simp [begun, current] at value
  own := by simp [begun]
  latest := inv.latest

theorem saves_inv (inv : Inv s) (tokens : Nat) :
    Inv { s with total := s.total + tokens } where
  belong := inv.belong
  totals := by
    intro a mem
    obtain ⟨epoch, total⟩ := inv.totals a mem
    exact ⟨epoch, Nat.le_add_right_of_le total⟩
  ordered := inv.ordered
  begun := inv.begun
  running := inv.running
  own := inv.own
  latest := inv.latest

theorem reads_inv (inv : Inv s) : Inv s.reads where
  belong := by
    intro w mem
    exact (inv.belong w mem).kept (fun _ _ start => start) fun _ read => mem_cons_of_mem _ read
  totals := by
    intro a mem
    rcases mem_cons.mp mem with rfl | old
    · exact ⟨le_refl _, le_refl _⟩
    · exact inv.totals a old
  ordered := by
    intro a memA b memB before
    rcases mem_cons.mp memA with rfl | oldA <;> rcases mem_cons.mp memB with rfl | oldB
    · exact le_refl _
    · -- nothing was read in a session that is still to come
      have := (inv.totals b oldB).1
      simp only at before
      omega
    · exact (inv.totals a oldA).2
    · exact inv.ordered a oldA b oldB before
  begun := inv.begun
  running := fun epoch total value current => mem_cons_of_mem _ (inv.running epoch total value current)
  own := by
    intro total start
    obtain ⟨baseline, read⟩ := inv.own total start
    exact ⟨baseline, mem_cons_of_mem _ read⟩
  latest := by
    intro total value
    obtain ⟨epoch, read⟩ := inv.latest total value
    exact ⟨epoch, mem_cons_of_mem _ read⟩

theorem startReads_inv (inv : Inv s) {epoch : Nat} (start : s.starts epoch = some (.running none)) :
    Inv { s.reads with
      starts := Function.update s.starts epoch (some (.running (some s.total))) } where
  belong := by
    intro w mem
    apply (inv.belong w mem).kept
    · intro other total value
      have apart : other ≠ epoch := by
        rintro rfl
        rw [start] at value
        cases value
      simpa [Function.update_of_ne apart] using value
    · exact fun _ read => mem_cons_of_mem _ read
  totals := (reads_inv inv).totals
  ordered := (reads_inv inv).ordered
  begun := by
    intro other value_ value
    by_cases same : other = epoch
    · rw [same]
      exact inv.begun epoch _ start
    · simp only [Function.update_of_ne same] at value
      exact inv.begun other _ value
  running := by
    intro other total value current
    by_cases same : other = epoch
    · subst same
      simp only [Function.update_self, Option.some.injEq, StartRead.running.injEq] at value
      simp [State.reads, ← value, current]
    · simp only [Function.update_of_ne same] at value
      exact (reads_inv inv).running other total value current
  own := by
    intro total value
    by_cases same : s.rtkEpoch = epoch
    · simp [State.reads, same] at value
    · simp only [State.reads, Function.update_of_ne same] at value
      exact (reads_inv inv).own total value
  latest := (reads_inv inv).latest

theorem startEnded_inv (inv : Inv s) {epoch : Nat} {gain : Gain}
    (start : s.starts epoch = some (.running gain)) {total : Option Nat}
    (read : ∀ value, total = some value → gain = some value) :
    Inv (startEnded epoch total s) where
  belong := by
    intro w mem
    apply (inv.belong w mem).kept
    · intro other total value
      have apart : other ≠ epoch := by
        rintro rfl
        rw [start] at value
        cases value
      simpa [startEnded, Function.update_of_ne apart] using value
    · exact fun _ read => read
  totals := inv.totals
  ordered := inv.ordered
  begun := by
    intro other value_ value
    by_cases same : other = epoch
    · rw [same]
      exact inv.begun epoch _ start
    · simp only [startEnded, Function.update_of_ne same] at value
      exact inv.begun other _ value
  running := by
    intro other value_ value current
    by_cases same : other = epoch
    · simp [startEnded, same] at value
    · simp only [startEnded, Function.update_of_ne same] at value
      exact inv.running other _ value current
  own := by
    intro value_ value
    by_cases same : s.rtkEpoch = epoch
    · subst same
      simp only [startEnded, Function.update_self, Option.some.injEq, StartRead.ended.injEq] at value
      subst value
      have gained := read value_ rfl
      rw [gained] at start
      exact ⟨by simp [startEnded], inv.running _ _ start rfl⟩
    · simp only [startEnded, Function.update_of_ne same] at value
      obtain ⟨baseline, mem⟩ := inv.own value_ value
      refine ⟨?_, mem⟩
      simp [startEnded, Ne.symm same, baseline]
  latest := inv.latest

/-- A value written while the baseline is the start total of the session that is active. -/
theorem noted_inv (inv : Inv s) {latest baseline : Nat}
    (value : s.delta = some (.latest (some latest))) (held : s.rtkBaseline = some baseline)
    (met : ∃ total, s.starts s.rtkEpoch = some (.ended (some total))) :
    Inv (noted latest baseline s) where
  belong := by
    intro w mem
    rcases mem_cons.mp mem with rfl | old
    · obtain ⟨total, start⟩ := met
      obtain ⟨own, ownRead⟩ := inv.own total start
      obtain rfl : baseline = total := by simpa [held] using own
      obtain ⟨epoch, read⟩ := inv.latest latest value
      by_cases more : baseline < latest
      · -- a total of an earlier session is no more than the start total of this one
        have current : epoch = s.rtkEpoch := by
          rcases Nat.lt_or_eq_of_le (inv.totals _ read).1 with before | same
          · have := inv.ordered _ read _ ownRead before
            simp only at this
            omega
          · exact same
        rw [current] at read
        exact ⟨baseline, latest, start, read, le_of_lt more, rfl⟩
      · exact ⟨baseline, baseline, start, ownRead, le_refl _, by simp only; omega⟩
    · exact (inv.belong w old).kept (fun _ _ start => start) fun _ read => read
  totals := inv.totals
  ordered := inv.ordered
  begun := inv.begun
  running := inv.running
  own := inv.own
  latest := inv.latest

theorem returned_inv (inv : Inv s) {now : Source.TokenOpt.Refresh.Time}
    (back : returned now s = some s') : Inv s' := by
  obtain ⟨r, -, rfl⟩ := Option.map_eq_some_iff.mp back
  exact inv.moved r (fun _ bad => by cases bad)

theorem refreshed_inv (inv : Inv s) (r : Source.TokenOpt.Refresh.State) : Inv (s.refreshed r) := by
  apply inv.moved
  intro total value
  split at value
  · cases value
  · exact inv.latest total value

theorem step_inv {i : Input} (inv : Inv s) (taken : step s i = some s') (met : Met ⟨s, i, s'⟩) :
    Inv s' := by
  cases i with
  | beginSession sessionId =>
    cases taken
    exact begun_inv inv sessionId
  | saves tokens =>
    cases taken
    exact saves_inv inv tokens
  | startReads epoch =>
    simp only [step] at taken
    split at taken
    next start =>
      cases taken
      exact startReads_inv inv start
    · cases taken
  | startEnds epoch failed =>
    simp only [step] at taken
    split at taken
    next gain start =>
      split at taken
      · cases taken
        exact startEnded_inv inv start (fun _ bad => by cases bad)
      · obtain ⟨total, rfl, rfl⟩ := Option.map_eq_some_iff.mp taken
        exact startEnded_inv inv start fun _ same => same
    · cases taken
  | refresh force now later =>
    obtain ⟨r, -, rfl⟩ := Option.map_eq_some_iff.mp taken
    exact refreshed_inv inv r
  | timer id now =>
    obtain ⟨r, -, rfl⟩ := Option.map_eq_some_iff.mp taken
    exact refreshed_inv inv r
  | resumed now =>
    simp only [step] at taken
    split at taken
    · split at taken
      · split at taken
        · exact returned_inv inv taken
        · cases taken
          exact inv.moved s.refresh (fun _ bad => by cases bad)
      · cases taken
    · cases taken
  | latestReads =>
    simp only [step] at taken
    split at taken
    · cases taken
      apply (reads_inv inv).moved
      intro total value
      cases value
      exact ⟨s.rtkEpoch, mem_cons_self⟩
    · cases taken
  | latestEnds failed ledgerFails now =>
    simp only [step] at taken
    split at taken
    next gain value =>
      split at taken
      · exact returned_inv inv taken
      next arrived =>
        split at taken
        next latest baseline held =>
          split at taken
          · exact returned_inv inv taken
          · obtain rfl : failed = false := by simpa using arrived
            exact returned_inv (noted_inv inv value held met) taken
        · cases taken
    · cases taken
  | finally_ now later =>
    obtain ⟨r, -, rfl⟩ := Option.map_eq_some_iff.mp taken
    exact inv.moved r inv.latest

/-- In a run in which, whenever the total of a refresh arrives, the start read of the session
that is active has given its total, every value belongs to its session. -/
theorem savings_belong {s s' : State} {steps : List (Step State Input)} (first : Start s)
    (run : system.Run s steps s') (met : ∀ x ∈ steps, Met x) : AllBelong s' :=
  (run.invariant_of Inv Met (inv_start first) (fun _ _ _ taken met inv => step_inv inv taken met)
    met).belong

/-- RTK has saved 100 tokens before the first session begins. -/
def savedBefore : State :=
  ⟨⟨Source.TokenOpt.Refresh.createTrailingRefresh, 6000, []⟩, none, none, 0, fun _ => none, [], 100, [], []⟩

theorem savedBefore_start : Start savedBefore :=
  ⟨⟨rfl, rfl⟩, rfl, rfl, rfl, rfl, rfl, rfl⟩

def statusRead (now : Source.TokenOpt.Refresh.Time) : List Input :=
  [.refresh true now now, .resumed now, .latestReads, .latestEnds false false now]

def sessionA : Text := [65]

def sessionB : Text := [66]

/-- A session reads its start total, RTK saves 50 tokens, and `/token-status` asks for them. -/
def oneSession : List Input :=
  [.beginSession sessionA, .startReads 1, .startEnds 1 false, .saves 50] ++ statusRead 6000

instance : DecidablePred Met := fun x =>
  match x with
  | ⟨s, .latestEnds false _ _, _⟩ =>
    decidable_of_iff ((s.starts s.rtkEpoch).any fun start => match start with
        | .ended (some _) => true
        | _ => false) <| by
      unfold Met
      simp only [Option.any_eq_true]
      constructor
      · rintro ⟨start, value, given⟩
        split at given
        next total => exact ⟨total, value⟩
        · cases given
      · rintro ⟨total, value⟩
        exact ⟨_, value, rfl⟩
  | ⟨_, .latestEnds true _ _, _⟩ | ⟨_, .beginSession _, _⟩ | ⟨_, .saves _, _⟩
  | ⟨_, .startReads _, _⟩ | ⟨_, .startEnds _ _, _⟩ | ⟨_, .refresh _ _ _, _⟩ | ⟨_, .timer _ _, _⟩
  | ⟨_, .resumed _, _⟩ | ⟨_, .latestReads, _⟩ | ⟨_, .finally_ _ _, _⟩ => isTrue trivial

theorem savings_belong_once :
    ∃ steps s, system.Run savedBefore steps s ∧ (∀ x ∈ steps, Met x) ∧
      s.writes = [⟨sessionA, 1, 50⟩] ∧ AllBelong s := by
  have run := @run_stepped _ _ Start step savedBefore oneSession (by decide)
  have met : ∀ x ∈ traceOf (stepped step) savedBefore oneSession, Met x := by decide
  exact ⟨_, _, run, met, by decide, savings_belong savedBefore_start run met⟩

/-- The start read of a second session fails, so its `rtkSavedTokens` counts from the start of
the first one. -/
def switched : List Input :=
  [.beginSession sessionA, .startReads 1, .startEnds 1 false, .saves 50, .beginSession sessionB,
    .startEnds 2 true] ++ statusRead 6000

theorem savings_of_the_session_before :
    ∃ s, system.Reachable s ∧ s.writes = [⟨sessionB, 2, 50⟩] ∧ s.starts 2 = some (.ended none) ∧
      ¬AllBelong s := by
  have run := @run_stepped _ _ Start step savedBefore switched (by decide)
  have wrote : (runInputs (stepped step) savedBefore switched).writes = [⟨sessionB, 2, 50⟩] := by
    decide
  have failed : (runInputs (stepped step) savedBefore switched).starts 2 = some (.ended none) := by
    decide
  refine ⟨_, ⟨savedBefore, _, savedBefore_start, run⟩, wrote, failed, fun all => ?_⟩
  obtain ⟨baseline, latest, start, -⟩ := all ⟨sessionB, 2, 50⟩ (by rw [wrote]; exact mem_cons_self)
  rw [failed] at start
  cases start

end Ultrathink.Guarantees.RtkSavings
