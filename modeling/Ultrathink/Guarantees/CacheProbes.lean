import Ultrathink.Source.TokenOpt.SharedCache

/-!
# One probe of the shared cache at a time

While the breaker is open a single probe is in flight and every other call is refused, as
long as no call comes a whole cooldown or more after the start of a probe that is still in
flight. Openness is a deadline, so a probe that outlasts the cooldown lets a second one in.
-/

namespace Ultrathink.Guarantees.CacheProbes

open Library.Runs Source.TokenOpt.SharedCache

variable {o : SharedCacheOptions}

def probes (c : Cache) : List Request := c.inFlight.filter (·.probe)

/-- What a call does: nothing, or it is admitted past a closed or an expired window. -/
theorem request_cases (o : SharedCacheOptions) (id : Nat) (c : Cache) :
    request o id c = c ∨
    (c.openUntil = 0 ∧
      request o id c = { c with inFlight := ⟨id, false, c.clock⟩ :: c.inFlight }) ∨
    (c.openUntil ≠ 0 ∧ c.openUntil ≤ c.clock ∧
      request o id c =
        { c with
          openUntil := c.clock + o.breakerCooldownMs
          inFlight := ⟨id, true, c.clock⟩ :: c.inFlight }) := by
  unfold request admits
  by_cases live : (!o.enabled || c.closed) = true
  · left
    simp [live]
  · by_cases closed : c.openUntil = 0
    · right; left
      simp [live, closed]
    · by_cases early : c.clock < c.openUntil
      · left
        simp [live, closed, early]
      · right; right
        simp [live, closed, early, Nat.le_of_not_lt early]

def isRequest : Label → Bool
  | .request _ => true
  | _ => false

/-- No call comes `breakerCooldownMs` or more after the start of a probe that is still in
flight. -/
def Timely (o : SharedCacheOptions) (x : Step Cache Label) : Prop :=
  isRequest x.label = true →
    ∀ r ∈ probes x.before, x.before.clock < r.started + o.breakerCooldownMs

instance (o : SharedCacheOptions) (x : Step Cache Label) : Decidable (Timely o x) :=
  inferInstanceAs (Decidable (isRequest x.label = true → _))

/-- An open window covers the cooldown of every probe in flight. -/
structure Inv (o : SharedCacheOptions) (c : Cache) : Prop where
  begun : ∀ r ∈ probes c, r.started ≤ c.clock
  covered : c.openUntil ≠ 0 → ∀ r ∈ probes c, r.started + o.breakerCooldownMs ≤ c.openUntil
  single : (probes c).length ≤ 1

theorem inv_start {c : Cache} (start : (sharedCache o).start c) : Inv o c := by
  obtain ⟨clock, rfl⟩ := start
  exact ⟨by simp [probes], by simp [probes], by simp [probes]⟩

theorem inv_passes {c : Cache} {now : Nat} (inv : Inv o c) (later : c.clock ≤ now) :
    Inv o { c with clock := now } where
  begun r mem := Nat.le_trans (inv.begun r mem) later
  covered := inv.covered
  single := inv.single

theorem inv_request {c : Cache} {id : Nat} (inv : Inv o c)
    (timely : ∀ r ∈ probes c, c.clock < r.started + o.breakerCooldownMs) :
    Inv o (request o id c) := by
  rcases request_cases o id c with same | ⟨closed, admitted⟩ | ⟨isOpen, expired, admitted⟩
  · rw [same]
    exact inv
  · rw [admitted]
    exact ⟨inv.begun, inv.covered, inv.single⟩
  · -- a window that has expired has outlasted every probe
    have idle : probes c = [] := by
      apply List.eq_nil_iff_forall_not_mem.mpr
      intro r mem
      have soon := timely r mem
      have until_ := inv.covered isOpen r mem
      omega
    have only : probes (request o id c) = [⟨id, true, c.clock⟩] := by
      rw [admitted]
      simpa [probes] using idle
    constructor
    · intro r mem
      rw [only, List.mem_singleton] at mem
      subst mem
      exact Nat.le_of_eq (congrArg Cache.clock admitted).symm
    · intro _ r mem
      rw [only, List.mem_singleton] at mem
      subst mem
      exact Nat.le_of_eq (congrArg Cache.openUntil admitted).symm
    · rw [only]
      exact Nat.le_refl 1

theorem probes_settle (c : Cache) (id : Nat) (succeeded : Bool) :
    (probes (settle o id succeeded c)).Sublist (probes c) := by
  have fewer : (settle o id succeeded c).inFlight.Sublist c.inFlight := List.filter_sublist
  exact fewer.filter _

theorem inv_settle {c : Cache} {id : Nat} {succeeded : Bool} (inv : Inv o c) :
    Inv o (settle o id succeeded c) := by
  have subset := (probes_settle (o := o) c id succeeded).subset
  have clock : (settle o id succeeded c).clock = c.clock := by
    unfold settle recordFailure recordSuccess
    split_ifs <;> rfl
  constructor
  · intro r mem
    rw [clock]
    exact inv.begun r (subset mem)
  · intro isOpen r mem
    have begun := inv.begun r (subset mem)
    cases succeeded with
    | true => exact absurd rfl isOpen
    | false =>
      by_cases trips : o.breakerThreshold ≤ c.consecutiveFailures + 1
      · simp only [settle, recordFailure, trips, if_true, Bool.false_eq_true, if_false]
        omega
      · simp only [settle, recordFailure, trips, if_false, Bool.false_eq_true] at isOpen ⊢
        exact inv.covered isOpen r (subset mem)
  · exact Nat.le_trans (probes_settle _ _ _).length_le inv.single

theorem inv_advance {c c' : Cache} {label : Label} (step : advance o c label = some c')
    (timely : Timely o ⟨c, label, c'⟩) (inv : Inv o c) : Inv o c' := by
  cases label with
  | passes now =>
    obtain ⟨later, value⟩ := Option.ite_none_right_eq_some.mp step
    cases value
    exact inv_passes inv later
  | request id =>
    obtain ⟨_, value⟩ := Option.ite_none_left_eq_some.mp step
    cases value
    exact inv_request inv (timely rfl)
  | settle id succeeded =>
    obtain ⟨_, value⟩ := Option.ite_none_right_eq_some.mp step
    cases value
    exact inv_settle inv
  | close =>
    cases step
    exact ⟨inv.begun, inv.covered, inv.single⟩

/-- At most one probe is in flight while the breaker is open. -/
def SingleProbe (c : Cache) : Prop := c.openUntil ≠ 0 → (probes c).length ≤ 1

/-- A call that comes while the breaker is open and a probe is in flight is refused. -/
def RefusesOthers (o : SharedCacheOptions) (x : Step Cache Label) : Prop :=
  isRequest x.label = true → x.before.openUntil ≠ 0 → probes x.before ≠ [] →
    admits o x.before = (false, x.before)

theorem admits_before {c : Cache} (isOpen : c.openUntil ≠ 0) (early : c.clock < c.openUntil) :
    admits o c = (false, c) := by
  unfold admits
  by_cases live : (!o.enabled || c.closed) = true
  · rw [if_pos live]
  · rw [if_neg live, if_neg isOpen, if_pos early]

theorem refuses_others {x : Step Cache Label} (inv : Inv o x.before) (timely : Timely o x) :
    RefusesOthers o x := by
  intro called isOpen busy
  obtain ⟨r, mem⟩ := List.exists_mem_of_ne_nil _ busy
  have soon := timely called r mem
  have covered := inv.covered isOpen r mem
  exact admits_before isOpen (Nat.lt_of_lt_of_le soon covered)

theorem one_probe_when_timely {c₀ c : Cache} {steps : List (Step Cache Label)}
    (start : (sharedCache o).start c₀) (run : (sharedCache o).Run c₀ steps c)
    (timely : ∀ x ∈ steps, Timely o x) :
    SingleProbe c ∧ ∀ x ∈ steps, SingleProbe x.before ∧ RefusesOthers o x := by
  have kept : ∀ m i n, (sharedCache o).step m i n → Timely o ⟨m, i, n⟩ → Inv o m → Inv o n :=
    fun _ _ _ step timely inv => inv_advance step timely inv
  constructor
  · have inv := run.invariant_of (Inv o) (Timely o) (inv_start start) kept timely
    exact fun _ => inv.single
  · refine run.steps_of (Inv o) (Timely o) (fun x => SingleProbe x.before ∧ RefusesOthers o x)
      (inv_start start) kept (fun m i n _ timely inv => ?_) timely
    exact ⟨fun _ => inv.single, refuses_others inv timely⟩

/-- The cooldown is a third of the timeout. -/
def slowProbes : SharedCacheOptions where
  enabled := true
  timeoutMs := 150
  breakerThreshold := 1
  breakerCooldownMs := 50
  timeout_range := by decide
  threshold_range := by decide
  cooldown_range := by decide

def fresh : Cache := ⟨1000, false, 0, 0, []⟩

/-- A failure opens the breaker, and the call after the cooldown probes. -/
def probing : List Label := [.request 0, .settle 0 false, .passes 1050, .request 1]

/-- The next call comes while the probe has neither settled nor outlasted the cooldown. -/
theorem one_probe_when_timely_probing :
    let calls := probing ++ [.passes 1060, .request 2]
    SingleProbe (runInputs (stepped (advance slowProbes)) fresh calls) ∧
      ∀ x ∈ traceOf (stepped (advance slowProbes)) fresh calls,
        SingleProbe x.before ∧ RefusesOthers slowProbes x :=
  one_probe_when_timely ⟨1000, rfl⟩ (run_stepped fresh _ (by decide)) (by decide)

/-- A call that comes 50 ms after the first probe, well within its timeout, is the second. -/
theorem second_probe_admitted :
    ∃ c, (sharedCache slowProbes).Reachable c ∧ isOpen slowProbes c = true ∧
      (probes c).length = 2 ∧ ∀ r ∈ probes c, c.clock < r.started + slowProbes.timeoutMs := by
  refine ⟨runInputs (stepped (advance slowProbes)) fresh (probing ++ [.passes 1100, .request 2]),
    ?_, by decide, by decide, by decide⟩
  exact ⟨fresh, _, ⟨1000, rfl⟩, run_stepped fresh _ (by decide)⟩

end Ultrathink.Guarantees.CacheProbes
