import Ultrathink.Source.Engine.CircuitBreaker
import Mathlib.Data.List.Induction

/-!
# What the circuit breaker keeps, in every interleaving

Probes, reports of older slots, when the breaker opens, and the wait that a refusal names.
-/

namespace Ultrathink.Guarantees.BreakerDiscipline

open List Library.Runs Source.Engine.CircuitBreaker

variable {o : CircuitBreakerOptions}

/-- The state after the calls, from a new breaker. -/
def after (o : CircuitBreakerOptions) (events : List Event) : State :=
  runInputs (step o) createCircuitBreaker events

theorem after_append (o : CircuitBreakerOptions) (first second : List Event) :
    after o (first ++ second) = runInputs (step o) (after o first) second :=
  runInputs_append (step o) createCircuitBreaker first second

/-- A probe of the running half-open period that has not reported. -/
def isOutstanding (generation : Nat) (slot : Slot) : Bool :=
  slot.probe && slot.generation = generation && !slot.released

def outstanding (s : State) : Nat := s.slots.countP (isOutstanding s.breaker.generation)

structure Inv (o : CircuitBreakerOptions) (s : State) : Prop where
  aged : ∀ slot ∈ s.slots, slot.generation ≤ s.breaker.generation
  probes : ∀ slot ∈ s.slots, slot.generation = s.breaker.generation → slot.probe = true →
    s.breaker.state = .halfOpen
  counted : s.breaker.inFlight = outstanding s
  bounded : outstanding s ≤ o.halfOpenMaxCalls

theorem inv_new : Inv o createCircuitBreaker where
  aged := by simp [createCircuitBreaker]
  probes := by simp [createCircuitBreaker]
  counted := rfl
  bounded := Nat.zero_le _

variable {s : State} {i : Nat} {slot : Slot} {b : Breaker} {event : Event} {events : List Event}
  {t : ℤ}

theorem inv_of_transition {slots : List Slot} (to_ : BreakerState)
    (aged : ∀ slot ∈ slots, slot.generation ≤ b.generation) :
    Inv o ⟨transition to_ b, slots⟩ := by
  have none_ : outstanding ⟨transition to_ b, slots⟩ = 0 := by
    apply countP_eq_zero.mpr
    intro slot mem
    have old := aged slot mem
    have stale : slot.generation ≠ b.generation + 1 := by omega
    simp [isOutstanding, transition, stale]
  constructor
  · intro slot mem
    exact Nat.le_succ_of_le (aged slot mem)
  · intro slot mem fresh _
    have old := aged slot mem
    simp only [transition] at fresh
    omega
  · rw [none_]
    rfl
  · rw [none_]
    exact Nat.zero_le _

theorem outstanding_append (b : Breaker) (slots : List Slot) (slot : Slot) :
    outstanding ⟨b, slots ++ [slot]⟩ =
      outstanding ⟨b, slots⟩ + if isOutstanding b.generation slot then 1 else 0 := by
  simp only [outstanding, countP_append, countP_singleton]

theorem inv_closedAcquire (inv : Inv o s) : Inv o (closedAcquire s).1 := by
  have same : outstanding (closedAcquire s).1 = outstanding s := by
    simp [closedAcquire, outstanding_append, isOutstanding]
  constructor
  · intro slot mem
    rcases mem_append.mp mem with old | new
    · exact inv.aged slot old
    · rw [mem_singleton.mp new]
      exact Nat.le_refl _
  · intro slot mem fresh probe
    rcases mem_append.mp mem with old | new
    · exact inv.probes slot old fresh probe
    · rw [mem_singleton.mp new] at probe
      cases probe
  · rw [same]
    exact inv.counted
  · rw [same]
    exact inv.bounded

theorem inv_halfOpenAcquire (inv : Inv o s) (halfOpen : s.breaker.state = .halfOpen) :
    Inv o (halfOpenAcquire o s).1 := by
  unfold halfOpenAcquire
  split
  · exact inv
  · next room =>
    have one : outstanding (probeAcquire s).1 = outstanding s + 1 := by
      simp [probeAcquire, outstanding_append, isOutstanding]
      rfl
    have counted := inv.counted
    constructor
    · intro slot mem
      rcases mem_append.mp mem with old | new
      · exact inv.aged slot old
      · rw [mem_singleton.mp new]
        exact Nat.le_refl _
    · intro _ _ _ _
      exact halfOpen
    · rw [one, Int.natCast_add, Int.natCast_one, ← counted]
      rfl
    · rw [one]
      omega

theorem inv_tryAcquire (t : ℤ) (inv : Inv o s) : Inv o (tryAcquire o t s).1 := by
  unfold tryAcquire
  split
  · split
    · exact inv
    · exact inv_halfOpenAcquire (inv_of_transition .halfOpen inv.aged) rfl
  · next halfOpen => exact inv_halfOpenAcquire inv halfOpen
  · exact inv_closedAcquire inv

theorem aged_set (inv : Inv o s) (found : s.slots[i]? = some slot) :
    ∀ other ∈ s.slots.set i { slot with released := true },
      other.generation ≤ s.breaker.generation := by
  intro other mem
  rcases mem_or_eq_of_mem_set mem with old | rfl
  · exact inv.aged other old
  · exact inv.aged slot (mem_of_getElem? found)

theorem outstanding_set {slots : List Slot} (found : slots[i]? = some slot) :
    outstanding ⟨b, slots.set i { slot with released := true }⟩ +
      (if isOutstanding b.generation slot then 1 else 0) = outstanding ⟨b, slots⟩ := by
  obtain ⟨within, rfl⟩ := List.getElem?_eq_some_iff.mp found
  have done : isOutstanding b.generation { slots[i] with released := true } = false := by
    simp [isOutstanding]
  have count := countP_set (p := isOutstanding b.generation) within
    (a := { slots[i] with released := true })
  have there (yes : isOutstanding b.generation slots[i] = true) :
      0 < slots.countP (isOutstanding b.generation) :=
    countP_pos_iff.mpr ⟨_, getElem_mem within, yes⟩
  rw [done] at count
  simp only [outstanding]
  rw [count]
  split
  · next yes =>
    have some_ := there yes
    simp only [Bool.false_eq_true, if_false]
    omega
  · simp only [Bool.false_eq_true, if_false]
    omega

/-- A report that leaves the period and frees the slot that it held, if it held one. -/
theorem inv_of_report (inv : Inv o s) (found : s.slots[i]? = some slot)
    (state : b.state = s.breaker.state) (generation : b.generation = s.breaker.generation)
    (inFlight : b.inFlight =
      s.breaker.inFlight - if isOutstanding s.breaker.generation slot then 1 else 0) :
    Inv o ⟨b, s.slots.set i { slot with released := true }⟩ := by
  have count := outstanding_set (b := s.breaker) found
  have same : outstanding ⟨b, s.slots.set i { slot with released := true }⟩ =
      outstanding ⟨s.breaker, s.slots.set i { slot with released := true }⟩ := by
    simp only [outstanding, generation]
  have counted : s.breaker.inFlight = outstanding ⟨s.breaker, s.slots⟩ := inv.counted
  have bounded : outstanding ⟨s.breaker, s.slots⟩ ≤ o.halfOpenMaxCalls := inv.bounded
  constructor
  · rw [generation]
    exact aged_set inv found
  · intro other mem fresh probe
    rw [generation] at fresh
    rw [state]
    rcases mem_or_eq_of_mem_set mem with old | rfl
    · exact inv.probes other old fresh probe
    · exact inv.probes slot (mem_of_getElem? found) fresh probe
  · rw [same, inFlight, counted]
    by_cases held : isOutstanding s.breaker.generation slot = true
    · rw [if_pos held] at count ⊢
      omega
    · rw [if_neg held] at count ⊢
      omega
  · rw [same]
    exact Nat.le_trans (Nat.le_trans (Nat.le_add_right _ _) (Nat.le_of_eq count)) bounded

theorem inv_release (i : Nat) (outcome : ReleaseOutcome) (t : ℤ) (inv : Inv o s) :
    Inv o (release o i outcome t s) := by
  rcases release_cases (o := o) i outcome t s with same | ⟨slot, found, unreleased, same⟩
  · rw [same]
    exact inv
  rw [same]
  have aged := aged_set inv found
  by_cases fresh : slot.generation = s.breaker.generation
  · by_cases probe : slot.probe = true
    · have held : isOutstanding s.breaker.generation slot = true := by
        simp [isOutstanding, probe, fresh, unreleased]
      rw [reported_probe probe fresh]
      cases outcome with
      | success => exact inv_of_transition .closed aged
      | failure => exact inv_of_transition .open_ aged
      | ignored => exact inv_of_report inv found rfl rfl (by rw [if_pos held])
    · have free : isOutstanding s.breaker.generation slot = false := by
        simp [isOutstanding, probe]
      rw [reported_closed (Bool.eq_false_iff.mpr probe)]
      rcases closedRelease_cases (o := o) slot outcome t s.breaker with ⟨-, kept⟩ | ⟨-, -, -, fails⟩
      · rw [kept]
        exact inv_of_report inv found rfl rfl (by simp [free])
      · obtain ⟨state, generation, inFlight, -⟩ := countFailure_frame (o := o) t s.breaker
        rw [fails]
        rcases recordClosedFailure_cases (o := o) t s.breaker with counts | ⟨-, opens⟩
        · rw [counts]
          exact inv_of_report inv found state generation (by simp [free, inFlight])
        · rw [opens]
          apply inv_of_transition .open_
          rw [show ({ countFailure o t s.breaker with openedAt := some t } : Breaker).generation =
            s.breaker.generation from generation]
          exact aged
  · have free : isOutstanding s.breaker.generation slot = false := by
      simp [isOutstanding, fresh]
    rw [reported_stale fresh]
    exact inv_of_report inv found rfl rfl (by simp [free])

theorem inv_step (s : State) (event : Event) (inv : Inv o s) : Inv o (step o s event) := by
  cases event with
  | acquire t => exact inv_tryAcquire t inv
  | report i outcome t => exact inv_release i outcome t inv

theorem inv_after (o : CircuitBreakerOptions) (events : List Event) : Inv o (after o events) :=
  runInputs_invariant (step o) (Inv o) inv_step _ inv_new events

/-- The time of a failure that a slot of the running period reports. -/
def liveFailure (s : State) : Event → Option ℤ
  | .report i .failure t =>
    (s.slots[i]?.filter fun slot =>
      !slot.released && slot.generation = s.breaker.generation).map fun _ => t
  | _ => none

def FailedProbe (s : State) (event : Event) : Prop :=
  ∃ i t slot, event = .report i .failure t ∧ s.slots[i]? = some slot ∧
    isOutstanding s.breaker.generation slot = true

inductive Move (o : CircuitBreakerOptions) (s : State) (event : Event) (t : State) : Prop
  | quiet (state : t.breaker.state = s.breaker.state)
      (generation : t.breaker.generation = s.breaker.generation)
      (failures : t.breaker.failures = s.breaker.failures)
      (windowStart : t.breaker.windowStart = s.breaker.windowStart)
      (none_ : s.breaker.state = .closed → liveFailure s event = none)
  | counts (at_ : ℤ) (closed : s.breaker.state = .closed) (live : liveFailure s event = some at_)
      (same : t.breaker = countFailure o at_ s.breaker)
  | opens (at_ : ℤ) (closed : s.breaker.state = .closed) (live : liveFailure s event = some at_)
      (reached : o.failureThreshold ≤ (countFailure o at_ s.breaker).failures)
      (same : t.breaker = openAt at_ (countFailure o at_ s.breaker))
  | tries (open_ : s.breaker.state = .open_) (state : t.breaker.state = .halfOpen)
      (generation : t.breaker.generation = s.breaker.generation + 1)
  | recovers (halfOpen : s.breaker.state = .halfOpen) (state : t.breaker.state = .closed)
      (generation : t.breaker.generation = s.breaker.generation + 1)
      (failures : t.breaker.failures = 0) (windowStart : t.breaker.windowStart = none)
  | fails (halfOpen : s.breaker.state = .halfOpen) (failed : FailedProbe s event)
      (state : t.breaker.state = .open_)
      (generation : t.breaker.generation = s.breaker.generation + 1)

theorem halfOpenAcquire_breaker (s : State) :
    (halfOpenAcquire o s).1.breaker.state = s.breaker.state ∧
      (halfOpenAcquire o s).1.breaker.generation = s.breaker.generation ∧
      (halfOpenAcquire o s).1.breaker.failures = s.breaker.failures ∧
      (halfOpenAcquire o s).1.breaker.windowStart = s.breaker.windowStart := by
  unfold halfOpenAcquire
  split <;> exact ⟨rfl, rfl, rfl, rfl⟩

theorem move_acquire (t : ℤ) (s : State) : Move o s (.acquire t) (tryAcquire o t s).1 := by
  unfold tryAcquire
  split
  · next open_ =>
    split
    · exact .quiet rfl rfl rfl rfl fun _ => rfl
    · obtain ⟨state, generation, -, -⟩ := halfOpenAcquire_breaker (o := o)
        { s with breaker := transition .halfOpen s.breaker }
      exact .tries open_ state generation
  · obtain ⟨state, generation, failures, windowStart⟩ := halfOpenAcquire_breaker (o := o) s
    exact .quiet state generation failures windowStart fun _ => rfl
  · exact .quiet rfl rfl rfl rfl fun _ => rfl

theorem liveFailure_of_stale (outcome : ReleaseOutcome) (t : ℤ) (found : s.slots[i]? = some slot)
    (stale : slot.released = true ∨ slot.generation ≠ s.breaker.generation) :
    liveFailure s (.report i outcome t) = none := by
  cases outcome with
  | success => rfl
  | ignored => rfl
  | failure =>
    rcases stale with done | old
    · simp [liveFailure, found, done]
    · simp [liveFailure, found, old]

theorem liveFailure_of_fresh (t : ℤ) (found : s.slots[i]? = some slot)
    (unreleased : slot.released = false) (fresh : slot.generation = s.breaker.generation) :
    liveFailure s (.report i .failure t) = some t := by
  simp [liveFailure, found, unreleased, fresh]

theorem move_release (i : Nat) (outcome : ReleaseOutcome) (t : ℤ) (inv : Inv o s) :
    Move o s (.report i outcome t) (release o i outcome t s) := by
  unfold release
  cases found : s.slots[i]? with
  | none =>
    refine .quiet rfl rfl rfl rfl fun _ => ?_
    cases outcome with
    | success => rfl
    | ignored => rfl
    | failure => simp [liveFailure, found]
  | some slot =>
    dsimp only
    split
    · next done =>
      exact .quiet rfl rfl rfl rfl fun _ => liveFailure_of_stale outcome t found (.inl done)
    · next unreleased =>
      have waiting : slot.released = false := Bool.eq_false_iff.mpr unreleased
      by_cases fresh : slot.generation = s.breaker.generation
      · by_cases probe : slot.probe = true
        · have halfOpen := inv.probes slot (mem_of_getElem? found) fresh probe
          have moved := reported_probe (o := o) probe fresh outcome t
          cases outcome with
          | success =>
            exact .recovers halfOpen (by rw [moved]; rfl) (by rw [moved]; rfl) (by rw [moved]; rfl)
              (by rw [moved]; rfl)
          | failure =>
            have held : isOutstanding s.breaker.generation slot = true := by
              simp [isOutstanding, probe, fresh, waiting]
            exact .fails halfOpen ⟨i, t, slot, rfl, found, held⟩ (by rw [moved]; rfl)
              (by rw [moved]; rfl)
          | ignored =>
            exact .quiet (by rw [moved]) (by rw [moved]) (by rw [moved]) (by rw [moved])
              fun _ => rfl
        · have closedSlot := reported_closed (o := o) (Bool.eq_false_iff.mpr probe) outcome t
            s.breaker
          rcases closedRelease_cases (o := o) slot outcome t s.breaker with
            ⟨other, kept⟩ | ⟨rfl, closed, -, fails⟩
          · refine .quiet (by rw [closedSlot, kept]) (by rw [closedSlot, kept])
              (by rw [closedSlot, kept]) (by rw [closedSlot, kept]) fun closed => ?_
            cases outcome with
            | success => rfl
            | ignored => rfl
            | failure => exact absurd ⟨rfl, closed, fresh⟩ other
          · have live := liveFailure_of_fresh t found waiting fresh
            rcases recordClosedFailure_cases (o := o) t s.breaker with counts | ⟨reached, opens⟩
            · exact .counts t closed live (by rw [closedSlot, fails, counts])
            · exact .opens t closed live reached (by rw [closedSlot, fails, opens])
      · have stale := reported_stale (o := o) fresh outcome t
        exact .quiet (by rw [stale]) (by rw [stale]) (by rw [stale]) (by rw [stale])
          fun _ => liveFailure_of_stale outcome t found (.inr fresh)

theorem move_step (event : Event) (inv : Inv o s) :
    Move o s event (step o s event) := by
  cases event with
  | acquire t => exact move_acquire t s
  | report i outcome t => exact move_release i outcome t inv

/-- The time of a failure that the closed breaker counts. -/
def closedFailure (x : Step State Event) : Option ℤ :=
  if x.before.breaker.state = .closed then liveFailure x.before x.label else none

/-- Failures `start :: rest` of one closed period, all inside the window that `start` begins. -/
structure FailuresOf (o : CircuitBreakerOptions) (events : List Event) (start : ℤ)
    (rest : List ℤ) : Prop where
  period : ∃ earlier closed, events = earlier ++ closed ∧
    (∀ x ∈ traceOf (step o) (after o earlier) closed, x.before.breaker.state = .closed) ∧
    (traceOf (step o) (after o earlier) closed).filterMap closedFailure = start :: rest
  inside : ∀ t ∈ rest, t - start < o.windowMs

def Counted (o : CircuitBreakerOptions) (events : List Event) (b : Breaker) : Prop :=
  b.windowStart = none ∨
    ∃ start rest, b.windowStart = some start ∧ b.failures = rest.length + 1 ∧
      FailuresOf o events start rest

theorem after_snoc (o : CircuitBreakerOptions) (events : List Event) (event : Event) :
    after o (events ++ [event]) = step o (after o events) event := by
  rw [after, runInputs_append]
  rfl

theorem trace_snoc (earlier closed : List Event) (event : Event) :
    traceOf (step o) (after o earlier) (closed ++ [event]) =
      traceOf (step o) (after o earlier) closed ++
        [⟨after o (earlier ++ closed), event, step o (after o (earlier ++ closed)) event⟩] := by
  rw [traceOf_append, ← after_append]
  rfl

theorem FailuresOf.snoc {start : ℤ} {rest : List ℤ} (failures : FailuresOf o events start rest)
    (event : Event) (closed : (after o events).breaker.state = .closed)
    (inside : ∀ t ∈ liveFailure (after o events) event, t - start < o.windowMs) :
    FailuresOf o (events ++ [event]) start
      (rest ++ (liveFailure (after o events) event).toList) := by
  obtain ⟨⟨earlier, period, rfl, all, same⟩, within⟩ := failures
  refine ⟨⟨earlier, period ++ [event], by rw [append_assoc], ?_, ?_⟩, ?_⟩
  · intro x mem
    rw [trace_snoc] at mem
    rcases mem_append.mp mem with old | new
    · exact all x old
    · rw [mem_singleton.mp new]
      exact closed
  · rw [trace_snoc, filterMap_append, same]
    cases live : liveFailure (after o (earlier ++ period)) event with
    | none => simp [closedFailure, closed, live]
    | some t => simp [closedFailure, closed, live]
  · intro t mem
    rcases mem_append.mp mem with old | new
    · exact within t old
    · exact inside t (Option.mem_toList.mp new)

theorem FailuresOf.single (closed : (after o events).breaker.state = .closed)
    (live : liveFailure (after o events) event = some t) :
    FailuresOf o (events ++ [event]) t [] := by
  refine ⟨⟨events, [event], rfl, ?_, ?_⟩, fun t mem => absurd mem not_mem_nil⟩
  · intro x mem
    rw [mem_singleton.mp mem]
    exact closed
  · simp [traceOf, closedFailure, closed, live]

theorem counted_failure (counted : Counted o events (after o events).breaker)
    (closed : (after o events).breaker.state = .closed)
    (live : liveFailure (after o events) event = some t) :
    ∃ start rest, (countFailure o t (after o events).breaker).windowStart = some start ∧
      (countFailure o t (after o events).breaker).failures = rest.length + 1 ∧
      FailuresOf o (events ++ [event]) start rest := by
  unfold countFailure
  rcases counted with none_ | ⟨start, rest, begun, number, failures⟩
  · rw [none_]
    exact ⟨t, [], rfl, rfl, .single closed live⟩
  · rw [begun]
    dsimp only
    split
    · exact ⟨t, [], rfl, rfl, .single closed live⟩
    · next running =>
      have more := failures.snoc event closed fun u here => by
        rw [live] at here
        obtain rfl := Option.mem_some_iff.mp here
        omega
      rw [live] at more
      exact ⟨start, _, rfl, by simp [number], more⟩

theorem counted_after (o : CircuitBreakerOptions) (events : List Event)
    (closed : (after o events).breaker.state = .closed) :
    Counted o events (after o events).breaker := by
  induction events using List.reverseRecOn with
  | nil => exact .inl rfl
  | append_singleton events event ih =>
    have move := move_step event (inv_after o events)
    rw [← after_snoc] at move
    cases move with
    | quiet state _ failures windowStart none_ =>
      have before := state.symm.trans closed
      rcases ih before with unset | ⟨start, rest, begun, number, ofPeriod⟩
      · exact .inl (windowStart.trans unset)
      · have more := ofPeriod.snoc event before (by simp [none_ before])
        rw [none_ before, Option.toList_none, append_nil] at more
        exact .inr ⟨start, rest, windowStart.trans begun, failures.trans number, more⟩
    | counts t before live same =>
      rw [same]
      exact .inr (counted_failure (ih before) before live)
    | opens t _ _ _ same =>
      rw [same] at closed
      cases closed
    | tries _ state => cases state.symm.trans closed
    | recovers _ _ _ _ windowStart => exact .inl windowStart
    | fails _ _ state => cases state.symm.trans closed

theorem opened (o : CircuitBreakerOptions) (events : List Event) (event : Event)
    (before : (after o events).breaker.state ≠ .open_)
    (opens : (after o (events ++ [event])).breaker.state = .open_) :
    ((after o events).breaker.state = .halfOpen ∧ FailedProbe (after o events) event) ∨
      ∃ start rest, FailuresOf o (events ++ [event]) start rest ∧
        o.failureThreshold ≤ rest.length + 1 := by
  have move := move_step event (inv_after o events)
  rw [← after_snoc] at move
  cases move with
  | quiet state => exact absurd (state.symm.trans opens) before
  | counts t closed _ same =>
    rw [same, (countFailure_frame t _).1, closed] at opens
    cases opens
  | opens t closed live reached same =>
    obtain ⟨start, rest, -, number, failures⟩ :=
      counted_failure (counted_after o events closed) closed live
    exact .inr ⟨start, rest, failures, number ▸ reached⟩
  | tries open_ => exact absurd open_ before
  | recovers _ state => cases state.symm.trans opens
  | fails halfOpen failed => exact .inl ⟨halfOpen, failed⟩

end Ultrathink.Guarantees.BreakerDiscipline
