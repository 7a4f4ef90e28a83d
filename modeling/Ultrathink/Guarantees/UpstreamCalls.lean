import Ultrathink.Source.Engine.OpenRouter

/-!
# Accounting of one upstream call

Every exit of the loop of `complete` is one way to end a run (`Ends`); what a run sends, acquires,
releases and reports is read off the ways by induction.
-/

namespace Ultrathink.Guarantees.UpstreamCalls

open List Library JsText Source.Engine.OpenRouter

def sentOf (events : List Event) : List Nat :=
  events.filterMap fun e => match e with
    | .sent attempt => some attempt
    | _ => none

def acquiredOf (events : List Event) : List Nat :=
  events.filterMap fun e => match e with
    | .acquired slot => some slot
    | _ => none

def releasedOf (events : List Event) : List Nat :=
  events.filterMap fun e => match e with
    | .released slot _ => some slot
    | _ => none

def usagesOf (events : List Event) : List OpenRouterUsage :=
  events.filterMap fun e => match e with
    | .usage usage => some usage
    | _ => none

def callsOf (events : List Event) : List OpenRouterCallInfo :=
  events.filterMap fun e => match e with
    | .called info => some info
    | _ => none

/-- Nothing is sent behind a success status, and no slot is taken behind its release. -/
def InOrder (first later : Event) : Prop :=
  (∀ status attempt, first = .received status → isOk status = true → later ≠ .sent attempt) ∧
    ∀ slot outcome, first = .released slot outcome → later ≠ .acquired slot

section Projections

variable (s t : List Event)

@[simp] theorem sentOf_append : sentOf (s ++ t) = sentOf s ++ sentOf t := filterMap_append

@[simp] theorem acquiredOf_append : acquiredOf (s ++ t) = acquiredOf s ++ acquiredOf t :=
  filterMap_append

@[simp] theorem releasedOf_append : releasedOf (s ++ t) = releasedOf s ++ releasedOf t :=
  filterMap_append

@[simp] theorem usagesOf_append : usagesOf (s ++ t) = usagesOf s ++ usagesOf t := filterMap_append

@[simp] theorem callsOf_append : callsOf (s ++ t) = callsOf s ++ callsOf t := filterMap_append

theorem mem_acquiredOf {slot : Nat} : slot ∈ acquiredOf s ↔ Event.acquired slot ∈ s := by
  rw [acquiredOf, mem_filterMap]
  constructor
  · rintro ⟨e, mem, same⟩
    cases e with
    | acquired own =>
      obtain rfl := Option.some.inj same
      exact mem
    | _ => cases same
  · intro mem
    exact ⟨_, mem, rfl⟩

end Projections

def tried (o : Options) (t : Turn) (attempt : Nat) : List Event :=
  (if o.breaker then [.acquired attempt] else []) ++ [.sent attempt] ++ statusSeen t.met ++
    if o.breaker then [.released attempt (releaseOutcome (exchange o.untilDate t.met))] else []

def Unsuccessful (met : Exchange) : Prop := ∀ status, Event.received status ∈ statusSeen met → isOk status = false

inductive Ends (o : Options) : Nat → List Event → Except OpenRouterError Text → Prop
  | refused (made : Nat) (code : OpenRouterErrorCode) (retryAfterMs : Option ℚ) :
    Ends o made (report (some code) none made) (.error ⟨code, none, retryAfterMs⟩)
  | returned (made : Nat) (t : Turn) (text : Text) (usage : OpenRouterUsage) :
    Ends o made (tried o t (made + 1) ++ [.usage usage] ++ report none none (made + 1)) (.ok text)
  | failed (made : Nat) (t : Turn) (error : OpenRouterError) :
    Ends o made (tried o t (made + 1) ++ report (some error.code) error.status (made + 1)) (.error error)
  | again (made : Nat) (t : Turn) (waits : List ℚ) (rest : List Event)
    (result : Except OpenRouterError Text) (more : made < MAX_RETRIES) (unsuccessful : Unsuccessful t.met)
    (later : Ends o (made + 1) rest result) :
    Ends o made (tried o t (made + 1) ++ waits.map Event.slept ++ rest) result

theorem unsuccessful_of_retry {untilDate : UntilDate} {met : Exchange} {error : OpenRouterError}
    {retryAfterMs : Option ℚ} (result : exchange untilDate met = .failed error true retryAfterMs) :
    Unsuccessful met := by
  intro status mem
  cases met with
  | lost cause => cases mem
  | answered own retryAfter body =>
    obtain rfl := Event.received.inj (mem_singleton.mp mem)
    rw [Bool.eq_false_iff]
    intro ok
    dsimp only [exchange] at result
    rw [if_pos ok] at result
    cases body with
    | declaredTooLong => cases result
    | broken cause => cases cause <;> cases result
    | tooLong => cases result
    | whole raw =>
      dsimp only [parseCompletion] at result
      split at result
      · cases result
      · split at result
        · cases result
        · split at result
          · cases result
          · cases result

section Runs

variable {o : Options} {turns : Nat → Turn}

theorem pass_cases (t : Turn) (made : Nat) :
    (∃ code ms, pass o t made made = (report (some code) none made, .threw ⟨code, none, ms⟩)) ∨
    (∃ text usage, pass o t made made =
      (tried o t (made + 1) ++ [.usage usage] ++ report none none (made + 1), .returned text)) ∨
    (∃ error, pass o t made made =
      (tried o t (made + 1) ++ report (some error.code) error.status (made + 1), .threw error)) ∨
    ∃ waits : List ℚ, made < MAX_RETRIES ∧ Unsuccessful t.met ∧
      pass o t made made = (tried o t (made + 1) ++ waits.map Event.slept, .again) := by
  unfold Source.Engine.OpenRouter.pass
  by_cases aborted : t.aborted = true
  · rw [if_pos aborted]
    exact .inl ⟨_, _, rfl⟩
  · rw [if_neg aborted]
    split
    · exact .inl ⟨_, _, rfl⟩
    · dsimp only
      cases result : exchange o.untilDate t.met with
      | ok text usage =>
        refine .inr (.inl ⟨text, usage, ?_⟩)
        simp only [tried, result]
      | failed error retry retryAfterMs =>
        dsimp only
        by_cases stop : retry = false ∨ MAX_RETRIES ≤ made
        · rw [if_pos stop]
          refine .inr (.inr (.inl ⟨error, ?_⟩))
          simp only [tried, result]
        · rw [if_neg stop]
          rw [not_or, Bool.not_eq_false, Nat.not_le] at stop
          have unsuccessful := unsuccessful_of_retry (stop.1 ▸ result)
          refine .inr (.inr (.inr ?_))
          by_cases opened : (o.breaker && t.opened) = true
          · refine ⟨[], stop.2, unsuccessful, ?_⟩
            rw [if_pos opened]
            simp only [tried, result, map_nil, append_nil]
          · refine ⟨[retryAfterMs.getD (backoffMs made t.jitter)], stop.2, unsuccessful, ?_⟩
            rw [if_neg opened]
            simp only [tried, result, map_cons, map_nil]

theorem loop_ends (fuel made : Nat) (enough : MAX_RETRIES + 1 ≤ made + fuel) (most : made ≤ MAX_RETRIES) :
    ∃ events result, loop o turns fuel made made = some (events, result) ∧ Ends o made events result := by
  induction fuel generalizing made with
  | zero => omega
  | succ fuel ih =>
    unfold loop
    rcases pass_cases (o := o) (turns made) made with
      ⟨code, ms, same⟩ | ⟨text, usage, same⟩ | ⟨error, same⟩ | ⟨waits, more, unsuccessful, same⟩
    · rw [same]
      exact ⟨_, _, rfl, .refused made code ms⟩
    · rw [same]
      exact ⟨_, _, rfl, .returned made (turns made) text usage⟩
    · rw [same]
      exact ⟨_, _, rfl, .failed made (turns made) error⟩
    · obtain ⟨rest, result, run, ends⟩ := ih (made + 1) (by omega) (by omega)
      rw [same]
      dsimp only
      rw [run]
      exact ⟨_, _, rfl, .again made (turns made) waits rest result more unsuccessful ends⟩

end Runs

section Accounts

variable (o : Options) (t : Turn) (attempt : Nat)

/-- What is taken and given back for some attempts. -/
def slots (attempts : List Nat) : List Nat := if o.breaker then attempts else []

theorem sentOf_tried : sentOf (tried o t attempt) = [attempt] := by
  cases slot : o.breaker <;> cases met : t.met <;> simp [tried, slot, met, sentOf, statusSeen]

theorem acquiredOf_tried : acquiredOf (tried o t attempt) = slots o [attempt] := by
  cases slot : o.breaker <;> cases met : t.met <;> simp [tried, slot, met, acquiredOf, statusSeen, slots]

theorem releasedOf_tried : releasedOf (tried o t attempt) = slots o [attempt] := by
  cases slot : o.breaker <;> cases met : t.met <;> simp [tried, slot, met, releasedOf, statusSeen, slots]

theorem usagesOf_tried : usagesOf (tried o t attempt) = [] := by
  cases slot : o.breaker <;> cases met : t.met <;> simp [tried, slot, met, usagesOf, statusSeen]

theorem callsOf_tried : callsOf (tried o t attempt) = [] := by
  cases slot : o.breaker <;> cases met : t.met <;> simp [tried, slot, met, callsOf, statusSeen]

end Accounts

section Waits

variable (waits : List ℚ)

theorem sentOf_waits : sentOf (waits.map Event.slept) = [] := by simp [sentOf, filterMap_map]

theorem acquiredOf_waits : acquiredOf (waits.map Event.slept) = [] := by
  simp [acquiredOf, filterMap_map]

theorem releasedOf_waits : releasedOf (waits.map Event.slept) = [] := by
  simp [releasedOf, filterMap_map]

theorem usagesOf_waits : usagesOf (waits.map Event.slept) = [] := by simp [usagesOf, filterMap_map]

theorem callsOf_waits : callsOf (waits.map Event.slept) = [] := by simp [callsOf, filterMap_map]

end Waits

/-- The outcome that `onCall` is told of a result. -/
def outcomeOf : Except OpenRouterError Text → Option OpenRouterErrorCode
  | .ok _ => none
  | .error error => some error.code

/-- What the attempts behind `made` others add up to. -/
structure Accounted (o : Options) (made : Nat) (events : List Event)
    (result : Except OpenRouterError Text) (attempts : Nat) : Prop where
  few : made + attempts ≤ MAX_RETRIES + 1
  sent : sentOf events = List.range' (made + 1) attempts
  acquired : acquiredOf events = slots o (List.range' (made + 1) attempts)
  released : releasedOf events = slots o (List.range' (made + 1) attempts)
  usages : (usagesOf events).length = if result.isOk then 1 else 0
  calls : ∃ status, callsOf events = [⟨outcomeOf result, status, made + attempts⟩]

variable {o : Options} {made : Nat} {events : List Event} {result : Except OpenRouterError Text}

theorem accounted_of_ends (ends : Ends o made events result) (most : made ≤ MAX_RETRIES) :
    ∃ attempts, Accounted o made events result attempts := by
  induction ends with
  | refused made code ms =>
    exact ⟨0, by omega, rfl, by simp [slots, report, acquiredOf], by simp [slots, report, releasedOf], rfl,
      none, rfl⟩
  | returned made t text usage =>
    refine ⟨1, by omega, ?_, ?_, ?_, ?_, none, ?_⟩
    · rw [sentOf_append, sentOf_append, sentOf_tried]
      rfl
    · rw [acquiredOf_append, acquiredOf_append, acquiredOf_tried, append_assoc]
      exact append_nil _
    · rw [releasedOf_append, releasedOf_append, releasedOf_tried, append_assoc]
      exact append_nil _
    · rw [usagesOf_append, usagesOf_append, usagesOf_tried]
      rfl
    · rw [callsOf_append, callsOf_append, callsOf_tried]
      rfl
  | failed made t error =>
    refine ⟨1, by omega, ?_, ?_, ?_, ?_, error.status, ?_⟩
    · rw [sentOf_append, sentOf_tried]
      rfl
    · rw [acquiredOf_append, acquiredOf_tried]
      exact append_nil _
    · rw [releasedOf_append, releasedOf_tried]
      exact append_nil _
    · rw [usagesOf_append, usagesOf_tried]
      rfl
    · rw [callsOf_append, callsOf_tried]
      rfl
  | again made t waits rest result more unsuccessful later ih =>
    obtain ⟨attempts, few, sent, acquired, released, usages, status, calls⟩ := ih (by omega)
    have next : List.range' (made + 1) (attempts + 1) = (made + 1) :: List.range' (made + 1 + 1) attempts :=
      range'_succ ..
    have slotsNext : slots o (List.range' (made + 1) (attempts + 1)) =
        slots o [made + 1] ++ slots o (List.range' (made + 1 + 1) attempts) := by
      rw [next, slots, slots, slots]
      split
      · rfl
      · rfl
    refine ⟨attempts + 1, by omega, ?_, ?_, ?_, ?_, status, ?_⟩
    · rw [sentOf_append, sentOf_append, sentOf_tried, sentOf_waits, sent, next]
      rfl
    · rw [acquiredOf_append, acquiredOf_append, acquiredOf_tried, acquiredOf_waits, acquired, slotsNext,
        append_nil]
    · rw [releasedOf_append, releasedOf_append, releasedOf_tried, releasedOf_waits, released, slotsNext,
        append_nil]
    · rw [usagesOf_append, usagesOf_append, usagesOf_tried, usagesOf_waits]
      exact usages
    · rw [callsOf_append, callsOf_append, callsOf_tried, callsOf_waits, calls,
        show made + 1 + attempts = made + (attempts + 1) by omega]
      rfl

theorem inOrder_tried (o : Options) (t : Turn) (attempt : Nat) : (tried o t attempt).Pairwise InOrder := by
  cases slot : o.breaker <;> cases met : t.met <;> simp [tried, slot, met, statusSeen, InOrder]

theorem mem_tried {t : Turn} {attempt : Nat} {e : Event} (mem : e ∈ tried o t attempt) :
    (∀ status, e = .received status → .received status ∈ statusSeen t.met) ∧
      ∀ slot outcome, e = .released slot outcome → slot = attempt := by
  constructor
  · rintro status rfl
    cases slot : o.breaker <;> simp [tried, slot] at mem <;> exact mem
  · rintro own outcome rfl
    cases slot : o.breaker <;> cases met : t.met <;> simp [tried, slot, met, statusSeen] at mem
    · exact mem.1
    · exact mem.1

theorem inOrder_quiet {first later : Event} (notSent : ∀ attempt, later ≠ .sent attempt)
    (notAcquired : ∀ slot, later ≠ .acquired slot) : InOrder first later :=
  ⟨fun _ attempt _ _ => notSent attempt, fun slot _ _ => notAcquired slot⟩

theorem inOrder_of_ends (ends : Ends o made events result) (most : made ≤ MAX_RETRIES) :
    events.Pairwise InOrder := by
  induction ends with
  | refused made code ms => exact pairwise_singleton ..
  | returned made t text usage =>
    rw [append_assoc, pairwise_append]
    refine ⟨inOrder_tried .., by simp [report, InOrder], ?_⟩
    intro first _ later mem
    simp only [report, mem_append, mem_singleton] at mem
    rcases mem with rfl | rfl
    · exact inOrder_quiet (by simp) (by simp)
    · exact inOrder_quiet (by simp) (by simp)
  | failed made t error =>
    rw [pairwise_append]
    refine ⟨inOrder_tried .., by simp [report], ?_⟩
    intro first _ later mem
    rw [report, mem_singleton] at mem
    subst mem
    exact inOrder_quiet (by simp) (by simp)
  | again made t waits rest result more unsuccessful later ih =>
    obtain ⟨attempts, accounted⟩ := accounted_of_ends later (by omega)
    rw [pairwise_append, pairwise_append]
    refine ⟨⟨inOrder_tried .., ?_, ?_⟩, ih (by omega), ?_⟩
    · rw [pairwise_map]
      exact pairwise_of_forall fun _ _ => inOrder_quiet (by simp) (by simp)
    · intro first _ wait mem
      obtain ⟨ms, -, rfl⟩ := mem_map.mp mem
      exact inOrder_quiet (by simp) (by simp)
    · intro first mem e within
      rcases mem_append.mp mem with early | waited
      · obtain ⟨seen, own⟩ := mem_tried early
        refine ⟨?_, ?_⟩
        · intro status attempt received ok
          rw [unsuccessful status (seen status received)] at ok
          exact Bool.noConfusion ok
        · rintro slot outcome released rfl
          obtain rfl := own slot outcome released
          rw [← mem_acquiredOf, accounted.acquired, slots] at within
          split at within
          · have := (mem_range'_1.mp within).1
            omega
          · cases within
      · obtain ⟨ms, -, rfl⟩ := mem_map.mp waited
        exact ⟨by simp, by simp⟩

/-- Whatever happens, a call ends, with at most three requests, each slot released once and after it was
taken, nothing sent behind a success status, usage reported with a text and only then, and one report
of the attempts made. -/
theorem complete_accounts (o : Options) (turns : Nat → Turn) :
    ∃ events result, complete o turns = some (events, result) ∧
      (sentOf events).length ≤ 3 ∧
      acquiredOf events = (if o.breaker then sentOf events else []) ∧
      releasedOf events = acquiredOf events ∧ (acquiredOf events).Nodup ∧
      events.Pairwise InOrder ∧
      (usagesOf events).length = (if result.isOk then 1 else 0) ∧
      ∃ status, callsOf events = [⟨outcomeOf result, status, (sentOf events).length⟩] := by
  obtain ⟨events, result, run, ends⟩ := @loop_ends o turns (MAX_RETRIES + 1) 0 (by omega) (Nat.zero_le _)
  obtain ⟨attempts, few, sent, acquired, released, usages, status, calls⟩ :=
    accounted_of_ends ends (Nat.zero_le _)
  have length : (sentOf events).length = attempts := by rw [sent, length_range']
  refine ⟨events, result, run, ?_, ?_, ?_, ?_, inOrder_of_ends ends (Nat.zero_le _), usages, status, ?_⟩
  · rw [length]
    have three : MAX_RETRIES + 1 = 3 := rfl
    omega
  · rw [acquired, sent, slots]
  · rw [released, acquired]
  · rw [acquired, slots]
    split
    · exact nodup_range' ..
    · exact nodup_nil
  · rw [calls, length, Nat.zero_add]

end Ultrathink.Guarantees.UpstreamCalls
