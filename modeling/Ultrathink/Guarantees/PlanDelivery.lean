import Ultrathink.Library.Processes
import Ultrathink.Source.Host.Omp

/-!
# One delivery for each plan

What a step of the extension does to the flights and to what the host has seen is a sequence
of a few changes. The invariants are proved for one change, and hold of every run.
-/

namespace Ultrathink.Host.Omp

open List Library JsText Runs State

variable {Resolution : Type}

def isAside (g : Nat) : Entry Resolution → Bool
  | .aside g' _ => g' = g
  | _ => false

/-- The log holds one aside of the flight, after every pending note of it. -/
def Told (g : Nat) (text : Text) (log : List (Entry Resolution)) : Prop :=
  ∃ pre post, log = pre ++ .aside g text :: post ∧ (∀ e ∈ pre, isAside g e = false) ∧
    ∀ e ∈ post, isAside g e = false ∧ e ≠ .pending g

/-- The text of the aside of a flight with this content. -/
def asideText (content : Text) : Text := if content = [] then noPlanText else content

/-- A flight and what the log says of it. With `strict`, no plan of a deferred flight has
been returned by `before_agent_start`. -/
structure Fine (strict : Prop) (log : List (Entry Resolution)) (g : Nat)
    (flight : Flight Resolution) : Prop where
  stopped : flight.cancelled = true → flight.aborted = true ∧ flight.outcome.isSome
  ended : flight.settled = true →
    ∃ result, flight.outcome = some result ∧ flight.content = result.context
  unasked : flight.deferred = false → .pending g ∉ log ∧ ∀ e ∈ log, isAside g e = false
  unsettled : flight.settled = false →
    (∀ e ∈ log, isAside g e = false) ∧ ∀ c, .inline g c ∉ log
  once : log.countP (isAside g) ≤ 1
  told : flight.settled = true → flight.deferred = true → flight.cancelled = false →
    Told g (asideText flight.content) log
  apart : strict → flight.deferred = true → ∀ c, .inline g c ∉ log

/-- The flights, the map of the sessions' latest ones and the log. -/
structure Book (strict : Prop) (made : Nat → Option (Flight Resolution))
    (flights : OrderedMap Text Nat) (latest : Nat) (log : List (Entry Resolution)) : Prop where
  numbered : ∀ g flight, made g = some flight → g ≤ latest
  mapped : ∀ sessionId g, flights.get? sessionId = some g →
    ∃ flight, made g = some flight ∧ flight.sessionId = sessionId ∧ flight.cancelled = false
  held : ∀ g flight, made g = some flight → flight.cancelled = false →
    flights.get? flight.sessionId = some g
  older : ∀ g g' flight flight', made g = some flight → made g' = some flight' →
    flight.sessionId = flight'.sessionId → g < g' → flight.cancelled = true
  logged : ∀ e ∈ log, ∀ g, e.flight = some g → ∃ flight, made g = some flight
  fine : ∀ g flight, made g = some flight → Fine strict log g flight

def Inv (strict : Prop) (s : State Resolution) : Prop :=
  Book strict s.made s.flights s.latestGeneration s.log

/-- A change of a flight that neither settles, defers nor cancels it. -/
structure Moves (flight flight' : Flight Resolution) : Prop where
  sessionId : flight'.sessionId = flight.sessionId
  cancelled : flight'.cancelled = flight.cancelled
  settled : flight'.settled = flight.settled
  deferred : flight'.deferred = flight.deferred
  content : flight'.content = flight.content
  outcome : ∀ result, flight.outcome = some result → flight'.outcome = some result
  aborted : flight.aborted = true → flight'.aborted = true

/-- An entry that is neither a delivery nor a pending note of a flight. -/
def Plain (e : Entry Resolution) : Prop :=
  ∀ g, e ≠ .pending g ∧ isAside g e = false ∧ ∀ c, e ≠ .inline g c

inductive Change (strict : Prop) : State Resolution → State Resolution → Prop
  | side {s s' : State Resolution} (made : s'.made = s.made) (flights : s'.flights = s.flights)
      (latest : s'.latestGeneration = s.latestGeneration) (log : s'.log = s.log) :
      Change strict s s'
  | put {s : State Resolution} {g : Nat} {flight flight' : Flight Resolution}
      (here : s.made g = some flight) (moves : Moves flight flight') :
      Change strict s (s.put g flight')
  | cancel {s : State Resolution} (g : Nat) : Change strict s (cancel g s)
  | start {s : State Resolution} (sub : Submission) : Change strict s (start sub s)
  | note {s : State Resolution} {e : Entry Resolution} (plain : Plain e)
      (live : ∀ g, e.flight = some g → ∃ flight, s.made g = some flight ∧
        flight.cancelled = false) :
      Change strict s (s.note e)
  | defer {s : State Resolution} {g : Nat} {flight : Flight Resolution}
      (here : s.made g = some flight) (open_ : flight.outcome = none) :
      Change strict s ((s.put g { flight with deferred := true }).note (.pending g))
  | pending {s : State Resolution} {g : Nat} {flight : Flight Resolution}
      (here : s.made g = some flight) (live : flight.cancelled = false)
      (deferred : flight.deferred = true) (unsettled : flight.settled = false) :
      Change strict s (s.note (.pending g))
  | inline {s : State Resolution} {g : Nat} {flight : Flight Resolution} (content : Text)
      (here : s.made g = some flight) (live : flight.cancelled = false)
      (settled : flight.settled = true) (undeferred : strict → flight.deferred = false) :
      Change strict s (s.note (.inline g content))
  | settle {s : State Resolution} {g : Nat} {flight : Flight Resolution}
      {result : OmpPlan Resolution} (here : s.made g = some flight)
      (ended : flight.outcome = some result) (unsettled : flight.settled = false)
      (quiet : flight.deferred = false ∨ flight.cancelled = true) :
      Change strict s (s.put g (settleFlight result flight))
  | drop {s : State Resolution} {g : Nat} {flight : Flight Resolution}
      {result : OmpPlan Resolution} (here : s.made g = some flight)
      (ended : flight.outcome = some result) (unsettled : flight.settled = false) :
      Change strict s (Omp.cancel g (s.put g (settleFlight result flight)))
  | aside {s : State Resolution} {g : Nat} {flight : Flight Resolution}
      {result : OmpPlan Resolution} (here : s.made g = some flight)
      (ended : flight.outcome = some result) (unsettled : flight.settled = false)
      (deferred : flight.deferred = true) (live : flight.cancelled = false) :
      Change strict s
        ((s.put g (settleFlight result flight)).note (.aside g (asideText result.context)))

variable {g handler : Nat} {flight flight' : Flight Resolution} {e : Entry Resolution}

section Entries

variable {strict : Prop} {log : List (Entry Resolution)} {g : Nat} {flight : Flight Resolution}
  {e : Entry Resolution}

theorem Told.note {text : Text} (told : Told g text log) (other : isAside g e = false)
    (notPending : e ≠ .pending g) : Told g text (log ++ [e]) := by
  obtain ⟨pre, post, rfl, before, after⟩ := told
  refine ⟨pre, post ++ [e], by simp, before, fun e' mem => ?_⟩
  rcases mem_append.mp mem with old | new
  · exact after e' old
  · rw [mem_singleton.mp new]
    exact ⟨other, notPending⟩

theorem Fine.note (fine : Fine strict log g flight) (notPending : e ≠ .pending g)
    (other : isAside g e = false) (notInline : ∀ c, e ≠ .inline g c) :
    Fine strict (log ++ [e]) g flight := by
  refine ⟨fine.stopped, fine.ended, fun quiet => ?_, fun quiet => ?_, ?_, ?_, ?_⟩
  · obtain ⟨unasked, asides⟩ := fine.unasked quiet
    refine ⟨?_, ?_⟩
    · simpa [unasked] using notPending.symm
    · simpa [or_imp, forall_and] using ⟨asides, other⟩
  · obtain ⟨asides, inlines⟩ := fine.unsettled quiet
    refine ⟨?_, fun c => ?_⟩
    · simpa [or_imp, forall_and] using ⟨asides, other⟩
    · simpa [inlines c] using (notInline c).symm
  · simpa [countP_append, other] using fine.once
  · intro settled deferred live
    exact (fine.told settled deferred live).note other notPending
  · intro strict_ deferred c
    simpa [fine.apart strict_ deferred c] using (notInline c).symm

theorem Fine.pending (fine : Fine strict log g flight) (deferred : flight.deferred = true)
    (unsettled : flight.settled = false) : Fine strict (log ++ [.pending g]) g flight := by
  refine ⟨fine.stopped, fine.ended, ?_, fun quiet => ?_, ?_, ?_, ?_⟩
  · intro quiet
    rw [deferred] at quiet
    cases quiet
  · obtain ⟨asides, inlines⟩ := fine.unsettled quiet
    refine ⟨?_, fun c => ?_⟩
    · simpa [or_imp, forall_and, isAside] using asides
    · simpa using inlines c
  · simpa [countP_append, isAside] using fine.once
  · intro settled
    rw [unsettled] at settled
    cases settled
  · intro strict_ deferred' c
    simpa using fine.apart strict_ deferred' c

theorem Fine.inline (fine : Fine strict log g flight) (content : Text)
    (settled : flight.settled = true) (undeferred : strict → flight.deferred = false) :
    Fine strict (log ++ [.inline g content]) g flight := by
  refine ⟨fine.stopped, fine.ended, fun quiet => ?_, ?_, ?_, ?_, ?_⟩
  · obtain ⟨unasked, asides⟩ := fine.unasked quiet
    refine ⟨?_, ?_⟩
    · simpa using unasked
    · simpa [or_imp, forall_and, isAside] using asides
  · intro unsettled
    rw [settled] at unsettled
    cases unsettled
  · simpa [countP_append, isAside] using fine.once
  · intro _ deferred live
    exact (fine.told settled deferred live).note rfl (by simp)
  · intro strict_ deferred
    rw [undeferred strict_] at deferred
    cases deferred

theorem Fine.settle {result : OmpPlan Resolution} (fine : Fine strict log g flight)
    (ended : flight.outcome = some result)
    (quiet : flight.deferred = false ∨ flight.cancelled = true) :
    Fine strict log g (settleFlight result flight) := by
  refine ⟨fine.stopped, fun _ => ⟨result, ended, rfl⟩, fine.unasked, ?_, fine.once, ?_,
    fine.apart⟩
  · intro bad
    cases bad
  · intro _ deferred live
    rcases quiet with undeferred | cancelled
    · rw [show flight.deferred = true from deferred] at undeferred
      cases undeferred
    · rw [show flight.cancelled = false from live] at cancelled
      cases cancelled

theorem Fine.aside {result : OmpPlan Resolution} (fine : Fine strict log g flight)
    (ended : flight.outcome = some result) (unsettled : flight.settled = false)
    (deferred : flight.deferred = true) :
    Fine strict (log ++ [.aside g (asideText result.context)]) g (settleFlight result flight) := by
  obtain ⟨asides, inlines⟩ := fine.unsettled unsettled
  have none_ : log.countP (isAside g) = 0 := by
    rw [countP_eq_zero]
    intro e mem
    simp [asides e mem]
  refine ⟨fine.stopped, fun _ => ⟨result, ended, rfl⟩, ?_, ?_, ?_, ?_, ?_⟩
  · intro quiet
    rw [show flight.deferred = false from quiet] at deferred
    cases deferred
  · intro bad
    cases bad
  · simp [countP_append, none_, isAside]
  · intro _ _ _
    exact ⟨log, [], rfl, asides, by simp⟩
  · intro _ _ c
    simpa using inlines c

theorem Fine.moves (fine : Fine strict log g flight) (moves : Moves flight flight') :
    Fine strict log g flight' := by
  refine ⟨?_, ?_, ?_, ?_, fine.once, ?_, ?_⟩
  · intro cancelled
    rw [moves.cancelled] at cancelled
    obtain ⟨aborted, ended⟩ := fine.stopped cancelled
    obtain ⟨result, value⟩ := Option.isSome_iff_exists.mp ended
    exact ⟨moves.aborted aborted, by rw [moves.outcome result value]; rfl⟩
  · intro settled
    rw [moves.settled] at settled
    obtain ⟨result, value, same⟩ := fine.ended settled
    exact ⟨result, moves.outcome result value, moves.content.trans same⟩
  · rw [moves.deferred]
    exact fine.unasked
  · rw [moves.settled]
    exact fine.unsettled
  · rw [moves.settled, moves.deferred, moves.cancelled, moves.content]
    exact fine.told
  · rw [moves.deferred]
    exact fine.apart

theorem Fine.cancel (fine : Fine strict log g flight) : Fine strict log g (cancelFlight flight) := by
  refine ⟨fun _ => ⟨rfl, ?_⟩, ?_, fine.unasked, fine.unsettled, fine.once, ?_, fine.apart⟩
  · cases ended : flight.outcome <;> simp [cancelFlight, finishFlight, ended]
  · intro settled
    obtain ⟨result, value, same⟩ := fine.ended settled
    exact ⟨result, by simp [cancelFlight, finishFlight, value], same⟩
  · intro _ _ live
    cases live

end Entries

section Changes

variable {strict : Prop} {s s' : State Resolution}

theorem Inv.put_log (inv : Inv strict s) {log : List (Entry Resolution)}
    (here : s.made g = some flight) (sessionId : flight'.sessionId = flight.sessionId)
    (cancelled : flight'.cancelled = flight.cancelled)
    (logged : ∀ e ∈ log, ∀ h, e.flight = some h → ∃ value, s.made h = some value)
    (fine : Fine strict log g flight')
    (others : ∀ h value, h ≠ g → s.made h = some value → Fine strict log h value) :
    Inv strict { s.put g flight' with log := log } := by
  refine ⟨?_, ?_, ?_, ?_, ?_, ?_⟩
  · intro h value there
    rcases Processes.update_some there with ⟨rfl, -⟩ | ⟨-, was⟩
    · exact inv.numbered h flight here
    · exact inv.numbered h value was
  · intro session h there
    obtain ⟨value, was, session', live⟩ := inv.mapped session h there
    by_cases same : h = g
    · subst same
      cases here.symm.trans was
      exact ⟨flight', Function.update_self .., sessionId.trans session', cancelled.trans live⟩
    · exact ⟨value, (Function.update_of_ne same _ _).trans was, session', live⟩
  · intro h value there live
    rcases Processes.update_some there with ⟨rfl, rfl⟩ | ⟨-, was⟩
    · rw [sessionId]
      exact inv.held h flight here (cancelled.symm.trans live)
    · exact inv.held h value was live
  · intro h h' value value' there there' session before
    rcases Processes.update_some there with ⟨rfl, rfl⟩ | ⟨-, was⟩ <;>
      rcases Processes.update_some there' with ⟨rfl, rfl⟩ | ⟨-, was'⟩
    · omega
    · rw [cancelled]
      exact inv.older h h' flight value' here was' (sessionId.symm.trans session) before
    · exact inv.older h h' value flight was here (session.trans sessionId) before
    · exact inv.older h h' value value' was was' session before
  · intro e mem h from_
    obtain ⟨value, was⟩ := logged e mem h from_
    by_cases same : h = g
    · subst same
      exact ⟨flight', Function.update_self ..⟩
    · exact ⟨value, (Function.update_of_ne same _ _).trans was⟩
  · intro h value there
    rcases Processes.update_some there with ⟨rfl, rfl⟩ | ⟨apart, was⟩
    · exact fine
    · exact others h value apart was

theorem Inv.put (inv : Inv strict s) (here : s.made g = some flight)
    (sessionId : flight'.sessionId = flight.sessionId)
    (cancelled : flight'.cancelled = flight.cancelled) (fine : Fine strict s.log g flight') :
    Inv strict (s.put g flight') :=
  inv.put_log here sessionId cancelled inv.logged fine fun h value _ => inv.fine h value

theorem Inv.note (inv : Inv strict s)
    (made : ∀ g, e.flight = some g → ∃ flight, s.made g = some flight)
    (fine : ∀ g flight, s.made g = some flight → Fine strict (s.log ++ [e]) g flight) :
    Inv strict (s.note e) := by
  refine ⟨inv.numbered, inv.mapped, inv.held, inv.older, ?_, fine⟩
  intro e' mem
  rcases mem_append.mp mem with old | new
  · exact inv.logged e' old
  · rw [mem_singleton.mp new]
    exact made

theorem Fine.other {log : List (Entry Resolution)} {h : Nat} (fine : Fine strict log h flight)
    (about : e.flight = some g) (other : h ≠ g) : Fine strict (log ++ [e]) h flight := by
  refine fine.note ?_ ?_ ?_
  · rintro rfl
    exact other (Option.some.inj about)
  · cases e with
    | aside g' c =>
      cases about
      simpa [isAside] using other.symm
    | _ => rfl
  · rintro c rfl
    exact other (Option.some.inj about)

theorem Inv.note_of (inv : Inv strict s) (here : s.made g = some flight) (about : e.flight = some g)
    (fine : Fine strict (s.log ++ [e]) g flight) : Inv strict (s.note e) := by
  refine inv.note (fun h from_ => ?_) (fun h value there => ?_)
  · rw [about] at from_
    cases from_
    exact ⟨flight, here⟩
  · by_cases same : h = g
    · subst same
      cases here.symm.trans there
      exact fine
    · exact (inv.fine h value there).other about same

theorem Inv.cancel (inv : Inv strict s) (g : Nat) : Inv strict (cancel g s) := by
  unfold Omp.cancel
  cases here : s.made g with
  | none => exact inv
  | some flight =>
    simp only
    split
    · exact inv
    next live =>
      have live : flight.cancelled = false := by simpa using live
      have mine := inv.held g flight here live
      rw [if_pos mine]
      refine ⟨?_, ?_, ?_, ?_, ?_, ?_⟩
      · intro h value there
        rcases Processes.update_some there with ⟨rfl, -⟩ | ⟨-, was⟩
        · exact inv.numbered h flight here
        · exact inv.numbered h value was
      · intro session h there
        rw [OrderedMap.get?_erase] at there
        split at there
        · cases there
        next other =>
          obtain ⟨value, was, session', live'⟩ := inv.mapped session h there
          have apart : h ≠ g := by
            rintro rfl
            cases here.symm.trans was
            exact other session'.symm
          exact ⟨value, (Function.update_of_ne apart _ _).trans was, session', live'⟩
      · intro h value there live'
        rcases Processes.update_some there with ⟨rfl, rfl⟩ | ⟨apart, was⟩
        · cases live'
        · rw [OrderedMap.get?_erase, if_neg, inv.held h value was live']
          intro session
          have there' := inv.held h value was live'
          rw [session, mine] at there'
          exact apart (Option.some.inj there').symm
      · intro h h' value value' there there' session before
        rcases Processes.update_some there with ⟨rfl, rfl⟩ | ⟨-, was⟩
        · rfl
        · rcases Processes.update_some there' with ⟨rfl, rfl⟩ | ⟨-, was'⟩
          · exact inv.older h h' value flight was here session before
          · exact inv.older h h' value value' was was' session before
      · intro e mem h from_
        obtain ⟨value, was⟩ := inv.logged e mem h from_
        by_cases same : h = g
        · subst same
          exact ⟨_, Function.update_self ..⟩
        · exact ⟨value, (Function.update_of_ne same _ _).trans was⟩
      · intro h value there
        rcases Processes.update_some there with ⟨rfl, rfl⟩ | ⟨-, was⟩
        · exact (inv.fine h flight here).cancel
        · exact inv.fine h value was

theorem Inv.put_note (inv : Inv strict s) (here : s.made g = some flight)
    (about : e.flight = some g) (sessionId : flight'.sessionId = flight.sessionId)
    (cancelled : flight'.cancelled = flight.cancelled)
    (fine : Fine strict (s.log ++ [e]) g flight') : Inv strict ((s.put g flight').note e) := by
  refine inv.put_log here sessionId cancelled (fun e' mem h from_ => ?_) fine ?_
  · rcases mem_append.mp mem with old | new
    · exact inv.logged e' old h from_
    · rw [mem_singleton.mp new, about] at from_
      cases from_
      exact ⟨flight, here⟩
  · intro h value other there
    exact (inv.fine h value there).other about other

theorem cancel_put (here : s.made g = some flight) (live : flight.cancelled = false)
    (sessionId : flight'.sessionId = flight.sessionId) (live' : flight'.cancelled = false) :
    cancel g (s.put g flight') = (cancel g s).put g (cancelFlight flight') := by
  simp only [Omp.cancel, State.put, Function.update_self, here, live, live', sessionId,
    Function.update_idem, Bool.false_eq_true, if_false]

theorem Inv.fresh (inv : Inv strict s) (mem : e ∈ s.log) :
    e.flight ≠ some (s.latestGeneration + 1) := by
  intro about
  obtain ⟨flight, here⟩ := inv.logged e mem _ about
  have bound := inv.numbered _ flight here
  omega

theorem Inv.fine_new (inv : Inv strict s) (cancelled : flight.cancelled = false)
    (settled : flight.settled = false) (deferred : flight.deferred = false) :
    Fine strict s.log (s.latestGeneration + 1) flight := by
  have asides : ∀ e ∈ s.log, isAside (s.latestGeneration + 1) e = false := by
    intro e mem
    have other := inv.fresh mem
    cases e with
    | aside h c =>
      have apart : h ≠ s.latestGeneration + 1 := fun same => other (congrArg some same)
      simpa [isAside] using apart
    | _ => rfl
  refine ⟨?_, ?_, fun _ => ⟨fun mem => inv.fresh mem rfl, asides⟩,
    fun _ => ⟨asides, fun c mem => inv.fresh mem rfl⟩, ?_, ?_, ?_⟩
  · intro bad
    rw [cancelled] at bad
    cases bad
  · intro bad
    rw [settled] at bad
    cases bad
  · rw [countP_eq_zero.mpr]
    · exact Nat.zero_le 1
    · intro e mem
      simp [asides e mem]
  · intro bad
    rw [settled] at bad
    cases bad
  · intro _ bad
    rw [deferred] at bad
    cases bad

theorem made_start (inv : Inv strict s) (sub : Submission) :
    (∃ flight, (start sub s).made (s.latestGeneration + 1) = some flight ∧
      flight.sessionId = sub.sessionId ∧ flight.cancelled = false ∧ flight.settled = false ∧
      flight.deferred = false) ∧
    ∀ h ≠ s.latestGeneration + 1,
      ((start sub s).made h = none ∧ s.made h = none) ∨
        ∃ old value, s.made h = some old ∧ (start sub s).made h = some value ∧
          value.sessionId = old.sessionId ∧ (old.cancelled = true → value.cancelled = true) ∧
          (old.sessionId = sub.sessionId → value.cancelled = true) ∧
          (old.sessionId ≠ sub.sessionId → value = old) ∧ Fine strict s.log h value := by
  unfold start
  cases mine : s.flights.get? sub.sessionId with
  | none =>
    refine ⟨⟨_, Function.update_self .., rfl, rfl, rfl, rfl⟩, fun h other => ?_⟩
    simp only [put, Function.update_of_ne other]
    cases there : s.made h with
    | none => exact Or.inl ⟨rfl, rfl⟩
    | some old =>
      refine Or.inr ⟨old, old, rfl, rfl, rfl, id, fun session => ?_, fun _ => rfl,
        inv.fine h old there⟩
      cases live : old.cancelled with
      | true => rfl
      | false =>
        have held := inv.held h old there live
        rw [session, mine] at held
        cases held
  | some p =>
    obtain ⟨previous, there, session, live⟩ := inv.mapped _ p mine
    have bound := inv.numbered p previous there
    have apart : p ≠ s.latestGeneration + 1 := by omega
    simp only [Omp.cancel, put, Function.update_of_ne apart, there, live, Bool.false_eq_true,
      if_false]
    refine ⟨⟨_, (Function.update_of_ne apart.symm _ _).trans (Function.update_self ..),
      rfl, rfl, rfl, rfl⟩, fun h other => ?_⟩
    by_cases same : h = p
    · subst same
      refine Or.inr ⟨previous, cancelFlight previous, there, Function.update_self .., rfl,
        fun _ => rfl, fun _ => rfl, fun bad => absurd session bad, ?_⟩
      exact (inv.fine h previous there).cancel
    · simp only [Function.update_of_ne same, Function.update_of_ne other]
      cases was : s.made h with
      | none => exact Or.inl ⟨rfl, rfl⟩
      | some old =>
        refine Or.inr ⟨old, old, rfl, rfl, rfl, id, fun session' => ?_, fun _ => rfl,
          inv.fine h old was⟩
        cases live' : old.cancelled with
        | true => rfl
        | false =>
          have held := inv.held h old was live'
          rw [session', mine] at held
          exact absurd (Option.some.inj held).symm same

theorem start_frame (inv : Inv strict s) (sub : Submission) :
    (start sub s).flights = s.flights.set sub.sessionId (s.latestGeneration + 1) ∧
      (start sub s).latestGeneration = s.latestGeneration + 1 ∧ (start sub s).log = s.log := by
  unfold start
  cases mine : s.flights.get? sub.sessionId with
  | none => exact ⟨rfl, rfl, rfl⟩
  | some p =>
    obtain ⟨previous, there, session, live⟩ := inv.mapped _ p mine
    have bound := inv.numbered p previous there
    have apart : p ≠ s.latestGeneration + 1 := by omega
    simp only [Omp.cancel, put, Function.update_of_ne apart, there, live, Bool.false_eq_true,
      if_false, session, OrderedMap.get?_set_self, Option.some.injEq, apart.symm]
    exact ⟨trivial, trivial, trivial⟩

theorem Inv.start (inv : Inv strict s) (sub : Submission) : Inv strict (start sub s) := by
  obtain ⟨⟨new, newHere, newSession, newLive, newUnsettled, newQuiet⟩, others⟩ :=
    made_start inv sub
  obtain ⟨flights, latest, log⟩ := start_frame inv sub
  have old : ∀ h value, (Omp.start sub s).made h = some value → h ≠ s.latestGeneration + 1 →
      ∃ before, s.made h = some before ∧ value.sessionId = before.sessionId ∧
        (before.cancelled = true → value.cancelled = true) ∧
        (before.sessionId = sub.sessionId → value.cancelled = true) ∧
        (before.sessionId ≠ sub.sessionId → value = before) ∧ Fine strict s.log h value := by
    intro h value there other
    rcases others h other with ⟨none_, -⟩ | ⟨before, value', was, now, facts⟩
    · rw [none_] at there
      cases there
    · cases now.symm.trans there
      exact ⟨before, was, facts⟩
  unfold Inv
  rw [flights, latest, log]
  refine ⟨?_, ?_, ?_, ?_, ?_, ?_⟩
  · intro h value there
    by_cases fresh : h = s.latestGeneration + 1
    · omega
    · obtain ⟨before, was, -⟩ := old h value there fresh
      have bound := inv.numbered h before was
      omega
  · intro session h there
    rw [OrderedMap.get?_set] at there
    split at there
    next same =>
      cases there
      exact ⟨new, newHere, newSession.trans same.symm, newLive⟩
    next other =>
      obtain ⟨value, was, session', live⟩ := inv.mapped session h there
      have bound := inv.numbered h value was
      have apart : h ≠ s.latestGeneration + 1 := by omega
      rcases others h apart with ⟨-, none_⟩ | ⟨before, value', was', now, -, -, -, kept, -⟩
      · rw [none_] at was
        cases was
      · cases was.symm.trans was'
        have same := kept (by rw [session']; exact other)
        exact ⟨value', now, by rw [same]; exact session', by rw [same]; exact live⟩
  · intro h value there live
    by_cases fresh : h = s.latestGeneration + 1
    · subst fresh
      cases newHere.symm.trans there
      rw [newSession]
      exact OrderedMap.get?_set_self ..
    · obtain ⟨before, was, session, -, gone, kept, -⟩ := old h value there fresh
      have elsewhere : before.sessionId ≠ sub.sessionId := by
        intro same
        rw [gone same] at live
        cases live
      rw [kept elsewhere, OrderedMap.get?_set_of_ne _ _ elsewhere]
      rw [kept elsewhere] at live
      exact inv.held h before was live
  · intro h h' value value' there there' session before
    by_cases fresh : h = s.latestGeneration + 1
    · by_cases fresh' : h' = s.latestGeneration + 1
      · omega
      · obtain ⟨was', here', -⟩ := old h' value' there' fresh'
        have bound := inv.numbered h' was' here'
        omega
    · obtain ⟨was, here, session', lasting, gone, -⟩ := old h value there fresh
      by_cases fresh' : h' = s.latestGeneration + 1
      · subst fresh'
        cases newHere.symm.trans there'
        exact gone (session'.symm.trans (session.trans newSession))
      · obtain ⟨was', here', session'', -⟩ := old h' value' there' fresh'
        refine lasting (inv.older h h' was was' here here' ?_ before)
        exact session'.symm.trans (session.trans session'')
  · intro e mem h about
    obtain ⟨flight, was⟩ := inv.logged e mem h about
    by_cases fresh : h = s.latestGeneration + 1
    · exact absurd (about.trans (congrArg some fresh)) (inv.fresh mem)
    · rcases others h fresh with ⟨-, none_⟩ | ⟨before, value, -, now, -⟩
      · rw [none_] at was
        cases was
      · exact ⟨value, now⟩
  · intro h value there
    by_cases fresh : h = s.latestGeneration + 1
    · subst fresh
      cases newHere.symm.trans there
      exact inv.fine_new newLive newUnsettled newQuiet
    · obtain ⟨-, -, -, -, -, -, fine⟩ := old h value there fresh
      exact fine

theorem Change.inv (change : Change strict s s') (inv : Inv strict s) : Inv strict s' := by
  cases change with
  | side made flights latest log =>
    unfold Inv
    rw [made, flights, latest, log]
    exact inv
  | put here moves =>
    exact inv.put here moves.sessionId moves.cancelled ((inv.fine _ _ here).moves moves)
  | cancel g => exact inv.cancel g
  | start sub => exact inv.start sub
  | note plain live =>
    refine inv.note (fun g about => ?_) fun g flight here => ?_
    · obtain ⟨flight, here, -⟩ := live g about
      exact ⟨flight, here⟩
    · obtain ⟨notPending, other, notInline⟩ := plain g
      exact (inv.fine g flight here).note notPending other notInline
  | @defer g flight here open_ =>
    have fine := inv.fine g flight here
    have unsettled : flight.settled = false := by
      cases settled : flight.settled with
      | false => rfl
      | true =>
        obtain ⟨result, ended, -⟩ := fine.ended settled
        rw [open_] at ended
        cases ended
    have deferred : Fine strict s.log g { flight with deferred := true } := by
      refine ⟨fine.stopped, fine.ended, ?_, fine.unsettled, fine.once, ?_, ?_⟩
      · intro bad
        cases bad
      · intro bad
        rw [show flight.settled = true from bad] at unsettled
        cases unsettled
      · exact fun _ _ => (fine.unsettled unsettled).2
    exact inv.put_note here rfl rfl rfl (deferred.pending rfl unsettled)
  | pending here live deferred unsettled =>
    exact inv.note_of here rfl ((inv.fine _ _ here).pending deferred unsettled)
  | inline content here live settled undeferred =>
    exact inv.note_of here rfl ((inv.fine _ _ here).inline content settled undeferred)
  | settle here ended _ quiet =>
    exact inv.put here rfl rfl ((inv.fine _ _ here).settle ended quiet)
  | @drop g flight result here ended _ =>
    have fine := inv.fine g flight here
    cases live : flight.cancelled with
    | true =>
      have settled : Inv strict (s.put g (settleFlight result flight)) :=
        inv.put here rfl rfl (fine.settle ended (Or.inr live))
      exact settled.cancel g
    | false =>
      have settled : Fine strict s.log g (settleFlight result (cancelFlight flight)) :=
        fine.cancel.settle (by simp [cancelFlight, finishFlight, ended]) (Or.inr rfl)
      have gone : (Omp.cancel g s).made g = some (cancelFlight flight) := by
        simp [Omp.cancel, State.put, here, live]
      have log : (Omp.cancel g s).log = s.log := by
        simp [Omp.cancel, State.put, here, live]
      have swapped : Omp.cancel g (s.put g (settleFlight result flight)) =
          (Omp.cancel g s).put g (settleFlight result (cancelFlight flight)) :=
        cancel_put here live rfl live
      rw [swapped]
      exact (inv.cancel g).put gone rfl rfl (by rw [log]; exact settled)
  | aside here ended unsettled deferred live =>
    exact inv.put_note here rfl rfl rfl ((inv.fine _ _ here).aside ended unsettled deferred)

/-- A cancelled flight stays so, and the log says nothing more of it. -/
def Over (g : Nat) (s s' : State Resolution) : Prop :=
  ∀ flight, s.made g = some flight → flight.cancelled = true →
    (∃ flight', s'.made g = some flight' ∧ flight'.cancelled = true) ∧
      s'.log.filter (fun e => e.flight = some g) = s.log.filter (fun e => e.flight = some g)

theorem Over.trans {s s' s'' : State Resolution} (first : Over g s s') (second : Over g s' s'') :
    Over g s s'' := by
  intro flight here cancelled
  obtain ⟨⟨flight', here', cancelled'⟩, same⟩ := first flight here cancelled
  obtain ⟨last, same'⟩ := second flight' here' cancelled'
  exact ⟨last, same'.trans same⟩

theorem over_put {g h : Nat} {flight flight' : Flight Resolution} (here : s.made h = some flight)
    (kept : flight.cancelled = true → flight'.cancelled = true) : Over g s (s.put h flight') := by
  intro value there cancelled
  by_cases same : g = h
  · subst same
    cases here.symm.trans there
    exact ⟨⟨flight', Function.update_self .., kept cancelled⟩, rfl⟩
  · exact ⟨⟨value, (Function.update_of_ne same _ _).trans there, cancelled⟩, rfl⟩

theorem over_note (live : ∀ h, e.flight = some h → ∃ flight, s.made h = some flight ∧
      flight.cancelled = false) : Over g s (s.note e) := by
  intro value there cancelled
  refine ⟨⟨value, there, cancelled⟩, ?_⟩
  have other : e.flight ≠ some g := by
    intro about
    obtain ⟨flight, here, live⟩ := live g about
    cases here.symm.trans there
    rw [live] at cancelled
    cases cancelled
  simp [note, filter_append, other]

theorem over_cancel (g h : Nat) (s : State Resolution) : Over g s (cancel h s) := by
  unfold cancel
  cases here : s.made h with
  | none => exact fun value there cancelled => ⟨⟨value, there, cancelled⟩, rfl⟩
  | some flight =>
    simp only
    split
    · exact fun value there cancelled => ⟨⟨value, there, cancelled⟩, rfl⟩
    · exact @over_put _ s g h flight (cancelFlight flight) here fun _ => rfl

theorem live_of (here : s.made g = some flight) (live : flight.cancelled = false)
    (about : e.flight = some g) : ∀ h, e.flight = some h →
      ∃ flight, s.made h = some flight ∧ flight.cancelled = false := by
  intro h about'
  cases about.symm.trans about'
  exact ⟨flight, here, live⟩

theorem Change.over (change : Change strict s s') (inv : Inv strict s) (g : Nat) :
    Over g s s' := by
  cases change with
  | side made flights latest log =>
    intro value there cancelled
    rw [made, log]
    exact ⟨⟨value, there, cancelled⟩, rfl⟩
  | put here moves => exact over_put here fun cancelled => moves.cancelled.trans cancelled
  | cancel h => exact over_cancel g h s
  | start sub =>
    intro value there cancelled
    have bound := inv.numbered g value there
    obtain ⟨-, others⟩ := made_start inv sub
    obtain ⟨-, -, log⟩ := start_frame inv sub
    rcases others g (by omega) with ⟨-, none_⟩ | ⟨before, value', was, now, -, kept, -⟩
    · rw [none_] at there
      cases there
    · cases was.symm.trans there
      rw [log]
      exact ⟨⟨value', now, kept cancelled⟩, rfl⟩
  | note plain live => exact over_note live
  | @defer h flight here open_ =>
    have live : flight.cancelled = false := by
      cases cancelled : flight.cancelled with
      | false => rfl
      | true =>
        have ended := ((inv.fine h flight here).stopped cancelled).2
        rw [open_] at ended
        cases ended
    have put : Over g s (s.put h { flight with deferred := true }) := over_put here id
    exact put.trans (over_note (live_of (Function.update_self ..) live rfl))
  | pending here live deferred unsettled => exact over_note (live_of here live rfl)
  | inline content here live settled undeferred => exact over_note (live_of here live rfl)
  | @settle h flight result here ended unsettled quiet =>
    exact @over_put _ s g h flight (settleFlight result flight) here id
  | @drop h flight result here ended unsettled =>
    have put : Over g s (s.put h (settleFlight result flight)) := over_put here id
    exact put.trans (over_cancel g h _)
  | @aside h flight result here ended unsettled deferred live =>
    have put : Over g s (s.put h (settleFlight result flight)) := over_put here id
    exact put.trans (over_note (live_of (Function.update_self ..) live rfl))

end Changes

abbrev Changes (strict : Prop) : State Resolution → State Resolution → Prop :=
  Relation.ReflTransGen (Change strict)

section Steps

variable {strict : Prop} {s s' : State Resolution}

theorem Changes.inv (changes : Changes strict s s') (inv : Inv strict s) : Inv strict s' := by
  induction changes with
  | refl => exact inv
  | tail _ last ih => exact last.inv ih

theorem Changes.over (changes : Changes strict s s') (inv : Inv strict s) (g : Nat) :
    Over g s s' := by
  induction changes with
  | refl => exact fun value there cancelled => ⟨⟨value, there, cancelled⟩, rfl⟩
  | tail before last ih => exact ih.trans (last.over (Changes.inv before inv) g)

theorem Changes.one (change : Change strict s s') : Changes strict s s' :=
  Relation.ReflTransGen.single change

theorem changes_foldl {f : State Resolution → Nat → State Resolution}
    (each : ∀ s g, Changes strict s (f s g)) (l : List Nat) (s : State Resolution) :
    Changes strict s (l.foldl f s) := by
  induction l generalizing s with
  | nil => exact .refl
  | cons g rest ih => exact (each s g).trans (ih (f s g))

theorem current_changes (same : Bool) (g : Nat) (s : State Resolution) :
    Changes strict s (current same g s).2 := by
  unfold current
  split
  · split
    · exact .refl
    · exact .one (.cancel g)
  · exact .refl

theorem observeFlights_changes (sessionId cwd : Text) (same : Nat → Bool)
    (s : State Resolution) : Changes strict s (observeFlights sessionId cwd same s) := by
  refine changes_foldl (fun s g => ?_) s.flights.values s
  unfold visit
  cases s.made g with
  | none => exact .refl
  | some flight =>
    simp only
    split
    · exact .one (.cancel g)
    · exact current_changes (same g) g s

theorem endFlights_changes (s : State Resolution) : Changes strict s (endFlights s) := by
  have ended : Changes strict s (s.flights.values.foldl (fun s g => cancel g s) s) :=
    changes_foldl (fun s g => .one (.cancel g)) s.flights.values s
  exact ended.tail (.side rfl rfl rfl rfl)

theorem cancelOwned_changes (sessionId : Text) (s : State Resolution) :
    Changes strict s (cancelOwned sessionId s) := by
  unfold cancelOwned
  cases s.flights.get? sessionId with
  | none => exact .refl
  | some older => exact .one (.cancel older)

theorem owns_iff (inv : Inv strict s) (here : s.made g = some flight) :
    owns g s = true ↔ flight.cancelled = false := by
  unfold owns
  simp only [here, Bool.and_eq_true, Bool.not_eq_true', decide_eq_true_eq, and_iff_left_iff_imp]
  exact inv.held g flight here

theorem observe_changes {g : Nat} {flight : Flight Resolution} (here : s.made g = some flight)
    (live : flight.cancelled = false) (record : Option Resolution) :
    Changes strict s (observe g record s) := by
  cases record with
  | none => exact .refl
  | some record =>
    refine .one (.note ?_ (live_of here live rfl))
    exact fun h => ⟨by simp, rfl, by simp⟩

theorem settle_changes (inv : Inv strict s) {same : Bool} (stepped : settle same g s = some s') :
    Changes strict s s' := by
  unfold settle at stepped
  cases here : s.made g with
  | none => simp [here] at stepped
  | some flight =>
    simp only [here] at stepped
    cases ended : flight.outcome with
    | none => simp [ended] at stepped
    | some result =>
      cases unsettled : flight.settled with
      | true => simp [ended, unsettled] at stepped
      | false =>
        simp only [ended, unsettled] at stepped
        cases live : flight.cancelled with
        | true =>
          have settled := @Change.settle _ strict _ _ _ _ here ended unsettled (Or.inr live)
          have lost : owns g (s.put g (settleFlight result flight)) = false := by
            simp [owns, put, settleFlight, live]
          simp only [current, lost] at stepped
          cases stepped
          exact .one settled
        | false =>
          have owned : owns g (s.put g (settleFlight result flight)) = true := by
            simp [owns, put, settleFlight, live, inv.held g flight here live]
          simp only [current, owned, if_true] at stepped
          cases same with
          | false =>
            cases stepped
            exact .one (.drop here ended unsettled)
          | true =>
            have seen := @observe_changes _ strict _ _ _ here live result.modelResolution
            have here' : (observe g result.modelResolution s).made g = some flight := by
              cases result.modelResolution <;> exact here
            have commute : observe g result.modelResolution (s.put g (settleFlight result flight)) =
                (observe g result.modelResolution s).put g (settleFlight result flight) := by
              cases result.modelResolution <;> rfl
            cases deferred : flight.deferred with
            | false =>
              simp only [deferred] at stepped
              cases stepped
              rw [commute]
              exact seen.tail (.settle here' ended unsettled (Or.inl deferred))
            | true =>
              simp only [deferred] at stepped
              cases stepped
              rw [commute]
              exact seen.tail (.aside here' ended unsettled deferred live)

theorem onEvent_changes (inv : Inv strict s) {event : ProgressEvent Resolution}
    (stepped : onEvent event g s = some s') : Changes strict s s' := by
  unfold onEvent at stepped
  cases here : s.made g with
  | none => simp [here] at stepped
  | some flight =>
    simp only [here] at stepped
    split at stepped
    · cases stepped
    · split at stepped
      · cases stepped
        exact .refl
      next owned =>
        have live : flight.cancelled = false := by
          refine (owns_iff inv here).mp ?_
          simp only [Bool.or_eq_true, Bool.not_eq_true', not_or] at owned
          simpa using owned.2
        cases event with
        | resolved record =>
          cases stepped
          exact observe_changes here live record
        | activity =>
          simp only at stepped
          split at stepped
          · cases stepped
            refine .one (.note (fun h => ⟨by simp, rfl, by simp⟩) (live_of here live rfl))
          · cases stepped
            exact .refl

theorem isCurrent_changes {same : Bool} (stepped : isCurrent same g s = some s') :
    Changes strict s s' := by
  unfold isCurrent at stepped
  cases here : s.made g with
  | none => simp [here] at stepped
  | some flight =>
    simp only [here] at stepped
    split at stepped
    · cases stepped
    · split at stepped
      · cases stepped
        exact .refl
      · cases stepped
        exact current_changes same g s

theorem moves_finish (result : OmpPlan Resolution) (flight : Flight Resolution) :
    Moves flight (finishFlight result flight) := by
  refine ⟨rfl, rfl, rfl, rfl, rfl, fun old ended => ?_, id⟩
  simp [finishFlight, ended]

theorem planned_changes {result : OmpPlan Resolution} (stepped : planned result g s = some s') :
    Changes strict s s' := by
  unfold planned at stepped
  cases here : s.made g with
  | none => simp [here] at stepped
  | some flight =>
    simp only [here] at stepped
    split at stepped
    · cases stepped
      exact .one (.put here (moves_finish result flight))
    · cases stepped

theorem deadline_changes (stepped : deadline g s = some s') : Changes strict s s' := by
  unfold deadline at stepped
  cases here : s.made g with
  | none => simp [here] at stepped
  | some flight =>
    simp only [here] at stepped
    split at stepped
    · cases stepped
      have moves := moves_finish noPlan flight
      exact .one (.put here ⟨rfl, rfl, rfl, rfl, rfl, moves.outcome, fun _ => rfl⟩)
    · cases stepped

theorem raceTimeout_changes (stepped : raceTimeout handler s = some s') :
    Changes strict s s' := by
  unfold raceTimeout at stepped
  split at stepped
  next g there =>
    cases here : s.made g with
    | none => simp [here] at stepped
    | some flight =>
      simp only [here] at stepped
      cases open_ : flight.outcome with
      | some result => simp [open_] at stepped
      | none =>
        have forgotten : Change strict s (forget handler s) := .side rfl rfl rfl rfl
        rw [if_neg (by simp [open_])] at stepped
        split at stepped
        · cases stepped
          exact .one forgotten
        · cases stepped
          have deferred := @Change.defer _ strict (forget handler s) g flight here open_
          exact (Changes.one forgotten).tail deferred
  · cases stepped

/-- The step does not return the plan of a flight that was deferred to its aside. -/
def ReturnsUndeferred (x : Runs.Step (State Resolution) (Event Resolution)) : Prop :=
  match x.label with
  | .resume handler => ∀ g flight result, x.before.handlers handler = some (.waiting g) →
      x.before.made g = some flight → flight.outcome = some result → result.context ≠ [] →
      flight.cancelled = false → flight.deferred = false
  | _ => True

theorem resume_changes (stepped : resume handler s = some s')
    (met : strict → ReturnsUndeferred ⟨s, .resume handler, s'⟩) : Changes strict s s' := by
  unfold resume at stepped
  split at stepped
  next g there =>
    cases here : s.made g with
    | none => simp [here] at stepped
    | some flight =>
      simp only [here] at stepped
      cases ended : flight.outcome with
      | none => simp [ended] at stepped
      | some result =>
        cases settled : flight.settled with
        | false => simp [ended, settled] at stepped
        | true =>
          have forgotten : Change strict s (forget handler s) := .side rfl rfl rfl rfl
          simp only [ended, settled] at stepped
          cases live : flight.cancelled with
          | true =>
            simp only [live, if_true] at stepped
            cases stepped
            exact .one forgotten
          | false =>
            simp only [live, Bool.false_eq_true, if_false] at stepped
            split at stepped
            · split at stepped
              · cases stepped
                refine (Changes.one forgotten).tail (.note ?_ (live_of here live rfl))
                exact fun h => ⟨by simp, rfl, by simp⟩
              · cases stepped
                exact .one forgotten
            next some_ =>
              cases stepped
              refine (Changes.one forgotten).tail (.inline result.context here live settled ?_)
              exact fun strict_ => met strict_ g flight result there here ended some_ live
  · cases stepped

theorem proceed_changes {maxRun : Bool} (stepped : proceed maxRun handler s = some s') :
    Changes strict s s' := by
  unfold proceed at stepped
  split at stepped
  next g there =>
    cases stepped
    refine Relation.ReflTransGen.tail (b := admitPlanner maxRun g s) ?_ (.side rfl rfl rfl rfl)
    unfold admitPlanner
    cases here : s.made g with
    | none => exact .refl
    | some flight =>
      simp only
      split
      · exact .refl
      · exact Changes.one (.put here ⟨rfl, rfl, rfl, rfl, rfl, fun _ => id, id⟩)
  · cases stepped

theorem sameFlight_changes (sub : Submission) (s : State Resolution) :
    Changes strict s (sameFlight sub s).2 := by
  unfold sameFlight
  cases s.flights.get? sub.sessionId with
  | none => exact .refl
  | some g =>
    simp only
    cases s.made g with
    | none => exact .refl
    | some flight =>
      simp only
      split
      · split
        · exact .refl
        · exact .one (.cancel g)
      · exact .refl

theorem sameFlight_some (inv : Inv strict s) {sub : Submission}
    (found : sameFlight sub s = (some (g, flight), s')) :
    s' = s ∧ s.made g = some flight ∧ flight.cancelled = false := by
  unfold sameFlight at found
  cases mine : s.flights.get? sub.sessionId with
  | none => simp [mine] at found
  | some h =>
    obtain ⟨value, here, -, live⟩ := inv.mapped _ h mine
    simp only [mine, here] at found
    split at found
    · split at found
      · cases found
        exact ⟨rfl, here, live⟩
      · cases found
    · cases found

theorem plan_changes (inv : Inv strict s) (sub : Submission) : Changes strict s (plan sub s) := by
  unfold plan
  cases found : sameFlight sub s with
  | mk same after =>
    have before := @sameFlight_changes _ strict sub s
    rw [found] at before
    cases same with
    | none =>
      exact (before.tail (.start sub)).tail (.side rfl rfl rfl rfl)
    | some value =>
      obtain ⟨g, flight⟩ := value
      obtain ⟨rfl, here, live⟩ := sameFlight_some inv found
      simp only
      split
      next deferred =>
        split
        · exact .refl
        next unsettled =>
          exact .one (.pending here live deferred (by simpa using unsettled))
      next undeferred =>
        split
        next settled =>
          split
          · exact .refl
          · exact .one (.inline flight.content here live settled
              fun _ => by simpa using undeferred)
        · exact .one (.side rfl rfl rfl rfl)

theorem maybeAutoRun_changes (sub : Submission) (s : State Resolution) :
    Changes strict s (maybeAutoRun sub s).2 := by
  unfold maybeAutoRun
  split
  · have spawned : Change strict s
        (s.note (.spawn sub.sessionId sub.cwd sub.prompt sub.started)) :=
      .note (fun h => ⟨by simp, rfl, by simp⟩) fun g about => by cases about
    simp only
    split
    · exact .one spawned
    · exact .one spawned
    · have ended := @cancelOwned_changes _ strict sub.sessionId
        (s.note (.spawn sub.sessionId sub.cwd sub.prompt sub.started))
      exact ((Changes.one spawned).trans ended).tail (.side rfl rfl rfl rfl)
  · exact .refl

theorem submitPrompt_changes (inv : Inv strict s) (sub : Submission) :
    Changes strict s (submitPrompt sub s) := by
  unfold submitPrompt
  have lane := @maybeAutoRun_changes _ strict sub s
  cases tried : maybeAutoRun sub s with
  | mk owned after =>
    rw [tried] at lane
    cases owned with
    | true => exact lane
    | false => exact lane.trans (plan_changes (Changes.inv lane inv) sub)

theorem beforeAgentStart_changes (inv : Inv strict s) (sub : Submission) :
    Changes strict s (beforeAgentStart sub s) := by
  unfold beforeAgentStart
  split
  · exact .refl
  · cases s.quick with
    | none => exact submitPrompt_changes inv sub
    | some quick =>
      simp only
      split
      · split
        · exact (cancelOwned_changes sub.sessionId s).tail (.side rfl rfl rfl rfl)
        · exact .one (.side rfl rfl rfl rfl)
      · have disarmed : Change strict s { s with quick := none } := .side rfl rfl rfl rfl
        exact (Changes.one disarmed).trans (submitPrompt_changes (disarmed.inv inv) sub)

theorem step_changes (inv : Inv strict s) {maxRun : Bool} {event : Event Resolution}
    (stepped : step maxRun s event = some s')
    (met : strict → ReturnsUndeferred ⟨s, event, s'⟩) : Changes strict s s' := by
  cases event with
  | submit sub =>
    cases stepped
    exact beforeAgentStart_changes inv sub
  | proceed handler => exact proceed_changes stepped
  | raceTimeout handler => exact raceTimeout_changes stepped
  | resume handler => exact resume_changes stepped met
  | planner g event => exact onEvent_changes inv stepped
  | isCurrent g same => exact isCurrent_changes stepped
  | planned g result => exact planned_changes stepped
  | deadline g => exact deadline_changes stepped
  | settle g same => exact settle_changes inv stepped
  | turnStart sessionId cwd same =>
    cases stepped
    exact (observeFlights_changes sessionId cwd same s).tail (.side rfl rfl rfl rfl)
  | observed sessionId cwd same =>
    cases stepped
    exact observeFlights_changes sessionId cwd same s
  | sessionStart =>
    cases stepped
    exact .one (.side rfl rfl rfl rfl)
  | sessionSwitch =>
    cases stepped
    exact (endFlights_changes s).tail (.side rfl rfl rfl rfl)
  | sessionShutdown =>
    cases stepped
    have down : Change strict s { s with shutDown := true } := .side rfl rfl rfl rfl
    exact (Changes.one down).trans (endFlights_changes _)
  | quick sessionId text =>
    cases stepped
    exact .one (.side rfl rfl rfl rfl)
  | quickFailed =>
    cases stepped
    exact .one (.side rfl rfl rfl rfl)

end Steps

section Sequences

variable {strict : Prop} {maxRun : Bool} {s : State Resolution}
  {steps : List (Runs.Step (State Resolution) (Event Resolution))}

theorem inv_initial (strict : Prop) : Inv strict (State.initial : State Resolution) := by
  refine ⟨?_, ?_, ?_, ?_, ?_, ?_⟩
  · intro g flight bad
    cases bad
  · intro sessionId g bad
    cases bad
  · intro g flight bad
    cases bad
  · intro g g' flight flight' bad
    cases bad
  · intro e bad
    cases bad
  · intro g flight bad
    cases bad

theorem inv_of_run {first : State Resolution} (begins : Inv strict first)
    (run : (system Resolution maxRun).Run first steps s)
    (met : strict → ∀ x ∈ steps, ReturnsUndeferred x) : Inv strict s := by
  refine run.invariant_of (Inv strict) (fun x => strict → ReturnsUndeferred x) begins ?_
    fun x mem strict_ => met strict_ x mem
  intro m event n stepped undeferred inv
  exact Changes.inv (step_changes inv stepped undeferred) inv

theorem over_of_run (run : (system Resolution maxRun).Run State.initial steps s)
    {x : Runs.Step (State Resolution) (Event Resolution)} (mem : x ∈ steps) (g : Nat) :
    Over g x.before s := by
  induction run with
  | refl => cases mem
  | @tail m t old event head last ih =>
    have inv := inv_of_run (inv_initial False) head fun bad => bad.elim
    have since := Changes.over (step_changes inv last fun bad => bad.elim) inv g
    rcases mem_append.mp mem with older | new
    · exact (ih older).trans since
    · rw [mem_singleton.mp new]
      exact since

/-- In every run in which no waiting handler returns the plan of a flight that was deferred:
a session has one flight that is not cancelled, and earlier ones are aborted; a cancelled
flight sends and records nothing more; a plan is returned or sent aside, and aside once; and
a pending note is followed by one aside as soon as its flight settles, which it can once it
has an outcome. -/
theorem plan_delivered_once (run : (system Resolution maxRun).Run State.initial steps s)
    (met : ∀ x ∈ steps, ReturnsUndeferred x) :
    (∀ g g' flight flight', s.made g = some flight → s.made g' = some flight' →
      flight.sessionId = flight'.sessionId → flight.cancelled = false →
      flight'.cancelled = false → g = g') ∧
    (∀ g g' flight flight', s.made g = some flight → s.made g' = some flight' →
      flight.sessionId = flight'.sessionId → g < g' →
      flight.cancelled = true ∧ flight.aborted = true) ∧
    (∀ x ∈ steps, ∀ g flight, x.before.made g = some flight → flight.cancelled = true →
      s.log.filter (fun e => e.flight = some g) =
        x.before.log.filter (fun e => e.flight = some g)) ∧
    (∀ g flight, s.made g = some flight → s.log.countP (isAside g) ≤ 1 ∧
      ((∃ content, .inline g content ∈ s.log) → s.log.countP (isAside g) = 0)) ∧
    (∀ g flight, s.made g = some flight → flight.cancelled = false → .pending g ∈ s.log →
      (flight.settled = true → Told g (asideText flight.content) s.log) ∧
      (flight.settled = false → s.log.countP (isAside g) = 0 ∧
        (flight.outcome.isSome → ∀ same, (step maxRun s (.settle g same)).isSome))) := by
  have inv : Inv True s := inv_of_run (inv_initial True) run fun _ => met
  refine ⟨?_, ?_, ?_, ?_, ?_⟩
  · intro g g' flight flight' here here' session live live'
    have held := inv.held g flight here live
    rw [session, inv.held g' flight' here' live'] at held
    exact (Option.some.inj held).symm
  · intro g g' flight flight' here here' session before
    have cancelled := inv.older g g' flight flight' here here' session before
    exact ⟨cancelled, ((inv.fine g flight here).stopped cancelled).1⟩
  · intro x mem g flight here cancelled
    exact (over_of_run run mem g flight here cancelled).2
  · intro g flight here
    have fine := inv.fine g flight here
    refine ⟨fine.once, ?_⟩
    rintro ⟨content, mem⟩
    have undeferred : flight.deferred = false := by
      cases deferred : flight.deferred with
      | false => rfl
      | true => exact absurd mem (fine.apart trivial deferred content)
    rw [countP_eq_zero]
    intro e there
    simp [(fine.unasked undeferred).2 e there]
  · intro g flight here live mem
    have fine := inv.fine g flight here
    refine ⟨fun settled => ?_, fun unsettled => ⟨?_, fun ended same => ?_⟩⟩
    · refine fine.told settled ?_ live
      cases deferred : flight.deferred with
      | true => rfl
      | false => exact absurd mem (fine.unasked deferred).1
    · rw [countP_eq_zero]
      intro e there
      simp [(fine.unsettled unsettled).1 e there]
    · obtain ⟨result, value⟩ := Option.isSome_iff_exists.mp ended
      simp only [step, settle, here, value, unsettled]
      split
      · rfl
      · split <;> rfl

end Sequences

/-- A prompt of one session, with no lane. -/
def onePrompt : Submission where
  prompt := js "fix it"
  cwd := js "/repo"
  sessionId := js "s"
  subagent := false
  autoRun := false
  swarmRoot := false
  sdlc := false
  started := none
  unchanged := true

/-- The race times out, and then the planner answers. -/
def lateAnswer : List (Event Nat) :=
  [.submit onePrompt, .proceed 0, .raceTimeout 0, .planned 1 ⟨js "plan", some 7⟩, .settle 1 true]

/-- A second run of the same submission waits when the first one's race times out. -/
def overlapping : List (Event Nat) :=
  [.submit onePrompt, .proceed 0, .submit onePrompt, .raceTimeout 0,
    .planned 1 ⟨js "plan", some 7⟩, .settle 1 true, .resume 1]

theorem plan_delivered_once_late :
    ∃ s : State Nat, s.log = [.pending 1, .resolution 1 7, .aside 1 (js "plan")] ∧
      s.log.countP (isAside 1) ≤ 1 := by
  have run : (system Nat false).Run State.initial (traceOf (stepped (step false)) State.initial
      lateAnswer) (runInputs (stepped (step false)) State.initial lateAnswer) := by
    refine run_stepped State.initial lateAnswer ?_
    simp only [lateAnswer, traceOf, forall_mem_cons]
    decide
  refine ⟨runInputs (stepped (step false)) State.initial lateAnswer, by decide, ?_⟩
  refine (((plan_delivered_once run ?_).2.2.2.1 1 ((runInputs (stepped (step false))
    State.initial lateAnswer).made 1 |>.get (by decide)) ?_)).1
  · simp [lateAnswer, traceOf, ReturnsUndeferred]
  · exact (Option.some_get _).symm

theorem plan_delivered_twice :
    ∃ (s : State Nat) (steps : List (Runs.Step (State Nat) (Event Nat))),
      (system Nat false).Run State.initial steps s ∧
      .inline 1 (js "plan") ∈ s.log ∧ .aside 1 (js "plan") ∈ s.log := by
  refine ⟨runInputs (stepped (step false)) State.initial overlapping,
    traceOf (stepped (step false)) State.initial overlapping, run_stepped _ _ ?_,
    by decide, by decide⟩
  simp only [overlapping, traceOf, forall_mem_cons]
  decide

end Ultrathink.Host.Omp
