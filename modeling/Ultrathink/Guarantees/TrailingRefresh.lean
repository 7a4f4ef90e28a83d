import Ultrathink.Source.TokenOpt.Refresh
import Mathlib.Tactic.Linarith

/-!
# A trailing refresh reads alone, in time, and after every call

What the log of any run says of one `createTrailingRefresh`: how its reads lie, and that a
call that was skipped has a read or a timer still to come.
-/

namespace Ultrathink.Guarantees.TrailingRefresh

open Library.Runs Source.TokenOpt.Refresh

def busy : List Entry → Bool
  | [] => false
  | .began _ _ :: _ => true
  | .ended _ :: _ => false
  | .called _ _ :: rest => busy rest

def lastEnd : List Entry → Option Time
  | [] => none
  | .ended at_ :: _ => some at_
  | _ :: rest => lastEnd rest

/-- An unforced call that no read has followed. -/
def unanswered : List Entry → Bool
  | [] => false
  | .began _ _ :: _ => false
  | .called false _ :: _ => true
  | _ :: rest => unanswered rest

/-- Each read begins while none runs, and one that no forced call started begins at least
`minMs` after the last one ended. -/
def Spaced (minMs : Time) : List Entry → Prop
  | [] => True
  | .began force at_ :: rest =>
    busy rest = false ∧ (force = false → ∀ e, lastEnd rest = some e → e + minMs ≤ at_) ∧
      Spaced minMs rest
  | _ :: rest => Spaced minMs rest

/-- At most one timer is set: the one that a forced call would cancel, which waits for the end
of the window while no read is in flight. -/
def Timed (minMs : Time) (r : Refresh) : Prop :=
  (r.cancelTimer = none ∧ r.timers = []) ∨
    ∃ id due, r.cancelTimer = some id ∧ r.timers = [(id, due)] ∧ r.inFlight = none ∧
      r.lastAt + minMs ≤ due

structure Inv (minMs : Time) (s : State) : Prop where
  spaced : Spaced minMs s.log
  reading : busy s.log = decide (s.refresh.inFlight = some .reading)
  timers : Timed minMs s.refresh
  ended : s.refresh.inFlight = none → ∀ e, lastEnd s.log = some e → e ≤ s.refresh.lastAt
  endedClock : ∀ e, lastEnd s.log = some e → e ≤ s.clock
  owed : unanswered s.log = true →
    (s.refresh.inFlight ≠ none ∧ s.refresh.skipped = true) ∨ s.refresh.timers ≠ []

variable {minMs now later : Time} {s : State} {id : Nat} {timer : Nat × Time}

theorem inv_start (first : Start s) : Inv minMs s := by
  obtain ⟨fresh, empty⟩ := first
  obtain ⟨r, clock, log⟩ := s
  subst fresh empty
  exact ⟨trivial, rfl, Or.inl ⟨rfl, rfl⟩, by simp [lastEnd], by simp [lastEnd],
    (fun bad => by cases bad)⟩

theorem timed_schedule {minMs now : Time} {r : Refresh} (timed : Timed minMs r)
    (idle : r.inFlight = none) :
    Timed minMs (schedule minMs now r) ∧ (schedule minMs now r).timers ≠ [] := by
  rcases timed with ⟨unset, empty⟩ | ⟨id, due, set_, pending, -, window⟩
  · have window : r.lastAt + minMs ≤ now + max 0 (r.lastAt + minMs - now) := by
      have late := le_max_right 0 (r.lastAt + minMs - now)
      linarith
    simp only [schedule, unset, empty]
    exact ⟨Or.inr ⟨_, _, rfl, rfl, idle, window⟩, by simp⟩
  · simp only [schedule, set_]
    exact ⟨Or.inr ⟨id, due, set_, pending, idle, window⟩, by simp [pending]⟩

theorem schedule_rest (minMs now : Time) (r : Refresh) :
    (schedule minMs now r).inFlight = r.inFlight ∧ (schedule minMs now r).lastAt = r.lastAt ∧
      (schedule minMs now r).skipped = r.skipped := by
  unfold schedule
  split <;> exact ⟨rfl, rfl, rfl⟩

theorem timed_start {r : Refresh} (timed : Timed minMs r) :
    Timed minMs (start (clearTimer r)) := by
  rcases timed with ⟨unset, empty⟩ | ⟨id, due, set_, pending, -⟩
  · simp only [clearTimer, unset, start]
    exact Or.inl ⟨rfl, empty⟩
  · simp only [clearTimer, set_, start, pending]
    exact Or.inl ⟨rfl, by simp⟩

section Steps
variable {minMs : Time} {r : Refresh} {clock : Time} {log : List Entry}

theorem idle_of_not (idle : ¬r.inFlight.isSome = true) : r.inFlight = none := by
  simpa using idle

theorem call_inv (inv : Inv minMs ⟨r, clock, log⟩) {force : Bool} (first : clock ≤ now)
    (second : now ≤ later) :
    Inv minMs ⟨(call minMs force now later r).1, later,
      if (call minMs force now later r).2 then .began force later :: .called force now :: log
      else .called force now :: log⟩ := by
  have clocked : ∀ e, lastEnd log = some e → e ≤ later :=
    fun e last => le_trans (inv.endedClock e last) (le_trans first second)
  unfold call
  split
  next flying =>
    have some_ : r.inFlight ≠ none := Option.isSome_iff_ne_none.mp flying
    refine ⟨inv.spaced, inv.reading, inv.timers, inv.ended, clocked, fun owed => Or.inl ⟨some_, ?_⟩⟩
    cases force with
    | false => exact Bool.or_true _
    | true =>
      rcases inv.owed owed with ⟨-, skips⟩ | pending
      · simp only at skips
        simp [skips]
      · rcases inv.timers with ⟨-, empty⟩ | ⟨_, _, -, -, idle, -⟩
        · exact absurd empty pending
        · exact absurd idle some_
  next free =>
  have idle := idle_of_not free
  split
  next closed =>
    obtain ⟨timed, pending⟩ := @timed_schedule minMs later { r with skipped := true } inv.timers idle
    obtain ⟨flight, last, -⟩ := schedule_rest minMs later { r with skipped := true }
    refine ⟨inv.spaced, ?_, timed, ?_, clocked, fun _ => Or.inr pending⟩
    · simp only [flight]
      exact inv.reading
    · intro none_ e ends
      simp only [last]
      exact inv.ended idle e ends
  next goes =>
    have quiet : busy log = false := by
      rw [inv.reading]
      simp [idle]
    refine ⟨⟨quiet, fun unforced e ends => ?_, inv.spaced⟩, rfl, timed_start inv.timers,
      (fun bad => by cases bad), clocked, (fun bad => by cases bad)⟩
    have opened : ¬now - r.lastAt < minMs := by simpa [unforced] using goes
    have before := inv.ended idle e ends
    simp only at before
    linarith

theorem settle_inv (inv : Inv minMs ⟨r, clock, log⟩)
    (reads : r.inFlight = some .reading) : Inv minMs ⟨settle r, now, .ended now :: log⟩ := by
  refine ⟨inv.spaced, rfl, ?_, (fun bad => by cases bad), ?_, fun owed => Or.inl ⟨by simp [settle], ?_⟩⟩
  · rcases inv.timers with none_ | ⟨_, _, -, -, idle, -⟩
    · exact Or.inl none_
    · rw [reads] at idle
      cases idle
  · intro e ends
    cases ends
    exact le_refl now
  · rcases inv.owed owed with ⟨-, skips⟩ | pending
    · exact skips
    · rcases inv.timers with ⟨-, empty⟩ | ⟨_, _, -, -, idle, -⟩
      · exact absurd empty pending
      · rw [reads] at idle
        cases idle

theorem finish_inv (inv : Inv minMs ⟨r, clock, log⟩) (first : clock ≤ now) (second : now ≤ later)
    (settled : r.inFlight = some .settled) :
    Inv minMs ⟨finish minMs now later r, later, log⟩ := by
  have untimed : r.cancelTimer = none ∧ r.timers = [] := by
    rcases inv.timers with none_ | ⟨_, _, -, -, idle, -⟩
    · exact none_
    · rw [settled] at idle
      cases idle
  have quiet : busy log = false := by
    rw [inv.reading]
    simp [settled]
  have clocked : ∀ e, lastEnd log = some e → e ≤ now :=
    fun e ends => le_trans (inv.endedClock e ends) first
  unfold finish
  dsimp only
  split
  next skips =>
    let ended : Refresh := { r with inFlight := none, lastAt := now }
    obtain ⟨timed, pending⟩ := @timed_schedule minMs later ended (Or.inl untimed) rfl
    obtain ⟨flight, last, -⟩ := schedule_rest minMs later ended
    refine ⟨inv.spaced, ?_, timed, ?_, fun e ends => le_trans (clocked e ends) second,
      fun _ => Or.inr pending⟩
    · simp only [ended] at flight
      simp [flight, quiet]
    · intro _ e ends
      simp only [ended] at last
      simp only [last]
      exact clocked e ends
  next kept =>
    refine ⟨inv.spaced, by simp [quiet], Or.inl untimed, fun _ => clocked,
      fun e ends => le_trans (clocked e ends) second, fun owed => ?_⟩
    rcases inv.owed owed with ⟨-, skips⟩ | pending
    · exact absurd skips kept
    · exact absurd untimed.2 pending

theorem fire_reads (inv : Inv minMs ⟨r, clock, log⟩)
    (found : (r.timers.find? fun timer => timer.1 = id) = some timer) :
    r.inFlight = none ∧ r.timers = [timer] ∧ timer.1 = id ∧ r.lastAt + minMs ≤ timer.2 := by
  rcases inv.timers with ⟨-, empty⟩ | ⟨id', due, -, pending, idle, window⟩
  · simp only at empty
    rw [empty] at found
    cases found
  · simp only at pending
    have same := List.find?_some found
    rw [pending] at found ⊢
    have this_ : timer = (id', due) := by
      simpa using List.mem_of_find?_eq_some found
    subst this_
    exact ⟨idle, rfl, by simpa using same, window⟩

theorem fire_inv (inv : Inv minMs ⟨r, clock, log⟩)
    (found : (r.timers.find? fun timer => timer.1 = id) = some timer) (first : clock ≤ now)
    (due : timer.2 ≤ now) :
    Inv minMs ⟨(fire id r).1, now, if (fire id r).2 then .began false now :: log else log⟩ := by
  obtain ⟨idle, pending, same, window⟩ := fire_reads inv found
  have quiet : busy log = false := by
    rw [inv.reading]
    simp [idle]
  simp only [fire, idle, Option.isNone_none, if_true]
  refine ⟨⟨quiet, fun _ e ends => ?_, inv.spaced⟩, rfl, Or.inl ⟨rfl, by simp [start, pending, same]⟩,
    (fun bad => by cases bad), fun e ends => le_trans (inv.endedClock e ends) first,
    (fun bad => by cases bad)⟩
  have before := inv.ended idle e ends
  simp only at before
  linarith

end Steps

theorem step_inv {s' : State} {i : Input} (inv : Inv minMs s) (taken : step minMs s i = some s') :
    Inv minMs s' := by
  obtain ⟨r, clock, log⟩ := s
  cases i with
  | call force now later =>
    simp only [step] at taken
    split at taken
    next clocked =>
      cases taken
      exact call_inv inv clocked.1 clocked.2
    · cases taken
  | settle rejected now =>
    simp only [step] at taken
    split at taken
    next may =>
      cases taken
      exact settle_inv inv may.2
    · cases taken
  | finish now later =>
    simp only [step] at taken
    split at taken
    next may =>
      cases taken
      exact finish_inv inv may.1 may.2.1 may.2.2
    · cases taken
  | fire id now =>
    simp only [step] at taken
    split at taken
    · cases taken
    next timer due found =>
      split at taken
      next may =>
        cases taken
        exact fire_inv inv found may.1 may.2
      · cases taken

theorem inv_of_reachable (reached : (system minMs).Reachable s) :
    Inv minMs s :=
  reached.invariant (Inv minMs) (fun _ => inv_start) fun _ _ _ taken inv => step_inv inv taken

/-- In every run: the reads do not overlap, and one that no forced call started begins at
least `minMs` after the last one ended; at most one timer is pending; when no read and no
timer is pending every unforced call has been followed by a read; and while one has not,
the end of the read in flight leaves a timer pending, which starts a read when it fires. -/
theorem trailing_refresh (minMs : Time) {s : State} (reached : (system minMs).Reachable s) :
    Spaced minMs s.log ∧ s.refresh.timers.length ≤ 1 ∧
      (s.refresh.inFlight = none → s.refresh.timers = [] → unanswered s.log = false) ∧
      (unanswered s.log = true → ∀ now later s', step minMs s (.finish now later) = some s' →
        s'.refresh.inFlight = none ∧ s'.refresh.timers ≠ []) ∧
      ∀ id now s', step minMs s (.fire id now) = some s' →
        s'.refresh.inFlight = some .reading ∧ unanswered s'.log = false := by
  have inv := inv_of_reachable reached
  refine ⟨inv.spaced, ?_, fun idle empty => ?_, fun owed now later s' taken => ?_,
    fun id now s' taken => ?_⟩
  · rcases inv.timers with ⟨-, empty⟩ | ⟨id, due, -, pending, -⟩
    · simp [empty]
    · simp [pending]
  · cases answered : unanswered s.log with
    | false => rfl
    | true =>
      rcases inv.owed answered with ⟨flying, -⟩ | pending
      · exact absurd idle flying
      · exact absurd empty pending
  · have inv' := step_inv inv taken
    simp only [step] at taken
    split at taken
    next may =>
      cases taken
      have idle : (finish minMs now later s.refresh).inFlight = none := by
        unfold finish
        dsimp only
        split
        · rw [(schedule_rest ..).1]
        · rfl
      rcases inv'.owed owed with ⟨flying, -⟩ | pending
      · exact absurd idle flying
      · exact ⟨idle, pending⟩
    · cases taken
  · obtain ⟨r, clock, log⟩ := s
    simp only [step] at taken
    split at taken
    · cases taken
    next timer due found =>
      split at taken
      next may =>
        cases taken
        have idle := (fire_reads inv found).1
        simp [fire, idle, start, unanswered]
      · cases taken

/-- A read, a call inside the window, and its trailing read. -/
def trailingInputs : List Input :=
  [.call false 6000 6000, .settle false 6010, .finish 6011 6011, .call false 7000 7000,
    .fire 0 11011]

theorem trailing_refresh_once :
    ∃ s, (system 5000).Reachable s ∧ s.refresh.inFlight = some .reading ∧
      s.refresh.timers.length ≤ 1 := by
  let first : State := ⟨createTrailingRefresh, 6000, []⟩
  have taken : (trailingInputs.foldlM (step 5000) first).any
      (fun s => decide (s.refresh.inFlight = some .reading)) = true := by decide +kernel
  obtain ⟨s, ran, reads⟩ := (Option.any_eq_true ..).mp taken
  obtain ⟨steps, run⟩ := System.Run.of_foldlM (M := system 5000) (fun _ _ _ h => h) ran
  have reached : (system 5000).Reachable s := ⟨first, steps, ⟨rfl, rfl⟩, run⟩
  exact ⟨s, reached, of_decide_eq_true reads, (trailing_refresh 5000 reached).2.1⟩

end Ultrathink.Guarantees.TrailingRefresh
