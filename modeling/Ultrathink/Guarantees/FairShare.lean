import Ultrathink.Source.Obs.FairShareInvariant

/-!
# Fair share: budgets, single settlement, order and no lost wakeup

Every input is shown to keep `Inv`, so it holds after every sequence of
acquires, admits, releases, timeouts and aborts on a fresh pool. The budget
theorem reads the counters and the settlements off it.
-/

namespace Ultrathink.Guarantees.FairShare
open Ultrathink.Library Ultrathink.Source.FairShare
open List hiding take

variable {pool : Pool} {s : State}

theorem acquire_inv (inv : Inv pool s) (a : Admission) :
    Inv pool (acquire pool s a) := by
  unfold acquire
  cases blocked : blockedBy pool s a with
  | some reason =>
    exact ⟨inv.budget.of_same rfl rfl rfl rfl, ⟨inv.queues.cls, inv.queues.depth, inv.queues.calls,
      inv.queues.timers, inv.queues.order, inv.queues.dispatched_lt⟩, inv.rest⟩
  | none =>
    refine ⟨take_budget pool s a blocked inv.budget, ⟨inv.queues.cls, inv.queues.depth,
      inv.queues.calls, inv.queues.timers, inv.queues.order, inv.queues.dispatched_lt⟩, ?_⟩
    -- A taken slot only raises the counters, so no blocked head starts to fit.
    intro cls w head fits
    refine inv.rest cls w head ((blockedBy_eq_none_iff _ _ _).mpr ?_)
    have room := (blockedBy_eq_none_iff _ _ _).mp fits
    rw [ownHeld_take] at room
    simp only [take] at room
    refine ⟨by omega, fun notOwner => ?_⟩
    have reserve := room.2 notOwner
    split_ifs at reserve <;> omega

theorem settleNow_queues (q : Queues pool s) (result : AdmitResult) :
    Queues pool (settleNow s result) := by
  refine ⟨q.cls, q.depth, ?_, q.timers, q.order, fun w hw => ?_⟩
  · have more := q.calls.append_right [s.calls]
    rw [← range_succ] at more
    refine List.Perm.trans ?_ more
    simp only [settleNow, waiters, map_append, map_cons, map_nil,
      append_assoc]
    exact perm_append_comm.append_left _
  · exact Nat.lt_succ_of_lt (q.dispatched_lt w hw)

theorem enqueue_queues (q : Queues pool s) (a : Admission) (signal : Bool)
    (blocked : FairShareRefusal) (room : (s.waiting a.cls).length < pool.depth) :
    Queues pool (enqueue s a signal blocked) := by
  have all := waiters_setLine_perm s a.cls ⟨s.calls, a, signal, blocked⟩ (s.waiting a.cls)
    (s.waiting a.cls ++ [⟨s.calls, a, signal, blocked⟩]) (perm_append_singleton _ _)
  rw [waiters_setLine_self] at all
  have calls := all.map Waiter.call
  simp only [map_cons] at calls
  refine ⟨fun c w hw => ?_, fun c => ?_, ?_, ?_, fun c => ?_, fun w hw => ?_⟩
  · simp only [enqueue, waiting_setLine] at hw
    split_ifs at hw with same
    · rcases mem_append.mp hw with old | new
      · exact same ▸ q.cls a.cls w old
      · rw [mem_singleton.mp new, same]
    · exact q.cls c w hw
  · simp only [enqueue, waiting_setLine]
    split_ifs with same
    · simpa using Nat.succ_le_of_lt room
    · exact q.depth c
  · have more := (q.calls.append_right [s.calls])
    rw [← range_succ] at more
    refine List.Perm.trans ?_ more
    simp only [enqueue, waiters, setLine, append_assoc] at calls ⊢
    refine List.Perm.append_left _ (calls.trans ?_)
    exact (perm_append_singleton _ _).symm
  · have more := (q.timers.append_right [s.calls])
    refine more.trans ?_
    simp only [enqueue, waiters, setLine] at calls ⊢
    exact (perm_append_singleton _ _).trans calls.symm
  · simp only [enqueue, waiting_setLine]
    split_ifs with same
    · subst same
      rw [← append_assoc]
      refine pairwise_append.mpr ⟨q.order a.cls, pairwise_singleton _ _, ?_⟩
      intro v hv w hw
      rw [mem_singleton.mp hw]
      rcases mem_append.mp hv with old | queued
      · exact q.dispatched_lt v (mem_filter.mp old).1
      · exact q.waiting_lt ((mem_waiters s v).mpr ⟨_, queued⟩)
    · exact q.order c
  · exact Nat.lt_succ_of_lt (q.dispatched_lt w hw)

theorem admit_inv (inv : Inv pool s) (a : Admission) (signal aborted : Bool) :
    Inv pool (admitCall pool s a signal aborted) := by
  unfold admitCall
  by_cases fired : signal = true ∧ aborted = true
  · rw [if_pos fired]
    exact ⟨inv.budget.of_same rfl rfl rfl rfl, settleNow_queues inv.queues _, inv.rest⟩
  · rw [if_neg fired]
    cases blocked : blockedBy pool s a with
    | none =>
      have settled : Inv pool (settleNow s (.granted s.handles.length)) :=
        ⟨inv.budget.of_same rfl rfl rfl rfl, settleNow_queues inv.queues _, inv.rest⟩
      have taken := acquire_inv settled a
      have still : blockedBy pool (settleNow s (.granted s.handles.length)) a = none := blocked
      simpa only [acquire, still] using taken
    | some reason =>
      dsimp only
      split_ifs with full
      · have reported : Queues pool (report s a reason .queueFull) :=
          ⟨inv.queues.cls, inv.queues.depth, inv.queues.calls, inv.queues.timers,
            inv.queues.order, inv.queues.dispatched_lt⟩
        exact ⟨inv.budget.of_same rfl rfl rfl rfl, settleNow_queues reported _, inv.rest⟩
      · refine ⟨inv.budget.of_same rfl rfl rfl rfl,
          enqueue_queues inv.queues a signal reason (by omega), ?_⟩
        -- The newcomer heads its queue only when the queue was empty, and it was refused.
        intro cls w head fits
        simp only [enqueue, waiting_setLine] at head
        have same : blockedBy pool s w.admission = none := fits
        split_ifs at head with mine
        · cases line : s.waiting a.cls with
          | nil =>
            simp only [line, nil_append, head?_cons, Option.some.injEq] at head
            rw [← head, blocked] at same
            cases same
          | cons first rest =>
            simp only [line, cons_append, head?_cons, Option.some.injEq] at head
            exact inv.rest a.cls w (by simp [line, head]) same
        · exact inv.rest cls w head same

theorem release_inv (inv : Inv pool s) (handle : Nat) :
    Inv pool (release pool s handle) := by
  unfold release
  cases found : s.handles[handle]? with
  | none => exact inv
  | some h =>
    dsimp only
    split_ifs with released
    · exact inv
    · refine admitWaiters_inv ?_ ⟨inv.queues.cls, inv.queues.depth, inv.queues.calls,
        inv.queues.timers, inv.queues.order, inv.queues.dispatched_lt⟩
      exact freeSlot_budget pool s handle h found (by simpa using released) inv.budget

theorem leave_queues (q : Queues pool s) (w : Waiter) (queued : w ∈ waiters s)
    (result : AdmitResult) :
    Queues pool (finish (removeWaiter s w) w result) := by
  have member := mem_waiting_of_mem_waiters q queued
  have sub : ((s.waiting w.admission.cls).erase w).Sublist (s.waiting w.admission.cls) :=
    erase_sublist
  obtain ⟨cls, depth, lines⟩ := leave_line q w.admission.cls _ sub
  obtain ⟨calls, timers⟩ := leave_calls q w _ (perm_cons_erase member) _ result rfl
  refine ⟨cls, depth, calls, timers, fun c => ?_, q.dispatched_lt⟩
  exact (q.order c).sublist ((lines c).append_left _)

theorem findWaiter_mem {call : Nat} {w : Waiter} (found : findWaiter s call = some w) :
    w ∈ waiters s ∧ w.call = call := by
  have member := mem_of_find?_eq_some found
  have named := find?_some found
  exact ⟨member, by simpa using named⟩

theorem expireWaiter_queues (q : Queues pool s) (w : Waiter) (queued : w ∈ waiters s) :
    Queues pool (expireWaiter s w) := by
  have left := leave_queues q w queued (.refused w.blocked .expired)
  exact ⟨left.cls, left.depth, left.calls, left.timers, left.order, left.dispatched_lt⟩

theorem timeout_inv (inv : Inv pool s) (call : Nat) :
    Inv pool (timeout pool s call) := by
  unfold timeout
  cases found : findWaiter s call with
  | none => exact inv
  | some w =>
    exact admitWaiters_inv (inv.budget.of_same rfl rfl rfl rfl)
      (expireWaiter_queues inv.queues w (findWaiter_mem found).1)

theorem abort_inv (inv : Inv pool s) (call : Nat) :
    Inv pool (abort pool s call) := by
  unfold abort
  cases found : findWaiter s call with
  | none => exact inv
  | some w =>
    dsimp only
    split_ifs with signal
    · exact admitWaiters_inv (inv.budget.of_same rfl rfl rfl rfl)
        (leave_queues inv.queues w (findWaiter_mem found).1 _)
    · exact inv

theorem step_inv (s : State) (i : Input) (inv : Inv pool s) :
    Inv pool (step pool s i) := by
  cases i with
  | acquire a => exact acquire_inv inv a
  | admitCall a signal aborted => exact admit_inv inv a signal aborted
  | release handle => exact release_inv inv handle
  | timeout call => exact timeout_inv inv call
  | abort call => exact abort_inv inv call

theorem initial_inv (pool : Pool) : Inv pool initial := by
  refine ⟨⟨by simp [initial], ?_, by simp [initial], by simp [initial], by simp [initial]⟩,
    ⟨by simp [initial], by simp [initial], by simp [initial, waiters, classOrder],
      by simp [initial, waiters, classOrder], by simp [initial], by simp [initial]⟩,
    by simp [AtRest, initial]⟩
  intro principal
  simp [ownHeld, initial]

theorem run_inv (pool : Pool) (inputs : List Input) : Inv pool (run pool inputs) :=
  Runs.runInputs_invariant (step pool) (Inv pool) step_inv initial (initial_inv pool) inputs

/-- `a` stands before `b` in the order in which freed slots are handed out. -/
def Outranks (a b : AdmissionClass) : Prop := classOrder.idxOf a < classOrder.idxOf b

/-- What handing over freed slots means: as long as some queue head fits, the
head of the highest class whose head fits is granted; at the end none fits. -/
inductive Dispatches (pool : Pool) : State → State → Prop
  | rest (s : State) (idle : AtRest pool s) : Dispatches pool s s
  | hand (s t : State) (w : Waiter) (head : (s.waiting w.admission.cls).head? = some w)
      (fits : blockedBy pool s w.admission = none)
      (highest : ∀ cls v, Outranks cls w.admission.cls → (s.waiting cls).head? = some v →
        blockedBy pool s v.admission ≠ none)
      (next : Dispatches pool (grantHead s w) t) : Dispatches pool s t

theorem mem_of_outranks {cls own : AdmissionClass} {higher lower : List AdmissionClass}
    (split : classOrder = higher ++ own :: lower) (outranks : Outranks cls own) :
    cls ∈ higher := by
  by_contra absent
  have distinct : own ∉ higher := by
    have nodup : classOrder.Nodup := by decide
    rw [split] at nodup
    exact fun member => (nodup_append.mp nodup).2.2 own member own (by simp) rfl
  rw [Outranks, split, idxOf_append_of_notMem absent,
    idxOf_append_of_notMem distinct, idxOf_cons_self] at outranks
  omega

theorem admitWaitersLoop_dispatches (pool : Pool) (passes : Nat) (s : State) (b : Budget pool s)
    (q : Queues pool s) (enough : queued s ≤ passes) :
    Dispatches pool s (admitWaitersLoop pool passes s) := by
  induction passes generalizing s with
  | zero =>
    refine .rest s ((atRest_iff pool s).mpr ?_)
    exact nextWaiter_none_of_empty (Nat.le_zero.mp enough)
  | succ passes ih =>
    unfold admitWaitersLoop
    cases next : nextWaiter pool s with
    | none => exact .rest s ((atRest_iff pool s).mpr next)
    | some w =>
      obtain ⟨⟨tail, line⟩, fits, higher, lower, split, above⟩ := nextWaiter_some q next
      have fewer := queued_grantHead w tail line
      refine .hand s _ w (by simp [line]) fits (fun cls v outranks head fitting => ?_)
        (ih (grantHead s w) (grantHead_budget b w fits) (grantHead_queues q w tail line) (by omega))
      have unfit := above cls (mem_of_outranks split outranks)
      rw [fittingHead, Option.filter_eq_none_iff] at unfit
      exact unfit v head (by simpa using fitting)

/-- In every reachable state the controller is at rest, the waiters of a class
were granted in arrival order and before all that still wait, and a release, an
expiry or an abort hands the freed room to the highest-ranked class whose head
fits until no head fits. -/
theorem pool_no_lost_wakeup (pool : Pool) (inputs : List Input) :
    let s := run pool inputs
    (∀ cls w, (s.waiting cls).head? = some w → blockedBy pool s w.admission ≠ none) ∧
      (∀ cls, (s.dispatched.filter (fun w => w.admission.cls = cls) ++ s.waiting cls).Pairwise
        (fun v w => v.call < w.call)) ∧
      (∀ handle h, s.handles[handle]? = some h → h.released = false →
        Dispatches pool (freeSlot s handle h.admission) (step pool s (.release handle))) ∧
      (∀ call w, findWaiter s call = some w →
        Dispatches pool (expireWaiter s w) (step pool s (.timeout call))) ∧
      ∀ call w, findWaiter s call = some w → w.signal = true →
        Dispatches pool (abortWaiter s w) (step pool s (.abort call)) := by
  intro s
  have inv : Inv pool s := run_inv pool inputs
  refine ⟨inv.rest, inv.queues.order, fun handle h found unreleased => ?_,
    fun call w found => ?_, fun call w found signal => ?_⟩
  · simp only [step, release, found, unreleased, Bool.false_eq_true, if_false]
    refine admitWaitersLoop_dispatches pool _ _
      (freeSlot_budget pool s handle h found unreleased inv.budget) ?_ (Nat.le_refl _)
    exact ⟨inv.queues.cls, inv.queues.depth, inv.queues.calls, inv.queues.timers,
      inv.queues.order, inv.queues.dispatched_lt⟩
  · simp only [step, timeout, found]
    exact admitWaitersLoop_dispatches pool _ _ (inv.budget.of_same rfl rfl rfl rfl)
      (expireWaiter_queues inv.queues w (findWaiter_mem found).1) (Nat.le_refl _)
  · simp only [step, abort, found, signal, if_true]
    exact admitWaitersLoop_dispatches pool _ _ (inv.budget.of_same rfl rfl rfl rfl)
      (leave_queues inv.queues w (findWaiter_mem found).1 _) (Nat.le_refl _)

end Ultrathink.Guarantees.FairShare
