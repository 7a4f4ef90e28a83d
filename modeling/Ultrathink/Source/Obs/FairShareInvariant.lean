import Ultrathink.Source.Obs.FairShare

/-!
# Invariants of the fair-share pool

`Budget` ties the counters to the release closures handed out; `Queues` ties the queues, timers
and settlements to the calls made. Each is shown for the small operations and carried through the
dispatcher loop once.
-/

namespace Ultrathink.Source.FairShare
open List Ultrathink.Library

def Handle.live (h : Handle) : Bool := !h.released

def Handle.liveFor (principal : String) (h : Handle) : Bool :=
  !h.released && h.admission.principal = principal

/-- A slot was granted within the budgets in force at that moment. -/
def Grant.Within (pool : Pool) (g : Grant) : Prop :=
  g.held < pool.capacity ∧
    (g.admission.cls ≠ .owner →
      g.held < pool.capacity - pool.reserve ∧ g.own < pool.perPrincipalMax)

/-- The counters count the unreleased handles, and every grant was in budget. -/
structure Budget (pool : Pool) (s : State) : Prop where
  held_eq : s.held = s.handles.countP Handle.live
  own_eq : ∀ principal, ownHeld s principal = s.handles.countP (Handle.liveFor principal)
  held_le : s.held ≤ pool.capacity
  within : ∀ g ∈ s.granted, g.Within pool
  recorded : s.granted.map Grant.admission = s.handles.map Handle.admission

theorem blockedBy_eq_none_iff (pool : Pool) (s : State) (a : Admission) :
    blockedBy pool s a = none ↔
      s.held < pool.capacity ∧
        (a.cls ≠ .owner →
          s.held < pool.capacity - pool.reserve ∧
            ownHeld s a.principal < pool.perPrincipalMax) := by
  unfold blockedBy
  by_cases owner : a.cls = .owner
  · simp [owner]
  · simp only [ne_eq, owner, not_false_eq_true, true_and, true_implies]
    split_ifs
    all_goals simp only [false_iff, true_iff]
    all_goals omega

@[simp] theorem ownHeld_take (s : State) (a : Admission) (principal : String) :
    ownHeld (take s a) principal =
      if principal = a.principal then ownHeld s principal + 1 else ownHeld s principal := by
  by_cases same : principal = a.principal <;> simp [ownHeld, take, same]

theorem take_budget (pool : Pool) (s : State) (a : Admission) (fits : blockedBy pool s a = none)
    (before : Budget pool s) : Budget pool (take s a) := by
  have room := (blockedBy_eq_none_iff pool s a).mp fits
  refine ⟨?_, fun principal => ?_, ?_, ?_, ?_⟩
  · simp [take, before.held_eq, Handle.live]
  · have own := before.own_eq principal
    rw [ownHeld_take]
    by_cases same : principal = a.principal
    · simp [take, same, Handle.liveFor, ← before.own_eq]
    · simp [take, same, Ne.symm same, Handle.liveFor, own]
  · simp only [take]
    omega
  · intro g hg
    simp only [take, mem_append, mem_singleton] at hg
    rcases hg with old | rfl
    · exact before.within g old
    · exact room
  · simp [take, before.recorded]

/-- Marking one unreleased handle released takes it out of every count it was
in. -/
theorem countP_set_released (handles : List Handle) (i : Nat) (h : Handle)
    (at_i : handles[i]? = some h) (unreleased : h.released = false) (p : Handle → Bool)
    (skip : ∀ x : Handle, x.released = true → p x = false) :
    (handles.set i ⟨h.admission, true⟩).countP p + (if p h then 1 else 0) =
      handles.countP p := by
  induction handles generalizing i with
  | nil => simp at at_i
  | cons x rest ih =>
    cases i with
    | zero =>
      simp only [getElem?_cons_zero, Option.some.injEq] at at_i
      subst at_i
      simp [countP_cons, skip ⟨x.admission, true⟩ rfl]
    | succ i =>
      simp only [getElem?_cons_succ] at at_i
      have tail := ih i at_i
      simp only [set_cons_succ, countP_cons]
      omega

theorem ownHeld_freeSlot (s : State) (i : Nat) (a : Admission) (positive : 1 ≤ ownHeld s a.principal)
    (principal : String) :
    ownHeld (freeSlot s i a) principal =
      if principal = a.principal then ownHeld s principal - 1 else ownHeld s principal := by
  cases found : s.heldByPrincipal.get? a.principal with
  | none => simp [ownHeld, found] at positive
  | some n =>
    simp only [ownHeld, freeSlot, found, Option.getD_some]
    by_cases more : n - 1 > 0
    · rw [if_pos more, OrderedMap.get?_set]
      by_cases same : principal = a.principal <;> simp [same, found]
    · rw [if_neg more, OrderedMap.get?_erase]
      by_cases same : principal = a.principal
      · simp [same, found]
        omega
      · simp [same]

theorem freeSlot_budget (pool : Pool) (s : State) (i : Nat) (h : Handle)
    (at_i : s.handles[i]? = some h) (unreleased : h.released = false)
    (before : Budget pool s) : Budget pool (freeSlot s i h.admission) := by
  have live := countP_set_released s.handles i h at_i unreleased Handle.live
    (fun x hx => by simp [Handle.live, hx])
  have liveFor := fun principal =>
    countP_set_released s.handles i h at_i unreleased (Handle.liveFor principal)
      (fun x hx => by simp [Handle.liveFor, hx])
  have counted : Handle.live h = true := by simp [Handle.live, unreleased]
  have mine : Handle.liveFor h.admission.principal h = true := by
    simp [Handle.liveFor, unreleased]
  simp only [counted, if_true] at live
  have positive : 1 ≤ ownHeld s h.admission.principal := by
    have count := liveFor h.admission.principal
    rw [before.own_eq]
    simp only [mine, if_true] at count
    omega
  refine ⟨?_, fun principal => ?_, ?_, before.within, ?_⟩
  · simp only [freeSlot]
    have := before.held_eq
    omega
  · have count := liveFor principal
    have own := before.own_eq principal
    rw [ownHeld_freeSlot s i h.admission positive]
    by_cases same : principal = h.admission.principal
    · subst same
      simp only [mine, if_true] at count
      simp only [if_true, freeSlot]
      omega
    · have other : Handle.liveFor principal h = false := by
        simp [Handle.liveFor, Ne.symm same]
      simp only [other, Bool.false_eq_true, if_false] at count
      simp only [same, if_false, freeSlot]
      omega
  · simp only [freeSlot]
    have := before.held_le
    omega
  · simp only [freeSlot, before.recorded, List.map_set]
    obtain ⟨inside, here⟩ := List.getElem?_eq_some_iff.mp at_i
    have bound : i < (s.handles.map Handle.admission).length := by simpa using inside
    have same : h.admission = (s.handles.map Handle.admission)[i] := by simp [here]
    rw [same, set_getElem_self]

variable {s : State} {pool : Pool} {w : Waiter}

theorem Budget.of_same {t : State} (before : Budget pool s) (held : t.held = s.held)
    (own : t.heldByPrincipal = s.heldByPrincipal) (handles : t.handles = s.handles)
    (granted : t.granted = s.granted) : Budget pool t := by
  refine ⟨?_, fun principal => ?_, ?_, ?_, ?_⟩
  · rw [held, handles, before.held_eq]
  · rw [handles, ← before.own_eq]
    simp only [ownHeld, own]
  · rw [held]
    exact before.held_le
  · rw [granted]
    exact before.within
  · rw [granted, handles, before.recorded]

/-- Every admit call is settled once or waits once, every waiter has its timer,
and within a class the calls already granted and those still queued stand in
arrival order. -/
structure Queues (pool : Pool) (s : State) : Prop where
  cls : ∀ cls, ∀ w ∈ s.waiting cls, w.admission.cls = cls
  depth : ∀ cls, (s.waiting cls).length ≤ pool.depth
  calls : (s.settled.map Prod.fst ++ (waiters s).map Waiter.call).Perm (List.range s.calls)
  timers : s.timers.Perm ((waiters s).map Waiter.call)
  order : ∀ cls, (s.dispatched.filter (fun w => w.admission.cls = cls) ++ s.waiting cls).Pairwise
    (fun v w => v.call < w.call)
  dispatched_lt : ∀ w ∈ s.dispatched, w.call < s.calls

@[simp] theorem waiting_setLine (s : State) (cls other : AdmissionClass) (line : List Waiter) :
    (setLine s cls line).waiting other = if other = cls then line else s.waiting other := by
  simp [setLine, Function.update_apply]

@[simp] theorem dispatched_setLine (s : State) (cls : AdmissionClass) (line : List Waiter) :
    (setLine s cls line).dispatched = s.dispatched := rfl

theorem waiters_setLine_self (s : State) (cls : AdmissionClass) :
    waiters (setLine s cls (s.waiting cls)) = waiters s := by
  simp [waiters, setLine]

theorem waiters_setLine_perm (s : State) (cls : AdmissionClass) (w : Waiter)
    (line longer : List Waiter) (more : longer.Perm (w :: line)) :
    (waiters (setLine s cls longer)).Perm (w :: waiters (setLine s cls line)) := by
  cases cls
  · simpa [waiters, classOrder] using more.append_right _
  · have front := (more.append_right (s.waiting .bearer)).append_left (s.waiting .owner)
    simpa [waiters, classOrder] using front.trans perm_middle
  · have front := more.append_left (s.waiting .owner ++ s.waiting .connector)
    have middle : (s.waiting .owner ++ s.waiting .connector ++ w :: line).Perm
        (w :: (s.waiting .owner ++ s.waiting .connector ++ line)) := perm_middle
    simpa [waiters, classOrder] using front.trans middle

theorem mem_waiters (s : State) (w : Waiter) :
    w ∈ waiters s ↔ ∃ cls, w ∈ s.waiting cls := by
  simp only [waiters, mem_flatMap]
  constructor
  · rintro ⟨cls, _, h⟩
    exact ⟨cls, h⟩
  · rintro ⟨cls, h⟩
    exact ⟨cls, by cases cls <;> simp [classOrder], h⟩

theorem Queues.nodup (q : Queues pool s) :
    (s.settled.map Prod.fst ++ (waiters s).map Waiter.call).Nodup :=
  q.calls.nodup_iff.mpr nodup_range

theorem Queues.waiting_lt (q : Queues pool s) (queued : w ∈ waiters s) : w.call < s.calls := by
  have member : w.call ∈ s.settled.map Prod.fst ++ (waiters s).map Waiter.call :=
    mem_append_right _ (mem_map_of_mem queued)
  exact mem_range.mp (q.calls.mem_iff.mp member)

theorem mem_waiting_of_mem_waiters (q : Queues pool s) (queued : w ∈ waiters s) :
    w ∈ s.waiting w.admission.cls := by
  obtain ⟨cls, h⟩ := (mem_waiters s w).mp queued
  rw [q.cls cls w h]
  exact h

/-- Taking a waiter out of its line, settling its call and clearing its timer:
the part shared by a grant, an expiry and an abort. -/
theorem leave_calls (q : Queues pool s) (w : Waiter) (line : List Waiter)
    (left : (s.waiting w.admission.cls).Perm (w :: line)) (settled : List (Nat × AdmitResult))
    (result : AdmitResult) (now : settled = s.settled ++ [(w.call, result)]) :
    (settled.map Prod.fst ++
        (waiters (setLine s w.admission.cls line)).map Waiter.call).Perm (List.range s.calls) ∧
      (s.timers.filter (· ≠ w.call)).Perm
        ((waiters (setLine s w.admission.cls line)).map Waiter.call) := by
  have all := waiters_setLine_perm s w.admission.cls w line _ left
  rw [waiters_setLine_self] at all
  have calls := all.map Waiter.call
  simp only [map_cons] at calls
  constructor
  · subst now
    have moved := calls.append_left (s.settled.map Prod.fst)
    refine List.Perm.trans ?_ (moved.symm.trans q.calls)
    simp
  · have fresh : w.call ∉ (waiters (setLine s w.admission.cls line)).map Waiter.call := by
      have nodup := (nodup_append.mp q.nodup).2.1
      exact (nodup_cons.mp (calls.nodup_iff.mp nodup)).1
    have kept := (q.timers.trans calls).filter (· ≠ w.call)
    refine kept.trans ?_
    rw [filter_cons_of_neg (by simp)]
    rw [filter_eq_self.mpr]
    intro call member
    have : call ≠ w.call := fun same => fresh (same ▸ member)
    simpa using this

theorem leave_line (q : Queues pool s) (cls : AdmissionClass) (line : List Waiter)
    (sub : line.Sublist (s.waiting cls)) :
    (∀ c, ∀ w ∈ (setLine s cls line).waiting c, w.admission.cls = c) ∧
      (∀ c, ((setLine s cls line).waiting c).length ≤ pool.depth) ∧
      (∀ c, ((setLine s cls line).waiting c).Sublist (s.waiting c)) := by
  refine ⟨fun c w hw => ?_, fun c => ?_, fun c => ?_⟩
  · rw [waiting_setLine] at hw
    split_ifs at hw with same
    · subst same
      exact q.cls c w (sub.subset hw)
    · exact q.cls c w hw
  · rw [waiting_setLine]
    split_ifs with same
    · subst same
      exact sub.length_le.trans (q.depth c)
    · exact q.depth c
  · rw [waiting_setLine]
    split_ifs with same
    · exact same ▸ sub
    · exact List.Sublist.refl _

theorem grantHead_queues (q : Queues pool s) (w : Waiter) (tail : List Waiter)
    (line : s.waiting w.admission.cls = w :: tail) :
    Queues pool (grantHead s w) := by
  have sub : tail.Sublist (s.waiting w.admission.cls) := by
    rw [line]
    exact sublist_cons_self w tail
  obtain ⟨cls, depth, _⟩ := leave_line q w.admission.cls tail sub
  obtain ⟨calls, timers⟩ := leave_calls q w tail (by rw [line]) _
    (.granted s.handles.length) rfl
  have shape : (s.waiting w.admission.cls).tail = tail := by simp [line]
  refine ⟨?_, ?_, ?_, ?_, fun c => ?_, ?_⟩
  · simpa [grantHead, finish, take, shape] using cls
  · simpa [grantHead, finish, take, shape] using depth
  · simpa [grantHead, finish, take, shape, waiters, setLine] using calls
  · simpa [grantHead, finish, take, shape, waiters, setLine] using timers
  · have order := q.order c
    simp only [grantHead, finish, take, shape, filter_append, waiting_setLine]
    by_cases same : c = w.admission.cls
    · subst same
      simpa [line] using order
    · simpa [same, Ne.symm same] using order
  · intro v hv
    have queued : w ∈ waiters s := (mem_waiters s w).mpr ⟨_, by rw [line]; simp⟩
    simp only [grantHead, finish, take, setLine, mem_append, mem_singleton] at hv ⊢
    rcases hv with old | rfl
    · exact q.dispatched_lt v old
    · exact q.waiting_lt queued

theorem grantHead_budget (b : Budget pool s) (w : Waiter)
    (fits : blockedBy pool s w.admission = none) : Budget pool (grantHead s w) := by
  have shifted : Budget pool (setLine s w.admission.cls (s.waiting w.admission.cls).tail) :=
    b.of_same rfl rfl rfl rfl
  have still : blockedBy pool (setLine s w.admission.cls (s.waiting w.admission.cls).tail)
      w.admission = none := fits
  exact (take_budget pool _ _ still shifted).of_same rfl rfl rfl rfl

/-- What the dispatcher's choice says: a fitting head, above which no class has
one. -/
theorem nextWaiter_some (q : Queues pool s) (next : nextWaiter pool s = some w) :
    (∃ tail, s.waiting w.admission.cls = w :: tail) ∧ blockedBy pool s w.admission = none ∧
      ∃ higher lower, classOrder = higher ++ w.admission.cls :: lower ∧
        ∀ cls ∈ higher, fittingHead pool s cls = none := by
  obtain ⟨higher, cls, lower, split, head, above⟩ := findSome?_eq_some_iff.mp next
  obtain ⟨first, fits⟩ := Option.filter_eq_some_iff.mp head
  obtain ⟨tail, line⟩ := head?_eq_some_iff.mp first
  have same : w.admission.cls = cls := q.cls cls w (by rw [line]; simp)
  subst same
  exact ⟨⟨tail, line⟩, by simpa using fits, higher, lower, split, above⟩

theorem queued_grantHead (w : Waiter) (tail : List Waiter)
    (line : s.waiting w.admission.cls = w :: tail) : queued (grantHead s w) + 1 = queued s := by
  have shape : (s.waiting w.admission.cls).tail = tail := by simp [line]
  simp only [queued, classOrder, grantHead, finish, take, shape, waiting_setLine]
  cases cls : w.admission.cls <;> rw [cls] at line <;> simp [line] <;> omega

theorem nextWaiter_none_of_empty (empty : queued s = 0) :
    nextWaiter pool s = none := by
  simp only [queued, classOrder, map_cons, map_nil, sum_cons, sum_nil] at empty
  have none : ∀ cls, s.waiting cls = [] := by
    intro cls
    apply eq_nil_of_length_eq_zero
    cases cls <;> omega
  simp [nextWaiter, classOrder, fittingHead, none]

/-- The loop lemma: both invariants survive every pass, and with as many passes
as queued waiters no fitting head is left. -/
theorem admitWaitersLoop_spec (pool : Pool) (passes : Nat) (s : State) (b : Budget pool s)
    (q : Queues pool s) (enough : queued s ≤ passes) :
    Budget pool (admitWaitersLoop pool passes s) ∧ Queues pool (admitWaitersLoop pool passes s) ∧
      nextWaiter pool (admitWaitersLoop pool passes s) = none := by
  induction passes generalizing s with
  | zero => exact ⟨b, q, nextWaiter_none_of_empty (Nat.le_zero.mp enough)⟩
  | succ passes ih =>
    unfold admitWaitersLoop
    cases next : nextWaiter pool s with
    | none => exact ⟨b, q, next⟩
    | some w =>
      obtain ⟨⟨tail, line⟩, fits, _⟩ := nextWaiter_some q next
      have fewer := queued_grantHead w tail line
      exact ih (grantHead s w) (grantHead_budget b w fits) (grantHead_queues q w tail line)
        (by omega)

/-- No waiter at the head of a class queue could be granted. -/
def AtRest (pool : Pool) (s : State) : Prop :=
  ∀ cls w, (s.waiting cls).head? = some w → blockedBy pool s w.admission ≠ none

theorem atRest_iff (pool : Pool) (s : State) : AtRest pool s ↔ nextWaiter pool s = none := by
  simp only [nextWaiter, findSome?_eq_none_iff, fittingHead, Option.filter_eq_none_iff]
  constructor
  · intro rest cls _ w head
    simpa using rest cls w head
  · intro none cls w head
    simpa using none cls (by cases cls <;> simp [classOrder]) w head

/-- Everything the reachable states keep. -/
structure Inv (pool : Pool) (s : State) : Prop where
  budget : Budget pool s
  queues : Queues pool s
  rest : AtRest pool s

theorem admitWaiters_inv (b : Budget pool s) (q : Queues pool s) :
    Inv pool (admitWaiters pool s) := by
  obtain ⟨budget, queues, none⟩ := admitWaitersLoop_spec pool (queued s) s b q (Nat.le_refl _)
  exact ⟨budget, queues, (atRest_iff pool _).mpr none⟩

end Ultrathink.Source.FairShare
