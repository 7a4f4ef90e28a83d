import Ultrathink.Source.Obs.Sinks
import Mathlib.Algebra.Order.Group.Multiset
import Mathlib.Data.List.Chain
import Mathlib.Tactic.Abel

/-!
# No envelope is lost in a sink queue

Every envelope given to the queue is pending, in flight, or counted once by an event.
The account of one event is followed over every run of the queue.
-/

namespace Ultrathink.Guarantees.SinkQueue

open List Library JsText Runs
open Source.Obs.Sinks

variable {α : Type}

/-- The envelopes of the batches that are being delivered. -/
def inFlight (q : SinkQueue α) : List α := q.runs.flatMap Call.batch

/-- The envelopes that events of the type have counted. -/
def counted (type : SinkEventType) (events : List (SinkEvent α)) : List α :=
  (events.filter fun event => event.type = type).flatMap SinkEvent.envelopes

/-- The envelopes of the first attempts, in the order in which they went out. -/
def wentOut (sends : List (Send α)) : List α :=
  (sends.filter fun send => send.attempt = 1).flatMap Send.batch

/-- A send starts a batch or tries the last one again. -/
def Follows (last send : Send α) : Prop :=
  send.attempt = 1 ∨ (send.attempt = last.attempt + 1 ∧ send.batch = last.batch)

structure Conserved (o : SinkQueueOptions) (s : Delivery α) : Prop where
  once : s.enqueued.Perm (s.queue.items ++ inFlight s.queue ++ counted .sent s.events ++
    counted .dropped s.events)
  bounded : ∀ send ∈ s.sends, send.batch.length ≤ o.maxBatch
  ordered : (wentOut s.sends ++ s.queue.items).Sublist s.enqueued
  retried : s.sends.IsChain Follows
  depth : s.queue.items.length ≤ o.capacity

/-- A batch goes out when no other is in flight, and a flush succeeds when nothing is
pending or in flight. -/
def OneAtATime (o : SinkQueueOptions) (x : Step (Delivery α) (Label α)) : Prop :=
  ∀ q shown, next o x.before.queue x.label = some (q, shown) →
    (∀ send ∈ shown.sends, inFlight q = send.batch ∧
      (inFlight x.before.queue = [] ∨ inFlight x.before.queue = send.batch)) ∧
    ∀ id, (id, true) ∈ shown.flushed → q.items = [] ∧ inFlight q = []

structure QueueInv (o : SinkQueueOptions) (s : Delivery α) : Prop extends Conserved o s where
  single : s.queue.runs.length = if s.queue.pumping then 1 else 0
  current : ∀ call ∈ s.queue.runs, ∀ send, call.trying = some send → s.sends.getLast? = some send
  positive : ∀ send ∈ s.sends, 1 ≤ send.attempt

variable {q q' : SinkQueue α} {o : SinkQueueOptions} {label : Label α} {shown : Shown α}

theorem only_run (single : q.runs.length = if q.pumping then 1 else 0) {k : Nat} {call : Call α}
    (held : q.runs[k]? = some call) :
    k = 0 ∧ q.runs = [call] ∧ q.pumping = true := by
  obtain ⟨bound, value⟩ := List.getElem?_eq_some_iff.mp held
  cases pumping : q.pumping with
  | false =>
    simp only [pumping, Bool.false_eq_true, if_false] at single
    omega
  | true =>
    simp only [pumping, if_true] at single
    obtain ⟨only, runs⟩ := length_eq_one_iff.mp single
    have first : k = 0 := by omega
    subst first
    simp only [runs, getElem_cons_zero] at value
    exact ⟨rfl, value ▸ runs, rfl⟩

theorem inFlight_started (runs : q'.runs = if q.pumping then q.runs else q.runs ++ [.starting]) :
    inFlight q' = inFlight q := by
  unfold inFlight
  rw [runs]
  split
  · rfl
  · simp [Call.batch]

theorem inFlight_only {call : Call α} (runs : q.runs = [call]) :
    inFlight q = call.batch := by
  simp [inFlight, runs]

@[simp] theorem counted_nil (type : SinkEventType) : counted type ([] : List (SinkEvent α)) = [] :=
  rfl

@[simp] theorem counted_append (type : SinkEventType) (events more : List (SinkEvent α)) :
    counted type (events ++ more) = counted type events ++ counted type more := by
  simp [counted]

@[simp] theorem counted_single (type type' : SinkEventType) (envelopes : List α)
    (reason : Option Text) :
    counted type [⟨type', envelopes, reason⟩] = if type' = type then envelopes else [] := by
  unfold counted
  by_cases same : type' = type <;> simp [same]

theorem counted_failed {type : SinkEventType} (other : type ≠ .failed) {events : List (SinkEvent α)}
    (failed : ∀ event ∈ events, event.type = .failed) : counted type events = [] := by
  unfold counted
  rw [filter_eq_nil_iff.mpr, flatMap_nil]
  intro event mem
  rw [failed event mem]
  simpa using other.symm

theorem effect_account (single : q.runs.length = if q.pumping then 1 else 0)
    (effect : Effect o q label q' shown) :
    (↑(q.items ++ inFlight q ++ arrived label) : Multiset α) =
      ↑(q'.items ++ inFlight q' ++ counted .sent shown.events ++
        counted .dropped shown.events) := by
  cases effect with
  | quiet label q' flushed none_ items pumping runs idle =>
    simp [inFlight, none_, items, runs]
  | refuses envelope reason => simp [emit, arrived]
  | queues envelope q' room items pumping runs =>
    rw [items, inFlight_started runs]
    simp only [arrived, Source.Obs.Sinks.quiet, counted_nil, append_nil, ← Multiset.coe_add]
    abel
  | overflows envelope q' reason items pumping runs =>
    rw [items, inFlight_started runs]
    have parts : (↑q.items : Multiset α) = ↑(q.items.take 1) + ↑(q.items.drop 1) := by
      rw [Multiset.coe_add, take_append_drop]
    simp only [arrived, emit, counted_single, reduceCtorEq, if_false, if_true, append_nil,
      ← Multiset.coe_add, parts]
    abel
  | closes q' reason flushed items pumping runs idle =>
    rw [items]
    simp only [arrived, inFlight, runs, counted_single, reduceCtorEq, if_false, if_true,
      append_nil, nil_append, ← Multiset.coe_add]
    abel
  | takes k id call q' held resting items pumping runs =>
    obtain ⟨rfl, only, -⟩ := only_run single held
    have parts : (↑q.items : Multiset α) =
        ↑(q.items.take o.maxBatch) + ↑(q.items.drop o.maxBatch) := by
      rw [Multiset.coe_add, take_append_drop]
    rw [only] at runs
    rw [items, inFlight_only only, inFlight_only runs, resting]
    simp only [arrived, Call.batch, counted_nil, append_nil, ← Multiset.coe_add, parts]
    abel
  | retries k n id old batch q' held items pumping runs =>
    obtain ⟨rfl, only, -⟩ := only_run single held
    rw [only] at runs
    rw [items, inFlight_only only, inFlight_only runs]
    simp [arrived, Call.batch]
  | counts k call type reason held counted_ =>
    obtain ⟨rfl, only, -⟩ := only_run single held
    have runs : (returns 0 q).runs = [.returned] := by simp [returns, only]
    rw [inFlight_only only, inFlight_only runs]
    cases type with
    | sent => simp [arrived, returns, emit, Call.batch]
    | failed => exact absurd rfl counted_
    | dropped => simp [arrived, returns, emit, Call.batch]
  | moves k call call' q' failed held same trying uncounted items pumping runs =>
    obtain ⟨rfl, only, -⟩ := only_run single held
    rw [only] at runs
    rw [items, inFlight_only only, inFlight_only runs, counted_failed (by simp) uncounted,
      counted_failed (by simp) uncounted]
    simp [arrived, same]
  | finishes k call q' flushed held resting items pumping runs idle =>
    obtain ⟨rfl, only, -⟩ := only_run single held
    rw [only] at runs
    rw [items, inFlight_only only, resting]
    simp [arrived, inFlight, runs]

@[simp] theorem wentOut_append (sends more : List (Send α)) :
    wentOut (sends ++ more) = wentOut sends ++ wentOut more := by
  simp [wentOut]

theorem effect_ordered (tried : ∀ call ∈ q.runs, ∀ send, call.trying = some send → 1 ≤ send.attempt)
    (effect : Effect o q label q' shown) :
    (wentOut shown.sends ++ q'.items).Sublist (q.items ++ arrived label) := by
  cases effect with
  | quiet label q' flushed none_ items pumping runs idle => simp [wentOut, items]
  | refuses envelope reason => simp [emit, wentOut]
  | queues envelope q' room items pumping runs =>
    rw [items]
    exact List.Sublist.refl _
  | overflows envelope q' reason items pumping runs =>
    rw [items]
    exact (drop_sublist 1 q.items).append_right [envelope]
  | closes q' reason flushed items pumping runs idle => simp [wentOut, items]
  | takes k id call q' held resting items pumping runs =>
    rw [items]
    simp [wentOut, arrived]
  | retries k n id old batch q' held items pumping runs =>
    have later := tried _ (mem_of_getElem? held) _ rfl
    have again : ¬n = 0 := by
      dsimp only at later
      omega
    simp [wentOut, again, arrived, items]
  | counts k call type reason held counted_ => simp [wentOut, emit, returns]
  | moves k call call' q' failed held same trying uncounted items pumping runs =>
    simp [wentOut, items]
  | finishes k call q' flushed held resting items pumping runs idle => simp [wentOut, items]

theorem effect_single (single : q.runs.length = if q.pumping then 1 else 0)
    (effect : Effect o q label q' shown) : q'.runs.length = if q'.pumping then 1 else 0 := by
  have started : q'.pumping = true → q'.runs = (if q.pumping then q.runs else q.runs ++ [.starting]) →
      q'.runs.length = if q'.pumping then 1 else 0 := by
    intro pumping runs
    rw [runs, pumping]
    cases before : q.pumping with
    | false => simpa [before] using single
    | true => simpa [before] using single
  cases effect with
  | quiet label q' flushed none_ items pumping runs idle => rw [runs, pumping, single]
  | refuses envelope reason => exact single
  | queues envelope q' room items pumping runs => exact started pumping runs
  | overflows envelope q' reason items pumping runs => exact started pumping runs
  | closes q' reason flushed items pumping runs idle => rw [runs, pumping, single]
  | takes k id call q' held resting items pumping runs =>
    rw [runs, length_set, pumping, single]
  | retries k n id old batch q' held items pumping runs =>
    rw [runs, length_set, pumping, single]
  | counts k call type reason held counted_ =>
    have length : (returns k q).runs.length = q.runs.length := length_set
    rw [length]
    exact single
  | moves k call call' q' failed held same trying uncounted items pumping runs =>
    rw [runs, length_set, pumping, single]
  | finishes k call q' flushed held resting items pumping runs idle =>
    obtain ⟨rfl, only, -⟩ := only_run single held
    simp [runs, only, pumping]

theorem effect_depth (depth : q.items.length ≤ o.capacity) (effect : Effect o q label q' shown) :
    q'.items.length ≤ o.capacity := by
  have positive := o.capacity_pos
  cases effect with
  | quiet label q' flushed none_ items pumping runs idle => rwa [items]
  | refuses envelope reason => exact depth
  | queues envelope q' room items pumping runs =>
    rw [items, length_append, length_singleton]
    omega
  | overflows envelope q' reason items pumping runs =>
    rw [items, length_append, length_singleton, length_drop]
    omega
  | closes q' reason flushed items pumping runs idle => simp [items]
  | takes k id call q' held resting items pumping runs =>
    rw [items, length_drop]
    omega
  | retries k n id old batch q' held items pumping runs => rwa [items]
  | counts k call type reason held counted_ => exact depth
  | moves k call call' q' failed held same trying uncounted items pumping runs => rwa [items]
  | finishes k call q' flushed held resting items pumping runs idle => rwa [items]

theorem effect_sends {sends : List (Send α)} (single : q.runs.length = if q.pumping then 1 else 0)
    (current : ∀ call ∈ q.runs, ∀ send, call.trying = some send → sends.getLast? = some send)
    (effect : Effect o q label q' shown) :
    (shown.sends = [] ∧ ∀ call ∈ q'.runs, ∀ send, call.trying = some send →
        sends.getLast? = some send) ∨
      ∃ send, shown.sends = [send] ∧
        (∀ call ∈ q'.runs, ∀ tried, call.trying = some tried → send = tried) ∧
        inFlight q' = send.batch ∧
        ((send.attempt = 1 ∧ send.batch = q.items.take o.maxBatch ∧ inFlight q = []) ∨
          ∃ last, sends.getLast? = some last ∧ send.attempt = last.attempt + 1 ∧
            send.batch = last.batch ∧ inFlight q = send.batch) := by
  have started : q'.runs = (if q.pumping then q.runs else q.runs ++ [.starting]) →
      ∀ call ∈ q'.runs, ∀ send, call.trying = some send → sends.getLast? = some send := by
    intro runs call mem send trying
    rw [runs] at mem
    split at mem
    · exact current call mem send trying
    · rcases mem_append.mp mem with old | new
      · exact current call old send trying
      · rw [mem_singleton.mp new] at trying
        cases trying
  cases effect with
  | quiet label q' flushed none_ items pumping runs idle => exact Or.inl ⟨rfl, runs ▸ current⟩
  | refuses envelope reason => exact Or.inl ⟨rfl, current⟩
  | queues envelope q' room items pumping runs => exact Or.inl ⟨rfl, started runs⟩
  | overflows envelope q' reason items pumping runs => exact Or.inl ⟨rfl, started runs⟩
  | closes q' reason flushed items pumping runs idle => exact Or.inl ⟨rfl, runs ▸ current⟩
  | takes k id call q' held resting items pumping runs =>
    obtain ⟨rfl, only, -⟩ := only_run single held
    rw [only] at runs
    have resting := (inFlight_only only).trans resting
    exact Or.inr ⟨_, rfl, by simp [runs, Call.trying], inFlight_only runs, Or.inl ⟨rfl, rfl, resting⟩⟩
  | retries k n id old batch q' held items pumping runs =>
    obtain ⟨rfl, only, -⟩ := only_run single held
    rw [only] at runs
    have last := current _ (mem_of_getElem? held) _ rfl
    exact Or.inr ⟨_, rfl, by simp [runs, Call.trying], inFlight_only runs,
      Or.inr ⟨_, last, rfl, rfl, inFlight_only only⟩⟩
  | counts k call type reason held counted_ =>
    obtain ⟨rfl, only, -⟩ := only_run single held
    exact Or.inl ⟨rfl, by simp [returns, only, Call.trying]⟩
  | moves k call call' q' failed held same trying uncounted items pumping runs =>
    obtain ⟨rfl, only, -⟩ := only_run single held
    rw [only] at runs
    refine Or.inl ⟨rfl, fun moved mem send sends_ => ?_⟩
    have moved_ : moved = call' := by simpa [runs] using mem
    rw [moved_] at sends_
    rcases trying with stopped | kept
    · rw [stopped] at sends_
      cases sends_
    · exact current call (mem_of_getElem? held) send (kept ▸ sends_)
  | finishes k call q' flushed held resting items pumping runs idle =>
    obtain ⟨rfl, only, -⟩ := only_run single held
    exact Or.inl ⟨rfl, by simp [runs, only]⟩

/-- A flush that is resolved with true leaves nothing pending and nothing in flight. -/
theorem effect_flushed (single : q.runs.length = if q.pumping then 1 else 0)
    (effect : Effect o q label q' shown) {id : Nat} (idle : (id, true) ∈ shown.flushed) :
    q'.items = [] ∧ inFlight q' = [] := by
  cases effect with
  | quiet label q' flushed none_ items pumping runs empty =>
    obtain ⟨resting, drained⟩ := empty ⟨id, idle⟩
    simp only [resting, Bool.false_eq_true, if_false, length_eq_zero_iff] at single
    exact ⟨items.trans drained, by simp [inFlight, runs, single]⟩
  | refuses envelope reason => cases idle
  | queues envelope q' room items pumping runs => cases idle
  | overflows envelope q' reason items pumping runs => cases idle
  | closes q' reason flushed items pumping runs unresolved => exact absurd idle (unresolved id)
  | takes k id call q' held resting items pumping runs => cases idle
  | retries k n id old batch q' held items pumping runs => cases idle
  | counts k call type reason held counted_ => cases idle
  | moves k call call' q' failed held same trying uncounted items pumping runs => cases idle
  | finishes k call q' flushed held resting items pumping runs empty =>
    obtain ⟨rfl, only, -⟩ := only_run single held
    exact ⟨items.trans (empty ⟨id, idle⟩), by simp [inFlight, runs, only]⟩

theorem advance_cases {s t : Delivery α} (step : (delivery o).step s label t) :
    ∃ q events sends flushed, next o s.queue label = some (q, ⟨events, sends, flushed⟩) ∧
      t = ⟨q, s.enqueued ++ arrived label, s.events ++ events, s.sends ++ sends,
        s.flushed ++ flushed⟩ := by
  obtain ⟨⟨q, events, sends, flushed⟩, taken, after⟩ := Option.map_eq_some_iff.mp step
  exact ⟨q, events, sends, flushed, taken, after.symm⟩

theorem step_inv {s t : Delivery α} (step : (delivery o).step s label t) (inv : QueueInv o s) :
    QueueInv o t := by
  obtain ⟨q, events, sends, flushed, taken, rfl⟩ := advance_cases step
  have effect := next_effect o taken
  have tried : ∀ call ∈ s.queue.runs, ∀ send, call.trying = some send → 1 ≤ send.attempt :=
    fun call mem send trying =>
      inv.positive send (mem_of_getLast? (inv.current call mem send trying))
  have once : (↑(s.enqueued ++ arrived label) : Multiset α) =
      ↑(q.items ++ inFlight q ++ counted .sent (s.events ++ events) ++
        counted .dropped (s.events ++ events)) := by
    have before : (↑s.enqueued : Multiset α) = ↑(s.queue.items ++ inFlight s.queue ++
        counted .sent s.events ++ counted .dropped s.events) := Multiset.coe_eq_coe.mpr inv.once
    have account := effect_account inv.single effect
    simp only [counted_append, ← Multiset.coe_add] at before account ⊢
    calc (↑s.enqueued : Multiset α) + ↑(arrived label)
        = ↑s.queue.items + ↑(inFlight s.queue) + ↑(arrived label) + ↑(counted .sent s.events) +
          ↑(counted .dropped s.events) := by rw [before]; abel
      _ = _ := by rw [account]; abel
  have ordered : (wentOut (s.sends ++ sends) ++ q.items).Sublist
      (s.enqueued ++ arrived label) := by
    rw [wentOut_append, append_assoc]
    refine ((effect_ordered tried effect).append_left (wentOut s.sends)).trans ?_
    rw [← append_assoc]
    exact inv.ordered.append_right (arrived label)
  have single := effect_single inv.single effect
  have depth := effect_depth inv.depth effect
  rcases effect_sends inv.single inv.current effect with ⟨none_, current⟩ | ⟨send, one, tries, -, way⟩
  · dsimp only at none_
    subst none_
    exact ⟨⟨Multiset.coe_eq_coe.mp once, by simpa using inv.bounded, ordered,
      by simpa using inv.retried, depth⟩, single, by simpa using current, by simpa using inv.positive⟩
  · dsimp only at one
    subst one
    have bound : send.batch.length ≤ o.maxBatch ∧ 1 ≤ send.attempt ∧
        ∀ last ∈ s.sends.getLast?, Follows last send := by
      rcases way with ⟨first, batch, -⟩ | ⟨last, held, later, same, -⟩
      · refine ⟨?_, first.ge, fun _ _ => Or.inl first⟩
        rw [batch]
        exact length_take_le o.maxBatch s.queue.items
      · refine ⟨same ▸ inv.bounded last (mem_of_getLast? held), by omega, fun other mem => ?_⟩
        rw [held] at mem
        cases mem
        exact Or.inr ⟨later, same⟩
    refine ⟨⟨Multiset.coe_eq_coe.mp once, ?_, ordered, ?_, depth⟩, single, ?_, ?_⟩
    · simpa [or_imp, forall_and] using ⟨inv.bounded, bound.1⟩
    · exact inv.retried.append (isChain_singleton send) (by simpa using bound.2.2)
    · intro call mem other trying
      rw [getLast?_append]
      simp [tries call mem other trying]
    · simpa [or_imp, forall_and] using ⟨inv.positive, bound.2.1⟩

theorem effect_oneAtATime {x : Step (Delivery α) (Label α)} (inv : QueueInv o x.before) :
    OneAtATime o x := by
  intro q shown taken
  have effect := next_effect o taken
  refine ⟨fun send mem => ?_, fun id mem => ?_⟩
  · rcases effect_sends inv.single inv.current effect with ⟨none_, -⟩ | ⟨only, one, -, held, way⟩
    · rw [none_] at mem
      cases mem
    · rw [one] at mem
      rw [mem_singleton.mp mem]
      rcases way with ⟨-, -, resting⟩ | ⟨-, -, -, -, again⟩
      · exact ⟨held, Or.inl resting⟩
      · exact ⟨held, Or.inr again⟩
  · exact effect_flushed inv.single effect mem

/-- After every sequence of events each envelope that was enqueued is pending, in
flight or counted once, as sent or as dropped; batches are bounded and go out in the
order of arrival, one at a time. -/
theorem sink_queue_conserves (o : SinkQueueOptions) {s t : Delivery α}
    {steps : List (Step (Delivery α) (Label α))} (start : (delivery o).start s)
    (run : (delivery o).Run s steps t) : Conserved o t ∧ ∀ x ∈ steps, OneAtATime o x := by
  have first : QueueInv o s := by
    subst start
    exact ⟨⟨by simp [createSinkQueue, inFlight], by simp, by simp [wentOut, createSinkQueue],
      .nil, by simp [createSinkQueue]⟩, rfl, by simp [createSinkQueue], by simp⟩
  have inv := run.invariant (QueueInv o) first fun m label n step held => step_inv step held
  refine ⟨inv.toConserved, ?_⟩
  exact run.steps_of (QueueInv o) (fun _ => True) (OneAtATime o) first
    (fun m label n step _ held => step_inv step held)
    (fun m label n _ _ held => effect_oneAtATime held) fun _ _ => trivial

def sampleOptions : SinkQueueOptions :=
  ⟨2, 2, 2, Nat.le_succ 1, Nat.le_succ 1, Nat.le_succ 1⟩

/-- The third envelope pushes the first out; the batch of the other two times out, its
late answer changes nothing, and the second attempt succeeds while a flush waits. -/
def sampleEvents : List (Label Nat) :=
  [.enqueue 1, .enqueue 2, .enqueue 3, .flush, .turn 0, .timeout 0, .turn 0, .answer 0 (.resolved none),
    .elapsed 0, .turn 0, .answer 1 (.resolved (some .ok)), .turn 0, .turn 0]

def sampleEnd : Delivery Nat :=
  runInputs (stepped (advance sampleOptions)) ⟨createSinkQueue, [], [], [], []⟩ sampleEvents

theorem sink_queue_conserves_sample : Conserved sampleOptions sampleEnd :=
  (sink_queue_conserves sampleOptions rfl (run_stepped _ sampleEvents (by decide))).1

example : counted .sent sampleEnd.events = [2, 3] ∧ counted .dropped sampleEnd.events = [1] ∧
    sampleEnd.flushed = [(0, true)] := by decide

end Ultrathink.Guarantees.SinkQueue
