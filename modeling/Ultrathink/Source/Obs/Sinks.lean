import Ultrathink.Library.Runs
import Ultrathink.Library.JsText

/-!
# Sink delivery queue

`createSinkQueue` of `obs/sinks/queue.ts`, one event at a time: a call of the queue,
an answer of the transport, a timer, or one turn of a call of `run` between two
awaits. Nothing is assumed about the order of the events; `backoffMs` and the timers
do not throw. An event of the queue names the envelopes that it counts.
-/

namespace Ultrathink.Source.Obs.Sinks

open Library JsText Runs

structure SinkQueueOptions where
  capacity : Nat
  maxBatch : Nat
  maxAttempts : Nat
  capacity_pos : 1 ≤ capacity
  maxBatch_pos : 1 ≤ maxBatch
  maxAttempts_pos : 1 ≤ maxAttempts

inductive SendResult where
  | ok
  | failure (retryable : Bool) (reason : Text)
  deriving DecidableEq

/-- What `transport.send` does: the value it resolves with is none when it is no
`SendResult`. -/
inductive TransportReply where
  | resolved (value : Option SendResult)
  | rejected
  | threw
  deriving DecidableEq

inductive SinkEventType where
  | sent
  | failed
  | dropped
  deriving DecidableEq

variable {α : Type}

structure SinkEvent (α : Type) where
  type : SinkEventType
  envelopes : List α
  reason : Option Text
  deriving DecidableEq

def SinkEvent.count (e : SinkEvent α) : Nat := e.envelopes.length

/-- One call of `transport.send`: which attempt of its batch it is. -/
structure Send (α : Type) where
  attempt : Nat
  batch : List α
  deriving DecidableEq

/-- The wait that `interrupt` cancels. -/
inductive Interrupt where
  | attempt (id : Nat)
  | wait (id : Nat)
  deriving DecidableEq

/-- Where a call of `run` stands: its microtask is queued, it awaits an attempt, it is
between the events `failed` and `dropped`, it awaits a backoff, or `deliver` has
returned to its loop. -/
inductive Call (α : Type) where
  | starting
  | attempting (batch : List α) (n attempt : Nat)
  | givingUp (batch : List α) (reason : Text)
  | waiting (batch : List α) (n wait : Nat)
  | returned
  deriving DecidableEq

/-- `items` are the pending envelopes `items[head..]`, `runs` the unfinished calls of
`run`, `attempts` and `waits` the promises made so far. -/
structure SinkQueue (α : Type) where
  items : List α
  pumping : Bool
  closed : Bool
  interrupt : Option Interrupt
  runs : List (Call α)
  attempts : List (Option SendResult)
  waits : List Bool
  idleWaiters : List Nat
  flushes : Nat
  deriving DecidableEq

def createSinkQueue : SinkQueue α := ⟨[], false, false, none, [], [], [], [], 0⟩

/-- What an event shows: the events handed to `onEvent`, the calls of the transport and
the flushes that are resolved. -/
structure Shown (α : Type) where
  events : List (SinkEvent α)
  sends : List (Send α)
  flushed : List (Nat × Bool)
  deriving DecidableEq

def quiet : Shown α := ⟨[], [], []⟩

def emit (type : SinkEventType) (envelopes : List α) (reason : Option Text) : Shown α :=
  ⟨[⟨type, envelopes, reason⟩], [], []⟩

def normalize : Option SendResult → SendResult
  | some .ok => .ok
  | some (.failure retryable reason) => .failure retryable reason
  | none => .failure true (js "malformed transport result")

def TransportReply.result : TransportReply → SendResult
  | .resolved value => normalize value
  | .rejected => .failure true (js "transport rejected")
  | .threw => .failure true (js "transport threw")

def resolveIdle (idle : Bool) (q : SinkQueue α) : SinkQueue α × Shown α :=
  ({ q with idleWaiters := [] }, ⟨[], [], q.idleWaiters.map fun waiter => (waiter, idle)⟩)

/-- The first settlement of an attempt counts. -/
def settle (id : Nat) (result : SendResult) (q : SinkQueue α) : SinkQueue α :=
  if q.attempts[id]? = some none then
    { q with attempts := q.attempts.set id (some result), interrupt := none }
  else q

def cancel (q : SinkQueue α) : SinkQueue α :=
  match q.interrupt with
  | none => q
  | some (.attempt id) => settle id (.failure false (js "closed")) q
  | some (.wait id) => { q with waits := q.waits.set id true, interrupt := none }

def attempt (k : Nat) (batch : List α) (n : Nat) (q : SinkQueue α) : SinkQueue α × Shown α :=
  ({ q with
      attempts := q.attempts ++ [none]
      interrupt := some (.attempt q.attempts.length)
      runs := q.runs.set k (.attempting batch n q.attempts.length) },
    ⟨[], [⟨n, batch⟩], []⟩)

def wait (k : Nat) (batch : List α) (n : Nat) (q : SinkQueue α) : SinkQueue α × Shown α :=
  ({ q with
      waits := q.waits ++ [false]
      interrupt := some (.wait q.waits.length)
      runs := q.runs.set k (.waiting batch n q.waits.length) }, quiet)

/-- The head of the loop of `run`, and what follows the loop. -/
def loop (o : SinkQueueOptions) (k : Nat) (q : SinkQueue α) : SinkQueue α × Shown α :=
  if !q.closed && !q.items.isEmpty then
    attempt k (q.items.take o.maxBatch) 1 { q with items := q.items.drop o.maxBatch }
  else
    let q := { q with runs := q.runs.eraseIdx k, pumping := false }
    if !q.closed && q.items.isEmpty then resolveIdle true q else (q, quiet)

/-- `deliver` has counted its batch and returns. -/
def returns (k : Nat) (q : SinkQueue α) : SinkQueue α := { q with runs := q.runs.set k .returned }

/-- `deliver` once its attempt is settled. -/
def judge (o : SinkQueueOptions) (k : Nat) (batch : List α) (n : Nat) (result : SendResult)
    (q : SinkQueue α) : SinkQueue α × Shown α :=
  match result with
  | .ok => (returns k q, emit .sent batch none)
  | .failure retryable reason =>
    if q.closed then (returns k q, emit .dropped batch (some (js "closed")))
    else if !retryable || o.maxAttempts ≤ n then
      ({ q with runs := q.runs.set k (.givingUp batch reason) }, emit .failed batch (some reason))
    else wait k batch n q

/-- One turn of the `k`-th unfinished call of `run`. -/
def turn (o : SinkQueueOptions) (k : Nat) (q : SinkQueue α) : Option (SinkQueue α × Shown α) :=
  match q.runs[k]? with
  | none => none
  | some .starting => some (loop o k q)
  | some .returned => some (loop o k q)
  | some (.attempting batch n id) =>
    match q.attempts[id]? with
    | some (some result) => some (judge o k batch n result q)
    | _ => none
  | some (.givingUp batch reason) => some (returns k q, emit .dropped batch (some reason))
  | some (.waiting batch n id) =>
    if q.waits[id]? = some true then
      if q.closed then some (returns k q, emit .dropped batch (some (js "closed")))
      else some (attempt k batch (n + 1) q)
    else none

def enqueue (o : SinkQueueOptions) (envelope : α) (q : SinkQueue α) : SinkQueue α × Shown α :=
  if q.closed then (q, emit .dropped [envelope] (some (js "closed")))
  else
    let overflowed := o.capacity ≤ q.items.length
    let kept := if overflowed then q.items.drop 1 else q.items
    ({ q with
        items := kept ++ [envelope]
        pumping := true
        runs := if q.pumping then q.runs else q.runs ++ [.starting] },
      if overflowed then emit .dropped (q.items.take 1) (some (js "overflow")) else quiet)

def flush (q : SinkQueue α) : SinkQueue α × Shown α :=
  let id := q.flushes
  let q := { q with flushes := id + 1 }
  if q.closed then (q, ⟨[], [], [(id, false)]⟩)
  else if !q.pumping && q.items.isEmpty then (q, ⟨[], [], [(id, true)]⟩)
  else ({ q with idleWaiters := q.idleWaiters ++ [id] }, quiet)

def close (q : SinkQueue α) : SinkQueue α × Shown α :=
  if q.closed then (q, quiet)
  else
    let (closed, shown) := resolveIdle false (cancel { q with closed := true, items := [] })
    (closed, if q.items.isEmpty then shown
      else { shown with events := [⟨.dropped, q.items, some (js "closed")⟩] })

inductive Label (α : Type) where
  | enqueue (envelope : α)
  | flush
  | flushTimeout (id : Nat)
  | close
  | answer (id : Nat) (reply : TransportReply)
  | timeout (id : Nat)
  | elapsed (id : Nat)
  | turn (k : Nat)

/-- One event. A timer that was cleared does not fire. -/
def next (o : SinkQueueOptions) (q : SinkQueue α) : Label α → Option (SinkQueue α × Shown α)
  | .enqueue envelope => some (enqueue o envelope q)
  | .flush => some (flush q)
  | .flushTimeout id =>
    if id ∈ q.idleWaiters then
      some ({ q with idleWaiters := q.idleWaiters.erase id }, ⟨[], [], [(id, false)]⟩)
    else none
  | .close => some (close q)
  | .answer id reply => some (settle id reply.result q, quiet)
  | .timeout id => some (settle id (.failure true (js "timeout")) q, quiet)
  | .elapsed id =>
    if q.waits[id]? = some false then
      some ({ q with waits := q.waits.set id true, interrupt := none }, quiet)
    else none
  | .turn k => turn o k q

/-- The queue and all that it was given and has shown, oldest first. -/
structure Delivery (α : Type) where
  queue : SinkQueue α
  enqueued : List α
  events : List (SinkEvent α)
  sends : List (Send α)
  flushed : List (Nat × Bool)

def arrived : Label α → List α
  | .enqueue envelope => [envelope]
  | _ => []

def advance (o : SinkQueueOptions) (s : Delivery α) (label : Label α) : Option (Delivery α) :=
  (next o s.queue label).map fun (q, shown) =>
    ⟨q, s.enqueued ++ arrived label, s.events ++ shown.events, s.sends ++ shown.sends,
      s.flushed ++ shown.flushed⟩

def delivery (o : SinkQueueOptions) : System (Delivery α) (Label α) :=
  .ofStep (fun s => s = ⟨createSinkQueue, [], [], [], []⟩) (advance o)

def Call.batch : Call α → List α
  | .attempting batch _ _ | .givingUp batch _ | .waiting batch _ _ => batch
  | .starting | .returned => []

/-- The batch that a call still tries to send, and the number of its last attempt. -/
def Call.trying : Call α → Option (Send α)
  | .attempting batch n _ | .waiting batch n _ => some ⟨n, batch⟩
  | .givingUp _ _ | .starting | .returned => none

/-- The ways an event can go, as far as envelopes, calls of `run` and calls of the
transport are concerned. -/
inductive Effect (o : SinkQueueOptions) (q : SinkQueue α) :
    Label α → SinkQueue α → Shown α → Prop
  | quiet (label : Label α) (q' : SinkQueue α) (flushed : List (Nat × Bool))
      (none_ : arrived label = []) (items : q'.items = q.items) (pumping : q'.pumping = q.pumping)
      (runs : q'.runs = q.runs)
      (idle : (∃ id, (id, true) ∈ flushed) → q.pumping = false ∧ q.items = []) :
    Effect o q label q' ⟨[], [], flushed⟩
  | refuses (envelope : α) (reason : Option Text) :
    Effect o q (.enqueue envelope) q (emit .dropped [envelope] reason)
  | queues (envelope : α) (q' : SinkQueue α) (room : q.items.length < o.capacity)
      (items : q'.items = q.items ++ [envelope]) (pumping : q'.pumping = true)
      (runs : q'.runs = if q.pumping then q.runs else q.runs ++ [.starting]) :
    Effect o q (.enqueue envelope) q' Sinks.quiet
  | overflows (envelope : α) (q' : SinkQueue α) (reason : Option Text)
      (items : q'.items = q.items.drop 1 ++ [envelope]) (pumping : q'.pumping = true)
      (runs : q'.runs = if q.pumping then q.runs else q.runs ++ [.starting]) :
    Effect o q (.enqueue envelope) q' (emit .dropped (q.items.take 1) reason)
  | closes (q' : SinkQueue α) (reason : Option Text) (flushed : List (Nat × Bool))
      (items : q'.items = []) (pumping : q'.pumping = q.pumping) (runs : q'.runs = q.runs)
      (idle : ∀ id, (id, true) ∉ flushed) :
    Effect o q .close q' ⟨[⟨.dropped, q.items, reason⟩], [], flushed⟩
  | takes (k id : Nat) (call : Call α) (q' : SinkQueue α) (held : q.runs[k]? = some call)
      (resting : call.batch = []) (items : q'.items = q.items.drop o.maxBatch)
      (pumping : q'.pumping = q.pumping)
      (runs : q'.runs = q.runs.set k (.attempting (q.items.take o.maxBatch) 1 id)) :
    Effect o q (.turn k) q' ⟨[], [⟨1, q.items.take o.maxBatch⟩], []⟩
  | retries (k n id old : Nat) (batch : List α) (q' : SinkQueue α)
      (held : q.runs[k]? = some (.waiting batch n old)) (items : q'.items = q.items)
      (pumping : q'.pumping = q.pumping)
      (runs : q'.runs = q.runs.set k (.attempting batch (n + 1) id)) :
    Effect o q (.turn k) q' ⟨[], [⟨n + 1, batch⟩], []⟩
  | counts (k : Nat) (call : Call α) (type : SinkEventType) (reason : Option Text)
      (held : q.runs[k]? = some call) (counted : type ≠ .failed) :
    Effect o q (.turn k) (returns k q) (emit type call.batch reason)
  | moves (k : Nat) (call call' : Call α) (q' : SinkQueue α) (failed : List (SinkEvent α))
      (held : q.runs[k]? = some call) (same : call'.batch = call.batch)
      (trying : call'.trying = none ∨ call'.trying = call.trying)
      (uncounted : ∀ event ∈ failed, event.type = .failed) (items : q'.items = q.items)
      (pumping : q'.pumping = q.pumping) (runs : q'.runs = q.runs.set k call') :
    Effect o q (.turn k) q' ⟨failed, [], []⟩
  | finishes (k : Nat) (call : Call α) (q' : SinkQueue α) (flushed : List (Nat × Bool))
      (held : q.runs[k]? = some call) (resting : call.batch = []) (items : q'.items = q.items)
      (pumping : q'.pumping = false) (runs : q'.runs = q.runs.eraseIdx k)
      (idle : (∃ id, (id, true) ∈ flushed) → q.items = []) :
    Effect o q (.turn k) q' ⟨[], [], flushed⟩

theorem settle_frame (id : Nat) (result : SendResult) (q : SinkQueue α) :
    (settle id result q).items = q.items ∧ (settle id result q).pumping = q.pumping ∧
      (settle id result q).runs = q.runs ∧ (settle id result q).idleWaiters = q.idleWaiters := by
  unfold settle
  split <;> exact ⟨rfl, rfl, rfl, rfl⟩

theorem cancel_frame (q : SinkQueue α) :
    (cancel q).items = q.items ∧ (cancel q).pumping = q.pumping ∧ (cancel q).runs = q.runs := by
  unfold cancel
  split
  · exact ⟨rfl, rfl, rfl⟩
  · obtain ⟨items, pumping, runs, -⟩ := settle_frame _ (.failure false (js "closed")) q
    exact ⟨items, pumping, runs⟩
  · exact ⟨rfl, rfl, rfl⟩

theorem enqueue_effect (o : SinkQueueOptions) (envelope : α) (q : SinkQueue α) :
    Effect o q (.enqueue envelope) (enqueue o envelope q).1 (enqueue o envelope q).2 := by
  unfold enqueue
  split
  · exact .refuses envelope _
  · dsimp only
    by_cases full : o.capacity ≤ q.items.length
    · simp only [full, if_true]
      exact .overflows envelope _ _ rfl rfl rfl
    · simp only [full, if_false]
      exact .queues envelope _ (by omega) rfl rfl rfl

theorem flush_effect (o : SinkQueueOptions) (q : SinkQueue α) :
    Effect o q .flush (flush q).1 (flush q).2 := by
  unfold flush
  dsimp only
  split
  · exact .quiet _ _ _ rfl rfl rfl rfl (by simp)
  · split
    next idle =>
      simp only [Bool.and_eq_true, Bool.not_eq_true', List.isEmpty_iff] at idle
      exact .quiet _ _ _ rfl rfl rfl rfl fun _ => idle
    · exact .quiet _ _ _ rfl rfl rfl rfl (by simp)

theorem close_effect (o : SinkQueueOptions) (q : SinkQueue α) :
    Effect o q .close (close q).1 (close q).2 := by
  unfold close
  split
  · exact .quiet _ _ _ rfl rfl rfl rfl (by simp)
  · obtain ⟨items, pumping, runs⟩ := cancel_frame { q with closed := true, items := [] }
    have unresolved : ∀ id, (id, true) ∉
        (cancel { q with closed := true, items := [] }).idleWaiters.map fun w => (w, false) := by
      simp
    dsimp only [resolveIdle]
    split
    next empty =>
      rw [List.isEmpty_iff] at empty
      exact .quiet _ _ _ rfl (items.trans empty.symm) pumping runs
        fun ⟨id, mem⟩ => absurd mem (unresolved id)
    next => exact .closes _ _ _ items pumping runs unresolved

variable {q q' : SinkQueue α} {k : Nat} {shown : Shown α}

theorem loop_effect (o : SinkQueueOptions) {call : Call α} (held : q.runs[k]? = some call)
    (resting : call.batch = []) :
    Effect o q (.turn k) (loop o k q).1 (loop o k q).2 := by
  unfold loop
  split
  · exact .takes k _ call _ held resting rfl rfl rfl
  · dsimp only
    split
    next idle =>
      simp only [Bool.and_eq_true, Bool.not_eq_true', List.isEmpty_iff] at idle
      exact .finishes k call _ _ held resting rfl rfl rfl fun _ => idle.2
    next => exact .finishes k call _ _ held resting rfl rfl rfl (by simp)

theorem judge_effect (o : SinkQueueOptions) {n id : Nat} {batch : List α}
    (held : q.runs[k]? = some (.attempting batch n id)) (result : SendResult) :
    Effect o q (.turn k) (judge o k batch n result q).1 (judge o k batch n result q).2 := by
  unfold judge
  split
  · exact .counts k (.attempting batch n id) .sent none held (by simp)
  · split
    · exact .counts k (.attempting batch n id) .dropped _ held (by simp)
    · split
      · exact .moves k _ (.givingUp batch _) _ _ held rfl (Or.inl rfl) (by simp) rfl rfl rfl
      · exact .moves k _ (.waiting batch n _) _ _ held rfl (Or.inr rfl) (by simp) rfl rfl rfl

theorem Effect.of_some {o : SinkQueueOptions} {label : Label α} {result : SinkQueue α × Shown α}
    (effect : Effect o q label result.1 result.2) (taken : some result = some (q', shown)) :
    Effect o q label q' shown := by
  rw [Option.some.inj taken] at effect
  exact effect

theorem turn_effect (o : SinkQueueOptions) (taken : turn o k q = some (q', shown)) :
    Effect o q (.turn k) q' shown := by
  unfold turn at taken
  split at taken
  · cases taken
  next held => exact (loop_effect o held rfl).of_some taken
  next held => exact (loop_effect o held rfl).of_some taken
  next batch n id held =>
    split at taken
    next result settled => exact (judge_effect o held result).of_some taken
    · cases taken
  next batch reason held =>
    cases taken
    exact .counts k (.givingUp batch reason) .dropped _ held (by simp)
  next batch n id held =>
    split at taken
    · split at taken
      · cases taken
        exact .counts k (.waiting batch n id) .dropped _ held (by simp)
      · cases taken
        exact .retries k n _ id batch _ held rfl rfl rfl
    · cases taken

theorem next_effect (o : SinkQueueOptions) {label : Label α}
    (taken : next o q label = some (q', shown)) :
    Effect o q label q' shown := by
  cases label with
  | enqueue envelope => exact (enqueue_effect o envelope q).of_some taken
  | flush => exact (flush_effect o q).of_some taken
  | flushTimeout id =>
    simp only [next] at taken
    split at taken
    · cases taken
      exact .quiet _ _ _ rfl rfl rfl rfl (by simp)
    · cases taken
  | close => exact (close_effect o q).of_some taken
  | answer id reply =>
    cases taken
    obtain ⟨items, pumping, runs, -⟩ := settle_frame id reply.result q
    exact .quiet _ _ _ rfl items pumping runs (by simp)
  | timeout id =>
    cases taken
    obtain ⟨items, pumping, runs, -⟩ := settle_frame id (.failure true (js "timeout")) q
    exact .quiet _ _ _ rfl items pumping runs (by simp)
  | elapsed id =>
    simp only [next] at taken
    split at taken
    · cases taken
      exact .quiet _ _ _ rfl rfl rfl rfl (by simp)
    · cases taken
  | turn k => exact turn_effect o taken

end Ultrathink.Source.Obs.Sinks
