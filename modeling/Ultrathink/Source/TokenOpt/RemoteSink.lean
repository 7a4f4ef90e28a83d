import Ultrathink.Library.Runs

/-!
# The remote sink

`createRemoteSink` of `src/remote-sink.ts`, one event at a time: a call of the sink, its
timer, a turn of `deliver` or `flush` after an await, and what happens to a remote
write. A write is not cancelled when `withTimeout` gives up on it, so it has a state of
its own beside the `deliver` call that started it. What the server and the disk do is
any: a statement may store its rows and still be answered with an error, or store them
after that.
-/

namespace Ultrathink.Source.TokenOpt.RemoteSink

open Library.Runs

def INSERT_CHUNK_ROWS : Nat := 1000

structure Options where
  /-- `remoteUrl !== undefined` -/
  remote : Bool
  batchSize : Nat
  maxQueue : Nat
  batchSize_pos : 1 ≤ batchSize

/-- A pushed row, numbered in the order of the calls of `push`. -/
structure Row (α : Type) where
  id : Nat
  value : α
deriving DecidableEq

/-- The counter that a row is counted under. -/
inductive Tally where
  | sent | fellBack | dropped
deriving DecidableEq

/-- Where `deliver` and the `flush` around it stand: the write races its timeout, the
race is decided, the rows are being appended to the fallback file, that has ended, the
rows are counted, and `flush` has returned. -/
inductive Stage where
  | racing
  | raced (ok : Bool)
  | spilling
  | spilled (ok : Bool)
  | counted (tally : Tally)
  | done (tally : Tally)
deriving DecidableEq

/-- Where `writeRemote` stands: not called, making the client and the schema, awaiting a
statement that has or has not stored its rows, rejected by one, or ended. -/
inductive Write where
  | unused
  | preparing
  | inserting (stored : Bool)
  | failed (stored : Bool)
  | ended
deriving DecidableEq

variable {α : Type}

/-- Rows that left the queue together, or that never entered it. -/
structure Batch (α : Type) where
  rows : List (Row α)
  stage : Stage
  write : Write
  /-- The rows that no statement has stored. -/
  rest : List (Row α)
  /-- What the batch has put into the remote table. -/
  stored : List (Row α)
  /-- What the batch has put into the fallback file. -/
  written : List (Row α)
deriving DecidableEq

structure Sink (α : Type) where
  queue : List (Row α)
  batches : List (Batch α)
  timer : Bool
  closed : Bool
  /-- The calls of `close` that await their race. -/
  closing : Nat
  sent : Nat
  fellBack : Nat
  dropped : Nat
  /-- The calls of `push` so far. -/
  pushes : Nat
deriving DecidableEq

def Sink.new : Sink α := ⟨[], [], false, false, 0, 0, 0, 0, 0⟩

def Sink.count (s : Sink α) (n : Nat) : Tally → Sink α
  | .sent => { s with sent := s.sent + n }
  | .fellBack => { s with fellBack := s.fellBack + n }
  | .dropped => { s with dropped := s.dropped + n }

def Sink.put (s : Sink α) (i : Nat) (b : Batch α) : Sink α := { s with batches := s.batches.set i b }

def schedule (s : Sink α) : Sink α :=
  if s.timer ∨ s.closed ∨ s.queue = [] then s else { s with timer := true }

/-- A row that is counted as dropped at once. -/
def Batch.refused (row : Row α) : Batch α := ⟨[row], .done .dropped, .unused, [row], [], []⟩

def push (o : Options) (value : α) (s : Sink α) : Sink α :=
  let row : Row α := ⟨s.pushes, value⟩
  let s := { s with pushes := s.pushes + 1 }
  if s.closed ∨ o.maxQueue ≤ s.queue.length then
    { s with batches := s.batches ++ [.refused row], dropped := s.dropped + 1 }
  else schedule { s with queue := s.queue ++ [row] }

/-- `deliver(batch)` up to its first await. -/
def Batch.deliver (o : Options) (rows : List (Row α)) : Batch α :=
  if o.remote then ⟨rows, .racing, .preparing, rows, [], []⟩
  else ⟨rows, .spilling, .unused, rows, [], []⟩

def flush (o : Options) (s : Sink α) : Sink α :=
  if s.queue = [] then s
  else { s with
    queue := s.queue.drop o.batchSize
    batches := s.batches ++ [.deliver o (s.queue.take o.batchSize)] }

def close (o : Options) (s : Sink α) : Sink α :=
  flush o { s with closed := true, timer := false, closing := s.closing + 1 }

/-- Where an append ends: in full, or after the rows that reached the file. -/
def appended (rows : List (Row α)) (part : Nat) (ok : Bool) : List (Row α) :=
  if ok then rows else rows.take part

def tallyOf (ok : Bool) : Tally := if ok then .fellBack else .dropped

/-- What is still queued when `close` resumes goes to the file or is dropped. -/
def spillQueued (part : Nat) (ok : Bool) (s : Sink α) : Sink α :=
  if s.queue = [] then s
  else
    let rows := s.queue
    let spill : Batch α :=
      ⟨rows, .done (tallyOf ok), .unused, rows, [], appended rows part ok⟩
    { s with queue := [], batches := s.batches ++ [spill] }.count rows.length (tallyOf ok)

/-- The write's promise settles. Only a race that is still open hears of it. -/
def Batch.settle (b : Batch α) (ok : Bool) : Batch α :=
  if b.stage = .racing then { b with stage := .raced ok } else b

/-- The loop of `writeRemote` over the chunks. -/
def Batch.nextStatement (b : Batch α) : Batch α :=
  if b.rest = [] then { b with write := .ended }.settle true
  else { b with write := .inserting false }

inductive DeliveryEvent where
  /-- The client and the schema are made, or not. -/
  | prepared (ok : Bool)
  /-- The server stores the rows of the statement. -/
  | insert
  /-- The statement's promise settles. -/
  | replied (ok : Bool)
  /-- The timer of `withTimeout` fires. -/
  | expired
  /-- The append to the fallback file ends. -/
  | appendSettled (part : Nat) (ok : Bool)
deriving DecidableEq

/-- The statement puts its chunk into the table. -/
def Batch.store (b : Batch α) (write : Write) : Batch α :=
  { b with
    stored := b.stored ++ b.rest.take INSERT_CHUNK_ROWS
    rest := b.rest.drop INSERT_CHUNK_ROWS
    write }

def Batch.step (b : Batch α) : DeliveryEvent → Option (Batch α)
  | .prepared ok =>
    if b.write = .preparing then
      some (if ok then b.nextStatement else { b with write := .ended }.settle false)
    else none
  | .insert =>
    if b.write = .inserting false then some (b.store (.inserting true))
    else if b.write = .failed false then some (b.store (.failed true))
    else none
  | .replied true =>
    if b.write = .inserting true then some b.nextStatement else none
  | .replied false =>
    match b.write with
    | .inserting stored => some ({ b with write := .failed stored }.settle false)
    | _ => none
  | .expired => if b.stage = .racing then some (b.settle false) else none
  | .appendSettled part ok =>
    if b.stage = .spilling then
      some { b with stage := .spilled ok, written := appended b.rows part ok }
    else none

/-- `deliver` or `flush` goes on after its await. -/
def resume (s : Sink α) (i : Nat) (b : Batch α) : Option (Sink α) :=
  match b.stage with
  | .raced true => some ((s.put i { b with stage := .counted .sent }).count b.rows.length .sent)
  | .raced false => some (s.put i { b with stage := .spilling })
  | .spilled ok =>
    some ((s.put i { b with stage := .counted (tallyOf ok) }).count b.rows.length (tallyOf ok))
  | .counted tally => some (schedule (s.put i { b with stage := .done tally }))
  | _ => none

inductive Event (α : Type) where
  | push (value : α)
  | flush
  | timerFires
  | close
  | closeResumes (part : Nat) (ok : Bool)
  | delivery (i : Nat) (event : DeliveryEvent)
  | resumes (i : Nat)
deriving DecidableEq

def step (o : Options) (s : Sink α) : Event α → Option (Sink α)
  | .push value => some (push o value s)
  | .flush => some (flush o s)
  | .timerFires => if s.timer then some (flush o { s with timer := false }) else none
  | .close => some (close o s)
  | .closeResumes part ok =>
    if s.closing = 0 then none
    else some (spillQueued part ok { s with closing := s.closing - 1 })
  | .delivery i event =>
    match s.batches[i]? with
    | none => none
    | some b => (b.step event).map (s.put i)
  | .resumes i =>
    match s.batches[i]? with
    | none => none
    | some b => resume s i b

def remoteSink (o : Options) (α : Type) : System (Sink α) (Event α) :=
  .ofStep (· = .new) (step o)

/-- The rows in the remote table. -/
def Sink.table (s : Sink α) : List (Row α) := s.batches.flatMap Batch.stored

/-- The rows in the fallback file. -/
def Sink.file (s : Sink α) : List (Row α) := s.batches.flatMap Batch.written

end Ultrathink.Source.TokenOpt.RemoteSink
