import Mathlib.Algebra.Group.Nat.Defs
import Ultrathink.Library.JsText

/-!
# Teachable moments and their local store

The record of `teach/types.ts`, the store of `teach/store.ts` and the parts of
`teach/mapping.ts` that a retain sends. A directory is the list of its valid files, a
time is its milliseconds. Each write of a file may fail, which leaves the file as it was;
`Faults` says which writes of a stretch of code do.
-/

namespace Ultrathink.Source.Teach

open List Library.JsText

inductive MomentKind where
  | bug
  | pitfall
  | pattern
  | decision
  | playbook
  deriving DecidableEq

inductive MomentStatus where
  | candidate
  | confirmed
  | promoted
  | superseded
  deriving DecidableEq

inductive MomentOrigin where
  | explicit
  | observe
  | imported
  deriving DecidableEq

structure Retained where
  stamp : Nat
  bank : Text
  documentId : Text
  deriving DecidableEq

inductive SkillTarget where
  | hermes
  | omp
  | claude
  | primeAgent
  | drafts
  deriving DecidableEq

/-- The skill that was made from a moment. -/
structure Promotion where
  stamp : Nat
  skill : Text
  target : SkillTarget
  path : Option Text
  deriving DecidableEq

structure TeachableMoment where
  id : Text
  name : Text
  description : Text
  body : Text
  sourcePhase : Text
  sourceArtifacts : List Text
  createdAt : Nat
  tags : List Text
  relatedIds : List Text
  kind : MomentKind
  status : MomentStatus
  origin : MomentOrigin
  project : Text
  host : Text
  confidence : Rat
  occurrences : Nat
  lastSeenAt : Nat
  dedupeKey : Text
  recalled : Nat
  supersedes : Option Text
  retained : Option Retained
  promoted : Option Promotion := none
  deriving DecidableEq

inductive OutboxOp where
  | retain (momentId : Text)
  | delete (documentId : Text)
  | tags (documentId : Text) (tags : List Text)
  deriving DecidableEq

structure OutboxEntry where
  id : Text
  op : OutboxOp
  attempts : Nat
  nextAt : Nat
  enqueuedAt : Nat
  lastError : Option Text
  deriving DecidableEq

def maxContentChars : Nat := 3000

def documentIdFor (momentId : Text) : Text := js "tm:" ++ momentId

theorem documentIdFor_inj {a b : Text} (same : documentIdFor a = documentIdFor b) : a = b :=
  append_cancel_left same

/-- The cut does not leave half of a surrogate pair. -/
def contentFor (moment : TeachableMoment) : Text :=
  let text := js "# " ++ moment.name ++ js "\n\n" ++ moment.description ++ js "\n\n" ++ moment.body
  if text.length ≤ maxContentChars then text
  else
    let cut := text.take maxContentChars
    if cut.getLast?.any isHighSurrogate then cut.dropLast else cut

/-- What is sent beside the content: functions of the moment that only Hindsight and
the log read. -/
structure Wording where
  tagsFor : TeachableMoment → List Text
  metadataFor : TeachableMoment → List (Text × Text)
  redactLine : Text → Text

structure Document where
  content : Text
  tags : List Text
  metadata : List (Text × Text)
  deriving DecidableEq

structure TeachStore where
  momentFiles : List TeachableMoment
  outboxFiles : List OutboxEntry
  deriving DecidableEq

/-- The writes that fail, by the file that they write. -/
structure Faults where
  put : Text → Bool
  remove : Text → Bool
  enqueue : OutboxOp → Bool
  ack : Text → Bool
  fail : Text → Bool

def noFaults : Faults :=
  ⟨fun _ => false, fun _ => false, fun _ => false, fun _ => false, fun _ => false⟩

def backoffBaseMs : Nat := 60000

def backoffCapMs : Nat := 6 * 60 * 60000

/-- Newest first, equal times by the time of creation and then by id. -/
def momentBefore (a b : TeachableMoment) : Bool :=
  b.lastSeenAt < a.lastSeenAt || (a.lastSeenAt = b.lastSeenAt &&
    (b.createdAt < a.createdAt || (a.createdAt = b.createdAt && decide (a.id ≤ b.id))))

def entryBefore (a b : OutboxEntry) : Bool :=
  a.enqueuedAt < b.enqueuedAt || (a.enqueuedAt = b.enqueuedAt && decide (a.id ≤ b.id))

namespace TeachStore

def get (s : TeachStore) (id : Text) : Option TeachableMoment :=
  s.momentFiles.find? fun moment => moment.id = id

def list (s : TeachStore) : List TeachableMoment := s.momentFiles.mergeSort momentBefore

def outbox (s : TeachStore) : List OutboxEntry := s.outboxFiles.mergeSort entryBefore

def findByDedupeKey (s : TeachStore) (key : Text) : Option TeachableMoment :=
  let found := s.list.filter fun moment => moment.dedupeKey = key
  (found.find? fun moment => moment.status ≠ .superseded).or found.head?

/-- None when the write throws. -/
def put (faults : Faults) (moment : TeachableMoment) (s : TeachStore) : Option TeachStore :=
  if faults.put moment.id then none
  else some { s with
    momentFiles := moment :: s.momentFiles.filter fun other => other.id ≠ moment.id }

/-- Whether there was a file to remove. -/
def remove (faults : Faults) (id : Text) (s : TeachStore) : Option (Bool × TeachStore) :=
  if (s.get id).isNone then some (false, s)
  else if faults.remove id then none
  else some (true, { s with momentFiles := s.momentFiles.filter fun other => other.id ≠ id })

/-- `id` is the name drawn for a new entry. -/
def enqueue (faults : Faults) (op : OutboxOp) (now : Nat) (id : Text) (s : TeachStore) :
    Option (OutboxEntry × TeachStore) :=
  match s.outbox.find? fun entry => entry.op = op with
  | some existing => some (existing, s)
  | none =>
    if faults.enqueue op then none
    else
      let entry : OutboxEntry := ⟨id, op, 0, now, now, none⟩
      some (entry, { s with outboxFiles := s.outboxFiles ++ [entry] })

def ack (faults : Faults) (entryId : Text) (s : TeachStore) : Option TeachStore :=
  if faults.ack entryId then none
  else some { s with outboxFiles := s.outboxFiles.filter fun entry => entry.id ≠ entryId }

def failed (entry : OutboxEntry) (error : Text) (now : Nat) : OutboxEntry :=
  { entry with
    attempts := entry.attempts + 1
    nextAt := now + min backoffCapMs (backoffBaseMs * 2 ^ entry.attempts)
    lastError := some error }

def fail (w : Wording) (faults : Faults) (entryId reason : Text) (now : Nat) (s : TeachStore) :
    Option TeachStore :=
  if s.outboxFiles.all fun entry => entry.id ≠ entryId then some s
  else if faults.fail entryId then none
  else some { s with
    outboxFiles := s.outboxFiles.map fun entry =>
      if entry.id = entryId then failed entry (w.redactLine reason) now else entry }

end TeachStore

variable {s : TeachStore} {moment : TeachableMoment}

theorem TeachStore.get_none {id : Text} :
    s.get id = none ↔ ∀ moment ∈ s.momentFiles, moment.id ≠ id := by
  simp [TeachStore.get]

theorem TeachStore.get_id {id : Text} (found : s.get id = some moment) : moment.id = id := by
  simpa using find?_some found

theorem TeachStore.get_mem (mem : moment ∈ s.momentFiles) : s.get moment.id ≠ none :=
  fun missing => get_none.mp missing moment mem rfl

theorem TeachStore.mem_list :
    moment ∈ s.list ↔ moment ∈ s.momentFiles := mem_mergeSort

theorem TeachStore.mem_outbox {entry : OutboxEntry} :
    entry ∈ s.outbox ↔ entry ∈ s.outboxFiles := mem_mergeSort

theorem TeachStore.findByDedupeKey_mem {key : Text} (found : s.findByDedupeKey key = some moment) :
    moment ∈ s.momentFiles := by
  have within : moment ∈ s.list.filter fun moment => moment.dedupeKey = key := by
    rcases Option.or_eq_some_iff.mp found with first | ⟨-, first⟩
    · exact mem_of_find?_eq_some first
    · exact mem_of_head? first
  exact mem_list.mp (mem_of_mem_filter within)

/-- Stops at the first entry whose removal throws. -/
def ackAll (faults : Faults) : List OutboxEntry → TeachStore → Bool × TeachStore
  | [], s => (true, s)
  | entry :: rest, s =>
    match s.ack faults entry.id with
    | none => (false, s)
    | some s => ackAll faults rest s

def dropRetainOps (faults : Faults) (momentId : Text) (s : TeachStore) : Bool × TeachStore :=
  ackAll faults (s.outbox.filter fun entry => entry.op = .retain momentId) s

end Ultrathink.Source.Teach
