import Ultrathink.Library.Runs
import Ultrathink.Source.Teach.Store

/-!
# Capture, confirm, forget and sync of teachable moments

`teach/capture.ts` in one process: any number of operations run side by side, each from one
`await` to the next. The server handles a request at any time after it was sent, once at most; an
answer of success means that it has. Identifiers are never drawn twice.
-/

namespace Ultrathink.Source.Teach

open Library JsText Runs

inductive HindsightErrorKind where
  | auth
  | notFound
  | badRequest
  | rateLimit
  | server
  | timeout
  | network
  | invalidResponse
  deriving DecidableEq

def HindsightErrorKind.text : HindsightErrorKind → Text
  | .auth => js "auth"
  | .notFound => js "not-found"
  | .badRequest => js "bad-request"
  | .rateLimit => js "rate-limit"
  | .server => js "server"
  | .timeout => js "timeout"
  | .network => js "network"
  | .invalidResponse => js "invalid-response"

structure Failure where
  kind : Option HindsightErrorKind
  message : Text
  deriving DecidableEq

inductive RetainState where
  | retained
  | queued
  | localOnly
  | off
  deriving DecidableEq

structure CaptureOutcome where
  moment : TeachableMoment
  created : Bool
  retain : RetainState
  reason : Option Text
  deriving DecidableEq

structure SyncOutcome where
  done : Nat
  pending : Nat
  reason : Option Text
  deriving DecidableEq

inductive Remote where
  | deleted
  | queued
  | none
  deriving DecidableEq

inductive Returned where
  | captured (outcome : CaptureOutcome)
  | confirmed (outcome : Option CaptureOutcome)
  | forgot (id : Text) (removed : Bool) (remote : Remote)
  | synced (outcome : SyncOutcome)
  deriving DecidableEq

/-- A call of `captureMoment` past its first writes: the moment it was called with, the
queued tag change of the moment that it supersedes, and whether the moment is new. -/
structure CaptureCall where
  fresh : TeachableMoment
  tagsEntry : Option OutboxEntry
  created : Bool
  deriving DecidableEq

/-- A call of `syncOutbox` past its checks: what is left of `due` and of `backlog`. -/
structure SyncCall where
  bank : Text
  due : List OutboxEntry
  budget : Nat
  backlog : List TeachableMoment
  done : Nat
  reason : Option Text
  deriving DecidableEq

/-- Who awaits `retainOne`: `settle` for a capture or for a confirmation, `runOp` for an
entry of the outbox, or the backlog of `syncOutbox`. -/
inductive RetainCaller where
  | settle (moment : TeachableMoment) (call : Option CaptureCall)
  | entry (entry : OutboxEntry) (call : SyncCall)
  | backlog (call : SyncCall)
  deriving DecidableEq

/-- The await that an operation stands at. `served` tells that the server has handled
the request that is awaited. -/
inductive Place where
  | retaining (moment : TeachableMoment) (bank : Text) (served : Bool) (caller : RetainCaller)
  | retained (sent : TeachableMoment) (result : Except Failure TeachableMoment)
      (caller : RetainCaller)
  | settled (outcome : CaptureOutcome) (call : CaptureCall)
  | tagging (entry : OutboxEntry) (served : Bool) (outcome : CaptureOutcome) (call : CaptureCall)
  | deleting (id : Text) (removed : Bool) (served : Bool)
  | skipped (entry : OutboxEntry) (call : SyncCall)
  | replaying (entry : OutboxEntry) (served : Bool) (call : SyncCall)

/-- What the surroundings choose for one stretch: the options and the clock of the
context, whether its signal is aborted, the bank of the client or why there is none, the
name drawn for an entry, the writes that fail and the text of their error. -/
structure Turn where
  opened : Bool
  enabled : Bool
  now : Nat
  aborted : Bool
  client : Except Text Text
  entryId : Text
  faults : Faults
  error : Text

inductive Answer where
  | ok
  | error (kind : HindsightErrorKind) (message : Text)
  | threw (message : Text)
  deriving DecidableEq

abbrev Next := TeachStore × (Place ⊕ Returned)

/-- The written text is older than the last capture when the moment was seen since. -/
def isRetained (moment : TeachableMoment) : Bool :=
  match moment.retained with
  | none => false
  | some retained => !(retained.stamp < moment.lastSeenAt)

def statusRank : MomentStatus → Nat
  | .candidate => 0
  | .confirmed => 1
  | .promoted => 2
  | .superseded => 3

def maxListItems : Nat := 20

def maxTags : Nat := 40

/-- The first occurrences, oldest first. -/
def unique (items : List Text) (max : Nat) : List Text := (items.reverse.dedup.reverse).take max

def mergeMoments (old fresh : TeachableMoment) : TeachableMoment :=
  let better := old.confidence ≤ fresh.confidence
  { old with
    body := if better then fresh.body else old.body
    description := if better ∧ fresh.description ≠ [] then fresh.description else old.description
    sourcePhase := if old.sourcePhase = [] then fresh.sourcePhase else old.sourcePhase
    sourceArtifacts := unique (old.sourceArtifacts ++ fresh.sourceArtifacts) maxListItems
    tags := unique (old.tags ++ fresh.tags) maxTags
    relatedIds := unique (old.relatedIds ++ fresh.relatedIds) maxListItems
    status :=
      if old.status = .superseded ∨ statusRank fresh.status ≤ statusRank old.status then old.status
      else fresh.status
    confidence := if better then fresh.confidence else old.confidence
    occurrences := old.occurrences + 1
    lastSeenAt := fresh.lastSeenAt
    supersedes := fresh.supersedes.or old.supersedes }

/-- `retainOne` once its request is answered; the two writes of its success may fail. -/
def retainOne (w : Wording) (moment : TeachableMoment) (bank : Text) (answer : Answer) (t : Turn)
    (s : TeachStore) : TeachStore × Except Failure TeachableMoment :=
  match answer with
  | .threw message => (s, .error ⟨none, js "retain failed: " ++ w.redactLine message⟩)
  | .error kind message =>
    (s, .error ⟨some kind,
      js "retain failed (" ++ kind.text ++ js "): " ++ w.redactLine message⟩)
  | .ok =>
    if t.aborted then
      (s, .error ⟨none, js "retain cancelled after dispatch; the local copy was left unchanged"⟩)
    else
      let current := (s.get moment.id).getD moment
      if contentFor current ≠ contentFor moment then
        (s, .error ⟨none, js ("retain succeeded for an older revision; " ++
          "the newer lesson text stays queued to sync")⟩)
      else
        let retained := { current with retained := some ⟨t.now, bank, documentIdFor moment.id⟩ }
        match s.put t.faults retained with
        | none => (s, .ok retained)
        | some s => ((dropRetainOps t.faults moment.id s).2, .ok retained)

def CaptureOutcome.off (moment : TeachableMoment) (reason : Text) : CaptureOutcome :=
  ⟨moment, false, .off, some reason⟩

def writeFailed (w : Wording) (t : Turn) : Text :=
  js "teach store write failed: " ++ w.redactLine t.error

/-- `settle` up to its await: its outcome, or the bank of the client that retains. -/
def settle (moment : TeachableMoment) (force : Bool) (t : Turn) :
    Except (RetainState × Option Text) Text :=
  match moment.status with
  | .candidate => .error (.localOnly, some (js "candidate: local only until confirmed"))
  | .superseded => .error (.localOnly, some (js "superseded: not retained"))
  | .confirmed | .promoted =>
    if !force && isRetained moment then .error (.retained, none)
    else
      match t.client with
      | .error reason => .error (.localOnly, some reason)
      | .ok bank => .ok bank

/-- `settle` once `retainOne` has returned. -/
def settleRetained (moment : TeachableMoment) (result : Except Failure TeachableMoment) (t : Turn)
    (s : TeachStore) : TeachStore × TeachableMoment × RetainState × Option Text :=
  match result with
  | .ok retained => (s, retained, .retained, none)
  | .error failure =>
    if t.aborted then
      (s, moment, .localOnly, some (js ("action cancelled before the failed retain could be " ++
        "queued; the local lesson is unchanged")))
    else
      match s.enqueue t.faults (.retain moment.id) t.now t.entryId with
      | none => (s, moment, .queued, some failure.message)
      | some (_, s) => (s, moment, .queued, some failure.message)

/-- None when a write throws. -/
def supersede (w : Wording) (oldId newId : Text) (t : Turn) (s : TeachStore) :
    TeachStore × Option (Option OutboxEntry) :=
  match s.get oldId with
  | none => (s, some none)
  | some old =>
    if old.id = newId ∨ old.status = .superseded then (s, some none)
    else
      let updated := { old with status := .superseded }
      match s.put t.faults updated with
      | none => (s, none)
      | some s =>
        match dropRetainOps t.faults old.id s with
        | (false, s) => (s, none)
        | (true, s) =>
          if old.retained.isNone then (s, some none)
          else
            match s.enqueue t.faults (.tags (documentIdFor old.id) (w.tagsFor updated)) t.now
                t.entryId with
            | none => (s, none)
            | some (entry, s) => (s, some (some entry))

/-- The moment that a capture repeats; a superseded one is not repeated. -/
def repeated (moment : TeachableMoment) (s : TeachStore) : Option TeachableMoment :=
  (s.findByDedupeKey moment.dedupeKey).filter fun existing => existing.status ≠ .superseded

/-- The moment that a capture writes. -/
def savedBy (moment : TeachableMoment) (s : TeachStore) : TeachableMoment :=
  match repeated moment s with
  | some existing => mergeMoments existing moment
  | none => moment

def supersededBy (w : Wording) (moment : TeachableMoment) (newId : Text) (t : Turn)
    (s : TeachStore) : TeachStore × Option (Option OutboxEntry) :=
  match moment.supersedes with
  | none => (s, some none)
  | some oldId => supersede w oldId newId t s

def captureSettled (saved : TeachableMoment) (call : CaptureCall) (t : Turn) (s : TeachStore) :
    Next :=
  match settle saved true t with
  | .error (retain, reason) => (s, .inl (.settled ⟨saved, call.created, retain, reason⟩ call))
  | .ok bank => (s, .inl (.retaining saved bank false (.settle saved (some call))))

/-- `captureMoment` up to its first await. -/
def captureMoment (w : Wording) (moment : TeachableMoment) (t : Turn) (s : TeachStore) : Next :=
  if !t.enabled then (s, .inr (.captured (.off moment (js "teach is off"))))
  else if !t.opened then (s, .inr (.captured (.off moment (js "teach store is unavailable"))))
  else
    let saved := savedBy moment s
    match s.put t.faults saved with
    | none => (s, .inr (.captured (.off moment (writeFailed w t))))
    | some s1 =>
      match supersededBy w moment saved.id t s1 with
      | (s2, none) => (s2, .inr (.captured (.off moment (writeFailed w t))))
      | (s2, some tagsEntry) =>
        captureSettled saved ⟨moment, tagsEntry, (repeated moment s).isNone⟩ t s2

/-- The rest of `persist` once `settle` has returned. -/
def persist (outcome : CaptureOutcome) (call : CaptureCall) (t : Turn) (s : TeachStore) : Next :=
  match call.tagsEntry, t.client with
  | some entry, .ok _ => (s, .inl (.tagging entry false outcome call))
  | _, _ => (s, .inr (.captured outcome))

/-- `runOp` of a tag change or a delete once its request is answered. -/
def runOp (w : Wording) (op : OutboxOp) (answer : Answer) : Option Failure :=
  let name := match op with
    | .retain _ => js "retain"
    | .delete _ => js "delete"
    | .tags _ _ => js "tags"
  match op, answer with
  | _, .ok => none
  | .tags _ _, .error .notFound _ => none
  | _, .error kind message =>
    some ⟨some kind, name ++ js " failed (" ++ kind.text ++ js "): " ++ w.redactLine message⟩
  | _, .threw message => some ⟨none, name ++ js " failed: " ++ w.redactLine message⟩

def persistTagged (w : Wording) (entry : OutboxEntry) (outcome : CaptureOutcome)
    (call : CaptureCall) (answer : Answer) (t : Turn) (s : TeachStore) : Next :=
  match runOp w entry.op answer with
  | some _ => (s, .inr (.captured outcome))
  | none =>
    match s.ack t.faults entry.id with
    | none => (s, .inr (.captured (.off call.fresh (writeFailed w t))))
    | some s => (s, .inr (.captured outcome))

/-- `confirmMoment` up to its first await. -/
def confirmMoment (w : Wording) (id : Text) (t : Turn) (s : TeachStore) : Next :=
  match if t.opened then s.get id else none with
  | none => (s, .inr (.confirmed none))
  | some moment =>
    let off := fun reason => Sum.inr (.confirmed (some (.off moment reason)))
    let settled := fun (confirmed : TeachableMoment) (s : TeachStore) =>
      match settle confirmed false t with
      | .error (retain, reason) => (s, .inr (.confirmed (some ⟨confirmed, false, retain, reason⟩)))
      | .ok bank => (s, .inl (.retaining confirmed bank false (.settle confirmed none)))
    if !t.enabled then (s, off (js "teach is off"))
    else if moment.status ≠ .candidate then settled moment s
    else if t.aborted then (s, off (js "confirmation cancelled before it was stored"))
    else
      let confirmed := { moment with status := .confirmed }
      match s.put t.faults confirmed with
      | none => (s, off (writeFailed w t))
      | some s => settled confirmed s

def forgetThrew (id : Text) (s : TeachStore) : Returned := .forgot id (s.get id).isNone .none

def queueDelete (id : Text) (removed : Bool) (t : Turn) (s : TeachStore) : Next :=
  match s.enqueue t.faults (.delete (documentIdFor id)) t.now t.entryId with
  | none => (s, .inr (forgetThrew id s))
  | some (_, s) => (s, .inr (.forgot id removed .queued))

def retainQueued (id : Text) (s : TeachStore) : Bool :=
  s.outbox.any fun entry => entry.op = .retain id

/-- `forgetMoment` up to its await. -/
def forgetMoment (id : Text) (t : Turn) (s : TeachStore) : Next :=
  match if t.opened then s.get id else none with
  | none => (s, .inr (.forgot id false .none))
  | some moment =>
    let inOutbox := retainQueued id s
    match dropRetainOps t.faults id s with
    | (false, s) => (s, .inr (forgetThrew id s))
    | (true, s) =>
      match s.remove t.faults id with
      | none => (s, .inr (forgetThrew id s))
      | some (removed, s) =>
        if moment.retained.isNone && !inOutbox then (s, .inr (.forgot id removed .none))
        else
          match t.enabled, t.client with
          | true, .ok _ => (s, .inl (.deleting id removed false))
          | _, _ => queueDelete id removed t s

def forgetAnswered (w : Wording) (id : Text) (removed : Bool) (answer : Answer) (t : Turn)
    (s : TeachStore) : Next :=
  match runOp w (.delete (documentIdFor id)) answer with
  | none => (s, .inr (.forgot id removed .deleted))
  | some _ => queueDelete id removed t s

def syncBatch : Nat := 20

def syncReturns (call : SyncCall) (s : TeachStore) : Next :=
  (s, .inr (.synced ⟨call.done, s.outbox.length, call.reason⟩))

def syncThrew (w : Wording) (t : Turn) (s : TeachStore) : Next :=
  (s, .inr (.synced ⟨0, 0, some (w.redactLine t.error)⟩))

def SyncCall.failed (call : SyncCall) (failure : Failure) : SyncCall :=
  { call with reason := call.reason.or (some failure.message) }

/-- The head of the loop over the backlog. -/
def syncBacklog (call : SyncCall) (t : Turn) (s : TeachStore) : Next :=
  match call.backlog with
  | [] => syncReturns call s
  | moment :: rest =>
    if t.aborted then syncReturns call s
    else (s, .inl (.retaining moment call.bank false (.backlog { call with backlog := rest })))

def isConfirmed (moment : TeachableMoment) : Bool :=
  moment.status = .confirmed || moment.status = .promoted

def backlogOf (budget : Nat) (s : TeachStore) : List TeachableMoment :=
  (s.list.filter fun moment =>
    isConfirmed moment && !isRetained moment && !retainQueued moment.id s).take budget

/-- The head of the loop over the due entries, `runOp` up to its await, and what follows
the loop. -/
def syncEntries (call : SyncCall) (t : Turn) (s : TeachStore) : Next :=
  match call.due with
  | [] =>
    if call.budget = 0 then syncReturns call s
    else syncBacklog { call with backlog := backlogOf call.budget s } t s
  | entry :: rest =>
    let call := { call with due := rest }
    if t.aborted then syncReturns call s
    else
      match entry.op with
      | .retain momentId =>
        match s.get momentId with
        | none => (s, .inl (.skipped entry call))
        | some moment =>
          if !isConfirmed moment || isRetained moment then (s, .inl (.skipped entry call))
          else (s, .inl (.retaining moment call.bank false (.entry entry call)))
      | .delete _ | .tags _ _ => (s, .inl (.replaying entry false call))

/-- `syncOutbox` up to its first await. -/
def syncOutbox (t : Turn) (s : TeachStore) : Next :=
  let idle := fun (pending : Nat) (reason : Text) =>
    (s, Sum.inr (.synced ⟨0, pending, some reason⟩))
  if !t.opened then idle 0 (js "teach store is unavailable")
  else if !t.enabled then idle s.outbox.length (js "teach is off")
  else
    match t.client with
    | .error unready => idle s.outbox.length unready
    | .ok bank =>
      let due := (s.outbox.filter fun entry => entry.nextAt ≤ t.now).take syncBatch
      syncEntries ⟨bank, due, syncBatch - due.length, [], 0, none⟩ t s

/-- The loop over the due entries once `runOp` has returned. -/
def syncRan (w : Wording) (entry : OutboxEntry) (failure : Option Failure) (call : SyncCall)
    (t : Turn) (s : TeachStore) : Next :=
  match failure with
  | none =>
    match s.ack t.faults entry.id with
    | none => syncThrew w t s
    | some s => syncEntries { call with done := call.done + 1 } t s
  | some failure =>
    match s.fail w t.faults entry.id failure.message t.now with
    | none => syncThrew w t s
    | some s =>
      let call := call.failed failure
      if failure.kind = some .auth then syncReturns call s else syncEntries call t s

/-- The loop over the backlog once `retainOne` has returned. -/
def syncRetained (w : Wording) (moment : TeachableMoment)
    (result : Except Failure TeachableMoment) (call : SyncCall) (t : Turn) (s : TeachStore) :
    Next :=
  match result with
  | .ok _ => syncBacklog { call with done := call.done + 1 } t s
  | .error failure =>
    match s.enqueue t.faults (.retain moment.id) t.now t.entryId with
    | none => syncThrew w t s
    | some (entry, s) =>
      match s.fail w t.faults entry.id failure.message t.now with
      | none => syncThrew w t s
      | some s =>
        let call := call.failed failure
        if failure.kind = some .auth then syncReturns call s else syncBacklog call t s

inductive Request where
  | retain (moment : TeachableMoment)
  | delete (documentId : Text)
  | tags (documentId : Text) (tags : List Text)
  deriving DecidableEq

def OutboxOp.request : OutboxOp → Option Request
  | .retain _ => none
  | .delete documentId => some (.delete documentId)
  | .tags documentId value => some (.tags documentId value)

/-- What the server does; a tag change of a missing document changes nothing. -/
def Request.handle (w : Wording) (remote : Text → Option Document) :
    Request → Text → Option Document
  | .retain moment =>
    Function.update remote (documentIdFor moment.id)
      (some ⟨contentFor moment, w.tagsFor moment, w.metadataFor moment⟩)
  | .delete documentId => Function.update remote documentId none
  | .tags documentId value =>
    Function.update remote documentId ((remote documentId).map fun d => { d with tags := value })

/-- The request that the operation awaits, and whether the server has handled it. -/
def Place.awaits : Place → Option (Request × Bool)
  | .retaining moment _ served _ => some (.retain moment, served)
  | .tagging entry served _ _ | .replaying entry served _ =>
    entry.op.request.map fun request => (request, served)
  | .deleting id _ served => some (.delete (documentIdFor id), served)
  | .retained _ _ _ | .settled _ _ | .skipped _ _ => none

def Place.unserved (place : Place) : Bool := place.awaits.any fun awaited => !awaited.2

def Place.serve : Place → Place
  | .retaining moment bank _ caller => .retaining moment bank true caller
  | .tagging entry _ outcome call => .tagging entry true outcome call
  | .deleting id removed _ => .deleting id removed true
  | .replaying entry _ call => .replaying entry true call
  | place => place

/-- What an operation does when its request is answered. -/
def Place.answered (w : Wording) (place : Place) (answer : Answer) (t : Turn) (s : TeachStore) :
    Option Next :=
  match place with
  | .retaining moment bank _ caller =>
    let done := retainOne w moment bank answer t s
    some (done.1, .inl (.retained moment done.2 caller))
  | .tagging entry _ outcome call => some (persistTagged w entry outcome call answer t s)
  | .deleting id removed _ => some (forgetAnswered w id removed answer t s)
  | .replaying entry _ call => some (syncRan w entry (runOp w entry.op answer) call t s)
  | .retained _ _ _ | .settled _ _ | .skipped _ _ => none

/-- What an operation does when the function that it awaits has returned. -/
def Place.resumed (w : Wording) (place : Place) (t : Turn) (s : TeachStore) : Option Next :=
  match place with
  | .retained _ result (.settle moment call) =>
    let (s, moment, retain, reason) := settleRetained moment result t s
    match call with
    | some call => some (s, .inl (.settled ⟨moment, call.created, retain, reason⟩ call))
    | none => some (s, .inr (.confirmed (some ⟨moment, false, retain, reason⟩)))
  | .retained _ (.ok _) (.entry entry call) => some (syncRan w entry none call t s)
  | .retained _ (.error failure) (.entry entry call) =>
    some (syncRan w entry (some failure) call t s)
  | .retained sent result (.backlog call) => some (syncRetained w sent result call t s)
  | .settled outcome call => some (persist outcome call t s)
  | .skipped entry call => some (syncRan w entry none call t s)
  | .retaining _ _ _ _ | .tagging _ _ _ _ | .deleting _ _ _ | .replaying _ _ _ => none

/-- `late` are the requests that the client has given up before the server handled
them, `drawn` the identifiers that are in use or were. -/
structure State where
  store : TeachStore
  remote : Text → Option Document
  late : List Request
  ops : Nat → Option Place
  returned : List Returned
  drawn : List Text

inductive Input where
  | capture (p : Nat) (moment : TeachableMoment) (t : Turn)
  | confirm (p : Nat) (id : Text) (t : Turn)
  | forget (p : Nat) (id : Text) (t : Turn)
  | sync (p : Nat) (t : Turn)
  | answer (p : Nat) (answer : Answer) (t : Turn)
  | resume (p : Nat) (t : Turn)
  | serve (p : Nat)
  | serveLate (i : Nat)

/-- What `buildMoment` makes besides the text. -/
def TeachableMoment.isNew (moment : TeachableMoment) : Prop :=
  (moment.status = .candidate ∨ moment.status = .confirmed) ∧ moment.occurrences = 1 ∧
    moment.recalled = 0 ∧ moment.retained = none

instance (moment : TeachableMoment) : Decidable moment.isNew := by
  unfold TeachableMoment.isNew
  infer_instance

/-- Operation `p` has run to its next await or has returned. -/
def State.went (s : State) (p : Nat) (names : List Text) (next : Next) : State :=
  { s with
    store := next.1
    ops := Function.update s.ops p next.2.getLeft?
    returned := s.returned ++ next.2.getRight?.toList
    drawn := names ++ s.drawn }

/-- The request of `place` stays on its way when the server has not handled it. -/
def State.abandon (s : State) (place : Place) : State :=
  match place.awaits with
  | some (request, false) => { s with late := s.late ++ [request] }
  | _ => s

def step (w : Wording) (s : State) : Input → Option State
  | .capture p moment t =>
    if (s.ops p).isNone ∧ moment.isNew ∧ moment.id ∉ s.drawn ∧ t.entryId ∉ moment.id :: s.drawn then
      some (s.went p [t.entryId, moment.id] (captureMoment w moment t s.store))
    else none
  | .confirm p id t =>
    if (s.ops p).isNone ∧ t.entryId ∉ s.drawn then
      some (s.went p [t.entryId] (confirmMoment w id t s.store))
    else none
  | .forget p id t =>
    if (s.ops p).isNone ∧ t.entryId ∉ s.drawn then
      some (s.went p [t.entryId] (forgetMoment id t s.store))
    else none
  | .sync p t =>
    if (s.ops p).isNone ∧ t.entryId ∉ s.drawn then
      some (s.went p [t.entryId] (syncOutbox t s.store))
    else none
  | .answer p answer t =>
    match s.ops p with
    | none => none
    | some place =>
      if t.entryId ∈ s.drawn ∨ (answer = .ok ∧ place.unserved) then none
      else (place.answered w answer t s.store).map fun next =>
        (s.abandon place).went p [t.entryId] next
  | .resume p t =>
    match s.ops p with
    | none => none
    | some place =>
      if t.entryId ∈ s.drawn then none
      else (place.resumed w t s.store).map fun next => s.went p [t.entryId] next
  | .serve p =>
    match s.ops p with
    | none => none
    | some place =>
      match place.awaits with
      | some (request, false) =>
        some { s with
          remote := request.handle w s.remote
          ops := Function.update s.ops p (some place.serve) }
      | _ => none
  | .serveLate i =>
    match s.late[i]? with
    | none => none
    | some request =>
      some { s with remote := request.handle w s.remote, late := s.late.eraseIdx i }

/-- A process starts with any files and any documents; no moment that is there has a
delete of its document queued. -/
structure Start (s : State) : Prop where
  idle : s.ops = fun _ => none
  late : s.late = []
  returned : s.returned = []
  moments : ∀ moment ∈ s.store.momentFiles, moment.id ∈ s.drawn
  entries : ∀ entry ∈ s.store.outboxFiles, entry.id ∈ s.drawn
  names : ∀ entry ∈ s.store.outboxFiles, ∀ other ∈ s.store.outboxFiles,
    entry.id = other.id → entry = other
  deletes : ∀ entry ∈ s.store.outboxFiles, ∀ id, entry.op = .delete (documentIdFor id) →
    id ∈ s.drawn ∧ s.store.get id = none

def system (w : Wording) : System State Input := System.ofStep Start (step w)

end Ultrathink.Source.Teach
