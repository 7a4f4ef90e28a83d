import Ultrathink.Source.Teach.Capture

/-!
# What a stretch of an operation does to the store

Between two awaits an operation may write one new moment, queue one new entry and drop
queued deletes of one document; `Plain` says that nothing else happens. Every function
of `Capture` has one lemma here, and nothing after this module unfolds a store.
-/

namespace Ultrathink.Source.Teach

open List Library.JsText

/-- A delete of the document is queued. -/
def Queued (s : TeachStore) (documentId : Text) : Prop :=
  ∃ entry ∈ s.outboxFiles, entry.op = .delete documentId

/-- Entries of one name are one entry, whose operation does not change. -/
def Agree (s : TeachStore) : Prop :=
  ∀ entry ∈ s.outboxFiles, ∀ other ∈ s.outboxFiles, entry.id = other.id → entry.op = other.op

/-- The moment `fresh` may be new, the entry `name` may be new and has `op` then, queued
deletes of `lost` may be gone. -/
structure Plain (fresh : Option Text) (name : Text) (op : OutboxOp) (lost : Option Text)
    (s s' : TeachStore) : Prop where
  absent : ∀ id, some id ≠ fresh → s.get id = none → s'.get id = none
  kept : ∀ documentId, some documentId ≠ lost → Queued s documentId → Queued s' documentId
  entries : ∀ entry ∈ s'.outboxFiles,
    (∃ old ∈ s.outboxFiles, old.id = entry.id ∧ old.op = entry.op) ∨
      (entry.id = name ∧ entry.op = op)

variable {fresh lost : Option Text} {name : Text} {op : OutboxOp} {s s' s'' : TeachStore}
  {faults : Faults} {w : Wording} {t : Turn}

theorem Plain.refl : Plain fresh name op lost s s :=
  ⟨fun _ _ none => none, fun _ _ queued => queued,
    fun entry mem => Or.inl ⟨entry, mem, rfl, rfl⟩⟩

theorem Plain.trans (first : Plain fresh name op lost s s')
    (second : Plain fresh name op lost s' s'') : Plain fresh name op lost s s'' := by
  refine ⟨fun id old missing => second.absent id old (first.absent id old missing),
    fun d held queued => second.kept d held (first.kept d held queued), fun entry mem => ?_⟩
  rcases second.entries entry mem with ⟨old, there, sameId, sameOp⟩ | new
  · rcases first.entries old there with ⟨older, mem', sameId', sameOp'⟩ | ⟨newId, newOp⟩
    · exact Or.inl ⟨older, mem', sameId'.trans sameId, sameOp'.trans sameOp⟩
    · exact Or.inr ⟨sameId ▸ newId, sameOp ▸ newOp⟩
  · exact Or.inr new

variable {moment : TeachableMoment} {id entryId : Text} {removed : Bool} {place : Place}

theorem put_get (written : s.put faults moment = some s') (id : Text) :
    s'.get id = if id = moment.id then some moment else s.get id := by
  unfold TeachStore.put at written
  split at written
  · cases written
  cases written
  unfold TeachStore.get
  rw [find?_cons]
  by_cases same : id = moment.id
  · simp [same]
  · have other : moment.id ≠ id := fun equal => same equal.symm
    simp only [other, decide_false, find?_filter, same, if_false]
    congr 1
    funext found
    by_cases here : found.id = id
    · simp [here, same]
    · simp [here]

theorem put_outbox (written : s.put faults moment = some s') :
    s'.outboxFiles = s.outboxFiles := by
  unfold TeachStore.put at written
  split at written
  · cases written
  · cases written
    rfl

theorem put_plain (written : s.put faults moment = some s')
    (known : some moment.id = fresh ∨ s.get moment.id ≠ none) :
    Plain fresh name op lost s s' := by
  refine ⟨fun id old missing => ?_, fun d _ queued => ?_, fun entry mem => Or.inl ⟨entry, ?_⟩⟩
  · rw [put_get written]
    split
    next same =>
      subst same
      rcases known with new | there
      · exact absurd new old
      · exact absurd missing there
    · exact missing
  · unfold Queued
    rw [put_outbox written]
    exact queued
  · rw [put_outbox written] at mem
    exact ⟨mem, rfl, rfl⟩

theorem remove_outbox (written : s.remove faults id = some (removed, s')) :
    s'.outboxFiles = s.outboxFiles := by
  unfold TeachStore.remove at written
  split at written
  · cases written
    rfl
  · split at written
    · cases written
    · cases written
      rfl

theorem remove_get (written : s.remove faults id = some (removed, s')) : s'.get id = none := by
  unfold TeachStore.remove at written
  split at written
  next missing =>
    cases written
    exact Option.isNone_iff_eq_none.mp missing
  next =>
    split at written
    · cases written
    · cases written
      rw [TeachStore.get_none]
      intro moment mem
      simpa using (mem_filter.mp mem).2

theorem remove_plain (written : s.remove faults id = some (removed, s')) :
    Plain fresh name op lost s s' := by
  refine ⟨fun other _ missing => ?_, fun d _ queued => ?_, fun entry mem => Or.inl ⟨entry, ?_⟩⟩
  · unfold TeachStore.remove at written
    split at written
    · cases written
      exact missing
    · split at written
      · cases written
      · cases written
        rw [TeachStore.get_none] at missing ⊢
        exact fun moment mem => missing moment (mem_of_mem_filter mem)
  · unfold Queued
    rw [remove_outbox written]
    exact queued
  · rw [remove_outbox written] at mem
    exact ⟨mem, rfl, rfl⟩

theorem enqueue_plain (fresh lost : Option Text) {now : Nat} {entry : OutboxEntry}
    (written : s.enqueue faults op now name = some (entry, s')) :
    Plain fresh name op lost s s' ∧ entry ∈ s'.outboxFiles ∧ entry.op = op := by
  unfold TeachStore.enqueue at written
  split at written
  next existing found =>
    cases written
    have mem := TeachStore.mem_outbox.mp (mem_of_find?_eq_some found)
    exact ⟨.refl, mem, by simpa using find?_some found⟩
  next =>
    split at written
    · cases written
    cases written
    refine ⟨⟨fun _ _ missing => missing, fun d _ ⟨queued, mem, isDelete⟩ =>
      ⟨queued, mem_append_left _ mem, isDelete⟩, fun other mem => ?_⟩, by simp, rfl⟩
    rcases mem_append.mp mem with old | new
    · exact Or.inl ⟨other, old, rfl, rfl⟩
    · rw [mem_singleton.mp new]
      exact Or.inr ⟨rfl, rfl⟩

theorem ack_outbox (written : s.ack faults entryId = some s') :
    s' = { s with outboxFiles := s.outboxFiles.filter fun entry => entry.id ≠ entryId } := by
  unfold TeachStore.ack at written
  split at written
  · cases written
  · exact (Option.some.inj written).symm

theorem ack_plain (written : s.ack faults entryId = some s')
    (done : ∀ entry ∈ s.outboxFiles, entry.id = entryId →
      ∀ d, some d ≠ lost → entry.op ≠ .delete d) :
    Plain fresh name op lost s s' := by
  rw [ack_outbox written]
  refine ⟨fun _ _ missing => missing, fun d held ⟨entry, mem, isDelete⟩ => ⟨entry, ?_, isDelete⟩,
    fun entry mem => Or.inl ⟨entry, mem_of_mem_filter mem, rfl, rfl⟩⟩
  refine mem_filter.mpr ⟨mem, ?_⟩
  simp only [ne_eq, decide_not, Bool.not_eq_eq_eq_not, Bool.not_true, decide_eq_false_iff_not]
  exact fun same => done entry mem same d held isDelete

theorem ackAll_plain (entries : List OutboxEntry)
    (done : ∀ acked ∈ entries, ∀ entry ∈ s.outboxFiles, entry.id = acked.id →
      ∀ d, some d ≠ lost → entry.op ≠ .delete d) :
    Plain fresh name op lost s (ackAll faults entries s).2 := by
  induction entries generalizing s with
  | nil => exact .refl
  | cons acked rest ih =>
    unfold ackAll
    split
    · exact .refl
    next s' written =>
      have first : Plain fresh name op lost s s' := ack_plain written (done acked (by simp))
      refine first.trans (ih fun later mem entry there => ?_)
      rw [ack_outbox written] at there
      exact done later (by simp [mem]) entry (mem_of_mem_filter there)

theorem dropRetainOps_plain (agree : Agree s) (momentId : Text) :
    Plain fresh name op lost s (dropRetainOps faults momentId s).2 := by
  refine ackAll_plain _ fun acked mem entry there same d _ isDelete => ?_
  obtain ⟨mem, isRetain⟩ := mem_filter.mp mem
  have equal := agree entry there acked (TeachStore.mem_outbox.mp mem) same
  rw [isDelete, of_decide_eq_true isRetain] at equal
  cases equal

theorem dropRetainOps_files (momentId : Text) :
    (dropRetainOps faults momentId s).2.momentFiles = s.momentFiles := by
  have all : ∀ entries s, (ackAll faults entries s).2.momentFiles = s.momentFiles := by
    intro entries
    induction entries with
    | nil => exact fun _ => rfl
    | cons acked rest ih =>
      intro s
      unfold ackAll
      split
      · rfl
      next s' written =>
        rw [ih s', ack_outbox written]
  exact all _ s

theorem dropRetainOps_get (momentId id : Text) :
    (dropRetainOps faults momentId s).2.get id = s.get id := by
  unfold TeachStore.get
  rw [dropRetainOps_files]

theorem fail_plain {reason : Text} {now : Nat}
    (written : s.fail w faults entryId reason now = some s') : Plain fresh name op lost s s' := by
  unfold TeachStore.fail at written
  split at written
  · cases written
    exact .refl
  split at written
  · cases written
  cases written
  have sameOp : ∀ entry : OutboxEntry,
      (if entry.id = entryId then TeachStore.failed entry (w.redactLine reason) now else entry).op =
        entry.op := by
    intro entry
    split <;> rfl
  have sameId : ∀ entry : OutboxEntry,
      (if entry.id = entryId then TeachStore.failed entry (w.redactLine reason) now else entry).id =
        entry.id := by
    intro entry
    split <;> rfl
  refine ⟨fun _ _ missing => missing, fun d _ ⟨entry, mem, isDelete⟩ =>
    ⟨_, mem_map_of_mem mem, (sameOp entry).trans isDelete⟩, fun entry mem => Or.inl ?_⟩
  obtain ⟨old, there, rfl⟩ := mem_map.mp mem
  exact ⟨old, there, (sameId old).symm, (sameOp old).symm⟩

def RetainCaller.own : RetainCaller → List OutboxEntry
  | .settle _ call => (call.bind CaptureCall.tagsEntry).toList
  | .entry held _ => [held]
  | .backlog _ => []

def RetainCaller.due : RetainCaller → List OutboxEntry
  | .settle _ _ => []
  | .entry _ call => call.due
  | .backlog call => call.due

/-- The entries that the operation drops on its own account. -/
def Place.own : Place → List OutboxEntry
  | .retaining _ _ _ caller => caller.own
  | .retained _ _ caller => caller.own
  | .settled _ call => call.tagsEntry.toList
  | .tagging entry _ _ call => entry :: call.tagsEntry.toList
  | .deleting _ _ _ => []
  | .skipped entry _ => [entry]
  | .replaying _ _ _ => []

/-- The entries that it sends or will look at. -/
def Place.due : Place → List OutboxEntry
  | .retaining _ _ _ caller => caller.due
  | .retained _ _ caller => caller.due
  | .settled _ _ => []
  | .tagging _ _ _ _ => []
  | .deleting _ _ _ => []
  | .skipped _ call => call.due
  | .replaying entry _ call => entry :: call.due

variable {known known' : Text → OutboxOp → Prop} {next : Next}

/-- Where a stretch may leave an operation that forgets nothing. -/
structure Place.Ready (known : Text → OutboxOp → Prop) (place : Place) : Prop where
  own : ∀ entry ∈ place.own, known entry.id entry.op ∧ ∀ d, entry.op ≠ .delete d
  due : ∀ entry ∈ place.due, known entry.id entry.op
  unsent : ∀ d, place.awaits ≠ some (.delete d, true)
  keeps : ∀ id removed served, place ≠ .deleting id removed served

/-- The rest of a stretch writes nothing and reports nothing forgotten. -/
structure Quiet (known : Text → OutboxOp → Prop) (s : TeachStore) (next : Next) : Prop where
  store : next.1 = s
  place : ∀ place, next.2 = .inl place → place.Ready known
  forgets : ∀ id remote, next.2 ≠ .inr (.forgot id true remote)

/-- A stretch that queues no delete and forgets nothing. -/
def Calm (fresh : Option Text) (t : Turn) (lost : Option Text) (known : Text → OutboxOp → Prop)
    (s : TeachStore) (next : Next) : Prop :=
  ∃ op, (∀ d, op ≠ .delete d) ∧ Plain fresh t.entryId op lost s next.1 ∧
    Quiet (fun id op' => known id op' ∨ (id = t.entryId ∧ op' = op)) next.1 next

theorem Quiet.mono (weaker : ∀ id op, known id op → known' id op) (quiet : Quiet known s next) :
    Quiet known' s next :=
  ⟨quiet.store, fun place here =>
    have ready := quiet.place place here
    ⟨fun entry mem => ⟨weaker _ _ (ready.own entry mem).1, (ready.own entry mem).2⟩,
      fun entry mem => weaker _ _ (ready.due entry mem), ready.unsent, ready.keeps⟩,
    quiet.forgets⟩

theorem Quiet.returns {value : Returned} (other : ∀ id remote, value ≠ .forgot id true remote) :
    Quiet known s (s, .inr value) :=
  ⟨rfl, fun _ here => (by cases here), fun id remote same => other id remote (Sum.inr.inj same)⟩

theorem Quiet.stands (ready : place.Ready known) : Quiet known s (s, .inl place) :=
  ⟨rfl, fun _ here => Sum.inl.inj here ▸ ready, fun _ _ same => (by cases same)⟩

theorem Plain.calm (op : OutboxOp) (other : ∀ d, op ≠ .delete d)
    (plain : Plain fresh t.entryId op lost s s')
    (quiet : Quiet (fun id op' => known id op' ∨ (id = t.entryId ∧ op' = op)) s' next) :
    Calm fresh t lost known s next := by
  refine ⟨op, other, ?_, ?_⟩
  · rw [quiet.store]
    exact plain
  · have same := quiet.store
    subst same
    exact quiet

theorem Plain.calm_of (plain : ∀ op, Plain fresh t.entryId op lost s s')
    (quiet : Quiet known s' next) : Calm fresh t lost known s next :=
  (plain (.retain [])).calm _ (by simp) (quiet.mono fun _ _ held => Or.inl held)

theorem Quiet.calm (quiet : Quiet known s next) : Calm fresh t lost known s next :=
  Plain.calm_of (fun _ => .refl) quiet

theorem syncReturns_quiet (call : SyncCall) : Quiet known s (syncReturns call s) :=
  .returns (by simp)

theorem syncThrew_quiet : Quiet known s (syncThrew w t s) := .returns (by simp)

theorem syncBacklog_quiet (call : SyncCall) (due : ∀ entry ∈ call.due, known entry.id entry.op) :
    Quiet known s (syncBacklog call t s) := by
  unfold syncBacklog
  split
  · exact syncReturns_quiet call
  · split
    · exact syncReturns_quiet call
    · exact .stands ⟨by simp [Place.own, RetainCaller.own], due, fun _ => nofun,
        fun _ _ _ => nofun⟩

theorem syncEntries_quiet (call : SyncCall) (due : ∀ entry ∈ call.due, known entry.id entry.op) :
    Quiet known s (syncEntries call t s) := by
  unfold syncEntries
  split
  · split
    · exact syncReturns_quiet call
    · exact syncBacklog_quiet _ due
  next entry rest more =>
    rw [more, forall_mem_cons] at due
    obtain ⟨mine, later⟩ := due
    split
    · exact syncReturns_quiet _
    split
    next momentId isRetain =>
      have own : ∀ e ∈ [entry], known e.id e.op ∧ ∀ d, e.op ≠ .delete d := by
        intro e mem
        rw [mem_singleton.mp mem]
        refine ⟨mine, ?_⟩
        rw [isRetain]
        exact fun _ => nofun
      split
      · exact .stands ⟨own, later, fun _ => nofun, fun _ _ _ => nofun⟩
      · split
        · exact .stands ⟨own, later, fun _ => nofun, fun _ _ _ => nofun⟩
        · exact .stands ⟨own, later, fun _ => nofun, fun _ _ _ => nofun⟩
    all_goals
      next isSent =>
        refine .stands ⟨by simp [Place.own], ?_, ?_, fun _ _ _ => nofun⟩
        · exact forall_mem_cons.mpr ⟨mine, later⟩
        · simp [Place.awaits]

theorem syncOutbox_calm (fresh lost : Option Text)
    (held : ∀ entry ∈ s.outboxFiles, known entry.id entry.op) :
    Calm fresh t lost known s (syncOutbox t s) := by
  unfold syncOutbox
  split
  · exact (Quiet.returns (by simp)).calm
  split
  · exact (Quiet.returns (by simp)).calm
  split
  · exact (Quiet.returns (by simp)).calm
  · refine (syncEntries_quiet _ fun entry mem => held entry ?_).calm
    exact TeachStore.mem_outbox.mp (mem_of_mem_filter (mem_of_mem_take mem))

theorem syncRan_calm (entry : OutboxEntry) (failure : Option Failure) (call : SyncCall)
    (due : ∀ entry ∈ call.due, known entry.id entry.op)
    (done : failure = none → ∀ other ∈ s.outboxFiles, other.id = entry.id →
      ∀ d, some d ≠ lost → other.op ≠ .delete d) :
    Calm fresh t lost known s (syncRan w entry failure call t s) := by
  unfold syncRan
  split
  · split
    · exact syncThrew_quiet.calm
    next s' written =>
      exact Plain.calm_of (fun _ => ack_plain written (done rfl)) (syncEntries_quiet _ due)
  · split
    · exact syncThrew_quiet.calm
    next s' written =>
      dsimp only
      split
      · exact Plain.calm_of (fun _ => fail_plain written) (syncReturns_quiet _)
      · exact Plain.calm_of (fun _ => fail_plain written) (syncEntries_quiet _ due)

theorem syncRetained_calm (moment : TeachableMoment) (result : Except Failure TeachableMoment)
    (call : SyncCall) (due : ∀ entry ∈ call.due, known entry.id entry.op) :
    Calm fresh t lost known s (syncRetained w moment result call t s) := by
  unfold syncRetained
  split
  · exact (syncBacklog_quiet _ (by exact due)).calm
  · split
    · exact syncThrew_quiet.calm
    next entry s' queued =>
      have first := (enqueue_plain fresh lost queued).1
      split
      · exact first.calm (.retain moment.id) (by simp) syncThrew_quiet
      next s'' written =>
        have both := first.trans (fail_plain written)
        dsimp only
        split
        · exact both.calm (.retain moment.id) (by simp) (syncReturns_quiet _)
        · exact both.calm (.retain moment.id) (by simp)
            (syncBacklog_quiet _ fun entry mem => Or.inl (due entry mem))

/-- The stored copy is put back only when there is one, unless a request succeeds for a
moment that is gone. -/
theorem retainOne_plain (agree : Agree s) (moment : TeachableMoment) (bank : Text)
    (answer : Answer) (there : answer = .ok → t.aborted = false → s.get moment.id ≠ none) :
    Plain fresh name op lost s (retainOne w moment bank answer t s).1 := by
  unfold retainOne
  split
  · exact .refl
  · exact .refl
  split
  · exact .refl
  next alive =>
    dsimp only
    split
    · exact .refl
    split
    · exact .refl
    next s' written =>
      have here := there rfl (by simpa using alive)
      obtain ⟨current, found⟩ := Option.ne_none_iff_exists'.mp here
      have known : s.get ((s.get moment.id).getD moment).id ≠ none := by
        rw [found, Option.getD_some, TeachStore.get_id found]
        exact here
      refine (put_plain written (Or.inr known)).trans (dropRetainOps_plain ?_ _)
      unfold Agree
      rw [put_outbox written]
      exact agree

theorem settleRetained_plain (fresh lost : Option Text) (moment : TeachableMoment)
    (result : Except Failure TeachableMoment) :
    Plain fresh t.entryId (.retain moment.id) lost s (settleRetained moment result t s).1 := by
  unfold settleRetained
  split
  · exact .refl
  split
  · exact .refl
  split
  · exact .refl
  next entry s' queued => exact (enqueue_plain fresh lost queued).1

theorem supersede_plain (fresh lost : Option Text) (agree : Agree s) (oldId newId : Text) :
    ∃ op, (∀ d, op ≠ .delete d) ∧
      Plain fresh t.entryId op lost s (supersede w oldId newId t s).1 ∧
      ∀ entry, (supersede w oldId newId t s).2 = some (some entry) →
        entry ∈ (supersede w oldId newId t s).1.outboxFiles ∧ entry.op = op := by
  unfold supersede
  split
  · exact ⟨.retain [], by simp, .refl, by simp⟩
  next old found =>
    split
    · exact ⟨.retain [], by simp, .refl, by simp⟩
    dsimp only
    refine ⟨.tags (documentIdFor old.id) (w.tagsFor { old with status := .superseded }), by simp,
      ?_⟩
    split
    · exact ⟨.refl, by simp⟩
    next s1 written =>
      have known : s.get old.id ≠ none := by
        rw [TeachStore.get_id found, found]
        nofun
      have saved : Plain fresh t.entryId
          (.tags (documentIdFor old.id) (w.tagsFor { old with status := .superseded })) lost s s1 :=
        put_plain written (Or.inr known)
      have agree1 : Agree s1 := by
        unfold Agree
        rw [put_outbox written]
        exact agree
      have dropped := saved.trans (@dropRetainOps_plain _ _ _ _ _ t.faults agree1 old.id)
      split
      next s2 partly =>
        rw [partly] at dropped
        exact ⟨dropped, by simp⟩
      next s2 cleared =>
        rw [cleared] at dropped
        split
        · exact ⟨dropped, by simp⟩
        split
        · exact ⟨dropped, by simp⟩
        next entry s3 queued =>
          obtain ⟨last, mem, same⟩ := enqueue_plain fresh lost queued
          refine ⟨dropped.trans last, fun returned here => ?_⟩
          cases here
          exact ⟨mem, same⟩

theorem savedBy_known (moment : TeachableMoment) :
    some (savedBy moment s).id = some moment.id ∨ s.get (savedBy moment s).id ≠ none := by
  unfold savedBy
  split
  next existing found =>
    unfold repeated at found
    have mem := TeachStore.findByDedupeKey_mem (Option.filter_eq_some_iff.mp found).1
    have there : s.get existing.id ≠ none := TeachStore.get_mem mem
    exact Or.inr there
  · exact Or.inl rfl

theorem supersededBy_plain (fresh lost : Option Text) (agree : Agree s)
    (moment : TeachableMoment) (newId : Text) :
    ∃ op, (∀ d, op ≠ .delete d) ∧
      Plain fresh t.entryId op lost s (supersededBy w moment newId t s).1 ∧
      ∀ entry, (supersededBy w moment newId t s).2 = some (some entry) →
        entry ∈ (supersededBy w moment newId t s).1.outboxFiles ∧ entry.op = op := by
  unfold supersededBy
  split
  · exact ⟨.retain [], by simp, .refl, by simp⟩
  · exact supersede_plain fresh lost agree _ newId

theorem captureSettled_quiet (saved : TeachableMoment) (call : CaptureCall)
    (own : ∀ entry, call.tagsEntry = some entry →
      known entry.id entry.op ∧ ∀ d, entry.op ≠ .delete d) :
    Quiet known s (captureSettled saved call t s) := by
  have mine : ∀ entry ∈ call.tagsEntry.toList,
      known entry.id entry.op ∧ ∀ d, entry.op ≠ .delete d :=
    fun entry mem => own entry (Option.mem_toList.mp mem)
  unfold captureSettled
  split
  · exact .stands ⟨mine, by simp [Place.due], by simp [Place.awaits], by simp⟩
  · exact .stands ⟨mine, by simp [Place.due, RetainCaller.due], by simp [Place.awaits], by simp⟩

theorem captureMoment_calm (lost : Option Text) (agree : Agree s) (moment : TeachableMoment)
    (held : ∀ entry ∈ s.outboxFiles, known entry.id entry.op) :
    Calm (some moment.id) t lost known s (captureMoment w moment t s) := by
  unfold captureMoment
  split
  · exact (Quiet.returns (by simp)).calm
  split
  · exact (Quiet.returns (by simp)).calm
  dsimp only
  split
  · exact (Quiet.returns (by simp)).calm
  next s1 written =>
    have agree1 : Agree s1 := by
      unfold Agree
      rw [put_outbox written]
      exact agree
    obtain ⟨op, other, plain, tags⟩ := supersededBy_plain (some moment.id) lost agree1 moment
      (savedBy moment s).id (w := w) (t := t)
    have both := (put_plain written (savedBy_known moment)).trans plain
    split
    next s2 partly =>
      rw [partly] at both
      exact both.calm op other (.returns (by simp))
    next s2 tagsEntry done =>
      rw [done] at both tags
      refine both.calm op other (captureSettled_quiet _ _ fun entry same => ?_)
      obtain ⟨mem, isOp⟩ := tags entry (congrArg some same)
      refine ⟨?_, isOp ▸ other⟩
      rcases both.entries entry mem with ⟨old, there, sameId, sameOp⟩ | new
      · exact Or.inl (sameId ▸ sameOp ▸ held old there)
      · exact Or.inr new

theorem persist_calm (outcome : CaptureOutcome) (call : CaptureCall)
    (own : ∀ entry ∈ call.tagsEntry.toList,
      known entry.id entry.op ∧ ∀ d, entry.op ≠ .delete d) :
    Calm fresh t lost known s (persist outcome call t s) := by
  unfold persist
  split
  next entry bank isTags client =>
    have mine := own entry (Option.mem_toList.mpr isTags)
    refine (Quiet.stands ⟨?_, by simp [Place.due], by simp [Place.awaits], by simp⟩).calm
    exact forall_mem_cons.mpr ⟨mine, own⟩
  · exact (Quiet.returns (by simp)).calm

theorem persistTagged_calm (entry : OutboxEntry) (outcome : CaptureOutcome) (call : CaptureCall)
    (answer : Answer)
    (mine : ∀ other ∈ s.outboxFiles, other.id = entry.id → ∀ d, other.op ≠ .delete d) :
    Calm fresh t lost known s (persistTagged w entry outcome call answer t s) := by
  unfold persistTagged
  split
  · exact (Quiet.returns (by simp)).calm
  · split
    · exact (Quiet.returns (by simp)).calm
    next s' written =>
      exact Plain.calm_of
        (fun _ => ack_plain written fun other mem same d _ => mine other mem same d)
        (.returns (by simp))

theorem settled_quiet (confirmed : TeachableMoment) :
    Quiet known s (match settle confirmed false t with
      | .error (retain, reason) =>
        (s, Sum.inr (Returned.confirmed (some ⟨confirmed, false, retain, reason⟩)))
      | .ok bank => (s, .inl (.retaining confirmed bank false (.settle confirmed none)))) := by
  split
  · exact .returns (by simp)
  · exact .stands ⟨by simp [Place.own, RetainCaller.own], by simp [Place.due, RetainCaller.due],
      by simp [Place.awaits], by simp⟩

theorem confirmMoment_calm (fresh lost : Option Text) (id : Text) :
    Calm fresh t lost known s (confirmMoment w id t s) := by
  unfold confirmMoment
  split
  · exact (Quiet.returns (by simp)).calm
  next moment found =>
    have there : s.get moment.id ≠ none := by
      split at found
      · rw [TeachStore.get_id found, found]
        exact fun none => by cases none
      · cases found
    dsimp only
    split
    · exact (Quiet.returns (by simp)).calm
    split
    · exact (settled_quiet moment).calm
    split
    · exact (Quiet.returns (by simp)).calm
    split
    · exact (Quiet.returns (by simp)).calm
    next s' written => exact Plain.calm_of (fun _ => put_plain written (Or.inr there)) (settled_quiet _)

/-- What an operation may count on for the entries that it holds. -/
def Firm (known : Text → OutboxOp → Prop) (s : TeachStore) : Prop :=
  ∀ id op, known id op → ∀ entry ∈ s.outboxFiles, entry.id = id → entry.op = op

theorem Place.resumed_calm (fresh lost : Option Text) (resumed : place.resumed w t s = some next)
    (firm : Firm known s)
    (own : ∀ entry ∈ place.own, known entry.id entry.op ∧ ∀ d, entry.op ≠ .delete d)
    (due : ∀ entry ∈ place.due, known entry.id entry.op) :
    Calm fresh t lost known s next := by
  -- An entry that the operation drops now is no delete.
  have drops : ∀ entry ∈ place.own, ∀ other ∈ s.outboxFiles, other.id = entry.id →
      ∀ d, some d ≠ lost → other.op ≠ .delete d := by
    intro entry mem other there same d _
    obtain ⟨knows, isOther⟩ := own entry mem
    rw [firm _ _ knows other there same]
    exact isOther d
  cases place with
  | retained sent result caller =>
    cases caller with
    | settle moment call =>
      simp only [Place.resumed] at resumed
      have plain : Plain fresh t.entryId _ lost s _ := settleRetained_plain fresh lost moment result
      cases call with
      | none =>
        cases resumed
        exact plain.calm _ (by simp) (.returns (by simp))
      | some call =>
        cases resumed
        refine plain.calm _ (by simp) (.stands ⟨fun entry mem => ?_, by simp [Place.due],
          by simp [Place.awaits], by simp⟩)
        exact ⟨Or.inl (own entry mem).1, (own entry mem).2⟩
    | entry held call =>
      cases result with
      | ok moment =>
        cases resumed
        exact syncRan_calm held none call due fun _ =>
          drops held (by simp [Place.own, RetainCaller.own])
      | error failure =>
        cases resumed
        exact syncRan_calm held (some failure) call due nofun
    | backlog call =>
      cases resumed
      exact syncRetained_calm sent result call due
  | settled outcome call =>
    cases resumed
    exact persist_calm outcome call own
  | skipped entry call =>
    cases resumed
    exact syncRan_calm entry none call due fun _ => drops entry (by simp [Place.own])
  | retaining moment bank served caller => cases resumed
  | tagging entry served outcome call => cases resumed
  | deleting id removed served => cases resumed
  | replaying entry served call => cases resumed

theorem runOp_none {answer : Answer} (done : runOp w op answer = none) :
    answer = .ok ∨ ∃ documentId tags, op = .tags documentId tags := by
  unfold runOp at done
  dsimp only at done
  split at done
  · exact Or.inl rfl
  · exact Or.inr ⟨_, _, rfl⟩
  · cases done
  · cases done

theorem Place.answered_calm {answer : Answer} (answered : place.answered w answer t s = some next)
    (agree : Agree s) (firm : Firm known s)
    (own : ∀ entry ∈ place.own, known entry.id entry.op ∧ ∀ d, entry.op ≠ .delete d)
    (due : ∀ entry ∈ place.due, known entry.id entry.op)
    (there : ∀ moment bank served caller, place = .retaining moment bank served caller →
      answer = .ok → t.aborted = false → s.get moment.id ≠ none)
    (deleted : ∀ entry served call d, place = .replaying entry served call → answer = .ok →
      entry.op = .delete d → some d = lost)
    (keeps : ∀ id removed served, place ≠ .deleting id removed served) :
    Calm fresh t lost known s next := by
  cases place with
  | retaining moment bank served caller =>
    have plain : ∀ op, Plain fresh t.entryId op lost s (retainOne w moment bank answer t s).1 :=
      fun _ => retainOne_plain agree moment bank answer (there moment bank served caller rfl)
    simp only [Place.answered] at answered
    generalize retainOne w moment bank answer t s = done at answered plain
    cases answered
    exact Plain.calm_of plain (.stands ⟨own, due, by simp [Place.awaits], by simp⟩)
  | tagging entry served outcome call =>
    cases answered
    refine persistTagged_calm entry outcome call answer fun other mem same d => ?_
    obtain ⟨knows, isOther⟩ := own entry (by simp [Place.own])
    rw [firm _ _ knows other mem same]
    exact isOther d
  | replaying entry served call =>
    obtain ⟨knows, later⟩ := forall_mem_cons.mp due
    cases answered
    refine syncRan_calm entry _ call later fun done other mem same d held isDelete => ?_
    rw [firm _ _ knows other mem same] at isDelete
    rcases runOp_none done with ok | ⟨documentId, tags, isTags⟩
    · exact held (deleted entry served call d rfl ok isDelete)
    · rw [isDelete] at isTags
      cases isTags
  | deleting id removed served => exact absurd rfl (keeps id removed served)
  | retained sent result caller => cases answered
  | settled outcome call => cases answered
  | skipped entry call => cases answered

theorem queueDelete_effect (fresh lost : Option Text) (id : Text) (removed : Bool) :
    Plain fresh t.entryId (.delete (documentIdFor id)) lost s (queueDelete id removed t s).1 ∧
      (∃ reported remote, (queueDelete id removed t s).2 = .inr (.forgot id reported remote)) ∧
      (t.faults.enqueue (.delete (documentIdFor id)) = false →
        Queued (queueDelete id removed t s).1 (documentIdFor id)) := by
  unfold queueDelete
  split
  next threw =>
    refine ⟨.refl, ⟨_, _, rfl⟩, fun works => ?_⟩
    unfold TeachStore.enqueue at threw
    split at threw
    · cases threw
    · rw [works] at threw
      cases threw
  next entry s' queued =>
    obtain ⟨plain, mem, isDelete⟩ := enqueue_plain fresh lost queued
    exact ⟨plain, ⟨_, _, rfl⟩, fun _ => ⟨entry, mem, isDelete⟩⟩

/-- A forget that finds no trace of a retain, or has no client and cannot queue the
delete, leaves the document to what the server holds. -/
def Untracked (s : TeachStore) (id : Text) (t : Turn) : Prop :=
  ∃ moment, s.get id = some moment ∧
    ((moment.retained = none ∧ retainQueued id s = false) ∨
      (t.faults.enqueue (.delete (documentIdFor id)) = true ∧
        ¬ (t.enabled = true ∧ ∃ bank, t.client = .ok bank)))

theorem forgetMoment_effect (fresh lost : Option Text)
    (known : Text → OutboxOp → Prop) (agree : Agree s) (id : Text) :
    Calm fresh t lost known s (forgetMoment id t s) ∨
      (s.get id ≠ none ∧
        Plain fresh t.entryId (.delete (documentIdFor id)) lost s (forgetMoment id t s).1 ∧
        (forgetMoment id t s).1.get id = none ∧
        ((∃ removed, (forgetMoment id t s).2 = .inl (.deleting id removed false)) ∨
          ((∃ reported remote, (forgetMoment id t s).2 = .inr (.forgot id reported remote)) ∧
            (Queued (forgetMoment id t s).1 (documentIdFor id) ∨ Untracked s id t)))) := by
  unfold forgetMoment
  split
  · exact Or.inl (Quiet.returns (by simp)).calm
  next moment found =>
    have here : s.get id = some moment := by
      split at found
      · exact found
      · cases found
    dsimp only
    have dropped : ∀ op, Plain fresh t.entryId op lost s (dropRetainOps t.faults id s).2 :=
      fun op => dropRetainOps_plain agree id
    have still := @dropRetainOps_get s t.faults id id
    have threw : ∀ s', s'.get id = some moment → Quiet known s' (s', .inr (forgetThrew id s')) := by
      intro s' there
      apply Quiet.returns
      intro other remote same
      simp [forgetThrew, there] at same
    split
    next s1 partly =>
      rw [partly] at dropped still
      exact Or.inl (Plain.calm_of dropped (threw s1 (still.trans here)))
    next s1 cleared =>
      rw [cleared] at dropped still
      split
      · exact Or.inl (Plain.calm_of dropped (threw s1 (still.trans here)))
      next removed s2 written =>
        have both := (dropped (.delete (documentIdFor id))).trans (remove_plain written)
        have gone := remove_get written
        refine Or.inr ⟨by simp [here], ?_⟩
        split
        next lone =>
          rw [Bool.and_eq_true, Option.isNone_iff_eq_none, Bool.not_eq_eq_eq_not] at lone
          exact ⟨both, gone, Or.inr ⟨⟨_, _, rfl⟩, Or.inr ⟨moment, here, Or.inl lone⟩⟩⟩
        next =>
          have queues : ¬ (t.enabled = true ∧ ∃ bank, t.client = .ok bank) →
              Plain fresh t.entryId (.delete (documentIdFor id)) lost s
              (queueDelete id removed t s2).1 ∧ (queueDelete id removed t s2).1.get id = none ∧
              ((∃ removed', (queueDelete id removed t s2).2 = .inl (.deleting id removed' false)) ∨
                ((∃ reported remote,
                    (queueDelete id removed t s2).2 = .inr (.forgot id reported remote)) ∧
                  (Queued (queueDelete id removed t s2).1 (documentIdFor id) ∨
                    Untracked s id t))) := by
            intro unsent
            obtain ⟨last, value, works⟩ := queueDelete_effect none none id removed (s := s2) (t := t)
            have last' := (queueDelete_effect fresh lost id removed (s := s2) (t := t)).1
            refine ⟨both.trans last', last.absent id (by simp) gone, Or.inr ⟨value, ?_⟩⟩
            cases fails : t.faults.enqueue (.delete (documentIdFor id)) with
            | false => exact Or.inl (works fails)
            | true => exact Or.inr ⟨moment, here, Or.inr ⟨fails, unsent⟩⟩
          split
          · exact ⟨both, gone, Or.inl ⟨removed, rfl⟩⟩
          next unsent => exact queues fun ⟨enabled, bank, client⟩ => unsent bank enabled client

end Ultrathink.Source.Teach
