import Ultrathink.Guarantees.ForgetFinal
import Ultrathink.Source.Teach.Promotion
import Ultrathink.Library.Overlay

/-!
# The status of a moment moves forward

`candidate`, `confirmed`, `promoted`, `superseded`: a stretch of an operation leaves every moment
that stays in the store at its status or a later one. `markPromoted` alone writes without a look
at the status, so the result is about the runs in which no superseded moment is marked.
-/

namespace Ultrathink.Guarantees.StatusForward

open List Library.JsText Library.Runs Source.Teach
open ForgetFinal (lesson lessonWording turnAt emptyState)

/-- A file is named by its moment. -/
def Files (s : TeachStore) : Prop := (s.momentFiles.map TeachableMoment.id).Nodup

/-- No moment leaves the store or falls back. -/
structure Lifts (s s' : TeachStore) : Prop where
  files : Files s → Files s'
  up : ∀ id moment, s.get id = some moment →
    ∃ later, s'.get id = some later ∧ statusRank moment.status ≤ statusRank later.status

/-- No moment that stays falls back. -/
structure Rises (s s' : TeachStore) : Prop where
  files : Files s'
  up : ∀ id moment later, s.get id = some moment → s'.get id = some later →
    statusRank moment.status ≤ statusRank later.status

variable {s s' s'' : TeachStore} {faults : Faults} {w : Wording} {t : Turn} {next : Next}
  {moment : TeachableMoment}

theorem Lifts.of_files (same : s'.momentFiles = s.momentFiles) : Lifts s s' := by
  refine ⟨fun files => ?_, fun id moment found => ⟨moment, ?_, le_rfl⟩⟩
  · unfold Files
    rw [same]
    exact files
  · unfold TeachStore.get
    rw [same]
    exact found

theorem Lifts.refl : Lifts s s := .of_files rfl

theorem Lifts.trans (first : Lifts s s') (second : Lifts s' s'') : Lifts s s'' := by
  refine ⟨fun files => second.files (first.files files), fun id moment found => ?_⟩
  obtain ⟨middle, there, up⟩ := first.up id moment found
  obtain ⟨later, held, up'⟩ := second.up id middle there
  exact ⟨later, held, up.trans up'⟩

theorem Lifts.rises (lifts : Lifts s s') (files : Files s) : Rises s s' := by
  refine ⟨lifts.files files, fun id moment later found held => ?_⟩
  obtain ⟨other, there, up⟩ := lifts.up id moment found
  rw [held] at there
  exact Option.some.inj there ▸ up

theorem put_lifts (written : s.put faults moment = some s')
    (up : ∀ old, s.get moment.id = some old → statusRank old.status ≤ statusRank moment.status) :
    Lifts s s' := by
  refine ⟨fun files => ?_, fun id old found => ?_⟩
  · unfold TeachStore.put at written
    split at written
    · cases written
    cases written
    refine nodup_cons.mpr ⟨?_, files.sublist (filter_sublist.map _)⟩
    simp
  · rw [put_get written]
    split
    next same => exact ⟨moment, rfl, up old (same ▸ found)⟩
    next => exact ⟨old, found, le_rfl⟩

theorem enqueue_files {op : OutboxOp} {now : Nat} {name : Text} {entry : OutboxEntry}
    (written : s.enqueue faults op now name = some (entry, s')) :
    s'.momentFiles = s.momentFiles := by
  unfold TeachStore.enqueue at written
  split at written
  · cases written
    rfl
  · split at written
    · cases written
    · cases written
      rfl

theorem ack_files {entryId : Text} (written : s.ack faults entryId = some s') :
    s'.momentFiles = s.momentFiles := by
  rw [ack_outbox written]

theorem fail_files {entryId reason : Text} {now : Nat}
    (written : s.fail w faults entryId reason now = some s') :
    s'.momentFiles = s.momentFiles := by
  unfold TeachStore.fail at written
  split at written
  · cases written
    rfl
  · split at written
    · cases written
    · cases written
      rfl

theorem dropRetainOps_lifts (id : Text) : Lifts s (dropRetainOps faults id s).2 :=
  .of_files (dropRetainOps_files id)

theorem retainOne_lifts (moment : TeachableMoment) (bank : Text) (answer : Answer) :
    Lifts s (retainOne w moment bank answer t s).1 := by
  unfold retainOne
  split
  · exact .refl
  · exact .refl
  split
  · exact .refl
  · dsimp only
    split
    · exact .refl
    split
    · exact .refl
    next s' written =>
      refine (put_lifts written fun old found => ?_).trans (dropRetainOps_lifts _)
      cases stored : s.get moment.id with
      | none =>
        rw [stored, Option.getD_none, stored] at found
        cases found
      | some current =>
        rw [stored, Option.getD_some, TeachStore.get_id stored, stored] at found
        exact Option.some.inj found ▸ le_rfl

theorem settleRetained_lifts (moment : TeachableMoment) (result : Except Failure TeachableMoment) :
    Lifts s (settleRetained moment result t s).1 := by
  unfold settleRetained
  split
  · exact .refl
  split
  · exact .refl
  split
  · exact .refl
  next queued => exact .of_files (enqueue_files queued)

theorem rank_le_superseded (status : MomentStatus) :
    statusRank status ≤ statusRank .superseded := by
  cases status <;> decide

theorem supersede_lifts (oldId newId : Text) : Lifts s (supersede w oldId newId t s).1 := by
  unfold supersede
  split
  · exact .refl
  next old found =>
    split
    · exact .refl
    dsimp only
    split
    · exact .refl
    next s1 written =>
      have marked : Lifts s s1 := put_lifts written fun other _ => rank_le_superseded _
      have dropped : Lifts s (dropRetainOps t.faults old.id s1).2 :=
        marked.trans (dropRetainOps_lifts old.id)
      split
      next partly =>
        rw [partly] at dropped
        exact dropped
      next cleared =>
        rw [cleared] at dropped
        split
        · exact dropped
        split
        · exact dropped
        next queued => exact dropped.trans (.of_files (enqueue_files queued))

theorem mergeMoments_up (old fresh : TeachableMoment) :
    statusRank old.status ≤ statusRank (mergeMoments old fresh).status := by
  unfold mergeMoments
  dsimp only
  split
  · exact le_rfl
  next raised => exact (not_le.mp (not_or.mp raised).2).le

/-- A capture raises the moment that it repeats; a new moment is not in the store. -/
theorem savedBy_up (files : Files s) (unused : s.get moment.id = none) (old : TeachableMoment)
    (found : s.get (savedBy moment s).id = some old) :
    statusRank old.status ≤ statusRank (savedBy moment s).status := by
  unfold savedBy at found ⊢
  split at found
  next existing repeats =>
    unfold repeated at repeats
    have mem := TeachStore.findByDedupeKey_mem (Option.filter_eq_some_iff.mp repeats).1
    have held : s.get existing.id = some existing := Library.Overlay.find?_key files mem
    have found : s.get existing.id = some old := found
    rw [held] at found
    exact Option.some.inj found ▸ mergeMoments_up existing moment
  · rw [unused] at found
    cases found

theorem captureMoment_lifts (files : Files s) (unused : s.get moment.id = none) :
    Lifts s (captureMoment w moment t s).1 := by
  unfold captureMoment
  split
  · exact .refl
  split
  · exact .refl
  dsimp only
  split
  · exact .refl
  next s1 written =>
    have saved : Lifts s s1 := put_lifts written (savedBy_up files unused)
    have both : Lifts s (supersededBy w moment (savedBy moment s).id t s1).1 := by
      unfold supersededBy
      split
      · exact saved
      · exact saved.trans (supersede_lifts _ _)
    split
    next partly =>
      rw [partly] at both
      exact both
    next done =>
      rw [done] at both
      unfold captureSettled
      split
      · exact both
      · exact both

theorem confirmMoment_lifts (id : Text) : Lifts s (confirmMoment w id t s).1 := by
  unfold confirmMoment
  split
  · exact .refl
  next moment found =>
    dsimp only
    split
    · exact .refl
    split
    · split
      · exact .refl
      · exact .refl
    next candidate =>
      split
      · exact .refl
      split
      · exact .refl
      next s' written =>
        have lifts : Lifts s s' := by
          refine put_lifts written fun old held => ?_
          split at found
          · have held : s.get moment.id = some old := held
            rw [TeachStore.get_id found, found] at held
            rw [← Option.some.inj held, not_not.mp candidate]
            exact Nat.zero_le _
          · cases found
        split
        · exact lifts
        · exact lifts

theorem quiet_files (quiet : Quiet (fun _ _ => True) s next) :
    next.1.momentFiles = s.momentFiles :=
  congrArg _ quiet.store

theorem syncOutbox_files : (syncOutbox t s).1.momentFiles = s.momentFiles := by
  unfold syncOutbox
  dsimp only
  split
  · rfl
  split
  · rfl
  split
  · rfl
  · exact quiet_files (syncEntries_quiet _ fun _ _ => trivial)

theorem syncRan_files (entry : OutboxEntry) (failure : Option Failure) (call : SyncCall) :
    (syncRan w entry failure call t s).1.momentFiles = s.momentFiles := by
  unfold syncRan
  split
  · split
    · rfl
    next written =>
      rw [quiet_files (syncEntries_quiet _ fun _ _ => trivial), ack_files written]
  · split
    · rfl
    next written =>
      dsimp only
      split
      · exact fail_files written
      · rw [quiet_files (syncEntries_quiet _ fun _ _ => trivial), fail_files written]

theorem syncRetained_files (sent : TeachableMoment) (result : Except Failure TeachableMoment)
    (call : SyncCall) : (syncRetained w sent result call t s).1.momentFiles = s.momentFiles := by
  unfold syncRetained
  split
  · exact quiet_files (syncBacklog_quiet _ fun _ _ => trivial)
  · split
    · rfl
    next queued =>
      split
      · exact enqueue_files queued
      next written =>
        dsimp only
        split
        · exact (fail_files written).trans (enqueue_files queued)
        · rw [quiet_files (syncBacklog_quiet _ fun _ _ => trivial), fail_files written,
            enqueue_files queued]

theorem queueDelete_files (id : Text) (removed : Bool) :
    (queueDelete id removed t s).1.momentFiles = s.momentFiles := by
  unfold queueDelete
  split
  · rfl
  next queued => exact enqueue_files queued

theorem answered_lifts {place : Place} {answer : Answer}
    (answered : place.answered w answer t s = some next) : Lifts s next.1 := by
  cases place with
  | retaining moment bank served caller =>
    cases answered
    exact retainOne_lifts moment bank answer
  | tagging entry served outcome call =>
    cases answered
    unfold persistTagged
    split
    · exact .refl
    · split
      · exact .refl
      next written => exact .of_files (ack_files written)
  | deleting id removed served =>
    cases answered
    unfold forgetAnswered
    split
    · exact .refl
    · exact .of_files (queueDelete_files id removed)
  | replaying entry served call =>
    cases answered
    exact .of_files (syncRan_files entry _ call)
  | retained sent result caller => cases answered
  | settled outcome call => cases answered
  | skipped entry call => cases answered

theorem resumed_lifts {place : Place} (resumed : place.resumed w t s = some next) :
    Lifts s next.1 := by
  unfold Place.resumed at resumed
  split at resumed
  next result moment call =>
    have settled : Lifts s _ := settleRetained_lifts (t := t) moment result
    cases call with
    | none =>
      cases resumed
      exact settled
    | some call =>
      cases resumed
      exact settled
  · cases resumed
    exact .of_files (syncRan_files _ none _)
  · cases resumed
    exact .of_files (syncRan_files _ _ _)
  · cases resumed
    exact .of_files (syncRetained_files _ _ _)
  · cases resumed
    unfold persist
    split
    · exact .refl
    · exact .refl
  · cases resumed
    exact .of_files (syncRan_files _ none _)
  all_goals cases resumed

theorem remove_sublist {id : Text} {removed : Bool}
    (written : s.remove faults id = some (removed, s')) :
    s'.momentFiles.Sublist s.momentFiles := by
  unfold TeachStore.remove at written
  split at written
  · cases written
    exact .refl _
  · split at written
    · cases written
    · cases written
      exact filter_sublist

theorem forgetMoment_sublist (id : Text) :
    (forgetMoment id t s).1.momentFiles.Sublist s.momentFiles := by
  unfold forgetMoment
  split
  · exact .refl _
  · dsimp only
    have dropped : (dropRetainOps t.faults id s).2.momentFiles = _ := dropRetainOps_files id
    split
    next partly =>
      rw [partly] at dropped
      exact dropped ▸ .refl _
    next s1 cleared =>
      rw [cleared] at dropped
      split
      · exact dropped ▸ .refl _
      next written =>
        have removed := dropped ▸ remove_sublist written
        split
        · exact removed
        · split
          · exact removed
          · rw [queueDelete_files]
            exact removed

theorem Rises.of_sublist (files : Files s) (sub : s'.momentFiles.Sublist s.momentFiles) :
    Rises s s' := by
  refine ⟨files.sublist (sub.map _), fun id moment later found held => ?_⟩
  have mem := sub.subset (mem_of_find?_eq_some held)
  have same : s.get later.id = some later := Library.Overlay.find?_key files mem
  rw [TeachStore.get_id held, found] at same
  exact Option.some.inj same ▸ le_rfl

variable {a a' : State} {p : Nat}

theorem step_rises {i : Input} (files : Files a.store) (unused : unnamed a.store i = true)
    (taken : step w a i = some a') : Rises a.store a'.store := by
  cases i with
  | capture p moment t =>
    simp only [step] at taken
    split at taken
    · cases taken
      exact (captureMoment_lifts files (Option.isNone_iff_eq_none.mp unused)).rises files
    · cases taken
  | confirm p id t =>
    simp only [step] at taken
    split at taken
    · cases taken
      exact (confirmMoment_lifts id).rises files
    · cases taken
  | forget p id t =>
    simp only [step] at taken
    split at taken
    · cases taken
      exact .of_sublist files (forgetMoment_sublist id)
    · cases taken
  | sync p t =>
    simp only [step] at taken
    split at taken
    · cases taken
      exact (Lifts.of_files syncOutbox_files).rises files
    · cases taken
  | answer p answer t =>
    simp only [step] at taken
    split at taken
    · cases taken
    · split at taken
      · cases taken
      · obtain ⟨next, answered, rfl⟩ := Option.map_eq_some_iff.mp taken
        exact (answered_lifts answered).rises files
  | resume p t =>
    simp only [step] at taken
    split at taken
    · cases taken
    · split at taken
      · cases taken
      · obtain ⟨next, resumed, rfl⟩ := Option.map_eq_some_iff.mp taken
        exact (resumed_lifts resumed).rises files
  | serve p =>
    simp only [step] at taken
    split at taken
    · cases taken
    · split at taken
      · cases taken
        exact Lifts.refl.rises files
      · cases taken
  | serveLate i =>
    simp only [step] at taken
    split at taken
    · cases taken
    · cases taken
      exact Lifts.refl.rises files

/-- The moment is not superseded, or cannot be written. -/
def Spared (faults : Faults) (s : TeachStore) (id : Text) : Prop :=
  faults.put id = false → ∀ moment, s.get id = some moment → moment.status ≠ .superseded

/-- A marking changes a moment to promoted or leaves it. -/
structure Marks (s s' : TeachStore) : Prop where
  lifts : Lifts s s'
  kept : ∀ id later, s'.get id = some later → later.status = .promoted ∨ s.get id = some later

theorem Marks.refl : Marks s s := ⟨.refl, fun _ _ held => Or.inr held⟩

theorem Marks.trans (first : Marks s s') (second : Marks s' s'') : Marks s s'' :=
  ⟨first.lifts.trans second.lifts, fun id later held =>
    (second.kept id later held).elim Or.inl (first.kept id later)⟩

theorem Marks.spared {id : Text} (marks : Marks s s') (spared : Spared faults s id) :
    Spared faults s' id := by
  intro works later held
  rcases marks.kept id later held with promoted | old
  · rw [promoted]
    nofun
  · exact spared works later old

variable {skill : SkillInfo} {m : MarkTurn}

theorem rank_le_promoted {status : MomentStatus} (other : status ≠ .superseded) :
    statusRank status ≤ statusRank .promoted := by
  cases status with
  | superseded => exact absurd rfl other
  | _ => decide

theorem markOne_marks {id : Text} (spared : Spared m.faults s id) :
    Marks s (markOne w skill m id s).1 := by
  unfold markOne
  split
  · exact .refl
  next moment found =>
    dsimp only
    split
    · exact .refl
    next s1 written =>
      have works : m.faults.put id = false := by
        unfold TeachStore.put at written
        split at written
        · cases written
        next works =>
          rw [← TeachStore.get_id found]
          exact Bool.eq_false_iff.mpr works
      have put : Marks s s1 := by
        refine ⟨put_lifts written fun old held => ?_, fun id' later held => ?_⟩
        · have held : s.get moment.id = some old := held
          rw [TeachStore.get_id found] at held
          exact rank_le_promoted (spared works old held)
        · rw [put_get written] at held
          split at held
          · exact Or.inl (Option.some.inj held ▸ rfl)
          · exact Or.inr held
      split
      · exact put
      split
      · exact put
      next queued =>
        have same := enqueue_files queued
        refine ⟨put.lifts.trans (.of_files same), fun id' later held => put.kept id' later ?_⟩
        unfold TeachStore.get at held ⊢
        rwa [same] at held

theorem markPromoted_marks (ids : List Text) (spared : ∀ id ∈ ids, Spared m.faults s id) :
    Marks s (markPromoted w skill m ids s) := by
  induction ids generalizing s with
  | nil => exact .refl
  | cons id rest ih =>
    have first : Marks s (markOne w skill m id s).1 := markOne_marks (spared id (by simp))
    unfold markPromoted
    split
    next s1 went =>
      rw [went] at first
      exact first.trans (ih fun later mem => first.spared (spared later (by simp [mem])))
    next s1 stopped =>
      rw [stopped] at first
      exact first

theorem promoteKept_marks {target : SkillTarget} {installed : Text → Option (Text × Text)}
    (kept : List TeachableMoment)
    (spared : target ≠ .hermes → target ≠ .drafts → ∀ moment ∈ kept,
      (installed moment.id).isSome → Spared m.faults s moment.id) :
    Marks s (promoteKept w target installed m kept s) := by
  induction kept generalizing s with
  | nil => exact .refl
  | cons moment rest ih =>
    have others := fun host draft later mem =>
      spared host draft later (mem_cons_of_mem moment mem)
    unfold promoteKept
    split
    · exact ih others
    next host =>
      obtain ⟨hermes, drafts⟩ := not_or.mp host
      split
      · exact ih others
      next skill path put =>
        have mine := spared hermes drafts moment (by simp) (by rw [put]; rfl)
        have first : Marks s (markPromoted w ⟨skill, target, some path⟩ m [moment.id] s) :=
          markPromoted_marks _ fun id mem => mem_singleton.mp mem ▸ mine
        exact first.trans (ih fun host draft later mem there =>
          first.spared (others host draft later mem there))

/-- No superseded moment is marked: neither by `promote` nor by `promoteDue`, whose candidates
were read before its await. -/
def Met (x : Step Lessons LessonInput) : Prop :=
  match x.label with
  | .promote tokens info t => t.enabled = true → t.opened = true → info.isSome → ∀ moments,
      tokens.mapM (findMoment x.before.main.store) = some moments →
      ∀ moment ∈ moments, Spared t.faults x.before.main.store moment.id
  | .judged p kept installed t => ∀ due, x.before.judging p = some due →
      due.target ≠ .hermes → due.target ≠ .drafts → ∀ moment ∈ kept,
      (installed moment.id).isSome → Spared t.faults x.before.main.store moment.id
  | _ => True

theorem promote_marks {tokens : List Text} {info : Option SkillInfo}
    (spared : m.enabled = true → m.opened = true → info.isSome → ∀ moments,
      tokens.mapM (findMoment s) = some moments → ∀ moment ∈ moments, Spared m.faults s moment.id) :
    Marks s (promote w tokens info m s) := by
  unfold promote
  split
  · exact .refl
  next on =>
    simp only [Bool.or_eq_true, Bool.not_eq_true', not_or, Bool.not_eq_false] at on
    split
    next moments info found =>
      refine markPromoted_marks _ fun id mem => ?_
      obtain ⟨moment, among, rfl⟩ := mem_map.mp mem
      exact spared on.1 on.2 rfl moments found moment among
    next => exact .refl

theorem lessonStep_rises {b b' : Lessons} {i : LessonInput} (files : Files b.main.store)
    (met : Met ⟨b, i, b'⟩) (taken : lessonStep w b i = some b') :
    Rises b.main.store b'.main.store := by
  cases i with
  | main i =>
    simp only [lessonStep] at taken
    split at taken
    next unused =>
      obtain ⟨main, stepped, rfl⟩ := Option.map_eq_some_iff.mp taken
      exact step_rises files unused stepped
    next => cases taken
  | promote tokens info m =>
    simp only [lessonStep] at taken
    split at taken
    · cases taken
      exact (promote_marks met).lifts.rises files
    · cases taken
  | promoteDue p config target opened =>
    simp only [lessonStep] at taken
    split at taken
    · cases taken
    · cases taken
      exact Lifts.refl.rises files
  | judged p kept installed m =>
    simp only [lessonStep] at taken
    split at taken
    · cases taken
    next due here =>
      split at taken
      · cases taken
        exact (promoteKept_marks kept (met due here)).lifts.rises files
      · cases taken

/-- In every run whose steps all meet the condition, a moment that stays in the store from one
state to a later one has a status that is no earlier there, and stays superseded once it is. -/
theorem status_forward (w : Wording) {first b b' : Lessons}
    {before since : List (Step Lessons LessonInput)} (start : LessonStart first)
    (reached : (lessonSystem w).Run first before b) (run : (lessonSystem w).Run b since b')
    (metBefore : ∀ x ∈ before, Met x) (met : ∀ x ∈ since, Met x) {id : Text}
    (stays : ∀ x ∈ since, x.after.main.store.get id ≠ none) {moment later : TeachableMoment}
    (found : b.main.store.get id = some moment) (held : b'.main.store.get id = some later) :
    statusRank moment.status ≤ statusRank later.status ∧
      (moment.status = .superseded → later.status = .superseded) := by
  have files : Files b.main.store := reached.invariant_of (fun s => Files s.main.store) Met
    start.files (fun _ _ _ taken allowed files => (lessonStep_rises files allowed taken).files)
    metBefore
  obtain ⟨-, current, here, up⟩ := run.invariant_of
    (fun s => Files s.main.store ∧ ∃ current, s.main.store.get id = some current ∧
      statusRank moment.status ≤ statusRank current.status)
    (fun x => Met x ∧ x.after.main.store.get id ≠ none) ⟨files, moment, found, le_rfl⟩
    (fun m i n taken allowed ih => by
      obtain ⟨files, current, here, up⟩ := ih
      have rises := lessonStep_rises files allowed.1 taken
      obtain ⟨next, there⟩ := Option.ne_none_iff_exists'.mp allowed.2
      exact ⟨rises.files, next, there, up.trans (rises.up id current next here there)⟩)
    (fun x mem => ⟨met x mem, stays x mem⟩)
  rw [held] at here
  rw [← Option.some.inj here] at up
  refine ⟨up, fun superseded => ?_⟩
  rw [superseded] at up
  cases status : later.status with
  | superseded => rfl
  | _ =>
    rw [status] at up
    exact absurd up (by decide)

def info : SkillInfo := ⟨js "lesson-use-import-type", .claude, some (js "skills/SKILL.md")⟩

def markTurn : MarkTurn := ⟨true, true, 1002, fun id => js "m" ++ id, noFaults⟩

/-- The store holds one confirmed moment. -/
def lessonState : Lessons :=
  ⟨{ emptyState with store := ⟨[lesson], []⟩, drawn := [lesson.id] }, fun _ => none⟩

theorem lessonState_start : LessonStart lessonState := by
  refine ⟨⟨rfl, rfl, rfl, ?_, ?_, ?_, ?_⟩, by decide, rfl⟩
  all_goals simp [lessonState, emptyState]

def dueInput : LessonInput := .promoteDue 0 ⟨true, true, false, 1⟩ .claude true

def judgedInput : LessonInput :=
  .judged 0 [lesson] (fun _ => some (info.skill, js "skills/SKILL.md")) markTurn

def replacing : TeachableMoment :=
  { lesson with id := js "1c7d", dedupeKey := js "f4", supersedes := some lesson.id }

/-- The capture comes while Jev is asked. -/
def overtakenInputs : List LessonInput :=
  [dueInput, .main (.capture 0 replacing (turnAt 1000 (js "a")))]

def after (inputs : List LessonInput) : Lessons :=
  runInputs (stepped (lessonStep lessonWording)) lessonState inputs

theorem superseded_promoted : ¬ ∀ (w : Wording) (first b b' : Lessons)
    (before since : List (Step Lessons LessonInput)), LessonStart first →
    (lessonSystem w).Run first before b → (lessonSystem w).Run b since b' → ∀ id,
    (∀ x ∈ since, x.after.main.store.get id ≠ none) → ∀ moment later,
    b.main.store.get id = some moment → b'.main.store.get id = some later →
    statusRank moment.status ≤ statusRank later.status := by
  intro claimed
  have before : (lessonSystem lessonWording).Run _ _ _ := run_stepped lessonState overtakenInputs
    (by decide +kernel)
  have since : (lessonSystem lessonWording).Run _ _ _ := run_stepped (after overtakenInputs)
    [judgedInput] (by decide +kernel)
  have up := claimed lessonWording _ _ _ _ _ lessonState_start before since lesson.id
    (by decide +kernel) { lesson with status := .superseded } (promotedAs info 1002 lesson)
    (by decide +kernel) (by decide +kernel)
  exact absurd up (by decide)

theorem met_judged {b b' : Lessons} {kept : List TeachableMoment}
    {installed : Text → Option (Text × Text)} (current : ∀ moment ∈ kept,
      (b.main.store.get moment.id).all fun found => found.status ≠ .superseded) :
    Met ⟨b, .judged p kept installed m, b'⟩ := by
  intro due here hermes drafts moment mem put works found there
  have fine := current moment mem
  have there : b.main.store.get moment.id = some found := there
  rw [there] at fine
  exact of_decide_eq_true fine

theorem status_forward_due :
    statusRank lesson.status ≤ statusRank (promotedAs info 1002 lesson).status ∧
      (lesson.status = .superseded → (promotedAs info 1002 lesson).status = .superseded) := by
  have stays : ∀ x ∈ traceOf (stepped (lessonStep lessonWording)) lessonState
      [dueInput, judgedInput], x.after.main.store.get lesson.id ≠ none := by decide +kernel
  refine status_forward lessonWording lessonState_start (.refl _)
    (run_stepped lessonState [dueInput, judgedInput] (by decide +kernel)) (by simp) ?_ stays
    (by decide +kernel) (by decide +kernel)
  simp only [traceOf, forall_mem_cons]
  exact ⟨trivial, met_judged (by decide +kernel), by simp⟩

end Ultrathink.Guarantees.StatusForward
