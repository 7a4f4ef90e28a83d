import Ultrathink.Library.Runs
import Ultrathink.Source.TokenOpt.LedgerFaults

/-!
# What a call of the ledger that throws leaves behind

Whatever writes fail, the memory holds valid snapshots alone, and so does every file that the
ledger has replaced. A call that throws has at most loaded a session; `live.json` is written after
the session's own file.
-/

namespace Ultrathink.Guarantees.LedgerThrows

open Library JsText Runs Source.TokenOpt
open Library.JsNumber (Number)
open Source.TokenOpt.Faulty (free Fault Faults Thrown Moments putSession putLive entered activeOf)

variable {o : Options} {l after : Ledger} {id : Text} {doc : Doc} {now : Time} {faults : Faults}

/-- Each file is as it was or holds a valid snapshot that the ledger wrote. -/
structure Sound (before after : Disk) : Prop where
  file : ∀ id, after.file id = before.file id ∨
    ∃ doc, after.file id = some (.written doc) ∧ isValidDoc doc id = true
  latest : after.latest = before.latest ∨
    ∃ doc id, after.latest = some (.written doc) ∧ isValidDoc doc id = true

theorem Sound.refl (disk : Disk) : Sound disk disk := ⟨fun _ => .inl rfl, .inl rfl⟩

theorem Sound.trans {first second third : Disk} (one : Sound first second)
    (two : Sound second third) : Sound first third where
  file id := by
    rcases two.file id with same | written
    · rw [same]
      exact one.file id
    · exact .inr written
  latest := by
    rcases two.latest with same | written
    · rw [same]
      exact one.latest
    · exact .inr written

theorem sound_putSession (valid : isValidDoc doc id = true) (disk : Disk) :
    Sound disk (putSession doc disk) where
  file other := by
    rw [putSession, sessionIdOf_valid valid]
    dsimp only
    rw [Function.update_apply]
    split
    · next same =>
      subst same
      exact .inr ⟨doc, rfl, valid⟩
    · exact .inl rfl
  latest := .inl rfl

theorem sound_putLive (valid : isValidDoc doc id = true) (disk : Disk) :
    Sound disk (putLive doc disk) := ⟨fun _ => .inl rfl, .inr ⟨doc, id, rfl, valid⟩⟩

/-- What holds of the ledger `after` a call on `l`. -/
structure Good (l after : Ledger) : Prop where
  valid : Valid after.memory
  sound : Sound l.disk after.disk

theorem Good.refl (valid : Valid l.memory) : Good l l := ⟨valid, .refl _⟩

theorem Good.trans {later : Ledger} (one : Good l after) (two : Good after later) : Good l later :=
  ⟨two.valid, one.sound.trans two.sound⟩

theorem valid_update {memory : Text → Option Doc} (held : Valid memory)
    (valid : isValidDoc doc id = true) : Valid (Function.update memory id (some doc)) := by
  intro other kept here
  rw [Function.update_apply] at here
  split at here
  · next same =>
    subst same
    cases here
    exact valid
  · exact held other kept here

/-- A call that threw left `l` but for its files, and those too when it refused. -/
def Left (l : Ledger) (thrown : Thrown) (after : Ledger) : Prop :=
  ∃ disk, after = { l with disk } ∧
    (disk = l.disk ∨ (∃ message, thrown = .fault message) ∧
      ∃ id doc, l.activeId = some id ∧ isValidDoc doc id = true ∧ disk = putSession doc l.disk)

theorem left_same (l : Ledger) (thrown : Thrown) : Left l thrown l := ⟨l.disk, rfl, .inl rfl⟩

variable {thrown : Thrown} {op : Faulty.Op}

theorem Left.good (left : Left l thrown after) (valid : Valid l.memory) :
    Good l after := by
  obtain ⟨disk, rfl, same | ⟨-, id, doc, -, written, rfl⟩⟩ := left
  · rw [same]
    exact .refl valid
  · exact ⟨valid, sound_putSession written l.disk⟩

theorem writeSnapshot_thrown (active : l.activeId = some id) (valid : isValidDoc doc id = true)
    (wrote : Faulty.writeSnapshot doc faults l = (after, .error thrown)) :
    Left l thrown after := by
  unfold Faulty.writeSnapshot at wrote
  split at wrote
  · cases wrote
    exact left_same l _
  · split at wrote
    · cases wrote
      exact ⟨_, rfl, .inr ⟨⟨_, rfl⟩, id, doc, active, valid, rfl⟩⟩
    · cases wrote

theorem writeSnapshot_ok {u : Unit} (wrote : Faulty.writeSnapshot doc faults l = (after, .ok u)) :
    after = { l with disk := putLive doc (putSession doc l.disk), completed := l.completed + 1 } := by
  unfold Faulty.writeSnapshot at wrote
  split at wrote
  · cases wrote
  · split at wrote
    · cases wrote
    · cases wrote
      rfl

theorem markDirty_kept (o : Options) (id : Text) (l : Ledger) :
    (markDirty o id l).memory = l.memory ∧ (markDirty o id l).activeId = l.activeId ∧
      (markDirty o id l).disk = l.disk := by
  unfold markDirty
  dsimp only
  split <;> exact ⟨rfl, rfl, rfl⟩

/-- A call that came to its end, with what it returned. -/
structure Done (l after : Ledger) (doc : Doc) : Prop where
  good : Good l after
  shown : snapshot after = some doc

theorem good_putLive (valid : Valid l.memory) (here : isValidDoc doc id = true) (completed : Nat) :
    Good l { l with disk := putLive doc (putSession doc l.disk), completed := completed } :=
  ⟨valid, (sound_putSession here l.disk).trans (sound_putLive here _)⟩

theorem entered_good (valid : Valid l.memory) (named : isValidSessionId id = true) (now : Time) :
    Good l (entered id now l) := by
  have here := found_valid named now l.disk
  rw [entered, adoptUsage_eq]
  exact ⟨valid_update valid here, .refl _⟩

theorem entered_shown (now : Time) : snapshot (entered id now l) = some (found id now l.disk) := by
  rw [entered, adoptUsage_eq]
  simp [snapshot]

theorem load_thrown (loads : Faulty.load o id now faults l = (after, .error thrown)) :
    (isValidSessionId id = false ∧ after = l) ∨
      isValidSessionId id = true ∧ Left (entered id now l) thrown after := by
  unfold Faulty.load at loads
  cases named : isValidSessionId id with
  | false =>
    rw [named] at loads
    cases loads
    exact .inl ⟨rfl, rfl⟩
  | true =>
    simp only [named, Bool.not_true, Bool.false_eq_true, if_false] at loads
    split at loads
    · cases loads
    · split at loads
      · cases loads
      · next wrote =>
        cases loads
        exact .inr ⟨rfl, writeSnapshot_thrown rfl (found_valid named now l.disk) wrote⟩

theorem load_ok (valid : Valid l.memory) (loads : Faulty.load o id now faults l = (after, .ok doc)) :
    Done l after doc := by
  unfold Faulty.load at loads
  cases named : isValidSessionId id with
  | false =>
    rw [named] at loads
    cases loads
  | true =>
    have entry := entered_good valid named now
    simp only [named, Bool.not_true, Bool.false_eq_true, if_false] at loads
    split at loads
    · cases loads
      obtain ⟨memory, active, disk⟩ := markDirty_kept o id (entered id now l)
      refine ⟨⟨?_, ?_⟩, ?_⟩
      · rw [memory]
        exact entry.valid
      · rw [disk]
        exact entry.sound
      · rw [snapshot, active, memory]
        exact entered_shown now
    · split at loads
      · next wrote =>
        cases loads
        rw [writeSnapshot_ok wrote]
        exact ⟨entry.trans (good_putLive entry.valid (found_valid named now l.disk) _),
          entered_shown now⟩
      · cases loads

variable {next previous fields : Doc} {point : Value} {base : Ledger}
  {input cacheRead cacheWrite output : Number}

theorem commit_thrown (active : l.activeId = some id)
    (commits : Faulty.commit o next id faults l = (after, .error thrown)) :
    Left l thrown after := by
  unfold Faulty.commit at commits
  cases valid : isValidDoc next id with
  | false =>
    rw [valid] at commits
    cases commits
    exact left_same l _
  | true =>
    simp only [valid, Bool.not_true, Bool.false_eq_true, if_false] at commits
    split at commits
    · cases commits
    · split at commits
      · cases commits
      · next wrote =>
        cases commits
        exact writeSnapshot_thrown active valid wrote

theorem commit_ok (held : Valid l.memory) (active : l.activeId = some id)
    (commits : Faulty.commit o next id faults l = (after, .ok doc)) : Done l after doc := by
  unfold Faulty.commit at commits
  cases valid : isValidDoc next id with
  | false =>
    rw [valid] at commits
    cases commits
  | true =>
    have kept := valid_update held valid
    simp only [valid, Bool.not_true, Bool.false_eq_true, if_false] at commits
    split at commits
    · cases commits
      obtain ⟨memory, activeId, disk⟩ := markDirty_kept o id
        { l with memory := Function.update l.memory id (some doc) }
      refine ⟨⟨?_, ?_⟩, ?_⟩
      · rw [memory]
        exact kept
      · rw [disk]
        exact .refl _
      · rw [snapshot, activeId, memory]
        simp [active]
    · split at commits
      · next wrote =>
        cases commits
        rw [writeSnapshot_ok wrote]
        refine ⟨⟨kept, (good_putLive held valid 0).sound⟩, ?_⟩
        simp [snapshot, active]
      · cases commits

/-- The ledger that a call changes: as it was, or as the loading that came first left it. -/
inductive Base (o : Options) (l : Ledger) : Faulty.Op → Ledger → Prop
  | same {op : Faulty.Op} : Base o l op l
  | entered {id : Text} {now : Time} {faults : Faults} (named : isValidSessionId id = true) :
    Base o l (.load id now faults) (entered id now l)
  /-- No session was active, and the write of `default` fails. -/
  | entering {op : Faulty.Op} (idle : snapshot l = none) (now : Time) :
    Base o l op (entered (js "default") now l)
  /-- No session was active, and `default` was loaded. -/
  | loaded {op : Faulty.Op} {after : Ledger} {doc : Doc} {now : Time} {faults : Faults}
    (idle : snapshot l = none) (loads : Faulty.load o (js "default") now faults l = (after, .ok doc)) :
    Base o l op after

theorem default_named : isValidSessionId (js "default") = true := by decide

theorem activeOf_ok (active : activeOf l = .ok (id, previous)) :
    l.activeId = some id ∧ l.memory id = some previous := by
  unfold activeOf at active
  split at active
  · cases active
  · next found =>
    cases active
    obtain ⟨id, shown, mapped⟩ := Option.bind_eq_some_iff.mp found
    obtain ⟨previous, here, same⟩ := Option.map_eq_some_iff.mp mapped
    cases same
    exact ⟨shown, here⟩

theorem activeOf_shown (shown : snapshot l = some doc) : ∃ id, activeOf l = .ok (id, doc) := by
  obtain ⟨id, active, held⟩ := Option.bind_eq_some_iff.mp shown
  refine ⟨id, ?_⟩
  rw [activeOf, active, Option.bind_some, held]
  rfl

theorem requireActive_ok (valid : Valid l.memory) (op : Faulty.Op)
    (active : Faulty.requireActive o now faults l = (after, .ok (id, previous))) :
    Base o l op after ∧ Good l after ∧ after.activeId = some id ∧ after.memory id = some previous := by
  unfold Faulty.requireActive at active
  split at active
  · next idle =>
    split at active
    · cases active
    · next loads =>
      obtain ⟨rfl, found⟩ := Prod.mk.inj active
      exact ⟨.loaded (Option.isNone_iff_eq_none.mp idle) loads, (load_ok valid loads).good,
        activeOf_ok found⟩
  · obtain ⟨rfl, found⟩ := Prod.mk.inj active
    exact ⟨.same, .refl valid, activeOf_ok found⟩

theorem requireActive_thrown (valid : Valid l.memory) (op : Faulty.Op)
    (active : Faulty.requireActive o now faults l = (after, .error thrown)) :
    ∃ base, Base o l op base ∧ Good l base ∧ Left base thrown after := by
  unfold Faulty.requireActive at active
  split at active
  · next idle =>
    split at active
    · next loads =>
      cases active
      rcases load_thrown loads with ⟨unnamed, -⟩ | ⟨named, left⟩
      · rw [default_named] at unnamed
        cases unnamed
      · exact ⟨_, .entering (Option.isNone_iff_eq_none.mp idle) now, entered_good valid named now, left⟩
    · next loads =>
      obtain ⟨id, found⟩ := activeOf_shown (load_ok valid loads).shown
      rw [found] at active
      cases active
  · next shown =>
    obtain ⟨doc, shown⟩ := Option.ne_none_iff_exists'.mp (mt Option.isNone_iff_eq_none.mpr shown)
    obtain ⟨id, found⟩ := activeOf_shown shown
    rw [found] at active
    cases active

variable {at_ : Moments}

theorem next_thrown {next : Text → Doc → Doc} (valid : Valid l.memory) (op : Faulty.Op)
    (call : (match Faulty.requireActive o at_.loaded at_.loading l with
      | (l, .error thrown) => (l, .error thrown)
      | (l, .ok (id, previous)) => Faulty.commit o (next id previous) id at_.writing l) =
        (after, .error thrown)) :
    ∃ base, Base o l op base ∧ Good l base ∧ Left base thrown after := by
  split at call
  · next active =>
    cases call
    exact requireActive_thrown valid op active
  · next active =>
    obtain ⟨base, good, session, -⟩ := requireActive_ok valid op active
    exact ⟨_, base, good, commit_thrown session call⟩

theorem next_ok {next : Text → Doc → Doc} (valid : Valid l.memory) (op : Faulty.Op)
    (call : (match Faulty.requireActive o at_.loaded at_.loading l with
      | (l, .error thrown) => (l, .error thrown)
      | (l, .ok (id, previous)) => Faulty.commit o (next id previous) id at_.writing l) =
        (after, .ok doc)) : Done l after doc := by
  split at call
  · cases call
  · next active =>
    obtain ⟨-, good, session, -⟩ := requireActive_ok valid op active
    obtain ⟨later, shown⟩ := commit_ok good.valid session call
    exact ⟨good.trans later, shown⟩

theorem record_thrown (valid : Valid l.memory) (op : Faulty.Op)
    (call : Faulty.record o point at_ l = (after, .error thrown)) :
    ∃ base, Base o l op base ∧ Good l base ∧ Left base thrown after := by
  unfold Faulty.record at call
  split at call
  · cases call
    exact ⟨l, .same, .refl valid, left_same l _⟩
  · exact next_thrown valid op call

theorem record_ok (valid : Valid l.memory) (call : Faulty.record o point at_ l = (after, .ok doc)) :
    Done l after doc := by
  unfold Faulty.record at call
  split at call
  · cases call
  · exact next_ok valid (.record point at_) call

theorem notePerf_thrown (valid : Valid l.memory) (op : Faulty.Op)
    (call : Faulty.notePerf o fields at_ l = (after, .error thrown)) :
    ∃ base, Base o l op base ∧ Good l base ∧ Left base thrown after := by
  unfold Faulty.notePerf at call
  split at call
  · cases call
    exact ⟨l, .same, .refl valid, left_same l _⟩
  · exact next_thrown valid op call

theorem notePerf_ok (valid : Valid l.memory)
    (call : Faulty.notePerf o fields at_ l = (after, .ok doc)) : Done l after doc := by
  unfold Faulty.notePerf at call
  split at call
  · cases call
  · exact next_ok valid (.notePerf fields at_) call

theorem Base.active (is : Base o l op base) (shown : snapshot l ≠ none)
    (calls : ∀ id now faults, op ≠ .load id now faults) : base = l := by
  cases is with
  | same => rfl
  | entered => exact absurd rfl (calls _ _ _)
  | entering idle => exact absurd idle shown
  | loaded idle => exact absurd idle shown

/-- The totals of the active session alone differ. -/
def OwnRow (l : Ledger) (usage : Text → Option ProviderTotals) : Prop :=
  ∀ id, l.activeId ≠ some id → usage id = l.usage id

theorem addProviderUsage_thrown (valid : Valid l.memory) (op : Faulty.Op)
   
    (call : Faulty.addProviderUsage o input cacheRead cacheWrite output at_ l = (after, .error thrown)) :
    ∃ base usage, Base o l op base ∧ Good l base ∧ OwnRow base usage ∧
      Left { base with usage } thrown after := by
  unfold Faulty.addProviderUsage at call
  split at call
  · cases call
    exact ⟨l, l.usage, .same, .refl valid, fun _ _ => rfl, left_same l _⟩
  · split at call
    · next active =>
      cases call
      obtain ⟨base, is, good, left⟩ := requireActive_thrown valid op active
      exact ⟨base, base.usage, is, good, fun _ _ => rfl, left⟩
    · next id previous active =>
      obtain ⟨base, good, session, here⟩ := requireActive_ok valid op active
      dsimp only at call
      split at call
      · cases call
        exact ⟨_, _, base, good, fun _ _ => rfl, left_same _ _⟩
      · have noted := fun valid => notePerf_thrown valid (.notePerf [] at_) call
        obtain ⟨same, is, -, left⟩ := noted good.valid
        -- the session is active by now, so the call of `notePerf` loads none
        have unchanged := is.active (by simp [snapshot, session, here]) (by simp)
        rw [unchanged] at left
        refine ⟨_, _, base, good, fun other different => ?_, left⟩
        rw [session, ne_eq, Option.some.injEq] at different
        exact Function.update_of_ne (Ne.symm different) _ _

theorem addProviderUsage_ok (valid : Valid l.memory)
    (call : Faulty.addProviderUsage o input cacheRead cacheWrite output at_ l = (after, .ok doc)) :
    Done l after doc := by
  unfold Faulty.addProviderUsage at call
  split at call
  · cases call
  · split at call
    · cases call
    · next active =>
      obtain ⟨-, good, -, -⟩ := requireActive_ok valid (.notePerf [] at_) active
      dsimp only at call
      split at call
      · cases call
      · have noted := fun valid => notePerf_ok valid call
        obtain ⟨later, shown⟩ := noted good.valid
        exact ⟨good.trans ⟨later.valid, later.sound⟩, shown⟩

theorem writeSnapshot_good {result : Except Thrown Unit} (held : Valid l.memory)
    (valid : isValidDoc doc id = true) (wrote : Faulty.writeSnapshot doc faults l = (after, result)) :
    Good l after := by
  unfold Faulty.writeSnapshot at wrote
  split at wrote
  · cases wrote
    exact .refl held
  · split at wrote
    · cases wrote
      exact ⟨held, sound_putSession valid l.disk⟩
    · cases wrote
      exact good_putLive held valid _

theorem drainOne_good (valid : Valid l.memory) (faults : Text → Faults) (id : Text) :
    Good l (Faulty.drainOne faults l id) := by
  unfold Faulty.drainOne
  split
  · exact .refl valid
  · next doc here =>
    split
    · next wrote => exact writeSnapshot_good valid (valid id doc here) wrote
    · next wrote =>
      obtain ⟨kept, sound⟩ := writeSnapshot_good valid (valid id doc here) wrote
      exact ⟨kept, sound⟩

theorem drainDirty_good (valid : Valid l.memory) (faults : Text → Faults) :
    Good l (Faulty.drainDirty faults l) := by
  have all : ∀ (ids : List Text) (l : Ledger), Valid l.memory →
      Good l (ids.foldl (Faulty.drainOne faults) l) := by
    intro ids
    induction ids with
    | nil => exact fun l valid => .refl valid
    | cons id rest ih =>
      intro l valid
      have one := drainOne_good valid faults id
      exact one.trans (ih _ one.valid)
  have started : Good l { l with dirty := [], flushTimer := false } := ⟨valid, .refl _⟩
  exact started.trans (all l.dirty _ started.valid)

theorem load_done {result : Except Thrown Doc} (valid : Valid l.memory)
    (loads : Faulty.load o id now faults l = (after, result)) : Good l after := by
  cases result with
  | ok doc => exact (load_ok valid loads).good
  | error thrown =>
    rcases load_thrown loads with ⟨-, rfl⟩ | ⟨named, left⟩
    · exact .refl valid
    · have entry := entered_good valid named now
      exact entry.trans (left.good entry.valid)

/-- The ledger that a call left when it threw: its base, with nothing changed but what `Left`
says and, by `addProviderUsage`, the totals of the session that is active. -/
def Threw (o : Options) (l : Ledger) (op : Faulty.Op) (thrown : Thrown) (after : Ledger) : Prop :=
  ∃ base usage, Base o l op base ∧ Left { base with usage } thrown after ∧
    (usage = base.usage ∨
      (∃ input cacheRead cacheWrite output at_,
        op = .addProviderUsage input cacheRead cacheWrite output at_) ∧ OwnRow base usage)

theorem threw_of_left (is : Base o l op base) (left : Left base thrown after) :
    Threw o l op thrown after :=
  ⟨base, base.usage, is, left, .inl rfl⟩

structure Stepped (o : Options) (l : Ledger) (op : Faulty.Op) : Prop where
  valid : Valid (Faulty.step o l op).memory
  sound : (∃ disk, op = .others disk) ∨ Sound l.disk (Faulty.step o l op).disk
  returned : ∀ doc, (Faulty.perform o l op).2 = some (.ok doc) →
    snapshot (Faulty.step o l op) = some doc
  threw : ∀ thrown, (Faulty.perform o l op).2 = some (.error thrown) →
    Threw o l op thrown (Faulty.step o l op)

theorem stepped_call (call : Ledger → Ledger × Except Thrown Doc)
    (is : Faulty.perform o l op = ((call l).1, some (call l).2))
    (ok : ∀ after doc, call l = (after, .ok doc) → Done l after doc)
    (error : ∀ after thrown, call l = (after, .error thrown) →
      Good l after ∧ Threw o l op thrown after) : Stepped o l op := by
  have step : Faulty.step o l op = (call l).1 := congrArg Prod.fst is
  have result : (Faulty.perform o l op).2 = some (call l).2 := congrArg Prod.snd is
  rcases made : call l with ⟨after, outcome⟩
  rw [made] at step result
  cases outcome with
  | ok doc =>
    obtain ⟨⟨valid, sound⟩, shown⟩ := ok after doc made
    constructor
    · rw [step]
      exact valid
    · rw [step]
      exact .inr sound
    · intro other returned
      rw [result] at returned
      cases returned
      rw [step]
      exact shown
    · intro thrown threw
      rw [result] at threw
      cases threw
  | error thrown =>
    obtain ⟨⟨valid, sound⟩, threw⟩ := error after thrown made
    constructor
    · rw [step]
      exact valid
    · rw [step]
      exact .inr sound
    · intro doc returned
      rw [result] at returned
      cases returned
    · intro other same
      rw [result] at same
      cases same
      rw [step]
      exact threw

theorem threw_good (found : ∃ base, Base o l op base ∧ Good l base ∧ Left base thrown after) :
    Good l after ∧ Threw o l op thrown after := by
  obtain ⟨base, is, good, left⟩ := found
  exact ⟨good.trans (left.good good.valid), threw_of_left is left⟩

theorem stepped (valid : Valid l.memory) (op : Faulty.Op) : Stepped o l op := by
  cases op with
  | load id now faults =>
    refine stepped_call (Faulty.load o id now faults) rfl
      (fun _ _ loads => load_ok valid loads) fun after thrown loads => ?_
    refine ⟨load_done valid loads, ?_⟩
    rcases load_thrown loads with ⟨-, rfl⟩ | ⟨named, left⟩
    · exact threw_of_left .same (left_same _ _)
    · exact threw_of_left (.entered named) left
  | record point at_ =>
    exact stepped_call (Faulty.record o point at_) rfl
      (fun _ _ call => record_ok valid call) fun _ _ call => threw_good (record_thrown valid _ call)
  | notePerf fields at_ =>
    exact stepped_call (Faulty.notePerf o fields at_) rfl
      (fun _ _ call => notePerf_ok valid call) fun _ _ call => threw_good (notePerf_thrown valid _ call)
  | addProviderUsage input cacheRead cacheWrite output at_ =>
    refine stepped_call (Faulty.addProviderUsage o input cacheRead cacheWrite output at_) rfl
      (fun _ _ call => addProviderUsage_ok valid call) fun after thrown call => ?_
    obtain ⟨base, usage, is, good, own, left⟩ := addProviderUsage_thrown valid _ call
    have changed : Good base { base with usage } := ⟨good.valid, .refl _⟩
    exact ⟨(good.trans changed).trans (left.good good.valid),
      base, usage, is, left, .inr ⟨⟨_, _, _, _, _, rfl⟩, own⟩⟩
  | flush faults =>
    have good : Good l (Faulty.step o l (.flush faults)) := by
      rw [Faulty.step, Faulty.perform]
      split
      · exact drainDirty_good valid faults
      · exact .refl valid
    exact ⟨good.valid, .inr good.sound, nofun, nofun⟩
  | timer faults =>
    have good : Good l (Faulty.step o l (.timer faults)) := by
      rw [Faulty.step, Faulty.perform]
      split
      · exact drainDirty_good valid faults
      · exact .refl valid
    exact ⟨good.valid, .inr good.sound, nofun, nofun⟩
  | others disk => exact ⟨valid, .inl ⟨disk, rfl⟩, nofun, nofun⟩

def reached (o : Options) (disk : Disk) (ops : List Faulty.Op) : Ledger :=
  runInputs (Faulty.step o) (createLedger disk) ops

def atOnce : Options := ⟨false, 64, Nat.succ_pos 63⟩

def noFiles : Disk := ⟨fun _ => none, none⟩

def locked : Fault := some (js "ledger lock timeout")

def lastQuery : Doc := [(js "lastQueryMs", .num (JsNumber.ofNat 9))]

/-- Whether a file shows a last query. -/
def queried : Option File → Bool
  | some (.written doc) => (Json.field doc (js "lastQueryMs")).isSome
  | _ => false

/-- `notePerf` with the faults of its own two writes. -/
def note (writing : Faults) (l : Ledger) : Ledger × Except Thrown Doc :=
  Faulty.notePerf atOnce lastQuery ⟨1, 2, free, writing⟩ l

def begun : Ledger := reached atOnce noFiles [.load (js "s") 1 free]

end Ultrathink.Guarantees.LedgerThrows
