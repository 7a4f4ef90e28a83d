import Ultrathink.Source.TokenOpt.Effects

/-!
# The ledger that writes later agrees with the ledger that writes at once

Both ledgers take the same operations on the same files. As long as they agree, the files
of the one that writes at once are those of the other with what it owes written back.
-/

namespace Ultrathink.Guarantees.LedgerParity

open Library JsText WriteBack Source.TokenOpt

def sync (o : Options) : Options := { o with asyncWrites := false }

def async (o : Options) : Options := { o with asyncWrites := true }

/-- After every operation both show one snapshot, and a flush at the end makes their
files the same. -/
def Agree (o : Options) : Ledger → Ledger → List Op → Prop
  | s, a, [] => (flush (sync o) s).disk = (flush (async o) a).disk
  | s, a, op :: rest =>
    snapshot (step (sync o) s op) = snapshot (step (async o) a op) ∧
      Agree o (step (sync o) s op) (step (async o) a op) rest

/-- No more sessions than the ledger keeps are owed: none is dropped. -/
def Within (o : Options) : Ledger → List Op → Prop
  | _, [] => True
  | a, op :: rest =>
    (step (async o) a op).dropped = a.dropped ∧ Within o (step (async o) a op) rest

/-- What a load of the session finds is up to date: the snapshot that is owed for the
session, or, when none is, no older snapshot of it in `live.json`. -/
def Current (a : Ledger) (id : Text) (now : Time) : Prop :=
  if id ∈ a.dirty then (a.memory id).map rereadFields = some (found id now a.disk)
  else a.dirty = [] ∨ (validSnapshot id (readJson (a.disk.file id))).isSome ∨
    (validSnapshot id (readJson a.disk.latest)).getD (freshSnapshot id now) = freshSnapshot id now

def loadsCurrent (a : Ledger) : Op → Prop
  | .load id now => isValidSessionId id = true → Current a id now
  | _ => True

/-- Every load of the run is up to date when it comes. -/
def LoadsCurrent (o : Options) : Ledger → List Op → Prop
  | _, [] => True
  | a, op :: rest => loadsCurrent a op ∧ LoadsCurrent o (step (async o) a op) rest

structure Rel (s a : Ledger) : Prop where
  memory : s.memory = a.memory
  usage : s.usage = a.usage
  activeId : s.activeId = a.activeId
  clean : s.dirty = []
  quiet : s.flushTimer = false
  valid : Valid a.memory
  owed : ∀ id ∈ a.dirty, a.memory id ≠ none
  nodup : a.dirty.Nodup
  active : ∀ id, a.activeId = some id → a.memory id ≠ none
  idle : a.activeId = none → a.dirty = []
  disk : s.disk = drain (bodies a.memory) a.dirty a.disk

variable {s a : Ledger} {o : Options} {id : Text} {now : Time}

theorem Rel.shown (rel : Rel s a) : snapshot s = snapshot a := by
  rw [snapshot, snapshot, rel.activeId, rel.memory]

variable {l : Ledger} {memory : Text → Option Doc} {n : Nat}

theorem bodies_ne_none (held : memory id ≠ none) :
    bodies memory id ≠ none := by
  simpa [bodies] using held

theorem bodies_update (memory : Text → Option Doc) (doc : Doc) :
    bodies (Function.update memory id (some doc)) =
      Function.update (bodies memory) id (some (.written doc)) := by
  funext other
  rw [bodies, Function.update_apply, Function.update_apply]
  split <;> rfl

theorem Rel.drained (rel : Rel s a) : Rel s (drainDirty a) := by
  obtain ⟨completed, same⟩ := drainDirty_eq rel.valid
  rw [same]
  exact ⟨rel.memory, rel.usage, rel.activeId, rel.clean, rel.quiet, rel.valid,
    fun _ mem => (by cases mem), List.nodup_nil, rel.active, fun _ => rfl, rel.disk⟩

theorem rel_flush (rel : Rel s a) : Rel (flush (sync o) s) (flush (async o) a) := rel.drained

theorem rel_timer (rel : Rel s a) :
    Rel (step (sync o) s .timer) (step (async o) a .timer) := by
  simp only [step, rel.quiet, Bool.false_eq_true, if_false]
  split
  · exact rel.drained
  · exact rel

theorem markDirty_kept (kept : (markDirty o id l).dropped = l.dropped) :
    markDirty o id l = { l with dirty := touch id l.dirty, flushTimer := true } := by
  unfold markDirty at kept ⊢
  dsimp only at kept ⊢
  split at kept
  · simp at kept
  next fits => rw [if_neg fits]

theorem markDirty_dropped (before : l.dropped = n) :
    n ≤ (markDirty o id l).dropped := by
  unfold markDirty
  dsimp only
  split
  · exact before ▸ Nat.le_succ _
  · exact Nat.le_of_eq before.symm

theorem Rel.put (rel : Rel s a) {doc : Doc} (valid : isValidDoc doc id = true)
    (usage : Text → Option ProviderTotals) {activeId : Option Text} (active : activeId = some id)
    (kept : (markDirty o id { a with
      memory := Function.update a.memory id (some doc)
      usage := usage, activeId := activeId }).dropped = a.dropped) :
    Rel (writeSnapshot doc { s with
        memory := Function.update s.memory id (some doc), usage := usage, activeId := activeId })
      (markDirty o id { a with
        memory := Function.update a.memory id (some doc), usage := usage, activeId := activeId }) := by
  subst active
  rw [markDirty_kept kept]
  have held : ∀ other, (other = id ∨ a.memory other ≠ none) →
      Function.update a.memory id (some doc) other ≠ none := by
    intro other known
    rw [Function.update_apply]
    split
    · simp
    next different => exact known.resolve_left different
  refine ⟨?_, rfl, rfl, rel.clean, rel.quiet, ?_, ?_, touch_nodup rel.nodup, ?_, nofun, ?_⟩
  · dsimp only [writeSnapshot]
    rw [rel.memory]
  · intro other doc' here
    have here : Function.update a.memory id (some doc) other = some doc' := here
    rw [Function.update_apply] at here
    split at here
    next same =>
      cases here
      exact same ▸ valid
    next => exact rel.valid other doc' here
  · exact fun other mem => held other (((mem_touch rel.nodup).mp mem).imp_right (rel.owed other))
  · intro other same
    cases same
    exact held id (Or.inl rfl)
  · dsimp only [writeSnapshot]
    rw [sessionIdOf_valid valid, rel.disk, bodies_update]
    exact (drain_touch (fun other mem => bodies_ne_none (rel.owed other mem)) rel.nodup id
      (.written doc)).symm

theorem Rel.file (rel : Rel s a) (id : Text) :
    s.disk.file id = if id ∈ a.dirty then bodies a.memory id else a.disk.file id := by
  rw [rel.disk, drain_file fun other mem => bodies_ne_none (rel.owed other mem)]
  by_cases owed : id ∈ a.dirty
  · simp only [if_pos owed]
  · simp only [if_neg owed]

theorem Rel.latest (rel : Rel s a) :
    s.disk.latest = match a.dirty.getLast? with
      | none => a.disk.latest
      | some last => bodies a.memory last := by
  rw [rel.disk, drain_latest fun other mem => bodies_ne_none (rel.owed other mem)]
  cases a.dirty.getLast? <;> rfl

theorem validSnapshot_other (valid : Valid memory) {other : Text} (different : other ≠ id) :
    validSnapshot id (readJson (bodies memory other)) = none := by
  cases here : memory other with
  | none => simp [bodies, here, readJson, validSnapshot]
  | some doc =>
    cases read : validSnapshot id (readJson (bodies memory other)) with
    | none => rfl
    | some doc' =>
      obtain ⟨same, valid'⟩ := validSnapshot_some read
      simp only [bodies, here, readJson, Option.map_some, Option.bind_some, File.parsed, reread,
        Option.some.injEq, Json.obj.injEq] at same
      rw [← same] at valid'
      exact absurd (isValidDoc_id (isValidDoc_reread (valid other doc here)) valid') different

theorem found_agrees (rel : Rel s a) (id : Text) (now : Time) :
    found id now s.disk = found id now a.disk ↔ Current a id now := by
  unfold Current
  by_cases owed : id ∈ a.dirty
  · obtain ⟨doc, here⟩ := Option.ne_none_iff_exists'.mp (rel.owed id owed)
    have mine : found id now s.disk = rereadFields doc := by
      have valid := isValidDoc_reread (rel.valid id doc here)
      rw [found, rel.file, if_pos owed, bodies, here]
      simp [readJson, File.parsed, reread, validSnapshot, valid]
    rw [if_pos owed, mine, here, Option.map_some, Option.some.injEq]
  · rw [if_neg owed, found, found, rel.file, if_neg owed, rel.latest]
    cases own : validSnapshot id (readJson (a.disk.file id)) with
    | some doc => simp
    | none =>
      cases last : a.dirty.getLast? with
      | none => simp [List.getLast?_eq_none_iff.mp last]
      | some other =>
        have mem := List.mem_of_getLast? last
        have different : other ≠ id := by
          rintro rfl
          exact owed mem
        have nonempty : a.dirty ≠ [] := List.ne_nil_of_mem mem
        simp only [Option.none_or, validSnapshot_other rel.valid different, Option.getD_none,
          nonempty, Option.isSome_none, Bool.false_eq_true, false_or]
        exact eq_comm

theorem rel_load (rel : Rel s a) (current : isValidSessionId id = true → Current a id now)
    (kept : (load (async o) id now a).1.dropped = a.dropped) :
    Rel (load (sync o) id now s).1 (load (async o) id now a).1 := by
  unfold load at kept ⊢
  cases named : isValidSessionId id with
  | false => exact rel
  | true =>
    have same := (found_agrees rel id now).mpr (current named)
    have valid := found_valid named now a.disk
    simp only [named, Bool.not_true, Bool.false_eq_true, if_false, async, if_true, sync,
      adoptUsage_eq, same, rel.usage] at kept ⊢
    exact rel.put valid _ rfl kept

theorem load_dropped (id : Text) (now : Time) (l : Ledger) :
    l.dropped ≤ (load o id now l).1.dropped := by
  unfold load
  split
  · exact Nat.le_refl _
  · dsimp only
    rw [adoptUsage_eq]
    split
    · exact markDirty_dropped rfl
    · exact Nat.le_refl _

theorem requireActive_dropped (now : Time) (l : Ledger) :
    l.dropped ≤ (requireActive o now l).1.dropped := by
  unfold requireActive
  dsimp only
  split
  · exact load_dropped _ _ l
  · exact Nat.le_refl _

theorem requireActive_id {previous : Doc}
    (active : (requireActive o now l).2 = some (id, previous)) :
    (requireActive o now l).1.activeId = some id := by
  obtain ⟨id', isId, there⟩ := Option.bind_eq_some_iff.mp active
  obtain ⟨previous', -, same⟩ := Option.map_eq_some_iff.mp there
  cases same
  exact isId

/-- Nothing is owed before the first load, so that the load of `default` is up to date. -/
theorem rel_requireActive (now : Time) (rel : Rel s a)
    (kept : (requireActive (async o) now a).1.dropped = a.dropped) :
    Rel (requireActive (sync o) now s).1 (requireActive (async o) now a).1 ∧
      (requireActive (sync o) now s).2 = (requireActive (async o) now a).2 := by
  unfold requireActive at kept ⊢
  dsimp only at kept ⊢
  rw [rel.shown]
  split at kept
  next absent =>
    simp only [if_pos absent]
    have none : a.activeId = none := by
      cases active : a.activeId with
      | none => rfl
      | some id =>
        have there := rel.active id active
        rw [snapshot, active, Option.bind_some, Option.isNone_iff_eq_none] at absent
        exact absurd absent there
    have nothing := rel.idle none
    have current : Current a (js "default") now := by
      rw [Current, nothing]
      simp
    have loaded := rel_load rel (fun _ => current) kept
    refine ⟨loaded, ?_⟩
    rw [loaded.activeId, loaded.memory]
  next present =>
    simp only [if_neg present]
    refine ⟨rel, ?_⟩
    rw [rel.activeId, rel.memory]

theorem commit_dropped (next : Doc) (id : Text) (l : Ledger) :
    l.dropped ≤ (commit o next id l).1.dropped := by
  unfold commit
  split
  · exact Nat.le_refl _
  · dsimp only
    split
    · exact markDirty_dropped rfl
    · exact Nat.le_refl _

theorem rel_commit (rel : Rel s a) (active : a.activeId = some id) (next : Doc)
    (kept : (commit (async o) next id a).1.dropped = a.dropped) :
    Rel (commit (sync o) next id s).1 (commit (async o) next id a).1 := by
  unfold commit at kept ⊢
  cases valid : isValidDoc next id with
  | false => exact rel
  | true =>
    simp only [valid, Bool.not_true, Bool.false_eq_true, if_false, async, if_true, sync, rel.usage,
      rel.activeId] at kept ⊢
    exact rel.put valid a.usage active kept

theorem rel_usage (rel : Rel s a) (usage : Text → Option ProviderTotals) :
    Rel { s with usage := usage } { a with usage := usage } :=
  ⟨rel.memory, rfl, rel.activeId, rel.clean, rel.quiet, rel.valid, rel.owed, rel.nodup, rel.active,
    rel.idle, rel.disk⟩

/-- An operation that asks for the active session and then commits a snapshot of it. -/
theorem rel_active (rel : Rel s a) (next : Text → Doc → Doc)
    (kept : (match requireActive (async o) now a with
      | (a, none) => (a, Except.error (js "no session"))
      | (a, some (id, previous)) => commit (async o) (next id previous) id a).1.dropped =
        a.dropped) :
    Rel (match requireActive (sync o) now s with
        | (s, none) => (s, Except.error (js "no session"))
        | (s, some (id, previous)) => commit (sync o) (next id previous) id s).1
      (match requireActive (async o) now a with
        | (a, none) => (a, Except.error (js "no session"))
        | (a, some (id, previous)) => commit (async o) (next id previous) id a).1 := by
  have grows := requireActive_dropped (o := async o) now a
  have active : ∀ id previous, (requireActive (async o) now a).2 = some (id, previous) →
      (requireActive (async o) now a).1.activeId = some id := fun _ _ => requireActive_id
  have required := rel_requireActive (o := o) now rel
  generalize requireActive (async o) now a = ra at *
  generalize requireActive (sync o) now s = rs at *
  obtain ⟨a', found⟩ := ra
  obtain ⟨s', found'⟩ := rs
  cases found with
  | none =>
    obtain ⟨rel', same⟩ := required kept
    cases same
    exact rel'
  | some pair =>
    obtain ⟨id, previous⟩ := pair
    have later := commit_dropped (o := async o) (next id previous) id a'
    have first : a'.dropped = a.dropped := by
      dsimp only at kept grows later
      omega
    obtain ⟨rel', same⟩ := required first
    cases same
    exact rel_commit rel' (active id previous rfl) _ (kept.trans first.symm)

theorem rel_record (rel : Rel s a) (point : Value) (loaded now : Time)
    (kept : (record (async o) point loaded now a).1.dropped = a.dropped) :
    Rel (record (sync o) point loaded now s).1 (record (async o) point loaded now a).1 := by
  unfold record at kept ⊢
  split
  · exact rel
  next valid =>
    rw [if_neg valid] at kept
    exact rel_active rel (fun id previous => nextRecorded id previous point now) kept

theorem rel_notePerf (rel : Rel s a) (fields : Doc) (loaded now : Time)
    (kept : (notePerf (async o) fields loaded now a).1.dropped = a.dropped) :
    Rel (notePerf (sync o) fields loaded now s).1 (notePerf (async o) fields loaded now a).1 := by
  unfold notePerf at kept ⊢
  split
  · exact rel
  next valid =>
    rw [valid] at kept
    exact rel_active rel (fun id previous => nextNoted id previous fields now) kept

theorem notePerf_dropped {fields : Doc} {loaded now : Time} (before : l.dropped = n) :
    n ≤ (notePerf o fields loaded now l).1.dropped := by
  subst before
  unfold notePerf
  split
  · exact Nat.le_refl _
  have grows := requireActive_dropped (o := o) loaded l
  generalize requireActive o loaded l = required at *
  obtain ⟨l', found⟩ := required
  cases found with
  | none => exact grows
  | some pair => exact le_trans grows (commit_dropped _ _ l')

theorem rel_addProviderUsage (rel : Rel s a)
    (input cacheRead cacheWrite output : Library.JsNumber.Number) (loaded now : Time)
    (kept : (addProviderUsage (async o) input cacheRead cacheWrite output loaded now a).1.dropped =
      a.dropped) :
    Rel (addProviderUsage (sync o) input cacheRead cacheWrite output loaded now s).1
      (addProviderUsage (async o) input cacheRead cacheWrite output loaded now a).1 := by
  unfold addProviderUsage at kept ⊢
  dsimp only at kept ⊢
  split
  · exact rel
  next safe =>
    rw [if_neg safe] at kept
    have grows := requireActive_dropped (o := async o) loaded a
    have required := rel_requireActive (o := o) loaded rel
    generalize requireActive (async o) loaded a = ra at *
    generalize requireActive (sync o) loaded s = rs at *
    obtain ⟨a', found⟩ := ra
    obtain ⟨s', found'⟩ := rs
    cases found with
    | none =>
      obtain ⟨rel', same⟩ := required kept
      cases same
      exact rel'
    | some pair =>
      obtain ⟨id, previous⟩ := pair
      dsimp only at kept grows ⊢
      have first : a'.dropped = a.dropped := by
        split at kept
        · exact kept
        · refine le_antisymm (le_trans ?_ (Nat.le_of_eq kept)) grows
          exact notePerf_dropped rfl
      obtain ⟨rel', same⟩ := required first
      cases same
      dsimp only
      rw [rel'.usage]
      split
      · exact rel'
      next fits =>
        rw [if_neg fits] at kept
        exact rel_notePerf (rel_usage rel' _) _ _ _ (kept.trans first.symm)

theorem rel_step (rel : Rel s a) (op : Op) (current : loadsCurrent a op)
    (kept : (step (async o) a op).dropped = a.dropped) :
    Rel (step (sync o) s op) (step (async o) a op) := by
  cases op with
  | load id now => exact rel_load rel current kept
  | record point loaded now => exact rel_record rel point loaded now kept
  | notePerf fields loaded now => exact rel_notePerf rel fields loaded now kept
  | addProviderUsage input cacheRead cacheWrite output loaded now =>
    exact rel_addProviderUsage rel input cacheRead cacheWrite output loaded now kept
  | flush => exact rel_flush rel
  | timer => exact rel_timer rel

theorem markDirty_shown (l : Ledger) : snapshot (markDirty o id l) = snapshot l := by
  unfold markDirty
  dsimp only
  split <;> rfl

theorem load_shown (l : Ledger) (named : isValidSessionId id = true) :
    snapshot (load o id now l).1 = some (found id now l.disk) := by
  unfold load
  simp only [named, Bool.not_true, Bool.false_eq_true, if_false, adoptUsage_eq]
  split
  · rw [markDirty_shown]
    simp [snapshot]
  · simp [snapshot, writeSnapshot]

/-- One operation shows the same in both ledgers just when it loads what is up to date. -/
theorem step_shown (rel : Rel s a) (op : Op) (kept : (step (async o) a op).dropped = a.dropped) :
    snapshot (step (sync o) s op) = snapshot (step (async o) a op) ↔ loadsCurrent a op := by
  refine ⟨fun shown => ?_, fun current => (rel_step rel op current kept).shown⟩
  cases op with
  | load id now =>
    intro named
    rw [step, step, load_shown s named, load_shown a named, Option.some.injEq] at shown
    exact (found_agrees rel id now).mp shown
  | record point loaded now => trivial
  | notePerf fields loaded now => trivial
  | addProviderUsage input cacheRead cacheWrite output loaded now => trivial
  | flush => trivial
  | timer => trivial

theorem agree_of_rel (rel : Rel s a) (ops : List Op) (within : Within o a ops) :
    Agree o s a ops ↔ LoadsCurrent o a ops := by
  induction ops generalizing s a with
  | nil =>
    refine ⟨fun _ => trivial, fun _ => ?_⟩
    obtain ⟨completed, same⟩ := drainDirty_eq rel.valid
    have owed : (flush (async o) a).disk = drain (bodies a.memory) a.dirty a.disk :=
      congrArg Ledger.disk same
    have atOnce : (flush (sync o) s).disk = s.disk := rfl
    rw [Agree, atOnce, owed]
    exact rel.disk
  | cons op rest ih =>
    obtain ⟨kept, later⟩ := within
    have shown := step_shown rel op kept
    rw [Agree, LoadsCurrent, shown]
    exact and_congr_right fun current => ih (rel_step rel op current kept) later

theorem rel_createLedger (disk : Disk) : Rel (createLedger disk) (createLedger disk) :=
  ⟨rfl, rfl, rfl, rfl, rfl, fun _ _ here => (by cases here), fun _ mem => (by cases mem),
    List.nodup_nil, fun _ here => (by cases here), fun _ => rfl, rfl⟩

/-- The two ledgers agree on a sequence of operations just when each load in it is up to
date when it comes. -/
theorem ledgers_agree (o : Options) (disk : Disk) (ops : List Op)
    (within : Within o (createLedger disk) ops) :
    Agree o (createLedger disk) (createLedger disk) ops ↔ LoadsCurrent o (createLedger disk) ops :=
  agree_of_rel (rel_createLedger disk) ops within

def defaults : Options := ⟨true, 64, by decide⟩

def emptyDisk : Disk := ⟨fun _ => none, none⟩

def samplePoint : Value :=
  .obj [(js "at", .num (Library.JsNumber.ofNat 2)), (js "source", .str (js "graph")),
    (js "baseline", .num (Library.JsNumber.ofNat 10)),
    (js "current", .num (Library.JsNumber.ofNat 4)), (js "saved", .num (Library.JsNumber.ofNat 6))]

/-- The session is loaded again before its snapshot was written. -/
def reloaded : List Op := [.load (js "s") 1, .record samplePoint 2 2, .load (js "s") 3]

theorem reloaded_disagrees : ¬ ∀ (o : Options) (disk : Disk) (ops : List Op),
    Within o (createLedger disk) ops → Agree o (createLedger disk) (createLedger disk) ops := by
  intro claimed
  have within : Within defaults (createLedger emptyDisk) reloaded :=
    ⟨by decide +kernel, by decide +kernel, by decide +kernel, trivial⟩
  obtain ⟨-, -, shown, -⟩ := claimed defaults emptyDisk reloaded within
  have totals := congrArg (Option.map fun doc => natField doc (js "baselineTokens")) shown
  exact absurd totals (by decide +kernel)

theorem current_of_clean (clean : a.dirty = []) : Current a id now := by
  rw [Current, clean]
  simp

theorem current_of_file (free : id ∉ a.dirty)
    (own : (validSnapshot id (readJson (a.disk.file id))).isSome = true) : Current a id now := by
  rw [Current, if_neg free]
  exact Or.inr (Or.inl own)

/-- The session is left for another one after a flush, and loaded again. -/
def revisited : List Op :=
  [.load (js "s") 1, .record samplePoint 2 2, .flush, .load (js "t") 3, .record samplePoint 4 4,
    .load (js "s") 5]

theorem revisited_agrees :
    Agree defaults (createLedger emptyDisk) (createLedger emptyDisk) revisited :=
  (ledgers_agree defaults emptyDisk revisited
    ⟨by decide +kernel, by decide +kernel, by decide +kernel, by decide +kernel, by decide +kernel,
      by decide +kernel, trivial⟩).mpr
    ⟨fun _ => current_of_clean rfl, trivial, trivial,
      fun _ => current_of_clean (by decide +kernel), trivial,
      fun _ => current_of_file (by decide +kernel) (by decide +kernel), trivial⟩

end Ultrathink.Guarantees.LedgerParity
