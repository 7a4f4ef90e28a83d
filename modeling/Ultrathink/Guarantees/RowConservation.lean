import Mathlib.Data.List.Nodup
import Mathlib.Data.List.Pairwise
import Ultrathink.Source.TokenOpt.RemoteSink

/-!
# No row of the remote sink is lost or counted twice

At every moment each pushed row is queued, in flight or counted once. A row stands both
in the remote table and in the fallback file only when the write of its batch was given
up although one of its statements has stored the row, before that or after.
-/

namespace Ultrathink.Guarantees.RowConservation

open List Library.Runs Source.TokenOpt.RemoteSink

variable {α : Type}

def tally : Stage → Option Tally
  | .counted t => some t
  | .done t => some t
  | _ => none

def accepted : Stage → Bool
  | .raced true => true
  | .counted .sent => true
  | .done .sent => true
  | _ => false

/-- The remote write was given up, or there was none to wait for. -/
def gaveUp : Stage → Bool
  | .racing => false
  | stage => !accepted stage

/-- The whole batch is in the fallback file. -/
def kept : Stage → Bool
  | .spilled true => true
  | .counted .fellBack => true
  | .done .fellBack => true
  | _ => false

/-- The rows counted under the tally. -/
def countedRows (t : Tally) (batches : List (Batch α)) : List (Row α) :=
  batches.flatMap fun b => if tally b.stage = some t then b.rows else []

/-- The rows that left the queue and are not counted yet. -/
def inFlight (s : Sink α) : List (Row α) :=
  s.batches.flatMap fun b => if tally b.stage = none then b.rows else []

def counter (s : Sink α) : Tally → Nat
  | .sent => s.sent
  | .fellBack => s.fellBack
  | .dropped => s.dropped

structure Sound (b : Batch α) : Prop where
  split : b.stored ++ b.rest = b.rows
  appended : b.written <+: b.rows
  unwritten : gaveUp b.stage = false → b.written = []
  sent : accepted b.stage = true → b.rest = []
  kept : kept b.stage = true → b.written = b.rows
  unused : b.write = .unused → b.stored = []

variable {b : Batch α} {s s' : Sink α} {i : Nat}

theorem Sound.withWrite (sound : Sound b) (write : Write) (used : write ≠ .unused) :
    Sound { b with write } :=
  ⟨sound.split, sound.appended, sound.unwritten, sound.sent, sound.kept, fun h => absurd h used⟩

theorem Sound.withStage (sound : Sound b) (stage : Stage)
    (sent : accepted stage = true → b.rest = [])
    (unwritten : gaveUp stage = false → gaveUp b.stage = false)
    (keeps : RowConservation.kept stage = true → RowConservation.kept b.stage = true) :
    Sound { b with stage } :=
  ⟨sound.split, sound.appended, fun h => sound.unwritten (unwritten h), sent,
    fun h => sound.kept (keeps h), sound.unused⟩

theorem Sound.settle {b : Batch α} (sound : Sound b) (ok : Bool) (all : ok = true → b.rest = []) :
    Sound (b.settle ok) := by
  unfold Batch.settle
  split
  · next racing =>
    apply sound.withStage
    · intro h
      cases ok with
      | true => exact all rfl
      | false => cases h
    · intro _
      rw [racing]
      rfl
    · intro h
      cases h
  · exact sound

theorem Sound.nextStatement (sound : Sound b) : Sound b.nextStatement := by
  unfold Batch.nextStatement
  split
  · next all => exact (sound.withWrite .ended (by decide)).settle true fun _ => all
  · exact sound.withWrite (.inserting false) (by simp)

theorem Sound.store (sound : Sound b) (write : Write) (used : write ≠ .unused) :
    Sound (b.store write) := by
  refine ⟨?_, sound.appended, sound.unwritten, fun h => ?_, sound.kept, fun h => absurd h used⟩
  · change (b.stored ++ b.rest.take _) ++ b.rest.drop _ = b.rows
    rw [append_assoc, take_append_drop]
    exact sound.split
  · change b.rest.drop _ = []
    rw [sound.sent h, drop_nil]

theorem appended_isPrefix (rows : List (Row α)) (part : Nat) (ok : Bool) :
    appended rows part ok <+: rows := by
  unfold appended
  split
  · exact prefix_rfl
  · exact take_prefix part rows

/-- What one event of a delivery does to its batch: the rows stay, none is counted. -/
structure Keeps (b b' : Batch α) : Prop where
  rows : b'.rows = b.rows
  tally : tally b'.stage = tally b.stage
  sound : Sound b → Sound b'

theorem rows_settle (b : Batch α) (ok : Bool) : (b.settle ok).rows = b.rows := by
  unfold Batch.settle
  split
  · rfl
  · rfl

theorem tally_settle (b : Batch α) (ok : Bool) : tally (b.settle ok).stage = tally b.stage := by
  unfold Batch.settle
  split
  · next racing =>
    rw [racing]
    rfl
  · rfl

theorem keeps_settle (b : Batch α) (write : Write) (used : write ≠ .unused) :
    Keeps b ({ b with write }.settle false) := by
  constructor
  · exact rows_settle _ false
  · exact tally_settle _ false
  · intro sound
    exact (sound.withWrite write used).settle false (fun h => nomatch h)

theorem keeps_nextStatement (b : Batch α) : Keeps b b.nextStatement := by
  constructor
  · unfold Batch.nextStatement
    split
    · exact rows_settle _ true
    · rfl
  · unfold Batch.nextStatement
    split
    · exact tally_settle _ true
    · rfl
  · exact Sound.nextStatement

theorem step_keeps {b' : Batch α} {event : DeliveryEvent} (stepped : b.step event = some b') :
    Keeps b b' := by
  unfold Batch.step at stepped
  split at stepped
  · next ok =>
    split at stepped
    · obtain rfl := Option.some.inj stepped
      cases ok with
      | true => exact keeps_nextStatement b
      | false => exact keeps_settle b .ended (by decide)
    · cases stepped
  · split at stepped
    · obtain rfl := Option.some.inj stepped
      exact ⟨rfl, rfl, fun sound => sound.store _ (by simp)⟩
    · split at stepped
      · obtain rfl := Option.some.inj stepped
        exact ⟨rfl, rfl, fun sound => sound.store _ (by simp)⟩
      · cases stepped
  · split at stepped
    · obtain rfl := Option.some.inj stepped
      exact keeps_nextStatement b
    · cases stepped
  · split at stepped
    · obtain rfl := Option.some.inj stepped
      exact keeps_settle b _ (by simp)
    · cases stepped
  · split at stepped
    · obtain rfl := Option.some.inj stepped
      exact ⟨rows_settle b false, tally_settle b false,
        fun sound => sound.settle false (fun h => nomatch h)⟩
    · cases stepped
  · next part ok =>
    split at stepped
    · next spilling =>
      obtain rfl := Option.some.inj stepped
      refine ⟨rfl, by rw [spilling]; rfl, fun sound => ?_⟩
      refine ⟨sound.split, appended_isPrefix b.rows part ok, fun h => (nomatch h), fun h => (nomatch h),
        fun h => ?_, sound.unused⟩
      cases ok with
      | true => rfl
      | false => cases h
    · cases stepped

theorem flatMap_set {l : List (Batch α)} {f : Batch α → List (Row α)} {b' : Batch α}
    (here : l[i]? = some b) (same : f b' = f b) : (l.set i b').flatMap f = l.flatMap f := by
  induction l generalizing i with
  | nil => rfl
  | cons c l ih =>
    cases i with
    | zero =>
      obtain rfl := Option.some.inj here
      rw [set_cons_zero, flatMap_cons, flatMap_cons, same]
    | succ i => rw [set_cons_succ, flatMap_cons, flatMap_cons, ih here]

theorem length_flatMap_set {l : List (Batch α)} {f : Batch α → List (Row α)} {i : Nat}
    {b b' : Batch α} (here : l[i]? = some b) :
    ((l.set i b').flatMap f).length + (f b).length = (l.flatMap f).length + (f b').length := by
  induction l generalizing i with
  | nil => cases here
  | cons c l ih =>
    cases i with
    | zero =>
      obtain rfl := Option.some.inj here
      simp only [set_cons_zero, flatMap_cons, length_append]
      omega
    | succ i =>
      have rest := ih here
      simp only [set_cons_succ, flatMap_cons, length_append]
      omega

theorem countedRows_append (t : Tally) (batches : List (Batch α)) (b : Batch α) :
    countedRows t (batches ++ [b]) =
      countedRows t batches ++ if tally b.stage = some t then b.rows else [] := by
  rw [countedRows, flatMap_append, flatMap_singleton]
  rfl

theorem count_ids (id : Nat) (s : Sink α) :
    ((s.batches.flatMap Batch.rows).map Row.id).count id =
      ((inFlight s).map Row.id).count id +
        (((countedRows .sent s.batches).map Row.id).count id +
          (((countedRows .fellBack s.batches).map Row.id).count id +
            ((countedRows .dropped s.batches).map Row.id).count id)) := by
  unfold inFlight countedRows
  induction s.batches with
  | nil => rfl
  | cons b batches ih =>
    simp only [flatMap_cons, map_append, count_append, ih]
    cases tally b.stage with
    | none =>
      simp
      omega
    | some t =>
      cases t
      all_goals
        simp
        omega

structure Inv (s : Sink α) : Prop where
  ids : ((s.queue ++ s.batches.flatMap Batch.rows).map Row.id).Perm (List.range s.pushes)
  counted : ∀ t, counter s t = (countedRows t s.batches).length
  sound : ∀ b ∈ s.batches, Sound b

theorem inv_new : Inv (.new : Sink α) := by
  refine ⟨.refl _, fun t => ?_, fun b mem => absurd mem not_mem_nil⟩
  cases t
  all_goals rfl

theorem counter_count (s : Sink α) (n : Nat) (t other : Tally) :
    counter (s.count n t) other = counter s other + if t = other then n else 0 := by
  cases t
  all_goals
    cases other
    all_goals rfl

theorem ids_count (s : Sink α) (n : Nat) (t : Tally) :
    (s.count n t).queue = s.queue ∧ (s.count n t).batches = s.batches ∧
      (s.count n t).pushes = s.pushes := by
  cases t
  all_goals exact ⟨rfl, rfl, rfl⟩

theorem Inv.of_same (inv : Inv s) (queue : s'.queue = s.queue) (batches : s'.batches = s.batches)
    (pushes : s'.pushes = s.pushes) (counters : ∀ t, counter s' t = counter s t) : Inv s' := by
  refine ⟨?_, fun t => ?_, ?_⟩
  · rw [queue, batches, pushes]
    exact inv.ids
  · rw [counters, batches]
    exact inv.counted t
  · rw [batches]
    exact inv.sound

theorem Inv.schedule (inv : Inv s) : Inv (schedule s) := by
  unfold Source.TokenOpt.RemoteSink.schedule
  split
  · exact inv
  · refine inv.of_same rfl rfl rfl fun t => ?_
    cases t
    all_goals rfl

theorem Inv.leave (inv : Inv s) (sound : Sound b) (batches : s'.batches = s.batches ++ [b])
    (ids : ((s'.queue ++ b.rows).map Row.id ++ (s.batches.flatMap Batch.rows).map Row.id).Perm
      (List.range s'.pushes)) (counters : ∀ t, counter s' t =
      counter s t + if tally b.stage = some t then b.rows.length else 0) : Inv s' := by
  refine ⟨?_, fun t => ?_, ?_⟩
  · apply List.Perm.trans _ ids
    rw [batches, flatMap_append, flatMap_singleton, map_append, map_append,
      map_append, append_assoc]
    exact (perm_append_comm).append_left _
  · rw [counters, inv.counted, batches, countedRows_append, length_append]
    split
    · rfl
    · rfl
  · rw [batches]
    intro c mem
    rcases mem_append.mp mem with old | new
    · exact inv.sound c old
    · rw [mem_singleton.mp new]
      exact sound

theorem Inv.goesOn (inv : Inv s) (b' : Batch α) (here : s.batches[i]? = some b)
    (rows : b'.rows = b.rows) (sound : Sound b → Sound b') (queue : s'.queue = s.queue)
    (batches : s'.batches = s.batches.set i b') (pushes : s'.pushes = s.pushes)
    (counters : ∀ t, counter s' t + (if tally b.stage = some t then b.rows.length else 0) =
      counter s t + if tally b'.stage = some t then b.rows.length else 0) : Inv s' := by
  refine ⟨?_, fun t => ?_, ?_⟩
  · rw [queue, batches, pushes, flatMap_set here rows]
    exact inv.ids
  · have lengths := @length_flatMap_set _ _ (fun b => if tally b.stage = some t then b.rows else []) _ _ b'
      here
    have before := inv.counted t
    have grown := counters t
    rw [batches]
    unfold countedRows at before ⊢
    simp only [apply_ite List.length, length_nil, rows] at lengths
    omega
  · rw [batches]
    intro c mem
    rcases mem_or_eq_of_mem_set mem with old | rfl
    · exact inv.sound c old
    · exact sound (inv.sound b (mem_of_getElem? here))

section Steps
variable {o : Options} {s : Sink α}

theorem Inv.push (inv : Inv s) (value : α) : Inv (push o value s) := by
  have grown : List.range (s.pushes + 1) = List.range s.pushes ++ [s.pushes] := range_succ
  unfold Source.TokenOpt.RemoteSink.push
  simp only
  split
  · apply inv.leave (b := .refused ⟨s.pushes, value⟩)
    · exact ⟨rfl, nil_prefix, fun _ => rfl, fun h => (nomatch h), fun h => (nomatch h), fun _ => rfl⟩
    · rfl
    · rw [grown]
      apply List.Perm.trans _ (inv.ids.append_right [s.pushes])
      rw [map_append, map_append, append_assoc, append_assoc]
      exact (perm_append_comm).append_left _
    · intro t
      cases t
      all_goals rfl
  · apply Inv.schedule
    refine ⟨?_, fun t => ?_, inv.sound⟩
    · rw [grown]
      apply List.Perm.trans _ (inv.ids.append_right [s.pushes])
      rw [map_append, map_append, map_append, append_assoc, append_assoc]
      exact (perm_append_comm).append_left _
    · have counted := inv.counted t
      cases t
      all_goals exact counted

theorem sound_deliver (rows : List (Row α)) : Sound (.deliver o rows) := by
  unfold Batch.deliver
  split
  · exact ⟨rfl, nil_prefix, fun _ => rfl, fun h => (nomatch h), fun h => (nomatch h), fun _ => rfl⟩
  · exact ⟨rfl, nil_prefix, fun _ => rfl, fun h => (nomatch h), fun h => (nomatch h), fun _ => rfl⟩

theorem rows_deliver (rows : List (Row α)) :
    (Batch.deliver o rows).rows = rows ∧ tally (Batch.deliver o rows).stage = none := by
  unfold Batch.deliver
  split
  · exact ⟨rfl, rfl⟩
  · exact ⟨rfl, rfl⟩

theorem Inv.flush (inv : Inv s) : Inv (flush o s) := by
  unfold Source.TokenOpt.RemoteSink.flush
  split
  · exact inv
  · obtain ⟨rows, uncounted⟩ := @rows_deliver α o (s.queue.take o.batchSize)
    apply inv.leave (sound_deliver _) rfl
    · rw [rows]
      apply List.Perm.trans _ inv.ids
      rw [map_append, map_append]
      apply List.Perm.append_right
      rw [← map_append]
      apply List.Perm.map
      have whole := take_append_drop o.batchSize s.queue
      exact (perm_append_comm).trans (.of_eq whole)
    · intro t
      rw [uncounted]
      cases t
      all_goals rfl

theorem Inv.spillQueued (inv : Inv s) (part : Nat) (ok : Bool) : Inv (spillQueued part ok s) := by
  unfold Source.TokenOpt.RemoteSink.spillQueued
  split
  · exact inv
  · simp only
    obtain ⟨queue, batches, pushes⟩ := ids_count { s with queue := [], batches := s.batches ++
      [⟨s.queue, .done (tallyOf ok), .unused, s.queue, [], appended s.queue part ok⟩] }
      s.queue.length (tallyOf ok)
    refine inv.leave ?_ batches ?_ fun t => ?_
    · refine ⟨rfl, appended_isPrefix s.queue part ok, ?_, ?_, ?_, fun _ => rfl⟩
      · intro h
        cases ok
        all_goals cases h
      · intro h
        cases ok
        all_goals cases h
      · intro h
        cases ok with
        | true => rfl
        | false => cases h
    · rw [queue, pushes]
      apply List.Perm.trans _ inv.ids
      rw [nil_append, ← map_append]
    · rw [counter_count]
      cases t
      all_goals simp [counter, tally]

/-- A turn of `deliver` or `flush` moves its batch on, and counts it at most now. -/
theorem Inv.resume (inv : Inv s) (here : s.batches[i]? = some b)
    (resumed : resume s i b = some s') : Inv s' := by
  have moves {stage : Stage} (sent : accepted stage = true → accepted b.stage = true)
      (gave : gaveUp stage = false → gaveUp b.stage = false)
      (keeps : kept stage = true → kept b.stage = true) (sound : Sound b) :
      Sound { b with stage } := sound.withStage stage (fun h => sound.sent (sent h)) gave keeps
  have still (stage : Stage) (t : Tally) : counter (s.put i { b with stage }) t = counter s t := by
    cases t
    all_goals rfl
  unfold Source.TokenOpt.RemoteSink.resume at resumed
  split at resumed
  · next stage =>
    obtain rfl := Option.some.inj resumed
    refine inv.goesOn { b with stage := .counted .sent } here rfl (moves ?_ ?_ ?_) rfl rfl rfl fun t => ?_
    · simp [stage, accepted]
    · simp [stage, gaveUp, accepted]
    · simp [kept]
    · rw [counter_count, still]
      simp [stage, tally]
  · next stage =>
    obtain rfl := Option.some.inj resumed
    refine inv.goesOn { b with stage := .spilling } here rfl (moves ?_ ?_ ?_) rfl rfl rfl fun t => ?_
    · simp [accepted]
    · simp [gaveUp, accepted]
    · simp [kept]
    · rw [still]
      simp [stage, tally]
  · next ok stage =>
    obtain rfl := Option.some.inj resumed
    obtain ⟨queue, batches, pushes⟩ := ids_count
      (s.put i { b with stage := .counted (tallyOf ok) }) b.rows.length (tallyOf ok)
    refine inv.goesOn { b with stage := .counted (tallyOf ok) } here rfl (moves ?_ ?_ ?_) queue batches pushes fun t => ?_
    · cases ok
      all_goals simp [tallyOf, accepted]
    · cases ok
      all_goals simp [tallyOf, gaveUp, accepted]
    · cases ok
      all_goals simp [stage, tallyOf, kept]
    · rw [counter_count, still]
      simp [stage, tally]
  · next t stage =>
    obtain rfl := Option.some.inj resumed
    apply Inv.schedule
    refine inv.goesOn { b with stage := .done t } here rfl (moves ?_ ?_ ?_) rfl rfl rfl fun other => ?_
    · cases t
      all_goals simp [stage, accepted]
    · cases t
      all_goals simp [stage, gaveUp, accepted]
    · cases t
      all_goals simp [stage, kept]
    · rw [still, stage]
      rfl
  · cases resumed

theorem Inv.step {event : Event α} (inv : Inv s) (stepped : step o s event = some s') :
    Inv s' := by
  have flags (timer closed : Bool) (closing : Nat) : Inv { s with timer, closed, closing } := by
    refine inv.of_same rfl rfl rfl fun t => ?_
    cases t
    all_goals rfl
  cases event with
  | push value =>
    obtain rfl := Option.some.inj stepped
    exact inv.push value
  | flush =>
    obtain rfl := Option.some.inj stepped
    exact inv.flush
  | timerFires =>
    unfold Source.TokenOpt.RemoteSink.step at stepped
    simp only at stepped
    split at stepped
    · obtain rfl := Option.some.inj stepped
      exact (flags false s.closed s.closing).flush
    · cases stepped
  | close =>
    obtain rfl := Option.some.inj stepped
    exact (flags false true (s.closing + 1)).flush
  | closeResumes part ok =>
    unfold Source.TokenOpt.RemoteSink.step at stepped
    simp only at stepped
    split at stepped
    · cases stepped
    · obtain rfl := Option.some.inj stepped
      exact (flags s.timer s.closed (s.closing - 1)).spillQueued part ok
  | delivery i event =>
    unfold Source.TokenOpt.RemoteSink.step at stepped
    simp only at stepped
    split at stepped
    · cases stepped
    · next b here =>
      obtain ⟨b', moved, rfl⟩ := Option.map_eq_some_iff.mp stepped
      have keeps := step_keeps moved
      refine inv.goesOn b' here keeps.rows keeps.sound rfl rfl rfl fun t => ?_
      rw [keeps.tally]
      cases t
      all_goals rfl
  | resumes i =>
    unfold Source.TokenOpt.RemoteSink.step at stepped
    simp only at stepped
    split at stepped
    · cases stepped
    · next b here => exact inv.resume here stepped

theorem inv_reachable (reached : (remoteSink o α).Reachable s) : Inv s := by
  apply reached.invariant Inv
  · rintro s rfl
    exact inv_new
  · intro m event n stepped inv
    exact inv.step stepped

end Steps

theorem ids_perm (inv : Inv s) :
    ((s.queue ++ inFlight s ++ countedRows .sent s.batches ++ countedRows .fellBack s.batches ++
      countedRows .dropped s.batches).map Row.id).Perm (List.range s.pushes) := by
  apply List.Perm.trans _ inv.ids
  rw [perm_iff_count]
  intro id
  have parted := count_ids id s
  simp only [map_append, count_append]
  omega

theorem sublist_flatMap {f : Batch α → List (Row α)} {batches : List (Batch α)}
    (each : ∀ b ∈ batches, (f b).Sublist b.rows) :
    (batches.flatMap f).Sublist (batches.flatMap Batch.rows) := by
  induction batches with
  | nil => exact .slnil
  | cons b batches ih =>
    rw [flatMap_cons, flatMap_cons]
    apply List.Sublist.append (each b mem_cons_self)
    exact ih fun c mem => each c (mem_cons_of_mem b mem)

theorem nodup_rows (inv : Inv s) :
    ((s.batches.flatMap Batch.rows).map Row.id).Nodup := by
  have all := inv.ids.nodup_iff.mpr nodup_range
  rw [map_append] at all
  exact all.of_append_right

theorem stored_sublist (sound : Sound b) : b.stored.Sublist b.rows := by
  rw [← sound.split]
  exact sublist_append_left b.stored b.rest

theorem stage_of_tally {stage : Stage} {t : Tally} (counted : tally stage = some t) :
    stage = .counted t ∨ stage = .done t := by
  cases stage with
  | counted t' => exact .inl (congrArg _ (Option.some.inj counted))
  | done t' => exact .inr (congrArg _ (Option.some.inj counted))
  | _ => cases counted

theorem eq_of_shared (inv : Inv s) {c : Batch α} {row : Row α} (memB : b ∈ s.batches)
    (memC : c ∈ s.batches) (inB : row ∈ b.rows) (inC : row ∈ c.rows) : b = c := by
  have parts := (nodup_flatMap.mp (nodup_rows inv).of_map).2
  have symmetric : Std.Symm (Function.onFun List.Disjoint (Batch.rows : Batch α → _)) :=
    ⟨fun _ _ disjoint row inC inB => disjoint inB inC⟩
  by_contra differ
  exact parts.forall memB memC differ inB inC

/-- At every moment of every run each pushed row is queued, in flight or counted, and
counted once; the counters are the numbers of those rows. No row is stored twice in one
place, every row counted as sent is in the table and in no file, every row counted as
fallen back is in the file. A row in both places belongs to one batch whose `deliver`
gave its remote write up while a statement of that write has stored the row. -/
theorem rows_conserved (o : Options) {s : Sink α} (reached : (remoteSink o α).Reachable s) :
    s.pushes = s.queue.length + (inFlight s).length + s.sent + s.fellBack + s.dropped ∧
      ((s.queue ++ inFlight s ++ countedRows .sent s.batches ++ countedRows .fellBack s.batches ++
        countedRows .dropped s.batches).map Row.id).Perm (List.range s.pushes) ∧
      (∀ t, counter s t = (countedRows t s.batches).length) ∧
      (s.table.map Row.id).Nodup ∧ (s.file.map Row.id).Nodup ∧
      (∀ row ∈ countedRows .sent s.batches, row ∈ s.table ∧ row ∉ s.file) ∧
      (∀ row ∈ countedRows .fellBack s.batches, row ∈ s.file) ∧
      ∀ row ∈ s.table, row ∈ s.file → ∃ b ∈ s.batches, b.write ≠ .unused ∧
        gaveUp b.stage = true ∧ row ∈ b.stored ∧ row ∈ b.written := by
  have inv := inv_reachable reached
  have perm := ids_perm inv
  refine ⟨?_, perm, inv.counted, ?_, ?_, ?_, ?_, ?_⟩
  · have lengths := perm.length_eq
    have sent := inv.counted .sent
    have fellBack := inv.counted .fellBack
    have dropped := inv.counted .dropped
    simp only [length_map, length_append, length_range] at lengths
    simp only [counter] at sent fellBack dropped
    omega
  · exact (nodup_rows inv).sublist ((sublist_flatMap fun b mem =>
      stored_sublist (inv.sound b mem)).map Row.id)
  · exact (nodup_rows inv).sublist ((sublist_flatMap fun b mem =>
      (inv.sound b mem).appended.sublist).map Row.id)
  · intro row mem
    obtain ⟨b, inBatches, here⟩ := mem_flatMap.mp mem
    have sound := inv.sound b inBatches
    split at here
    · next counted =>
      have won : accepted b.stage = true := by
        rcases stage_of_tally counted with stage | stage
        · rw [stage]
          rfl
        · rw [stage]
          rfl
      have whole := sound.split
      rw [sound.sent won, append_nil] at whole
      refine ⟨mem_flatMap.mpr ⟨b, inBatches, by rwa [whole]⟩, fun inFile => ?_⟩
      obtain ⟨c, inBatches', there⟩ := mem_flatMap.mp inFile
      obtain rfl := eq_of_shared inv inBatches inBatches' here
        ((inv.sound c inBatches').appended.subset there)
      have stays : gaveUp b.stage = false := by
        cases stage : b.stage with
        | racing => rfl
        | _ =>
          rw [stage] at won
          simp [gaveUp, won]
      rw [sound.unwritten stays] at there
      cases there
    · cases here
  · intro row mem
    obtain ⟨b, inBatches, here⟩ := mem_flatMap.mp mem
    split at here
    · next counted =>
      have all : kept b.stage = true := by
        rcases stage_of_tally counted with stage | stage
        · rw [stage]
          rfl
        · rw [stage]
          rfl
      refine mem_flatMap.mpr ⟨b, inBatches, ?_⟩
      rwa [(inv.sound b inBatches).kept all]
    · cases here
  · intro row inTable inFile
    obtain ⟨b, memB, stored⟩ := mem_flatMap.mp inTable
    obtain ⟨c, memC, written⟩ := mem_flatMap.mp inFile
    have sound := inv.sound b memB
    obtain rfl := eq_of_shared inv memB memC ((stored_sublist sound).subset stored)
      ((inv.sound c memC).appended.subset written)
    refine ⟨b, memB, fun unused => ?_, ?_, stored, written⟩
    · rw [sound.unused unused] at stored
      cases stored
    · by_contra stays
      rw [sound.unwritten (Bool.not_eq_true _ ▸ stays)] at written
      cases written

def oneRow : Options := ⟨true, 50, 1000, by decide⟩

/-- The write of a batch of one row times out, the row is appended to the file, and then
the server stores it. -/
def lateInsert : List (Event Unit) :=
  [.push (), .timerFires, .delivery 0 (.prepared true), .delivery 0 .expired, .resumes 0,
    .delivery 0 (.appendSettled 1 true), .resumes 0, .delivery 0 .insert]

def lateSink : Sink Unit := runInputs (stepped (step oneRow)) Sink.new lateInsert

theorem lateSink_reachable : (remoteSink oneRow Unit).Reachable lateSink := by
  have taken : ∀ x ∈ traceOf (stepped (step oneRow)) Sink.new lateInsert,
      (step oneRow x.before x.label).isSome := by decide
  exact ⟨Sink.new, _, rfl, run_stepped Sink.new lateInsert taken⟩

theorem rows_conserved_lateSink : lateSink.pushes = lateSink.queue.length +
    (inFlight lateSink).length + lateSink.sent + lateSink.fellBack + lateSink.dropped :=
  (rows_conserved oneRow lateSink_reachable).1

theorem row_stored_twice : (remoteSink oneRow Unit).Reachable lateSink ∧
    ∃ row, row ∈ lateSink.table ∧ row ∈ lateSink.file :=
  ⟨lateSink_reachable, ⟨0, ()⟩, by decide, by decide⟩

end Ultrathink.Guarantees.RowConservation
