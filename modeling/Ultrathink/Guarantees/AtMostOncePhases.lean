import Ultrathink.Guarantees.LeaseFencing
import Ultrathink.Source.Worker.Turns

/-!
# At-most-once phases

What the tables keep over every interleaving of workers, expired leases, crashes and answers. Only
the bare progress status is not fenced: it can be written over a pause for a decision.
-/

namespace Ultrathink.Guarantees.AtMostOncePhases

open List Library JsText Runs Source.Store Source.Worker LeaseFencing

def Recorded (db : Db) (r : Text) (p : Phase) : Prop :=
  ∃ row ∈ db.phases, row.runId = r ∧ row.phase = p

/-- The phase has a question without an answer. -/
def Asked (db : Db) (r : Text) (p : Phase) : Prop :=
  ∃ d ∈ db.decisions, d.runId = r ∧ d.phase = p ∧ d.answer = none

def earlier (p : Phase) : List Phase := allPhases.takeWhile (· ≠ p)

/-- The first phase of the run without a row. -/
structure Front (db : Db) (r : Text) (p : Phase) : Prop where
  past : ∀ e ∈ earlier p, Recorded db r e
  next : ¬Recorded db r p

theorem earlier_total (p q : Phase) : p = q ∨ p ∈ earlier q ∨ q ∈ earlier p := by
  cases p <;> cases q <;> decide

variable {db db' : Db} {r w v text runId : Text} {p : Phase} {ν : Type} {s : State} {pc pc' : Pc}
  {outputs : Outputs} {rest : List Phase}

theorem Front.unique {q : Phase} (first : Front db r p) (second : Front db r q) : p = q := by
  rcases earlier_total p q with same | before | after
  · exact same
  · exact absurd (second.past p before) first.next
  · exact absurd (first.past q after) second.next

theorem earlier_of_split {done : List Phase} (split : allPhases = done ++ p :: rest) :
    earlier p = done := by
  have nodup : (done ++ p :: rest).Nodup := split ▸ by decide
  have apart : ∀ e ∈ done, e ≠ p := fun e mem =>
    (nodup_append.mp nodup).2.2 e mem p (mem_cons_self ..)
  rw [earlier, split, takeWhile_append_of_pos (by simpa using apart)]
  simp

/-- What a worker has read of its run: recorded outputs, and all of them while it
holds the lease. -/
structure Read (db : Db) (w r : Text) (outputs : Outputs) (rest : List Phase) : Prop where
  onward : ∃ done, allPhases = done ++ rest ∧ ∀ e ∈ done, (outputs.get? e).isSome
  recorded : ∀ e out, outputs.get? e = some out →
    ∃ row ∈ db.phases, row.runId = r ∧ row.phase = e ∧ row.output = out
  whole : Holds db r w → ∀ p, Recorded db r p → (outputs.get? p).isSome

structure Started (db : Db) (w r : Text) (outputs : Outputs) (p : Phase) : Prop where
  unknown : outputs.get? p = none
  unasked : Holds db r w → ¬Asked db r p

structure WorkerSound (db : Db) (w : Text) (pc : Pc) : Prop where
  working : ∀ r, pc.working = some r → db.runs.contains r = true
  read : ∀ r outputs rest, pc.seen = some (r, outputs, rest) → Read db w r outputs rest
  started : ∀ r outputs p, pc.current = some (r, outputs, p) → Started db w r outputs p
  verdict : ∀ r, pc.verdict = some (r, some .complete) → ∀ p, Recorded db r p

structure Tables (db : Db) : Prop where
  once : ∀ r p, db.phases.countP (fun row => row.runId = r ∧ row.phase = p) ≤ 1
  numbered : db.decisions.map (·.id) = List.range' 1 db.decisions.length
  known : ∀ d ∈ db.decisions, db.runs.contains d.runId = true
  front : ∀ r p, Asked db r p → Front db r p
  single : ∀ r, db.decisions.countP (fun d => d.runId = r ∧ d.answer = none) ≤ 1
  complete : ∀ r row, db.runs.get? r = some row → row.status = .complete → ∀ p, Recorded db r p

structure Consistent (s : State) : Prop where
  tables : Tables s.world.db
  workers : ∀ w, WorkerSound s.world.db w (s.pc w)

theorem Consistent.empty (idle : ∀ w, s.pc w = .idle) (db : s.world.db = .empty) :
    Consistent s where
  tables := by
    rw [db]
    constructor <;> simp [Db.empty, Asked]
  workers w := by
    rw [idle w]
    constructor <;> simp [Pc.working, Pc.seen, Pc.current, Pc.verdict]

/-- What a step leaves to a worker that did not take it: rows and runs stay, and
while it holds a lease nobody adds rows or questions to that run. -/
structure Calm (db db' : Db) (v : Text) : Prop where
  rows : ∀ row ∈ db.phases, row ∈ db'.phases
  runs : ∀ r, db.runs.contains r = true → db'.runs.contains r = true
  held : ∀ r, Holds db' r v → Holds db r v ∧ (∀ p, Recorded db' r p → Recorded db r p) ∧
    ∀ p, Asked db' r p → Asked db r p

theorem Calm.recorded (calm : Calm db db' v) :
    Recorded db r p → Recorded db' r p := by
  rintro ⟨row, mem, same⟩
  exact ⟨row, calm.rows row mem, same⟩

theorem WorkerSound.calm (sound : WorkerSound db v pc) (calm : Calm db db' v) :
    WorkerSound db' v pc where
  working r at_ := calm.runs r (sound.working r at_)
  read r outputs rest at_ := by
    obtain ⟨onward, recorded, whole⟩ := sound.read r outputs rest at_
    refine ⟨onward, ?_, ?_⟩
    · intro e out known
      obtain ⟨row, mem, same⟩ := recorded e out known
      exact ⟨row, calm.rows row mem, same⟩
    · intro held p now
      obtain ⟨held, recorded, -⟩ := calm.held r held
      exact whole held p (recorded p now)
  started r outputs p at_ := by
    obtain ⟨unknown, unasked⟩ := sound.started r outputs p at_
    refine ⟨unknown, fun held asked => ?_⟩
    obtain ⟨held, -, questions⟩ := calm.held r held
    exact unasked held (questions p asked)
  verdict r at_ p := calm.recorded (sound.verdict r at_ p)

theorem WorkerSound.less (sound : WorkerSound db v pc) (seen : pc'.seen = none ∨ pc'.seen = pc.seen)
    (current : pc'.current = none ∨ pc'.current = pc.current)
    (working : pc'.working = none ∨ pc'.working = pc.working)
    (verdict : pc'.verdict = pc.verdict ∨ ∀ r, pc'.verdict ≠ some (r, some .complete)) :
    WorkerSound db v pc' where
  working r at_ := by
    rcases working with none_ | same
    · rw [none_] at at_
      cases at_
    · exact sound.working r (same ▸ at_)
  read r outputs rest at_ := by
    rcases seen with none_ | same
    · rw [none_] at at_
      cases at_
    · exact sound.read r outputs rest (same ▸ at_)
  started r outputs p at_ := by
    rcases current with none_ | same
    · rw [none_] at at_
      cases at_
    · exact sound.started r outputs p (same ▸ at_)
  verdict r at_ := by
    rcases verdict with same | plain
    · exact sound.verdict r (same ▸ at_)
    · exact absurd at_ (plain r)

theorem SameRecords.recorded (same : SameRecords db db') (r : Text) (p : Phase) :
    Recorded db' r p ↔ Recorded db r p := by
  unfold Recorded
  rw [same.phases]

theorem SameRecords.asked (same : SameRecords db db') (r : Text) (p : Phase) :
    Asked db' r p ↔ Asked db r p := by
  unfold Asked
  rw [same.decisions]

theorem contains_modify (runs : OrderedMap Text Run) (key r : Text) (f : Run → Run) :
    (runs.modify key f).contains r = runs.contains r := by
  simp only [OrderedMap.contains, OrderedMap.get?_modify]
  split
  · rename_i same
    simp [same]
  · rfl

theorem Calm.of_records (same : SameRecords db db')
    (runs : ∀ r, db'.runs.contains r = db.runs.contains r)
    (holders : ∀ r, Holds db' r v → Holds db r v) : Calm db db' v where
  rows _ mem := same.phases ▸ mem
  runs r known := (runs r).trans known
  held r held := ⟨holders r held, fun p => (SameRecords.recorded same r p).mp,
    fun p => (SameRecords.asked same r p).mp⟩

theorem holds_unique (first : Holds db r v) (second : Holds db r w) :
    v = w := by
  obtain ⟨lease, found, rfl⟩ := first
  obtain ⟨lease', found', rfl⟩ := second
  rw [found, Option.some.injEq] at found'
  rw [found']

theorem Turn.calm (turn : Turn w db pc db' pc') (other : v ≠ w) : Calm db db' v := by
  cases turn with
  | quiet records runs holders =>
    exact .of_records records (fun r => by rw [runs]) fun r => holders r v
  | @claim _ run row found claimable records runs holders =>
    refine .of_records records (fun r => by rw [runs]) fun r held => ?_
    rcases holders r v held with ⟨-, mine⟩ | ⟨-, kept⟩
    · exact absurd mine other
    · exact kept
  | load | skip | start | waits | finishes =>
    exact .of_records ⟨rfl, rfl⟩ (fun _ => rfl) fun _ => id
  | progress work at_ =>
    exact .of_records ⟨rfl, rfl⟩ (fun r => contains_modify _ _ r _) fun _ => id
  | @record _ work text tokensUsed createdAt at_ holder phases decisions runs holders =>
    refine ⟨fun row mem => by rw [phases]; exact mem_append_left _ mem,
      fun r known => by rwa [runs], fun r held => ⟨holders r v held, ?_, ?_⟩⟩
    · rintro p ⟨row, mem, ofRun, ofPhase⟩
      rw [phases, mem_append, mem_singleton] at mem
      rcases mem with old | rfl
      · exact ⟨row, old, ofRun, ofPhase⟩
      · subst ofRun
        exact absurd (holds_unique (holders _ v held) holder) other
    · intro p asked
      unfold Asked at *
      rwa [decisions] at asked
  | @decide _ work text tokensUsed decision reason at_ holder ofRun ofPhase open_ numbered phases
      decisions runs holders =>
    refine ⟨fun row mem => by rwa [phases], fun r known => by rw [runs, contains_modify, known],
      fun r held => ⟨holders r v held, ?_, ?_⟩⟩
    · intro p now
      unfold Recorded at *
      rwa [phases] at now
    · rintro p ⟨d, mem, named, rest⟩
      rw [decisions, mem_append, mem_singleton] at mem
      rcases mem with old | rfl
      · exact ⟨d, old, named, rest⟩
      · rw [← named, ofRun] at held
        exact absurd (holds_unique (holders _ v held) holder) other
  | verdict at_ holder records runs holders =>
    exact .of_records records (fun r => by rw [runs, contains_modify]) fun r => holders r v

theorem get?_foldl_set (rows : List PhaseRecord) (outputs : Outputs) (p : Phase) (out : Text)
    (known : (rows.foldl (fun outputs row => outputs.set row.phase row.output) outputs).get? p =
      some out) :
    outputs.get? p = some out ∨ ∃ row ∈ rows, row.phase = p ∧ row.output = out := by
  induction rows generalizing outputs with
  | nil => exact Or.inl known
  | cons row rows ih =>
    rcases ih _ known with before | ⟨late, mem, same⟩
    · rw [OrderedMap.get?_set] at before
      split at before
      · rename_i here
        exact Or.inr ⟨row, mem_cons_self .., here.symm, Option.some.inj before⟩
      · exact Or.inl before
    · exact Or.inr ⟨late, mem_cons_of_mem _ mem, same⟩

theorem isSome_foldl_set (rows : List PhaseRecord) (outputs : Outputs) (p : Phase)
    (known : (outputs.get? p).isSome ∨ ∃ row ∈ rows, row.phase = p) :
    ((rows.foldl (fun outputs row => outputs.set row.phase row.output) outputs).get? p).isSome := by
  induction rows generalizing outputs with
  | nil => exact known.resolve_right (by simp)
  | cons row rows ih =>
    refine ih _ ?_
    by_cases here : p = row.phase
    · exact Or.inl (by simp [here])
    · rw [OrderedMap.get?_set, if_neg here]
      rcases known with before | ⟨late, mem, same⟩
      · exact Or.inl before
      · rcases mem_cons.mp mem with rfl | mem
        · exact absurd same.symm here
        · exact Or.inr ⟨late, mem, same⟩

theorem mem_listPhases {row : PhaseRecord} :
    row ∈ listPhases db r ↔ row ∈ db.phases ∧ row.runId = r := by
  simp [listPhases, mem_insertionSort]

theorem read_completedOutputs (db : Db) (w r : Text) :
    Read db w r (completedOutputs db r) allPhases where
  onward := ⟨[], rfl, by simp⟩
  recorded e out known := by
    rcases get?_foldl_set _ _ e out known with none_ | ⟨row, mem, same⟩
    · cases none_
    · obtain ⟨mem, ofRun⟩ := mem_listPhases.mp mem
      exact ⟨row, mem, ofRun, same⟩
  whole := by
    rintro - p ⟨row, mem, ofRun, ofPhase⟩
    exact isSome_foldl_set _ _ p (Or.inr ⟨row, mem_listPhases.mpr ⟨mem, ofRun⟩, ofPhase⟩)

theorem Read.isRecorded (read : Read db w r outputs rest) (known : (outputs.get? p).isSome) :
    Recorded db r p := by
  obtain ⟨out, found⟩ := Option.isSome_iff_exists.mp known
  obtain ⟨row, mem, ofRun, ofPhase, -⟩ := read.recorded p out found
  exact ⟨row, mem, ofRun, ofPhase⟩

theorem Read.advance (read : Read db w r outputs (p :: rest)) (known : (outputs.get? p).isSome) :
    Read db w r outputs rest := by
  obtain ⟨⟨done, split, present⟩, recorded, whole⟩ := read
  refine ⟨⟨done ++ [p], by simp [split], ?_⟩, recorded, whole⟩
  intro e mem
  rcases mem_append.mp mem with old | new
  · exact present e old
  · rw [mem_singleton.mp new]
    exact known

theorem Read.record {db db' : Db} {w r text : Text} {outputs : Outputs} {p : Phase}
    {rest : List Phase} {attempt : Nat} {createdAt : ℤ}
    (read : Read db w r outputs (p :: rest))
    (phases : db'.phases = db.phases ++ [⟨r, p, attempt, text, createdAt⟩])
    (held : Holds db' r w → Holds db r w) : Read db' w r (outputs.set p text) rest where
  onward := by
    obtain ⟨done, split, present⟩ := read.onward
    refine ⟨done ++ [p], by simp [split], ?_⟩
    intro e mem
    rw [OrderedMap.get?_set]
    split
    · rfl
    · rename_i other
      rcases mem_append.mp mem with old | new
      · exact present e old
      · exact absurd (mem_singleton.mp new) other
  recorded e out known := by
    rw [OrderedMap.get?_set] at known
    rw [phases]
    split at known
    · rename_i here
      cases known
      exact ⟨_, mem_append_right _ (mem_singleton_self _), rfl, here.symm, rfl⟩
    · obtain ⟨row, mem, same⟩ := read.recorded e out known
      exact ⟨row, mem_append_left _ mem, same⟩
  whole now q := by
    rintro ⟨row, mem, ofRun, ofPhase⟩
    rw [OrderedMap.get?_set]
    split
    · rfl
    · rename_i other
      rw [phases, mem_append, mem_singleton] at mem
      rcases mem with old | rfl
      · exact read.whole (held now) q ⟨row, old, ofRun, ofPhase⟩
      · exact absurd ofPhase.symm other

/-- A worker's phase is its run's first without a row, and nobody has a question open. -/
theorem Read.front (read : Read db w r outputs (p :: rest)) (started : Started db w r outputs p)
    (held : Holds db r w) : Front db r p := by
  obtain ⟨done, split, present⟩ := read.onward
  constructor
  · intro e before
    rw [earlier_of_split split] at before
    exact read.isRecorded (present e before)
  · intro now
    have known := read.whole held p now
    rw [started.unknown] at known
    cases known

theorem Tables.nobodyAsks (tables : Tables db) (front : Front db r p)
    (started : Started db w r outputs p) (held : Holds db r w) (q : Phase) : ¬Asked db r q := by
  intro asked
  obtain rfl := front.unique (tables.front r q asked)
  exact started.unasked held asked

theorem pendingQuestion_eq_none (none_ : pendingQuestion db r p = none) : ¬Asked db r p := by
  rintro ⟨d, mem, ofRun, ofPhase, open_⟩
  rw [pendingQuestion, Option.map_eq_none_iff, getLast?_eq_none_iff,
    filter_eq_nil_iff] at none_
  exact none_ d mem (by simp [ofRun, ofPhase, open_])

theorem pendingQuestion_eq_some {question : Text} (found : pendingQuestion db r p = some question) :
    Asked db r p := by
  rw [pendingQuestion, Option.map_eq_some_iff] at found
  obtain ⟨d, last, -⟩ := found
  obtain ⟨mem, same⟩ := mem_filter.mp (mem_of_getLast? last)
  simp only [Bool.and_eq_true, decide_eq_true_eq] at same
  exact ⟨d, mem, same.1.1, same.1.2, same.2⟩

theorem Turn.sound (turn : Turn w db pc db' pc') (sound : WorkerSound db w pc) :
    WorkerSound db' w pc' := by
  cases turn with
  | quiet records runs holders seen current working verdict =>
    have calm : Calm db db' w := .of_records records (fun r => by rw [runs]) fun r => holders r w
    refine (sound.calm calm).less seen current working (verdict.imp_right fun plain r complete => ?_)
    exact absurd (plain r _ complete) (by decide)
  | @claim _ run row found claimable records runs holders =>
    constructor
    · intro r at_
      obtain rfl := Option.some.inj at_
      simp [OrderedMap.contains, runs, found]
    · intro r outputs rest at_
      cases at_
    · intro r outputs p at_
      cases at_
    · intro r at_
      cases at_
  | load run at_ =>
    constructor
    · intro r same
      exact sound.working r (at_.trans same)
    · intro r outputs rest same
      cases same
      exact read_completedOutputs _ w _
    · intro r outputs p same
      cases same
    · intro r same
      cases same
  | @skip run outputs phase rest output at_ known =>
    subst at_
    constructor
    · exact sound.working
    · intro r outputs rest same
      cases same
      exact (sound.read _ _ _ rfl).advance (by simp [known])
    · intro r outputs p same
      cases same
    · intro r same
      cases same
  | @start run outputs phase rest at_ unknown asked =>
    subst at_
    constructor
    · exact sound.working
    · exact sound.read
    · intro r outputs p same
      cases same
      exact ⟨unknown, fun _ => pendingQuestion_eq_none asked⟩
    · intro r same
      cases same
  | @waits run outputs phase rest question at_ asked =>
    subst at_
    exact sound.less (Or.inl rfl) (Or.inl rfl) (Or.inr rfl) (Or.inr fun r same => by cases same)
  | @finishes run outputs at_ =>
    subst at_
    constructor
    · exact sound.working
    · intro r outputs rest same
      cases same
    · intro r outputs p same
      cases same
    · intro r same p
      cases same
      have read := sound.read _ _ _ rfl
      obtain ⟨done, split, present⟩ := read.onward
      refine read.isRecorded (present p ?_)
      rw [← append_nil done, ← split]
      cases p <;> decide
  | progress work at_ =>
    subst at_
    have calm : Calm db (updateRun db work.run.id (progressPatch work.phase)) w :=
      .of_records ⟨rfl, rfl⟩ (fun r => contains_modify _ _ r _) fun _ => id
    exact (sound.calm calm).less (Or.inr rfl) (Or.inr rfl) (Or.inr rfl) (Or.inl rfl)
  | @record _ work text tokensUsed createdAt at_ holder phases decisions runs holders =>
    subst at_
    constructor
    · intro r at_
      rw [runs]
      exact sound.working r at_
    · intro r outputs rest same
      cases same
      exact (sound.read _ _ _ rfl).record phases (holders _ w)
    · intro r outputs p same
      cases same
    · intro r same
      cases same
  | @decide _ work text tokensUsed decision reason at_ holder ofRun ofPhase open_ numbered phases
      decisions runs holders =>
    constructor
    · intro r same
      cases same
    · intro r outputs p same
      cases same
    · intro r outputs p same
      cases same
    · intro r same
      cases same
  | verdict at_ holder records runs holders seen current working silent =>
    constructor
    · intro r same
      rw [working] at same
      cases same
    · intro r outputs rest same
      rw [seen] at same
      cases same
    · intro r outputs p same
      rw [current] at same
      cases same
    · intro r same
      rw [silent] at same
      cases same

/-- Rows and questions as before, and no status of a run became "complete" but over
recorded phases. -/
theorem Tables.of_records (tables : Tables db) (same : SameRecords db db')
    (known : ∀ r, db.runs.contains r = true → db'.runs.contains r = true)
    (complete : ∀ r row, db'.runs.get? r = some row → row.status = .complete →
      (∃ old, db.runs.get? r = some old ∧ old.status = .complete) ∨ ∀ p, Recorded db r p) :
    Tables db' where
  once := by
    rw [same.phases]
    exact tables.once
  numbered := by
    rw [same.decisions]
    exact tables.numbered
  known d mem := known _ (tables.known d (same.decisions ▸ mem))
  front r p asked := by
    obtain ⟨past, next⟩ := tables.front r p ((SameRecords.asked same r p).mp asked)
    exact ⟨fun e before => (SameRecords.recorded same r e).mpr (past e before),
      fun now => next ((SameRecords.recorded same r p).mp now)⟩
  single := by
    rw [same.decisions]
    exact tables.single
  complete r row found status p := by
    refine (SameRecords.recorded same r p).mpr ?_
    rcases complete r row found status with ⟨old, before, was⟩ | all
    · exact tables.complete r old before was p
    · exact all p

theorem countP_eq_zero_of_not_recorded (new : ¬Recorded db r p) :
    db.phases.countP (fun row => row.runId = r ∧ row.phase = p) = 0 := by
  rw [countP_eq_zero]
  intro row mem same
  exact new ⟨row, mem, of_decide_eq_true same⟩

theorem countP_eq_zero_of_not_asked (none_ : ∀ p, ¬Asked db r p) :
    db.decisions.countP (fun d => d.runId = r ∧ d.answer = none) = 0 := by
  rw [countP_eq_zero]
  intro d mem same
  obtain ⟨ofRun, open_⟩ := of_decide_eq_true same
  exact none_ d.phase ⟨d, mem, ofRun, rfl, open_⟩

theorem Tables.record {db db' : Db} {row : PhaseRecord} (tables : Tables db)
    (front : Front db row.runId row.phase) (silent : ∀ q, ¬Asked db row.runId q)
    (phases : db'.phases = db.phases ++ [row]) (decisions : db'.decisions = db.decisions)
    (runs : db'.runs = db.runs) : Tables db' where
  once r p := by
    rw [phases, countP_append, countP_singleton]
    have before := tables.once r p
    split
    · rename_i here
      obtain ⟨rfl, rfl⟩ := of_decide_eq_true here
      rw [countP_eq_zero_of_not_recorded front.next]
    · exact before
  numbered := by
    rw [decisions]
    exact tables.numbered
  known d mem := by
    rw [runs]
    exact tables.known d (decisions ▸ mem)
  front r p asked := by
    have before : Asked db r p := by
      unfold Asked at *
      rwa [decisions] at asked
    obtain ⟨past, next⟩ := tables.front r p before
    constructor
    · intro e earlier
      obtain ⟨old, mem, same⟩ := past e earlier
      exact ⟨old, phases ▸ mem_append_left _ mem, same⟩
    · rintro ⟨late, mem, ofRun, ofPhase⟩
      rw [phases, mem_append, mem_singleton] at mem
      rcases mem with old | rfl
      · exact next ⟨late, old, ofRun, ofPhase⟩
      · subst ofRun
        exact silent p before
  single := by
    rw [decisions]
    exact tables.single
  complete r run found status p := by
    rw [runs] at found
    obtain ⟨old, mem, same⟩ := tables.complete r run found status p
    exact ⟨old, phases ▸ mem_append_left _ mem, same⟩

theorem Tables.decide {db db' : Db} {decision : Decision} (tables : Tables db)
    (front : Front db decision.runId decision.phase) (silent : ∀ q, ¬Asked db decision.runId q)
    (known : db.runs.contains decision.runId = true)
    (numbered : decision.id = db.decisions.length + 1) (phases : db'.phases = db.phases)
    (decisions : db'.decisions = db.decisions ++ [decision])
    (runs : ∃ reason, db'.runs = db.runs.modify decision.runId
      (terminalPatch .pausedForDecision reason).apply) : Tables db' where
  once := by
    rw [phases]
    exact tables.once
  numbered := by
    simp [decisions, tables.numbered, numbered, range'_concat, Nat.add_comm]
  known d mem := by
    obtain ⟨reason, runs⟩ := runs
    rw [runs, contains_modify]
    rw [decisions, mem_append, mem_singleton] at mem
    rcases mem with old | rfl
    · exact tables.known d old
    · exact known
  front r p asked := by
    have recorded : ∀ e, Recorded db' r e ↔ Recorded db r e := by
      intro e
      unfold Recorded
      rw [phases]
    have here : Front db r p := by
      obtain ⟨d, mem, ofRun, ofPhase, open_⟩ := asked
      rw [decisions, mem_append, mem_singleton] at mem
      rcases mem with old | rfl
      · exact tables.front r p ⟨d, old, ofRun, ofPhase, open_⟩
      · exact ofRun ▸ ofPhase ▸ front
    exact ⟨fun e before => (recorded e).mpr (here.past e before),
      fun now => here.next ((recorded p).mp now)⟩
  single r := by
    rw [decisions, countP_append, countP_singleton]
    have before := tables.single r
    split
    · rename_i here
      obtain ⟨rfl, -⟩ := of_decide_eq_true here
      rw [countP_eq_zero_of_not_asked silent]
    · exact before
  complete r run found status p := by
    obtain ⟨reason, runs⟩ := runs
    have recorded : Recorded db r p := by
      rw [runs, OrderedMap.get?_modify] at found
      split at found
      · obtain ⟨old, -, rfl⟩ := Option.map_eq_some_iff.mp found
        cases status
      · exact tables.complete r run found status p
    unfold Recorded at *
    rwa [phases]

theorem Turn.tables (turn : Turn w db pc db' pc') (sound : WorkerSound db w pc)
    (tables : Tables db) : Tables db' := by
  cases turn with
  | quiet records runs holders =>
    exact tables.of_records records (fun r => by rw [runs]; exact id) fun r row found status =>
      Or.inl ⟨row, runs ▸ found, status⟩
  | claim found claimable records runs holders =>
    exact tables.of_records records (fun r => by rw [runs]; exact id) fun r row found status =>
      Or.inl ⟨row, runs ▸ found, status⟩
  | load | skip | start | waits | finishes => exact tables
  | progress work at_ =>
    refine tables.of_records ⟨rfl, rfl⟩ (fun r => (contains_modify _ _ r _).trans) ?_
    intro r row found status
    rw [updateRun, OrderedMap.get?_modify] at found
    split at found
    · obtain ⟨old, -, rfl⟩ := Option.map_eq_some_iff.mp found
      revert status
      simp only [Patch.apply, progressPatch, Option.getD_some]
      cases work.phase <;> (intro status; cases status)
    · exact Or.inl ⟨row, found, status⟩
  | @record _ work text tokensUsed createdAt at_ holder phases decisions runs holders =>
    subst at_
    have started := sound.started _ _ _ rfl
    have front := (sound.read _ _ _ rfl).front started holder
    exact tables.record front (tables.nobodyAsks front started holder) phases decisions runs
  | @decide _ work text tokensUsed decision reason at_ holder ofRun ofPhase open_ numbered phases
      decisions runs holders =>
    subst at_
    have started := sound.started _ _ _ rfl
    have front := (sound.read _ _ _ rfl).front started holder
    have silent := tables.nobodyAsks front started holder
    rw [← ofRun] at front silent runs
    rw [← ofPhase] at front
    exact tables.decide front silent (ofRun ▸ sound.working _ rfl) numbered phases decisions
      ⟨reason, runs⟩
  | @verdict _ _ run patch reservation at_ holder records runs =>
    subst at_
    refine tables.of_records records (fun r => by rw [runs, contains_modify]; exact id) ?_
    intro r row found status
    rw [runs, OrderedMap.get?_modify] at found
    split at found
    · rename_i here
      obtain ⟨old, before, rfl⟩ := Option.map_eq_some_iff.mp found
      simp only [Patch.apply] at status
      cases told : patch.status with
      | none =>
        rw [told, Option.getD_none] at status
        exact Or.inl ⟨old, here ▸ before, status⟩
      | some verdict =>
        rw [told, Option.getD_some] at status
        refine Or.inr fun p => here ▸ sound.verdict run.id ?_ p
        rw [Pc.verdict, told, status]
    · exact Or.inl ⟨row, found, status⟩

theorem answerDecision_cases (db : Db) (runId ownerId answer : Text) :
    (answerDecision db runId ownerId answer).2 = db ∨
      ∃ row pending text, db.runs.get? runId = some row ∧ row.status = .pausedForDecision ∧
        pendingDecision db runId = some pending ∧
        (answerDecision db runId ownerId answer).2 = updateRun { db with
          decisions := db.decisions.map fun d =>
            if d.id = pending.id then { d with answer := some text } else d }
          runId ⟨some .queued, none, some none⟩ := by
  unfold answerDecision
  split
  · exact Or.inl rfl
  · rename_i row found
    have present : db.runs.get? runId = some row := (Option.filter_eq_some_iff.mp found).1
    split
    · exact Or.inl rfl
    · rename_i waiting
      have paused : row.status = .pausedForDecision := by simpa using waiting
      split
      · exact Or.inl rfl
      · rename_i text normal
        split
        · exact Or.inl rfl
        · rename_i pending found
          exact Or.inr ⟨row, pending, text, present, paused, found, rfl⟩

section Answer
variable {db : Db} {pending : Decision} {text : Text}

/-- The decisions once `pending` has its answer. -/
def answered (db : Db) (pending : Decision) (text : Text) : List Decision :=
  db.decisions.map fun d => if d.id = pending.id then { d with answer := some text } else d

theorem mem_answered_open {d : Decision} (mem : d ∈ answered db pending text)
    (open_ : d.answer = none) : d ∈ db.decisions ∧ d.id ≠ pending.id := by
  obtain ⟨old, before, rfl⟩ := mem_map.mp mem
  split at open_
  · cases open_
  · rename_i other
    rw [if_neg other]
    exact ⟨before, other⟩

theorem answered_kept {d : Decision} (mem : d ∈ db.decisions) (other : d.id ≠ pending.id) :
    d ∈ answered db pending text :=
  mem_map.mpr ⟨d, mem, if_neg other⟩

theorem map_id_answered : (answered db pending text).map (·.id) = db.decisions.map (·.id) := by
  rw [answered, map_map]
  refine map_congr_left fun d _ => ?_
  show (if _ then _ else d).id = d.id
  split <;> rfl

theorem countP_answered_le (r : Text) :
    (answered db pending text).countP (fun d => d.runId = r ∧ d.answer = none) ≤
      db.decisions.countP fun d => d.runId = r ∧ d.answer = none := by
  rw [answered, countP_map]
  refine countP_mono_left fun d _ same => ?_
  simp only [Function.comp_apply, decide_eq_true_eq] at same ⊢
  split at same
  · cases same.2
  · exact same

end Answer

theorem Tables.answer {pending : Decision} (tables : Tables db) :
    Tables (updateRun { db with decisions := answered db pending text } runId
      ⟨some .queued, none, some none⟩) where
  once := tables.once
  numbered := by
    have ids : (answered db pending text).map (·.id) =
        List.range' 1 (answered db pending text).length := by
      rw [map_id_answered, tables.numbered, answered, length_map]
    exact ids
  known d mem := by
    obtain ⟨old, before, rfl⟩ := mem_map.mp mem
    refine (contains_modify _ _ _ _).trans ?_
    split
    · exact tables.known old before
    · exact tables.known old before
  front r p := by
    rintro ⟨d, mem, ofRun, ofPhase, open_⟩
    obtain ⟨past, next⟩ :=
      tables.front r p ⟨d, (mem_answered_open mem open_).1, ofRun, ofPhase, open_⟩
    exact ⟨past, next⟩
  single r := (countP_answered_le r).trans (tables.single r)
  complete r row found status p := by
    rw [updateRun, OrderedMap.get?_modify] at found
    split at found
    · obtain ⟨old, -, rfl⟩ := Option.map_eq_some_iff.mp found
      cases status
    · exact tables.complete r row found status p

theorem Calm.answer {pending : Decision} :
    Calm db (updateRun { db with decisions := answered db pending text } runId
      ⟨some .queued, none, some none⟩) v where
  rows _ mem := mem
  runs r := (contains_modify _ _ r _).trans
  held r held := by
    refine ⟨held, fun p => id, ?_⟩
    rintro p ⟨d, mem, ofRun, ofPhase, open_⟩
    exact ⟨d, (mem_answered_open mem open_).1, ofRun, ofPhase, open_⟩

theorem createRun_cases (db : Db) (id ownerId request : Text) (now : ℤ) :
    createRun db id ownerId request now = db ∨ db.runs.contains id = false ∧
      createRun db id ownerId request now =
        { db with runs := db.runs.set id ⟨ownerId, request, .queued, none, none, now⟩ } := by
  unfold createRun
  split
  · exact Or.inl rfl
  · rename_i free
    exact Or.inr ⟨by simpa using free, rfl⟩

theorem contains_set (runs : OrderedMap Text Run) (key r : Text) (row : Run)
    (known : runs.contains r = true) : (runs.set key row).contains r = true := by
  unfold OrderedMap.contains at *
  rw [OrderedMap.get?_set]
  split
  · rfl
  · exact known

theorem step_consistent (setup : Setup ν) (s : State) (event : Event) (consistent : Consistent s) :
    Consistent (step setup s event) := by
  cases event with
  | worker w input =>
    have turn := advance_turn setup w s.now input (s.pc w) s.world
    refine ⟨Turn.tables turn (consistent.workers w) consistent.tables, fun v => ?_⟩
    simp only [step, pc_set]
    split
    · rename_i me
      subst me
      exact Turn.sound turn (consistent.workers v)
    · rename_i other
      exact (consistent.workers v).calm (Turn.calm turn other)
  | clock now => exact ⟨consistent.tables, consistent.workers⟩
  | create id ownerId request =>
    rcases createRun_cases s.world.db id ownerId request s.now with same | ⟨free, created⟩
    · simp only [step, same]
      exact consistent
    · simp only [step, created]
      constructor
      · refine consistent.tables.of_records ⟨rfl, rfl⟩ (fun r => contains_set _ _ _ _) ?_
        intro r row found status
        rw [OrderedMap.get?_set] at found
        split at found
        · cases found
          cases status
        · exact Or.inl ⟨row, found, status⟩
      · intro v
        exact (consistent.workers v).calm
          ⟨fun _ mem => mem, fun r => contains_set _ _ _ _, fun r held =>
            ⟨held, fun _ recorded => recorded, fun _ asked => asked⟩⟩
  | answer runId ownerId text =>
    rcases answerDecision_cases s.world.db runId ownerId text with
      same | ⟨row, pending, text, -, -, -, same⟩
    · simp only [step, same]
      exact consistent
    · simp only [step, same]
      exact ⟨consistent.tables.answer, fun v => (consistent.workers v).calm .answer⟩

/-- A run waits for a decision exactly while a question is open. -/
def PausedExactly (db : Db) : Prop :=
  ∀ r row, db.runs.get? r = some row → (row.status = .pausedForDecision ↔ ∃ p, Asked db r p)

/-- The holder at work has a run that does not wait, and does not mean to make it wait. -/
structure Active (db : Db) (w : Text) (pc : Pc) : Prop where
  status : ∀ r row, pc.working = some r → Holds db r w → db.runs.get? r = some row →
    isClaimable row.status = true
  verdict : ∀ r, pc.verdict = some (r, some .pausedForDecision) → ¬Holds db r w

structure Agreed (s : State) : Prop where
  paused : PausedExactly s.world.db
  workers : ∀ w, Active s.world.db w (s.pc w)

theorem Agreed.empty (idle : ∀ w, s.pc w = .idle) (db : s.world.db = .empty) :
    Agreed s where
  paused r row found := by
    rw [db] at found
    cases found
  workers w := by
    rw [idle w]
    constructor <;> simp [Pc.working, Pc.verdict]

theorem PausedExactly.of_same (paused : PausedExactly db) (runs : db'.runs = db.runs)
    (decisions : db'.decisions = db.decisions) : PausedExactly db' := by
  intro r row found
  rw [runs] at found
  have same := paused r row found
  unfold Asked at *
  rwa [decisions]

section Fenced
variable {w : Text} {db db' : Db} {pc pc' : Pc}

theorem Turn.runs_cases (turn : Turn w db pc db' pc')
    (fenced : ∀ work, pc = .progress work → pc' = .call work 0 .alive → Holds db work.run.id w) :
    db'.runs = db.runs ∨ ∃ r f, Holds db r w ∧ db'.runs = db.runs.modify r f := by
  cases turn with
  | quiet records runs => exact Or.inl runs
  | claim found claimable records runs => exact Or.inl runs
  | load | skip | start | waits | finishes => exact Or.inl rfl
  | progress work at_ => exact Or.inr ⟨_, _, fenced work at_ rfl, rfl⟩
  | record at_ holder phases decisions runs => exact Or.inl runs
  | decide at_ holder ofRun ofPhase open_ numbered phases decisions runs =>
    exact Or.inr ⟨_, _, holder, runs⟩
  | verdict at_ holder records runs => exact Or.inr ⟨_, _, holder, runs⟩

theorem Active.other (turn : Turn w db pc db' pc')
    (fenced : ∀ work, pc = .progress work → pc' = .call work 0 .alive → Holds db work.run.id w)
    {pc₀ : Pc} (other : v ≠ w) (active : Active db v pc₀) : Active db' v pc₀ where
  status r row working held found := by
    have before := ((Turn.calm turn other).held r held).1
    refine active.status r row working before ?_
    rcases Turn.runs_cases turn fenced with same | ⟨q, f, holder, changed⟩
    · rwa [← same]
    · have apart : r ≠ q := by
        rintro rfl
        exact other (holds_unique before holder)
      rwa [changed, OrderedMap.get?_modify, if_neg apart] at found
  verdict r told held := active.verdict r told ((Turn.calm turn other).held r held).1

theorem Active.unasked (active : Active db w pc) (sound : WorkerSound db w pc)
    (paused : PausedExactly db) (working : pc.working = some r) (held : Holds db r w) (p : Phase) :
    ¬Asked db r p := by
  intro asked
  obtain ⟨row, found⟩ := Option.isSome_iff_exists.mp (sound.working r working)
  have waiting := (paused r row found).mpr ⟨p, asked⟩
  have claimable := active.status r row working held found
  rw [waiting] at claimable
  cases claimable

theorem Turn.active (turn : Turn w db pc db' pc') (sound : WorkerSound db w pc)
    (paused : PausedExactly db) (active : Active db w pc) : Active db' w pc' := by
  cases turn with
  | quiet records runs holders seen current working verdict =>
    constructor
    · intro r row at_ held found
      rw [runs] at found
      rcases working with none_ | same
      · rw [none_] at at_
        cases at_
      · exact active.status r row (same ▸ at_) (holders r w held) found
    · intro r told held
      rcases verdict with same | plain
      · exact active.verdict r (same ▸ told) (holders r w held)
      · exact absurd (plain r _ told) (by decide)
  | claim found claimable records runs holders =>
    constructor
    · intro r row at_ held now
      obtain rfl := Option.some.inj at_
      rw [runs, found] at now
      cases now
      exact claimable
    · intro r told
      cases told
  | load run at_ =>
    constructor
    · intro r row working
      exact active.status r row (at_.trans working)
    · intro r told
      cases told
  | skip at_ known =>
    subst at_
    constructor
    · exact active.status
    · intro r told
      cases told
  | start at_ unknown asked =>
    subst at_
    constructor
    · exact active.status
    · intro r told
      cases told
  | waits at_ asked =>
    subst at_
    constructor
    · exact active.status
    · intro r told held
      cases told
      exact active.unasked sound paused rfl held _ (pendingQuestion_eq_some asked)
  | finishes at_ =>
    subst at_
    constructor
    · exact active.status
    · intro r told
      cases told
  | progress work at_ =>
    constructor
    · intro r row working held found
      obtain rfl := Option.some.inj working
      rw [updateRun, OrderedMap.get?_modify, if_pos rfl] at found
      obtain ⟨old, -, rfl⟩ := Option.map_eq_some_iff.mp found
      simp only [Patch.apply, progressPatch, Option.getD_some]
      cases work.phase <;> rfl
    · intro r told
      cases told
  | record at_ holder phases decisions runs holders =>
    subst at_
    constructor
    · intro r row working held found
      rw [runs] at found
      exact active.status r row working (holders r w held) found
    · intro r told
      cases told
  | decide =>
    constructor
    · intro r row working
      cases working
    · intro r told
      cases told
  | verdict at_ holder records runs holders seen current working silent =>
    constructor
    · intro r row at_
      rw [working] at at_
      cases at_
    · intro r told
      rw [silent] at told
      cases told

theorem Turn.paused (turn : Turn w db pc db' pc') (sound : WorkerSound db w pc)
    (tables : Tables db) (paused : PausedExactly db) (active : Active db w pc)
    (fenced : ∀ work, pc = .progress work → pc' = .call work 0 .alive → Holds db work.run.id w) :
    PausedExactly db' := by
  cases turn with
  | quiet records runs => exact paused.of_same runs records.decisions
  | claim found claimable records runs => exact paused.of_same runs records.decisions
  | load | skip | start | waits | finishes => exact paused
  | progress work at_ =>
    intro r row found
    rw [updateRun, OrderedMap.get?_modify] at found
    split at found
    · rename_i here
      subst at_
      have held := fenced work rfl rfl
      have started := sound.started _ _ _ rfl
      have front := (sound.read _ _ _ rfl).front started held
      obtain ⟨old, -, rfl⟩ := Option.map_eq_some_iff.mp found
      constructor
      · simp only [Patch.apply, progressPatch, Option.getD_some]
        cases work.phase <;> (intro waiting; cases waiting)
      · rintro ⟨p, asked⟩
        rw [here] at asked
        exact absurd asked (tables.nobodyAsks front started held p)
    · exact paused r row found
  | record at_ holder phases decisions runs => exact paused.of_same runs decisions
  | decide at_ holder ofRun ofPhase open_ numbered phases decisions runs =>
    intro r row found
    rw [runs, OrderedMap.get?_modify] at found
    split at found
    · rename_i here
      obtain ⟨old, -, rfl⟩ := Option.map_eq_some_iff.mp found
      refine iff_of_true rfl ⟨_, _, ?_, ofRun.trans here.symm, rfl, open_⟩
      rw [decisions]
      exact mem_append_right _ (mem_singleton_self _)
    · rename_i other
      rw [paused r row found]
      refine exists_congr fun p => ⟨?_, ?_⟩
      · rintro ⟨d, mem, same⟩
        exact ⟨d, decisions ▸ mem_append_left _ mem, same⟩
      · rintro ⟨d, mem, named, same⟩
        rw [decisions, mem_append, mem_singleton] at mem
        rcases mem with old | rfl
        · exact ⟨d, old, named, same⟩
        · exact absurd (named.symm.trans ofRun) other
  | verdict at_ holder records runs =>
    subst at_
    intro r row found
    have asked : (∃ p, Asked db' r p) ↔ ∃ p, Asked db r p :=
      exists_congr fun p => SameRecords.asked records r p
    rw [asked]
    rw [runs, OrderedMap.get?_modify] at found
    split at found
    · rename_i here
      obtain ⟨old, before, rfl⟩ := Option.map_eq_some_iff.mp found
      refine iff_of_false ?_ ?_
      · simp only [Patch.apply]
        intro waiting
        cases told : Patch.status _ with
        | none =>
          rw [told, Option.getD_none] at waiting
          have claimable := active.status _ old rfl holder before
          rw [waiting] at claimable
          cases claimable
        | some verdict =>
          rw [told, Option.getD_some] at waiting
          refine active.verdict _ ?_ holder
          rw [Pc.verdict, told, waiting]
      · rintro ⟨p, open_⟩
        rw [here] at open_
        exact active.unasked sound paused rfl holder p open_
    · exact paused r row found

end Fenced

theorem eq_of_countP_le_one {α : Type} {p : α → Bool} {l : List α} (one : l.countP p ≤ 1) {a b : α}
    (hereA : a ∈ l) (hereB : b ∈ l) (holdsA : p a = true) (holdsB : p b = true) : a = b := by
  have memA := mem_filter.mpr ⟨hereA, holdsA⟩
  have memB := mem_filter.mpr ⟨hereB, holdsB⟩
  rw [countP_eq_length_filter] at one
  cases kept : l.filter p with
  | nil =>
    rw [kept] at memA
    cases memA
  | cons x rest =>
    rw [kept, length_cons] at one
    have rest_nil : rest = [] := length_eq_zero_iff.mp (by omega)
    rw [kept, rest_nil, mem_singleton] at memA memB
    rw [memA, memB]

theorem Tables.asked_answered {pending : Decision} (tables : Tables db)
    (last : pendingDecision db runId = some pending) (r : Text) (p : Phase) :
    (∃ d ∈ answered db pending text, d.runId = r ∧ d.phase = p ∧ d.answer = none) ↔
      r ≠ runId ∧ Asked db r p := by
  obtain ⟨mem, same⟩ := mem_filter.mp (mem_of_getLast? last)
  obtain ⟨ofRun, open_⟩ : pending.runId = runId ∧ pending.answer = none := by simpa using same
  have nodup : (db.decisions.map (·.id)).Nodup := by
    rw [tables.numbered]
    exact nodup_range'
  constructor
  · rintro ⟨d, after, named, ofPhase, free⟩
    obtain ⟨before, other⟩ := mem_answered_open after free
    refine ⟨?_, d, before, named, ofPhase, free⟩
    rintro rfl
    -- a second open question of the run beside the pending one
    have one := eq_of_countP_le_one (tables.single r) before mem (by simp [free, named])
      (by simp [ofRun, open_])
    exact other (congrArg _ one)
  · rintro ⟨other, d, before, named, ofPhase, free⟩
    refine ⟨d, answered_kept before ?_, named, ofPhase, free⟩
    intro same
    have := inj_on_of_nodup_map nodup before mem same
    rw [← named, this, ofRun] at other
    exact other rfl

/-- A worker that writes progress is named by the run's lease row, run out or not. -/
def progressHeld (x : WorkerStep) : Bool :=
  match x.label with
  | .worker w .go =>
    match x.before.pc w with
    | .progress work =>
      match x.before.world.db.leases.get? work.run.id with
      | some lease => lease.holder = w
      | none => false
    | _ => true
  | _ => true

theorem advance_progress (setup : Setup ν) (w : Text) (now : ℤ) (input : Input) (work : Work)
    (world : World)
    (sent : (advance setup w now input (.progress work) world).2 = .call work 0 .alive) :
    input = .go := by
  cases input <;> first
    | rfl
    | cases sent

theorem progressHeld_holds (setup : Setup ν) {input : Input}
    (held : progressHeld ⟨s, .worker w input, step setup s (.worker w input)⟩ = true) (work : Work)
    (at_ : s.pc w = .progress work)
    (sent : (advance setup w s.now input (s.pc w) s.world).2 = .call work 0 .alive) :
    Holds s.world.db work.run.id w := by
  rw [at_] at sent
  obtain rfl := advance_progress setup w s.now input work s.world sent
  simp only [progressHeld, at_] at held
  split at held
  · rename_i lease found
    exact ⟨lease, found, of_decide_eq_true held⟩
  · cases held

theorem step_agreed (setup : Setup ν) (s : State) (event : Event) (consistent : Consistent s)
    (agreed : Agreed s) (held : progressHeld ⟨s, event, step setup s event⟩ = true) :
    Agreed (step setup s event) := by
  cases event with
  | worker w input =>
    have turn := advance_turn setup w s.now input (s.pc w) s.world
    have fenced := progressHeld_holds setup held
    refine ⟨Turn.paused turn (consistent.workers w) consistent.tables agreed.paused
      (agreed.workers w) fenced, fun v => ?_⟩
    simp only [step, pc_set]
    split
    · rename_i me
      subst me
      exact Turn.active turn (consistent.workers v) agreed.paused (agreed.workers v)
    · rename_i other
      exact Active.other turn fenced other (agreed.workers v)
  | clock now => exact ⟨agreed.paused, agreed.workers⟩
  | create id ownerId request =>
    rcases createRun_cases s.world.db id ownerId request s.now with same | ⟨free, created⟩
    · simp only [step, same]
      exact agreed
    · simp only [step, created]
      constructor
      · intro r row found
        rw [OrderedMap.get?_set] at found
        split at found
        · rename_i here
          cases found
          refine iff_of_false (by simp) ?_
          rintro ⟨p, d, mem, named, -⟩
          have known := consistent.tables.known d mem
          rw [named, here, free] at known
          cases known
        · exact agreed.paused r row found
      · intro v
        refine ⟨fun r row working held found => ?_, (agreed.workers v).verdict⟩
        rw [OrderedMap.get?_set] at found
        split at found
        · cases found
          rfl
        · exact (agreed.workers v).status r row working held found
  | answer runId ownerId text =>
    rcases answerDecision_cases s.world.db runId ownerId text with
      same | ⟨row, pending, text, present, waiting, last, same⟩
    · simp only [step, same]
      exact agreed
    · simp only [step, same]
      constructor
      · intro r row found
        have asked : (∃ p, Asked (updateRun { s.world.db with
            decisions := answered s.world.db pending text } runId ⟨some .queued, none, some none⟩) r p) ↔
            r ≠ runId ∧ ∃ p, Asked s.world.db r p := by
          rw [← exists_and_left]
          exact exists_congr fun p => consistent.tables.asked_answered last r p
        refine Iff.trans ?_ asked.symm
        rw [updateRun, OrderedMap.get?_modify] at found
        split at found
        · rename_i here
          obtain ⟨old, -, rfl⟩ := Option.map_eq_some_iff.mp found
          exact iff_of_false (by simp [Patch.apply]) fun both => both.1 here
        · rename_i other
          rw [agreed.paused r row found]
          exact (and_iff_right other).symm
      · intro v
        refine ⟨fun r row working held found => ?_, (agreed.workers v).verdict⟩
        rw [updateRun, OrderedMap.get?_modify] at found
        split at found
        · obtain ⟨old, -, rfl⟩ := Option.map_eq_some_iff.mp found
          rfl
        · exact (agreed.workers v).status r row working held found

/-- What holds in every state, whoever wrote last. -/
structure PhaseIntegrity (s : State) : Prop where
  oneRow : ∀ r p, s.world.db.phases.countP (fun row => row.runId = r ∧ row.phase = p) ≤ 1
  builtOn : ∀ w run outputs phase rest attempt answer,
    s.pc w = .reserve run outputs phase rest attempt answer →
      (earlierOutputs outputs phase).map Prod.fst = earlier phase ∧
        ∀ e ∈ earlierOutputs outputs phase, ∃ row ∈ s.world.db.phases,
          row.runId = run.id ∧ row.phase = e.1 ∧ row.output = e.2
  completeRuns : ∀ r, statusOf s r = some .complete → ∀ p, Recorded s.world.db r p
  oneQuestion : ∀ r, s.world.db.decisions.countP (fun d => d.runId = r ∧ d.answer = none) ≤ 1

/-- "paused for a decision" exactly while a question of the run is open. -/
def PausedForQuestion (s : State) : Prop :=
  ∀ r status, statusOf s r = some status →
    (status = .pausedForDecision ↔ ∃ d ∈ s.world.db.decisions, d.runId = r ∧ d.answer = none)

def isSettled (s : State) (id : Nat) : Bool :=
  s.world.db.ledger.any fun row => row.id = id ∧ row.state = .settled

/-- The step settles the reservation. -/
def settles (id : Nat) (x : WorkerStep) : Bool := !isSettled x.before id && isSettled x.after id

/-- Reservations are told apart by their ids, and a settled one is left as it is. -/
def SettledKept (x : WorkerStep) : Prop :=
  (x.after.world.db.ledger.map (·.id)).Nodup ∧
    ∀ row ∈ x.before.world.db.ledger, row.state = .settled → row ∈ x.after.world.db.ledger

theorem earlierOutputs_fst {phase : Phase} (known : ∀ e ∈ earlier phase, (outputs.get? e).isSome) :
    (earlierOutputs outputs phase).map Prod.fst = earlier phase := by
  unfold earlierOutputs
  change ((earlier phase).filterMap _).map Prod.fst = earlier phase
  generalize earlier phase = before at known
  induction before with
  | nil => rfl
  | cons e before ih =>
    obtain ⟨out, found⟩ := Option.isSome_iff_exists.mp (known e (mem_cons_self ..))
    rw [filterMap_cons, found]
    simp only [Option.map_some, map_cons]
    rw [ih fun e mem => known e (mem_cons_of_mem _ mem)]

theorem Consistent.integrity (consistent : Consistent s) : PhaseIntegrity s where
  oneRow := consistent.tables.once
  builtOn w run outputs phase rest attempt answer at_ := by
    have read := (consistent.workers w).read run.id outputs (phase :: rest) (by rw [at_]; rfl)
    obtain ⟨done, split, present⟩ := read.onward
    rw [← earlier_of_split split] at present
    refine ⟨earlierOutputs_fst present, fun e mem => ?_⟩
    obtain ⟨p, -, found⟩ := mem_filterMap.mp mem
    obtain ⟨out, known, rfl⟩ := Option.map_eq_some_iff.mp found
    exact read.recorded p out known
  completeRuns r status p := by
    obtain ⟨row, found, same⟩ := Option.map_eq_some_iff.mp status
    exact consistent.tables.complete r row found same p
  oneQuestion := consistent.tables.single

theorem Agreed.pausedForQuestion (agreed : Agreed s) : PausedForQuestion s := by
  intro r status found
  obtain ⟨row, present, rfl⟩ := Option.map_eq_some_iff.mp found
  rw [agreed.paused r row present]
  constructor
  · rintro ⟨p, d, mem, ofRun, -, open_⟩
    exact ⟨d, mem, ofRun, open_⟩
  · rintro ⟨d, mem, ofRun, open_⟩
    exact ⟨d.phase, d, mem, ofRun, rfl, open_⟩

theorem step_ledger (setup : Setup ν) (s : State) (event : Event) :
    LedgerKept s.world.db.ledger (step setup s event).world.db.ledger := by
  cases event with
  | worker w input => exact advance_ledger setup w s.now input (s.pc w) s.world
  | clock now => exact .refl _
  | create id ownerId request =>
    rcases createRun_cases s.world.db id ownerId request s.now with same | ⟨-, same⟩
    all_goals
      simp only [step, same]
      exact .refl _
  | answer runId ownerId text =>
    rcases answerDecision_cases s.world.db runId ownerId text with
      same | ⟨row, pending, text, -, -, -, same⟩
    all_goals
      simp only [step, same]
      exact .refl _

theorem isSettled_kept (setup : Setup ν) (s : State) (event : Event) (id : Nat)
    (settled : isSettled s id = true) : isSettled (step setup s event) id = true := by
  obtain ⟨row, mem, same⟩ := any_eq_true.mp settled
  have state : row.state = .settled := (of_decide_eq_true same).2
  exact any_eq_true.mpr
    ⟨row, (step_ledger setup s event).final row mem (by rw [state]; nofun), same⟩

theorem settles_once (setup : Setup ν) {t : State} {steps : List WorkerStep}
    (run : (system setup).Run s steps t) (id : Nat) : steps.countP (settles id) ≤ 1 := by
  have grown := run.countP_le (fun s => if isSettled s id then 1 else 0) (settles id) (by
    rintro m event n rfl
    have kept := isSettled_kept setup m event id
    unfold settles
    cases before : isSettled m id with
    | false => cases isSettled (step setup m event) id <;> simp
    | true => simp [kept before])
  have bound : (if isSettled t id then 1 else 0) ≤ 1 := by split <;> decide
  omega

/-- From the empty tables: phases, reservations and questions at most once over every
run, and pauses agree with the open questions where the holders write the progress. -/
theorem at_most_once_phases {ν : Type} (setup : Setup ν) {s t : State} {steps : List WorkerStep}
    (start : (system setup).start s) (empty : s.world.db = .empty)
    (run : (system setup).Run s steps t) :
    PhaseIntegrity t ∧ (∀ id, steps.countP (settles id) ≤ 1) ∧ (∀ x ∈ steps, SettledKept x) ∧
      ((∀ x ∈ steps, progressHeld x = true) → PausedForQuestion t) := by
  have consistent : Consistent t := by
    refine run.invariant Consistent (.empty start empty) ?_
    rintro m event n rfl
    exact step_consistent setup m event
  refine ⟨consistent.integrity, settles_once setup run, ?_, fun fenced => ?_⟩
  · refine run.steps_of
      (fun s => s.world.db.ledger.map (·.id) = List.range' 1 s.world.db.ledger.length)
      (fun _ => True) SettledKept (by rw [empty]; rfl) ?_ ?_ fun _ _ => trivial
    · rintro m event n rfl -
      exact (step_ledger setup m event).numbered
    · rintro m event n rfl - numbered
      refine ⟨?_, fun row mem state => ?_⟩
      · rw [(step_ledger setup m event).numbered numbered]
        exact nodup_range'
      · exact (step_ledger setup m event).final row mem (by rw [state]; nofun)
  · have both : Consistent t ∧ Agreed t := by
      refine run.invariant_of (fun s => Consistent s ∧ Agreed s) (fun x => progressHeld x = true)
        ⟨.empty start empty, .empty start empty⟩ ?_ fenced
      rintro m event n rfl held ⟨consistent, agreed⟩
      exact ⟨step_consistent setup m event consistent,
        step_agreed setup m event consistent agreed held⟩
    exact both.2.pausedForQuestion

/-- A decision as the discuss phase's instruction spells it. -/
def plainDecision : Json Unit :=
  .obj [(js "decision", .obj [(js "question", .str (js "which?")),
    (js "options", .arr [
      .obj [(js "label", .str (js "a")), (js "tradeoff", .str (js "slow"))],
      .obj [(js "label", .str (js "b")), (js "tradeoff", .str (js "costly"))]]),
    (js "default", .str (js "a"))])]

/-- Every reply of the model is a decision. -/
def askingSetup : Setup Unit := { plainSetup with parseJson := fun _ => some plainDecision }

def asks (w : Text) (goes : Nat) : List Event :=
  List.replicate goes (.worker w .go) ++ [.worker w (.reply (js "out") (some 5)), .worker w .go]

/-- Worker `a` asks, the owner answers, and `a` comes back to the run. -/
def askedAndAnswered : List Event :=
  .create (js "r") (js "o") (js "q") :: asks (js "a") 8 ++
    [.worker (js "a") .go, .answer (js "r") (js "o") (js "a"), .worker (js "a") .go]

def askedRun : List WorkerStep := traceOf (step askingSetup) emptyState askedAndAnswered

def askedState : State := runInputs (step askingSetup) emptyState askedAndAnswered

theorem at_most_once_phases_asked :
    PhaseIntegrity askedState ∧ PausedForQuestion askedState :=
  have all := at_most_once_phases askingSetup (fun _ => rfl) rfl
    (run_traceOf (system_step askingSetup) emptyState askedAndAnswered)
  have held : ∀ x ∈ askedRun, progressHeld x = true := by decide +kernel
  ⟨all.1, all.2.2.2 held⟩

/-- The lease of `a` runs out before its progress write; `b` asks in its place, and
then `a` writes. -/
def askedByOther : List Event :=
  upToProgress ++ [.clock 100000] ++ asks (js "b") 9 ++ [.worker (js "a") .go]

def overwrittenState : State := runInputs (step askingSetup) emptyState askedByOther

theorem overwrittenState_asks :
    statusOf overwrittenState (js "r") = some .discovering ∧
      overwrittenState.world.db.decisions.any
        (fun d => d.runId = js "r" ∧ d.answer = none) = true := by
  decide +kernel

theorem progress_overwrites_pause :
    ¬∀ {ν : Type} (setup : Setup ν) {s t : State} {steps : List WorkerStep},
      (system setup).start s → s.world.db = .empty → (system setup).Run s steps t →
        PausedForQuestion t := by
  intro paused
  obtain ⟨status, open_⟩ := overwrittenState_asks
  have reached : ∃ steps, (system askingSetup).Run emptyState steps overwrittenState :=
    ⟨_, run_traceOf (system_step askingSetup) emptyState askedByOther⟩
  generalize overwrittenState = t at status open_ reached
  obtain ⟨steps, run⟩ := reached
  obtain ⟨d, mem, same⟩ := any_eq_true.mp open_
  have waits := paused askingSetup (fun _ => rfl) rfl run (js "r") .discovering status
  exact absurd (waits.mpr ⟨d, mem, of_decide_eq_true same⟩) (by decide)

end Ultrathink.Guarantees.AtMostOncePhases
