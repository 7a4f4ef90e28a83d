import Ultrathink.Source.Worker.Effects

/-!
# What one worker step does to phases and decisions

`Effects.lean` follows runs and leases; `advance_turn` follows what a worker has
read of the finished phases, and the rows that it adds. Only a commit adds a row,
behind a renewal in the same transaction, so only by the holder of the lease.
`advance_ledger` follows the reservations.
-/

namespace Ultrathink.Source.Worker

open List Library JsText Source.Store

/-- The row of the run's lease names the worker, run out or not. -/
def Holds (db : Db) (runId w : Text) : Prop :=
  ∃ lease, db.leases.get? runId = some lease ∧ lease.holder = w

/-- What a worker has read of its run: the outputs and the phases still to come. An
output that is committed counts before its artifact is written. -/
def Pc.seen : Pc → Option (Text × Outputs × List Phase)
  | .phases run outputs rest => some (run.id, outputs, rest)
  | .attempt run outputs phase rest => some (run.id, outputs, phase :: rest)
  | .readAnswer run outputs phase rest _ => some (run.id, outputs, phase :: rest)
  | .reserve run outputs phase rest _ _ => some (run.id, outputs, phase :: rest)
  | .progress work => some (work.run.id, work.outputs, work.phase :: work.rest)
  | .call work _ _ => some (work.run.id, work.outputs, work.phase :: work.rest)
  | .commit work _ _ => some (work.run.id, work.outputs, work.phase :: work.rest)
  | .artifact work text => some (work.run.id, work.outputs.set work.phase text, work.rest)
  | _ => none

/-- The phase that a worker has started and not committed. -/
def Pc.current : Pc → Option (Text × Outputs × Phase)
  | .attempt run outputs phase _ => some (run.id, outputs, phase)
  | .readAnswer run outputs phase _ _ => some (run.id, outputs, phase)
  | .reserve run outputs phase _ _ _ => some (run.id, outputs, phase)
  | .progress work => some (work.run.id, work.outputs, work.phase)
  | .call work _ _ => some (work.run.id, work.outputs, work.phase)
  | .commit work _ _ => some (work.run.id, work.outputs, work.phase)
  | _ => none

/-- The status that a worker is about to write. -/
def Pc.verdict : Pc → Option (Text × Option RunStatus)
  | .terminal run patch _ => some (run.id, patch.status)
  | _ => none

/-- Statuses that say nothing about phases or decisions. -/
def isPlainVerdict (status : Option RunStatus) : Bool :=
  status = some .failed || status = some .pausedForBlocker

/-- From `db` to `db'` no lease row has come to name another worker. -/
def KeepsHolders (db db' : Db) : Prop := ∀ r v, Holds db' r v → Holds db r v

structure SameRecords (db db' : Db) : Prop where
  phases : db'.phases = db.phases
  decisions : db'.decisions = db.decisions

inductive Turn (w : Text) (db : Db) (pc : Pc) : Db → Pc → Prop
  | quiet {db' : Db} {pc' : Pc} (records : SameRecords db db') (runs : db'.runs = db.runs)
      (holders : KeepsHolders db db') (seen : pc'.seen = none ∨ pc'.seen = pc.seen)
      (current : pc'.current = none ∨ pc'.current = pc.current)
      (working : pc'.working = none ∨ pc'.working = pc.working)
      (verdict : pc'.verdict = pc.verdict ∨
        ∀ r status, pc'.verdict = some (r, status) → isPlainVerdict status) : Turn w db pc db' pc'
  | claim {db' : Db} {run : ClaimedRun} {row : Run} (found : db.runs.get? run.id = some row)
      (claimable : isClaimable row.status = true) (records : SameRecords db db')
      (runs : db'.runs = db.runs)
      (holders : ∀ r v, Holds db' r v → (r = run.id ∧ v = w) ∨ (r ≠ run.id ∧ Holds db r v)) :
      Turn w db pc db' (.sweepStart run)
  | load (run : ClaimedRun) (at_ : pc.working = some run.id) :
      Turn w db pc db (.phases run (completedOutputs db run.id) allPhases)
  | skip {run : ClaimedRun} {outputs : Outputs} {phase : Phase} {rest : List Phase} {output : Text}
      (at_ : pc = .phases run outputs (phase :: rest)) (known : outputs.get? phase = some output) :
      Turn w db pc db (.phases run outputs rest)
  | start {run : ClaimedRun} {outputs : Outputs} {phase : Phase} {rest : List Phase}
      (at_ : pc = .phases run outputs (phase :: rest)) (unknown : outputs.get? phase = none)
      (asked : pendingQuestion db run.id phase = none) :
      Turn w db pc db (.attempt run outputs phase rest)
  | waits {run : ClaimedRun} {outputs : Outputs} {phase : Phase} {rest : List Phase}
      {question : Text} (at_ : pc = .phases run outputs (phase :: rest))
      (asked : pendingQuestion db run.id phase = some question) :
      Turn w db pc db (.terminal run (terminalPatch .pausedForDecision question) none)
  | finishes {run : ClaimedRun} {outputs : Outputs} (at_ : pc = .phases run outputs []) :
      Turn w db pc db (.terminal run completePatch none)
  | progress (work : Work) (at_ : pc = .progress work) :
      Turn w db pc (updateRun db work.run.id (progressPatch work.phase)) (.call work 0 .alive)
  | record {db' : Db} {work : Work} {text : Text} {tokensUsed : Option Nat} {createdAt : ℤ}
      (at_ : pc = .commit work text tokensUsed) (holder : Holds db work.run.id w)
      (phases : db'.phases = db.phases ++ [⟨work.run.id, work.phase, work.attempt, text, createdAt⟩])
      (decisions : db'.decisions = db.decisions) (runs : db'.runs = db.runs)
      (holders : KeepsHolders db db') : Turn w db pc db' (.artifact work text)
  | decide {db' : Db} {work : Work} {text : Text} {tokensUsed : Option Nat} {decision : Decision}
      {reason : Text} (at_ : pc = .commit work text tokensUsed) (holder : Holds db work.run.id w)
      (ofRun : decision.runId = work.run.id) (ofPhase : decision.phase = work.phase)
      (open_ : decision.answer = none) (numbered : decision.id = db.decisions.length + 1)
      (phases : db'.phases = db.phases)
      (decisions : db'.decisions = db.decisions ++ [decision])
      (runs : db'.runs = db.runs.modify work.run.id (terminalPatch .pausedForDecision reason).apply)
      (holders : KeepsHolders db db') : Turn w db pc db' (.finish work.run)
  | verdict {db' : Db} {pc' : Pc} {run : ClaimedRun} {patch : Patch} {reservation : Option Nat}
      (at_ : pc = .terminal run patch reservation) (holder : Holds db run.id w)
      (records : SameRecords db db') (runs : db'.runs = db.runs.modify run.id patch.apply)
      (holders : KeepsHolders db db') (seen : pc'.seen = none) (current : pc'.current = none)
      (working : pc'.working = none) (silent : pc'.verdict = none) : Turn w db pc db' pc'

theorem KeepsHolders.refl (db : Db) : KeepsHolders db db := fun _ _ h => h

variable {db db' : Db} {runId holder : Text} {now leaseMs : ℤ} {id attempt : Nat} {phase : Phase}
  {pc : Pc}

theorem KeepsHolders.of_leases (leases : db'.leases = db.leases) :
    KeepsHolders db db' := by
  intro r v held
  unfold Holds at *
  rwa [leases] at held

theorem renewLease_holders (ok : renewLease db runId holder leaseMs now = some db') :
    Holds db runId holder ∧ KeepsHolders db db' := by
  obtain ⟨lease, found, own, -, leases⟩ := renewLease_eq_some ok
  refine ⟨⟨lease, found, own⟩, ?_⟩
  rintro r v ⟨other, held, named⟩
  rw [leases, OrderedMap.get?_set] at held
  split at held
  · rename_i same
    cases held
    exact same ▸ ⟨lease, found, own.trans named⟩
  · exact ⟨other, held, named⟩

theorem renewLease_tables (ok : renewLease db runId holder leaseMs now = some db') :
    db'.runs = db.runs ∧ SameRecords db db' := by
  unfold renewLease at ok
  split at ok
  · split at ok
    · cases ok
      exact ⟨rfl, rfl, rfl⟩
    · cases ok
  · cases ok

variable {state : ReservationState} {actual estimate : ℤ} {limits : LedgerLimits} {run : ClaimedRun}
  {pc' : Pc}

theorem transition_records (ok : transition db id state actual = some db') :
    SameRecords db db' := by
  unfold transition at ok
  split at ok
  · cases ok
    exact ⟨rfl, rfl⟩
  · cases ok

theorem settle_records {actual : Option Nat} (ok : settle db id actual = some db') :
    SameRecords db db' := by
  obtain ⟨n, -, moved⟩ := Option.bind_eq_some_iff.mp ok
  exact transition_records moved

theorem abandonReservation_records (db : Db) (id : Nat) :
    SameRecords db (abandonReservation db id) := by
  unfold abandonReservation
  cases moved : transition db id .abandoned 0 with
  | none => exact ⟨rfl, rfl⟩
  | some db' => exact transition_records moved

theorem reserve_records
    (ok : reserve limits db runId phase attempt estimate now = .reserved db' id) :
    SameRecords db db' := by
  unfold reserve at ok
  simp only at ok
  split at ok
  · cases ok
  · split at ok
    · cases ok
    · split at ok
      · cases ok
      · cases ok
        exact ⟨rfl, rfl⟩

theorem deleteLease_records (db : Db) (runId holder : Text) :
    SameRecords db (deleteLease db runId holder) := by
  unfold deleteLease
  split
  · split <;> exact ⟨rfl, rfl⟩
  · exact ⟨rfl, rfl⟩

theorem deleteLease_holders (db : Db) (runId holder : Text) :
    KeepsHolders db (deleteLease db runId holder) := by
  rintro r v ⟨lease, held, named⟩
  exact ⟨lease, deleteLease_leases _ _ _ _ _ held, named⟩

theorem recordPhase_eq_some {record : PhaseRecord} (ok : recordPhase db record = some db') :
    db' = { db with phases := db.phases ++ [record] } := by
  unfold recordPhase at ok
  split at ok
  · cases ok
  · exact (Option.some.inj ok).symm

theorem insertDecision_eq_some {question default : Text} {options : List DecisionOption}
    (ok : insertDecision db runId phase attempt question options default = some db') :
    db' = { db with decisions := db.decisions ++
      [⟨db.decisions.length + 1, runId, phase, attempt, question, options, default, none⟩] } := by
  unfold insertDecision at ok
  split at ok
  · cases ok
  · exact (Option.some.inj ok).symm

theorem claimNext_tables (ok : claimNext db holder leaseMs now = some (run, db')) :
    SameRecords db db' := by
  unfold claimNext at ok
  simp only at ok
  split at ok
  · cases ok
  · cases ok
    exact ⟨rfl, rfl⟩

section Steps
variable {ν : Type} (setup : Setup ν) (w : Text) (now : ℤ)

theorem Turn.stay (w : Text) (db : Db) (pc : Pc) : Turn w db pc db pc :=
  .quiet ⟨rfl, rfl⟩ rfl (.refl db) (Or.inr rfl) (Or.inr rfl) (Or.inr rfl) (Or.inl rfl)

theorem Turn.leave {w : Text} (records : SameRecords db db') (runs : db'.runs = db.runs)
    (holders : KeepsHolders db db') (seen : pc'.seen = none) (current : pc'.current = none)
    (working : pc'.working = none) (verdict : pc'.verdict = none) :
    Turn w db pc db' pc' :=
  .quiet records runs holders (Or.inl seen) (Or.inl current) (Or.inl working)
    (Or.inr fun r status told => by rw [verdict] at told; cases told)

theorem Turn.pause {w : Text} {status : RunStatus} (reason : Text) (reservation : Option Nat)
    (plain : isPlainVerdict (some status)) (working : pc.working = some run.id) :
    Turn w db pc db (.terminal run (terminalPatch status reason) reservation) := by
  refine .quiet ⟨rfl, rfl⟩ rfl (.refl db) (Or.inl rfl) (Or.inl rfl) (Or.inr working.symm)
    (Or.inr ?_)
  intro r told same
  cases same
  exact plain

theorem claimStep_turn (world : World) :
    Turn w world.db .idle (claimStep setup w now world).1.db (claimStep setup w now world).2 := by
  unfold claimStep
  split
  · exact .stay w world.db .idle
  · rename_i run db claimed
    obtain ⟨row, found, claimable, runs, leases⟩ := claimNext_eq_some claimed
    refine .claim found claimable (claimNext_tables claimed) runs ?_
    rintro r v ⟨lease, held, named⟩
    rw [leases, OrderedMap.get?_set] at held
    split at held
    · rename_i same
      cases held
      exact Or.inl ⟨same, named.symm⟩
    · rename_i other
      exact Or.inr ⟨other, lease, held, named⟩

theorem phasesStep_turn (run : ClaimedRun) (outputs : Outputs) (rest : List Phase) (world : World) :
    Turn w world.db (.phases run outputs rest) (phasesStep run outputs rest world).1.db
      (phasesStep run outputs rest world).2 := by
  unfold phasesStep
  split
  · exact .finishes rfl
  · split
    · rename_i known
      split
      · exact .skip rfl known
      · exact .skip rfl known
    · rename_i unknown
      split
      · rename_i asked
        exact .waits rfl asked
      · rename_i asked
        exact .start rfl unknown asked

theorem reserveStep_turn (run : ClaimedRun) (outputs : Outputs) (phase : Phase)
    (rest : List Phase) (attempt : Nat) (answer : Option OwnerAnswer) (world : World) :
    Turn w world.db (.reserve run outputs phase rest attempt answer)
      (reserveStep setup now run outputs phase rest attempt answer world).1.db
      (reserveStep setup now run outputs phase rest attempt answer world).2 := by
  unfold reserveStep
  simp only
  split
  · rename_i db id reserved
    have same := reserve_sameRuns reserved
    exact .quiet (reserve_records reserved) same.1 (.of_leases same.2) (Or.inr rfl) (Or.inr rfl)
      (Or.inr rfl) (Or.inl rfl)
  all_goals exact .pause _ _ rfl rfl

theorem beatEnds_turn (work : Work) (world : World) (tries : Nat) (was beat : Beat) :
    Turn w world.db (.call work tries was) (beatEnds work world beat).1.db
      (beatEnds work world beat).2 := by
  cases beat with
  | alive => exact .quiet ⟨rfl, rfl⟩ rfl (.refl _) (Or.inr rfl) (Or.inr rfl) (Or.inr rfl) (Or.inl rfl)
  | leaseLost => exact .leave ⟨rfl, rfl⟩ rfl (.refl _) rfl rfl rfl rfl
  | broken => exact .leave ⟨rfl, rfl⟩ rfl (.refl _) rfl rfl rfl rfl

theorem callStep_turn (work : Work) (tries : Nat) (beat : Beat) (input : Input) (world : World) :
    Turn w world.db (.call work tries beat) (callStep setup w now work tries beat input world).1.db
      (callStep setup w now work tries beat input world).2 := by
  have onward : ∀ pc' : Pc, pc'.seen = (Pc.call work tries beat).seen →
      pc'.current = (Pc.call work tries beat).current →
      pc'.working = (Pc.call work tries beat).working → pc'.verdict = none →
      Turn w world.db (.call work tries beat) world.db pc' :=
    fun pc' seen current working verdict => .quiet ⟨rfl, rfl⟩ rfl (.refl _) (Or.inr seen)
      (Or.inr current) (Or.inr working) (Or.inl verdict)
  unfold callStep
  split
  · split
    · rename_i db renewed
      obtain ⟨runs, records⟩ := renewLease_tables renewed
      exact .quiet records runs (renewLease_holders renewed).2 (Or.inr rfl) (Or.inr rfl) (Or.inr rfl)
        (Or.inl rfl)
    · exact onward _ rfl rfl rfl rfl
  · exact onward _ rfl rfl rfl rfl
  · exact onward _ rfl rfl rfl rfl
  · split
    · exact .pause _ _ rfl rfl
    · exact onward _ rfl rfl rfl rfl
  · exact beatEnds_turn w work world tries _ .leaseLost
  · exact beatEnds_turn w work world tries _ .broken
  · exact beatEnds_turn w work world tries _ .leaseLost
  · exact beatEnds_turn w work world tries _ .broken
  · exact .stay w world.db _

theorem commitStep_turn (work : Work) (text : Text) (tokensUsed : Option Nat) (world : World) :
    Turn w world.db (.commit work text tokensUsed)
      (commitStep setup w now work text tokensUsed world).1.db
      (commitStep setup w now work text tokensUsed world).2 := by
  unfold commitStep
  split
  · exact .leave ⟨rfl, rfl⟩ rfl (.refl _) rfl rfl rfl rfl
  · rename_i db renewed
    obtain ⟨holder, holders⟩ := renewLease_holders renewed
    obtain ⟨runs, records⟩ := renewLease_tables renewed
    split
    · rename_i decision decided
      split
      · exact .leave ⟨rfl, rfl⟩ rfl (.refl _) rfl rfl rfl rfl
      · rename_i db' committed
        obtain ⟨db₁, settled, inserted⟩ := Option.bind_eq_some_iff.mp committed
        have same := settle_sameRuns settled
        have kept := settle_records settled
        obtain rfl := insertDecision_eq_some inserted
        let asked : Decision := ⟨db₁.decisions.length + 1, work.run.id, work.phase, work.attempt,
          decision.question, decision.options, decision.default, none⟩
        have before : db₁.decisions = world.db.decisions := kept.decisions.trans records.decisions
        have decisions : db₁.decisions ++ [asked] = world.db.decisions ++ [asked] := by rw [before]
        have paused : db₁.runs.modify work.run.id
            (terminalPatch .pausedForDecision decision.question).apply = world.db.runs.modify
              work.run.id (terminalPatch .pausedForDecision decision.question).apply := by
          rw [same.1, runs]
        refine .decide rfl holder rfl rfl rfl (congrArg (·.length + 1) before)
          (kept.phases.trans records.phases) decisions paused ?_
        · intro r v held
          exact holders r v (KeepsHolders.of_leases same.2 r v held)
    · split
      · exact .leave ⟨rfl, rfl⟩ rfl (.refl _) rfl rfl rfl rfl
      · rename_i db' committed
        obtain ⟨db₁, recorded, settled⟩ := Option.bind_eq_some_iff.mp committed
        have same := settle_sameRuns settled
        have kept := settle_records settled
        obtain rfl := recordPhase_eq_some recorded
        have phases : db'.phases =
            world.db.phases ++ [⟨work.run.id, work.phase, work.attempt, text, now⟩] := by
          rw [kept.phases, ← records.phases]
        refine .record rfl holder phases (kept.decisions.trans records.decisions)
          (same.1.trans runs) ?_
        · intro r v held
          exact holders r v (KeepsHolders.of_leases same.2 r v held)

theorem terminalStep_turn (run : ClaimedRun) (patch : Patch) (reservation : Option Nat)
    (world : World) :
    Turn w world.db (.terminal run patch reservation)
      (terminalStep setup w now run patch reservation world).1.db
      (terminalStep setup w now run patch reservation world).2 := by
  unfold terminalStep
  split
  · exact .leave ⟨rfl, rfl⟩ rfl (.refl _) rfl rfl rfl rfl
  · rename_i db renewed
    obtain ⟨holder, holders⟩ := renewLease_holders renewed
    obtain ⟨runs, records⟩ := renewLease_tables renewed
    have modified : (updateRun db run.id patch).runs = world.db.runs.modify run.id patch.apply := by
      rw [← runs]
      rfl
    have kept : SameRecords world.db (updateRun db run.id patch) := ⟨records.phases, records.decisions⟩
    cases reservation with
    | none => exact .verdict rfl holder kept modified holders rfl rfl rfl rfl
    | some id => exact .verdict rfl holder kept modified holders rfl rfl rfl rfl

theorem abandon_turn (world : World) (id : Nat) (seen : pc'.seen = none ∨ pc'.seen = pc.seen)
    (current : pc'.current = none ∨ pc'.current = pc.current)
    (working : pc'.working = none ∨ pc'.working = pc.working) (verdict : pc'.verdict = none) :
    Turn w world.db pc (abandonReservation world.db id) pc' :=
  .quiet (abandonReservation_records _ _) (abandonReservation_sameRuns _ _).1
    (.of_leases (abandonReservation_sameRuns _ _).2) seen current working
    (Or.inr fun r status told => by rw [verdict] at told; cases told)

theorem goStep_turn (pc : Pc) (world : World) :
    Turn w world.db pc (goStep setup w now world pc).1.db (goStep setup w now world pc).2 := by
  have onward : ∀ {pc pc' : Pc}, pc'.seen = pc.seen → pc'.current = pc.current →
      pc'.working = pc.working → pc'.verdict = pc.verdict → Turn w world.db pc world.db pc' :=
    fun seen current working verdict => .quiet ⟨rfl, rfl⟩ rfl (.refl _) (Or.inr seen)
      (Or.inr current) (Or.inr working) (Or.inl verdict)
  cases pc with
  | idle => exact claimStep_turn setup w now world
  | sweepStart run => exact onward rfl rfl rfl rfl
  | sweep run ids =>
    cases ids with
    | nil => exact .load run rfl
    | cons id ids => exact abandon_turn w world id (Or.inl rfl) (Or.inl rfl) (Or.inr rfl) rfl
  | phases run outputs rest => exact phasesStep_turn w run outputs rest world
  | attempt run outputs phase rest => exact onward rfl rfl rfl rfl
  | readAnswer run outputs phase rest attempt => exact onward rfl rfl rfl rfl
  | reserve run outputs phase rest attempt answer =>
    exact reserveStep_turn setup w now run outputs phase rest attempt answer world
  | progress work => exact .progress work rfl
  | call work tries beat => exact .stay w world.db _
  | commit work text tokensUsed => exact commitStep_turn setup w now work text tokensUsed world
  | artifact work text => exact onward rfl rfl rfl rfl
  | terminal run patch reservation => exact terminalStep_turn setup w now run patch reservation world
  | abandonOwn run id => exact abandon_turn w world id (Or.inl rfl) (Or.inl rfl) (Or.inl rfl) rfl
  | lost run reservation =>
    cases reservation with
    | none => exact .leave ⟨rfl, rfl⟩ rfl (.refl _) rfl rfl rfl rfl
    | some id => exact abandon_turn w world id (Or.inl rfl) (Or.inl rfl) (Or.inl rfl) rfl
  | finish run =>
    exact .leave (deleteLease_records _ _ _) (deleteLease_runs _ _ _) (deleteLease_holders _ _ _) rfl
      rfl rfl rfl

theorem faultStep_turn (pc : Pc) (world : World) :
    Turn w world.db pc (faultStep world pc).1.db (faultStep world pc).2 := by
  cases pc with
  | idle => exact .stay w world.db _
  | call work tries beat =>
    exact .quiet ⟨rfl, rfl⟩ rfl (.refl _) (Or.inr rfl) (Or.inr rfl) (Or.inr rfl) (Or.inl rfl)
  | reserve run outputs phase rest attempt answer => exact .pause _ _ rfl rfl
  | _ => exact .leave ⟨rfl, rfl⟩ rfl (.refl _) rfl rfl rfl rfl

theorem advance_turn (input : Input) (pc : Pc) (world : World) :
    Turn w world.db pc (advance setup w now input pc world).1.db
      (advance setup w now input pc world).2 := by
  unfold advance
  split
  · exact .leave ⟨rfl, rfl⟩ rfl (.refl _) rfl rfl rfl rfl
  · exact goStep_turn setup w now pc world
  · exact callStep_turn setup w now _ _ _ _ world
  · exact faultStep_turn w pc world
  · exact .stay w world.db _

end Steps

/-- Rows are numbered as they come, and one that has left `reserved` is final. -/
structure LedgerKept (ledger ledger' : List Reservation) : Prop where
  numbered : ledger.map (·.id) = List.range' 1 ledger.length →
    ledger'.map (·.id) = List.range' 1 ledger'.length
  final : ∀ row ∈ ledger, row.state ≠ .reserved → row ∈ ledger'

theorem LedgerKept.refl (ledger : List Reservation) : LedgerKept ledger ledger :=
  ⟨id, fun _ mem _ => mem⟩

theorem LedgerKept.of_eq (same : db'.ledger = db.ledger) :
    LedgerKept db.ledger db'.ledger := by
  rw [same]
  exact .refl _

theorem reserve_ledger
    (ok : reserve limits db runId phase attempt estimate now = .reserved db' id) :
    LedgerKept db.ledger db'.ledger := by
  unfold reserve at ok
  simp only at ok
  split at ok
  · cases ok
  · split at ok
    · cases ok
    · split at ok
      · cases ok
      · cases ok
        constructor
        · intro ids
          simp [ids, range'_concat, Nat.add_comm]
        · intro row mem _
          exact mem_append_left _ mem

theorem transition_ledger (ok : transition db id state actual = some db') :
    LedgerKept db.ledger db'.ledger := by
  unfold transition at ok
  split at ok
  · cases ok
    constructor
    · intro ids
      rw [map_map, length_map, ← ids]
      refine map_congr_left fun row _ => ?_
      show (if _ then _ else row).id = row.id
      split <;> rfl
    · intro row mem final
      refine mem_map.mpr ⟨row, mem, if_neg ?_⟩
      simp [final]
  · cases ok

theorem settle_ledger {actual : Option Nat} (ok : settle db id actual = some db') :
    LedgerKept db.ledger db'.ledger := by
  obtain ⟨n, -, moved⟩ := Option.bind_eq_some_iff.mp ok
  exact transition_ledger moved

theorem abandonReservation_ledger (db : Db) (id : Nat) :
    LedgerKept db.ledger (abandonReservation db id).ledger := by
  unfold abandonReservation
  cases moved : transition db id .abandoned 0 with
  | none => exact .refl _
  | some db' => exact transition_ledger moved

theorem renewLease_ledger (ok : renewLease db runId holder leaseMs now = some db') :
    db'.ledger = db.ledger := by
  unfold renewLease at ok
  split at ok
  · split at ok
    · cases ok
      rfl
    · cases ok
  · cases ok

section Ledger
variable {ν : Type} (setup : Setup ν) (w : Text) (now : ℤ)

theorem commitStep_ledger (work : Work) (text : Text) (tokensUsed : Option Nat) (world : World) :
    LedgerKept world.db.ledger (commitStep setup w now work text tokensUsed world).1.db.ledger := by
  unfold commitStep
  split
  · exact .refl _
  · rename_i db renewed
    have same := renewLease_ledger renewed
    split
    · split
      · exact .refl _
      · rename_i db' committed
        obtain ⟨db₁, settled, inserted⟩ := Option.bind_eq_some_iff.mp committed
        obtain rfl := insertDecision_eq_some inserted
        have kept := settle_ledger settled
        rw [same] at kept
        exact kept
    · split
      · exact .refl _
      · rename_i db' committed
        obtain ⟨db₁, recorded, settled⟩ := Option.bind_eq_some_iff.mp committed
        obtain rfl := recordPhase_eq_some recorded
        have kept := settle_ledger settled
        rw [same] at kept
        exact kept

theorem callStep_ledger (work : Work) (tries : Nat) (beat : Beat) (input : Input) (world : World) :
    LedgerKept world.db.ledger (callStep setup w now work tries beat input world).1.db.ledger := by
  unfold callStep
  split
  · split
    · rename_i db renewed
      exact .of_eq (renewLease_ledger renewed)
    · exact .refl _
  · exact .refl _
  · exact .refl _
  · split <;> exact .refl _
  all_goals exact .refl _

theorem claimStep_ledger (world : World) :
    LedgerKept world.db.ledger (claimStep setup w now world).1.db.ledger := by
  unfold claimStep
  split
  · exact .refl _
  · rename_i run db claimed
    unfold claimNext at claimed
    simp only at claimed
    split at claimed
    · cases claimed
    · cases claimed
      exact .refl _

theorem phasesStep_ledger (run : ClaimedRun) (outputs : Outputs) (rest : List Phase)
    (world : World) :
    LedgerKept world.db.ledger (phasesStep run outputs rest world).1.db.ledger := by
  unfold phasesStep
  split
  · exact .refl _
  · split
    · split <;> exact .refl _
    · split <;> exact .refl _

theorem reserveStep_ledger (run : ClaimedRun) (outputs : Outputs) (phase : Phase)
    (rest : List Phase) (attempt : Nat) (answer : Option OwnerAnswer) (world : World) :
    LedgerKept world.db.ledger
      (reserveStep setup now run outputs phase rest attempt answer world).1.db.ledger := by
  unfold reserveStep
  simp only
  split
  · rename_i db id reserved
    exact reserve_ledger reserved
  all_goals exact .refl _

theorem terminalStep_ledger (run : ClaimedRun) (patch : Patch) (reservation : Option Nat)
    (world : World) :
    LedgerKept world.db.ledger
      (terminalStep setup w now run patch reservation world).1.db.ledger := by
  unfold terminalStep
  split
  · exact .refl _
  · rename_i db renewed
    have kept : LedgerKept world.db.ledger db.ledger := .of_eq (renewLease_ledger renewed)
    exact kept

theorem deleteLease_ledger (db : Db) (runId holder : Text) :
    LedgerKept db.ledger (deleteLease db runId holder).ledger := by
  unfold deleteLease
  split
  · split <;> exact .refl _
  · exact .refl _

theorem goStep_ledger (pc : Pc) (world : World) :
    LedgerKept world.db.ledger (goStep setup w now world pc).1.db.ledger := by
  cases pc with
  | idle => exact claimStep_ledger setup w now world
  | sweep run ids =>
    cases ids with
    | nil => exact .refl _
    | cons id ids => exact abandonReservation_ledger _ _
  | phases run outputs rest => exact phasesStep_ledger run outputs rest world
  | reserve run outputs phase rest attempt answer =>
    exact reserveStep_ledger setup now run outputs phase rest attempt answer world
  | commit work text tokensUsed => exact commitStep_ledger setup w now work text tokensUsed world
  | terminal run patch reservation => exact terminalStep_ledger setup w now run patch reservation world
  | abandonOwn run id => exact abandonReservation_ledger _ _
  | lost run reservation =>
    cases reservation with
    | none => exact .refl _
    | some id => exact abandonReservation_ledger _ _
  | finish run => exact deleteLease_ledger _ _ _
  | _ => exact .refl _

theorem advance_ledger (input : Input) (pc : Pc) (world : World) :
    LedgerKept world.db.ledger (advance setup w now input pc world).1.db.ledger := by
  unfold advance
  split
  · exact .refl _
  · exact goStep_ledger setup w now pc world
  · exact callStep_ledger setup w now _ _ _ _ world
  · cases pc <;> exact .refl _
  · exact .refl _

end Ledger

end Ultrathink.Source.Worker
