import Ultrathink.Source.Worker.Machine

/-!
# What one worker step does to runs and leases

`advance_effect` says once, for every point and every input, how a step changes
the `runs` and `run_leases` tables: a claim, a renewal, a release, the progress
status, or a status written behind a renewal in the same transaction.
-/

namespace Ultrathink.Source.Worker

open Library JsText Source.Store

/-- The run whose status a worker at this point may still write. -/
def Pc.working : Pc → Option Text
  | .idle => none
  | .sweepStart run => some run.id
  | .sweep run _ => some run.id
  | .phases run _ _ => some run.id
  | .attempt run _ _ _ => some run.id
  | .readAnswer run _ _ _ _ => some run.id
  | .reserve run _ _ _ _ _ => some run.id
  | .progress work => some work.run.id
  | .call work _ _ => some work.run.id
  | .commit work _ _ => some work.run.id
  | .artifact work _ => some work.run.id
  | .terminal run _ _ => some run.id
  | .abandonOwn _ _ => none
  | .lost _ _ => none
  | .finish _ => none

inductive Effect (w : Text) (now leaseMs : ℤ) (input : Input) (pc : Pc) (db : Db) : Db → Pc → Prop
  /-- Neither table changes; the worker stays on its run or stops writing. -/
  | quiet {db' : Db} {pc' : Pc} (same : SameRuns db db')
      (stays : pc'.working = pc.working ∨ pc'.working = none) : Effect w now leaseMs input pc db db' pc'
  | claimed {db' : Db} {pc' : Pc} {r : Text} {row : Run} (found : db.runs.get? r = some row)
      (claimable : isClaimable row.status = true) (runs : db'.runs = db.runs)
      (leases : db'.leases = db.leases.set r ⟨w, now + leaseMs⟩) (working : pc'.working = some r) :
      Effect w now leaseMs input pc db db' pc'
  | renewed {db' : Db} {pc' : Pc} {r : Text} {lease : Lease} (on : pc.working = some r)
      (found : db.leases.get? r = some lease) (own : lease.holder = w) (runs : db'.runs = db.runs)
      (leases : db'.leases = db.leases.set r ⟨w, now + leaseMs⟩)
      (stays : pc'.working = pc.working ∨ pc'.working = none) : Effect w now leaseMs input pc db db' pc'
  | released {db' : Db} {pc' : Pc} (runs : db'.runs = db.runs)
      (fewer : ∀ key lease, db'.leases.get? key = some lease → db.leases.get? key = some lease)
      (stops : pc'.working = none) : Effect w now leaseMs input pc db db' pc'
  | progressed (work : Work) (at_ : pc = .progress work) (sent : input = .go) :
      Effect w now leaseMs input pc db (updateRun db work.run.id (progressPatch work.phase))
        (.call work 0 .alive)
  | fenced {db' : Db} {pc' : Pc} {r : Text} {lease : Lease} (patch : Patch)
      (on : pc.working = some r) (found : db.leases.get? r = some lease) (own : lease.holder = w)
      (runs : db'.runs = db.runs.modify r patch.apply)
      (leases : db'.leases = db.leases.set r ⟨w, now + leaseMs⟩) (stops : pc'.working = none) :
      Effect w now leaseMs input pc db db' pc'

section Steps
variable {ν : Type} (setup : Setup ν) (w : Text) (now : ℤ)

theorem claimStep_effect (input : Input) (world : World) :
    Effect w now (setup.leaseMs w) input .idle world.db (claimStep setup w now world).1.db
      (claimStep setup w now world).2 := by
  unfold claimStep
  split
  · exact .quiet (.refl _) (Or.inl rfl)
  · rename_i run db claimed
    obtain ⟨row, found, claimable, runs, leases⟩ := claimNext_eq_some claimed
    exact .claimed found claimable runs leases rfl

theorem phasesStep_effect (input : Input) (run : ClaimedRun) (outputs : Outputs)
    (rest : List Phase) (world : World) :
    Effect w now (setup.leaseMs w) input (.phases run outputs rest) world.db
      (phasesStep run outputs rest world).1.db (phasesStep run outputs rest world).2 := by
  unfold phasesStep
  split
  · exact .quiet (.refl _) (Or.inl rfl)
  · split
    · split <;> exact .quiet (.refl _) (Or.inl rfl)
    · split <;> exact .quiet (.refl _) (Or.inl rfl)

theorem reserveStep_effect (input : Input) (run : ClaimedRun) (outputs : Outputs) (phase : Phase)
    (rest : List Phase) (attempt : Nat) (answer : Option OwnerAnswer) (world : World) :
    Effect w now (setup.leaseMs w) input (.reserve run outputs phase rest attempt answer) world.db
      (reserveStep setup now run outputs phase rest attempt answer world).1.db
      (reserveStep setup now run outputs phase rest attempt answer world).2 := by
  unfold reserveStep
  simp only
  split
  · rename_i db id reserved
    exact .quiet (reserve_sameRuns reserved) (Or.inl rfl)
  all_goals exact .quiet (.refl _) (Or.inl rfl)

theorem callStep_effect (work : Work) (tries : Nat) (beat : Beat) (input : Input) (world : World) :
    Effect w now (setup.leaseMs w) input (.call work tries beat) world.db
      (callStep setup w now work tries beat input world).1.db
      (callStep setup w now work tries beat input world).2 := by
  unfold callStep
  split
  · split
    · rename_i db renewed
      obtain ⟨lease, found, own, runs, leases⟩ := renewLease_eq_some renewed
      exact .renewed rfl found own runs leases (Or.inl rfl)
    · exact .quiet (.refl _) (Or.inl rfl)
  · exact .quiet (.refl _) (Or.inl rfl)
  · exact .quiet (.refl _) (Or.inl rfl)
  · split <;> exact .quiet (.refl _) (Or.inl rfl)
  all_goals first
    | exact .quiet (.refl _) (Or.inl rfl)
    | exact .quiet (.refl _) (Or.inr rfl)

theorem commitStep_effect (input : Input) (work : Work) (text : Text) (tokensUsed : Option Nat)
    (world : World) :
    Effect w now (setup.leaseMs w) input (.commit work text tokensUsed) world.db
      (commitStep setup w now work text tokensUsed world).1.db
      (commitStep setup w now work text tokensUsed world).2 := by
  unfold commitStep
  split
  · exact .quiet (.refl _) (Or.inr rfl)
  · rename_i db renewed
    obtain ⟨lease, found, own, runs, leases⟩ := renewLease_eq_some renewed
    split
    · rename_i decision decided
      split
      · exact .quiet (.refl _) (Or.inr rfl)
      · rename_i db' committed
        obtain ⟨db₁, settled, inserted⟩ := Option.bind_eq_some_iff.mp committed
        have same := (settle_sameRuns settled).trans (insertDecision_sameRuns inserted)
        refine .fenced (terminalPatch .pausedForDecision decision.question) rfl found own ?_
          (same.2.trans leases) rfl
        rw [← runs, ← same.1]
        rfl
    · split
      · exact .quiet (.refl _) (Or.inr rfl)
      · rename_i db' committed
        obtain ⟨db₁, recorded, settled⟩ := Option.bind_eq_some_iff.mp committed
        have same := (recordPhase_sameRuns recorded).trans (settle_sameRuns settled)
        exact .renewed rfl found own (same.1.trans runs) (same.2.trans leases) (Or.inl rfl)

theorem terminalStep_effect (input : Input) (run : ClaimedRun) (patch : Patch)
    (reservation : Option Nat) (world : World) :
    Effect w now (setup.leaseMs w) input (.terminal run patch reservation) world.db
      (terminalStep setup w now run patch reservation world).1.db
      (terminalStep setup w now run patch reservation world).2 := by
  unfold terminalStep
  split
  · exact .quiet (.refl _) (Or.inr rfl)
  · rename_i db renewed
    obtain ⟨lease, found, own, runs, leases⟩ := renewLease_eq_some renewed
    refine .fenced patch rfl found own ?_ leases ?_
    · rw [← runs]
      rfl
    · cases reservation <;> rfl

theorem goStep_effect (pc : Pc) (world : World) :
    Effect w now (setup.leaseMs w) .go pc world.db (goStep setup w now world pc).1.db
      (goStep setup w now world pc).2 := by
  cases pc with
  | idle => exact claimStep_effect setup w now .go world
  | sweepStart run => exact .quiet (.refl _) (Or.inl rfl)
  | sweep run ids =>
    cases ids with
    | nil => exact .quiet (.refl _) (Or.inl rfl)
    | cons id ids => exact .quiet (abandonReservation_sameRuns _ _) (Or.inl rfl)
  | phases run outputs rest => exact phasesStep_effect setup w now .go run outputs rest world
  | attempt run outputs phase rest => exact .quiet (.refl _) (Or.inl rfl)
  | readAnswer run outputs phase rest attempt => exact .quiet (.refl _) (Or.inl rfl)
  | reserve run outputs phase rest attempt answer =>
    exact reserveStep_effect setup w now .go run outputs phase rest attempt answer world
  | progress work => exact .progressed work rfl rfl
  | call work tries beat => exact .quiet (.refl _) (Or.inl rfl)
  | commit work text tokensUsed => exact commitStep_effect setup w now .go work text tokensUsed world
  | artifact work text => exact .quiet (.refl _) (Or.inl rfl)
  | terminal run patch reservation =>
    exact terminalStep_effect setup w now .go run patch reservation world
  | abandonOwn run id => exact .quiet (abandonReservation_sameRuns _ _) (Or.inl rfl)
  | lost run reservation =>
    cases reservation with
    | none => exact .quiet (.refl _) (Or.inl rfl)
    | some id => exact .quiet (abandonReservation_sameRuns _ _) (Or.inl rfl)
  | finish run => exact .released (deleteLease_runs _ _ _) (deleteLease_leases _ _ _) rfl

theorem faultStep_effect (input : Input) (pc : Pc) (world : World) :
    Effect w now (setup.leaseMs w) input pc world.db (faultStep world pc).1.db
      (faultStep world pc).2 := by
  cases pc <;> first
    | exact .quiet (.refl _) (Or.inl rfl)
    | exact .quiet (.refl _) (Or.inr rfl)

theorem advance_effect (input : Input) (pc : Pc) (world : World) :
    Effect w now (setup.leaseMs w) input pc world.db (advance setup w now input pc world).1.db
      (advance setup w now input pc world).2 := by
  unfold advance
  split
  · exact .quiet (.refl _) (Or.inr rfl)
  · exact goStep_effect setup w now pc world
  · exact callStep_effect setup w now _ _ _ _ world
  · exact faultStep_effect setup w now _ pc world
  · exact .quiet (.refl _) (Or.inl rfl)

end Steps

/-- The owner's answer leaves the leases alone and moves no run but one that waits. -/
theorem answerDecision_effect (db : Db) (runId ownerId answer : Text) :
    (answerDecision db runId ownerId answer).2.leases = db.leases ∧
      ((answerDecision db runId ownerId answer).2.runs = db.runs ∨
        ∃ row, db.runs.get? runId = some row ∧ row.status = .pausedForDecision ∧
          (answerDecision db runId ownerId answer).2.runs =
            db.runs.modify runId (Patch.apply ⟨some .queued, none, some none⟩)) := by
  unfold answerDecision
  split
  · exact ⟨rfl, Or.inl rfl⟩
  · rename_i row found
    have present : db.runs.get? runId = some row := (Option.filter_eq_some_iff.mp found).1
    split
    · exact ⟨rfl, Or.inl rfl⟩
    · rename_i waiting
      have paused : row.status = .pausedForDecision := by simpa using waiting
      split
      · exact ⟨rfl, Or.inl rfl⟩
      · split
        · exact ⟨rfl, Or.inl rfl⟩
        · exact ⟨rfl, Or.inr ⟨row, present, paused, rfl⟩⟩

end Ultrathink.Source.Worker
