import Ultrathink.Source.Cost.Ledger
import Mathlib.Data.List.Nodup

/-!
# The ceilings of the token ledger

Over every order of reservations, settlements and abandonments, from an empty table, with no
settlement above its reservation: no run and no day counts more than its ceiling, a reservation
leaves its state at most once, and to abandon one changes no total.
-/

namespace Ultrathink.Guarantees.LedgerCeilings

open List Library JsText Runs Source.Cost.Ledger

variable {limits : LedgerLimits} {dayOf : ℤ → Option Text}

def after (limits : LedgerLimits) (dayOf : ℤ → Option Text) (calls : List Call) : Table :=
  runInputs (step limits dayOf) emptyTable calls

def trace (limits : LedgerLimits) (dayOf : ℤ → Option Text) (calls : List Call) :
    List (Step Table Call) := traceOf (step limits dayOf) emptyTable calls

/-- A settlement is not above what its row reserved. -/
def WithinReservation (x : Step Table Call) : Prop :=
  match x.label with
  | .settle id actual _ => ∀ row ∈ x.before.rows, row.id = id → actual ≤ row.reservedTokens
  | _ => True

instance : DecidablePred WithinReservation
  | ⟨t, .settle id actual _, _⟩ =>
    inferInstanceAs (Decidable (∀ row ∈ t.rows, row.id = id → actual ≤ row.reservedTokens))
  | ⟨_, .reserve _ _ _, _⟩ => .isTrue trivial
  | ⟨_, .abandon _ _, _⟩ => .isTrue trivial

/-- The call takes the row of `id` out of the reserved state. -/
def leavesReserved (id : Nat) (x : Step Table Call) : Bool :=
  x.before.rows.any (isReserved id) && !x.after.rows.any (isReserved id)

theorem sumSpent_append (rows : List Row) (row : Row) (counts : Row → Bool) :
    sumSpent (rows ++ [row]) counts =
      sumSpent rows counts + if counts row then row.counted else 0 := by
  rw [sumSpent, filter_append, map_append, sum_append, sumSpent]
  cases given : counts row with
  | true => simp [given]
  | false => simp [given]

variable {t : Table} {id : Nat} {state : RowState} {rows : List Row} {f : Row → Row}
  {counts : Row → Bool} {row : Row} {actual : Option Nat}

theorem sumSpent_map_le (same : ∀ row ∈ rows, counts (f row) = counts row)
    (lower : ∀ row ∈ rows, (f row).counted ≤ row.counted) :
    sumSpent (rows.map f) counts ≤ sumSpent rows counts := by
  induction rows with
  | nil => exact Nat.le_refl _
  | cons row rest ih =>
    have later := ih (fun r mem => same r (mem_cons_of_mem _ mem))
      (fun r mem => lower r (mem_cons_of_mem _ mem))
    have here := lower row mem_cons_self
    simp only [sumSpent, map_cons, filter_cons, same row mem_cons_self] at *
    split
    · simp only [map_cons, sum_cons]
      omega
    · exact later

theorem sumSpent_map_eq (same : ∀ row ∈ rows, counts (f row) = counts row)
    (kept : ∀ row ∈ rows, (f row).counted = row.counted) :
    sumSpent (rows.map f) counts = sumSpent rows counts := by
  induction rows with
  | nil => rfl
  | cons row rest ih =>
    have later := ih (fun r mem => same r (mem_cons_of_mem _ mem))
      (fun r mem => kept r (mem_cons_of_mem _ mem))
    have here := kept row mem_cons_self
    simp only [sumSpent, map_cons, filter_cons, same row mem_cons_self] at *
    split
    · simp only [map_cons, sum_cons, here, later]
    · exact later

theorem moved_frame (id : Nat) (state : RowState) (actual : Option Nat) (row : Row) :
    (moved id state actual row).id = row.id ∧ (moved id state actual row).runId = row.runId ∧
      (moved id state actual row).day = row.day := by
  unfold moved
  split <;> exact ⟨rfl, rfl, rfl⟩

theorem counted_abandoned (id : Nat) (row : Row) :
    (moved id .abandoned none row).counted = row.counted := by
  unfold moved
  split
  · next reserved =>
    have state : row.state = .reserved := by
      simp only [isReserved, Bool.and_eq_true, decide_eq_true_eq] at reserved
      exact reserved.2
    simp only [Row.counted, state]
  · rfl

theorem counted_settled {actual : Nat} (within : row.id = id → actual ≤ row.reservedTokens) :
    (moved id .settled (some actual) row).counted ≤ row.counted := by
  unfold moved
  split
  · next reserved =>
    simp only [isReserved, Bool.and_eq_true, decide_eq_true_eq] at reserved
    simp only [Row.counted, reserved.2]
    exact within reserved.1
  · exact Nat.le_refl _

structure Inv (limits : LedgerLimits) (t : Table) : Prop where
  run : ∀ runId, spentForRun t runId ≤ limits.runTokenCeiling
  day : ∀ day, spentForDay t day ≤ limits.dailyTokenCeiling
  known : ∀ row ∈ t.rows, row.id ≤ t.lastId
  ids : (t.rows.map Row.id).Nodup

theorem inv_empty : Inv limits emptyTable where
  run := fun _ => Nat.zero_le _
  day := fun _ => Nat.zero_le _
  known := fun _ mem => absurd mem not_mem_nil
  ids := .nil

theorem inv_insert {input : ReserveInput} {day : Text} (inv : Inv limits t)
    (run : spentForRun t input.runId + input.estimatedTokens.toNat ≤ limits.runTokenCeiling)
    (daily : spentForDay t day + input.estimatedTokens.toNat ≤ limits.dailyTokenCeiling) :
    Inv limits (insertReservation input day t) := by
  constructor
  · intro runId
    have before := inv.run runId
    rw [spentForRun, insertReservation, sumSpent_append]
    split
    · next mine =>
      rw [← of_decide_eq_true mine]
      exact run
    · exact before
  · intro other
    have before := inv.day other
    rw [spentForDay, insertReservation, sumSpent_append]
    split
    · next mine =>
      rw [← of_decide_eq_true mine]
      exact daily
    · exact before
  · intro row mem
    rcases mem_append.mp mem with old | new
    · exact Nat.le_succ_of_le (inv.known row old)
    · rw [mem_singleton.mp new]
      exact Nat.le_refl _
  · rw [insertReservation, map_append, nodup_append]
    refine ⟨inv.ids, nodup_singleton _, ?_⟩
    intro a old b new same
    obtain ⟨row, mem, rfl⟩ := mem_map.mp old
    have fresh : b = t.lastId + 1 := mem_singleton.mp new
    have bound := inv.known row mem
    omega

theorem inv_moved (inv : Inv limits t)
    (lower : ∀ row ∈ t.rows, (moved id state actual row).counted ≤ row.counted) :
    Inv limits ⟨t.rows.map (moved id state actual), t.lastId⟩ := by
  constructor
  · intro runId
    refine Nat.le_trans (sumSpent_map_le (fun row _ => ?_) lower) (inv.run runId)
    rw [(moved_frame id state actual row).2.1]
  · intro day
    refine Nat.le_trans (sumSpent_map_le (fun row _ => ?_) lower) (inv.day day)
    rw [(moved_frame id state actual row).2.2]
  · intro row mem
    obtain ⟨old, inRows, rfl⟩ := mem_map.mp mem
    rw [(moved_frame id state actual old).1]
    exact inv.known old inRows
  · have same : (t.rows.map (moved id state actual)).map Row.id = t.rows.map Row.id := by
      rw [map_map]
      exact map_congr_left fun row _ => (moved_frame id state actual row).1
    rw [same]
    exact inv.ids

theorem inv_step {c : Call} (inv : Inv limits t)
    (within : WithinReservation ⟨t, c, step limits dayOf t c⟩) :
    Inv limits (step limits dayOf t c) := by
  unfold step call
  cases c with
  | reserve input at_ stored =>
    dsimp only
    rcases @reserve_cases limits dayOf input at_ stored t with
      same | ⟨day, -, run, daily, same⟩
    · rw [same]
      exact inv
    · rw [same]
      exact inv_insert inv run daily
  | settle id actual stored =>
    dsimp only
    rcases settle_cases id actual stored t with same | same
    · rw [same]
      exact inv
    · rw [same]
      refine inv_moved inv fun row mem => counted_settled fun mine => ?_
      have bound := within row mem mine
      omega
  | abandon id stored =>
    dsimp only [abandon]
    rcases transition_cases id .abandoned none stored t with same | same
    · rw [same]
      exact inv
    · rw [same]
      exact inv_moved inv fun row _ => Nat.le_of_eq (counted_abandoned id row)

def isClosed (id : Nat) (row : Row) : Bool := row.id = id && row.state ≠ .reserved

/-- The rows of the id that were settled or abandoned. -/
def closed (id : Nat) (t : Table) : Nat := t.rows.countP (isClosed id)

theorem closed_le_one (inv : Inv limits t) (id : Nat) : closed id t ≤ 1 := by
  have once := nodup_iff_count_le_one.mp inv.ids id
  rw [List.count, countP_map] at once
  refine Nat.le_trans (countP_mono_left fun row _ yes => ?_) once
  simp only [isClosed, Bool.and_eq_true, decide_eq_true_eq] at yes
  exact beq_iff_eq.mpr yes.1

theorem isClosed_moved {other : Nat} (yes : isClosed id row = true) :
    moved other state actual row = row := by
  simp only [isClosed, Bool.and_eq_true, decide_eq_true_eq] at yes
  refine if_neg fun reserved => ?_
  simp only [isReserved, Bool.and_eq_true, decide_eq_true_eq] at reserved
  exact yes.2 reserved.2

theorem countP_map_lt {α : Type} {p : α → Bool} {f : α → α} {l : List α}
    (keeps : ∀ a ∈ l, p a = true → p (f a) = true) {a : α} (mem : a ∈ l) (before : p a = false)
    (after : p (f a) = true) : l.countP p + 1 ≤ (l.map f).countP p := by
  have le (rest : List α) (sub : rest ⊆ l) : rest.countP p ≤ (rest.map f).countP p := by
    rw [countP_map]
    exact countP_mono_left fun b inRest yes => keeps b (sub inRest) yes
  obtain ⟨front, back, rfl⟩ := append_of_mem mem
  have frontLe := le front (subset_append_left _ _)
  have backLe := le back fun b inBack => mem_append_right _ (mem_cons_of_mem _ inBack)
  simp only [map_append, map_cons, countP_append, countP_cons, before, after,
    Bool.false_eq_true, if_false, if_true]
  omega

theorem closed_moved (id other : Nat) (actual : Option Nat) (rows : List Row) (lastId : Nat) :
    closed id ⟨rows, lastId⟩ + (if rows.any (isReserved id) &&
        !(rows.map (moved other state actual)).any (isReserved id) then 1 else 0) ≤
      closed id ⟨rows.map (moved other state actual), lastId⟩ := by
  have keeps : ∀ row ∈ rows, isClosed id row = true →
      isClosed id (moved other state actual row) = true := by
    intro row _ yes
    rw [isClosed_moved yes]
    exact yes
  split
  · next leaves =>
    simp only [Bool.and_eq_true, Bool.not_eq_true', any_eq_false, any_eq_true] at leaves
    obtain ⟨⟨row, mem, reserved⟩, none_⟩ := leaves
    have gone := none_ _ (mem_map_of_mem mem)
    have frame := (moved_frame other state actual row).1
    simp only [isReserved, Bool.and_eq_true, decide_eq_true_eq] at reserved gone
    have unclosed : isClosed id row = false := by simp [isClosed, reserved.2]
    have nowClosed : isClosed id (moved other state actual row) = true := by
      simp only [isClosed, Bool.and_eq_true, decide_eq_true_eq]
      exact ⟨frame.trans reserved.1, fun still => gone ⟨frame.trans reserved.1, still⟩⟩
    exact countP_map_lt keeps mem unclosed nowClosed
  · rw [closed, closed, countP_map]
    exact countP_mono_left keeps

/-- Each call that takes the row out of the reserved state closes one, and none opens one again. -/
theorem closed_step (id : Nat) (t : Table) (c : Call) :
    closed id t + (if leavesReserved id ⟨t, c, step limits dayOf t c⟩ then 1 else 0) ≤
      closed id (step limits dayOf t c) := by
  have still {t : Table} {c : Call} (same : step limits dayOf t c = t) :
      closed id t + (if leavesReserved id ⟨t, c, step limits dayOf t c⟩ then 1 else 0) ≤
        closed id (step limits dayOf t c) := by
    rw [same]
    simp [leavesReserved]
  cases c with
  | reserve input at_ stored =>
    rcases @reserve_cases limits dayOf input at_ stored t with
      same | ⟨day, -, -, -, same⟩
    · exact still same
    · rw [show step limits dayOf t (.reserve input at_ stored) = insertReservation input day t from
        same]
      have stays : leavesReserved id ⟨t, .reserve input at_ stored,
          insertReservation input day t⟩ = false := by
        cases before : t.rows.any (isReserved id) with
        | false => simp [leavesReserved, before]
        | true => simp [leavesReserved, before, insertReservation]
      rw [stays, closed, closed, insertReservation, countP_append]
      exact Nat.le_add_right _ _
  | settle other actual stored =>
    rcases settle_cases other actual stored t with same | same
    · exact still same
    · rw [show step limits dayOf t (.settle other actual stored) = _ from same]
      exact closed_moved id other _ t.rows t.lastId
  | abandon other stored =>
    rcases transition_cases other .abandoned none stored t with same | same
    · exact still same
    · rw [show step limits dayOf t (.abandon other stored) = _ from same]
      exact closed_moved id other _ t.rows t.lastId

def system (limits : LedgerLimits) (dayOf : ℤ → Option Text) : System Table Call :=
  ⟨fun t => t = emptyTable, fun t c t' => t' = step limits dayOf t c⟩

theorem run_trace (limits : LedgerLimits) (dayOf : ℤ → Option Text) (calls : List Call) :
    (system limits dayOf).Run emptyTable (trace limits dayOf calls) (after limits dayOf calls) :=
  run_traceOf (fun _ _ => rfl) emptyTable calls

theorem inv_after {calls : List Call}
    (within : ∀ x ∈ trace limits dayOf calls, WithinReservation x) :
    Inv limits (after limits dayOf calls) := by
  refine (run_trace limits dayOf calls).invariant_of (Inv limits) WithinReservation inv_empty ?_
    within
  rintro t c _ rfl met inv
  exact inv_step inv met

theorem abandon_spent (id : Nat) (stored : Bool) (t : Table) (counts : Row → Bool)
    (same : ∀ row, counts (moved id .abandoned none row) = counts row) :
    sumSpent (abandon id stored t).1.rows counts = sumSpent t.rows counts := by
  unfold abandon
  rcases transition_cases id .abandoned none stored t with unchanged | written
  · rw [unchanged]
  · rw [written]
    exact sumSpent_map_eq (fun row _ => same row) fun row _ => counted_abandoned id row

/-- Ceilings hold, a reservation is left at most once, and an abandoned one keeps counting. -/
theorem ledger_ceilings (limits : LedgerLimits) (dayOf : ℤ → Option Text) (calls : List Call)
    (within : ∀ x ∈ trace limits dayOf calls, WithinReservation x) :
    (∀ runId, spentForRun (after limits dayOf calls) runId ≤ limits.runTokenCeiling) ∧
    (∀ day, spentForDay (after limits dayOf calls) day ≤ limits.dailyTokenCeiling) ∧
    (∀ id, (trace limits dayOf calls).countP (leavesReserved id) ≤ 1) ∧
    ∀ id stored runId day,
      spentForRun (abandon id stored (after limits dayOf calls)).1 runId =
        spentForRun (after limits dayOf calls) runId ∧
      spentForDay (abandon id stored (after limits dayOf calls)).1 day =
        spentForDay (after limits dayOf calls) day := by
  have inv := inv_after within
  refine ⟨inv.run, inv.day, fun id => ?_, fun id stored runId day => ⟨?_, ?_⟩⟩
  · have left_ := (run_trace limits dayOf calls).countP_le (closed id) (leavesReserved id) (by
      rintro t c _ rfl
      exact closed_step id t c)
    have once := closed_le_one inv id
    omega
  · refine abandon_spent id stored _ _ fun row => ?_
    rw [(moved_frame id .abandoned none row).2.1]
  · refine abandon_spent id stored _ _ fun row => ?_
    rw [(moved_frame id .abandoned none row).2.2]

/-- A reservation of 60, settled at 50, makes room in a ceiling of 100 for one of 50 and no more. -/
theorem ledger_ceilings_two_calls :
    let calls : List Call := [.reserve ⟨js "run-1", js "plan", 1, 60⟩ 0 true, .settle 1 50 true,
      .reserve ⟨js "run-1", js "plan", 2, 50⟩ 0 true,
      .reserve ⟨js "run-1", js "plan", 3, 1⟩ 0 true]
    let dayOf : ℤ → Option Text := fun _ => some (js "1970-01-01")
    spentForRun (after ⟨100, 1000⟩ dayOf calls) (js "run-1") ≤ 100 ∧
      spentForRun (after ⟨100, 1000⟩ dayOf calls) (js "run-1") = 100 := by
  intro calls dayOf
  have within : ∀ x ∈ trace ⟨100, 1000⟩ dayOf calls, WithinReservation x := by decide
  exact ⟨(ledger_ceilings ⟨100, 1000⟩ dayOf calls within).1 _, by decide⟩

end Ultrathink.Guarantees.LedgerCeilings
