import Mathlib.Algebra.GroupWithZero.Nat
import Ultrathink.Library.JsText
import Ultrathink.Library.Runs

/-!
# Token ledger

`createLedger` of `cost/ledger.ts`: the rows of `token_ledger` and the three calls that write
them, each one transaction. A write that the database refuses for a reason of its own (a missing
run, a full disk) is a call with `stored` false. The day of a clock reading is that of
`Date.prototype.toISOString`, which throws on a reading outside its range.
-/

namespace Ultrathink.Source.Cost.Ledger

open Library JsText

inductive RowState where
  | reserved
  | settled
  | abandoned
  deriving DecidableEq

structure Row where
  id : Nat
  runId : Text
  phase : Text
  attempt : ℤ
  day : Text
  reservedTokens : Nat
  actualTokens : Option Nat
  state : RowState
  deriving DecidableEq

/-- `lastId` is the sequence of `AUTOINCREMENT`. -/
structure Table where
  rows : List Row
  lastId : Nat

structure LedgerLimits where
  runTokenCeiling : Nat
  dailyTokenCeiling : Nat

inductive CeilingReason where
  | run
  | day
  deriving DecidableEq

inductive Outcome where
  | reservation (id : Nat)
  | done
  | badAmount
  | ceiling (reason : CeilingReason)
  | writeError
  | notReserved
  deriving DecidableEq

structure ReserveInput where
  runId : Text
  phase : Text
  attempt : ℤ
  estimatedTokens : ℤ

inductive Call where
  | reserve (input : ReserveInput) (at_ : ℤ) (stored : Bool)
  | settle (reservationId : Nat) (actualTokens : ℤ) (stored : Bool)
  | abandon (reservationId : Nat) (stored : Bool)

def emptyTable : Table := ⟨[], 0⟩

def maxSafeInteger : ℤ := 9007199254740991

/-- Settled rows count their actual usage, the others what they reserved. -/
def Row.counted (row : Row) : Nat :=
  match row.state with
  | .settled => row.actualTokens.getD 0
  | _ => row.reservedTokens

def sumSpent (rows : List Row) (counts : Row → Bool) : Nat :=
  ((rows.filter counts).map Row.counted).sum

def spentForRun (t : Table) (runId : Text) : Nat := sumSpent t.rows fun row => row.runId = runId

def spentForDay (t : Table) (day : Text) : Nat := sumSpent t.rows fun row => row.day = day

def insertReservation (input : ReserveInput) (day : Text) (t : Table) : Table :=
  ⟨t.rows ++ [⟨t.lastId + 1, input.runId, input.phase, input.attempt, day,
    input.estimatedTokens.toNat, none, .reserved⟩], t.lastId + 1⟩

/-- `UNIQUE(run_id, phase, attempt)` -/
def isTaken (input : ReserveInput) (t : Table) : Bool :=
  t.rows.any fun row =>
    row.runId = input.runId && row.phase = input.phase && row.attempt = input.attempt

section
variable (limits : LedgerLimits) (dayOf : ℤ → Option Text)

def reserve (input : ReserveInput) (at_ : ℤ) (stored : Bool) (t : Table) : Table × Outcome :=
  if input.estimatedTokens ≤ 0 ∨ maxSafeInteger < input.estimatedTokens then (t, .badAmount)
  else
    let estimate := input.estimatedTokens.toNat
    match dayOf at_ with
    | none => (t, .writeError)
    | some day =>
      if limits.runTokenCeiling < spentForRun t input.runId + estimate then (t, .ceiling .run)
      else if limits.dailyTokenCeiling < spentForDay t day + estimate then (t, .ceiling .day)
      else if !stored || isTaken input t then (t, .writeError)
      else (insertReservation input day t, .reservation (t.lastId + 1))

def isReserved (id : Nat) (row : Row) : Bool := row.id = id && row.state = .reserved

/-- `UPDATE token_ledger SET state = ?, actual_tokens = ? WHERE id = ? AND state = 'reserved'` -/
def transition (id : Nat) (state : RowState) (actual : Option Nat) (stored : Bool) (t : Table) :
    Table × Outcome :=
  if !stored then (t, .writeError)
  else
    (⟨t.rows.map fun row =>
        if isReserved id row then { row with state := state, actualTokens := actual } else row,
      t.lastId⟩,
      if t.rows.countP (isReserved id) = 1 then .done else .notReserved)

def settle (id : Nat) (actual : ℤ) (stored : Bool) (t : Table) : Table × Outcome :=
  if actual < 0 ∨ maxSafeInteger < actual then (t, .badAmount)
  else transition id .settled (some actual.toNat) stored t

def abandon (id : Nat) (stored : Bool) (t : Table) : Table × Outcome :=
  transition id .abandoned none stored t

def call (t : Table) : Call → Table × Outcome
  | .reserve input at_ stored => reserve limits dayOf input at_ stored t
  | .settle id actual stored => settle id actual stored t
  | .abandon id stored => abandon id stored t

def step (t : Table) (c : Call) : Table := (call limits dayOf t c).1

end

def moved (id : Nat) (state : RowState) (actual : Option Nat) (row : Row) : Row :=
  if isReserved id row then { row with state := state, actualTokens := actual } else row

section
variable {limits : LedgerLimits} {dayOf : ℤ → Option Text}

theorem reserve_cases (input : ReserveInput) (at_ : ℤ) (stored : Bool) (t : Table) :
    (reserve limits dayOf input at_ stored t).1 = t ∨
      ∃ day, dayOf at_ = some day ∧
        spentForRun t input.runId + input.estimatedTokens.toNat ≤ limits.runTokenCeiling ∧
        spentForDay t day + input.estimatedTokens.toNat ≤ limits.dailyTokenCeiling ∧
        (reserve limits dayOf input at_ stored t).1 = insertReservation input day t := by
  unfold reserve
  split
  · exact .inl rfl
  · cases read : dayOf at_ with
    | none => exact .inl rfl
    | some day =>
      dsimp only
      split
      · exact .inl rfl
      · next run =>
        split
        · exact .inl rfl
        · next daily =>
          split
          · exact .inl rfl
          · exact .inr ⟨day, rfl, Nat.le_of_not_lt run, Nat.le_of_not_lt daily, rfl⟩

theorem transition_cases (id : Nat) (state : RowState) (actual : Option Nat) (stored : Bool)
    (t : Table) : (transition id state actual stored t).1 = t ∨
      (transition id state actual stored t).1 = ⟨t.rows.map (moved id state actual), t.lastId⟩ := by
  unfold transition
  split
  · exact .inl rfl
  · exact .inr rfl

theorem settle_cases (id : Nat) (actual : ℤ) (stored : Bool) (t : Table) :
    (settle id actual stored t).1 = t ∨ (settle id actual stored t).1 =
      ⟨t.rows.map (moved id .settled (some actual.toNat)), t.lastId⟩ := by
  unfold settle
  split
  · exact .inl rfl
  · exact transition_cases id .settled _ stored t

end

end Ultrathink.Source.Cost.Ledger
