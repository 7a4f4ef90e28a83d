import Ultrathink.Library.JsText
import Ultrathink.Library.OrderedMap
import Ultrathink.Library.Runs
import Mathlib.Data.Rat.Floor

/-!
# Penalty ladder

`createPenaltyLadder` of `auth/penalty.ts`: a failure count, a level and the end of a block for
each key. Each call reads the clock once; the reading is an argument here. Times and lengths are
exact. The events of the security logger are left out.
-/

namespace Ultrathink.Source.Auth.Penalty

open Library JsText Runs

/-- The options that `validate` lets through. -/
structure PenaltyOptions where
  windowMs : ℚ
  failuresPerWindow : Nat
  baseSec : ℚ
  maxSec : ℚ
  decayMs : ℚ
  maxKeys : Nat
  windowPos : 0 < windowMs
  failuresPos : 1 ≤ failuresPerWindow
  basePos : 0 < baseSec
  decayPos : 0 < decayMs
  keysPos : 1 ≤ maxKeys
  baseLe : baseSec ≤ maxSec

structure Entry where
  window : ℤ
  count : Nat
  level : Nat
  blockedUntil : ℚ
  deriving DecidableEq

/-- What `fail` returns. -/
structure Failed where
  blockedSec : ℤ
  escalated : Bool
  level : Nat
  tracked : Bool
  deriving DecidableEq

abbrev Entries := OrderedMap Text Entry

section
variable (o : PenaltyOptions)

def windowOf (t : ℚ) : ℤ := ⌊t / o.windowMs⌋

def secondsUntil (blockedUntil t : ℚ) : ℤ := ⌈(blockedUntil - t) / 1000⌉

/-- No active block, no decay period still running, and a window that is not current. -/
def isDead (t : ℚ) (e : Entry) : Bool :=
  !(t < e.blockedUntil) && !(0 < e.level && t - e.blockedUntil ≤ o.decayMs) &&
    e.window ≠ windowOf o t

def prune (t : ℚ) (entries : Entries) : Entries := entries.filter fun _ e => !isDead o t e

def newEntry (t : ℚ) : Entry := ⟨windowOf o t, 0, 0, 0⟩

def counted (t : ℚ) (e : Entry) : Entry :=
  if e.window ≠ windowOf o t then { e with window := windowOf o t, count := 1 }
  else { e with count := e.count + 1 }

/-- Quiet for more than `decayMs` since the last block ended. -/
def isQuiet (t : ℚ) (e : Entry) : Bool := e.level = 0 || o.decayMs < t - e.blockedUntil

def escalate (t : ℚ) (e : Entry) : Entry :=
  let level := if isQuiet o t e then 1 else e.level + 1
  let seconds := min o.maxSec (o.baseSec * 2 ^ (level - 1))
  { e with level := level, blockedUntil := t + seconds * 1000, count := 0 }

/-- A failure of a key that is not blocked. -/
def failEntry (t : ℚ) (e : Entry) : Entry × Failed :=
  let e := counted o t e
  if e.count ≤ o.failuresPerWindow then (e, ⟨0, false, e.level, true⟩)
  else
    let e := escalate o t e
    (e, ⟨secondsUntil e.blockedUntil t, true, e.level, true⟩)

/-- A full table is pruned once before a new key goes untracked. -/
def makeRoom (t : ℚ) (entries : Entries) : Entries :=
  if o.maxKeys ≤ entries.size then prune o t entries else entries

def fail (key : Text) (t : ℚ) (entries : Entries) : Entries × Failed :=
  match entries.get? key with
  | some e =>
    if t < e.blockedUntil then (entries, ⟨secondsUntil e.blockedUntil t, false, e.level, true⟩)
    else (entries.set key (failEntry o t e).1, (failEntry o t e).2)
  | none =>
    let entries := makeRoom o t entries
    if o.maxKeys ≤ entries.size then (entries, ⟨0, false, 0, false⟩)
    else (entries.set key (failEntry o t (newEntry o t)).1, (failEntry o t (newEntry o t)).2)

def blockedSec (key : Text) (t : ℚ) (entries : Entries) : ℤ :=
  match entries.get? key with
  | some e => if t < e.blockedUntil then secondsUntil e.blockedUntil t else 0
  | none => 0

inductive Method where
  | fail
  | blockedSec
  deriving DecidableEq

structure Call where
  key : Text
  method : Method
  at_ : ℚ
  deriving DecidableEq

inductive Answer where
  | failed (outcome : Failed)
  | blocked (seconds : ℤ)
  deriving DecidableEq

def call (entries : Entries) (c : Call) : Entries × Answer :=
  match c.method with
  | .fail => ((fail o c.key c.at_ entries).1, .failed (fail o c.key c.at_ entries).2)
  | .blockedSec => (entries, .blocked (blockedSec c.key c.at_ entries))

def step (entries : Entries) (c : Call) : Entries := (call o entries c).1

/-- The table after the calls, from a new ladder. -/
def after (calls : List Call) : Entries := runInputs (step o) OrderedMap.empty calls

/-- The answer to a call that comes after the others. -/
def answer (before : List Call) (c : Call) : Answer := (call o (after o before) c).2

end

section
variable (o : PenaltyOptions)

/-- What a tracked failure leaves of its key's entry, and what it returns. -/
def failKey (t : ℚ) (entry : Option Entry) : Entry × Failed :=
  match entry with
  | some e =>
    if t < e.blockedUntil then (e, ⟨secondsUntil e.blockedUntil t, false, e.level, true⟩)
    else failEntry o t e
  | none => failEntry o t (newEntry o t)

/-- The seconds that are left of the block of an entry. -/
def blockedKey (t : ℚ) (entry : Option Entry) : ℤ :=
  match entry with
  | some e => if t < e.blockedUntil then secondsUntil e.blockedUntil t else 0
  | none => 0

variable {o}

theorem failEntry_tracked (t : ℚ) (e : Entry) : (failEntry o t e).2.tracked = true := by
  unfold failEntry
  dsimp only
  split <;> rfl

theorem prune_get? (t : ℚ) (entries : Entries) (k : Text) :
    (prune o t entries).get? k = entries.get? k ∨
      ∃ e, entries.get? k = some e ∧ isDead o t e = true ∧ (prune o t entries).get? k = none := by
  rw [prune, OrderedMap.get?_filter]
  cases found : entries.get? k with
  | none => exact .inl rfl
  | some e =>
    cases dead : isDead o t e with
    | true => exact .inr ⟨e, rfl, dead, by simp [dead]⟩
    | false => exact .inl (by simp [dead])

theorem makeRoom_get? (t : ℚ) (entries : Entries) (k : Text) :
    (makeRoom o t entries).get? k = entries.get? k ∨
      ∃ e, entries.get? k = some e ∧ isDead o t e = true ∧
        (makeRoom o t entries).get? k = none := by
  unfold makeRoom
  split
  · exact prune_get? t entries k
  · exact .inl rfl

theorem fail_own {key : Text} {t : ℚ} {entries : Entries}
    (tracked : (fail o key t entries).2.tracked = true) :
    (fail o key t entries).1.get? key = some (failKey o t (entries.get? key)).1 ∧
      (fail o key t entries).2 = (failKey o t (entries.get? key)).2 := by
  unfold fail at *
  cases found : entries.get? key with
  | some e =>
    dsimp only [failKey]
    split
    · exact ⟨found, rfl⟩
    · exact ⟨OrderedMap.get?_set_self _ _ _, rfl⟩
  | none =>
    rw [found] at tracked
    dsimp only at tracked ⊢
    split at tracked
    · cases tracked
    · next room =>
      rw [if_neg room]
      exact ⟨OrderedMap.get?_set_self _ _ _, rfl⟩

theorem fail_other {key k : Text} (other : k ≠ key) (t : ℚ) (entries : Entries) :
    (fail o key t entries).1.get? k = entries.get? k ∨
      ∃ e, entries.get? k = some e ∧ isDead o t e = true ∧
        (fail o key t entries).1.get? k = none := by
  unfold fail
  split
  · split
    · exact .inl rfl
    · exact .inl (OrderedMap.get?_set_of_ne _ _ other)
  · dsimp only
    split
    · exact makeRoom_get? t entries k
    · rw [OrderedMap.get?_set_of_ne _ _ other]
      exact makeRoom_get? t entries k

theorem blockedSec_own (key : Text) (t : ℚ) (entries : Entries) :
    blockedSec key t entries = blockedKey t (entries.get? key) := rfl

end

end Ultrathink.Source.Auth.Penalty
