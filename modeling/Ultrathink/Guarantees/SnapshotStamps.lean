import Ultrathink.Library.TextOrder
import Ultrathink.Source.Store.Snapshots

/-!
# Snapshot stamps

A stamp has its fields in fixed widths, so it reads back as its time and sorts as it. Two
stamps of different precisions sort by their seconds first, and in one second the shorter one
sorts last: its `Z` stands where the other has a digit.
-/

namespace Ultrathink.Guarantees.SnapshotStamps

open List Library JsText JsNumber UtcDate Source.Store.Snapshots

def IsField (width : Nat) (t : Text) : Prop := t.length = width ∧ ∀ u ∈ t, isDigit u = true

variable {ms t' : ℤ} {t name : Text} {width : Nat} {p : NameParts}

theorem digit_bounds {u : UInt16} (digit : isDigit u = true) :
    digitValue u < 10 ∧ u.toNat = 0x30 + digitValue u := by
  simp only [isDigit, Bool.and_eq_true, decide_eq_true_eq, UInt16.le_iff_toNat_le] at digit
  have low : (0x30 : UInt16).toNat = 0x30 := rfl
  have high : (0x39 : UInt16).toNat = 0x39 := rfl
  unfold digitValue
  omega

def fieldsOf (ms : ℤ) : NameParts where
  year := pad (getUTCFullYear ms).toNat 4
  month := pad (getUTCMonth ms + 1).toNat 2
  day := pad (getUTCDate ms).toNat 2
  hour := pad (getUTCHours ms).toNat 2
  minute := pad (getUTCMinutes ms).toNat 2
  second := pad (getUTCSeconds ms).toNat 2
  ms := some (pad (getUTCMilliseconds ms).toNat 3)

structure WellFormed (p : NameParts) : Prop where
  year : IsField 4 p.year
  month : IsField 2 p.month
  day : IsField 2 p.day
  hour : IsField 2 p.hour
  minute : IsField 2 p.minute
  second : IsField 2 p.second
  ms : ∀ ms ∈ p.ms, IsField 3 ms

def front (ms : ℤ) : Text :=
  (fieldsOf ms).year ++ ((fieldsOf ms).month ++ ((fieldsOf ms).day ++ (js "T" ++
    ((fieldsOf ms).hour ++ ((fieldsOf ms).minute ++ (fieldsOf ms).second)))))

end Ultrathink.Guarantees.SnapshotStamps
