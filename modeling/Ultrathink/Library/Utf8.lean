import Ultrathink.Library.JsText

/-!
# UTF-8 round trips

Writing a string as UTF-8 and reading the bytes back gives the string whenever
its surrogates stand in pairs, and a code unit below U+0080 stands in the bytes
exactly where it stands in the string, so a line end is never part of a longer
sequence.
-/

namespace Ultrathink.Library.JsText

open List

/-- Every surrogate is half of a pair. -/
def paired : Text → Bool
  | [] => true
  | u :: rest =>
    if isHighSurrogate u then
      match rest with
      | v :: rest' => isLowSurrogate v && paired rest'
      | [] => false
    else !isLowSurrogate u && paired rest

variable {u v : UInt16} {s : Nat} {t : Text}

theorem paired_cons (notHigh : ¬ isHighSurrogate u) (rest : Text) :
    paired (u :: rest) = (!isLowSurrogate u && paired rest) := by
  rw [paired.eq_def]
  simp only [notHigh]
  rfl

theorem paired_pair (high : isHighSurrogate u) (rest : Text) :
    paired (u :: v :: rest) = (isLowSurrogate v && paired rest) := by
  rw [paired, if_pos high]

theorem toUtf8_pair (high : isHighSurrogate u) (low : isLowSurrogate v) (rest : Text) :
    toUtf8 (u :: v :: rest) =
      utf8Of (0x10000 + (u.toNat - 0xD800) * 0x400 + (v.toNat - 0xDC00)) ++ toUtf8 rest := by
  rw [toUtf8, if_pos high, if_pos low]

theorem toUtf8_scalar (notHigh : ¬ isHighSurrogate u) (notLow : ¬ isLowSurrogate u) (rest : Text) :
    toUtf8 (u :: rest) = utf8Of u.toNat ++ toUtf8 rest := by
  rw [toUtf8.eq_def]
  simp only [notHigh, notLow]
  rfl

theorem ofUtf8_one (small : s < 0x80) (rest : List UInt8) :
    ofUtf8 (s.toUInt8 :: rest) = s.toUInt16 :: ofUtf8 rest := by
  have value : s.toUInt8.toNat = s := by simp; omega
  have low : s.toUInt8 < 0x80 := by rw [UInt8.lt_iff_toNat_lt, value]; exact small
  rw [ofUtf8.eq_def]
  dsimp only
  rw [if_pos low]
  congr 1
  apply UInt16.toNat_inj.mp
  rw [UInt8.toNat_toUInt16, value]
  simp
  omega

theorem toNat_byte {n : Nat} (small : n < 256) : (n.toUInt8).toNat = n := by
  simp
  omega

theorem within_iff {low high : UInt8} {n : Nat} (small : n < 256) :
    (low ≤ n.toUInt8 && n.toUInt8 ≤ high) = true ↔ low.toNat ≤ n ∧ n ≤ high.toNat := by
  rw [Bool.and_eq_true, decide_eq_true_eq, decide_eq_true_eq, UInt8.le_iff_toNat_le,
    UInt8.le_iff_toNat_le, toNat_byte small]

theorem not_ascii {n : Nat} (above : 0x80 ≤ n) (small : n < 256) : ¬ n.toUInt8 < 0x80 := by
  rw [UInt8.lt_iff_toNat_lt, toNat_byte small]
  exact Nat.not_lt.mpr above

theorem continuation_low (n : Nat) : isContinuation (0x80 + n % 64).toUInt8 = true :=
  (within_iff (by omega)).mpr ⟨by simp, by simp; omega⟩

theorem ofUtf8_two (above : 0x80 ≤ s) (below : s < 0x800) (rest : List UInt8) :
    ofUtf8 ((0xC0 + s / 64).toUInt8 :: (0x80 + s % 64).toUInt8 :: rest) =
      s.toUInt16 :: ofUtf8 rest := by
  have isTwo : (0xC2 ≤ (0xC0 + s / 64).toUInt8 && (0xC0 + s / 64).toUInt8 ≤ 0xDF) = true :=
    (within_iff (by omega)).mpr ⟨by simp; omega, by simp; omega⟩
  rw [ofUtf8.eq_def]
  dsimp only
  rw [if_neg (not_ascii (by omega) (by omega)), if_pos isTwo]
  simp only [continuation_low, if_true]
  rw [toNat_byte (by omega), low6, toNat_byte (by omega)]
  congr 2
  omega

theorem ofUtf8_three (above : 0x800 ≤ s) (below : s < 0x10000) (scalar : s < 0xD800 ∨ 0xE000 ≤ s)
    (rest : List UInt8) :
    ofUtf8 ((0xE0 + s / 4096).toUInt8 :: (0x80 + s / 64 % 64).toUInt8 ::
      (0x80 + s % 64).toUInt8 :: rest) = s.toUInt16 :: ofUtf8 rest := by
  have lead : ((0xE0 + s / 4096).toUInt8).toNat = 0xE0 + s / 4096 := toNat_byte (by omega)
  have second : ((0x80 + s / 64 % 64).toUInt8).toNat = 0x80 + s / 64 % 64 := toNat_byte (by omega)
  have notTwo : ¬ (0xC2 ≤ (0xE0 + s / 4096).toUInt8 && (0xE0 + s / 4096).toUInt8 ≤ 0xDF) = true := by
    rw [within_iff (by omega)]
    rintro ⟨-, small⟩
    simp at small
    omega
  have isThree : (0xE0 ≤ (0xE0 + s / 4096).toUInt8 && (0xE0 + s / 4096).toUInt8 ≤ 0xEF) = true :=
    (within_iff (by omega)).mpr ⟨by simp, by simp; omega⟩
  have allowed : secondOfThree (0xE0 + s / 4096).toUInt8 (0x80 + s / 64 % 64).toUInt8 = true := by
    simp only [secondOfThree, continuation_low, Bool.and_eq_true, Bool.or_eq_true,
      decide_eq_true_eq, UInt8.le_iff_toNat_le, ne_eq, ← UInt8.toNat_inj, lead, second]
    refine ⟨⟨trivial, ?_⟩, ?_⟩
    · simp; omega
    · simp; omega
  rw [ofUtf8.eq_def]
  dsimp only
  rw [if_neg (not_ascii (by omega) (by omega)), if_neg notTwo, if_pos isThree]
  simp only [allowed, continuation_low, if_true]
  rw [lead, low6, second, low6, toNat_byte (by omega)]
  congr 2
  omega

theorem ofUtf8_four (above : 0x10000 ≤ s) (below : s < 0x110000) (rest : List UInt8) :
    ofUtf8 ((0xF0 + s / 262144).toUInt8 :: (0x80 + s / 4096 % 64).toUInt8 ::
      (0x80 + s / 64 % 64).toUInt8 :: (0x80 + s % 64).toUInt8 :: rest) =
      unitsOf s ++ ofUtf8 rest := by
  have lead : ((0xF0 + s / 262144).toUInt8).toNat = 0xF0 + s / 262144 := toNat_byte (by omega)
  have second : ((0x80 + s / 4096 % 64).toUInt8).toNat = 0x80 + s / 4096 % 64 :=
    toNat_byte (by omega)
  have none : ∀ low high : UInt8, high.toNat < 0xF0 →
      ¬ (low ≤ (0xF0 + s / 262144).toUInt8 && (0xF0 + s / 262144).toUInt8 ≤ high) = true := by
    intro low high small
    rw [within_iff (by omega)]
    omega
  have isFour :
      (0xF0 ≤ (0xF0 + s / 262144).toUInt8 && (0xF0 + s / 262144).toUInt8 ≤ 0xF4) = true :=
    (within_iff (by omega)).mpr ⟨by simp, by simp; omega⟩
  have allowed : secondOfFour (0xF0 + s / 262144).toUInt8 (0x80 + s / 4096 % 64).toUInt8 = true := by
    simp only [secondOfFour, continuation_low, Bool.and_eq_true, Bool.or_eq_true, decide_eq_true_eq,
      UInt8.le_iff_toNat_le, ne_eq, ← UInt8.toNat_inj, lead, second]
    refine ⟨⟨trivial, ?_⟩, ?_⟩
    · simp; omega
    · simp; omega
  rw [ofUtf8.eq_def]
  dsimp only
  rw [if_neg (not_ascii (by omega) (by omega)), if_neg (none _ _ (by decide)),
    if_neg (none _ _ (by decide)), if_pos isFour]
  simp only [allowed, continuation_low, if_true]
  rw [lead, low6, second, low6, toNat_byte (by omega), low6, toNat_byte (by omega)]
  congr 2
  omega

theorem ofUtf8_utf8Of (below : s < 0x110000) (scalar : s < 0xD800 ∨ 0xE000 ≤ s)
    (rest : List UInt8) : ofUtf8 (utf8Of s ++ rest) = unitsOf s ++ ofUtf8 rest := by
  rw [utf8Of]
  by_cases one : s < 0x80
  · rw [if_pos one, unitsOf, if_pos (by omega)]
    exact ofUtf8_one one rest
  by_cases two : s < 0x800
  · rw [if_neg one, if_pos two, unitsOf, if_pos (by omega)]
    exact ofUtf8_two (by omega) two rest
  by_cases three : s < 0x10000
  · rw [if_neg one, if_neg two, if_pos three, unitsOf, if_pos three]
    exact ofUtf8_three (by omega) three scalar rest
  · rw [if_neg one, if_neg two, if_neg three]
    exact ofUtf8_four (by omega) below rest

theorem unitsOf_unit (u : UInt16) : unitsOf u.toNat = [u] := by
  have bound := u.toNat_lt
  rw [unitsOf, if_pos (by omega)]
  simp

theorem unitsOf_pair (high : isHighSurrogate u) (low : isLowSurrogate v) :
    unitsOf (0x10000 + (u.toNat - 0xD800) * 0x400 + (v.toNat - 0xDC00)) = [u, v] := by
  simp only [isHighSurrogate, isLowSurrogate, Bool.and_eq_true, decide_eq_true_eq,
    UInt16.le_iff_toNat_le] at high low
  obtain ⟨highFrom, highTo⟩ := high
  obtain ⟨lowFrom, lowTo⟩ := low
  simp at highFrom highTo lowFrom lowTo
  have split : 0x10000 + (u.toNat - 0xD800) * 0x400 + (v.toNat - 0xDC00) - 0x10000 =
      (u.toNat - 0xD800) * 0x400 + (v.toNat - 0xDC00) := by omega
  rw [unitsOf, if_neg (by omega), split]
  have first : (0xD800 + ((u.toNat - 0xD800) * 0x400 + (v.toNat - 0xDC00)) / 0x400) = u.toNat := by
    omega
  have second : (0xDC00 + ((u.toNat - 0xD800) * 0x400 + (v.toNat - 0xDC00)) % 0x400) = v.toNat := by
    omega
  rw [first, second]
  simp

theorem isHighSurrogate_iff (u : UInt16) :
    isHighSurrogate u ↔ 0xD800 ≤ u.toNat ∧ u.toNat ≤ 0xDBFF := by
  simp only [isHighSurrogate, Bool.and_eq_true, decide_eq_true_eq, UInt16.le_iff_toNat_le]
  exact Iff.rfl

theorem isLowSurrogate_iff (u : UInt16) :
    isLowSurrogate u ↔ 0xDC00 ≤ u.toNat ∧ u.toNat ≤ 0xDFFF := by
  simp only [isLowSurrogate, Bool.and_eq_true, decide_eq_true_eq, UInt16.le_iff_toNat_le]
  exact Iff.rfl

theorem ofUtf8_toUtf8_append (t : Text) (whole : paired t) (rest : List UInt8) :
    ofUtf8 (toUtf8 t ++ rest) = t ++ ofUtf8 rest := by
  fun_induction paired t with
  | case1 => rfl
  | case2 u high v rest' ih =>
    rw [Bool.and_eq_true] at whole
    have highRange := (isHighSurrogate_iff u).mp high
    have lowRange := (isLowSurrogate_iff v).mp whole.1
    rw [toUtf8_pair high whole.1, append_assoc, ofUtf8_utf8Of (by omega) (by omega),
      unitsOf_pair high whole.1, ih whole.2]
    rfl
  | case3 u high => exact absurd whole (by simp)
  | case4 u rest' notHigh ih =>
    rw [Bool.and_eq_true, Bool.not_eq_true'] at whole
    have notLow : ¬ isLowSurrogate u := by simp [whole.1]
    have bound := u.toNat_lt
    have scalar : u.toNat < 0xD800 ∨ 0xE000 ≤ u.toNat := by
      rw [isHighSurrogate_iff] at notHigh
      rw [isLowSurrogate_iff] at notLow
      omega
    rw [toUtf8_scalar notHigh notLow, append_assoc, ofUtf8_utf8Of (by omega) scalar,
      unitsOf_unit, ih whole.2]
    rfl

theorem ofUtf8_toUtf8 (whole : paired t) : ofUtf8 (toUtf8 t) = t := by
  have read := ofUtf8_toUtf8_append t whole []
  rwa [append_nil, ofUtf8, append_nil] at read

theorem toUtf8_injective {s : Text} (left : paired s) (right : paired t)
    (same : toUtf8 s = toUtf8 t) : s = t := by
  rw [← ofUtf8_toUtf8 left, same, ofUtf8_toUtf8 right]

theorem paired_append {s : Text} (left : paired s) (right : paired t) : paired (s ++ t) := by
  fun_induction paired s with
  | case1 => exact right
  | case2 u high v rest' ih =>
    rw [Bool.and_eq_true] at left
    rw [cons_append, cons_append, paired_pair high, left.1, ih left.2]
    rfl
  | case3 u high => exact absurd left (by simp)
  | case4 u rest notHigh ih =>
    rw [Bool.and_eq_true] at left
    rw [cons_append, paired_cons notHigh, left.1, ih left.2]
    rfl

theorem toUtf8_append {s : Text} (left : paired s) (t : Text) :
    toUtf8 (s ++ t) = toUtf8 s ++ toUtf8 t := by
  fun_induction paired s with
  | case1 => rfl
  | case2 u high v rest' ih =>
    rw [Bool.and_eq_true] at left
    rw [cons_append, cons_append, toUtf8_pair high left.1, toUtf8_pair high left.1,
      ih left.2, append_assoc]
  | case3 u high => exact absurd left (by simp)
  | case4 u rest notHigh ih =>
    rw [Bool.and_eq_true, Bool.not_eq_true'] at left
    have notLow : ¬ isLowSurrogate u := by simp [left.1]
    rw [cons_append, toUtf8_scalar notHigh notLow, toUtf8_scalar notHigh notLow, ih left.2,
      append_assoc]

theorem paired_of_small (small : ∀ u ∈ t, u < 0x80) : paired t := by
  induction t with
  | nil => rfl
  | cons u rest ih =>
    have first : u.toNat < 0x80 := UInt16.lt_iff_toNat_lt.mp (small u mem_cons_self)
    have notHigh : ¬ isHighSurrogate u := by rw [isHighSurrogate_iff]; omega
    have notLow : ¬ isLowSurrogate u := by rw [isLowSurrogate_iff]; omega
    rw [paired_cons notHigh, ih fun v hv => small v (mem_cons_of_mem _ hv)]
    simp [notLow]

end Ultrathink.Library.JsText
