import Mathlib.Tactic.Ring
import Ultrathink.Library.Utf8

/-!
# JavaScript numbers

IEEE 754 binary64 as JSON sees it: the magnitude of a finite number is a whole
multiple of the least subnormal, kept in those units. A decimal numeral is read
as the nearest number, ties to even; a number is written in the shortest digits
that read back as it, in the notation of `Number.prototype.toString`.
-/

namespace Ultrathink.Library.JsNumber

open List JsText

def digit (n : Nat) : UInt16 := (0x30 + n).toUInt16

/-- The decimal digits, the most significant first. -/
def digits (n : Nat) : Text := (Nat.toDigits 10 n).map (fun c => c.toNat.toUInt16)

def digitValue (u : UInt16) : Nat := u.toNat - 0x30

def valueOf (t : Text) : Nat := t.foldl (fun acc u => acc * 10 + digitValue u) 0

def zeros (n : Nat) : Text := List.replicate n 0x30

variable {n units k s : Nat} {j : Int}

theorem isDigit_digit (small : n < 10) : isDigit (digit n) := by
  revert n
  decide

theorem digitValue_digit (small : n < 10) : digitValue (digit n) = n := by
  revert n
  decide

theorem digitChar_unit (small : n < 10) : (Nat.digitChar n).toNat.toUInt16 = digit n := by
  revert n
  decide

theorem digits_eq (n : Nat) :
    digits n = if n < 10 then [digit n] else digits (n / 10) ++ [digit (n % 10)] := by
  rw [digits, Nat.toDigits_eq_if (by decide)]
  split
  next small => rw [map_singleton, digitChar_unit small]
  next =>
    rw [map_append, map_singleton, digitChar_unit (Nat.mod_lt _ (by decide)), digits]

theorem digits_ne_nil (n : Nat) : digits n ≠ [] := by
  rw [digits_eq]
  split <;> simp

theorem isDigit_of_mem_digits (n : Nat) : ∀ u ∈ digits n, isDigit u := by
  induction n using Nat.strongRecOn with
  | ind n ih =>
    rw [digits_eq]
    split
    next small => simpa using isDigit_digit small
    next large =>
      intro u mem
      rcases mem_append.mp mem with leading | last
      · exact ih (n / 10) (by omega) u leading
      · rw [mem_singleton.mp last]
        exact isDigit_digit (Nat.mod_lt _ (by decide))

theorem valueOf_append (s t : Text) :
    valueOf (s ++ t) = valueOf s * 10 ^ t.length + valueOf t := by
  have shifted : ∀ (t : Text) (acc : Nat),
      t.foldl (fun acc u => acc * 10 + digitValue u) acc = acc * 10 ^ t.length + valueOf t := by
    intro t
    induction t with
    | nil => intro acc; simp [valueOf]
    | cons u rest ih =>
      intro acc
      have first : valueOf (u :: rest) = digitValue u * 10 ^ rest.length + valueOf rest := by
        rw [valueOf, foldl_cons, ih]
        ring
      rw [foldl_cons, ih, first, length_cons, Nat.pow_succ]
      ring
  rw [valueOf, foldl_append, shifted, ← valueOf]

theorem valueOf_digits (n : Nat) : valueOf (digits n) = n := by
  induction n using Nat.strongRecOn with
  | ind n ih =>
    rw [digits_eq]
    split
    next small => simpa [valueOf] using digitValue_digit small
    next large =>
      rw [valueOf_append, ih (n / 10) (by omega)]
      have last : valueOf [digit (n % 10)] = n % 10 := by
        simpa [valueOf] using digitValue_digit (Nat.mod_lt n (by decide))
      rw [last]
      simp only [length_singleton]
      omega

theorem valueOf_zeros (n : Nat) : valueOf (zeros n) = 0 := by
  induction n with
  | zero => rfl
  | succ n ih =>
    have split : zeros (n + 1) = [0x30] ++ zeros n := rfl
    rw [split, valueOf_append, ih]
    simp [valueOf, digitValue]

theorem digits_length_le {n k : Nat} (bound : n < 10 ^ (k + 1)) : (digits n).length ≤ k + 1 := by
  rw [digits, length_map, Nat.length_toDigits_le_iff (by decide) (by omega)]
  exact bound

theorem digits_length_pos (n : Nat) : 0 < (digits n).length :=
  length_pos_iff.mpr (digits_ne_nil n)

theorem head_digits (positive : 0 < n) : ∃ u rest, digits n = u :: rest ∧ u ≠ 0x30 := by
  induction n using Nat.strongRecOn with
  | ind n ih =>
    rw [digits_eq]
    split
    next small =>
      have nonzero : ∀ m < 10, 0 < m → digit m ≠ 0x30 := by decide
      exact ⟨digit n, [], rfl, nonzero n small positive⟩
    next large =>
      obtain ⟨u, rest, head, nonzero⟩ := ih (n / 10) (by omega) (by omega)
      exact ⟨u, rest ++ [digit (n % 10)], by rw [head]; rfl, nonzero⟩

theorem ofUtf8_ascii (cs : List Char) (ascii : ∀ c ∈ cs, c.toNat < 0x80) :
    ofUtf8 (cs.flatMap String.utf8EncodeChar) = cs.map (fun c => c.toNat.toUInt16) := by
  induction cs with
  | nil => rfl
  | cons c rest ih =>
    have first : c.toNat < 0x80 := ascii c mem_cons_self
    have one : c.utf8Size = 1 := by
      rw [Char.utf8Size_eq_one_iff, UInt32.le_iff_toNat_le]
      have value : c.toNat = c.val.toNat := rfl
      have top : (127 : UInt32).toNat = 127 := rfl
      omega
    rw [flatMap_cons, String.utf8EncodeChar_eq_singleton one, map_cons,
      ← ih fun d mem => ascii d (mem_cons_of_mem _ mem)]
    exact ofUtf8_one first _

theorem ofNat_eq_digits (n : Nat) : ofNat n = digits n := by
  have bytes : (Nat.repr n).toByteArray.data.toList =
      (Nat.toDigits 10 n).flatMap String.utf8EncodeChar := by
    rw [Nat.repr_eq_ofList_toDigits, String.toByteArray_ofList]
    simp [List.utf8Encode]
  rw [ofNat, js, bytes, digits]
  apply ofUtf8_ascii
  intro c mem
  have isDigit := Nat.isDigit_of_mem_toDigits (by decide) (by decide) mem
  simp only [Char.isDigit, Bool.and_eq_true, decide_eq_true_eq, UInt32.le_iff_toNat_le] at isDigit
  have value : c.toNat = c.val.toNat := rfl
  have top : ('9'.val).toNat = 57 := rfl
  omega

theorem ofNat_injective {m n : Nat} (same : ofNat m = ofNat n) : m = n := by
  rw [ofNat_eq_digits, ofNat_eq_digits] at same
  rw [← valueOf_digits m, same, valueOf_digits]

/-! ## Rounding

Magnitudes are fractions `a / d` in units of the least subnormal, 2^-1074. -/

/-- `a / d` to the nearest whole number, a tie to the even one. -/
def halfEven (a d : Nat) : Nat :=
  if 2 * (a % d) < d then a / d
  else if d < 2 * (a % d) then a / d + 1
  else if a / d % 2 = 0 then a / d else a / d + 1

/-- The nearest magnitude with 53 significant bits. -/
def nearest (a d : Nat) : Nat :=
  halfEven a (d * 2 ^ ((a / d).log2 - 52)) * 2 ^ ((a / d).log2 - 52)

theorem halfEven_exact {d : Nat} (positive : 0 < d) (c : Nat) : halfEven (c * d) d = c := by
  rw [halfEven, Nat.mul_mod_left, if_pos (by omega), Nat.mul_div_cancel c positive]

theorem halfEven_le (a d : Nat) : halfEven a d ≤ a / d + 1 := by
  rw [halfEven]
  split
  · omega
  split
  · omega
  split <;> omega

theorem halfEven_scale (positive : 0 < k) (a d : Nat) :
    halfEven (a * k) (d * k) = halfEven a d := by
  have low : 2 * (a % d * k) < d * k ↔ 2 * (a % d) < d := by
    rw [← Nat.mul_assoc]
    exact Nat.mul_lt_mul_right positive
  have high : d * k < 2 * (a % d * k) ↔ d < 2 * (a % d) := by
    rw [← Nat.mul_assoc]
    exact Nat.mul_lt_mul_right positive
  rw [halfEven, halfEven, Nat.mul_mod_mul_right, Nat.mul_div_mul_right a d positive]
  simp only [low, high]

theorem nearest_scale (positive : 0 < k) (a d : Nat) :
    nearest (a * k) (d * k) = nearest a d := by
  rw [nearest, nearest, Nat.mul_div_mul_right a d positive, Nat.mul_right_comm,
    halfEven_scale positive]

theorem nearest_exact {m e d : Nat} (positive : 0 < d) (bits : m ≤ 2 ^ 53) :
    nearest (m * 2 ^ e * d) d = m * 2 ^ e := by
  have quotient : m * 2 ^ e * d / d = m * 2 ^ e := Nat.mul_div_cancel _ positive
  rw [nearest, quotient]
  obtain ⟨c, whole⟩ : 2 ^ ((m * 2 ^ e).log2 - 52) ∣ m * 2 ^ e := by
    rcases Nat.eq_zero_or_pos m with rfl | nonzero
    · simp
    rcases Nat.lt_or_eq_of_le bits with fewer | full
    · have above : 0 < m * 2 ^ e := Nat.mul_pos nonzero (Nat.two_pow_pos e)
      have size : (m * 2 ^ e).log2 < 53 + e := by
        rw [Nat.log2_lt (by omega), Nat.pow_add]
        exact Nat.mul_lt_mul_of_pos_right fewer (Nat.two_pow_pos e)
      exact Dvd.dvd.mul_left (Nat.pow_dvd_pow 2 (by omega)) m
    · rw [full, ← Nat.pow_add, Nat.log2_two_pow]
      exact Nat.pow_dvd_pow 2 (by omega)
  generalize (m * 2 ^ e).log2 - 52 = p at whole ⊢
  have scaled : m * 2 ^ e * d = c * (d * 2 ^ p) := by
    rw [whole]
    ring
  rw [scaled, halfEven_exact (Nat.mul_pos positive (Nat.two_pow_pos _)), Nat.mul_comm]
  exact whole.symm

theorem nearest_form (a d : Nat) :
    ∃ m e, nearest a d = m * 2 ^ e ∧ m ≤ 2 ^ 53 := by
  refine ⟨_, _, rfl, le_trans (halfEven_le _ _) ?_⟩
  have below : a / d < 2 ^ (53 + ((a / d).log2 - 52)) :=
    lt_of_lt_of_le Nat.lt_log2_self (Nat.pow_le_pow_right (by decide) (by omega))
  have fewer : a / d / 2 ^ ((a / d).log2 - 52) < 2 ^ 53 := by
    rw [Nat.div_lt_iff_lt_mul (Nat.two_pow_pos _), ← Nat.pow_add]
    exact below
  rw [← Nat.div_div_eq_div_mul]
  omega

theorem nearest_nearest (a d : Nat) : nearest (nearest a d) 1 = nearest a d := by
  obtain ⟨m, e, form, bits⟩ := nearest_form a d
  have own := nearest_exact (m := m) (e := e) (d := 1) (by decide) bits
  rw [Nat.mul_one] at own
  rw [form]
  exact own

def fractionBits : Nat := 1074

/-- Magnitudes from 2^1024 on overflow. -/
def exponentLimit : Nat := 1024

def one : Nat := 2 ^ fractionBits

def limit : Nat := 2 ^ exponentLimit * one

theorem one_pos : 0 < one := Nat.two_pow_pos _

theorem exponentLimit_eq : exponentLimit = 1024 := rfl

attribute [irreducible] nearest fractionBits exponentLimit

/-- A finite number; the two zeros differ in `negative` alone. -/
structure Finite where
  negative : Bool
  units : Nat
  rounded : nearest units 1 = units
  bounded : units < limit
  deriving DecidableEq

inductive Number where
  | nan
  | infinity (negative : Bool)
  | finite (value : Finite)
  deriving DecidableEq

/-- The number nearest to `a / d` units. -/
def ofFraction (negative : Bool) (a d : Nat) : Number :=
  if bounded : nearest a d < limit then
    .finite ⟨negative, nearest a d, nearest_nearest a d, bounded⟩
  else .infinity negative

/-- `s * 10 ^ j` in units is `scaledTop s j / scaledBottom j`. -/
def scaledTop (s : Nat) (j : Int) : Nat := s * 10 ^ j.toNat * one

def scaledBottom (j : Int) : Nat := 10 ^ (-j).toNat

theorem scaledBottom_pos (j : Int) : 0 < scaledBottom j := Nat.pow_pos (by decide)

def ofDecimal (negative : Bool) (s : Nat) (j : Int) : Number :=
  ofFraction negative (scaledTop s j) (scaledBottom j)

def ofNat (n : Nat) : Number := ofDecimal false n 0

/-- `Number.isInteger`, with the integer. -/
def toInt? : Number → Option Int
  | .finite x =>
    if x.units % one = 0 then
      some (if x.negative then -(x.units / one : Nat) else (x.units / one : Nat))
    else none
  | _ => none

def isFinite : Number → Bool
  | .finite _ => true
  | _ => false

theorem toInt?_ofNat (safe : n ≤ 2 ^ 53) : toInt? (ofNat n) = some (n : Int) := by
  have whole : nearest (scaledTop n 0) (scaledBottom 0) = n * one := by
    have top : scaledTop n 0 = n * one * 1 := by simp [scaledTop]
    rw [top]
    exact nearest_exact (by decide) safe
  have bounded : nearest (scaledTop n 0) (scaledBottom 0) < limit := by
    rw [whole, limit]
    have fits : n < 2 ^ exponentLimit := by
      have wide := exponentLimit_eq
      exact lt_of_le_of_lt safe (Nat.pow_lt_pow_right (by omega) (by omega))
    exact Nat.mul_lt_mul_of_pos_right fits one_pos
  rw [ofNat, ofDecimal, ofFraction, dif_pos bounded, toInt?]
  simp only [whole, Nat.mul_mod_left, if_true, Bool.false_eq_true, if_false]
  rw [Nat.mul_div_cancel _ one_pos]

/-- The digits `s` for the power `j` that read as `units` and are closest to it, an
even last digit on a tie. -/
def candidate (units : Nat) (j : Int) : Option Nat :=
  let d := one * 10 ^ j.toNat
  let s := units * scaledBottom j / d
  let r := units * scaledBottom j % d
  let reads := fun s => nearest (scaledTop s j) (scaledBottom j) = units
  if reads s then
    if reads (s + 1) && (d < 2 * r || (2 * r = d && s % 2 = 1)) then some (s + 1) else some s
  else if reads (s + 1) then some (s + 1)
  else none

theorem candidate_reads (found : candidate units j = some s) :
    nearest (scaledTop s j) (scaledBottom j) = units := by
  dsimp only [candidate] at found
  split at found
  next low =>
    split at found
    next high =>
      rw [Bool.and_eq_true, decide_eq_true_eq] at high
      rw [← Option.some.inj found]
      exact high.1
    next =>
      rw [← Option.some.inj found]
      exact low
  next =>
    split at found
    next high =>
      rw [← Option.some.inj found]
      exact high
    next => cases found

attribute [irreducible] candidate

/-- The first power that has one, from `j` down. -/
def firstDown (pick : Int → Option Nat) : Nat → Int → Option (Nat × Int)
  | 0, _ => none
  | fuel + 1, j =>
    match pick j with
    | some s => some (s, j)
    | none => firstDown pick fuel (j - 1)

theorem firstDown_some {pick : Int → Option Nat} {fuel : Nat} {i : Int}
    (found : firstDown pick fuel j = some (s, i)) : pick i = some s ∧ j - fuel < i ∧ i ≤ j := by
  induction fuel generalizing j with
  | zero => cases found
  | succ fuel ih =>
    rw [firstDown] at found
    split at found
    next t here =>
      obtain ⟨rfl, rfl⟩ := Prod.mk.inj (Option.some.inj found)
      exact ⟨here, by omega, by omega⟩
    next =>
      obtain ⟨picked, above, below⟩ := ih found
      exact ⟨picked, by omega, by omega⟩

/-- A power at which every magnitude is a whole number of digits. -/
def lowest : Int := -fractionBits

def exactDigits (units : Nat) : Nat := units * scaledBottom lowest / one

/-- `s` and `j` with `s * 10 ^ j` the shortest decimal that reads as `units`; at the
lowest power every magnitude is written exactly. -/
def shortest (units : Nat) : Nat × Int :=
  let top := (units / one).log2 / 3 + 1
  (firstDown (candidate units) (top + fractionBits) top).getD (exactDigits units, lowest)

theorem exact_reads (rounded : nearest units 1 = units) :
    nearest (scaledTop (exactDigits units) lowest) (scaledBottom lowest) = units := by
  have up : lowest.toNat = 0 := by rw [lowest]; omega
  have down : (-lowest).toNat = fractionBits := by rw [lowest]; omega
  have bottom : scaledBottom lowest = 5 ^ fractionBits * one := by
    rw [scaledBottom, one, ← Nat.mul_pow, down]
  have top : scaledTop (exactDigits units) lowest = units * scaledBottom lowest := by
    rw [exactDigits, bottom, ← Nat.mul_assoc, Nat.mul_div_cancel _ one_pos, scaledTop, up,
      Nat.pow_zero, Nat.mul_one]
  have scaled := nearest_scale (scaledBottom_pos lowest) units 1
  rw [Nat.one_mul] at scaled
  rw [top, scaled, rounded]

theorem shortest_reads (rounded : nearest units 1 = units) :
    nearest (scaledTop (shortest units).1 (shortest units).2)
      (scaledBottom (shortest units).2) = units := by
  rw [shortest]
  cases found : firstDown (candidate units) _ _ with
  | none => exact exact_reads rounded
  | some r => exact candidate_reads (firstDown_some found).1

end Ultrathink.Library.JsNumber
