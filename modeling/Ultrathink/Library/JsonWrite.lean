import Ultrathink.Library.JsonText
import Mathlib.Data.List.Sort
import Ultrathink.Library.Sha256

/-!
# Writing JSON

`Number.prototype.toString` in base ten and `JSON.stringify` without spacing. A number, a
string and an object of such members read back from their texts, whatever stands behind a text
that could not continue it.
-/

namespace Ultrathink.Library.JsonWrite

open List JsText JsNumber JsonText

/-- A numeral without its sign: the digits before and behind the point, and the
exponent with its sign. -/
structure Numeral where
  whole : Text
  fraction : Text
  exponent : Option (Bool × Text)
  deriving DecidableEq

namespace Numeral

def fractionText (n : Numeral) : Text := if n.fraction = [] then [] else 0x2E :: n.fraction

def exponentText (n : Numeral) : Text :=
  match n.exponent with
  | none => []
  | some (negative, ds) => 0x65 :: (if negative then 0x2D else 0x2B) :: ds

def text (n : Numeral) : Text := n.whole ++ (n.fractionText ++ n.exponentText)

def power (n : Numeral) : Int :=
  match n.exponent with
  | none => 0
  | some (negative, ds) => if negative then -(valueOf ds : Int) else valueOf ds

def value (negative : Bool) (n : Numeral) : Number :=
  ofDecimal negative (valueOf (n.whole ++ n.fraction)) (n.power - n.fraction.length)

/-- What the grammar of JSON asks of a numeral. -/
structure WellFormed (n : Numeral) : Prop where
  whole : n.whole = [0x30] ∨ ∃ u rest, n.whole = u :: rest ∧ u ≠ 0x30
  digits : ∀ u ∈ n.whole, isDigit u
  fraction : ∀ u ∈ n.fraction, isDigit u
  exponent : ∀ e ∈ n.exponent, e.2 ≠ [] ∧ ∀ u ∈ e.2, isDigit u

end Numeral

/-- Nothing that stands here could continue a numeral. -/
def Ends (rest : Text) : Prop :=
  ∀ u ∈ rest.head?, isDigit u = false ∧ u ≠ 0x2E ∧ u ≠ 0x65 ∧ u ≠ 0x45

variable {u : UInt16} {v : Value} {t rest ds : Text} {fuel : Nat} {β : Type}
  {members : List (Text × Value)} {n : Numeral}

theorem takeWhile_digits (digits : ∀ u ∈ ds, isDigit u)
    (stop : ∀ u ∈ rest.head?, isDigit u = false) : (ds ++ rest).takeWhile isDigit = ds := by
  rw [takeWhile_append_of_pos digits]
  cases rest with
  | nil => simp
  | cons u rest => simp [stop u rfl]

theorem dropWhile_digits (digits : ∀ u ∈ ds, isDigit u)
    (stop : ∀ u ∈ rest.head?, isDigit u = false) : (ds ++ rest).dropWhile isDigit = rest := by
  rw [dropWhile_append_of_pos digits]
  cases rest with
  | nil => rfl
  | cons u rest => simp [stop u rfl]

theorem readDigits_text (digits : ∀ u ∈ ds, isDigit u)
    (stop : ∀ u ∈ rest.head?, isDigit u = false) : readDigits (ds ++ rest) = (ds, rest) := by
  rw [readDigits, takeWhile_digits digits stop, dropWhile_digits digits stop]

theorem head_exponent_text (n : Numeral) (rest : Text) (ends : Ends rest) :
    ∀ u ∈ (n.exponentText ++ rest).head?, isDigit u = false ∧ u ≠ 0x2E := by
  intro u head
  unfold Numeral.exponentText at head
  split at head
  · exact ⟨(ends u head).1, (ends u head).2.1⟩
  · cases head
    exact ⟨by decide, by decide⟩

theorem readExponent_text (n : Numeral) (wellFormed : n.WellFormed) (rest : Text)
    (ends : Ends rest) : readExponent (n.exponentText ++ rest) = some (n.power, rest) := by
  have stop : ∀ u ∈ rest.head?, isDigit u = false := fun u head => (ends u head).1
  unfold Numeral.exponentText Numeral.power
  cases held : n.exponent with
  | none =>
    cases rest with
    | nil => rfl
    | cons u later =>
      obtain ⟨-, -, small, capital⟩ := ends u rfl
      have other : ¬ (u = 0x65 ∨ u = 0x45) := fun either => either.elim small capital
      rw [nil_append, readExponent, if_neg other]
  | some e =>
    obtain ⟨negative, ds⟩ := e
    obtain ⟨some_, digits⟩ := wellFormed.exponent _ held
    have sign : readSign ((if negative then 0x2D else 0x2B) :: (ds ++ rest)) =
        (negative, ds ++ rest) := by
      cases negative with
      | true => rfl
      | false => rfl
    simp only [cons_append, readExponent, true_or, if_true, sign, readDigits_text digits stop,
      if_neg some_]

theorem readFraction_text (n : Numeral) (wellFormed : n.WellFormed) (rest : Text)
    (stop : ∀ u ∈ rest.head?, isDigit u = false ∧ u ≠ 0x2E) :
    readFraction (n.fractionText ++ rest) = some (n.fraction, rest) := by
  unfold Numeral.fractionText
  by_cases none : n.fraction = []
  · rw [if_pos none, nil_append, none]
    unfold readFraction
    split
    · exact absurd rfl (stop _ rfl).2
    · rfl
  · have read := readDigits_text wellFormed.fraction fun u h => (stop u h).1
    simp only [if_neg none, readFraction, cons_append, read]

theorem readMagnitude_text (negative : Bool) (n : Numeral) (wellFormed : n.WellFormed)
    (rest : Text) (ends : Ends rest) :
    readMagnitude negative (n.text ++ rest) = some (n.value negative, rest) := by
  have afterWhole : ∀ u ∈ (n.fractionText ++ (n.exponentText ++ rest)).head?, isDigit u = false := by
    intro u head
    unfold Numeral.fractionText at head
    split at head
    · exact (head_exponent_text n rest ends u head).1
    · cases head
      decide
  have accepted : ¬ (n.whole = [] ∨ n.whole.head? = some 0x30 ∧ 1 < n.whole.length) := by
    rcases wellFormed.whole with zero | ⟨u, later, held, nonzero⟩
    · rw [zero]
      decide
    · rw [held]
      rintro (empty | ⟨leading, -⟩)
      · cases empty
      · exact nonzero (Option.some.inj leading)
  have fraction := readFraction_text n wellFormed _ (head_exponent_text n rest ends)
  have exponent := readExponent_text n wellFormed rest ends
  rw [readMagnitude, Numeral.text, append_assoc, append_assoc,
    readDigits_text wellFormed.digits afterWhole]
  simp only [if_neg accepted, fraction, Option.bind_some, exponent, Option.map_some]
  rfl

/-- The numeral of `s * 10 ^ j`, the digits of `s` placed as `toString` places them. -/
def numeralOf (s : Nat) (j : Int) : Numeral :=
  let ds := digits s
  let n : Int := ds.length + j
  if 0 ≤ j ∧ n ≤ 21 then ⟨ds ++ zeros j.toNat, [], none⟩
  else if 0 < n ∧ n ≤ 21 then ⟨ds.take n.toNat, ds.drop n.toNat, none⟩
  else if -6 < n ∧ n ≤ 0 then ⟨[0x30], zeros (-n).toNat ++ ds, none⟩
  else ⟨ds.take 1, ds.drop 1, some (decide (n - 1 < 0), digits (n - 1).natAbs)⟩

/-- `String(x)`. -/
def numberText : Number → Text
  | .nan => js "NaN"
  | .infinity negative => (if negative then [0x2D] else []) ++ js "Infinity"
  | .finite x =>
    if x.units = 0 then [0x30]
    else (if x.negative then [0x2D] else []) ++
      (numeralOf (shortest x.units).1 (shortest x.units).2).text

theorem zeros_length (n : Nat) : (zeros n).length = n := length_replicate

theorem isDigit_of_mem_zeros {n : Nat} : ∀ u ∈ zeros n, isDigit u := by
  intro u mem
  rw [eq_of_mem_replicate mem]
  rfl

theorem numeralOf_wellFormed {s : Nat} (positive : 0 < s) (j : Int) : (numeralOf s j).WellFormed := by
  obtain ⟨u, rest, head, nonzero⟩ := head_digits positive
  have every := isDigit_of_mem_digits s
  unfold numeralOf
  dsimp only
  split
  · refine ⟨Or.inr ⟨u, rest ++ zeros j.toNat, by rw [head]; rfl, nonzero⟩, ?_, by simp, by simp⟩
    intro v mem
    rcases mem_append.mp mem with own | added
    · exact every v own
    · exact isDigit_of_mem_zeros v added
  split
  next inside =>
    have split : ∃ k, ((digits s).length + j).toNat = k + 1 := ⟨_, (Nat.succ_pred (by omega)).symm⟩
    obtain ⟨k, split⟩ := split
    refine ⟨Or.inr ⟨u, rest.take k, by rw [head, ← head, split, head]; rfl, nonzero⟩, ?_, ?_, by simp⟩
    · exact fun v mem => every v (mem_of_mem_take mem)
    · exact fun v mem => every v (mem_of_mem_drop mem)
  split
  · have zero : ∀ v ∈ ([0x30] : Text), isDigit v := forall_units _ (by decide)
    refine ⟨Or.inl rfl, zero, ?_, by simp⟩
    intro v mem
    rcases mem_append.mp mem with added | own
    · exact isDigit_of_mem_zeros v added
    · exact every v own
  · refine ⟨Or.inr ⟨u, [], by rw [head]; rfl, nonzero⟩, ?_, ?_, ?_⟩
    · exact fun v mem => every v (mem_of_mem_take mem)
    · exact fun v mem => every v (mem_of_mem_drop mem)
    · rintro e held
      rw [← Option.some.inj held]
      exact ⟨digits_ne_nil _, isDigit_of_mem_digits _⟩

theorem ofDecimal_shift (negative : Bool) (s k : Nat) :
    ofDecimal negative (s * 10 ^ k) 0 = ofDecimal negative s k := by
  have top : scaledTop (s * 10 ^ k) 0 = scaledTop s k := by simp [scaledTop]
  have bottom : scaledBottom 0 = scaledBottom (k : Int) := by simp [scaledBottom]
  rw [ofDecimal, ofDecimal, top, bottom]

theorem numeralOf_value (negative : Bool) (s : Nat) (j : Int) :
    (numeralOf s j).value negative = ofDecimal negative s j := by
  have whole := valueOf_digits s
  have some := digits_length_pos s
  unfold numeralOf
  dsimp only
  split
  next large =>
    have shifted : valueOf (digits s ++ zeros j.toNat) = s * 10 ^ j.toNat := by
      rw [valueOf_append, whole, valueOf_zeros, zeros_length, Nat.add_zero]
    have exact : ((j.toNat : Nat) : Int) = j := Int.toNat_of_nonneg large.1
    rw [Numeral.value, append_nil, shifted]
    rw [← exact]
    exact ofDecimal_shift negative s j.toNat
  split
  next inside =>
    have power : (0 : Int) - ((digits s).drop ((digits s).length + j).toNat).length = j := by
      rw [length_drop]
      omega
    simp only [Numeral.value, Numeral.power, take_append_drop, whole, power]
  split
  next inside =>
    have value : valueOf ([0x30] ++ (zeros (-((digits s).length + j)).toNat ++ digits s)) = s := by
      rw [valueOf_append, valueOf_append, valueOf_zeros, whole]
      simp [valueOf, digitValue]
    have power : (0 : Int) - (zeros (-((digits s).length + j)).toNat ++ digits s).length = j := by
      rw [length_append, zeros_length]
      omega
    simp only [Numeral.value, Numeral.power, value, power]
  next =>
    have power : (if decide ((digits s).length + j - 1 < 0) then
        -((((digits s).length + j - 1).natAbs : Nat) : Int)
        else (((digits s).length + j - 1).natAbs : Nat)) - (((digits s).drop 1).length : Int) = j := by
      rw [length_drop]
      split
      next below =>
        rw [decide_eq_true_eq] at below
        omega
      next above =>
        rw [decide_eq_true_eq] at above
        omega
    simp only [Numeral.value, Numeral.power, take_append_drop, whole, valueOf_digits, power]

def zero : Finite := ⟨false, 0, by
  have exact := nearest_exact (m := 0) (e := 0) (d := 1) (by decide) (by omega)
  simpa using exact, Nat.mul_pos (Nat.two_pow_pos _) one_pos⟩

/-- What a finite number reads back as. -/
def plusZero (x : Finite) : Finite := if x.units = 0 then zero else x

theorem ofDecimal_zero : ofDecimal false 0 0 = .finite zero := by
  have exact := zero.rounded
  have top : scaledTop 0 0 = zero.units := by simp [scaledTop, zero]
  have bottom : scaledBottom 0 = 1 := rfl
  have bounded : nearest zero.units 1 < limit := by
    rw [exact]
    exact zero.bounded
  rw [ofDecimal, top, bottom, ofFraction, dif_pos bounded]
  congr 1
  exact Finite.mk.injEq .. ▸ ⟨rfl, exact⟩

theorem valueOf_zero_digit : valueOf [0x30] = 0 := rfl

theorem ofDecimal_shortest (x : Finite) :
    ofDecimal x.negative (shortest x.units).1 (shortest x.units).2 = .finite x := by
  have reads := shortest_reads x.rounded
  have bounded := x.bounded
  rw [← reads] at bounded
  rw [ofDecimal, ofFraction, dif_pos bounded]
  obtain ⟨negative, units, rounded, within⟩ := x
  congr 1
  exact Finite.mk.injEq .. ▸ ⟨rfl, reads⟩

theorem shortest_pos {units : Nat} (rounded : nearest units 1 = units) (positive : 0 < units) :
    0 < (shortest units).1 := by
  rcases Nat.eq_zero_or_pos (shortest units).1 with none | some
  · have reads := shortest_reads rounded
    have empty : scaledTop 0 (shortest units).2 = 0 * 2 ^ 0 * scaledBottom (shortest units).2 := by
      simp [scaledTop]
    rw [none, empty, nearest_exact (scaledBottom_pos _) (by omega)] at reads
    omega
  · exact some

theorem numeral_head (wellFormed : n.WellFormed) :
    ∃ u later, n.text = u :: later ∧ isDigit u = true := by
  have digits := wellFormed.digits
  rcases wellFormed.whole with zero | ⟨u, later, held, -⟩
  · rw [Numeral.text, zero]
    exact ⟨_, _, rfl, rfl⟩
  · rw [held] at digits
    rw [Numeral.text, held]
    exact ⟨u, _, rfl, digits u mem_cons_self⟩

theorem readNumber_unsigned (wellFormed : n.WellFormed) (rest : Text) (ends : Ends rest) :
    readNumber (n.text ++ rest) = some (n.value false, rest) := by
  have read := readMagnitude_text false n wellFormed rest ends
  obtain ⟨u, later, text, digit⟩ := numeral_head wellFormed
  rw [text, cons_append] at read ⊢
  unfold readNumber
  split
  · next same =>
    obtain ⟨rfl, -⟩ := List.cons.inj same
    exact absurd digit (by decide)
  · exact read

theorem readNumber_zero (rest : Text) (ends : Ends rest) :
    readNumber (0x30 :: rest) = some (.finite zero, rest) := by
  have wellFormed : (⟨[0x30], [], none⟩ : Numeral).WellFormed :=
    ⟨Or.inl rfl, forall_units _ (by decide), by simp, by simp⟩
  have read := readNumber_unsigned wellFormed rest ends
  have value : (⟨[0x30], [], none⟩ : Numeral).value false = .finite zero := by
    simp only [Numeral.value, Numeral.power, valueOf_zero_digit, append_nil, length_nil,
      Int.natCast_zero, Int.sub_zero, ofDecimal_zero]
  rw [value] at read
  exact read

theorem readNumber_minus (t : Text) : readNumber (0x2D :: t) = readMagnitude true t := rfl

theorem readNumber_numberText (x : Finite) (rest : Text) (ends : Ends rest) :
    readNumber (numberText (.finite x) ++ rest) = some (.finite (plusZero x), rest) := by
  rw [numberText, plusZero]
  by_cases zeroUnits : x.units = 0
  · rw [if_pos zeroUnits, if_pos zeroUnits, singleton_append, readNumber_zero rest ends]
  · have wellFormed := numeralOf_wellFormed (shortest_pos x.rounded (by omega)) (shortest x.units).2
    have value := numeralOf_value x.negative (shortest x.units).1 (shortest x.units).2
    rw [ofDecimal_shortest] at value
    rw [if_neg zeroUnits, if_neg zeroUnits]
    cases sign : x.negative with
    | true =>
      rw [sign] at value
      rw [if_pos rfl, singleton_append, cons_append, readNumber_minus,
        readMagnitude_text true _ wellFormed rest ends, value]
    | false =>
      rw [sign] at value
      rw [if_neg Bool.false_ne_true, nil_append, readNumber_unsigned wellFormed rest ends,
        value]

/-- `\uXXXX` -/
def unicodeEscape (u : UInt16) : Text :=
  [backslash, 0x75, Sha256.hexDigit (u.toNat / 4096), Sha256.hexDigit (u.toNat / 256 % 16),
    Sha256.hexDigit (u.toNat / 16 % 16), Sha256.hexDigit (u.toNat % 16)]

/-- A unit that is no surrogate, inside quotes. -/
def escape (u : UInt16) : Text :=
  if u = quote then [backslash, quote]
  else if u = backslash then [backslash, backslash]
  else if u = 0x08 then [backslash, 0x62]
  else if u = 0x0C then [backslash, 0x66]
  else if u = 0x0A then [backslash, 0x6E]
  else if u = 0x0D then [backslash, 0x72]
  else if u = 0x09 then [backslash, 0x74]
  else if u < 0x20 then unicodeEscape u
  else [u]

def quoteUnits : Text → Text
  | [] => []
  | u :: rest =>
    if isHighSurrogate u then
      match rest with
      | v :: rest' =>
        if isLowSurrogate v then u :: v :: quoteUnits rest'
        else unicodeEscape u ++ quoteUnits (v :: rest')
      | [] => unicodeEscape u
    else if isLowSurrogate u then unicodeEscape u ++ quoteUnits rest
    else escape u ++ quoteUnits rest

/-- `JSON.stringify` of a string. -/
def quoted (t : Text) : Text := quote :: (quoteUnits t ++ [quote])

theorem hexValue_hexDigit {n : Nat} (small : n < 16) : hexValue (Sha256.hexDigit n) = some n := by
  revert n
  decide

theorem unitOfHex_digits (u : UInt16) :
    unitOfHex (Sha256.hexDigit (u.toNat / 4096)) (Sha256.hexDigit (u.toNat / 256 % 16))
      (Sha256.hexDigit (u.toNat / 16 % 16)) (Sha256.hexDigit (u.toNat % 16)) = some u := by
  have bound := u.toNat_lt
  have whole : ((u.toNat / 4096 * 16 + u.toNat / 256 % 16) * 16 + u.toNat / 16 % 16) * 16 +
      u.toNat % 16 = u.toNat := by omega
  rw [unitOfHex, hexValue_hexDigit (by omega), hexValue_hexDigit (by omega),
    hexValue_hexDigit (by omega), hexValue_hexDigit (by omega)]
  simp only [whole, Option.some.injEq]
  exact UInt16.ofNat_toNat

/-- What a reader makes of a unit in front of what it reads. -/
def consUnit (u : UInt16) (parsed : Option (Text × Text)) : Option (Text × Text) :=
  parsed.map fun (t, rest) => (u :: t, rest)

theorem readString_unicodeEscape (u : UInt16) (rest : Text) :
    readString (unicodeEscape u ++ rest) = consUnit u (readString rest) := by
  simp only [unicodeEscape, cons_append, nil_append]
  rw [readString, if_neg (by decide), if_pos rfl]
  simp only [if_true, unitOfHex_digits]
  rfl

theorem readString_plain (notQuote : u ≠ quote) (notBackslash : u ≠ backslash)
    (notControl : ¬ u < 0x20) (rest : Text) :
    readString (u :: rest) = consUnit u (readString rest) := by
  rw [readString.eq_def]
  simp only [if_neg notQuote, if_neg notBackslash, if_neg notControl]
  rfl

theorem readString_letter {e : UInt16} (letter : unitOfEscape e = some u) (notHex : e ≠ 0x75)
    (rest : Text) : readString (backslash :: e :: rest) = consUnit u (readString rest) := by
  rw [readString.eq_def]
  simp only [if_neg (show backslash ≠ quote by decide), if_true, if_neg notHex, letter]
  rfl

theorem readString_escape (u : UInt16) (rest : Text) :
    readString (escape u ++ rest) = consUnit u (readString rest) := by
  unfold escape
  split
  · next same => exact readString_letter (by rw [same]; rfl) (by decide) rest
  split
  · next same => exact readString_letter (by rw [same]; rfl) (by decide) rest
  split
  · next same => exact readString_letter (by rw [same]; rfl) (by decide) rest
  split
  · next same => exact readString_letter (by rw [same]; rfl) (by decide) rest
  split
  · next same => exact readString_letter (by rw [same]; rfl) (by decide) rest
  split
  · next same => exact readString_letter (by rw [same]; rfl) (by decide) rest
  split
  · next same => exact readString_letter (by rw [same]; rfl) (by decide) rest
  split
  · exact readString_unicodeEscape u rest
  · next notQuote notBackslash _ _ _ _ _ notControl =>
    exact readString_plain notQuote notBackslash notControl rest

theorem plain_of_surrogate (surrogate : 0xD800 ≤ u.toNat) :
    u ≠ quote ∧ u ≠ backslash ∧ ¬ u < 0x20 := by
  refine ⟨?_, ?_, ?_⟩
  · rintro rfl
    exact absurd surrogate (by decide)
  · rintro rfl
    exact absurd surrogate (by decide)
  · rw [UInt16.lt_iff_toNat_lt]
    have value : (0x20 : UInt16).toNat = 0x20 := rfl
    omega

theorem readString_quote (rest : Text) : readString (quote :: rest) = some ([], rest) := by
  rw [readString.eq_def]
  exact if_pos rfl

theorem readString_quoteUnits (t rest : Text) :
    readString (quoteUnits t ++ quote :: rest) = some (t, rest) := by
  fun_induction quoteUnits t with
  | case1 => exact readString_quote rest
  | case2 u high v rest' low ih =>
    have first := ((isHighSurrogate_iff u).mp high).1
    have second := ((isLowSurrogate_iff v).mp low).1
    obtain ⟨notQuote, notBackslash, notControl⟩ := plain_of_surrogate first
    obtain ⟨notQuote', notBackslash', notControl'⟩ := plain_of_surrogate (u := v) (by omega)
    rw [cons_append, cons_append, readString_plain notQuote notBackslash notControl,
      readString_plain notQuote' notBackslash' notControl', ih]
    rfl
  | case3 u high v rest' notLow ih =>
    rw [append_assoc, readString_unicodeEscape, ih]
    rfl
  | case4 u high =>
    rw [readString_unicodeEscape, readString_quote]
    rfl
  | case5 u rest' notHigh low ih =>
    rw [append_assoc, readString_unicodeEscape, ih]
    rfl
  | case6 u rest' notHigh notLow ih =>
    rw [append_assoc, readString_escape, ih]
    rfl

theorem small_hexDigit {n : Nat} (small : n < 16) : Sha256.hexDigit n < 0x80 := by
  revert n
  decide

theorem paired_unicodeEscape (u : UInt16) : paired (unicodeEscape u) = true := by
  have bound := u.toNat_lt
  apply paired_of_small
  intro v mem
  simp only [unicodeEscape, mem_cons, not_mem_nil, or_false] at mem
  rcases mem with rfl | rfl | rfl | rfl | rfl | rfl
  · decide
  · decide
  · exact small_hexDigit (by omega)
  · exact small_hexDigit (by omega)
  · exact small_hexDigit (by omega)
  · exact small_hexDigit (by omega)

theorem paired_escape (notHigh : ¬ isHighSurrogate u) (notLow : ¬ isLowSurrogate u) :
    paired (escape u) = true := by
  unfold escape
  split
  · rfl
  split
  · rfl
  split
  · rfl
  split
  · rfl
  split
  · rfl
  split
  · rfl
  split
  · rfl
  split
  · exact paired_unicodeEscape u
  · rw [paired_cons notHigh]
    simpa [paired] using notLow

theorem paired_quoteUnits (t : Text) : paired (quoteUnits t) = true := by
  fun_induction quoteUnits t with
  | case1 => rfl
  | case2 u high v rest' low ih => rw [paired_pair high, low, ih]; rfl
  | case3 u high v rest' notLow ih => exact paired_append (paired_unicodeEscape u) ih
  | case4 u high => exact paired_unicodeEscape u
  | case5 u rest' notHigh low ih => exact paired_append (paired_unicodeEscape u) ih
  | case6 u rest' notHigh notLow ih => exact paired_append (paired_escape notHigh notLow) ih

theorem paired_quoted (t : Text) : paired (quoted t) = true :=
  paired_append (s := [quote]) rfl (paired_append (paired_quoteUnits t) rfl)

/-- An array index: an integer below 2^32 - 1 as `toString` writes it. -/
def isIndex (name : Text) : Bool := digits (valueOf name) = name && valueOf name < 4294967295

/-- The order of own properties: the array indices by value, then the others as they came. -/
def ownOrder {β : Type} (members : List (Text × β)) : List (Text × β) :=
  (members.filter fun m => isIndex m.1).insertionSort (fun a b => valueOf a.1 ≤ valueOf b.1) ++
    members.filter fun m => !isIndex m.1

/-- A member with the text of its value. -/
def memberText (member : Text × Text) : Text := quoted member.1 ++ 0x3A :: member.2

def membersText (members : List (Text × Text)) : Text := join [0x2C] (members.map memberText)

def objectText (members : List (Text × Text)) : Text :=
  openBrace :: (membersText members ++ [closeBrace])

def arrayText (items : List Text) : Text := 0x5B :: (join [0x2C] items ++ [0x5D])

mutual

/-- `JSON.stringify(value)` -/
def stringify : Value → Text
  | .null => js "null"
  | .bool b => ofBool b
  | .num n => if isFinite n then numberText n else js "null"
  | .str s => quoted s
  | .arr items => arrayText (stringifyItems items)
  | .obj members => objectText (ownOrder (stringifyMembers members))

def stringifyItems : List Value → List Text
  | [] => []
  | v :: rest => stringify v :: stringifyItems rest

def stringifyMembers : List (Text × Value) → List (Text × Text)
  | [] => []
  | (name, v) :: rest => (name, stringify v) :: stringifyMembers rest

end

theorem stringifyMembers_eq (members : List (Text × Value)) :
    stringifyMembers members = members.map fun m => (m.1, stringify m.2) := by
  induction members with
  | nil => rfl
  | cons m rest ih => rw [stringifyMembers, ih]; rfl

theorem ownOrder_perm (members : List (Text × β)) :
    (ownOrder members).Perm members :=
  ((perm_insertionSort _ _).append_right _).trans (filter_append_perm _ _)

theorem ownOrder_of_names {members : List (Text × β)} (none : ∀ m ∈ members, isIndex m.1 = false) :
    ownOrder members = members := by
  have empty : (members.filter fun m => isIndex m.1) = [] := by
    rw [filter_eq_nil_iff]
    intro m mem
    rw [none m mem]
    exact Bool.false_ne_true
  have whole : (members.filter fun m => !isIndex m.1) = members := by
    rw [filter_eq_self]
    intro m mem
    rw [none m mem]
    rfl
  rw [ownOrder, empty, whole]
  rfl

theorem ownOrder_map {γ : Type} (f : β → γ) (members : List (Text × β)) :
    ownOrder (members.map fun m => (m.1, f m.2)) = (ownOrder members).map fun m => (m.1, f m.2) := by
  have sorted := map_insertionSort (fun a b : Text × β => valueOf a.1 ≤ valueOf b.1)
    (fun a b : Text × γ => valueOf a.1 ≤ valueOf b.1) (fun m => (m.1, f m.2))
    (members.filter fun m => isIndex m.1) (fun a _ b _ => Iff.rfl)
  rw [ownOrder, ownOrder, map_append, sorted, filter_map, filter_map]
  rfl

/-- The text reads as the value in front of whatever cannot continue a number. -/
def Reads (t : Text) (v : Value) : Prop :=
  ∀ fuel rest, t.length ≤ fuel → Ends rest → readValue fuel (t ++ rest) = some (v, rest)

theorem skipWs_cons (visible : isWs u = false) (rest : Text) :
    skipWs (u :: rest) = u :: rest := by
  rw [skipWs, dropWhile_cons, visible]
  rfl

theorem ends_cons (digit : isDigit u = false) (other : u ≠ 0x2E ∧ u ≠ 0x65 ∧ u ≠ 0x45)
    (rest : Text) : Ends (u :: rest) := by
  intro v head
  cases head
  exact ⟨digit, other⟩

theorem succ_of_cons (enough : (u :: t).length ≤ fuel) :
    ∃ n, fuel = n + 1 ∧ t.length ≤ n := by
  rw [length_cons] at enough
  exact ⟨fuel - 1, by omega, by omega⟩

theorem reads_quoted (t : Text) : Reads (quoted t) (.str t) := by
  intro fuel rest enough _
  obtain ⟨fuel, rfl, -⟩ := succ_of_cons enough
  rw [quoted, cons_append, append_assoc, singleton_append, readValue,
    skipWs_cons (by decide)]
  dsimp only
  rw [if_neg (by decide), if_neg (by decide), if_pos rfl, readString_quoteUnits]
  rfl

theorem readWord_self (word rest : Text) (value : Value) :
    readWord word value (word ++ rest) = some (value, rest) := by
  rw [readWord, if_pos (List.isPrefixOf_iff_prefix.mpr (prefix_append _ _)),
    drop_left]

theorem readWord_other {word : Text} {w : UInt16} (other : w ≠ u) (value : Value) (rest : Text) :
    readWord (w :: word) value (u :: rest) = none := by
  rw [readWord, List.isPrefixOf, beq_eq_false_iff_ne.mpr other]
  rfl

/-- A unit at which none of the brackets, strings and blanks begins. -/
def opensScalar (u : UInt16) : Bool :=
  !isWs u && u ≠ openBrace && u ≠ 0x5B && u ≠ quote

theorem readValue_scalar (opens : opensScalar u = true) (fuel : Nat) (rest : Text) :
    readValue (fuel + 1) (u :: rest) = readScalar (u :: rest) := by
  simp only [opensScalar, Bool.and_eq_true, Bool.not_eq_true', decide_eq_true_eq] at opens
  obtain ⟨⟨⟨visible, brace⟩, bracket⟩, notQuote⟩ := opens
  rw [readValue, skipWs_cons visible]
  dsimp only
  rw [if_neg brace, if_neg bracket, if_neg notQuote]

theorem js_true : js "true" = [0x74, 0x72, 0x75, 0x65] := rfl

theorem js_false : js "false" = [0x66, 0x61, 0x6C, 0x73, 0x65] := rfl

theorem js_null : js "null" = [0x6E, 0x75, 0x6C, 0x6C] := rfl

theorem reads_true : Reads (js "true") (.bool true) := by
  intro fuel rest enough _
  obtain ⟨fuel, rfl, -⟩ := succ_of_cons enough
  have word := readWord_self (js "true") rest (.bool true)
  rw [js_true, cons_append] at word ⊢
  rw [readValue_scalar (by decide), readScalar, js_true, word]
  rfl

theorem reads_false : Reads (js "false") (.bool false) := by
  intro fuel rest enough _
  obtain ⟨fuel, rfl, -⟩ := succ_of_cons enough
  have word := readWord_self (js "false") rest (.bool false)
  rw [js_false, cons_append] at word ⊢
  rw [readValue_scalar (by decide), readScalar, js_true, js_false, word, readWord_other (by decide)]
  rfl

theorem reads_bool (b : Bool) : Reads (ofBool b) (.bool b) := by
  cases b with
  | true => exact reads_true
  | false => exact reads_false

/-- The number texts start with a digit or a minus sign. -/
def startsNumber (u : UInt16) : Bool := isDigit u || u = 0x2D

theorem numberText_head (x : Finite) :
    ∃ u rest, numberText (.finite x) = u :: rest ∧ startsNumber u := by
  rw [numberText]
  by_cases none : x.units = 0
  · rw [if_pos none]
    exact ⟨_, _, rfl, rfl⟩
  rw [if_neg none]
  have wellFormed := numeralOf_wellFormed (shortest_pos x.rounded (by omega)) (shortest x.units).2
  obtain ⟨u, later, text, digit⟩ := numeral_head wellFormed
  rw [text]
  cases x.negative with
  | true => exact ⟨_, _, rfl, rfl⟩
  | false => exact ⟨u, later, rfl, by rw [startsNumber, digit, Bool.true_or]⟩

theorem startsNumber_bounds (starts : startsNumber u) :
    0x2D ≤ u.toNat ∧ u.toNat ≤ 0x39 := by
  simp only [startsNumber, isDigit, Bool.or_eq_true, Bool.and_eq_true, decide_eq_true_eq,
    UInt16.le_iff_toNat_le] at starts
  rcases starts with ⟨least, most⟩ | rfl
  · have low : (0x30 : UInt16).toNat = 0x30 := rfl
    have high : (0x39 : UInt16).toNat = 0x39 := rfl
    omega
  · decide

theorem opens_startsNumber (starts : startsNumber u) :
    opensScalar u = true ∧ (0x74 : UInt16) ≠ u ∧ (0x66 : UInt16) ≠ u ∧ (0x6E : UInt16) ≠ u := by
  obtain ⟨least, most⟩ := startsNumber_bounds starts
  have apart (v : UInt16) (outside : v.toNat < 0x2D ∨ 0x39 < v.toNat) : u ≠ v := by
    rintro rfl
    omega
  have blank : isWs u = false := by
    simp only [isWs, Bool.or_eq_false_iff, decide_eq_false_iff_not]
    exact ⟨⟨⟨apart _ (by decide), apart _ (by decide)⟩, apart _ (by decide)⟩, apart _ (by decide)⟩
  refine ⟨?_, (apart _ (by decide)).symm, (apart _ (by decide)).symm, (apart _ (by decide)).symm⟩
  simp only [opensScalar, blank, Bool.not_false, Bool.true_and, Bool.and_eq_true, decide_eq_true_eq]
  exact ⟨⟨apart _ (by decide), apart _ (by decide)⟩, apart _ (by decide)⟩

theorem reads_number (x : Finite) :
    Reads (numberText (.finite x)) (.num (.finite (plusZero x))) := by
  intro fuel rest enough ends
  obtain ⟨u, later, text, starts⟩ := numberText_head x
  obtain ⟨opens, t, f, n⟩ := opens_startsNumber starts
  have read := readNumber_numberText x rest ends
  rw [text] at enough
  obtain ⟨fuel, rfl, -⟩ := succ_of_cons enough
  rw [text, cons_append] at read ⊢
  rw [readValue_scalar opens, readScalar, js_true, js_false, js_null, readWord_other t,
    readWord_other f, readWord_other n, read]
  rfl

/-- The members of an object as the reader puts them together. -/
def gather (members : List (Text × Value)) : List (Text × Value) :=
  members.foldl (fun acc m => put m.1 m.2 acc) []

theorem readMembers_member (reads : Reads t v) (room : t.length ≤ fuel) (name : Text) (rest : Text)
    (ends : Ends (u :: rest)) (visible : isWs u = false) (acc : List (Text × Value)) :
    readMembers (fuel + 1) acc (memberText (name, t) ++ u :: rest) =
      if u = 0x2C then readMembers fuel (put name v acc) rest
      else if u = closeBrace then some (.obj (put name v acc), rest)
      else none := by
  rw [memberText, quoted, cons_append, cons_append, readMembers, skipWs_cons (by decide)]
  dsimp only
  rw [if_pos rfl, append_assoc, append_assoc, singleton_append,
    readString_quoteUnits]
  dsimp only
  rw [cons_append, skipWs_cons (by decide)]
  dsimp only
  rw [if_pos rfl, reads fuel (u :: rest) room ends]
  dsimp only
  rw [skipWs_cons visible]

theorem membersText_cons (m next : Text × Text) (ms : List (Text × Text)) :
    membersText (m :: next :: ms) = memberText m ++ 0x2C :: membersText (next :: ms) := by
  simp [membersText, join]

theorem length_memberText (name t : Text) : t.length + 1 ≤ (memberText (name, t)).length := by
  simp only [memberText, length_append, length_cons]
  omega

theorem readMembers_text {ms : List (Text × Text × Value)} (some_ : ms ≠ [])
    (each : ∀ m ∈ ms, Reads m.2.1 m.2.2) (fuel : Nat) (acc : List (Text × Value)) (rest : Text)
    (enough : (membersText (ms.map fun m => (m.1, m.2.1))).length ≤ fuel) :
    readMembers fuel acc (membersText (ms.map fun m => (m.1, m.2.1)) ++ closeBrace :: rest) =
      some (.obj ((ms.map fun m => (m.1, m.2.2)).foldl (fun acc m => put m.1 m.2 acc) acc), rest) := by
  induction ms generalizing fuel acc with
  | nil => exact absurd rfl some_
  | cons m ms ih =>
    obtain ⟨name, t, v⟩ := m
    have reads : Reads t v := each (name, t, v) mem_cons_self
    have wide := length_memberText name t
    cases ms with
    | nil =>
      have text : membersText ([(name, t, v)].map fun m => (m.1, m.2.1)) = memberText (name, t) := rfl
      rw [text] at enough ⊢
      obtain ⟨fuel, rfl⟩ : ∃ n, fuel = n + 1 := ⟨fuel - 1, by omega⟩
      rw [readMembers_member reads (by omega) name rest (ends_cons (by decide) (by decide) rest)
        (by decide), if_neg (by decide), if_pos rfl]
      rfl
    | cons next ms =>
      have later := ih (cons_ne_nil _ _) fun m mem => each m (mem_cons_of_mem _ mem)
      simp only [map_cons] at enough later ⊢
      rw [membersText_cons, length_append, length_cons] at enough
      obtain ⟨fuel, rfl⟩ : ∃ n, fuel = n + 1 := ⟨fuel - 1, by omega⟩
      rw [membersText_cons, append_assoc, cons_append,
        readMembers_member reads (by omega) name _ (ends_cons (by decide) (by decide) _) (by decide),
        if_pos rfl, later fuel (put name v acc) (by omega)]
      rfl

theorem reads_object {ms : List (Text × Text × Value)} (each : ∀ m ∈ ms, Reads m.2.1 m.2.2) :
    Reads (objectText (ms.map fun m => (m.1, m.2.1)))
      (.obj (gather (ms.map fun m => (m.1, m.2.2)))) := by
  intro fuel rest enough _
  rw [objectText] at enough ⊢
  obtain ⟨fuel, rfl, room⟩ := succ_of_cons enough
  rw [cons_append, append_assoc, singleton_append, readValue,
    skipWs_cons (by decide)]
  dsimp only
  rw [if_pos rfl]
  cases ms with
  | nil => rfl
  | cons m ms =>
    rw [length_append] at room
    have read := readMembers_text (cons_ne_nil m ms) each fuel [] rest (by omega)
    obtain ⟨later, head⟩ : ∃ later, membersText ((m :: ms).map fun m => (m.1, m.2.1)) =
        quote :: later := by
      cases ms with
      | nil => exact ⟨_, rfl⟩
      | cons next ms => exact ⟨_, rfl⟩
    rw [head, cons_append] at read
    rw [head, cons_append, skipWs_cons (by decide)]
    dsimp only
    rw [if_neg (by decide), read]
    rfl

theorem parse_of_reads (reads : Reads t v) : parse t = some v := by
  have read := reads (t.length + 1) [] (by omega) (by simp [Ends])
  rw [append_nil] at read
  rw [parse, read]
  rfl

theorem names_put (name : Text) (v : Value) (members : List (Text × Value)) :
    (put name v members).map Prod.fst =
      if name ∈ members.map Prod.fst then members.map Prod.fst
      else members.map Prod.fst ++ [name] := by
  have found : members.any (·.1 = name) = true ↔ name ∈ members.map Prod.fst := by
    rw [any_eq_true, mem_map]
    simp only [decide_eq_true_eq]
  unfold put
  split
  · next held =>
    rw [if_pos (found.mp held), map_map]
    apply map_congr_left
    intro m _
    rw [Function.comp_apply]
    split
    · next same => exact same.symm
    · rfl
  · next fresh =>
    rw [if_neg fun mem => fresh (found.mpr mem), map_append]
    rfl

theorem put_of_fresh {name : Text} (fresh : name ∉ members.map Prod.fst) (v : Value) :
    put name v members = members ++ [(name, v)] := by
  unfold put
  rw [if_neg]
  intro held
  obtain ⟨m, mem, same⟩ := any_eq_true.mp held
  exact fresh (mem_map.mpr ⟨m, mem, of_decide_eq_true same⟩)

theorem gather_append (members : List (Text × Value)) (m : Text × Value) :
    gather (members ++ [m]) = put m.1 m.2 (gather members) := by
  rw [gather, foldl_append]
  rfl

theorem gather_of_nodup (distinct : (members.map Prod.fst).Nodup) :
    gather members = members := by
  induction members using List.reverseRecOn with
  | nil => rfl
  | append_singleton members m ih =>
    rw [map_append, nodup_append] at distinct
    obtain ⟨front, -, apart⟩ := distinct
    have fresh : m.1 ∉ members.map Prod.fst :=
      fun mem => apart _ mem _ (mem_singleton.mpr rfl) rfl
    rw [gather_append, ih front, put_of_fresh fresh]

theorem paired_join {sep : Text} (pairedSep : paired sep = true) {parts : List Text}
    (each : ∀ t ∈ parts, paired t = true) : paired (join sep parts) = true := by
  induction parts with
  | nil => rfl
  | cons t rest ih =>
    have later := ih fun s mem => each s (mem_cons_of_mem _ mem)
    have first := each t mem_cons_self
    cases rest with
    | nil => exact first
    | cons s rest => exact paired_append (paired_append first pairedSep) later

theorem paired_object {members : List (Text × Text)} (each : ∀ m ∈ members, paired m.2 = true) :
    paired (objectText members) = true := by
  have inner : paired (membersText members) = true := by
    apply paired_join rfl
    intro t mem
    obtain ⟨m, held, rfl⟩ := mem_map.mp mem
    exact paired_append (paired_quoted m.1) (paired_append (s := [0x3A]) rfl (each m held))
  exact paired_append (s := [openBrace]) rfl (paired_append inner rfl)

theorem small_of_digit (digit : isDigit u = true) : u < 0x80 := by
  simp only [isDigit, Bool.and_eq_true, decide_eq_true_eq, UInt16.le_iff_toNat_le] at digit
  have high : (0x39 : UInt16).toNat = 0x39 := rfl
  rw [UInt16.lt_iff_toNat_lt]
  exact lt_of_le_of_lt digit.2 (by rw [high]; decide)

theorem small_numeral (wellFormed : n.WellFormed) : ∀ u ∈ n.text, u < 0x80 := by
  intro u mem
  rw [Numeral.text] at mem
  rcases mem_append.mp mem with whole | rest
  · exact small_of_digit (wellFormed.digits u whole)
  rcases mem_append.mp rest with fraction | exponent
  · unfold Numeral.fractionText at fraction
    split at fraction
    · cases fraction
    · rcases mem_cons.mp fraction with rfl | digit
      · decide
      · exact small_of_digit (wellFormed.fraction u digit)
  · unfold Numeral.exponentText at exponent
    split at exponent
    · cases exponent
    · next negative ds held =>
      rcases mem_cons.mp exponent with rfl | signed
      · decide
      rcases mem_cons.mp signed with rfl | digit
      · cases negative with
        | true => decide
        | false => decide
      · exact small_of_digit ((wellFormed.exponent _ held).2 u digit)

theorem paired_signed (negative : Bool) (wellFormed : n.WellFormed) :
    paired ((if negative then [0x2D] else []) ++ n.text) = true := by
  have inner := paired_of_small (small_numeral wellFormed)
  cases negative with
  | true => exact paired_append (s := [0x2D]) rfl inner
  | false => exact inner

theorem paired_number (x : Finite) : paired (numberText (.finite x)) = true := by
  rw [numberText]
  split
  · exact paired_of_small (forall_units _ (by decide))
  · next some_ =>
    have positive := shortest_pos x.rounded (Nat.pos_of_ne_zero some_)
    rw [paired_signed x.negative (numeralOf_wellFormed positive (shortest x.units).2)]

def Distinct (v : Value) : Prop := ∀ members, v = .obj members → (members.map Prod.fst).Nodup

/-- The names of an object and those of each object in it are distinct. -/
def DistinctWithin (v : Value) : Prop :=
  ∀ members, v = .obj members → (members.map Prod.fst).Nodup ∧ ∀ m ∈ members, Distinct m.2

theorem DistinctWithin.distinct (within : DistinctWithin v) : Distinct v :=
  fun members same => (within members same).1

theorem distinctWithin_scalar (scalar : ∀ members, v ≠ .obj members) :
    DistinctWithin v :=
  fun members same => absurd same (scalar members)

theorem distinct_put (distinct : (members.map Prod.fst).Nodup) (name : Text) (v : Value) :
    ((put name v members).map Prod.fst).Nodup := by
  rw [names_put]
  split
  · exact distinct
  · next fresh =>
    rw [nodup_append]
    refine ⟨distinct, nodup_singleton _, ?_⟩
    rintro a front b last rfl
    exact fresh (mem_singleton.mp last ▸ front)

theorem mem_put {name : Text} {m : Text × Value} (mem : m ∈ put name v members) :
    m ∈ members ∨ m = (name, v) := by
  unfold put at mem
  split at mem
  · obtain ⟨old, held, same⟩ := mem_map.mp mem
    split at same
    · exact .inr same.symm
    · exact .inl (same ▸ held)
  · rcases mem_append.mp mem with front | last
    · exact .inl front
    · exact .inr (mem_singleton.mp last)

theorem readWord_value {word : Text} {value : Value}
    (read : readWord word value t = some (v, rest)) : v = value := by
  unfold readWord at read
  split at read
  · exact (Prod.mk.inj (Option.some.inj read)).1.symm
  · cases read

theorem readScalar_value (read : readScalar t = some (v, rest)) :
    ∀ members, v ≠ .obj members := by
  rintro members rfl
  unfold readScalar at read
  simp only [Option.or_eq_some_iff] at read
  rcases read with word | ⟨-, word | ⟨-, word | ⟨-, number⟩⟩⟩
  · cases readWord_value word
  · cases readWord_value word
  · cases readWord_value word
  · obtain ⟨⟨n, rest'⟩, -, same⟩ := Option.map_eq_some_iff.mp number
    cases same

theorem readItems_value {items : List Value} (read : readItems fuel items t = some (v, rest)) :
    ∀ members, v ≠ .obj members := by
  induction fuel generalizing items t with
  | zero => cases read
  | succ fuel ih =>
    rw [readItems] at read
    split at read
    · cases read
    · split at read
      · cases read
      · split at read
        · exact ih read
        · split at read
          · obtain ⟨rfl, -⟩ := Prod.mk.inj (Option.some.inj read)
            exact fun members => nofun
          · cases read

/-- A reader with this fuel gives distinct names. -/
def GivesDistinct (fuel : Nat) : Prop :=
  (∀ t v rest, readValue fuel t = some (v, rest) → DistinctWithin v) ∧
    ∀ acc t v rest, (acc.map Prod.fst).Nodup → (∀ m ∈ acc, Distinct m.2) →
      readMembers fuel acc t = some (v, rest) → DistinctWithin v

theorem readMembers_distinct (less : GivesDistinct fuel) {acc : List (Text × Value)}
    (distinct : (acc.map Prod.fst).Nodup) (each : ∀ m ∈ acc, Distinct m.2)
    (read : readMembers (fuel + 1) acc t = some (v, rest)) :
    DistinctWithin v := by
  rw [readMembers] at read
  split at read
  · cases read
  split at read
  swap
  · cases read
  split at read
  · cases read
  next name _ _ =>
    split at read
    · cases read
    split at read
    swap
    · cases read
    split at read
    · cases read
    next value _ got =>
      have own := (less.1 _ _ _ got).distinct
      have eachPut : ∀ m ∈ put name value acc, Distinct m.2 := by
        intro m mem
        rcases mem_put mem with old | rfl
        · exact each m old
        · exact own
      split at read
      · cases read
      split at read
      · exact less.2 _ _ _ _ (distinct_put distinct name value) eachPut read
      split at read
      · obtain ⟨rfl, -⟩ := Prod.mk.inj (Option.some.inj read)
        rintro members same
        cases same
        exact ⟨distinct_put distinct name value, eachPut⟩
      · cases read

theorem readValue_distinct (less : GivesDistinct fuel)
    (read : readValue (fuel + 1) t = some (v, rest)) : DistinctWithin v := by
  rw [readValue] at read
  split at read
  · cases read
  split at read
  · split at read
    · cases read
    split at read
    · obtain ⟨rfl, -⟩ := Prod.mk.inj (Option.some.inj read)
      rintro members same
      cases same
      exact ⟨nodup_nil, fun m mem => by cases mem⟩
    · exact less.2 [] _ _ _ nodup_nil (fun m mem => by cases mem) read
  split at read
  · split at read
    · cases read
    split at read
    · obtain ⟨rfl, -⟩ := Prod.mk.inj (Option.some.inj read)
      exact distinctWithin_scalar fun members => nofun
    · exact distinctWithin_scalar (readItems_value read)
  split at read
  · obtain ⟨⟨s, rest'⟩, -, same⟩ := Option.map_eq_some_iff.mp read
    obtain ⟨rfl, -⟩ := Prod.mk.inj same
    exact distinctWithin_scalar fun members => nofun
  · exact distinctWithin_scalar (readScalar_value read)

theorem givesDistinct (fuel : Nat) : GivesDistinct fuel := by
  induction fuel with
  | zero =>
    constructor
    · intro t v rest read
      cases read
    · intro acc t v rest _ _ read
      cases read
  | succ fuel ih =>
    constructor
    · intro t v rest read
      exact readValue_distinct ih read
    · intro acc t v rest distinct each read
      exact readMembers_distinct ih distinct each read

theorem parse_distinct (parsed : parse t = some v) : DistinctWithin v := by
  unfold parse at parsed
  split at parsed
  · next value rest read =>
    split at parsed
    · obtain rfl := Option.some.inj parsed
      exact (givesDistinct _).1 _ _ _ read
    · cases parsed
  · cases parsed

end Ultrathink.Library.JsonWrite
