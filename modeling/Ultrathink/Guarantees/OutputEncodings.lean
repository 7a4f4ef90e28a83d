import Ultrathink.Library.Decoders
import Ultrathink.Source.Security.Encoding

/-!
# Output encodings

Which texts each encoder of `encodeForContext` gives back: the decoder of the context, applied
to the encoded text, yields the original exactly for the texts named here.
-/

namespace Ultrathink.Guarantees.OutputEncodings

open List Library JsText JsonText Decoders Source.Security.Encoding

inductive Quote where
  | single | double
  deriving DecidableEq, Repr

def Quote.unit : Quote → UInt16
  | .single => 0x27
  | .double => 0x22

def htmlPairs : List (UInt16 × Text) := [
  (0x26, js "&amp;"), (0x3C, js "&lt;"), (0x3E, js "&gt;"), (0x22, js "&quot;"),
  (0x27, js "&apos;"), (0x2F, js "&#x2F;")]

theorem encodeHtml_eq (s : Text) : encodeHtml s = replaceAll htmlPairs s := rfl

def attributePairs : List (UInt16 × Text) := htmlPairs ++ [(0x60, js "&#x60;")]

theorem encodeHtmlAttribute_eq (s : Text) :
    encodeHtmlAttribute s = replaceAll attributePairs s := by
  rw [encodeHtmlAttribute, encodeHtml_eq, attributePairs, replaceAll_pairs]
  rfl

/-- A text without NUL and carriage return, which no markup can hold. -/
def markupText (s : Text) : Prop := ∀ u ∈ s, u ≠ 0x00 ∧ u ≠ 0x0D

theorem references_markup : ∀ r ∈ references, ∀ u ∈ r.2, u ≠ 0x00 ∧ u ≠ 0x0D := by
  intro r mem u inside
  have all : references.all (fun r => r.2.all fun u => decide (u ≠ 0x00 ∧ u ≠ 0x0D)) = true := rfl
  exact of_decide_eq_true (all_eq_true.mp (all_eq_true.mp all r mem) u inside)

variable {u v : UInt16} {s : Text}

theorem markupReader_units {rest units : Text} {skip : Nat} (solid : u ≠ 0x00)
    (read : markupReader u rest = some (units, skip)) : ∀ v ∈ units, v ≠ 0x00 ∧ v ≠ 0x0D := by
  unfold markupReader at read
  split at read
  · obtain ⟨r, found, same⟩ := Option.map_eq_some_iff.mp read
    cases same
    exact references_markup r (mem_of_find?_eq_some found)
  split at read
  · cases read
    simp
  · next notReturn =>
    cases read
    simpa using ⟨solid, notReturn⟩

theorem htmlText_units {t : Text} (decoded : htmlText t = some s) : markupText s := by
  refine unescape_forall (fun v => v ≠ 0x00 ∧ v ≠ 0x0D) ?_ decoded
  intro u rest units skip read
  unfold htmlTextReader at read
  split at read
  · cases read
  split at read
  · cases read
    simp
  · next solid => exact markupReader_units solid read

theorem htmlAttribute_units {quote : UInt16} {t : Text} (decoded : htmlAttribute quote t = some s) :
    markupText s := by
  refine unescape_forall (fun v => v ≠ 0x00 ∧ v ≠ 0x0D) ?_ decoded
  intro u rest units skip read
  unfold htmlAttributeReader at read
  split at read
  · cases read
  split at read
  · cases read
    simp only [mem_singleton, forall_eq]
    decide
  · next solid => exact markupReader_units solid read

theorem markupReader_plain (plain : u ≠ 0x26 ∧ u ≠ 0x0D) (rest : Text) :
    markupReader u rest = some ([u], 0) := by
  rw [markupReader, if_neg plain.1, if_neg plain.2]

theorem htmlText_encodeHtml (markup : markupText s) :
    htmlText (encodeHtml s) = some s := by
  rw [encodeHtml_eq]
  apply unescape_replaceAll
  · simp only [htmlPairs, map_cons, map_nil, forall_mem_cons]
    exact ⟨reads_token fun _ => rfl, reads_token fun _ => rfl, reads_token fun _ => rfl,
      reads_token fun _ => rfl, reads_token fun _ => rfl, reads_token fun _ => rfl, by simp⟩
  · intro u mem other
    simp only [htmlPairs, map_cons, map_nil, mem_cons, not_or] at other
    refine reads_unit fun rest => ?_
    rw [htmlTextReader, if_neg other.2.1, if_neg (markup u mem).1,
      markupReader_plain ⟨other.1, (markup u mem).2⟩]

theorem htmlText_iff (s : Text) : htmlText (encodeHtml s) = some s ↔ markupText s :=
  ⟨htmlText_units, htmlText_encodeHtml⟩

theorem htmlAttribute_encode (quote : Quote) (markup : markupText s) :
    htmlAttribute quote.unit (encodeHtmlAttribute s) = some s := by
  rw [encodeHtmlAttribute_eq]
  apply unescape_replaceAll
  · simp only [attributePairs, htmlPairs, cons_append, nil_append, map_cons,
      map_nil, forall_mem_cons]
    cases quote <;>
      exact ⟨reads_token fun _ => rfl, reads_token fun _ => rfl, reads_token fun _ => rfl,
        reads_token fun _ => rfl, reads_token fun _ => rfl, reads_token fun _ => rfl,
        reads_token fun _ => rfl, by simp⟩
  · intro u mem other
    simp only [attributePairs, htmlPairs, cons_append, nil_append, map_cons,
      map_nil, mem_cons, not_or] at other
    have open_ : u ≠ quote.unit := by
      cases quote
      · exact other.2.2.2.2.1
      · exact other.2.2.2.1
    refine reads_unit fun rest => ?_
    rw [htmlAttributeReader, if_neg open_, if_neg (markup u mem).1,
      markupReader_plain ⟨other.1, (markup u mem).2⟩]

theorem htmlAttribute_iff (quote : Quote) (s : Text) :
    htmlAttribute quote.unit (encodeHtmlAttribute s) = some s ↔ markupText s :=
  ⟨htmlAttribute_units, htmlAttribute_encode quote⟩

def scriptPairs : List (UInt16 × Text) := [
  (0x5C, js "\\\\"), (0x27, js "\\'"), (0x22, js "\\\""), (0x0A, js "\\n"), (0x0D, js "\\r"),
  (0x09, js "\\t"), (0x08, js "\\b"), (0x3C, js "\\u003C"), (0x3E, js "\\u003E"),
  (0x26, js "\\u0026"), (0x3D, js "\\u003D"), (0x2D, js "\\u002D"), (0x3B, js "\\u003B")]

theorem encodeJavaScript_eq (s : Text) : encodeJavaScript s = replaceAll scriptPairs s := rfl

theorem scriptString_encodeJavaScript (quote : Quote) (s : Text) :
    scriptString quote.unit (encodeJavaScript s) = some s := by
  rw [encodeJavaScript_eq]
  apply unescape_replaceAll
  · simp only [scriptPairs, map_cons, map_nil, forall_mem_cons]
    cases quote <;>
      exact ⟨reads_token fun _ => rfl, reads_token fun _ => rfl, reads_token fun _ => rfl,
        reads_token fun _ => rfl, reads_token fun _ => rfl, reads_token fun _ => rfl,
        reads_token fun _ => rfl, reads_token fun _ => rfl, reads_token fun _ => rfl,
        reads_token fun _ => rfl, reads_token fun _ => rfl, reads_token fun _ => rfl,
        reads_token fun _ => rfl, by simp⟩
  · intro u mem other
    simp only [scriptPairs, map_cons, map_nil, mem_cons, not_or] at other
    have open_ : ¬ (u = quote.unit ∨ u = 0x0A ∨ u = 0x0D) := by
      rintro (same | same | same)
      · cases quote
        · exact other.2.1 same
        · exact other.2.2.1 same
      · exact other.2.2.2.1 same
      · exact other.2.2.2.2.1 same
    refine reads_unit fun rest => ?_
    unfold scriptReader
    rw [if_neg open_, if_neg (show u ≠ backslash from other.1)]

theorem ldapFilter_encode (s : Text) : ldapFilterValue (escapeLdapFilter s) = some s := by
  apply unescape_replaceAll
  · simp only [ldapEscapes, map_cons, map_nil, forall_mem_cons]
    exact ⟨reads_token fun _ => rfl, reads_token fun _ => rfl, reads_token fun _ => rfl,
      reads_token fun _ => rfl, reads_token fun _ => rfl, by simp⟩
  · intro u mem other
    simp only [ldapEscapes, map_cons, map_nil, mem_cons, not_or] at other
    have open_ : ¬ (u = 0x00 ∨ u = 0x28 ∨ u = 0x29 ∨ u = 0x2A) := by
      rintro (same | same | same | same)
      · exact other.2.2.2.2.1 same
      · exact other.2.2.1 same
      · exact other.2.2.2.1 same
      · exact other.2.1 same
    refine reads_unit fun rest => ?_
    rw [ldapFilterReader, if_neg open_, if_neg (show u ≠ backslash from other.1)]

theorem shellWord_quoted (s : Text) :
    shellWord true (replaceUnit 0x27 (js "'\\''") s ++ [0x27]) = some s ↔ 0x00 ∉ s := by
  induction s with
  | nil =>
    rw [replaceUnit, flatMap_nil, nil_append, shellWord_quote]
    simp [shellWord]
  | cons u s ih =>
    have step : replaceUnit 0x27 (js "'\\''") (u :: s) ++ [0x27] =
        (if u = 0x27 then js "'\\''" else [u]) ++ (replaceUnit 0x27 (js "'\\''") s ++ [0x27]) := by
      rw [replaceUnit, flatMap_cons, append_assoc]
      rfl
    rw [step]
    by_cases quote : u = 0x27
    · have read : ∀ rest,
          shellWord true (js "'\\''" ++ rest) = (shellWord true rest).map (0x27 :: ·) := by
        intro rest
        have units : js "'\\''" ++ rest = 0x27 :: backslash :: 0x27 :: 0x27 :: rest := rfl
        rw [units, shellWord_quote, Bool.not_true, shellWord_escaped, shellWord_quote,
          Bool.not_false]
      rw [if_pos quote, read, quote]
      simpa [Option.map_eq_some_iff] using ih
    · rw [if_neg quote, singleton_append]
      by_cases nul : u = 0x00
      · rw [nul, shellWord_nul]
        simp
      · rw [shellWord_inside ⟨nul, quote⟩]
        simpa [Option.map_eq_some_iff, Ne.symm nul] using ih

theorem shellWord_iff (s : Text) : shellWord false (escapeShellArg s) = some s ↔ 0x00 ∉ s := by
  rw [escapeShellArg, shellWord_quote]
  exact shellWord_quoted s

theorem csvQuoted_encode (s : Text) :
    csvQuoted (replaceUnit 0x22 (js "\"\"") s ++ [0x22]) = some s := by
  induction s with
  | nil => rfl
  | cons u s ih =>
    have step : replaceUnit 0x22 (js "\"\"") (u :: s) ++ [0x22] =
        (if u = 0x22 then js "\"\"" else [u]) ++ (replaceUnit 0x22 (js "\"\"") s ++ [0x22]) := by
      rw [replaceUnit, flatMap_cons, append_assoc]
      rfl
    rw [step]
    split
    · next quote =>
      have read : ∀ rest, csvQuoted (js "\"\"" ++ rest) = (csvQuoted rest).map (0x22 :: ·) :=
        fun _ => rfl
      rw [read, ih, quote]
      rfl
    · next other =>
      rw [singleton_append, csvQuoted_other other, ih]
      rfl

theorem csvField_encodeCsvField (s : Text) : csvField (encodeCsvField s) = some s := by
  unfold encodeCsvField
  split
  · exact csvQuoted_encode s
  · next plain =>
    unfold csvField
    split
    · next rest => simp at plain
    · rw [if_neg plain]

/-- A unit that is neither NUL nor a surrogate: the only ones an escape can stand for. -/
def scalarUnit (u : UInt16) : Bool := u ≠ 0x00 && !isHighSurrogate u && !isLowSurrogate u

/-- What is read of the escape of a unit. -/
def shown (u : UInt16) : UInt16 := if scalarUnit u then u else replacement

theorem shown_eq_iff (u : UInt16) : shown u = u ↔ scalarUnit u = true := by
  unfold shown
  split
  · next scalar => simp [scalar]
  · next other =>
    refine ⟨fun same => absurd ?_ other, fun scalar => absurd scalar other⟩
    rw [← same]
    decide

theorem surrogate_iff (u : UInt16) :
    (0xD800 ≤ u.toNat ∧ u.toNat ≤ 0xDFFF) ↔ isHighSurrogate u = true ∨ isLowSurrogate u = true := by
  rw [isHighSurrogate_iff, isLowSurrogate_iff]
  omega

theorem cssScalar_unit (u : UInt16) : cssScalar u.toNat = [shown u] := by
  have bound := u.toNat_lt
  have zero : u.toNat = 0 ↔ u = 0x00 := by
    rw [← UInt16.toNat_inj]
    rfl
  unfold cssScalar shown scalarUnit
  simp only [surrogate_iff, zero, unitsOf_unit]
  by_cases nul : u = 0x00
  · simp [nul]
  · by_cases high : isHighSurrogate u = true
    · simp [high]
    · by_cases low : isLowSurrogate u = true
      · simp [low]
      · have small : ¬ 0x10FFFF < u.toNat := by omega
        simp [nul, high, low, small]

theorem cssEscape_digits (u : UInt16) (rest : Text) :
    cssEscape (Sha256.hexDigit (u.toNat / 4096) :: Sha256.hexDigit (u.toNat / 256 % 16) ::
      Sha256.hexDigit (u.toNat / 16 % 16) :: Sha256.hexDigit (u.toNat % 16) :: 0x20 :: rest) =
    some ([shown u], 5) := by
  have bound := u.toNat_lt
  have whole : ((u.toNat / 4096 * 16 + u.toNat / 256 % 16) * 16 + u.toNat / 16 % 16) * 16 +
      u.toNat % 16 = u.toNat := by omega
  have d₁ := JsonWrite.hexValue_hexDigit (show u.toNat / 4096 < 16 by omega)
  have d₂ := JsonWrite.hexValue_hexDigit (show u.toNat / 256 % 16 < 16 by omega)
  have d₃ := JsonWrite.hexValue_hexDigit (show u.toNat / 16 % 16 < 16 by omega)
  have d₄ := JsonWrite.hexValue_hexDigit (show u.toNat % 16 < 16 by omega)
  have blank : hexValue 0x20 = none := rfl
  have run : cssDigits (Sha256.hexDigit (u.toNat / 4096) :: Sha256.hexDigit (u.toNat / 256 % 16) ::
      Sha256.hexDigit (u.toNat / 16 % 16) :: Sha256.hexDigit (u.toNat % 16) :: 0x20 :: rest) =
      [Sha256.hexDigit (u.toNat / 4096), Sha256.hexDigit (u.toNat / 256 % 16),
        Sha256.hexDigit (u.toNat / 16 % 16), Sha256.hexDigit (u.toNat % 16)] := by
    simp [cssDigits, List.takeWhile, d₁, d₂, d₃, d₄, blank]
  unfold cssEscape
  rw [run]
  simp only [ne_eq, reduceCtorEq, not_false_eq_true, if_true, cssNumber, foldl_cons,
    foldl_nil, d₁, d₂, d₃, d₄, Option.getD_some, Nat.zero_mul, Nat.zero_add, whole, cssScalar_unit]
  rfl

/-- The letters and digits, which `encodeCss` leaves as they are. -/
def isAlphanumeric (u : UInt16) : Bool := isUpperLetter u || isLowerLetter u || isDigit u

theorem small_of_alphanumeric (plain : isAlphanumeric u = true) :
    0x30 ≤ u.toNat ∧ u.toNat ≤ 0x7A ∧ u ≠ backslash := by
  simp only [isAlphanumeric, isUpperLetter, isLowerLetter, isDigit, Bool.or_eq_true,
    Bool.and_eq_true, decide_eq_true_eq, UInt16.le_iff_toNat_le] at plain
  have notBackslash : u ≠ backslash ↔ u.toNat ≠ 0x5C := by
    rw [ne_eq, ← UInt16.toNat_inj]
    rfl
  rw [notBackslash]
  simp at plain
  omega

theorem scalar_of_alphanumeric (plain : isAlphanumeric u = true) :
    scalarUnit u = true := by
  have small := small_of_alphanumeric plain
  have notNul : u ≠ 0x00 := by
    rintro rfl
    cases plain
  have notHigh : ¬ isHighSurrogate u = true := by
    rw [isHighSurrogate_iff]
    omega
  have notLow : ¬ isLowSurrogate u = true := by
    rw [isLowSurrogate_iff]
    omega
  simp [scalarUnit, notNul, notHigh, notLow]

theorem cssRaw_scalar (scalar : scalarUnit u = true) (rest : Text) :
    cssRaw u rest = ([u], 0) := by
  simp only [scalarUnit, Bool.and_eq_true, decide_eq_true_eq, Bool.not_eq_true'] at scalar
  simp [cssRaw, scalar]

theorem encodeCss_plain (plain : isAlphanumeric u = true) : encodeCss [u] = [u] := by
  rw [encodeCss, flatMap_singleton]
  exact if_pos plain

theorem encodeCss_escaped (other : ¬ isAlphanumeric u = true) :
    encodeCss [u] = backslash :: (Sha256.hexDigit (u.toNat / 4096) ::
      Sha256.hexDigit (u.toNat / 256 % 16) :: Sha256.hexDigit (u.toNat / 16 % 16) ::
      Sha256.hexDigit (u.toNat % 16) :: [0x20]) := by
  rw [encodeCss, flatMap_singleton]
  exact if_neg other

theorem encodeCss_cons (u : UInt16) (s : Text) :
    encodeCss (u :: s) = encodeCss [u] ++ encodeCss s := by
  rw [encodeCss, encodeCss, encodeCss, flatMap_cons, flatMap_singleton]

theorem reads_encodeCss (u : UInt16) : Reads cssIdentReader (encodeCss [u]) [shown u] := by
  by_cases plain : isAlphanumeric u = true
  · rw [encodeCss_plain plain]
    have scalar := scalar_of_alphanumeric plain
    have word : isWord u = true := by
      rw [isWord, ← isAlphanumeric, plain, Bool.true_or]
    refine reads_unit fun rest => ?_
    rw [cssIdentReader, if_neg (small_of_alphanumeric plain).2.2, word, cssRaw_scalar scalar,
      (shown_eq_iff u).mpr scalar]
    rfl
  · rw [encodeCss_escaped plain]
    refine reads_token fun rest => ?_
    rw [cssIdentReader, if_pos rfl]
    exact cssEscape_digits u rest

theorem unescape_encodeCss (s : Text) :
    unescape cssIdentReader (encodeCss s) = some (s.map shown) := by
  have each : ∀ u ∈ s, Reads cssIdentReader (encodeCss [u]) [shown u] :=
    fun u _ => reads_encodeCss u
  have whole : encodeCss s = s.flatMap fun u => encodeCss [u] := by
    simp only [encodeCss, flatMap_singleton]
  rw [whole, unescape_flatMap each, ← map_eq_flatMap]

theorem map_shown_iff (s : Text) : s.map shown = s ↔ ∀ u ∈ s, scalarUnit u = true := by
  induction s with
  | nil => simp
  | cons u s ih => simp [shown_eq_iff, ih]

theorem cssIdentStarts_encodeCss (s : Text) :
    cssIdentStarts (encodeCss s) = true ↔ ∃ u ∈ s.head?, isDigit u = false := by
  cases s with
  | nil => simp [encodeCss, cssIdentStarts]
  | cons u s =>
    rw [encodeCss_cons]
    by_cases plain : isAlphanumeric u = true
    · rw [encodeCss_plain plain]
      have small := small_of_alphanumeric plain
      have word : isWord u = true := by
        rw [isWord, ← isAlphanumeric, plain, Bool.true_or]
      have ascii : ¬ 0x80 ≤ u := by
        rw [UInt16.le_iff_toNat_le]
        have : (0x80 : UInt16).toNat = 0x80 := rfl
        omega
      have notNul : u ≠ 0x00 := by
        rintro rfl
        cases plain
      simp [cssIdentStarts, word, small.2.2, ascii, notNul]
    · rw [encodeCss_escaped plain]
      have notDigit : isDigit u = false := by
        simp only [isAlphanumeric, Bool.or_eq_true, not_or, Bool.not_eq_true] at plain
        exact plain.2
      have starts : ∀ t, cssIdentStarts (backslash :: t) = true := fun _ => rfl
      simp [starts, notDigit]

theorem cssIdent_iff (s : Text) :
    cssIdent (encodeCss s) = some s ↔
      (∃ u ∈ s.head?, isDigit u = false) ∧ ∀ u ∈ s, scalarUnit u = true := by
  unfold cssIdent
  rw [← cssIdentStarts_encodeCss, ← map_shown_iff]
  split
  · next starts => simp [starts, unescape_encodeCss]
  · next stuck => simp [stuck]

/-- The units that come back as something else from a CSS string: those the JavaScript escapes
rename, and those that CSS takes for itself. -/
def changed : Text := [0x00, 0x08, 0x09, 0x0A, 0x0C, 0x0D, 0x3C, 0x3E, 0x26, 0x3D, 0x2D, 0x3B]

/-- The units that both languages escape by a backslash in front. -/
def backslashed : Text := [0x5C, 0x27, 0x22]

theorem encodeJavaScript_cons (u : UInt16) (s : Text) :
    encodeJavaScript (u :: s) = encodeJavaScript [u] ++ encodeJavaScript s :=
  replaceAll_unit scriptPairs u s

theorem mem_scriptPairs : ∀ u ∈ scriptPairs.map Prod.fst, u ∈ changed ∨ u ∈ backslashed :=
  forall_units (fun u => u ∈ changed ∨ u ∈ backslashed) (by decide)

theorem encodeJavaScript_other (kept : u ∉ changed) (other : u ∉ backslashed) :
    encodeJavaScript [u] = [u] :=
  replaceAll_other fun mem => (mem_scriptPairs u mem).elim kept other

theorem foldl_hex_ge (digits : Text) (n : Nat) :
    n ≤ digits.foldl (fun n u => n * 16 + (hexValue u).getD 0) n := by
  induction digits generalizing n with
  | nil => exact Nat.le_refl n
  | cons u digits ih =>
    have more := ih (n * 16 + (hexValue u).getD 0)
    rw [foldl_cons]
    omega

theorem cssScalar_head {n : Nat} (above : 0x0B ≤ n) :
    ∃ v units, cssScalar n = v :: units ∧ v ≠ 0x08 := by
  unfold cssScalar
  split
  · exact ⟨replacement, [], rfl, by decide⟩
  · next scalar =>
    unfold unitsOf
    split
    · refine ⟨n.toUInt16, [], rfl, fun same => ?_⟩
      have number : n.toUInt16.toNat = 0x08 := by
        rw [same]
        rfl
      simp at number
      omega
    · refine ⟨_, _, rfl, fun same => ?_⟩
      have number := congrArg UInt16.toNat same
      simp at number
      omega

theorem cssEscape_backspace (rest : Text) :
    ∃ v units skip, cssEscape (0x62 :: rest) = some (v :: units, skip) ∧ v ≠ 0x08 := by
  have digits : cssDigits (0x62 :: rest) =
      0x62 :: (rest.take 5).takeWhile fun u => (hexValue u).isSome := rfl
  have above : 0x0B ≤ cssNumber (cssDigits (0x62 :: rest)) := by
    rw [digits]
    exact foldl_hex_ge _ 0x0B
  obtain ⟨v, units, scalar, other⟩ := cssScalar_head above
  rw [digits] at scalar
  unfold cssEscape
  simp only [digits, ne_eq, reduceCtorEq, not_false_eq_true, if_true, scalar]
  exact ⟨v, units, _, rfl, other⟩

variable (quote : Quote)

theorem cssString_letter (v : UInt16) (letter : v = 0x6E ∨ v = 0x72 ∨ v = 0x74 ∨ v = 0x75)
    (rest : Text) : cssStringReader quote.unit backslash (v :: rest) = some ([v], 1) := by
  rcases letter with rfl | rfl | rfl | rfl <;> cases quote <;> rfl

theorem cssString_changed (mem : u ∈ changed) (rest t : Text) :
    unescape (cssStringReader quote.unit) (encodeJavaScript [u] ++ rest) ≠ some (u :: t) := by
  have renamed : ∀ (v u : UInt16) (more : Text), (v = 0x6E ∨ v = 0x72 ∨ v = 0x74 ∨ v = 0x75) →
      v ≠ u → unescape (cssStringReader quote.unit) (backslash :: v :: more) ≠ some (u :: t) :=
    fun v u more letter other => unescape_ne (cssString_letter quote v letter more) other
  simp only [changed, mem_cons, not_mem_nil, or_false] at mem
  rcases mem with rfl | rfl | rfl | rfl | rfl | rfl | rfl | rfl | rfl | rfl | rfl | rfl
  · have read : cssStringReader quote.unit 0x00 rest = some ([replacement], 0) := by
      cases quote <;> rfl
    exact unescape_ne read (by decide)
  · obtain ⟨v, units, skip, escape, other⟩ := cssEscape_backspace rest
    have read : cssStringReader quote.unit backslash (0x62 :: rest) = cssEscape (0x62 :: rest) := by
      cases quote <;> rfl
    exact unescape_ne (read.trans escape) other
  · exact renamed 0x74 0x09 rest (by decide) (by decide)
  · exact renamed 0x6E 0x0A rest (by decide) (by decide)
  · have read : cssStringReader quote.unit 0x0C rest = none := by
      cases quote <;> rfl
    rw [show encodeJavaScript [0x0C] ++ rest = 0x0C :: rest from rfl, unescape_stuck read]
    exact (Option.some_ne_none _).symm
  · exact renamed 0x72 0x0D rest (by decide) (by decide)
  · exact renamed 0x75 0x3C _ (by decide) (by decide)
  · exact renamed 0x75 0x3E _ (by decide) (by decide)
  · exact renamed 0x75 0x26 _ (by decide) (by decide)
  · exact renamed 0x75 0x3D _ (by decide) (by decide)
  · exact renamed 0x75 0x2D _ (by decide) (by decide)
  · exact renamed 0x75 0x3B _ (by decide) (by decide)

theorem reads_backslashed (mem : u ∈ backslashed) :
    Reads (cssStringReader quote.unit) (encodeJavaScript [u]) [u] := by
  simp only [backslashed, mem_cons, not_mem_nil, or_false] at mem
  rcases mem with rfl | rfl | rfl <;> cases quote <;> exact reads_token fun _ => rfl

theorem cssStringReader_raw (kept : u ∉ changed) (other : u ∉ backslashed) (rest : Text) :
    cssStringReader quote.unit u rest = some (cssRaw u rest) := by
  simp only [changed, backslashed, mem_cons, not_mem_nil, or_false, not_or] at kept other
  have open_ : ¬ (u = quote.unit || isCssNewline u) = true := by
    cases quote <;> simp [Quote.unit, isCssNewline, kept, other]
  unfold cssStringReader
  rw [if_neg open_, if_neg (show u ≠ backslash from other.1)]

theorem kept_of_surrogate (surrogate : isHighSurrogate u = true ∨ isLowSurrogate u = true) :
    u ∉ changed ∧ u ∉ backslashed := by
  have above := (surrogate_iff u).mpr surrogate
  have small : ∀ v ∈ changed ++ backslashed, v.toNat < 0xD800 :=
    forall_units (fun v => v.toNat < 0xD800) (by decide)
  constructor
  · intro mem
    have := small u (mem_append_left _ mem)
    omega
  · intro mem
    have := small u (mem_append_right _ mem)
    omega

theorem scriptPairs_head : ∀ u ∈ scriptPairs.map Prod.fst,
    (replaceAll scriptPairs [u]).head? = some backslash := by
  simp only [scriptPairs, map_cons, map_nil, forall_mem_cons]
  exact ⟨rfl, rfl, rfl, rfl, rfl, rfl, rfl, rfl, rfl, rfl, rfl, rfl, rfl, by simp⟩

/-- No low surrogate in front of the original, none in front of the encoded text. -/
theorem encodeJavaScript_head (s : Text) (notLow : isLowSurrogate v = false) :
    ∀ w ∈ (encodeJavaScript (v :: s)).head?, isLowSurrogate w = false := by
  rw [encodeJavaScript_eq, head?_replaceAll scriptPairs_head]
  intro w same
  cases same
  split
  · decide
  · exact notLow

/-- What the units of a text and the pairing of its surrogates come to. -/
def plainString (s : Text) : Prop := paired s = true ∧ ∀ u ∈ s, u ∉ changed

theorem plainString_cons (notHigh : isHighSurrogate u = false) (s : Text) :
    plainString (u :: s) ↔ (isLowSurrogate u = false ∧ u ∉ changed) ∧ plainString s := by
  unfold plainString
  rw [paired_cons (by simp [notHigh])]
  simp only [Bool.and_eq_true, Bool.not_eq_true', forall_mem_cons]
  tauto

theorem unescape_raw_pair (high : isHighSurrogate u = true) (low : isLowSurrogate v = true)
    (rest : Text) :
    unescape (cssStringReader quote.unit) (u :: v :: rest) =
      (unescape (cssStringReader quote.unit) rest).map ([u, v] ++ ·) := by
  obtain ⟨kept, other⟩ := kept_of_surrogate (.inl high)
  have notNul : u ≠ 0x00 := ne_of_mem_of_not_mem mem_cons_self kept |>.symm
  have read := cssStringReader_raw quote kept other (v :: rest)
  have raw : cssRaw u (v :: rest) = ([u, v], 1) := by
    simp [cssRaw, notNul, high, low]
  rw [raw] at read
  exact @unescape_token _ u [v] rest [u, v] read

theorem unescape_raw_lone (surrogate : isHighSurrogate u = true ∨ isLowSurrogate u = true)
    {rest : Text} (lone : isHighSurrogate u = true → ∀ v ∈ rest.head?, isLowSurrogate v = false)
    (t : Text) : unescape (cssStringReader quote.unit) (u :: rest) ≠ some (u :: t) := by
  obtain ⟨kept, other⟩ := kept_of_surrogate surrogate
  have notNul : u ≠ 0x00 := ne_of_mem_of_not_mem mem_cons_self kept |>.symm
  have read := cssStringReader_raw quote kept other rest
  have raw : cssRaw u rest = ([replacement], 0) := by
    by_cases high : isHighSurrogate u = true
    · cases rest with
      | nil => simp [cssRaw, notNul, high]
      | cons v rest => simp [cssRaw, notNul, high, lone high v rfl]
    · simp [cssRaw, notNul, high, surrogate.resolve_left high]
  rw [raw] at read
  refine unescape_ne read fun same => ?_
  rw [← same] at surrogate
  revert surrogate
  decide

theorem reads_raw (scalar : scalarUnit u = true) (kept : u ∉ changed) (other : u ∉ backslashed) :
    Reads (cssStringReader quote.unit) [u] [u] := by
  refine reads_unit fun rest => ?_
  rw [cssStringReader_raw quote kept other, cssRaw_scalar scalar]

theorem encodeJavaScript_surrogate (surrogate : isHighSurrogate u = true ∨ isLowSurrogate u = true)
    (s : Text) :
    encodeJavaScript (u :: s) = u :: encodeJavaScript s := by
  obtain ⟨kept, other⟩ := kept_of_surrogate surrogate
  rw [encodeJavaScript_cons, encodeJavaScript_other kept other, singleton_append]

theorem cssString_iff (s : Text) :
    cssString quote.unit (encodeJavaScript s) = some s ↔ plainString s := by
  unfold cssString
  induction s using paired.induct with
  | case1 => exact iff_of_true rfl ⟨rfl, fun u mem => absurd mem not_mem_nil⟩
  | case2 u high v s ih =>
    rw [encodeJavaScript_surrogate (.inl high)]
    by_cases low : isLowSurrogate v = true
    · have whole : plainString (u :: v :: s) ↔ plainString s := by
        have kept := (kept_of_surrogate (.inl high)).1
        have keptLow := (kept_of_surrogate (.inr low)).1
        unfold plainString
        rw [paired_pair high]
        simp [low, kept, keptLow]
      rw [encodeJavaScript_surrogate (.inr low), unescape_raw_pair quote high low, whole, ← ih]
      simp [Option.map_eq_some_iff]
    · rw [Bool.not_eq_true] at low
      have odd : ¬ plainString (u :: v :: s) := by
        rintro ⟨pairs, -⟩
        rw [paired_pair high, low] at pairs
        cases pairs
      exact iff_of_false
        (unescape_raw_lone quote (.inl high) (fun _ => encodeJavaScript_head s low) _) odd
  | case3 u high =>
    have odd : ¬ plainString [u] := by
      rintro ⟨pairs, -⟩
      rw [paired, if_pos high] at pairs
      cases pairs
    have nothing : ∀ v ∈ (encodeJavaScript []).head?, isLowSurrogate v = false :=
      fun v mem => absurd mem (Option.not_mem_none v)
    rw [encodeJavaScript_surrogate (.inl high)]
    exact iff_of_false (unescape_raw_lone quote (.inl high) (fun _ => nothing) _) odd
  | case4 u s high ih =>
    rw [Bool.not_eq_true] at high
    rw [plainString_cons high]
    by_cases low : isLowSurrogate u = true
    · rw [encodeJavaScript_surrogate (.inr low)]
      have notHigh : ¬ isHighSurrogate u = true := by simp [high]
      refine iff_of_false (unescape_raw_lone quote (.inr low) (fun h => absurd h notHigh) _) ?_
      simp [low]
    rw [Bool.not_eq_true] at low
    rw [encodeJavaScript_cons]
    by_cases kept : u ∈ changed
    · exact iff_of_false (cssString_changed quote kept _ s) (fun plain => plain.1.2 kept)
    · have reads : Reads (cssStringReader quote.unit) (encodeJavaScript [u]) [u] := by
        by_cases other : u ∈ backslashed
        · exact reads_backslashed quote other
        · have notNul : u ≠ 0x00 := ne_of_mem_of_not_mem mem_cons_self kept |>.symm
          rw [encodeJavaScript_other kept other]
          exact reads_raw quote (by simp [scalarUnit, notNul, high, low]) kept other
      rw [reads.eq_iff, ih]
      simp [low, kept]

/-- What can stand unescaped in the value of an attribute. -/
def plainName (s : Text) : Prop :=
  (∀ u ∈ s, u ∉ ldapSpecials) ∧ s.head? ≠ some 0x20 ∧ s.head? ≠ some 0x23 ∧
    s.getLast? ≠ some 0x20

theorem escapeLdapDn_cons (u : UInt16) (s : Text) :
    escapeLdapDn (u :: s) = escapeLdapDn [u] ++ escapeLdapDn s := replaceAll_unit ldapEscapes u s

theorem ldapEscapes_head : ∀ u ∈ ldapEscapes.map Prod.fst,
    (replaceAll ldapEscapes [u]).head? = some backslash := by
  simp only [ldapEscapes, map_cons, map_nil, forall_mem_cons]
  exact ⟨rfl, rfl, rfl, rfl, rfl, by simp⟩

theorem escapeLdapDn_eq_nil (s : Text) : escapeLdapDn s = [] ↔ s = [] := by
  cases s with
  | nil => exact iff_of_true rfl rfl
  | cons u s =>
    refine iff_of_false (fun empty => ?_) (cons_ne_nil u s)
    have head := head?_replaceAll ldapEscapes_head u s
    rw [← escapeLdapDn, empty] at head
    cases head

theorem reads_ldapEscapes :
    ∀ u ∈ ldapEscapes.map Prod.fst, Reads ldapNameReader (escapeLdapDn [u]) [u] := by
  simp only [ldapEscapes, map_cons, map_nil, forall_mem_cons]
  exact ⟨reads_token fun _ => rfl, reads_token fun _ => rfl, reads_token fun _ => rfl,
    reads_token fun _ => rfl, reads_token fun _ => rfl, by simp⟩

theorem ldapEscapes_plain :
    ∀ u ∈ ldapEscapes.map Prod.fst, u ∉ ldapSpecials ∧ u ≠ 0x20 ∧ u ≠ 0x23 :=
  forall_units (fun u => u ∉ ldapSpecials ∧ u ≠ 0x20 ∧ u ≠ 0x23) (by decide)

theorem unescape_escapeLdapDn (s : Text) :
    unescape ldapNameReader (escapeLdapDn s) = some s ↔
      (∀ u ∈ s, u ∉ ldapSpecials) ∧ s.getLast? ≠ some 0x20 := by
  induction s with
  | nil => exact iff_of_true rfl ⟨fun u mem => absurd mem not_mem_nil, by simp⟩
  | cons u s ih =>
    rw [escapeLdapDn_cons, forall_mem_cons]
    by_cases known : u ∈ ldapEscapes.map Prod.fst
    · obtain ⟨plain, notSpace, -⟩ := ldapEscapes_plain u known
      rw [(reads_ldapEscapes u known).eq_iff, ih]
      cases s with
      | nil => simp [plain, notSpace]
      | cons v s => simp [plain]
    · have same : escapeLdapDn [u] = [u] := replaceAll_other known
      rw [same, singleton_append]
      simp only [ldapEscapes, map_cons, map_nil, mem_cons, not_or] at known
      by_cases special : u ∈ ldapSpecials
      · have read : ldapNameReader u (escapeLdapDn s) = none := by
          unfold ldapNameReader
          rw [if_pos (.inr special)]
        rw [unescape_stuck read]
        simp [special]
      have open_ : ¬ (u = 0x00 ∨ u ∈ ldapSpecials) := by
        rintro (nul | mem)
        · exact known.2.2.2.2.1 nul
        · exact special mem
      by_cases last : u = 0x20 ∧ s = []
      · obtain ⟨rfl, rfl⟩ := last
        exact iff_of_false (by decide) (by simp)
      · have notLast : ¬ (u = 0x20 ∧ escapeLdapDn s = []) := by
          rw [escapeLdapDn_eq_nil]
          exact last
        have read : ldapNameReader u (escapeLdapDn s) = some ([u], 0) := by
          unfold ldapNameReader
          rw [if_neg open_, if_neg (show u ≠ backslash from known.1), if_neg notLast]
        rw [unescape_unit read]
        cases s with
        | nil =>
          have notSpace : u ≠ 0x20 := fun space => last ⟨space, rfl⟩
          exact iff_of_true rfl ⟨⟨special, by simp⟩, by simpa using notSpace⟩
        | cons v s => simpa [special, Option.map_eq_some_iff] using ih

theorem escapeLdapDn_head (s : Text) (plain : v = 0x20 ∨ v = 0x23) :
    (escapeLdapDn s).head? = some v ↔ s.head? = some v := by
  cases s with
  | nil => exact Iff.rfl
  | cons u s =>
    rw [escapeLdapDn, head?_replaceAll ldapEscapes_head, head?_cons]
    split
    · next known =>
      obtain ⟨-, notSpace, notHash⟩ := ldapEscapes_plain u known
      rcases plain with rfl | rfl
      · simp [notSpace, show backslash ≠ 0x20 by decide]
      · simp [notHash, show backslash ≠ 0x23 by decide]
    · exact Iff.rfl

theorem ldapNameValue_iff (s : Text) : ldapNameValue (escapeLdapDn s) = some s ↔ plainName s := by
  unfold ldapNameValue plainName
  simp only [escapeLdapDn_head s (.inl rfl), escapeLdapDn_head s (.inr rfl)]
  split
  · next leading =>
    refine iff_of_false (Option.some_ne_none s).symm fun plain => ?_
    exact leading.elim plain.2.1 plain.2.2.1
  · next leading =>
    rw [not_or] at leading
    rw [unescape_escapeLdapDn]
    exact ⟨fun plain => ⟨plain.1, leading.1, leading.2, plain.2⟩,
      fun plain => ⟨plain.1, plain.2.2.2⟩⟩

theorem untilQuote_literal {quote : UInt16} (open_ : quote ∉ s) :
    untilQuote quote (s ++ [quote]) = some s := by
  induction s with
  | nil => simp [untilQuote]
  | cons u s ih =>
    simp only [mem_cons, not_or] at open_
    rw [cons_append, untilQuote, if_neg (Ne.symm open_.1), ih open_.2]
    rfl

theorem concatText_inside {quote : UInt16} {part : Text} (open_ : quote ∉ part) (many : Bool)
    (rest : Text) : concatText (.inside many quote) (part ++ quote :: rest) =
      (concatText (.after many) rest).map (part ++ ·) := by
  induction part with
  | nil => simp [concatText]
  | cons u part ih =>
    simp only [mem_cons, not_or] at open_
    rw [cons_append, concatText, if_neg (Ne.symm open_.1), ih open_.2, Option.map_map]
    rfl

/-- A literal that is read as an argument of `concat` and means `part`. -/
def Argument (literal part : Text) : Prop :=
  ∀ many rest, concatText (.before many) (literal ++ rest) =
    (concatText (.after many) rest).map (part ++ ·)

theorem argument_single {part : Text} (open_ : 0x27 ∉ part) :
    Argument (0x27 :: (part ++ [0x27])) part := by
  intro many rest
  rw [cons_append, append_assoc, singleton_append, concatText, if_neg (by decide),
    if_pos (.inl rfl), concatText_inside open_]

theorem argument_double {part : Text} (open_ : 0x22 ∉ part) :
    Argument (0x22 :: (part ++ [0x22])) part := by
  intro many rest
  rw [cons_append, append_assoc, singleton_append, concatText, if_neg (by decide),
    if_pos (.inr rfl), concatText_inside open_]

theorem concatText_comma (many : Bool) (rest : Text) :
    concatText (.after many) (js ", " ++ rest) = concatText (.before true) rest := rfl

theorem concatText_close : concatText (.after true) (js ")") = some [] := rfl

theorem concatText_join {pairs : List (Text × Text)} (each : ∀ p ∈ pairs, Argument p.1 p.2)
    (some_ : pairs ≠ []) {many : Bool} (enough : many = true ∨ 2 ≤ pairs.length) :
    concatText (.before many) (join (js ", ") (pairs.map Prod.fst) ++ js ")") =
      some (pairs.map Prod.snd).flatten := by
  induction pairs generalizing many with
  | nil => exact absurd rfl some_
  | cons p pairs ih =>
    have first := each p mem_cons_self
    cases pairs with
    | nil =>
      have passed : many = true := enough.resolve_right (by simp)
      rw [passed]
      simp only [map_cons, map_nil, join, first true, concatText_close]
      simp
    | cons q pairs =>
      have later := @ih (fun r mem => each r (mem_cons_of_mem p mem))
        (cons_ne_nil q pairs) true (.inl rfl)
      simp only [map_cons, join, append_assoc, first many, concatText_comma] at later ⊢
      rw [later]
      simp

/-- A quote by itself, or a segment without quotes. -/
def isPart (part : Text) : Prop :=
  part = js "'" ∨ part = js "\"" ∨ (0x27 ∉ part ∧ 0x22 ∉ part)

theorem isQuote_iff (u : UInt16) : isQuote u = true ↔ u = 0x27 ∨ u = 0x22 := by
  simp [isQuote]

theorem parts_flatten (current input : Text) :
    (parts current input).flatten = current ++ input := by
  induction input generalizing current with
  | nil =>
    rw [parts]
    split
    · next empty => simp [empty]
    · simp
  | cons u input ih =>
    rw [parts]
    split
    · split
      · next empty => simp [empty, ih]
      · simp [ih]
    · simp [ih]

theorem isPart_of_mem {current input : Text} (open_ : 0x27 ∉ current ∧ 0x22 ∉ current) :
    ∀ part ∈ parts current input, isPart part := by
  induction input generalizing current with
  | nil =>
    rw [parts]
    split
    · exact fun part mem => absurd mem not_mem_nil
    · intro part mem
      rw [mem_singleton.mp mem]
      exact .inr (.inr open_)
  | cons u input ih =>
    rw [parts]
    split
    · next quote =>
      have later := @ih [] ⟨not_mem_nil, not_mem_nil⟩
      have itself : isPart [u] := by
        rcases (isQuote_iff u).mp quote with rfl | rfl
        · exact .inl rfl
        · exact .inr (.inl rfl)
      intro part mem
      simp only [mem_append, mem_cons] at mem
      rcases mem with segment | same | mem
      · split at segment
        · cases segment
        · rw [mem_singleton.mp segment]
          exact .inr (.inr open_)
      · rw [same]
        exact itself
      · exact later part mem
    · next other =>
      rw [isQuote_iff, not_or] at other
      apply ih
      simp [open_, Ne.symm other.1, Ne.symm other.2]

theorem concatParts_arguments {ps : List Text} (each : ∀ p ∈ ps, isPart p) (useSingleQuote : Bool) :
    ∃ pairs : List (Text × Text), pairs.map Prod.fst = concatParts useSingleQuote ps ∧
      pairs.map Prod.snd = ps ∧ ∀ p ∈ pairs, Argument p.1 p.2 := by
  induction ps generalizing useSingleQuote with
  | nil => exact ⟨[], rfl, rfl, fun p mem => absurd mem not_mem_nil⟩
  | cons part ps ih =>
    have later := ih fun p mem => each p (mem_cons_of_mem part mem)
    rw [concatParts]
    split
    · next apostrophe =>
      obtain ⟨pairs, literals, units, arguments⟩ := later useSingleQuote
      have argument : Argument (js "\"'\"") (js "'") := @argument_double (js "'") (by decide)
      refine ⟨(js "\"'\"", js "'") :: pairs, by rw [map_cons, literals],
        by rw [map_cons, units, apostrophe], ?_⟩
      exact forall_mem_cons.mpr ⟨argument, arguments⟩
    split
    · next quotation =>
      obtain ⟨pairs, literals, units, arguments⟩ := later useSingleQuote
      have argument : Argument (js "'\"'") (js "\"") := @argument_single (js "\"") (by decide)
      refine ⟨(js "'\"'", js "\"") :: pairs, by rw [map_cons, literals],
        by rw [map_cons, units, quotation], ?_⟩
      exact forall_mem_cons.mpr ⟨argument, arguments⟩
    · next notSingle notDouble =>
      obtain ⟨pairs, literals, units, arguments⟩ := later (!useSingleQuote)
      have plain := ((each part mem_cons_self).resolve_left notSingle).resolve_left notDouble
      refine ⟨(_, part) :: pairs, by rw [map_cons, literals], by rw [map_cons, units], ?_⟩
      refine forall_mem_cons.mpr ⟨?_, arguments⟩
      cases useSingleQuote
      · exact argument_double plain.2
      · exact argument_single plain.1

theorem two_parts (single : 0x27 ∈ s) (double : 0x22 ∈ s) :
    2 ≤ (parts [] s).length := by
  have whole := parts_flatten [] s
  have each := @isPart_of_mem [] s ⟨not_mem_nil, not_mem_nil⟩
  rw [nil_append] at whole
  rcases form : parts [] s with _ | ⟨part, _ | ⟨next, rest⟩⟩
  · rw [form] at whole
    rw [← whole] at single
    cases single
  · have same : part = s := by
      rw [form] at whole
      simpa using whole
    have kind := each part (by rw [form]; exact mem_cons_self)
    rw [same] at kind
    rcases kind with rfl | rfl | plain
    · exact absurd double (by decide)
    · exact absurd single (by decide)
    · exact absurd single plain.1
  · simp

theorem xpathString_concat (single : 0x27 ∈ s) (double : 0x22 ∈ s) :
    xpathString (js "concat(" ++ join (js ", ") (concatParts true (parts [] s)) ++ js ")") =
      some s := by
  have enough := two_parts single double
  obtain ⟨pairs, literals, units, arguments⟩ := concatParts_arguments
    (@isPart_of_mem [] s ⟨not_mem_nil, not_mem_nil⟩) true
  have many : 2 ≤ pairs.length := by
    rw [← length_map (f := Prod.snd), units]
    exact enough
  have some_ : pairs ≠ [] := by
    rintro rfl
    cases many
  have read := @concatText_join pairs arguments some_ false (.inr many)
  rw [literals, units, parts_flatten, nil_append] at read
  rw [append_assoc]
  exact read

theorem xpathString_literal {quote : UInt16} (kind : quote = 0x27 ∨ quote = 0x22)
    (open_ : quote ∉ s) : xpathString (quote :: (s ++ [quote])) = some s := by
  rw [xpathString, if_pos kind]
  exact untilQuote_literal open_

theorem xpathString_escapeXPath (s : Text) : xpathString (escapeXPath s) = some s := by
  unfold escapeXPath
  simp only [contains_iff_mem]
  split
  · next none_ => exact xpathString_literal (.inl rfl) none_.1
  split
  · next single => exact xpathString_literal (.inr rfl) single.2
  split
  · next double => exact xpathString_literal (.inl rfl) double.1
  · next both₁ both₂ both₃ =>
    have single : 0x27 ∈ s := by tauto
    have double : 0x22 ∈ s := by tauto
    exact xpathString_concat single double

/-- The contexts that are read as the text put into them. -/
inductive Reading where
  | htmlText | htmlAttribute | scriptString | shellWord | xpathString | csvField | cssIdentifier
  | cssString | ldapName | ldapFilter
  deriving DecidableEq, Repr

def Reading.context : Reading → OutputContext
  | .htmlText => .html
  | .htmlAttribute => .htmlAttribute
  | .scriptString => .javascript
  | .shellWord => .shell
  | .xpathString => .xpath
  | .csvField => .csv
  | .cssIdentifier => .css
  | .cssString => .cssString
  | .ldapName => .ldapDn
  | .ldapFilter => .ldapFilter

/-- The decoder of a context, inside the quotes where the context has a choice of them. -/
def decode (reading : Reading) (quote : Quote) (t : Text) : Option Text :=
  match reading with
  | .htmlText => htmlText t
  | .htmlAttribute => htmlAttribute quote.unit t
  | .scriptString => scriptString quote.unit t
  | .shellWord => shellWord false t
  | .xpathString => xpathString t
  | .csvField => csvField t
  | .cssIdentifier => cssIdent t
  | .cssString => cssString quote.unit t
  | .ldapName => ldapNameValue t
  | .ldapFilter => ldapFilterValue t

/-- The encoded text of a context is read back as the original. -/
def DecodesBack (reading : Reading) (quote : Quote) (s : Text) : Prop :=
  (encodeForContext s reading.context).toOption.bind (decode reading quote) = some s

def faithful (reading : Reading) (s : Text) : Prop :=
  match reading with
  | .htmlText | .htmlAttribute => markupText s
  | .scriptString | .xpathString | .csvField | .ldapFilter => True
  | .shellWord => 0x00 ∉ s
  | .cssIdentifier => (∃ u ∈ s.head?, isDigit u = false) ∧ ∀ u ∈ s, scalarUnit u = true
  | .cssString => plainString s
  | .ldapName => plainName s

theorem decodesBack_of_encoded {reading : Reading} {s t : Text}
    (encoded : encodeForContext s reading.context = .ok t) (quote : Quote) :
    DecodesBack reading quote s ↔ decode reading quote t = some s := by
  rw [DecodesBack, encoded]
  rfl

/-- The decoder of a context yields the original from the encoded text exactly for these. -/
theorem decodes_back_iff (reading : Reading) (quote : Quote) (s : Text) :
    DecodesBack reading quote s ↔ faithful reading s := by
  cases reading with
  | htmlText =>
    rw [@decodesBack_of_encoded .htmlText s (encodeHtml s) rfl]
    exact htmlText_iff s
  | htmlAttribute =>
    rw [@decodesBack_of_encoded .htmlAttribute s (encodeHtmlAttribute s) rfl]
    exact htmlAttribute_iff quote s
  | scriptString =>
    rw [@decodesBack_of_encoded .scriptString s (encodeJavaScript s) rfl]
    exact ⟨fun _ => trivial, fun _ => scriptString_encodeJavaScript quote s⟩
  | shellWord =>
    rw [@decodesBack_of_encoded .shellWord s (escapeShellArg s) rfl]
    exact shellWord_iff s
  | xpathString =>
    rw [@decodesBack_of_encoded .xpathString s (escapeXPath s) rfl]
    exact ⟨fun _ => trivial, fun _ => xpathString_escapeXPath s⟩
  | csvField =>
    rw [@decodesBack_of_encoded .csvField s (encodeCsvField s) rfl]
    exact ⟨fun _ => trivial, fun _ => csvField_encodeCsvField s⟩
  | cssIdentifier =>
    rw [@decodesBack_of_encoded .cssIdentifier s (encodeCss s) rfl]
    exact cssIdent_iff s
  | cssString =>
    rw [@decodesBack_of_encoded .cssString s (encodeJavaScript s) rfl]
    exact cssString_iff quote s
  | ldapName =>
    rw [@decodesBack_of_encoded .ldapName s (escapeLdapDn s) rfl]
    exact ldapNameValue_iff s
  | ldapFilter =>
    rw [@decodesBack_of_encoded .ldapFilter s (escapeLdapFilter s) rfl]
    exact ⟨fun _ => trivial, fun _ => ldapFilter_encode s⟩

/-- A hyphen in a CSS string comes back as the digits of its JavaScript escape, and the comma
of a name ends the value it stands in. -/
theorem hyphen_not_decoded :
    (encodeForContext (js "a-b") .cssString).toOption.bind (decode .cssString .double) =
        some (js "au002Db") ∧
      (encodeForContext (js "a,b") .ldapDn).toOption.bind (decode .ldapName .double) = none ∧
      ¬ ∀ reading quote s, DecodesBack reading quote s := by
  refine ⟨by decide +kernel, by decide +kernel, fun all => ?_⟩
  exact absurd (all .cssString .double (js "a-b")) (by unfold DecodesBack; decide +kernel)

end Ultrathink.Guarantees.OutputEncodings
