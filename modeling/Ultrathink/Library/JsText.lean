import Mathlib.Data.List.DropRight

/-!
# JavaScript strings

A string is its list of UTF-16 code units, lone surrogates included, since that
is what indexing, `trim` and regular expressions without the `u` flag work on.
Literals are written through `js`.
-/

namespace Ultrathink.Library.JsText

open List

abbrev Text := List UInt16

instance : LawfulBEq Text := inferInstanceAs (LawfulBEq (List UInt16))

/-- U+FFFD, which decoding puts for what is no UTF-8. -/
def replacement : UInt16 := 0xFFFD

def isContinuation (b : UInt8) : Bool := 0x80 ≤ b && b ≤ 0xBF

/-- The code units of a scalar value: one, or a surrogate pair above U+FFFF. -/
def unitsOf (scalar : Nat) : Text :=
  if scalar < 0x10000 then [scalar.toUInt16]
  else [(0xD800 + (scalar - 0x10000) / 0x400).toUInt16,
    (0xDC00 + (scalar - 0x10000) % 0x400).toUInt16]

/-- The second bytes that keep a three-byte sequence shortest and no surrogate. -/
def secondOfThree (lead second : UInt8) : Bool :=
  isContinuation second && (lead ≠ 0xE0 || 0xA0 ≤ second) && (lead ≠ 0xED || second ≤ 0x9F)

/-- The second bytes that keep a four-byte sequence shortest and in range. -/
def secondOfFour (lead second : UInt8) : Bool :=
  isContinuation second && (lead ≠ 0xF0 || 0x90 ≤ second) && (lead ≠ 0xF4 || second ≤ 0x8F)

def low6 (b : UInt8) : Nat := b.toNat % 64

/-- `Buffer.toString("utf8")`: each maximal part of a broken sequence becomes one
U+FFFD. -/
def ofUtf8 : List UInt8 → Text
  | [] => []
  | b :: rest =>
    if b < 0x80 then b.toUInt16 :: ofUtf8 rest
    else if 0xC2 ≤ b && b ≤ 0xDF then
      match rest with
      | c :: rest' =>
        if isContinuation c then (b.toNat % 32 * 64 + low6 c).toUInt16 :: ofUtf8 rest'
        else replacement :: ofUtf8 (c :: rest')
      | [] => [replacement]
    else if 0xE0 ≤ b && b ≤ 0xEF then
      match rest with
      | c :: d :: rest' =>
        if secondOfThree b c then
          if isContinuation d then
            (b.toNat % 16 * 4096 + low6 c * 64 + low6 d).toUInt16 :: ofUtf8 rest'
          else replacement :: ofUtf8 (d :: rest')
        else replacement :: ofUtf8 (c :: d :: rest')
      | [c] => if secondOfThree b c then [replacement] else replacement :: ofUtf8 [c]
      | [] => [replacement]
    else if 0xF0 ≤ b && b ≤ 0xF4 then
      match rest with
      | c :: d :: e :: rest' =>
        if secondOfFour b c then
          if isContinuation d then
            if isContinuation e then
              unitsOf (b.toNat % 8 * 262144 + low6 c * 4096 + low6 d * 64 + low6 e) ++ ofUtf8 rest'
            else replacement :: ofUtf8 (e :: rest')
          else replacement :: ofUtf8 (d :: e :: rest')
        else replacement :: ofUtf8 (c :: d :: e :: rest')
      | [c, d] =>
        if secondOfFour b c then
          if isContinuation d then [replacement] else replacement :: ofUtf8 [d]
        else replacement :: ofUtf8 [c, d]
      | [c] => if secondOfFour b c then [replacement] else replacement :: ofUtf8 [c]
      | [] => [replacement]
    else replacement :: ofUtf8 rest

def isHighSurrogate (u : UInt16) : Bool := 0xD800 ≤ u && u ≤ 0xDBFF

def isLowSurrogate (u : UInt16) : Bool := 0xDC00 ≤ u && u ≤ 0xDFFF

def utf8Of (scalar : Nat) : List UInt8 :=
  if scalar < 0x80 then [scalar.toUInt8]
  else if scalar < 0x800 then [(0xC0 + scalar / 64).toUInt8, (0x80 + scalar % 64).toUInt8]
  else if scalar < 0x10000 then
    [(0xE0 + scalar / 4096).toUInt8, (0x80 + scalar / 64 % 64).toUInt8,
      (0x80 + scalar % 64).toUInt8]
  else
    [(0xF0 + scalar / 262144).toUInt8, (0x80 + scalar / 4096 % 64).toUInt8,
      (0x80 + scalar / 64 % 64).toUInt8, (0x80 + scalar % 64).toUInt8]

/-- `Buffer.from(t)`: a lone surrogate is written as U+FFFD. -/
def toUtf8 : Text → List UInt8
  | [] => []
  | u :: rest =>
    if isHighSurrogate u then
      match rest with
      | v :: rest' =>
        if isLowSurrogate v then
          utf8Of (0x10000 + (u.toNat - 0xD800) * 0x400 + (v.toNat - 0xDC00)) ++ toUtf8 rest'
        else utf8Of replacement.toNat ++ toUtf8 (v :: rest')
      | [] => utf8Of replacement.toNat
    else if isLowSurrogate u then utf8Of replacement.toNat ++ toUtf8 rest
    else utf8Of u.toNat ++ toUtf8 rest

def js (s : String) : Text := ofUtf8 s.toByteArray.data.toList

/-- White space and line terminators: what `trim` removes and `\s` matches. -/
def isSpace (u : UInt16) : Bool :=
  (0x09 ≤ u && u ≤ 0x0D) || u = 0x20 || u = 0xA0 || u = 0x1680 || (0x2000 ≤ u && u ≤ 0x200A) ||
    u = 0x2028 || u = 0x2029 || u = 0x202F || u = 0x205F || u = 0x3000 || u = 0xFEFF

/-- The line terminators, which `.` does not match. -/
def isLineEnd (u : UInt16) : Bool := u = 0x0A || u = 0x0D || u = 0x2028 || u = 0x2029

def isUpperLetter (u : UInt16) : Bool := 0x41 ≤ u && u ≤ 0x5A

def isLowerLetter (u : UInt16) : Bool := 0x61 ≤ u && u ≤ 0x7A

def isDigit (u : UInt16) : Bool := 0x30 ≤ u && u ≤ 0x39

/-- `\w`: letters, digits and the underscore of ASCII. -/
def isWord (u : UInt16) : Bool := isUpperLetter u || isLowerLetter u || isDigit u || u = 0x5F

/-- The `i` flag without `u` folds the ASCII letters of a pattern and nothing
else onto them. -/
def foldCase (u : UInt16) : UInt16 := if isUpperLetter u then u + 0x20 else u

def trim (t : Text) : Text := (t.dropWhile isSpace).rdropWhile isSpace

/-- `Array.prototype.join`. -/
def join (sep : Text) : List Text → Text
  | [] => []
  | [t] => t
  | t :: rest => t ++ sep ++ join sep rest

/-- `replace` with a global one-unit pattern and a replacement free of `$`. -/
def replaceUnit (u : UInt16) (by_ : Text) (t : Text) : Text :=
  t.flatMap (fun x => if x = u then by_ else [x])

def startsFolded (pattern t : Text) : Bool :=
  (t.take pattern.length).map foldCase = pattern.map foldCase

/-- `replace` with a literal pattern under the flags `gi`, past the first `skip`
units; the replacement has no `$`. -/
def replaceFolded (pattern by_ : Text) (skip : Nat) : Text → Text
  | [] => []
  | u :: rest =>
    match skip with
    | skip + 1 => replaceFolded pattern by_ skip rest
    | 0 =>
      if startsFolded pattern (u :: rest) then
        by_ ++ replaceFolded pattern by_ (pattern.length - 1) rest
      else u :: replaceFolded pattern by_ 0 rest

/-- `Array.from(t).length`: a surrogate pair is one code point. -/
def codePoints : Text → Nat
  | [] => 0
  | [_] => 1
  | u :: v :: rest =>
    if isHighSurrogate u && isLowSurrogate v then codePoints rest + 1
    else codePoints (v :: rest) + 1

def le : Text → Text → Bool
  | [], _ => true
  | _ :: _, [] => false
  | u :: s, v :: t => u < v || (u = v && le s t)

def ofNat (n : Nat) : Text := js (Nat.repr n)

def ofBool (b : Bool) : Text := if b then js "true" else js "false"

theorem forall_units (p : UInt16 → Prop) [DecidablePred p] {t : Text}
    (all : t.all (fun u => decide (p u)) = true) : ∀ u ∈ t, p u :=
  fun u mem => of_decide_eq_true (all_eq_true.mp all u mem)

theorem isSpace_graphic {u : UInt16} (low : 0x21 ≤ u.toNat) (high : u.toNat ≤ 0x7E) :
    isSpace u = false := by
  simp only [isSpace, Bool.or_eq_false_iff, Bool.and_eq_false_iff, decide_eq_false_iff_not,
    UInt16.le_iff_toNat_le, ← UInt16.toNat_inj]
  simp only [UInt16.reduceToNat]
  omega

theorem isSpace_digit {u : UInt16} (digit : isDigit u = true) : isSpace u = false := by
  simp only [isDigit, Bool.and_eq_true, decide_eq_true_eq, UInt16.le_iff_toNat_le,
    UInt16.reduceToNat] at digit
  exact isSpace_graphic (by omega) (by omega)

theorem trim_decompose (t : Text) :
    ∃ lead trail, t = lead ++ trim t ++ trail ∧ (∀ u ∈ lead, isSpace u) ∧
      ∀ u ∈ trail, isSpace u := by
  refine ⟨t.takeWhile isSpace, (t.dropWhile isSpace).rtakeWhile isSpace, ?_, ?_, ?_⟩
  · rw [append_assoc, trim, rdropWhile_append_rtakeWhile, takeWhile_append_dropWhile]
  · exact fun u hu => mem_takeWhile_imp hu
  · exact fun u hu => mem_rtakeWhile_imp hu

theorem trim_ends (t : Text) :
    (∀ u ∈ (trim t).head?, isSpace u = false) ∧ ∀ u ∈ (trim t).getLast?, isSpace u = false := by
  constructor
  · intro u first
    obtain ⟨rest, shape⟩ := head?_eq_some_iff.mp first
    have whole : trim t ++ (t.dropWhile isSpace).rtakeWhile isSpace = t.dropWhile isSpace :=
      rdropWhile_append_rtakeWhile
    have head := head?_dropWhile_not isSpace t
    rw [← whole, shape] at head
    simpa using head
  · intro u last
    have some_ : trim t ≠ [] := by
      intro none_
      rw [none_] at last
      cases last
    rw [getLast?_eq_getLast_of_ne_nil some_] at last
    rw [← Option.some.inj last]
    have solid := rdropWhile_last_not isSpace (t.dropWhile isSpace) some_
    exact Bool.eq_false_iff.mpr solid

theorem trim_eq_self {t : Text} (first : ∀ u ∈ t.head?, isSpace u = false)
    (last : ∀ u ∈ t.getLast?, isSpace u = false) : trim t = t := by
  have front : t.dropWhile isSpace = t := by
    cases t with
    | nil => rfl
    | cons u rest => simp [first u rfl]
  rw [trim, front, rdropWhile_eq_self_iff]
  intro some_
  simp [last _ (getLast?_eq_getLast_of_ne_nil some_)]

theorem trim_trim (t : Text) : trim (trim t) = trim t :=
  trim_eq_self (trim_ends t).1 (trim_ends t).2

end Ultrathink.Library.JsText
