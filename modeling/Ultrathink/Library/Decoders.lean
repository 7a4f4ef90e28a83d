import Ultrathink.Library.Escapes
import Ultrathink.Library.JsonText

/-!
# Decoders of text contexts

What a text stands for where it is put: as the text of an HTML document or of an attribute, as
a literal of a script, as a word of a shell and so on. They work on code units.
-/

namespace Ultrathink.Library.Decoders

open JsText JsonText

/-- The references to the characters of markup, behind their ampersand. -/
def references : List (Text × Text) := [
  (js "amp;", [0x26]), (js "lt;", [0x3C]), (js "gt;", [0x3E]), (js "quot;", [0x22]),
  (js "apos;", [0x27]), (js "#x2F;", [0x2F]), (js "#x60;", [0x60])]

/-- Line ends are normalised before anything else is read. -/
def markupReader : Reader := fun u rest =>
  if u = 0x26 then
    (references.find? fun r => r.1.isPrefixOf rest).map fun r => (r.2, r.1.length)
  else if u = 0x0D then some ([0x0A], if rest.head? = some 0x0A then 1 else 0)
  else some ([u], 0)

/-- NUL is dropped from the text of a document. -/
def htmlTextReader : Reader := fun u rest =>
  if u = 0x3C then none
  else if u = 0x00 then some ([], 0)
  else markupReader u rest

def htmlText (t : Text) : Option Text := unescape htmlTextReader t

/-- NUL is replaced in the value of an attribute. -/
def htmlAttributeReader (quote : UInt16) : Reader := fun u rest =>
  if u = quote then none
  else if u = 0x00 then some ([replacement], 0)
  else markupReader u rest

def htmlAttribute (quote : UInt16) (t : Text) : Option Text :=
  unescape (htmlAttributeReader quote) t

/-- A string literal, between its quotes. -/
def scriptReader (quote : UInt16) : Reader := fun u rest =>
  if u = quote ∨ u = 0x0A ∨ u = 0x0D then none
  else if u = backslash then
    match rest with
    | [] => none
    | v :: rest =>
      if v = 0x75 then
        match rest with
        | a :: b :: c :: d :: _ => (unitOfHex a b c d).map fun w => ([w], 5)
        | _ => none
      else if v = 0x27 then some ([v], 1)
      else (unitOfEscape v).map fun w => ([w], 1)
  else some ([u], 0)

def scriptString (quote : UInt16) (t : Text) : Option Text := unescape (scriptReader quote) t

def isCssNewline (u : UInt16) : Bool := u = 0x0A || u = 0x0D || u = 0x0C

/-- A unit that is not escaped: NUL and lone surrogates are replaced. -/
def cssRaw (u : UInt16) (rest : Text) : Text × Nat :=
  if u = 0x00 then ([replacement], 0)
  else if isHighSurrogate u then
    match rest with
    | v :: _ => if isLowSurrogate v then ([u, v], 1) else ([replacement], 0)
    | [] => ([replacement], 0)
  else if isLowSurrogate u then ([replacement], 0)
  else ([u], 0)

def cssDigits (t : Text) : Text := (t.take 6).takeWhile fun u => (hexValue u).isSome

def cssNumber (digits : Text) : Nat := digits.foldl (fun n u => n * 16 + (hexValue u).getD 0) 0

def cssScalar (n : Nat) : Text :=
  if n = 0 ∨ 0xD800 ≤ n ∧ n ≤ 0xDFFF ∨ 0x10FFFF < n then [replacement] else unitsOf n

/-- The units of one newline or blank in front. -/
def cssBlank : Text → Nat
  | [] => 0
  | u :: rest =>
    if u = 0x0D ∧ rest.head? = some 0x0A then 2
    else if isCssNewline u || u = 0x20 || u = 0x09 then 1
    else 0

/-- Behind a backslash: a code point by its number, or a character by itself. -/
def cssEscape (rest : Text) : Option (Text × Nat) :=
  let digits := cssDigits rest
  if digits ≠ [] then
    some (cssScalar (cssNumber digits), digits.length + cssBlank (rest.drop digits.length))
  else
    match rest with
    | [] => none
    | v :: rest => if isCssNewline v then none else some ((cssRaw v rest).1, (cssRaw v rest).2 + 1)

def cssIdentReader : Reader := fun u rest =>
  if u = backslash then cssEscape rest
  else if isWord u || u = 0x2D || 0x80 ≤ u || u = 0x00 then some (cssRaw u rest)
  else none

/-- An identifier does not start with a digit; those that start with a hyphen are not read. -/
def cssIdentStarts : Text → Bool
  | [] => false
  | u :: _ => (isWord u && !isDigit u) || u = backslash || 0x80 ≤ u || u = 0x00

def cssIdent (t : Text) : Option Text :=
  if cssIdentStarts t then unescape cssIdentReader t else none

/-- A string, between its quotes; a backslash in front of a newline removes it. -/
def cssStringReader (quote : UInt16) : Reader := fun u rest =>
  if u = quote || isCssNewline u then none
  else if u = backslash then
    match rest with
    | [] => none
    | v :: _ => if isCssNewline v then some ([], cssBlank rest) else cssEscape rest
  else some (cssRaw u rest)

def cssString (quote : UInt16) (t : Text) : Option Text := unescape (cssStringReader quote) t

/-- A word after the removal of its quotes; it cannot hold NUL. What a shell may take for more
than a character is read inside quotes only. -/
def shellWord (quoted : Bool) : Text → Option Text
  | [] => if quoted then none else some []
  | u :: rest =>
    if u = 0x00 then none
    else if quoted then
      if u = 0x27 then shellWord false rest else (shellWord true rest).map (u :: ·)
    else if u = 0x27 then shellWord true rest
    else if u = backslash then
      match rest with
      | [] => none
      | v :: rest =>
        if v = 0x00 ∨ v = 0x0A then none else (shellWord false rest).map (v :: ·)
    else if isSpace u || (js "\"$`|&;<>()*?[#~=%!\x7b\x7d").contains u then none
    else (shellWord false rest).map (u :: ·)

theorem shellWord_inside {u : UInt16} (plain : u ≠ 0x00 ∧ u ≠ 0x27) (rest : Text) :
    shellWord true (u :: rest) = (shellWord true rest).map (u :: ·) := by
  rw [shellWord.eq_def]
  simp only [if_neg plain.1, if_neg plain.2]
  rfl

theorem shellWord_nul (quoted : Bool) (rest : Text) : shellWord quoted (0x00 :: rest) = none := by
  rw [shellWord.eq_def]
  simp

theorem shellWord_quote (quoted : Bool) (rest : Text) :
    shellWord quoted (0x27 :: rest) = shellWord (!quoted) rest := by
  rw [shellWord.eq_def]
  cases quoted <;> rfl

theorem shellWord_escaped (rest : Text) :
    shellWord false (backslash :: 0x27 :: rest) = (shellWord false rest).map (0x27 :: ·) := rfl

/-- The octet of two hexadecimal digits, where it is ASCII. -/
def hexPair : Text → Option (Text × Nat)
  | a :: b :: _ =>
    match hexValue a, hexValue b with
    | some a, some b => if a * 16 + b < 0x80 then some ([(a * 16 + b).toUInt16], 2) else none
    | _, _ => none
  | _ => none

/-- The value of an assertion in a search filter. -/
def ldapFilterReader : Reader := fun u rest =>
  if u = 0x00 ∨ u = 0x28 ∨ u = 0x29 ∨ u = 0x2A then none
  else if u = backslash then hexPair rest
  else some ([u], 0)

def ldapFilterValue (t : Text) : Option Text := unescape ldapFilterReader t

/-- What a distinguished name takes for itself wherever it stands. -/
def ldapSpecials : Text := js "\"+,;<>"

/-- The value of an attribute in a distinguished name; a space at its end is written with a
backslash. -/
def ldapNameReader : Reader := fun u rest =>
  if u = 0x00 ∨ u ∈ ldapSpecials then none
  else if u = backslash then
    match rest with
    | [] => none
    | v :: _ =>
      if v = backslash ∨ v ∈ ldapSpecials ∨ v ∈ js " #=" then some ([v], 1) else hexPair rest
  else if u = 0x20 ∧ rest = [] then none
  else some ([u], 0)

def ldapNameValue (t : Text) : Option Text :=
  if t.head? = some 0x20 ∨ t.head? = some 0x23 then none else unescape ldapNameReader t

/-- The text up to a quote that ends it. -/
def untilQuote (quote : UInt16) : Text → Option Text
  | [] => none
  | u :: rest =>
    if u = quote then if rest = [] then some [] else none
    else (untilQuote quote rest).map (u :: ·)

/-- Where a call of `concat` is being read; `many` says that an argument has been passed. -/
inductive ConcatState where
  | before (many : Bool)
  | inside (many : Bool) (quote : UInt16)
  | after (many : Bool)
  | closed

/-- What `concat` makes of its literals; it takes two or more. -/
def concatText : ConcatState → Text → Option Text
  | .closed, [] => some []
  | _, [] => none
  | .before many, u :: rest =>
    if isWs u then concatText (.before many) rest
    else if u = 0x27 ∨ u = 0x22 then concatText (.inside many u) rest
    else none
  | .inside many quote, u :: rest =>
    if u = quote then concatText (.after many) rest
    else (concatText (.inside many quote) rest).map (u :: ·)
  | .after many, u :: rest =>
    if isWs u then concatText (.after many) rest
    else if u = 0x2C then concatText (.before true) rest
    else if u = 0x29 ∧ many then concatText .closed rest
    else none
  | .closed, u :: rest => if isWs u then concatText .closed rest else none

/-- A literal, or the `concat` of literals. -/
def xpathString : Text → Option Text
  | [] => none
  | u :: rest =>
    if u = 0x27 ∨ u = 0x22 then untilQuote u rest
    else if (js "concat(").isPrefixOf (u :: rest) then
      concatText (.before false) ((u :: rest).drop (js "concat(").length)
    else none

/-- A quoted field, behind its first quote. -/
def csvQuoted : Text → Option Text
  | [] => none
  | u :: rest =>
    if u = 0x22 then
      match rest with
      | [] => some []
      | v :: rest => if v = 0x22 then (csvQuoted rest).map (u :: ·) else none
    else (csvQuoted rest).map (u :: ·)

theorem csvQuoted_other {u : UInt16} (other : u ≠ 0x22) (rest : Text) :
    csvQuoted (u :: rest) = (csvQuoted rest).map (u :: ·) := by
  rw [csvQuoted.eq_def]
  simp only [if_neg other]

def csvField (t : Text) : Option Text :=
  match t with
  | 0x22 :: rest => csvQuoted rest
  | _ => if t.any (fun u => u = 0x22 || u = 0x2C || u = 0x0A || u = 0x0D) then none else some t

end Ultrathink.Library.Decoders
