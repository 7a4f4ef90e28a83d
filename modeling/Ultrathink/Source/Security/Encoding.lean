import Ultrathink.Library.Escapes
import Ultrathink.Library.JsonWrite

/-!
# Output encoding

`services/ultrathink/security/encoding.ts`: the encoders and `encodeForContext`. The encoders
that replace one unit after another are written as the list of their replacements in the order
of the calls.
-/

namespace Ultrathink.Source.Security.Encoding

open Library JsText

def encodeHtml (input : Text) : Text :=
  replaceAll [
    (0x26, js "&amp;"),
    (0x3C, js "&lt;"),
    (0x3E, js "&gt;"),
    (0x22, js "&quot;"),
    (0x27, js "&apos;"),
    (0x2F, js "&#x2F;")] input

def encodeHtmlAttribute (input : Text) : Text := replaceUnit 0x60 (js "&#x60;") (encodeHtml input)

def encodeJavaScript (input : Text) : Text :=
  replaceAll [
    (0x5C, js "\\\\"),
    (0x27, js "\\'"),
    (0x22, js "\\\""),
    (0x0A, js "\\n"),
    (0x0D, js "\\r"),
    (0x09, js "\\t"),
    (0x08, js "\\b"),
    (0x3C, js "\\u003C"),
    (0x3E, js "\\u003E"),
    (0x26, js "\\u0026"),
    (0x3D, js "\\u003D"),
    (0x2D, js "\\u002D"),
    (0x3B, js "\\u003B")] input

/-- On a string. -/
def encodeJson (input : Text) : Text := JsonWrite.quoted input

/-- Throws on a lone surrogate. -/
def encodeUrl (input : Text) : Except Text Text := encodeURIComponent input

def encodeFormUrl (input : Text) : Except Text Text :=
  (encodeURIComponent input).map (replaceFolded (js "%20") (js "+") 0)

/-- The expression has no `u` flag, so a surrogate pair is two characters to it. -/
def encodeCss (input : Text) : Text :=
  input.flatMap fun char =>
    if isUpperLetter char || isLowerLetter char || isDigit char then [char]
    else 0x5C :: (Sha256.hexDigit (char.toNat / 4096) :: Sha256.hexDigit (char.toNat / 256 % 16) ::
      Sha256.hexDigit (char.toNat / 16 % 16) :: Sha256.hexDigit (char.toNat % 16) :: [0x20])

def quoteSqlIdentifier (input : Text) : Except Text Text :=
  match input with
  | u :: rest =>
    if (isUpperLetter u || isLowerLetter u || u = 0x5F) && rest.all isWord then
      .ok (0x22 :: (input ++ [0x22]))
    else .error (js "Invalid SQL identifier: " ++ input)
  | [] => .error (js "Invalid SQL identifier: " ++ input)

def escapeShellArg (input : Text) : Text :=
  0x27 :: (replaceUnit 0x27 (js "'\\''") input ++ [0x27])

/-- The replacements that `escapeLdapDn` and `escapeLdapFilter` both make. -/
def ldapEscapes : List (UInt16 × Text) := [
  (0x5C, js "\\5c"),
  (0x2A, js "\\2a"),
  (0x28, js "\\28"),
  (0x29, js "\\29"),
  (0x00, js "\\00")]

def escapeLdapDn (input : Text) : Text := replaceAll ldapEscapes input

def escapeLdapFilter (input : Text) : Text := replaceAll ldapEscapes input

def isQuote (char : UInt16) : Bool := char = 0x27 || char = 0x22

/-- The segments between the quotes and the quotes; `current` is the segment being read. -/
def parts (current : Text) : Text → List Text
  | [] => if current = [] then [] else [current]
  | char :: input =>
    if isQuote char then
      (if current = [] then [] else [current]) ++ [char] :: parts [] input
    else parts (current ++ [char]) input

/-- A quote in the other kind of quotes; the segments take the two kinds in turn. -/
def concatParts (useSingleQuote : Bool) : List Text → List Text
  | [] => []
  | part :: rest =>
    if part = js "'" then js "\"'\"" :: concatParts useSingleQuote rest
    else if part = js "\"" then js "'\"'" :: concatParts useSingleQuote rest
    else
      (if useSingleQuote then 0x27 :: (part ++ [0x27]) else 0x22 :: (part ++ [0x22])) ::
        concatParts (!useSingleQuote) rest

def escapeXPath (input : Text) : Text :=
  if ¬ input.contains 0x27 ∧ ¬ input.contains 0x22 then 0x27 :: (input ++ [0x27])
  else if input.contains 0x27 ∧ ¬ input.contains 0x22 then 0x22 :: (input ++ [0x22])
  else if ¬ input.contains 0x27 ∧ input.contains 0x22 then 0x27 :: (input ++ [0x27])
  else js "concat(" ++ join (js ", ") (concatParts true (parts [] input)) ++ js ")"

def encodeCsvField (input : Text) : Text :=
  if input.any (fun u => u = 0x22 || u = 0x2C || u = 0x0A || u = 0x0D) then
    0x22 :: (replaceUnit 0x22 (js "\"\"") input ++ [0x22])
  else input

/-- Null bytes, then the control characters other than tab and line ends. -/
def sanitizeInput (input : Text) : Text :=
  (input.filter (· ≠ 0x00)).filter fun u =>
    ¬ (0x01 ≤ u ∧ u ≤ 0x08 ∨ u = 0x0B ∨ u = 0x0C ∨ 0x0E ≤ u ∧ u ≤ 0x1F ∨ u = 0x7F)

def safeForLogging (input : Text) : Text :=
  replaceAll [(0x0A, js "\\n"), (0x0D, js "\\r"), (0x09, js "\\t")] (sanitizeInput input)

inductive OutputContext where
  | html | htmlAttribute | htmlComment | javascript | javascriptTemplate | json | url | formUrl
  | css | cssString | sqlIdentifier | shell | ldapDn | ldapFilter | xpath | csv | log
  deriving DecidableEq, Repr

def encodeForContext (input : Text) : OutputContext → Except Text Text
  | .html => .ok (encodeHtml input)
  | .htmlAttribute => .ok (encodeHtmlAttribute input)
  | .htmlComment =>
    .ok (replaceUnit 0x3E (js "&gt;") (replaceFolded (js "--") (js "&#45;&#45;") 0 input))
  | .javascript => .ok (encodeJavaScript input)
  | .javascriptTemplate =>
    .ok (replaceFolded (js "$\x7b") (js "\\$\x7b") 0
      (replaceAll [(0x5C, js "\\\\"), (0x60, js "\\`")] input))
  | .json => .ok (encodeJson input)
  | .url => encodeUrl input
  | .formUrl => encodeFormUrl input
  | .css => .ok (encodeCss input)
  | .cssString => .ok (encodeJavaScript input)
  | .sqlIdentifier => quoteSqlIdentifier input
  | .shell => .ok (escapeShellArg input)
  | .ldapDn => .ok (escapeLdapDn input)
  | .ldapFilter => .ok (escapeLdapFilter input)
  | .xpath => .ok (escapeXPath input)
  | .csv => .ok (encodeCsvField input)
  | .log => .ok (safeForLogging input)

end Ultrathink.Source.Security.Encoding
