import Ultrathink.Library.JsNumber
import Ultrathink.Library.Regex

/-!
# The steps of a rationale

`splitRationaleSteps` of `track/plan.ts`.
-/

namespace Ultrathink.Source.Track.Steps

open Library JsText Regex JsNumber

/-- `[ \t]` -/
def isBlank (u : UInt16) : Bool := u = 0x20 || u = 0x09

def isAsterisk (u : UInt16) : Bool := u = 0x2A

/-- `[.):]` -/
def isPoint (u : UInt16) : Bool := u = 0x2E || u = 0x29 || u = 0x3A

/-- `[-–—]` -/
def isDash (u : UInt16) : Bool := u = 0x2D || u = 0x2013 || u = 0x2014

/-- `[.)]` -/
def isInlinePoint (u : UInt16) : Bool := u = 0x2E || u = 0x29

/-- `e?` -/
def option (e : Expr) : Expr := .alt e .empty

/-- `e+` for a class of units. -/
def some_ (accepts : UInt16 → Bool) : Expr := .seq (.one accepts) (.many true (.one accepts))

/-- `(?:\*\*)?` -/
def boldRe : Expr := option (.seq (.one isAsterisk) (.one isAsterisk))

/-- `(?:step\s+)?` under the `i` flag. -/
def stepRe : Expr := option (.seq (literal true (js "step")) (some_ isSpace))

/-- `(\d{1,2})` -/
def numberRe : Expr := .group 1 (.seq (.one isDigit) (option (.one isDigit)))

/-- `(?:[.):]|\s+[-–—])` -/
def pointRe : Expr := .alt (.one isPoint) (.seq (some_ isSpace) (.one isDash))

/-- `^[ \t]*(?:\*\*)?(?:step\s+)?(\d{1,2})(?:[.):]|\s+[-–—])(?:\*\*)?[ \t]+` under the flags
`gim`. -/
def LINE_MARKER_RE : Expr :=
  .seq .lineStart (.seq (.many true (.one isBlank))
    (.seq boldRe (.seq stepRe (.seq numberRe (.seq pointRe (.seq boldRe (some_ isBlank)))))))

/-- `(?:^|\s)(\d{1,2})[.)]\s+` under the flag `g`. -/
def INLINE_MARKER_RE : Expr :=
  .seq (.alt .atStart (.one isSpace)) (.seq numberRe (.seq (.one isInlinePoint) (some_ isSpace)))

structure Marker where
  start : Nat
  stop : Nat
deriving DecidableEq

def trimStart (text : Text) : Text := text.dropWhile isSpace

/-- The match without its leading white space. -/
def markerOf (m : Match) : Marker :=
  let leading := m.matched.length - (trimStart m.matched).length
  ⟨m.before.length + leading, m.before.length + m.matched.length⟩

def lineMarkers (text : Text) : List Marker := (matchAll LINE_MARKER_RE text).map markerOf

/-- The matches that continue the sequence from `expected` on. -/
def continuing : Nat → List Match → List Match
  | _, [] => []
  | expected, m :: rest =>
    if valueOf ((m.group 1).getD []) ≠ expected then continuing expected rest
    else m :: continuing (expected + 1) rest

def sequentialInlineMarkers (text : Text) : List Marker :=
  (continuing 1 (matchAll INLINE_MARKER_RE text)).map markerOf

def slice (text : Text) (start stop : Nat) : Text := (text.take stop).drop start

/-- What follows each marker, up to the next. -/
def pieces (text : Text) : List Marker → List Text
  | [] => []
  | [marker] => [trim (slice text marker.stop text.length)]
  | marker :: next :: rest => trim (slice text marker.stop next.start) :: pieces text (next :: rest)

/-- A preamble is folded into the first step. -/
def withPreamble (preamble : Text) : List Text → List Text
  | [] => []
  | first :: rest =>
    if preamble = [] then first :: rest else trim (preamble ++ js " " ++ first) :: rest

def splitRationaleSteps (rationale : Text) : List Text :=
  let text := trim rationale
  if text = [] then []
  else
    let byLine := lineMarkers text
    let markers := if 2 ≤ byLine.length then byLine else sequentialInlineMarkers text
    match markers with
    | [] => [text]
    | first :: _ =>
      (withPreamble (trim (text.take first.start)) (pieces text markers)).filter (· ≠ [])

example : splitRationaleSteps (js "1. Check 5-8 nodes and v2. of the API. 2. Then run 1. lint 2. tests. 3. Ship.") =
    [js "Check 5-8 nodes and v2. of the API.", js "Then run 1. lint 2. tests.", js "Ship."] := by
  decide +kernel

example : splitRationaleSteps (js "Step 1: a\nStep 2 - b\nstep 3. c") = [js "a", js "b", js "c"] := by
  decide +kernel

end Ultrathink.Source.Track.Steps
