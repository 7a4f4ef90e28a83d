import Ultrathink.Library.JsText

/-!
# Server-sent events (`src/mcp/sse.ts`)

`createSseParser`: the events of a stream that arrives chunk by chunk, with the cap on an
unterminated line and on the data of one event. Each function returns what `onMessage`
was called with, and the error if it threw; what was dispatched before an error stays
dispatched.
-/

namespace Ultrathink.Mcp.Sse

open Library.JsText

/-- A JSON response or one SSE line larger than this is refused rather than buffered. -/
def MAX_BODY_BYTES : Nat := 16 * 1024 * 1024

structure Parser where
  buffer : Text
  data : List Text
  dataChars : Nat

def Parser.empty : Parser := ⟨[], [], 0⟩

/-- The parser after a call, the payloads it dispatched and the error it threw. -/
structure Pushed where
  parser : Parser
  payloads : List Text
  thrown : Option Text

def dispatch (p : Parser) : Pushed :=
  if p.data = [] then ⟨p, [], none⟩
  else
    let payload := join [0x0A] p.data
    ⟨{ p with data := [], dataChars := 0 }, if payload = [] then [] else [payload], none⟩

def withoutReturn (raw : Text) : Text := if raw.getLast? = some 0x0D then raw.dropLast else raw

def processLine (maxLineChars : Nat) (p : Parser) (raw : Text) : Pushed :=
  let line := withoutReturn raw
  if line = [] then dispatch p
  else if line.head? = some 0x3A then ⟨p, [], none⟩
  else
    let field := line.takeWhile (· ≠ 0x3A)
    if field ≠ js "data" then ⟨p, [], none⟩
    else
      let value := (line.dropWhile (· ≠ 0x3A)).drop 1
      let value := if value.head? = some 0x20 then value.drop 1 else value
      let data := p.data ++ [value]
      let dataChars := p.dataChars + value.length + (if 1 < data.length then 1 else 0)
      let p := { p with data, dataChars }
      if maxLineChars < dataChars then ⟨p, [], some (js "SSE event too large")⟩ else ⟨p, [], none⟩

/-- The lines of the text that end in a line feed, and what is left. -/
def lines : Text → List Text × Text
  | [] => ([], [])
  | u :: rest =>
    let (ended, left) := lines rest
    if u = 0x0A then ([] :: ended, left)
    else
      match ended with
      | [] => ([], u :: left)
      | line :: ended => ((u :: line) :: ended, left)

def processLines (maxLineChars : Nat) : List Text → Parser → Pushed
  | [], p => ⟨p, [], none⟩
  | line :: rest, p =>
    let first := processLine maxLineChars p line
    match first.thrown with
    | some _ => first
    | none =>
      let later := processLines maxLineChars rest first.parser
      { later with payloads := first.payloads ++ later.payloads }

def push (maxLineChars : Nat) (p : Parser) (chunk : Text) : Pushed :=
  let (ended, left) := lines (p.buffer ++ chunk)
  let pushed := processLines maxLineChars ended p
  match pushed.thrown with
  | some _ => pushed
  | none =>
    { pushed with
      parser := { pushed.parser with buffer := left }
      thrown := if maxLineChars < left.length then some (js "SSE line too long") else none }

/-- `end()` -/
def finish (maxLineChars : Nat) (p : Parser) : Pushed :=
  if p.buffer = [] then dispatch p
  else
    let last := processLine maxLineChars p p.buffer
    match last.thrown with
    | some _ => last
    | none =>
      let rest := dispatch { last.parser with buffer := [] }
      { rest with payloads := last.payloads ++ rest.payloads }

/-- Pushes the chunks in order, up to the first that throws. -/
def pushAll (maxLineChars : Nat) : List Text → Parser → Pushed
  | [], p => ⟨p, [], none⟩
  | chunk :: rest, p =>
    let first := push maxLineChars p chunk
    match first.thrown with
    | some _ => first
    | none =>
      let later := pushAll maxLineChars rest first.parser
      { later with payloads := first.payloads ++ later.payloads }

example : (pushAll 64 [js "data: a\n: c\nda", js "ta:b\r\n\nevent"] .empty).payloads =
    [js "a\nb"] := by decide

end Ultrathink.Mcp.Sse
