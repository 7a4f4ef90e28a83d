import Ultrathink.Library.JsonWrite
import Ultrathink.Library.TextDecoder
import Ultrathink.Source.Mcp.Sse

/-!
# The relay over stdin and stdout (`src/mcp/relay.ts`)

`runStdioRelay` decodes what comes on stdin as one stream, cuts it into lines and gives each
line to the relay or refuses it. What it does is listed in its order; the answers that
`relay.handle` writes later are the relay's own and are left out, and so is the wait for them
at the end.
-/

namespace Ultrathink.Mcp.Stdio

open Library JsText JsNumber
open Sse (lines MAX_BODY_BYTES)

abbrev Value := Json Number

/-- What the loop does with a line. -/
inductive Act where
  /-- `relay.handle(message)` is called. -/
  | handle (message : Value)
  /-- `output(line)` -/
  | output (line : Text)
  /-- `logValidationFailure` of the source `mcp_relay` and the resource `stdio`. -/
  | logFailure (field code : Text)

/-- An error with the code `-code` that names no request. -/
def errorLine (code : Nat) (message : Text) : Text :=
  JsonWrite.stringify <| .obj
    [(js "jsonrpc", .str (js "2.0")), (js "id", .null),
      (js "error", .obj [(js "code", .num (ofDecimal true code 0)), (js "message", .str message)])]

def dispatch (line : Text) : List Act :=
  if trim line = [] then []
  else
    match JsonText.parse line with
    | some message => [.handle message]
    | none =>
      [.logFailure (js "line") (js "PARSE_ERROR"),
        .output (errorLine 32700 (js "Parse error"))]

def refuseLong : List Act :=
  [.logFailure (js "line") (js "TOO_LONG"), .output (errorLine 32600 (js "invalid request"))]

structure LineReader where
  decoder : TextDecoder
  buffer : Text
  discarding : Bool

def LineReader.new : LineReader := ⟨.new, [], false⟩

/-- The loop over the lines that have ended, and whether a line is still thrown away after
it. -/
def takeLines (maxLineChars : Nat) : List Text → Bool → List Act × Bool
  | [], discarding => ([], discarding)
  | _ :: rest, true => takeLines maxLineChars rest false
  | line :: rest, false =>
    let acts := if maxLineChars < line.length then refuseLong else dispatch line
    (acts ++ (takeLines maxLineChars rest false).1, (takeLines maxLineChars rest false).2)

/-- `buffer += decoder.decode(chunk, { stream: true })` -/
def buffered (r : LineReader) (chunk : List UInt8) : Text := r.buffer ++ (r.decoder.decode chunk).1

def push (maxLineChars : Nat) (r : LineReader) (chunk : List UInt8) : List Act × LineReader :=
  let decoder := (r.decoder.decode chunk).2
  let (ended, buffer) := lines (buffered r chunk)
  let (acts, discarding) := takeLines maxLineChars ended r.discarding
  if discarding then (acts, ⟨decoder, [], true⟩)
  else if maxLineChars < buffer.length then (acts ++ refuseLong, ⟨decoder, [], true⟩)
  else (acts, ⟨decoder, buffer, false⟩)

def pushAll (maxLineChars : Nat) : List (List UInt8) → LineReader → List Act × LineReader
  | [], r => ([], r)
  | chunk :: rest, r =>
    let (acts, r) := push maxLineChars r chunk
    (acts ++ (pushAll maxLineChars rest r).1, (pushAll maxLineChars rest r).2)

/-- What follows the loop over the chunks. -/
def finish (maxLineChars : Nat) (r : LineReader) : List Act :=
  let buffer := r.buffer ++ r.decoder.finish
  if r.discarding then []
  else if maxLineChars < buffer.length then refuseLong
  else dispatch buffer

def runStdioRelay (maxLineChars : Option Nat) (input : List (List UInt8)) : List Act :=
  let maxLineChars := maxLineChars.getD MAX_BODY_BYTES
  let (acts, r) := pushAll maxLineChars input .new
  acts ++ finish maxLineChars r

end Ultrathink.Mcp.Stdio
