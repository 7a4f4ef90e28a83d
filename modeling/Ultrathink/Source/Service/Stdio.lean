import Ultrathink.Library.TextDecoder
import Ultrathink.Source.Service.Mcp

/-!
# The MCP transport over standard streams (`services/ultrathink/stdio/server.ts`)

`serveStdio`: lines of JSON-RPC in, one line of JSON out for each reply. A handler of payloads
is given, which the service makes `handleMcpPayload`; one that throws is a program that ends
in none. The abort signal and the log lines are left out: without a signal the loop runs to
the end of the input. A reply is a JSON value, as the hosts of the service return it: on a
cycle or a big integer in it the last `JSON.stringify` would throw.
-/

namespace Ultrathink.Service.Stdio

open Library JsText JsonWrite Service.Validate Service.Mcp
open Library.JsNumber (toInt?)

def MAX_LINE_BYTES : Nat := 1024 * 1024

def NEWLINE : UInt8 := 0x0A

def CARRIAGE_RETURN : UInt8 := 0x0D

def PARSE_ERROR : Nat := 32700

def errorLine (id : Value) (code : Nat) (message : Text) : Text := stringify (errorValue id code message)

/-- `value[key]` when `value` is a plain object. -/
def field (value : Option Value) (key : String) : Option Value := Mcp.property value key

/-- The id to answer a failed request with. -/
def requestId (payload : Value) : Value :=
  match field (some payload) "id" with
  | some (.str s) => .str s
  | some (.num n) => if (toInt? n).isSome then .num n else .null
  | _ => .null

/-- The protocol version an initialize reply settled on. -/
def negotiatedVersion (payload reply : Value) : Option Text :=
  if isText (field (some payload) "method") (js "initialize") then
    match field (field (some reply) "result") "protocolVersion" with
    | some (.str version) => some version
    | _ => none
  else none

/-- What is read from the input at once. -/
inductive Chunk where
  | bytes (bytes : List UInt8)
  | text (text : Text)

def toBytes : Chunk → List UInt8
  | .bytes bytes => bytes
  | .text text => toUtf8 text

/-- `new TextDecoder().decode(bytes)` -/
def decoded (bytes : List UInt8) : Text := withoutMark (ofUtf8 bytes)

def withoutReturn (bytes : List UInt8) : List UInt8 :=
  if bytes.getLast? = some CARRIAGE_RETURN then bytes.dropLast else bytes

/-- A handler of one payload under a protocol version, none where it throws. -/
abbrev Handler := Value → Option Text → M (Option (Option McpReply))

def write (line : Text) : M Unit := ask (.write line)

def refuseOversized : M Unit := write (errorLine .null INVALID_REQUEST (js "invalid request: line too long"))

/-- A line, with the protocol version before it and after it. -/
def handleLine (handler : Handler) (bytes : List UInt8) (protocolVersion : Option Text) :
    M (Option Text) := do
  let text := decoded (withoutReturn bytes)
  if trim text = [] then return protocolVersion
  else
    match JsonText.parse text with
    | none =>
      write (errorLine .null PARSE_ERROR (js "parse error"))
      return protocolVersion
    | some payload =>
      match ← handler payload protocolVersion with
      | none =>
        write (errorLine (requestId payload) INTERNAL_ERROR (js "internal error"))
        return protocolVersion
      | some none => return protocolVersion
      | some (some reply) =>
        write (stringify reply.body.value)
        return (negotiatedVersion payload reply.body.value).or protocolVersion

structure State where
  protocolVersion : Option Text
  /-- `join(parts, partsBytes)` -/
  parts : List UInt8
  discarding : Bool

def State.initial : State := ⟨none, [], false⟩

/-- The segments of a chunk that end in a newline, then what is left of it. -/
def segments : List UInt8 → List (List UInt8) × List UInt8
  | [] => ([], [])
  | u :: rest =>
    if u = NEWLINE then ([] :: (segments rest).1, (segments rest).2)
    else
      match (segments rest).1 with
      | [] => ([], u :: (segments rest).2)
      | segment :: more => ((u :: segment) :: more, (segments rest).2)

/-- A segment that a newline ends. -/
def feedLine (handler : Handler) (maxLine : Nat) (segment : List UInt8) (s : State) : M State := do
  if s.discarding then return { s with discarding := false }
  else if maxLine < s.parts.length + segment.length then
    refuseOversized
    return { s with parts := [], discarding := false }
  else
    let protocolVersion ← handleLine handler (s.parts ++ segment) s.protocolVersion
    return { s with protocolVersion, parts := [] }

/-- The end of a chunk; the loop stops before it where nothing is left. -/
def feedRest (maxLine : Nat) (segment : List UInt8) (s : State) : M State := do
  if segment = [] then return s
  else if s.discarding then return s
  else if maxLine < s.parts.length + segment.length then
    refuseOversized
    return { s with parts := [], discarding := true }
  else return { s with parts := s.parts ++ segment }

def feedLines (handler : Handler) (maxLine : Nat) : List (List UInt8) → State → M State
  | [], s => return s
  | segment :: rest, s => do
    let s ← feedLine handler maxLine segment s
    feedLines handler maxLine rest s

/-- Consumes one chunk: completes every line it ends and keeps the unfinished tail. -/
def feed (handler : Handler) (maxLine : Nat) (chunk : List UInt8) (s : State) : M State := do
  let s ← feedLines handler maxLine (segments chunk).1 s
  feedRest maxLine (segments chunk).2 s

def feedAll (handler : Handler) (maxLine : Nat) : List Chunk → State → M State
  | [], s => return s
  | chunk :: rest, s => do
    let s ← feed handler maxLine (toBytes chunk) s
    feedAll handler maxLine rest s

/-- Input ended in the middle of a line: it is still a message. -/
def finish (handler : Handler) (s : State) : M Unit := do
  if !s.discarding && 0 < s.parts.length then
    let _ ← handleLine handler s.parts s.protocolVersion
    return ()
  else return ()

def serveWith (handler : Handler) (maxLineBytes : Option Nat) (input : List Chunk) : M Unit := do
  let s ← feedAll handler (maxLineBytes.getD MAX_LINE_BYTES) input .initial
  finish handler s

/-- `handleMcpPayload` throws nowhere. -/
def mcpHandler (h : McpToolHost) (c : Content) : Handler :=
  fun payload protocolVersion => some <$> handleMcpPayload h c payload protocolVersion

def serveStdio (h : McpToolHost) (c : Content) (maxLineBytes : Option Nat) (input : List Chunk) : M Unit :=
  serveWith (mcpHandler h c) maxLineBytes input

end Ultrathink.Service.Stdio
