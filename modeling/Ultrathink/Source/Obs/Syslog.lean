import Ultrathink.Library.JsonWrite
import Ultrathink.Library.OctetCounting

/-!
# Syslog transport

`encodeSyslogFrame` and `createSyslogTransport` of `obs/sinks/syslog.ts`, for sends that come one
at a time. A connection is the bytes that it accepted and whether its link is alive; what the socket
and the signal do at each turn of the write loop is an argument, and a send whose turns are used up
still waits.
-/

namespace Ultrathink.Source.Obs.Syslog

open Library JsText JsonText
open Library.JsNumber (Number toInt?)

inductive SinkKind where
  | audit
  | alert
  | security
  deriving DecidableEq

/-- The body is what `JSON.stringify` makes of it; nothing for one that it refuses. -/
structure SinkEnvelope where
  kind : SinkKind
  at_ : Text
  body : Option (List (Text × Value))

/-- The local0 facility with the severity of the kind. -/
def PRI : SinkKind → Nat
  | .audit => 134
  | .security => 132
  | .alert => 130

def SinkKind.text : SinkKind → Text
  | .audit => js "audit"
  | .alert => js "alert"
  | .security => js "security"

structure SyslogTransportOptions where
  host : Text
  port : Number
  hostname : Text
  appName : Text

/-- `[\x21-\x7e]` -/
def isGraphic (u : UInt16) : Bool := 0x21 ≤ u && u ≤ 0x7E

def isHeaderField (max : Nat) (value : Text) : Bool :=
  1 ≤ value.length && value.length ≤ max && value.all isGraphic

def HOSTNAME_PATTERN : Text → Bool := isHeaderField 255

def APP_NAME_PATTERN : Text → Bool := isHeaderField 48

/-- What is left behind exactly `n` digits. -/
def afterDigits (n : Nat) (t : Text) : Option Text :=
  if (t.take n).length = n ∧ (t.take n).all isDigit then some (t.drop n) else none

def afterUnit (u : UInt16) (t : Text) : Option Text := if t.head? = some u then some t.tail else none

/-- `(\.\d{1,6})?` in front of what no digit begins. -/
def afterFraction (t : Text) : Option Text :=
  match afterUnit 0x2E t with
  | none => some t
  | some rest =>
    let digits := rest.takeWhile isDigit
    if 1 ≤ digits.length ∧ digits.length ≤ 6 then some (rest.dropWhile isDigit) else none

/-- `(Z|[+-]\d{2}:\d{2})$` -/
def isZone (t : Text) : Bool :=
  t = js "Z" ||
    (((afterUnit 0x2B t).or (afterUnit 0x2D t)).bind fun t => (afterDigits 2 t).bind fun t =>
      (afterUnit 0x3A t).bind (afterDigits 2)) = some []

def RFC3339_PATTERN (t : Text) : Bool :=
  ((afterDigits 4 t).bind fun t => (afterUnit 0x2D t).bind fun t => (afterDigits 2 t).bind fun t =>
    (afterUnit 0x2D t).bind fun t => (afterDigits 2 t).bind fun t => (afterUnit 0x54 t).bind fun t =>
    (afterDigits 2 t).bind fun t => (afterUnit 0x3A t).bind fun t => (afterDigits 2 t).bind fun t =>
    (afterUnit 0x3A t).bind fun t => (afterDigits 2 t).bind afterFraction).any isZone

def NIL : Text := js "-"

/-- `JSON.stringify(env)` -/
def envelopeText (env : SinkEnvelope) : Option Text :=
  env.body.map fun body => JsonWrite.stringify (.obj [(js "kind", .str env.kind.text),
    (js "at", .str env.at_), (js "body", .obj body)])

/-- The seven fields in front of the envelope in an RFC 5424 message. -/
def headerFields (env : SinkEnvelope) (o : SyslogTransportOptions) : List Text :=
  let timestamp := if RFC3339_PATTERN env.at_ then env.at_ else NIL
  [js "<" ++ ofNat (PRI env.kind) ++ js ">1", timestamp, o.hostname, o.appName, NIL, NIL, NIL]

/-- One RFC 5424 message. -/
def messageText (env : SinkEnvelope) (json : Text) (o : SyslogTransportOptions) : Text :=
  join (js " ") (headerFields env o ++ [json])

/-- The message behind its length in bytes; nothing when a header field or the body is refused. -/
def encodeSyslogFrame (env : SinkEnvelope) (o : SyslogTransportOptions) : Option (List UInt8) :=
  if HOSTNAME_PATTERN o.hostname && APP_NAME_PATTERN o.appName then
    (envelopeText env).map fun json =>
      let message := toUtf8 (messageText env json o)
      toUtf8 (ofNat message.length ++ js " ") ++ message
  else none

inductive SendResult where
  | ok
  | failed (retryable : Bool) (reason : Text)
  deriving DecidableEq

/-- `networkFailure`, with the label that the error has. -/
def networkFailure (aborted : Bool) (label : Text) : SendResult :=
  if aborted then .failed true (js "aborted") else .failed true (js "network error: " ++ label)

structure Connection where
  accepted : List UInt8
  alive : Bool
  deriving DecidableEq

/-- Every connection that was opened, and the one that is kept. -/
structure Transport where
  live : Option Nat
  connections : List Connection
  deriving DecidableEq

/-- Nothing is made of options that are refused. -/
def createSyslogTransport (o : SyslogTransportOptions) : Option Transport :=
  if o.host.length = 0 then none
  else if (toInt? o.port).all (fun n => n < 1 || 65535 < n) then none
  else if !HOSTNAME_PATTERN o.hostname || !APP_NAME_PATTERN o.appName then none
  else some ⟨none, []⟩

/-- How opening a connection ends when there is none alive. -/
inductive Connect where
  | refused (aborted : Bool) (label : Text)
  | opened

/-- What `socket.write` does: it throws, it returns a negative count, or it accepts some of the bytes that
it was offered, and the link is alive after that or not. -/
inductive Write where
  | threw (aborted : Bool) (label : Text)
  | negative
  | accepted (count : Nat) (alive : Bool)

/-- How the wait for a drain ends. -/
inductive Drain where
  | drained
  | closed
  | aborted

structure Turn where
  write : Write
  drain : Drain

def dropLink (t : Transport) : Transport := ⟨none, t.connections⟩

/-- A link that closes or fails. -/
def markDead (t : Transport) (i : Nat) : Transport :=
  ⟨t.live, t.connections.modify i fun c => ⟨c.accepted, false⟩⟩

def accept (t : Transport) (i : Nat) (bytes : List UInt8) (alive : Bool) : Transport :=
  ⟨t.live, t.connections.modify i fun c => ⟨c.accepted ++ bytes, alive⟩⟩

def isAlive (t : Transport) (i : Nat) : Bool := (t.connections[i]?).any Connection.alive

def socketFor (t : Transport) (connect : Connect) : Except SendResult (Transport × Nat) :=
  match t.live.filter (isAlive t) with
  | some i => .ok (t, i)
  | none =>
    match connect with
    | .refused aborted label => .error (networkFailure aborted label)
    | .opened => .ok (⟨some t.connections.length, t.connections ++ [⟨[], true⟩]⟩, t.connections.length)

/-- The write loop on what is left of the payload; no result while it waits. -/
def writeLoop (i : Nat) : List Turn → List UInt8 → Transport → Transport × Option SendResult
  | [], _, t => (t, none)
  | turn :: turns, left, t =>
    match turn.write with
    | .threw aborted label => (dropLink t, some (networkFailure aborted label))
    | .negative => (dropLink t, some (.failed true (js "network error: write")))
    | .accepted count alive =>
      let t := accept t i (left.take count) alive
      if alive = false then (dropLink t, some (.failed true (js "network error: write")))
      else
        let left := left.drop count
        if left = [] then (t, some .ok)
        else
          match turn.drain with
          | .drained => writeLoop i turns left t
          | .closed => (dropLink t, some (.failed true (js "network error: write")))
          | .aborted => (dropLink t, some (.failed true (js "aborted")))

/-- One call of `send` with what it meets. -/
structure Send where
  batch : List SinkEnvelope
  aborted : Bool
  connect : Connect
  turns : List Turn

def send (o : SyslogTransportOptions) (t : Transport) (call : Send) : Transport × Option SendResult :=
  if call.batch = [] then (t, some .ok)
  else if call.aborted then (t, some (.failed true (js "aborted")))
  else
    match call.batch.mapM fun env => encodeSyslogFrame env o with
    | none => (t, some (.failed false (js "encode failed")))
    | some frames =>
      match socketFor t call.connect with
      | .error result => (t, some result)
      | .ok (t, i) => writeLoop i call.turns frames.flatten t

end Ultrathink.Source.Obs.Syslog
