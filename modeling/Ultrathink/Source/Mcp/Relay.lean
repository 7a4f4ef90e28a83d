import Ultrathink.Library.JsNumber
import Ultrathink.Library.Json
import Ultrathink.Library.Regex
import Ultrathink.Library.Threads
import Ultrathink.Source.Mcp.Sse

/-!
# The MCP relay (`src/mcp/relay.ts`)

`createRelay`: a message of the client is posted to the upstream, whose answer is read as
JSON or as an event stream and written line by line. Every `handle` call is a thread, and
so is every shared re-initialize; they share the session. A call to the authentication,
to the upstream or on the session is where the threads may take turns, which is at least
wherever the source awaits.

A body is given as the chunks that arrive and what happened after them: the stream ended,
or it broke (an error of the stream, or the signal's abort). Log lines are left out.
-/

namespace Ultrathink.Mcp.Relay

open Library JsText JsNumber Regex Interaction

abbrev Value := Json Number

abbrev Record := Json.Record Number

structure Refusal where
  field : Text
  code : Text

def get (record : Record) (name : String) : Option Value := Json.field record (js name)

def has (record : Record) (name : String) : Bool := (get record name).isSome

def isText (value : Option Value) (t : Text) : Bool :=
  match value with
  | some (.str s) => s = t
  | _ => false

def asRpc : Value → Record
  | .obj fields => fields
  | _ => []

/-- `/^[^\x00-\x1f\x7f]*$/` -/
def NO_CONTROL (t : Text) : Bool := t.all fun u => 0x1F < u && u ≠ 0x7F

/-- `new StringValidator({ allowEmpty: true, maxLength, pattern: NO_CONTROL })`: the code of
the failure. -/
def validateText (maxLength : Nat) : Value → Option Text
  | .str s =>
    if maxLength < s.length then some (js "TOO_LONG")
    else if NO_CONTROL s then none
    else some (js "PATTERN_MISMATCH")
  | _ => some (js "TYPE_MISMATCH")

def ID_TEXT : Value → Option Text := validateText 256

def METHOD_TEXT : Value → Option Text := validateText 128

def refusedMethod (message : Record) : Option Refusal :=
  match get message "method" with
  | some method => (METHOD_TEXT method).map fun code => ⟨js "method", code⟩
  | none =>
    if has message "result" || has message "error" then none
    else some ⟨js "message", js "NOT_A_MESSAGE"⟩

def refusedId (message : Record) : Option Refusal :=
  match get message "id" with
  | none => none
  | some .null => none
  | some (.num _) => none
  | some id => (ID_TEXT id).map fun code => ⟨js "id", code⟩

/-- The first refused field of one JSON-RPC 2.0 object, or null. A request, a notification
and a response are all accepted. -/
def refusedEnvelope : Value → Option Refusal
  | .obj message =>
    if isText (get message "jsonrpc") (js "2.0") then
      match refusedMethod message with
      | some refusal => some refusal
      | none => refusedId message
    else some ⟨js "jsonrpc", js "INVALID_VALUE"⟩
  | _ => some ⟨js "message", js "TYPE_MISMATCH"⟩

/-- A refused message is answered with -32600 only when it awaits an answer. -/
def awaitsAnswer : Value → Bool
  | .obj message =>
    if has message "result" || has message "error" then false else has message "id"
  | _ => true

/-- The id a -32600 answer echoes. -/
def answerId : Value → Value
  | .obj message =>
    match get message "id" with
    | some (.str s) => .str s
    | some (.num n) => .num n
    | _ => .null
  | _ => .null

/-- `===` on numbers: the two zeros are the same. -/
def sameNumber : Number → Number → Bool
  | .finite x, .finite y => x.units = y.units && (x.negative = y.negative || x.units = 0)
  | .infinity x, .infinity y => x = y
  | _, _ => false

/-- `===`; no object or array is the same as one that was parsed apart. -/
def sameValue : Value → Value → Bool
  | .null, .null => true
  | .bool a, .bool b => a = b
  | .num a, .num b => sameNumber a b
  | .str a, .str b => a = b
  | _, _ => false

/-- What `JSON.parse(JSON.stringify(value))` makes of a value that is no object and no
array: a number beyond the doubles is written as null. -/
def reread : Value → Value
  | .num n => if isFinite n then .num n else .null
  | value => value

/-- The test in `emit`, on the line read again. -/
def isAnswer (id : Value) (message : Value) : Bool :=
  let out := asRpc message
  match get out "id" with
  | none => false
  | some own =>
    sameValue (reread own) id && !has out "method" && (has out "result" || has out "error")

structure Chunk where
  size : Nat
  /-- What the decoder gives for it. -/
  text : Text

structure Body where
  chunks : List Chunk
  /-- The message of the error that ended the stream, none when it was closed. -/
  broke : Option Text
  /-- What the decoder holds back until the end. -/
  flush : Text

structure Response where
  status : Nat
  contentType : Option Text
  sessionHeader : Option Text
  retryAfter : Option Text
  remaining : Option Text
  /-- The first 4096 bytes of the body as text, empty when they cannot be read. -/
  start : Text
  body : Option Body

def Response.ok (response : Response) : Bool := 200 ≤ response.status && response.status ≤ 299

structure Host where
  /-- `JSON.parse`, none when it throws. -/
  parseJson : Text → Option Value
  /-- The seconds until a date, none when it is none: `Date.parse` against `Date.now`. -/
  secondsUntil : Text → Option Nat

structure Options where
  host : Text
  loginHint : Text

/-- `/rate[\s_-]?limit/i` -/
def RATE_LIMIT_TEXT : Expr :=
  .seq (literal true (js "rate"))
    (.seq (.alt (.one fun u => isSpace u || u = 0x5F || u = 0x2D) .empty)
      (literal true (js "limit")))

def notDigit : Expr := .alt (.one fun u => !isDigit u) .empty

/-- `/retry[\s_-]?after\D{0,3}(\d+)/i` -/
def retryAfterRe : Expr :=
  .seq (literal true (js "retry"))
    (.seq (.alt (.one fun u => isSpace u || u = 0x5F || u = 0x2D) .empty)
      (.seq (literal true (js "after"))
        (.seq notDigit
          (.seq notDigit
            (.seq notDigit (.group 1 (.seq (.one isDigit) (.many true (.one isDigit)))))))))

def retryInBody (body : Text) : Option Text := (exec retryAfterRe body).bind fun m => m.group 1

def retryAfterSeconds (h : Host) (response : Response) : Option Text :=
  match response.retryAfter.map trim with
  | none | some [] => retryInBody response.start
  | some header =>
    if header.all isDigit then some header
    else
      match h.secondsUntil header with
      | some seconds => some (JsText.ofNat seconds)
      | none => retryInBody response.start

structure RateLimit where
  retryAfter : Option Text

/-- 429, or a 401/403 that is really a rate limit. -/
def detectRateLimit (h : Host) (response : Response) : Option RateLimit :=
  if response.status ≠ 429 ∧ response.status ≠ 401 ∧ response.status ≠ 403 then none
  else if response.status = 429 || response.retryAfter.isSome ||
      response.remaining.map trim = some (js "0") || test RATE_LIMIT_TEXT response.start then
    some ⟨retryAfterSeconds h response⟩
  else none

structure Shared where
  sessionId : Option Text
  protocolVersion : Option Text
  initMessage : Option Value
  /-- The re-initialize that runs. -/
  reinitializing : Option Nat
  /-- Each re-initialize so far, with the message it sends. -/
  launched : List (Option Value)
  /-- How a re-initialize ended: with what it threw, if it did. -/
  settled : Nat → Option (Option Text)

def Shared.initial : Shared := ⟨none, none, none, none, [], fun _ => none⟩

structure Sent where
  message : Value
  authorization : Option Text
  sessionId : Option Text
  protocolVersion : Option Text

/-- A line that is written: one of the upstream, or an error of the relay. -/
inductive Line where
  | upstream (message : Value)
  | error (id : Value) (code : Int) (message : Text)

inductive Call where
  | update (f : Shared → Shared)
  | reinitialized (task : Nat)
  | header
  | unauthorized (failedHeader : Option Text)
  | fetch (sent : Sent)
  | write (line : Line)
  | logRefusal (refusal : Refusal)

/-- What a call is answered: an update by the state before it, a failing call by the text
of what it threw; a `fetch` that threw by none. -/
@[reducible] def Answer : Call → Type
  | .update _ => Shared
  | .reinitialized _ => Option Text
  | .header => Except Text (Option Text)
  | .unauthorized _ => Except Text Bool
  | .fetch _ => Option Response
  | .write _ => Unit
  | .logRefusal _ => Unit

abbrev M := Prog Call Answer

def ask (c : Call) : M (Answer c) := Prog.call c

structure Posted where
  response : Option Response
  header : Option Text
  sessionUsed : Option Text
  rateLimit : Option RateLimit

def post (h : Host) (message : Value) (withSession : Bool) : M (Except Text Posted) := do
  match ← ask .header with
  | .error thrown => return .error thrown
  | .ok header =>
    let shared ← ask (.update id)
    let sessionUsed := if withSession then shared.sessionId else none
    let response ← ask (.fetch ⟨message, header, sessionUsed, shared.protocolVersion⟩)
    return .ok ⟨response, header, sessionUsed, response.bind (detectRateLimit h)⟩

def Posted.hasStatus (posted : Posted) (status : Nat) : Bool :=
  posted.response.map Response.status = some status

def postWithAuth (h : Host) (message : Value) (withSession : Bool) : M (Except Text Posted) := do
  match ← post h message withSession with
  | .error thrown => return .error thrown
  | .ok first =>
    if first.rateLimit.isSome || !first.hasStatus 401 then return .ok first
    else
      match ← ask (.unauthorized first.header) with
      | .error thrown => return .error thrown
      | .ok false => return .ok first
      | .ok true => post h message withSession

def includes (needle t : Text) : Bool := t.tails.any fun u => needle.isPrefixOf u

/-- The payloads of an event stream, and the error its reading threw. -/
def readEvents (body : Body) : List Text × Option Text :=
  let pushed := Sse.pushAll Sse.MAX_BODY_BYTES (body.chunks.map Chunk.text) .empty
  match pushed.thrown.orElse fun _ => body.broke with
  | some thrown => (pushed.payloads, some thrown)
  | none =>
    let last := Sse.push Sse.MAX_BODY_BYTES pushed.parser body.flush
    match last.thrown with
    | some thrown => (pushed.payloads ++ last.payloads, some thrown)
    | none =>
      let ended := Sse.finish Sse.MAX_BODY_BYTES last.parser
      (pushed.payloads ++ last.payloads ++ ended.payloads, ended.thrown)

/-- `readBodyPrefix` up to the cap: the text, or the error that is thrown. -/
def readBody (body : Body) : Except Text Text :=
  if Sse.MAX_BODY_BYTES < (body.chunks.map Chunk.size).sum then
    .error (js "response too large")
  else
    match body.broke with
    | some thrown => .error thrown
    | none => .ok ((body.chunks.map Chunk.text).flatten ++ body.flush)

/-- What `consume` hands to `observe`, and the error it throws: each payload of a stream
that is JSON, or the value of a JSON body, an array item by item. -/
def received (h : Host) (response : Response) : List Value × Option Text :=
  match response.body with
  | none => ([], none)
  | some body =>
    if response.status = 202 then ([], none)
    else if includes (js "text/event-stream") (response.contentType.getD []) then
      let (payloads, thrown) := readEvents body
      (payloads.filterMap h.parseJson, thrown)
    else
      match readBody body with
      | .error thrown => ([], some thrown)
      | .ok text =>
        if trim text = [] then ([], none)
        else
          match h.parseJson text with
          | none => ([], none)
          | some (.arr items) => (items, none)
          | some value => ([value], none)

/-- The protocol version that the answer to an initialize names. -/
def observedVersion (message : Value) (initId : Option Value) : Option Text :=
  match initId, get (asRpc message) "id", get (asRpc message) "result" with
  | some initId, some id, some (.obj result) =>
    if sameValue id initId then
      match get result "protocolVersion" with
      | some (.str version) => some version
      | _ => none
    else none
  | _, _, _ => none

/-- `emit` keeps its caller's variable, which is passed along. -/
def observe {β : Type} (emit : β → Value → M β) (initId : Option Value) (message : Value)
    (kept : β) : M β := do
  match observedVersion message initId with
  | some version =>
    let _ ← ask (.update fun s => { s with protocolVersion := some version })
    emit kept message
  | none => emit kept message

def observeAll {β : Type} (emit : β → Value → M β) (initId : Option Value) :
    List Value → β → M β
  | [], kept => return kept
  | message :: rest, kept => do
    let kept ← observe emit initId message kept
    observeAll emit initId rest kept

/-- With what it threw, if it did. -/
def consume {β : Type} (h : Host) (response : Response) (initId : Option Value)
    (emit : β → Value → M β) (kept : β) : M (β × Option Text) := do
  let (messages, thrown) := received h response
  let kept ← observeAll emit initId messages kept
  return (kept, thrown)

/-- `{ jsonrpc: "2.0", method: "notifications/initialized" }` -/
def initialized : Value :=
  .obj [(js "jsonrpc", .str (js "2.0")), (js "method", .str (js "notifications/initialized"))]

def setSession (session : Option Text) (s : Shared) : Shared := { s with sessionId := session }

/-- The body of `reinitialize` for the message it was launched with; what it throws. -/
def reinitialize (h : Host) (initMessage : Option Value) : M (Option Text) := do
  match initMessage with
  | none =>
    let _ ← ask (.update (setSession none))
    return none
  | some message =>
    match ← postWithAuth h message false with
    | .error thrown => return some thrown
    | .ok posted =>
      match posted.response.filter Response.ok with
      | none =>
        let _ ← ask (.update (setSession none))
        return none
      | some response =>
        let _ ← ask (.update (setSession response.sessionHeader))
        let (_, failed) ← consume h response (get (asRpc message) "id") (fun _ _ => pure ()) ()
        match failed with
        | some _ =>
          let _ ← ask (.update (setSession none))
          return none
        | none =>
          match ← postWithAuth h initialized true with
          | .error thrown => return some thrown
          | .ok _ => return none

def settle (task : Nat) (thrown : Option Text) (s : Shared) : Shared :=
  { s with reinitializing := none, settled := Function.update s.settled task (some thrown) }

/-- `reinitialize().finally(() => { reinitializing = undefined; })` -/
def reinitTask (h : Host) (task : Nat) (initMessage : Option Value) : M Unit := do
  let thrown ← reinitialize h initMessage
  let _ ← ask (.update (settle task thrown))
  return ()

/-- `if (sessionUsed === sessionId) reinitializing ??= reinitialize()…` -/
def launch (sessionUsed : Option Text) (s : Shared) : Shared :=
  if s.sessionId = sessionUsed then
    match s.reinitializing with
    | some _ => s
    | none =>
      { s with
        reinitializing := some s.launched.length, launched := s.launched ++ [s.initMessage] }
  else s

/-- `if (reinitializing) await reinitializing` -/
def awaitReinit : Option Nat → M (Option Text)
  | none => return none
  | some task => ask (.reinitialized task)

def writeError (id : Value) (code : Int) (message : Text) : M Unit :=
  ask (.write (.error id code message))

def setInit (isInitialize : Bool) (message : Value) (s : Shared) : Shared :=
  if isInitialize then { s with initMessage := some message } else s

def isInitialize (rpc : Record) : Bool := isText (get rpc "method") (js "initialize")

/-- A 404 for a session: the session is re-initialized and the message posted again. -/
def retryLost (h : Host) (message : Value) (rpc : Record) (posted : Posted) :
    M (Except Text Posted) := do
  if posted.hasStatus 404 && posted.sessionUsed.isSome && !isInitialize rpc then
    let shared ← ask (.update (launch posted.sessionUsed))
    match ← awaitReinit (launch posted.sessionUsed shared).reinitializing with
    | some thrown => return .error thrown
    | none => postWithAuth h message true
  else return .ok posted

def rateLimited (o : Options) (limit : RateLimit) : Text :=
  o.host ++ js " rate limited" ++
    match limit.retryAfter with
    | none | some [] => []
    | some seconds => js "; retry after " ++ seconds ++ js "s"

def captureSession (response : Response) (s : Shared) : Shared :=
  match response.sessionHeader with
  | none | some [] => s
  | some captured => { s with sessionId := some captured }

/-- The answer to the request itself, when it is one. -/
def answerRequest (request : Option Value) (code : Int) (message : Text) : M Unit :=
  match request with
  | none => return ()
  | some id => writeError id code message

/-- What `relay` does with the response of the last post. -/
def relayResponse (h : Host) (o : Options) (rpc : Record) (request : Option Value)
    (emit : Bool → Value → M Bool) (posted : Posted) : M Unit := do
  match posted.response with
  | none => answerRequest request (-32000) (js "upstream unreachable")
  | some response =>
    match posted.rateLimit with
    | some limit => answerRequest request (-32029) (rateLimited o limit)
    | none =>
      if response.status = 401 then
        answerRequest request (-32001)
          (o.host ++ js " MCP authentication required: " ++ o.loginHint)
      else if !response.ok then
        answerRequest request (-32000) (js "upstream HTTP " ++ JsText.ofNat response.status)
      else
        let _ ← ask (.update fun s => if isInitialize rpc then captureSession response s else s)
        let initId := if isInitialize rpc then get rpc "id" else none
        let (answered, failed) ← consume h response initId emit false
        match failed with
        | some _ =>
          if answered then return ()
          else answerRequest request (-32000) (js "upstream unreachable")
        | none =>
          if answered || response.status = 202 then return ()
          else answerRequest request (-32000) (js "upstream closed stream before response")

/-- What it throws, which is before it wrote anything. -/
def relay (h : Host) (o : Options) (message : Value) (rpc : Record) (request : Option Value)
    (emit : Bool → Value → M Bool) : M (Option Text) := do
  let shared ← ask (.update (setInit (isInitialize rpc) message))
  match ← awaitReinit (if isInitialize rpc then none else shared.reinitializing) with
  | some thrown => return some thrown
  | none =>
    match ← postWithAuth h message true with
    | .error thrown => return some thrown
    | .ok first =>
      match ← retryLost h message rpc first with
      | .error thrown => return some thrown
      | .ok posted =>
        relayResponse h o rpc request emit posted
        return none

def refuse (message : Value) (refusal : Refusal) : M Unit := do
  ask (.logRefusal refusal)
  if awaitsAnswer message then writeError (answerId message) (-32600) (js "invalid request")
  else return ()

/-- The id of a request: `isRequest`, with `rpc.id`. -/
def requestOf (rpc : Record) : Option Value :=
  match get rpc "id", get rpc "method" with
  | some .null, _ => none
  | some id, some (.str _) => some id
  | _, _ => none

def emitLine (request : Option Value) (replied : Bool) (message : Value) : M Bool := do
  ask (.write (.upstream message))
  return replied || request.any fun id => isAnswer id message

def forward (h : Host) (o : Options) (message : Value) : M Unit := do
  let rpc := asRpc message
  let request := requestOf rpc
  match ← relay h o message rpc request (emitLine request) with
  | some thrown => answerRequest request (-32603) (js "relay error: " ++ thrown)
  | none => return ()

/-- Each item is judged alone: a refused item is answered, and the valid items are still
forwarded. -/
def judge : List Value → M (List Value)
  | [] => return []
  | item :: rest => do
    match refusedEnvelope item with
    | none =>
      let valid ← judge rest
      return item :: valid
    | some refusal =>
      refuse item refusal
      judge rest

def handle (h : Host) (o : Options) : Value → M Unit
  | .arr [] => refuse (.arr []) ⟨js "batch", js "EMPTY"⟩
  | .arr items => do
    let valid ← judge items
    if valid.isEmpty then return () else forward h o (.arr valid)
  | message =>
    match refusedEnvelope message with
    | some refusal => refuse message refusal
    | none => forward h o message

inductive Name where
  | client (n : Nat)
  | reinit (task : Nat)
  deriving DecidableEq

def answers (s : Shared) : (c : Call) → Answer c → Shared → Prop
  | .update f, before, s' => before = s ∧ s' = f s
  | .reinitialized task, thrown, s' => s.settled task = some thrown ∧ s' = s
  | _, _, s' => s' = s

/-- The client may send any message at any time; a re-initialize runs once launched. -/
def starts (h : Host) (o : Options) (s : Shared) : Name → M Unit → Prop
  | .client _, p => ∃ message, p = handle h o message
  | .reinit task, p => ∃ initMessage, s.launched[task]? = some initMessage ∧
      p = reinitTask h task initMessage

def system (h : Host) (o : Options) :
    Runs.System (Threads.Config Call Answer Unit Shared Name) Name :=
  Threads.Host.system ⟨answers, starts h o⟩ Shared.initial

end Ultrathink.Mcp.Relay
