import Ultrathink.Source.Mcp.RelayThreads

/-!
# What the relay answers

The answers that a client gets for one message, over every run of the relay: any other
messages beside it, any turns the threads take, any outcome of the upstream. The relay
passes on what the upstream gave and adds an answer of its own to a request only when the
upstream gave none.
-/

namespace Ultrathink.Mcp.Relay

open List Library JsText JsNumber Interaction Threads

/-- The lines written, what the upstream gave in a successful response, and whether it
took the message with a 202. -/
structure Exchange where
  lines : List Line
  given : List Value
  accepted : Bool

namespace Exchange

def empty : Exchange := ⟨[], [], false⟩

def write (x : Exchange) (line : Line) : Exchange := { x with lines := x.lines ++ [line] }

def answered (x : Exchange) (h : Host) (response : Option Response) : Exchange :=
  match response with
  | none => x
  | some response =>
    if response.ok then
      { x with
        given := x.given ++ (received h response).1
        accepted := x.accepted || response.status = 202 }
    else x

def see (h : Host) (x : Exchange) : Event Call Answer → Exchange
  | ⟨.write line, _⟩ => x.write line
  | ⟨.fetch _, response⟩ => x.answered h response
  | _ => x

end Exchange

def exchange (h : Host) (t : History Call Answer) : Exchange := t.foldl (Exchange.see h) .empty

namespace Line

def upstream? : Line → Option Value
  | .upstream message => some message
  | .error .. => none

def isError : Line → Bool
  | .upstream _ => false
  | .error .. => true

/-- The line answers the request `id`. -/
def answers (id : Value) : Line → Bool
  | .upstream message => isAnswer id message
  | .error own _ _ => sameValue (reread own) id

end Line

def Exchange.own (x : Exchange) : List Line := x.lines.filter Line.isError

def givenFor (id : Value) (x : Exchange) : Bool := x.given.any (isAnswer id)

/-- The answers to refused items, in order. -/
def refusalLines (items : List Value) : List Line :=
  items.filterMap fun item =>
    if (refusedEnvelope item).isSome && awaitsAnswer item then
      some (.error (answerId item) (-32600) (js "invalid request"))
    else none

/-- The id of a message that is forwarded as a request. -/
def requestId (message : Value) : Option Value :=
  match refusedEnvelope message with
  | none => requestOf (asRpc message)
  | some _ => none

/-- JSON text brings the id back: a string or a finite number. -/
def carried : Value → Bool
  | .str _ => true
  | .num n => isFinite n
  | _ => false

/-- What a client gets for a message. An upstream payload that is itself an array counts
for no request here, so the requests are spoken of where there is none. -/
structure Answered (message : Value) (x : Exchange) : Prop where
  passed : x.lines.filterMap Line.upstream? = x.given
  request : ∀ id, requestId message = some id → (∀ v ∈ x.given, isArray v = false) →
    if givenFor id x || x.accepted then x.own = []
    else ∃ code text, x.own = [.error id code text]
  count : ∀ id, requestId message = some id → carried id = true →
    (∀ v ∈ x.given, isArray v = false) →
    x.lines.countP (Line.answers id) =
      if givenFor id x then x.given.countP (isAnswer id) else if x.accepted then 0 else 1
  silent : isArray message = false → refusedEnvelope message = none → requestId message = none →
    x.own = []
  refused : isArray message = false → refusedEnvelope message ≠ none →
    x.lines = refusalLines [message]
  emptyBatch : message = .arr [] → x.lines = [.error .null (-32600) (js "invalid request")]
  batch : ∀ items, message = .arr items → items ≠ [] →
    ∃ rest, x.own = refusalLines items ++ rest ∧
      ∀ id, givenFor id x = true → ∀ line ∈ rest, line.answers id = false

variable {x y : Exchange} {message : Value} {request : Option Value} {items : List Value}
  {Q : Exchange → Except Text Posted → Prop}

variable {response : Option Response} {withSession : Bool} {rpc : Record} {refusal : Refusal}

section Rules
variable {h : Host} {o : Options}

/-- However the calls of `p` are answered after `x`, its result meets `Q`. -/
abbrev Ends {α : Type} (h : Host) (p : M α) (x : Exchange) (Q : Exchange → α → Prop) : Prop :=
  wp (Exchange.see h) (fun _ _ => True) p x Q

end Rules

variable {h : Host} {o : Options}

/-- Some run handles the message to its end with this history. -/
def Handled (h : Host) (o : Options) (message : Value) (t : History Call Answer) : Prop :=
  ∃ c n, (system h o).Reachable c ∧
    c.threads (.client n) = some ⟨handle h o message, t, .done ()⟩

section Example

/-- `{ jsonrpc: "2.0", id, method: "ping" }` -/
def ping (id : Value) : Value :=
  .obj [(js "jsonrpc", .str (js "2.0")), (js "id", id), (js "method", .str (js "ping"))]

def idA : Value := .str (js "a")

/-- `{ jsonrpc: "2.0", id: "a", result: null }` -/
def pong : Value := .obj [(js "jsonrpc", .str (js "2.0")), (js "id", idA), (js "result", .null)]

def pongText : Text := js "\x7b\"jsonrpc\":\"2.0\",\"id\":\"a\",\"result\":null\x7d"

def twoPongsText : Text := js "[" ++ pongText ++ js "," ++ pongText ++ js "]"

/-- Reads the two texts as `JSON.parse` does. -/
def exampleHost : Host where
  parseJson text :=
    if text = pongText then some pong
    else if text = twoPongsText then some (.arr [pong, pong])
    else none
  secondsUntil _ := none

/-- The number of answers to `id` that a handler wrote. -/
def answersTo (id : Value) (t : History Call Answer) : Nat :=
  (exchange exampleHost t).lines.countP (Line.answers id)

end Example

end Ultrathink.Mcp.Relay
