import Ultrathink.Library.JsonText
import Ultrathink.Source.Engine.CircuitBreaker

/-!
# OpenRouter completions

`createOpenRouterCompleter` of `engine/openrouter.ts`. What the world does in one pass of the loop of
`complete` is a `Turn`; a run answers with what it did, in order, and how the call ended. Nothing that
`attempt` calls outside its `try` blocks throws, so the branch that rethrows is left out.
-/

namespace Ultrathink.Source.Engine.OpenRouter

open Library JsText JsNumber JsonText
open CircuitBreaker (ReleaseOutcome)

inductive OpenRouterErrorCode where
  | auth
  | rateLimited
  | upstream
  | timeout
  | aborted
  | badResponse
  | empty
  | upstreamUnavailable
  deriving DecidableEq

structure OpenRouterError where
  code : OpenRouterErrorCode
  status : Option Nat
  retryAfterMs : Option ℚ
  deriving DecidableEq

/-- Absent when the endpoint did not report a valid count. -/
structure OpenRouterUsage where
  promptTokens : Option Number
  completionTokens : Option Number
  costUsd : Option Number
  deriving DecidableEq

inductive Attempt where
  | ok (text : Text) (usage : OpenRouterUsage)
  | failed (error : OpenRouterError) (retry : Bool) (retryAfterMs : Option ℚ)
  deriving DecidableEq

def failure (code : OpenRouterErrorCode) (status : Option Nat) : Attempt :=
  .failed ⟨code, status, none⟩ false none

def MAX_RETRIES : Nat := 2

def BACKOFF_BASE_MS : ℚ := 500

def BACKOFF_JITTER_MS : ℚ := 250

def MAX_RETRY_AFTER_MS : ℚ := 20000

def MAX_RESPONSE_BYTES : Nat := 4 * 1024 * 1024

/-- `value?.name` -/
def member (name : Text) (value : Option Value) : Option Value :=
  match value with
  | some (.obj members) => Json.field members name
  | _ => none

/-- `value?.[0]` -/
def firstItem (value : Option Value) : Option Value :=
  match value with
  | some (.arr items) => items.head?
  | some (.obj members) => Json.field members (js "0")
  | some (.str s) => s.head?.map fun u => .str [u]
  | _ => none

def partText (part : Value) : Text :=
  match member (js "text") (some part) with
  | some (.str s) => s
  | _ => []

def contentText (content : Option Value) : Option Text :=
  match content with
  | some (.str s) => some s
  | some (.arr parts) => some (parts.flatMap partText)
  | _ => none

def count (value : Option Value) : Option Number :=
  match value with
  | some (.num (.finite x)) => if x.negative = false ∨ x.units = 0 then some (.finite x) else none
  | _ => none

def parseCompletion (raw : Text) : Attempt :=
  match parse raw with
  | none => failure .badResponse none
  | some reply =>
    let content := member (js "content") (member (js "message") (firstItem (member (js "choices") (some reply))))
    let text := match content with
      | some .null => some []
      | _ => contentText content
    match text with
    | none => failure .badResponse none
    | some text =>
      if trim text = [] then failure .empty none
      else
        let usage := member (js "usage") (some reply)
        .ok text ⟨count (member (js "prompt_tokens") usage), count (member (js "completion_tokens") usage),
          count (member (js "cost") usage)⟩

/-- Why a read ended early: the caller aborted, the timer fired, or neither. -/
inductive Interruption where
  | caller
  | timer
  | neither

/-- How the body of a success went: declared too long, broken off, too long, or read as a text. -/
inductive Body where
  | declaredTooLong
  | broken (cause : Interruption)
  | tooLong
  | whole (raw : Text)

/-- What a request met. -/
inductive Exchange where
  | lost (cause : Interruption)
  | answered (status : Nat) (retryAfter : Option Text) (body : Body)

/-- `Date.parse` minus `Date.now()` of a header, when it is a date. -/
abbrev UntilDate := Text → Option ℚ

/-- `^[0-9]+(\.[0-9]+)?$`, as the number it is. -/
def secondsOf (value : Text) : Option ℚ :=
  let whole := value.takeWhile isDigit
  let rest := value.dropWhile isDigit
  if whole = [] then none
  else
    match rest with
    | [] => some (valueOf whole)
    | point :: fraction =>
      if point = 0x2E ∧ fraction ≠ [] ∧ fraction.all isDigit then
        some (valueOf whole + valueOf fraction / 10 ^ fraction.length)
      else none

def parseRetryAfterMs (untilDate : UntilDate) (header : Option Text) : Option ℚ :=
  header.bind fun header =>
    let value := trim header
    let ms := match secondsOf value with
      | some seconds => some (seconds * 1000)
      | none => untilDate value
    ms.map fun ms => min (max ms 0) MAX_RETRY_AFTER_MS

def interrupted : Interruption → Option Attempt
  | .caller => some (failure .aborted none)
  | .timer => some (failure .timeout none)
  | .neither => none

/-- `response.ok` -/
def isOk (status : Nat) : Bool := 200 ≤ status && status ≤ 299

def exchange (untilDate : UntilDate) : Exchange → Attempt
  | .lost cause => (interrupted cause).getD (.failed ⟨.upstream, none, none⟩ true none)
  | .answered status retryAfter body =>
    if isOk status then
      match body with
      | .declaredTooLong => failure .badResponse none
      | .broken cause => (interrupted cause).getD (failure .badResponse none)
      | .tooLong => failure .badResponse none
      | .whole raw => parseCompletion raw
    else if status = 429 then
      .failed ⟨.rateLimited, some status, none⟩ true (parseRetryAfterMs untilDate retryAfter)
    else if 500 ≤ status then
      .failed ⟨.upstream, some status, none⟩ true (parseRetryAfterMs untilDate retryAfter)
    else failure (if status = 401 ∨ status = 403 then .auth else .upstream) (some status)

/-- What one attempt tells the breaker. -/
def releaseOutcome : Attempt → ReleaseOutcome
  | .ok _ _ => .success
  | .failed error _ _ =>
    match error.code with
    | .upstream => .failure
    | .timeout => .failure
    | .rateLimited => .failure
    | _ => .ignored

/-- What `onCall` is told. -/
structure OpenRouterCallInfo where
  outcome : Option OpenRouterErrorCode
  status : Option Nat
  attempts : Nat
  deriving DecidableEq

/-- What a call does that others see, a slot by the attempt it was taken for. -/
inductive Event where
  | acquired (slot : Nat)
  | sent (attempt : Nat)
  | received (status : Nat)
  | released (slot : Nat) (outcome : ReleaseOutcome)
  | usage (usage : OpenRouterUsage)
  | called (info : OpenRouterCallInfo)
  | slept (ms : ℚ)
  deriving DecidableEq

inductive Acquire where
  | granted
  | refused (retryAfterMs : ℚ)

/-- One pass: whether the caller has aborted, what the breaker says when there is one, what the request
meets, whether the breaker is open after the release, and the jitter of the backoff in 0..1. -/
structure Turn where
  aborted : Bool
  acquire : Acquire
  met : Exchange
  opened : Bool
  jitter : ℚ

structure Options where
  breaker : Bool
  untilDate : UntilDate

inductive Step where
  | returned (text : Text)
  | threw (error : OpenRouterError)
  | again
  deriving DecidableEq

def backoffMs (retry : Nat) (jitter : ℚ) : ℚ := BACKOFF_BASE_MS * 2 ^ retry + jitter * BACKOFF_JITTER_MS

def statusSeen : Exchange → List Event
  | .lost _ => []
  | .answered status _ _ => [.received status]

def report (outcome : Option OpenRouterErrorCode) (status : Option Nat) (attempts : Nat) : List Event :=
  [.called ⟨outcome, status, attempts⟩]

/-- One pass of the loop, with the attempts made before it. -/
def pass (o : Options) (t : Turn) (retry attempts : Nat) : List Event × Step :=
  if t.aborted then (report (some .aborted) none attempts, .threw ⟨.aborted, none, none⟩)
  else
    match o.breaker, t.acquire with
    | true, .refused retryAfterMs =>
      (report (some .upstreamUnavailable) none attempts, .threw ⟨.upstreamUnavailable, none, some retryAfterMs⟩)
    | _, _ =>
      let attempts := attempts + 1
      let result := exchange o.untilDate t.met
      let slot := fun event => if o.breaker then [event] else []
      let made := slot (Event.acquired attempts) ++ [.sent attempts] ++ statusSeen t.met ++
        slot (.released attempts (releaseOutcome result))
      match result with
      | .ok text usage => (made ++ [.usage usage] ++ report none none attempts, .returned text)
      | .failed error again retryAfterMs =>
        if again = false ∨ MAX_RETRIES ≤ retry then
          (made ++ report (some error.code) error.status attempts, .threw error)
        else if o.breaker && t.opened then (made, .again)
        else (made ++ [.slept (retryAfterMs.getD (backoffMs retry t.jitter))], .again)

/-- The loop, no longer than `fuel` passes; `turns` says what each pass meets. -/
def loop (o : Options) (turns : Nat → Turn) : Nat → Nat → Nat → Option (List Event × Except OpenRouterError Text)
  | 0, _, _ => none
  | fuel + 1, retry, attempts =>
    match pass o (turns retry) retry attempts with
    | (events, .returned text) => some (events, .ok text)
    | (events, .threw error) => some (events, .error error)
    | (events, .again) =>
      (loop o turns fuel (retry + 1) (attempts + 1)).map fun rest => (events ++ rest.1, rest.2)

/-- `complete(system, user, signal)` once the request body is written. -/
def complete (o : Options) (turns : Nat → Turn) : Option (List Event × Except OpenRouterError Text) :=
  loop o turns (MAX_RETRIES + 1) 0 0

end Ultrathink.Source.Engine.OpenRouter
