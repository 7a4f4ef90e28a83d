import Ultrathink.Source.Service.Mcp

/-!
# What the MCP handler replies to and what it asks of the host

A message is silent (a notification or a response), a well-formed request, or malformed. The
replies stand in the order of the messages.
-/

namespace Ultrathink.Guarantees.McpDiscipline

open List Library JsText Interaction Service.Validate Service.Mcp

inductive Kind where
  | silent
  | request (id : Value) (method : Text) (params : Option Value)
  | malformed

/-- A request has the version 2.0, a method, and a text or an integer as its id; neither is too
long or has a control character. -/
def kindOf : Value → Kind
  | .obj message =>
    if isText (get message "jsonrpc") (js "2.0") then
      match get message "method", get message "id" with
      | some (.str method), some id =>
        if isRequestId id && (refusedEnvelope id method).isNone then
          .request id method (get message "params")
        else .malformed
      | some (.str _), none => .silent
      | none, some _ =>
        if (get message "result").isSome || (get message "error").isSome then .silent else .malformed
      | _, _ => .malformed
    else .malformed
  | _ => .malformed

/-- What a request may ask of the host and log. -/
def MayAsk (method : Text) (params : Option Value) : Call → Prop
  | .capabilities => True
  | .call name arguments =>
    method = js "tools/call" ∧ property params "name" = some (.str name) ∧
    argumentsOf params = .obj arguments ∧
    ∃ planning, ∃ tool ∈ toolDefinitions planning, tool.name = name ∧
      Conforms tool.inputSchema (.obj arguments)
  | .resourceList => method = js "resources/list"
  | .resourceTemplates => method = js "resources/templates/list"
  | .resourceRead uri => method = js "resources/read" ∧ uri = property params "uri"
  | .logValidationFailure _ _ => True
  | .write _ => False

def IsLog : Call → Prop
  | .logValidationFailure _ _ => True
  | _ => False

/-- What is made of a message: its reply, and what was asked for it. -/
def Judged (message : Value) (t : History Call Answer) (handled : Option Handled) : Prop :=
  match kindOf message with
  | .silent => handled = none ∧ t = []
  | .request id method params =>
    (∃ reply, handled = some ⟨reply, none⟩ ∧ reply.id = id) ∧ ∀ e ∈ t, MayAsk method params e.1
  | .malformed => (∃ status, handled = some ⟨invalidRequest, status⟩) ∧ ∀ e ∈ t, IsLog e.1

/-- A result that is the reply to `id`, when it is one. -/
def RepliesTo (id : Value) (reply : Option RpcResponse) : Prop := ∀ r, reply = some r → r.id = id

variable {id message : Value} {t : History Call Answer} {planning : Bool} {handled : Option Handled}

theorem repliesTo_some {reply : RpcResponse} (own : reply.id = id) :
    RepliesTo id (some reply) := by
  rintro _ ⟨⟩
  exact own

theorem repliesTo_none : RepliesTo id none := nofun

variable {method : Text} {params : Option Value} (h : McpToolHost) (c : Content)

theorem ends_serverPlanning : Ends (MayAsk method params) (serverPlanning h) fun _ => True := by
  unfold serverPlanning
  split
  · exact ends_bind (ends_call trivial fun _ => trivial)
  · trivial

theorem ends_resourceAnswer {name : String} {call : M (Option Returned)}
    (may : Ends (MayAsk method params) call fun _ => True) :
    Ends (MayAsk method params) (resourceAnswer h id name call) (RepliesTo id) := by
  unfold resourceAnswer
  split
  · apply ends_bind
    apply may.mono
    intro answer _ reply is
    cases answer with
    | none => cases is
    | some returned =>
      cases is
      rfl
  · exact repliesTo_some rfl

theorem readAnswer_id {read : Returned} : RepliesTo id (readAnswer id read) := by
  unfold readAnswer
  split
  · exact repliesTo_none
  · exact repliesTo_none
  split
  · split <;> exact repliesTo_some rfl
  split <;> exact repliesTo_some rfl

theorem ends_readResource (is : method = js "resources/read") :
    Ends (MayAsk method params) (readResource h id params) (RepliesTo id) := by
  unfold readResource
  dsimp only
  split
  · apply ends_bind
    apply ends_call ⟨is, rfl⟩
    rintro (- | read)
    · exact repliesTo_none
    · exact readAnswer_id
  · split <;> exact repliesTo_some rfl

theorem getPrompt_id : (getPrompt c id params planning).id = id := by
  unfold getPrompt
  dsimp only
  split <;> rfl

theorem findTool_some {name : Option Value} {tool : ToolDefinition}
    (found : findTool planning name = some tool) :
    tool ∈ toolDefinitions planning ∧ name = some (.str tool.name) := by
  unfold findTool at found
  split at found
  · next name =>
    have named := find?_some found
    rw [decide_eq_true_eq] at named
    exact ⟨mem_of_find?_eq_some found, by rw [named]⟩
  · cases found

theorem ends_refusedRequest {refusal : Refusal} {Q : Unit → Prop} (met : Q ()) :
    Ends (MayAsk method params) (refusedRequest refusal) Q := ends_call trivial fun _ => met

theorem ends_callTool (is : method = js "tools/call") :
    Ends (MayAsk method params) (callTool id params planning) (RepliesTo id) := by
  unfold callTool
  dsimp only
  split
  · split
    · exact repliesTo_some rfl
    · exact repliesTo_some rfl
    · exact ends_bind (ends_refusedRequest (repliesTo_some rfl))
  · next tool found =>
    obtain ⟨mem, named⟩ := findTool_some found
    split
    · next arguments given =>
      split
      · exact ends_bind (ends_refusedRequest (repliesTo_some rfl))
      · next accepted =>
        have conforms := (validateNode_none tool.inputSchema _ (.obj arguments)).mp accepted
        apply ends_bind
        apply ends_call ⟨is, named, given, planning, tool, mem, rfl, conforms⟩
        intro outcome reply replied
        obtain ⟨value, -, rfl⟩ := Option.map_eq_some_iff.mp replied
        rfl
    · exact ends_bind (ends_refusedRequest (repliesTo_some rfl))

theorem ends_dispatchTo :
    Ends (MayAsk method params) (dispatchTo h c id method params planning) (RepliesTo id) := by
  unfold dispatchTo
  split
  · exact repliesTo_some rfl
  split
  · exact repliesTo_some rfl
  split
  · exact repliesTo_some rfl
  split
  · next is => exact ends_callTool is
  split
  · exact repliesTo_some rfl
  split
  · exact repliesTo_some (getPrompt_id c)
  split
  · next is => exact ends_resourceAnswer h (ends_call is fun _ => trivial)
  split
  · next is => exact ends_resourceAnswer h (ends_call is fun _ => trivial)
  split
  · next is => exact ends_readResource h is
  · exact repliesTo_some rfl

theorem ends_dispatch :
    Ends (MayAsk method params) (dispatch h c id method params) (RepliesTo id) := by
  unfold dispatch
  apply ends_bind
  apply (ends_serverPlanning h).mono
  rintro (- | planning) -
  · exact repliesTo_none
  · exact ends_dispatchTo h c

/-- A request that passes the envelope checks gets one reply, which bears its id. -/
theorem ends_handleRequest {id : Value} (passed : refusedEnvelope id method = none) :
    Ends (MayAsk method params) (handleRequest h c id method params) fun handled =>
      handled.status = none ∧ handled.reply.id = id := by
  unfold handleRequest
  rw [passed]
  dsimp only
  split
  · exact ⟨rfl, rfl⟩
  split
  · exact ends_bind (ends_refusedRequest ⟨rfl, rfl⟩)
  · apply ends_bind
    apply (ends_dispatch h c).mono
    rintro (- | reply) own
    · exact ⟨rfl, rfl⟩
    · exact ⟨rfl, own reply rfl⟩

theorem identified_judged
    (emits : Emits (if isRequestId id = true then some <$> handleRequest h c id method params
      else .done (some ⟨invalidRequest, some 400⟩)) t (some handled)) :
    match if (isRequestId id && (refusedEnvelope id method).isNone) = true then
        Kind.request id method params else .malformed with
    | .silent => handled = none ∧ t = []
    | .request id method params =>
      (∃ reply, handled = some ⟨reply, none⟩ ∧ reply.id = id) ∧ ∀ e ∈ t, MayAsk method params e.1
    | .malformed => (∃ status, handled = some ⟨invalidRequest, status⟩) ∧ ∀ e ∈ t, IsLog e.1 := by
  cases valid : isRequestId id with
  | false =>
    rw [valid] at emits
    cases emits
    exact ⟨⟨some 400, rfl⟩, by simp⟩
  | true =>
    rw [valid, if_pos rfl] at emits
    obtain ⟨asked, made, _, rfl, requested, ended⟩ := Emits.bind_some emits
    cases ended
    rw [append_nil]
    cases passed : refusedEnvelope id method with
    | none =>
      have ends := @ends_handleRequest method params h c id passed
      obtain ⟨ordinary, own⟩ := ends.result requested
      refine ⟨⟨made.reply, ?_, own⟩, ends.calls requested⟩
      rw [← ordinary]
    | some refusal =>
      have ends : Ends IsLog (handleRequest h c id method params)
          fun handled => handled = ⟨invalidRequest, some 400⟩ := by
        rw [handleRequest, passed]
        exact ends_bind (ends_call trivial fun _ => rfl)
      refine ⟨⟨some 400, ?_⟩, ends.calls requested⟩
      rw [ends.result requested]

theorem handleMessage_judged (emits : Emits (handleMessage h c message) t (some handled)) :
    Judged message t handled := by
  cases message with
  | obj message =>
    rw [handleMessage] at emits
    rw [Judged, kindOf]
    cases version : isText (get message "jsonrpc") (js "2.0") with
    | false =>
      simp only [version, Bool.not_false, if_true] at emits
      cases emits
      exact ⟨⟨none, rfl⟩, by simp⟩
    | true =>
      simp only [version, Bool.not_true, Bool.false_eq_true, if_false] at emits
      rw [if_pos rfl]
      cases method : get message "method" with
      | none =>
        cases identified : get message "id" with
        | none =>
          simp only [method, identified, Option.isSome_none, Bool.false_and] at emits
          cases emits
          exact ⟨⟨none, rfl⟩, by simp⟩
        | some id =>
          simp only [method, identified, Option.isSome_some, Bool.true_and] at emits
          dsimp only
          split at emits
          · next answered =>
            cases emits
            rw [if_pos answered]
            exact ⟨rfl, rfl⟩
          · next unanswered =>
            cases emits
            rw [if_neg unanswered]
            exact ⟨⟨none, rfl⟩, by simp⟩
      | some given =>
        cases given with
        | str given =>
          cases identified : get message "id" with
          | none =>
            simp only [method, identified] at emits
            cases emits
            exact ⟨rfl, rfl⟩
          | some id =>
            simp only [method, identified] at emits
            dsimp only
            exact identified_judged h c emits
        | _ =>
          simp only [method] at emits
          cases emits
          exact ⟨⟨none, rfl⟩, by simp⟩
  | _ =>
    cases emits
    exact ⟨⟨none, rfl⟩, by simp⟩

/-- A message with what was asked for it and what was made of it. -/
abbrev Part := History Call Answer × Option Handled

def asked (parts : List Part) : History Call Answer := (parts.map Prod.fst).flatten

def replies (parts : List Part) : List RpcResponse :=
  parts.filterMap fun part => part.2.map Handled.reply

theorem handleBatch_judged (messages : List Value) {made : List RpcResponse × Option Nat}
    (emits : Emits (handleBatch h c messages) t (some made)) :
    ∃ parts : List Part, List.Forall₂ (fun message part => Judged message part.1 part.2) messages parts ∧
      t = asked parts ∧ made.1 = replies parts := by
  induction messages generalizing t made with
  | nil =>
    cases emits
    exact ⟨[], .nil, rfl, rfl⟩
  | cons message rest ih =>
    rw [handleBatch] at emits
    obtain ⟨first, handled, later, rfl, head, tail⟩ := Emits.bind_some emits
    obtain ⟨others, made', last, rfl, batch, ended⟩ := Emits.bind_some tail
    obtain ⟨parts, judged, rfl, made_⟩ := ih batch
    refine ⟨(first, handled) :: parts, .cons (handleMessage_judged h c head) judged, ?_, ?_⟩
    · cases handled <;> cases ended <;> simp [asked]
    · cases handled with
      | none =>
        cases ended
        simpa [replies] using made_
      | some handled =>
        cases ended
        simpa [replies] using made_

/-- A batch that is refused whole: forbidden by the version, empty or too long. -/
def Refused (messages : List Value) (protocolVersion : Option Text) : Prop :=
  le BATCH_REMOVED_IN (protocolVersion.getD DEFAULT_PROTOCOL_VERSION) = true ∨ messages = [] ∨
    MAX_BATCH_MESSAGES < messages.length

/-- The id that the reply to a message bears, none for a silent one. -/
def replyId (message : Value) : Option Value :=
  match kindOf message with
  | .silent => none
  | .request id _ _ => some id
  | .malformed => some .null

theorem Judged.replyId (judged : Judged message t handled) :
    handled.map (·.reply.id) = replyId message := by
  unfold Judged at judged
  unfold McpDiscipline.replyId
  split at judged
  · rw [judged.1]
    rfl
  · obtain ⟨⟨reply, rfl, own⟩, -⟩ := judged
    exact congrArg some own
  · obtain ⟨⟨status, rfl⟩, -⟩ := judged
    rfl

variable {messages : List Value} {protocolVersion : Option Text} {reply : Option McpReply}

theorem replies_ids {parts : List Part}
    (judged : List.Forall₂ (fun message part => Judged message part.1 part.2) messages parts) :
    (replies parts).map RpcResponse.id = messages.filterMap replyId := by
  induction judged with
  | nil => rfl
  | cons head tail ih =>
    rename_i message part messages parts
    have own := Judged.replyId head
    cases handled : part.2 with
    | none =>
      rw [handled] at own
      rw [filterMap_cons_none own.symm, ← ih]
      simp [replies, handled]
    | some handled' =>
      rw [handled] at own
      rw [filterMap_cons_some own.symm, ← ih]
      simp [replies, handled]

def Disciplined (payload : Value) (protocolVersion : Option Text) (t : History Call Answer)
    (reply : Option McpReply) : Prop :=
  match payload with
  | .arr messages =>
    (Refused messages protocolVersion →
      t = [] ∧ ∃ status, reply = some ⟨.single invalidRequest, status⟩) ∧
    (¬ Refused messages protocolVersion →
      ∃ parts : List Part, List.Forall₂ (fun message part => Judged message part.1 part.2) messages parts ∧
        t = asked parts ∧
        ((∀ message ∈ messages, replyId message = none) → reply = none) ∧
        ((∃ message ∈ messages, replyId message ≠ none) → ∃ made status,
          reply = some ⟨.batch made, status⟩ ∧ made = replies parts ∧
          made.map RpcResponse.id = messages.filterMap replyId))
  | message =>
    ∃ handled, Judged message t handled ∧
      reply = handled.map fun handled => ⟨.single handled.reply, handled.status⟩

theorem batch_disciplined
    (emits : Emits (handleMcpPayload h c (.arr messages) protocolVersion) t (some reply)) :
    Disciplined (.arr messages) protocolVersion t reply := by
  rw [handleMcpPayload] at emits
  split at emits
  · next forbidden =>
    cases emits
    exact ⟨fun _ => ⟨rfl, some 400, rfl⟩, fun accepted => absurd (.inl forbidden) accepted⟩
  · next allowed =>
    split at emits
    · next empty =>
      cases emits
      exact ⟨fun _ => ⟨rfl, none, rfl⟩, fun accepted => absurd (.inr (.inl empty)) accepted⟩
    · next some_ =>
      split at emits
      · next long =>
        cases emits
        exact ⟨fun _ => ⟨rfl, some 400, rfl⟩, fun accepted => absurd (.inr (.inr long)) accepted⟩
      · next short =>
        obtain ⟨first, ⟨made, status⟩, later, rfl, batch, ended⟩ := Emits.bind_some emits
        obtain ⟨parts, judged, rfl, rfl⟩ := handleBatch_judged h c messages batch
        have ids := replies_ids judged
        refine ⟨?_, fun _ => ⟨parts, judged, ?_, ?_, ?_⟩⟩
        · rintro (forbidden | empty | long)
          · exact absurd forbidden allowed
          · exact absurd empty some_
          · exact absurd long short
        · cases made : replies parts with
          | nil =>
            simp only [made] at ended
            cases ended
            exact append_nil _
          | cons reply more =>
            simp only [made] at ended
            cases ended
            exact append_nil _
        · intro silent
          have nothing : messages.filterMap replyId = [] := by
            rw [filterMap_eq_nil_iff]
            exact silent
          rw [nothing, map_eq_nil_iff] at ids
          simp only [ids] at ended
          cases ended
          rfl
        · rintro ⟨message, mem, answered⟩
          refine ⟨replies parts, status, ?_, rfl, ids⟩
          cases made : replies parts with
          | nil =>
            rw [made] at ids
            exact absurd (filterMap_eq_nil_iff.mp ids.symm message mem) answered
          | cons reply more =>
            simp only [made] at ended
            cases ended
            rfl

theorem single_disciplined (single : ∀ messages, message ≠ .arr messages)
    (emits : Emits (handleMcpPayload h c message protocolVersion) t (some reply)) :
    ∃ handled, Judged message t handled ∧
      reply = handled.map fun handled => ⟨.single handled.reply, handled.status⟩ := by
  have handles : handleMcpPayload h c message protocolVersion =
      (do
        let handled ← handleMessage h c message
        return handled.map fun handled => ⟨.single handled.reply, handled.status⟩) := by
    cases message with
    | arr messages => exact absurd rfl (single messages)
    | _ => rfl
  rw [handles] at emits
  obtain ⟨first, handled, later, rfl, head, ended⟩ := Emits.bind_some emits
  cases ended
  rw [append_nil]
  exact ⟨handled, handleMessage_judged h c head, rfl⟩

/-- Whatever the host answers or throws, every payload is handled in this way. -/
theorem payload_disciplined {payload : Value} {protocolVersion : Option Text} {t : History Call Answer}
    {reply : Option McpReply}
    (emits : Emits (handleMcpPayload h c payload protocolVersion) t (some reply)) :
    Disciplined payload protocolVersion t reply := by
  cases payload with
  | arr messages => exact batch_disciplined h c emits
  | _ => exact single_disciplined h c (by simp) emits

def ping : Value :=
  .obj [(js "jsonrpc", .str (js "2.0")), (js "id", .str (js "a")), (js "method", .str (js "ping"))]

/-- A tool call without the session it needs. -/
def badCall : Value :=
  .obj [(js "jsonrpc", .str (js "2.0")), (js "id", .str (js "a")), (js "method", .str (js "tools/call")),
    (js "params", .obj [(js "name", .str (js "ultrathink_status"))])]

def plain : Content := ⟨[], fun _ => [], fun _ => .arr [], fun _ => .arr [], fun _ _ _ => .error []⟩

def undefinedAnswer : (call : Call) → Answer call
  | .capabilities => some ⟨some (.obj []), true⟩
  | .call _ _ => some ⟨none, true⟩
  | .resourceList => none
  | .resourceTemplates => none
  | .resourceRead _ => none
  | .logValidationFailure _ _ => ()
  | .write _ => ()

/-- Nine pings in one batch get one refusal with the id null, and the host is asked for its
capabilities before the arguments of a tool call are refused. -/
theorem batch_unanswered_and_asked :
    kindOf ping = .request (.str (js "a")) (js "ping") none ∧
    handleMcpPayload ⟨true, true⟩ plain (.arr (List.replicate 9 ping)) none =
      .done (some ⟨.single invalidRequest, some 400⟩) ∧
    ∃ e ∈ (respond undefinedAnswer (handleMcpPayload ⟨true, true⟩ plain badCall none)).1,
      e.1 = .capabilities := by
  refine ⟨rfl, rfl, ?_⟩
  exact ⟨⟨.capabilities, some ⟨some (.obj []), true⟩⟩, mem_cons_self, rfl⟩

theorem payload_disciplined_ping :
    Disciplined ping none [⟨.capabilities, some ⟨some (.obj []), true⟩⟩]
      (some ⟨.single (.result (.str (js "a")) (.obj [])), none⟩) := by
  apply payload_disciplined ⟨true, true⟩ plain
  exact emits_respond undefinedAnswer (handleMcpPayload ⟨true, true⟩ plain ping none)

end Ultrathink.Guarantees.McpDiscipline
