import Ultrathink.Library.Interaction
import Ultrathink.Source.Service.Validate

/-!
# The MCP handler of the service (`services/ultrathink/mcp/mcp.ts`)

`handleMcpPayload` and what it calls, as a program over the methods of the host and the
security log. A method of the host may throw (or its promise reject), which is the answer
none, or return any value. What the code does with it stands in the `try` of
`handleMessage`, so a program of `dispatch` ends in none where the source throws. The texts of
the tool and prompt lists and the rendering of prompts are given by a `Content`.
-/

namespace Ultrathink.Service.Mcp

open Library JsText JsonWrite Interaction Service.Validate
open Library.JsNumber (Number ofDecimal toInt?)

def leaf (keywords : Keywords) : Node := .mk keywords none (.inl true) none

def textNode : Node := leaf { types := some [.string] }

def choiceNode (values : List String) : Node :=
  leaf { types := some [.string], enumValues := some (values.map fun value => .str (js value)) }

def boundedNode (minimum maximum : Nat) : Node :=
  leaf { types := some [.integer], minimum := some (JsNumber.ofNat minimum), maximum := some (JsNumber.ofNat maximum) }

/-- An object without further keys. -/
def objectNode (properties : List (String × Node)) (required : Option (List String)) : Node :=
  .mk { types := some [.object], required := required.map (·.map js) }
    (some (properties.map fun p => (js p.1, p.2))) (.inl false) none

structure ToolDefinition where
  name : Text
  inputSchema : Node

def UPLIFT_TOOL : Text := js "ultrathink_uplift"

def MAX_ARGUMENT_CHARS : Nat := 20000

def CONNECTOR_TOOL_DEFINITIONS : List ToolDefinition := [
  ⟨js "ultrathink_graph",
    objectNode [("sessionId", textNode), ("node", textNode), ("detail", choiceNode ["brief", "full"])] none⟩,
  ⟨js "ultrathink_sessions", objectNode [("limit", boundedNode 1 20)] none⟩,
  ⟨js "ultrathink_command",
    objectNode [("command", leaf { types := some [.string], maxLength := some 100 }),
      ("args", leaf { types := some [.string], maxLength := some MAX_ARGUMENT_CHARS })]
      (some ["command"])⟩]

def TOOL_DEFINITIONS : List ToolDefinition := [
  ⟨UPLIFT_TOOL, objectNode [("prompt", textNode), ("sessionId", textNode)] (some ["prompt"])⟩,
  ⟨js "ultrathink_plan", objectNode [("prompt", textNode), ("sessionId", textNode)] (some ["prompt"])⟩,
  ⟨js "ultrathink_pending", objectNode [("sessionId", textNode)] (some ["sessionId"])⟩,
  ⟨js "ultrathink_show",
    objectNode [("sessionId", textNode), ("key", textNode), ("part", choiceNode ["system", "user"])]
      (some ["sessionId", "key"])⟩,
  ⟨js "ultrathink_answer",
    objectNode [("sessionId", textNode), ("key", textNode), ("answer", textNode)]
      (some ["sessionId", "key", "answer"])⟩,
  ⟨js "ultrathink_status", objectNode [("sessionId", textNode)] (some ["sessionId"])⟩,
  ⟨js "ultrathink_result",
    objectNode [("sessionId", textNode), ("waitSeconds", boundedNode 0 45),
      ("detail", choiceNode ["brief", "full"])] (some ["sessionId"])⟩] ++ CONNECTOR_TOOL_DEFINITIONS

/-- The tools a host serves: `ultrathink_uplift` exists only when the host plans on the server. -/
def toolDefinitions (serverPlanning : Bool) : List ToolDefinition :=
  if serverPlanning then TOOL_DEFINITIONS
  else TOOL_DEFINITIONS.filter fun tool => tool.name ≠ UPLIFT_TOOL

/-- What `initialize`, the lists and `prompts/get` answer, as far as it is text of the service. -/
structure Content where
  version : Text
  instructions (serverPlanning : Bool) : Text
  toolList (serverPlanning : Bool) : Value
  promptDefinitions (serverPlanning : Bool) : Value
  /-- The message of a refusal, or the description and the messages. -/
  renderPrompt (name : Option Value) (arguments : Record) (serverPlanning : Bool) : Except Text (Text × Value)

/-- What a method returned: undefined is none. `JSON.stringify` throws on some values, as a
cycle or a big integer. -/
structure Returned where
  value : Option Value
  stringifies : Bool

inductive Call where
  | capabilities
  | call (name : Text) (arguments : Record)
  | resourceList
  | resourceTemplates
  | resourceRead (uri : Option Value)
  /-- `logValidationFailure` of the source `mcp` and the resource `mcp`. -/
  | logValidationFailure (field code : Text)
  /-- `write` of the stdio transport. -/
  | write (line : Text)

@[reducible] def Answer : Call → Type
  | .logValidationFailure _ _ => Unit
  | .write _ => Unit
  | _ => Option Returned

abbrev M := Prog Call Answer

def ask (c : Call) : M (Answer c) := Prog.call c

/-- The methods that a host may leave out. -/
structure McpToolHost where
  capabilities : Bool
  resources : Bool

inductive RpcResponse where
  | result (id : Value) (value : Value)
  /-- The code is `-code`. -/
  | error (id : Value) (code : Nat) (message : Text)

def RpcResponse.id : RpcResponse → Value
  | result id _ => id
  | error id _ _ => id

def errorValue (id : Value) (code : Nat) (message : Text) : Value :=
  .obj [(js "jsonrpc", .str (js "2.0")), (js "id", id),
    (js "error", .obj [(js "code", .num (ofDecimal true code 0)), (js "message", .str message)])]

def RpcResponse.value : RpcResponse → Value
  | result id value => .obj [(js "jsonrpc", .str (js "2.0")), (js "id", id), (js "result", value)]
  | error id code message => errorValue id code message

inductive Body where
  | single (reply : RpcResponse)
  | batch (replies : List RpcResponse)

def Body.value : Body → Value
  | .single reply => reply.value
  | .batch replies => .arr (replies.map RpcResponse.value)

structure McpReply where
  body : Body
  status : Option Nat

/-- One message's reply. -/
structure Handled where
  reply : RpcResponse
  status : Option Nat

def INVALID_REQUEST : Nat := 32600

def METHOD_NOT_FOUND : Nat := 32601

def INVALID_PARAMS : Nat := 32602

def RESOURCE_NOT_FOUND : Nat := 32002

def INTERNAL_ERROR : Nat := 32603

def invalidRequest : RpcResponse := .error .null INVALID_REQUEST (js "invalid request")

def get (record : Record) (name : String) : Option Value := Json.field record (js name)

/-- `isRecord(value) ? value[name] : undefined` -/
def property (value : Option Value) (name : String) : Option Value :=
  match value with
  | some (.obj fields) => get fields name
  | _ => none

def isTruthy : Option Value → Bool
  | none => false
  | some .null => false
  | some (.bool b) => b
  | some (.num n) => n ≠ .nan && !(atMost n (JsNumber.ofNat 0) && atMost (JsNumber.ofNat 0) n)
  | some (.str s) => s ≠ []
  | some _ => true

def isText (value : Option Value) (t : Text) : Bool :=
  match value with
  | some (.str s) => s = t
  | _ => false

/-- `new StringValidator({ allowEmpty: true, maxLength, pattern: NO_CONTROL })` on a string: the
code of the failure. -/
def validateText (maxLength : Nat) (s : Text) : Option Text :=
  if maxLength < s.length then some (js "TOO_LONG")
  else if s.all fun u => 0x1F < u && u ≠ 0x7F then none
  else some (js "PATTERN_MISMATCH")

structure Refusal where
  field : Text
  code : Text

def refusedId : Value → Option Refusal
  | .str s => (validateText 256 s).map fun code => ⟨js "id", code⟩
  | _ => none

def refusedEnvelope (id : Value) (method : Text) : Option Refusal :=
  (refusedId id).or ((validateText 128 method).map fun code => ⟨js "method", code⟩)

def refusedRequest (refusal : Refusal) : M Unit :=
  ask (.logValidationFailure refusal.field refusal.code)

/-- `TEXT_PARAMS`: the text parameter each method reads, with its bound. -/
def textParam (method : Text) : Option (String × Nat) :=
  if method = js "initialize" then some ("protocolVersion", 64)
  else if method = js "tools/call" ∨ method = js "prompts/get" then some ("name", 128)
  else if method = js "resources/read" then some ("uri", 2048)
  else none

def refusedParams (method : Text) (params : Option Value) : Option Refusal :=
  (textParam method).bind fun spec =>
    match property params spec.1 with
    | some (.str s) => (validateText spec.2 s).map fun code => ⟨js spec.1, code⟩
    | _ => none

/-- `capabilities().serverPlanning === true`: reading it throws on undefined and null. -/
def serverPlanningOf (returned : Returned) : Option Bool :=
  match returned.value with
  | none => none
  | some .null => none
  | some value =>
    match property (some value) "serverPlanning" with
    | some (.bool b) => some b
    | _ => some false

def serverPlanning (h : McpToolHost) : M (Option Bool) := do
  if h.capabilities then
    let answer ← ask .capabilities
    return answer.bind serverPlanningOf
  else return some false

def SUPPORTED_PROTOCOL_VERSIONS : List Text := ["2025-11-25", "2025-06-18", "2025-03-26"].map js

def initializeResult (c : Content) (params : Option Value) (serverPlanning : Bool) : Value :=
  let requested := property params "protocolVersion"
  let version := (SUPPORTED_PROTOCOL_VERSIONS.find? fun version => isText requested version).getD
    (js "2025-11-25")
  .obj [(js "protocolVersion", .str version),
    (js "capabilities", .obj [(js "tools", .obj []), (js "prompts", .obj []), (js "resources", .obj []),
      (js "extensions", .obj [(js "io.modelcontextprotocol/ui", .obj [])])]),
    (js "serverInfo", .obj [(js "name", .str (js "ultrathink")), (js "version", .str c.version)]),
    (js "instructions", .str (c.instructions serverPlanning))]

/-- `value ?? []` -/
def orEmpty : Option Value → Value
  | none => .arr []
  | some .null => .arr []
  | some value => value

/-- A list of the resources under `name`. -/
def resourceAnswer (h : McpToolHost) (id : Value) (name : String) (answer : M (Option Returned)) :
    M (Option RpcResponse) := do
  if h.resources then
    let answer ← answer
    return answer.map fun returned => .result id (.obj [(js name, orEmpty returned.value)])
  else return some (.result id (.obj [(js name, .arr [])]))

def notFound (id : Value) : RpcResponse := .error id RESOURCE_NOT_FOUND (js "resource not found")

def invalidUri (id : Value) : RpcResponse :=
  .error id INVALID_PARAMS (js "invalid params: uri must be a ui:// uri")

/-- `read.ok` and what follows; reading it throws on undefined and null. -/
def readAnswer (id : Value) (read : Returned) : Option RpcResponse :=
  match read.value with
  | none => none
  | some .null => none
  | some value =>
    if isTruthy (property (some value) "ok") then
      match property (some value) "contents" with
      | some contents => some (.result id (.obj [(js "contents", contents)]))
      | none => some (.result id (.obj []))
    else if isText (property (some value) "code") (js "not_found") then some (notFound id)
    else some (invalidUri id)

def readResource (h : McpToolHost) (id : Value) (params : Option Value) : M (Option RpcResponse) := do
  let uri := property params "uri"
  if h.resources then
    let answer ← ask (.resourceRead uri)
    return answer.bind (readAnswer id)
  else
    match uri with
    | some (.str _) => return some (notFound id)
    | _ => return some (invalidUri id)

def getPrompt (c : Content) (id : Value) (params : Option Value) (serverPlanning : Bool) : RpcResponse :=
  let arguments := match property params "arguments" with
    | some (.obj fields) => fields
    | _ => []
  match c.renderPrompt (property params "name") arguments serverPlanning with
  | .error message => .error id INVALID_PARAMS message
  | .ok (description, messages) =>
    .result id (.obj [(js "description", .str description), (js "messages", messages)])

def textContent (text : Text) : Value :=
  .arr [.obj [(js "type", .str (js "text")), (js "text", .str text)]]

def toolValue (text : Text) (structured : Value) (isError : Bool) : Value :=
  .obj [(js "content", textContent text), (js "structuredContent", structured),
    (js "isError", .bool isError)]

/-- The strings, when every item is one. -/
def stringArray (items : List Value) : Option (List Text) :=
  items.mapM fun item => match item with
    | .str s => some s
    | _ => none

/-- `{ ok: false, code, errors }` -/
def refusalValue (code : Text) (errors : Option (List Text)) : Value :=
  let detail := match errors with
    | some (first :: rest) => js " (" ++ join (js "; ") (first :: rest) ++ js ")"
    | _ => []
  toolValue (js "request refused: " ++ code ++ detail)
    (.obj ((js "error", .str code) ::
      (errors.map fun texts => (js "errors", .arr (texts.map .str))).toList)) true

/-- None where it throws, on a malformed outcome. -/
def toolResult (outcome : Returned) : Option Value :=
  match outcome.value with
  | some (.obj fields) =>
    match get fields "ok" with
    | some (.bool true) =>
      match get fields "data", get fields "text" with
      | some (.obj data), some (.str text) => some (toolValue text (.obj data) false)
      | some (.obj data), none =>
        if outcome.stringifies then some (toolValue (stringify (.obj data)) (.obj data) false) else none
      | _, _ => none
    | some (.bool false) =>
      match get fields "code", get fields "errors" with
      | some (.str code), none => some (refusalValue code none)
      | some (.str code), some (.arr items) =>
        (stringArray items).map fun texts => refusalValue code (some texts)
      | _, _ => none
    | _ => none
  | _ => none

def findTool (serverPlanning : Bool) : Option Value → Option ToolDefinition
  | some (.str name) => (toolDefinitions serverPlanning).find? fun tool => tool.name = name
  | _ => none

/-- `isRecord(params) && "arguments" in params ? params.arguments : {}` -/
def argumentsOf (params : Option Value) : Value := (property params "arguments").getD (.obj [])

def callTool (id : Value) (params : Option Value) (serverPlanning : Bool) : M (Option RpcResponse) := do
  let name := property params "name"
  match findTool serverPlanning name with
  | none =>
    match name with
    | none => return some (.error id INVALID_PARAMS (js "unknown tool"))
    | some (.str _) => return some (.error id INVALID_PARAMS (js "unknown tool"))
    | some _ =>
      refusedRequest ⟨js "name", js "TYPE_MISMATCH"⟩
      return some (.error id INVALID_PARAMS (js "unknown tool"))
  | some tool =>
    match argumentsOf params with
    | .obj arguments =>
      match validate tool.inputSchema (.obj arguments) with
      | some failure =>
        refusedRequest ⟨js "arguments", js "INVALID_ARGUMENTS"⟩
        return some (.result id
          (refusalValue (js "invalid_arguments") (some [failure.path ++ js ": " ++ failure.reason])))
      | none =>
        let outcome ← ask (.call tool.name arguments)
        return (outcome.bind toolResult).map (.result id)
    | _ =>
      refusedRequest ⟨js "arguments", js "TYPE_MISMATCH"⟩
      return some (.result id
        (toolValue (js "invalid arguments") (.obj [(js "error", .str (js "invalid_arguments"))]) true))

def dispatchTo (h : McpToolHost) (c : Content) (id : Value) (method : Text) (params : Option Value)
    (serverPlanning : Bool) : M (Option RpcResponse) :=
  if method = js "initialize" then .done (some (.result id (initializeResult c params serverPlanning)))
  else if method = js "ping" then .done (some (.result id (.obj [])))
  else if method = js "tools/list" then
    .done (some (.result id (.obj [(js "tools", c.toolList serverPlanning)])))
  else if method = js "tools/call" then callTool id params serverPlanning
  else if method = js "prompts/list" then
    .done (some (.result id (.obj [(js "prompts", c.promptDefinitions serverPlanning)])))
  else if method = js "prompts/get" then .done (some (getPrompt c id params serverPlanning))
  else if method = js "resources/list" then resourceAnswer h id "resources" (ask .resourceList)
  else if method = js "resources/templates/list" then
    resourceAnswer h id "resourceTemplates" (ask .resourceTemplates)
  else if method = js "resources/read" then readResource h id params
  else .done (some (.error id METHOD_NOT_FOUND (js "method not found")))

/-- None where it throws. -/
def dispatch (h : McpToolHost) (c : Content) (id : Value) (method : Text) (params : Option Value) :
    M (Option RpcResponse) := do
  match ← serverPlanning h with
  | none => return none
  | some planning => dispatchTo h c id method params planning

/-- `typeof id === "string" || Number.isInteger(id)` -/
def isRequestId : Value → Bool
  | .str _ => true
  | .num n => (toInt? n).isSome
  | _ => false

/-- A message with a method and an id of a request. -/
def handleRequest (h : McpToolHost) (c : Content) (id : Value) (method : Text) (params : Option Value) :
    M Handled := do
  match refusedEnvelope id method with
  | some refusal =>
    refusedRequest refusal
    return ⟨invalidRequest, some 400⟩
  | none =>
    if (js "notifications/").isPrefixOf method then
      return ⟨.error id METHOD_NOT_FOUND (js "method not found"), none⟩
    else
      match refusedParams method params with
      | some refusal =>
        refusedRequest refusal
        return ⟨.error id INVALID_PARAMS (js "invalid params"), none⟩
      | none =>
        match ← dispatch h c id method params with
        | some reply => return ⟨reply, none⟩
        | none => return ⟨.error id INTERNAL_ERROR (js "internal error"), none⟩

def handleMessage (h : McpToolHost) (c : Content) : Value → M (Option Handled)
  | .obj message =>
    if !isText (get message "jsonrpc") (js "2.0") then .done (some ⟨invalidRequest, none⟩)
    else
      match get message "method", get message "id" with
      | none, id =>
        let isResponse := id.isSome && ((get message "result").isSome || (get message "error").isSome)
        .done (if isResponse then none else some ⟨invalidRequest, none⟩)
      | some (.str _), none => .done none
      | some (.str method), some id =>
        if isRequestId id then some <$> handleRequest h c id method (get message "params")
        else .done (some ⟨invalidRequest, some 400⟩)
      | some _, _ => .done (some ⟨invalidRequest, none⟩)
  | _ => .done (some ⟨invalidRequest, none⟩)

def DEFAULT_PROTOCOL_VERSION : Text := js "2025-03-26"

def BATCH_REMOVED_IN : Text := js "2025-06-18"

def MAX_BATCH_MESSAGES : Nat := 8

/-- The loop over a batch: the replies, and the last status that is not 200. -/
def handleBatch (h : McpToolHost) (c : Content) : List Value → M (List RpcResponse × Option Nat)
  | [] => return ([], none)
  | message :: rest => do
    let handled ← handleMessage h c message
    let (replies, status) ← handleBatch h c rest
    match handled with
    | none => return (replies, status)
    | some handled => return (handled.reply :: replies, status.or handled.status)

def handleMcpPayload (h : McpToolHost) (c : Content) (payload : Value) (protocolVersion : Option Text) :
    M (Option McpReply) :=
  match payload with
  | .arr messages =>
    if le BATCH_REMOVED_IN (protocolVersion.getD DEFAULT_PROTOCOL_VERSION) then
      .done (some ⟨.single invalidRequest, some 400⟩)
    else if messages = [] then .done (some ⟨.single invalidRequest, none⟩)
    else if MAX_BATCH_MESSAGES < messages.length then .done (some ⟨.single invalidRequest, some 400⟩)
    else do
      let (replies, status) ← handleBatch h c messages
      match replies with
      | [] => return none
      | _ => return some ⟨.batch replies, status⟩
  | message => do
    let handled ← handleMessage h c message
    return handled.map fun handled => ⟨.single handled.reply, handled.status⟩

end Ultrathink.Service.Mcp
