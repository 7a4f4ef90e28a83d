import Mathlib.Data.List.Infix
import Mathlib.Data.List.DropRight
import Ultrathink.Library.OrderedMap
import Ultrathink.Library.Threads

/-!
# Pull request nudges on Hermes (`hosts/hermes/bridge.py`)

The hooks `subagent_start`, `transform_tool_result`, `post_tool_call` and `pre_llm_call`,
with the tables that they share. Each hook that Hermes fires is a program; a section under
`_pr_lock` is one call to the tables and a look at a file is one call to the disk, which
may answer anything, so a session record can change between two looks. What a hook returns
to the model is its result. `pre_verify` and `plan` are left out.
-/

namespace Ultrathink.Hermes.Bridge

open Library Interaction

/-- A `str` of Python: its code points. -/
abbrev Str := List Nat

def py (text : String) : Str := text.toList.map Char.toNat

/-- `str.isspace` -/
def isSpace (c : Nat) : Bool :=
  (0x09 ≤ c && c ≤ 0x0D) || (0x1C ≤ c && c ≤ 0x20) || c = 0x85 || c = 0xA0 || c = 0x1680 ||
    (0x2000 ≤ c && c ≤ 0x200A) || c = 0x2028 || c = 0x2029 || c = 0x202F || c = 0x205F ||
    c = 0x3000

def strip (text : Str) : Str := (text.dropWhile isSpace).rdropWhile isSpace

/-- `JS_SPACE` -/
def isJsSpace (c : Nat) : Bool :=
  (0x09 ≤ c && c ≤ 0x0D) || c = 0x20 || c = 0xA0 || c = 0x1680 || (0x2000 ≤ c && c ≤ 0x200A) ||
    c = 0x2028 || c = 0x2029 || c = 0x202F || c = 0x205F || c = 0x3000 || c = 0xFEFF

def isDigit (c : Nat) : Bool := 0x30 ≤ c && c ≤ 0x39

/-- `[A-Za-z0-9_]` -/
def isWord (c : Nat) : Bool :=
  isDigit c || (0x41 ≤ c && c ≤ 0x5A) || (0x61 ≤ c && c ≤ 0x7A) || c = 0x5F

/-- What follows the literal, when the text starts with it. -/
def after (literal text : Str) : Option Str :=
  if literal.isPrefixOf text then some (text.drop literal.length) else none

/-- A longest run of at least one code point, and what follows it. -/
def run1 (accepts : Nat → Bool) (text : Str) : Option (Str × Str) :=
  match text.span accepts with
  | ([], _) => none
  | (run, rest) => some (run, rest)

/-- `[^\s/]` -/
def isSegment (c : Nat) : Bool := !isJsSpace c && c ≠ 0x2F

/-- `PR_URL_RE.match`. No class reads what follows it, so a longest run is the only one. -/
def prUrlAt (text : Str) : Option Str := do
  let rest ← after (py "https://github.com/") text
  let (owner, rest) ← run1 isSegment rest
  let rest ← after (py "/") rest
  let (repo, rest) ← run1 isSegment rest
  let rest ← after (py "/pull/") rest
  let (number, _) ← run1 isDigit rest
  return py "https://github.com/" ++ owner ++ py "/" ++ repo ++ py "/pull/" ++ number

/-- The first github.com/<owner>/<repo>/pull/<n> URL, or "". -/
def extractPrUrl : Str → Str
  | [] => []
  | c :: rest =>
    match prUrlAt (c :: rest) with
    | some url => url
    | none => extractPrUrl rest

example : extractPrUrl (py "Opened https://github.com/acme/widgets/pull/42 (supersedes #41)") =
    py "https://github.com/acme/widgets/pull/42" := by decide

/-- `gh[\s]+pr[\s]+create(?![A-Za-z0-9_])` at the start of the text. -/
def ghPrCreateAt (text : Str) : Bool :=
  let matched : Option Str := do
    let rest ← after (py "gh") text
    let (_, rest) ← run1 isJsSpace rest
    let rest ← after (py "pr") rest
    let (_, rest) ← run1 isJsSpace rest
    after (py "create") rest
  match matched with
  | none => false
  | some [] => true
  | some (c :: _) => !isWord c

/-- `GH_PR_CREATE_RE.search`; `behind` is true after a word character. -/
def ghPrCreate (behind : Bool) : Str → Bool
  | [] => false
  | c :: rest => (!behind && ghPrCreateAt (c :: rest)) || ghPrCreate (isWord c) rest

def lower (c : Nat) : Nat := if 0x41 ≤ c ∧ c ≤ 0x5A then c + 32 else c

/-- Each way to leave out a separator or to take one of `_` and `-`. -/
def separated : List String → List Str
  | [] => [[]]
  | [last] => [py last]
  | word :: rest =>
    (separated rest).flatMap fun tail =>
      [py word ++ tail, py word ++ py "_" ++ tail, py word ++ py "-" ++ tail]

/-- The alternatives of `PR_TOOL_RE`; `createPullRequest` is one with no separators. -/
def prToolNames : List Str :=
  separated ["create", "pull", "request"] ++ separated ["pull", "request", "create"]

def SHELL_TOOLS : List Str :=
  [py "Bash", py "bash", py "run_terminal_command", py "run_terminal_cmd", py "shell",
    py "exec", py "terminal"]

def isPrCreationTool (toolName command : Str) : Bool :=
  if toolName = [] then false
  else if toolName ∈ SHELL_TOOLS then ghPrCreate false command
  else prToolNames.any fun name => name.isSuffixOf (toolName.map lower)

example : isPrCreationTool (py "terminal") (py "git push && gh  pr create --fill") = true ∧
    isPrCreationTool (py "mcp__github__create_pull_request_review") [] = false := by
  decide

def DELEGATE_TOOL : Str := py "delegate_task"

/-- A tool's result: a `str`, or another value with what `_result_text` makes of it. -/
inductive ToolResult where
  | text (result : Str)
  | other (dumped : Str)
deriving DecidableEq

def resultText : ToolResult → Str
  | .text result => result
  | .other dumped => dumped

/-- The payload of a tool hook; each field as `str(payload.get(…) or "")` gives it. -/
structure ToolCall where
  sessionId : Str
  toolName : Str
  command : Str
  result : ToolResult
deriving DecidableEq

/-- What the hooks read of a session record: its `sessionId` when it is a `str`, and the
`graphId` of a `plan` that is a `dict`, as `str(… or "")` gives it. -/
structure Record where
  sessionId : Option Str
  plan : Option Str
deriving DecidableEq

/-- Where the machine keeps the files. -/
structure Host where
  statePath : Str → Str
  legacyStatePath : Str → Str
  /-- The SKILL.md of a plugin skill. -/
  skillPath : Str → Str

structure Tables where
  /-- `_pr_delivered` -/
  delivered : List (Str × Str)
  /-- `_pr_pending` -/
  pending : Str → OrderedMap Str Str
  /-- `_pr_latest` -/
  latest : Str × Str → Option Str
  /-- `_child_parent` -/
  childParent : Str → Option Str
  /-- `_child_opened` -/
  childOpened : List ((Str × Str) × Str)

def Tables.initial : Tables := ⟨[], fun _ => .empty, fun _ => none, fun _ => none, []⟩

inductive Call where
  /-- The section of `note_subagent`. -/
  | noteChild (child parent : Str)
  | parentOf (sessionId : Str)
  /-- `path.exists()`; it raises where the directory cannot be searched. -/
  | exists_ (path : Str)
  /-- `_read_record(path)` -/
  | readRecord (path : Str)
  | proveOpened (sessionId graphId url : Str)
  | isProven (sessionId graphId url : Str)
  /-- The section of `_queue`. -/
  | queue (sessionId graphId url nudge : Str)
  /-- The section of `pr_tool_result`: whether the nudge was not delivered before. -/
  | deliver (sessionId graphId url : Str)
  /-- The section of `take_pr_nudges`: the nudges by URL. -/
  | take (sessionId : Str)
deriving DecidableEq

abbrev Answer : Call → Type
  | .noteChild _ _ => Unit
  | .parentOf _ => Option Str
  | .exists_ _ => Option Bool
  | .readRecord _ => Option Record
  | .proveOpened _ _ _ => Unit
  | .isProven _ _ _ => Bool
  | .queue _ _ _ _ => Unit
  | .deliver _ _ _ => Bool
  | .take _ => List (Str × Str)

def queued (sessionId graphId url nudge : Str) (s : Tables) : Tables :=
  { s with
    pending :=
      if (sessionId, url) ∈ s.delivered then s.pending
      else Function.update s.pending sessionId ((s.pending sessionId).set url nudge)
    latest := Function.update s.latest (sessionId, graphId) (some url) }

def delivering (sessionId graphId url : Str) (s : Tables) : Tables :=
  { s with
    delivered := (sessionId, url) :: s.delivered
    latest := Function.update s.latest (sessionId, graphId) (some url) }

def undelivered (sessionId : Str) (s : Tables) : List (Str × Str) :=
  (s.pending sessionId).entries.filter fun entry => (sessionId, entry.1) ∉ s.delivered

def taken (sessionId : Str) (s : Tables) : Tables :=
  { s with
    pending := Function.update s.pending sessionId .empty
    delivered := (s.pending sessionId).entries.map (fun entry => (sessionId, entry.1)) ++
      s.delivered }

/-- What a call is answered, and the tables after it. -/
def answers (s : Tables) : (c : Call) → Answer c → Tables → Prop
  | .noteChild child parent, _, s' =>
    s' = { s with childParent := Function.update s.childParent child (some parent) }
  | .parentOf sessionId, parent, s' => parent = s.childParent sessionId ∧ s' = s
  | .exists_ _, _, s' => s' = s
  | .readRecord _, _, s' => s' = s
  | .proveOpened sessionId graphId url, _, s' =>
    s' = { s with childOpened := ((sessionId, graphId), url) :: s.childOpened }
  | .isProven sessionId graphId url, proven, s' =>
    proven = decide (((sessionId, graphId), url) ∈ s.childOpened) ∧ s' = s
  | .queue sessionId graphId url nudge, _, s' => s' = queued sessionId graphId url nudge s
  | .deliver sessionId graphId url, fresh, s' =>
    if (sessionId, url) ∈ s.delivered then fresh = false ∧ s' = s
    else fresh = true ∧ s' = delivering sessionId graphId url s
  | .take sessionId, nudges, s' => nudges = undelivered sessionId s ∧ s' = taken sessionId s

abbrev M (α : Type) := Prog Call Answer α

def ask (c : Call) : M (Answer c) := Prog.call c

/-- The hook ends with nothing when a look at the disk raises. -/
def noteSubagent (child parent : Str) : M Unit := do
  if strip child ≠ [] ∧ strip parent ≠ [] then
    let _ ← ask (.noteChild (strip child) (strip parent))
    return ()
  return ()

/-- Owner, URL, and whether a child opened it. -/
def openedPr (x : ToolCall) : M (Option (Str × Str × Bool)) := do
  let sessionId := strip x.sessionId
  if sessionId = [] then return none
  let url := extractPrUrl (resultText x.result)
  if url = [] then return none
  if isPrCreationTool x.toolName x.command then
    match ← ask (.parentOf sessionId) with
    | none => return some (sessionId, url, false)
    | some parent => return some (parent, url, true)
  else if x.toolName = DELEGATE_TOOL then return some (sessionId, url, false)
  else return none

/-- The current name, or the earlier one when only that file exists and stores this id;
none when a look raises. -/
def sessionRecordPath (h : Host) (sessionId : Str) : M (Option Str) := do
  let current := h.statePath sessionId
  let legacy := h.legacyStatePath sessionId
  match ← ask (.exists_ current) with
  | none => return none
  | some true => return some current
  | some false =>
    if legacy = current then return some current
    else
      match ← ask (.exists_ legacy) with
      | none => return none
      | some false => return some current
      | some true =>
        let record ← ask (.readRecord legacy)
        return some (if record.bind Record.sessionId = some sessionId then legacy else current)

/-- The graph of the plan, when the record is this session's. -/
def planOf (sessionId : Str) (record : Option Record) : Option Str :=
  match record with
  | none => none
  | some record => if record.sessionId = some sessionId then record.plan else none

def skillReference (h : Host) (name : Str) : Str :=
  py "the " ++ name ++ py " skill (load it with skill_view name=\"ultrathink:" ++ name ++
    py "\", or read " ++ h.skillPath name ++ py ")"

def nudgeFor (h : Host) (path graphId url : Str) : Str :=
  py "Ultrathink: a pull request was opened for the tracked task (graph " ++ graphId ++ py ", " ++
  url ++ py "). Invoke " ++ skillReference h (py "ultrathink-sync") ++ py " now with stateFile=" ++
  path ++ py ", graphId=" ++ graphId ++ py " and prUrl=" ++ url ++
  py ", so the tracked Notion Task row and Linear issues get the PR URL/number/branch and status. " ++
  py "ultrathink-sync only updates existing rows; do not create new Notion rows or Linear issues."

structure PrEvent where
  sessionId : Str
  graphId : Str
  url : Str
  nudge : Str
  byChild : Bool

/-- What `_pr_event` does once it has the owner and the URL. -/
def plannedEvent (h : Host) (x : ToolCall) (sessionId url : Str) (byChild : Bool) :
    M (Option PrEvent) := do
  match ← sessionRecordPath h sessionId with
  | none => return none
  | some path =>
    match planOf sessionId (← ask (.readRecord path)) with
    | none => return none
    | some graphId =>
      let event : PrEvent := ⟨sessionId, graphId, url, nudgeFor h path graphId url, byChild⟩
      if byChild then
        let _ ← ask (.proveOpened sessionId graphId url)
        return some event
      else if x.toolName = DELEGATE_TOOL then
        let proven ← ask (.isProven sessionId graphId url)
        return if proven then some event else none
      else return some event

def prEvent (h : Host) (x : ToolCall) : M (Option PrEvent) := do
  match ← openedPr x with
  | none => return none
  | some (sessionId, url, byChild) => plannedEvent h x sessionId url byChild

def queueNudge (e : PrEvent) : M Unit := do
  let _ ← ask (.queue e.sessionId e.graphId e.url e.nudge)
  return ()

/-- `transform_tool_result`: the result with the nudge below it; none keeps the result. -/
def prToolResult (h : Host) (x : ToolCall) : M (Option Str) := do
  match x.result with
  | .other _ => return none
  | .text result =>
    match ← prEvent h x with
    | none => return none
    | some e =>
      if e.byChild then
        queueNudge e
        return none
      else
        let fresh ← ask (.deliver e.sessionId e.graphId e.url)
        return if fresh then some (result ++ py "\n\n" ++ e.nudge) else none

/-- `post_tool_call` -/
def queuePrNudge (h : Host) (x : ToolCall) : M Unit := do
  match ← prEvent h x with
  | none => return ()
  | some e => queueNudge e

/-- `pre_llm_call` -/
def takePrNudges (sessionId : Str) : M Str := do
  let nudges ← ask (.take (strip sessionId))
  return (py "\n\n").intercalate (nudges.map Prod.snd)

inductive Hook where
  | subagentStart (child parent : Str)
  | transformToolResult (x : ToolCall)
  | postToolCall (x : ToolCall)
  | preLlmCall (sessionId : Str)
deriving DecidableEq

/-- What `register` hooks in: the text that the hook gives the model, if any. -/
def program (h : Host) : Hook → M (Option Str)
  | .subagentStart child parent => do
    noteSubagent child parent
    return none
  | .transformToolResult x => prToolResult h x
  | .postToolCall x => do
    queuePrNudge h x
    return none
  | .preLlmCall sessionId => do
    let text ← takePrNudges sessionId
    return if text = [] then none else some text

/-- A hook that fired: which one, and a number to tell it from the others. -/
abbrev Name := Hook × Nat

/-- Any hook may fire at any time, beside any others. -/
def host (h : Host) : Threads.Host Call Answer (Option Str) Tables Name :=
  ⟨answers, fun _ name p => p = program h name.1⟩

def system (h : Host) : Runs.System (Threads.Config Call Answer (Option Str) Tables Name) Name :=
  (host h).system Tables.initial

end Ultrathink.Hermes.Bridge
