import Ultrathink.Library.Runs
import Ultrathink.Source.TokenOpt.Shrink

/-!
# Tool results (`omp-token-opt/src/index.ts`)

The `tool_result` handler after its refresh of the RTK total, with the events that forget what
it has seen. That a call throws is an input, as is the clock; `hash` is SHA-256 in hexadecimal.
What was left in the conversation since the session was last started, switched or compacted
is kept beside.
-/

namespace Ultrathink.Source.TokenOpt.ToolResult

open Library JsText Runs Shrink

def dedupeMinChars : Nat := 200

def dedupeMaxEntries : Nat := 4096

/-- `Set` or `BoundedSet`, the least recently used value first. -/
abbrev DedupeSet := List Text

def DedupeSet.add (bounded : Bool) (value : Text) (values : DedupeSet) : DedupeSet :=
  if bounded then
    let next := List.filter (· ≠ value) values ++ [value]
    if dedupeMaxEntries < next.length then next.tail else next
  else if List.contains values value then values else values ++ [value]

/-- A value that is found in a `BoundedSet` becomes the most recently used. -/
def DedupeSet.has (bounded : Bool) (value : Text) (values : DedupeSet) : DedupeSet × Bool :=
  if List.contains values value then
    (if bounded then List.filter (· ≠ value) values ++ [value] else values, true)
  else (values, false)

/-- A block of type `text` may carry no string; the blocks of other types are passed on. -/
inductive Block where
  | text (text : Option Text)
  | other (id : Nat)
  deriving DecidableEq

/-- A field of `event.input`; a value that is no string is read as `String(value)`. -/
inductive Argument where
  | absent
  | str (text : Text)
  | other (shown : Text)
  deriving DecidableEq

/-- `str(value)` -/
def Argument.text : Argument → Text
  | .str text => text
  | _ => []

/-- `String(value ?? "")` -/
def Argument.shown : Argument → Text
  | .absent => []
  | .str text => text
  | .other shown => shown

structure ToolResultEvent where
  toolName : Option Text
  isError : Bool
  content : Option (List Block)
  path : Argument
  command : Argument

/-- The calls of the handler that throw. -/
structure Throws where
  hash : Bool
  skim : Bool
  shrink : Bool
  record : Bool
  spend : Bool

structure Point where
  at_ : Nat
  baseline : Nat
  current : Nat
  saved : Int
  deriving DecidableEq

/-- What a result was replaced by. -/
inductive Kind where
  | empty
  | pointer
  | skimmed
  | shrunk
  deriving DecidableEq

structure Replacement where
  kind : Kind
  content : List Block
  deriving DecidableEq

/-- A result with text as it stands in the conversation. -/
structure Left where
  sessionId : Text
  toolName : Text
  text : Text
  replaced : Option Kind
  deriving DecidableEq

structure Options where
  hash : List UInt8 → Text
  boundedDedupe : Bool
  /-- `TOKEN_OPT_SESSION_TOKEN_BUDGET` when the flag is set. -/
  sessionBudget : Option Nat

structure State where
  active : Text
  seenResults : Text → Option DedupeSet
  budget : Option Budget
  skimArchive : List (Text × Text)
  points : List Point
  left : List Left
  /-- Everything that was hashed. -/
  hashed : List (List UInt8)

/-- `/^#{1,6}(\s|$)/` -/
def isHeading (line : Text) : Bool :=
  let marks := (line.takeWhile (· = 0x23)).length
  1 ≤ marks && marks ≤ 6 && ((line.drop marks).head?.map isSpace).getD true

def isEmptyToolResult (text : Text) : Bool :=
  let trimmed := trim text
  if trimmed = [] || trimmed = js "No matches found" || trimmed = js "No matches found." then true
  else
    ((lines trimmed).map trim).filter (fun line => line ≠ [] && !isHeading line) =
      [js "No matches found"]

def textsOf (blocks : List Block) : List Text :=
  blocks.filterMap fun block => match block with
    | .text text => text
    | .other _ => none

def extrasOf (blocks : List Block) : List Block :=
  blocks.filter fun block => match block with
    | .text _ => false
    | .other _ => true

def unlinesOf (blocks : List Block) : Text := unlines (textsOf blocks)

def ToolResultEvent.tool (e : ToolResultEvent) : Text := e.toolName.getD (js "tool")

def keyBytes (sessionId toolName joined : Text) : List UInt8 :=
  toUtf8 sessionId ++ 0 :: (toUtf8 toolName ++ 0 :: toUtf8 joined)

/-- `` `repeated … result omitted` `` -/
def repeatPointer (e : ToolResultEvent) (joined : Text) : Text :=
  let subject := if e.path.text ≠ [] then e.path.text else e.command.text
  js "token-opt: repeated " ++ e.tool ++ js " result omitted (" ++ ofNat joined.length ++
    js " chars)" ++ if subject ≠ [] then js " for " ++ subject.take 80 else []

def pointFor (now : Nat) (text shortened : Text) : Point :=
  ⟨now, estimateTokens text, estimateTokens shortened,
    estimateTokens text - estimateTokens shortened⟩

/-- What a step gives, or that it has thrown, with the state as it was then. -/
abbrev Attempt (α : Type) := Except State α

/-- The state, and the replacement that the handler returns, if any. -/
abbrev Answer := State × Option Replacement

/-- `ledger.record` refuses a point that saves less than nothing. -/
def record (x : Throws) (p : Point) (s : State) : Attempt State :=
  if x.record || p.saved < 0 then .error s else .ok { s with points := p :: s.points }

def spendBudget (x : Throws) (text : Text) (s : State) : Attempt State :=
  match s.budget with
  | none => .ok s
  | some b =>
    if x.spend then .error s else .ok { s with budget := some (b.spend (estimateTokens text)) }

def keep (x : Throws) (joined : Text) (s : State) : Attempt Answer := do
  let s ← spendBudget x joined s
  return (s, none)

/-- A point is recorded, the budget spent and the content replaced by a text. -/
def replace (x : Throws) (p : Point) (kind : Kind) (blocks : List Block) (text : Text)
    (s : State) : Attempt Answer := do
  let s ← record x p s
  let s ← spendBudget x text s
  return (s, some ⟨kind, .text (some text) :: extrasOf blocks⟩)

def emptied (x : Throws) (now : Nat) (e : ToolResultEvent) (blocks : List Block) (joined : Text)
    (s : State) : Attempt Answer :=
  let pointer := js "token-opt: " ++ e.tool ++ js " empty"
  if estimateTokens pointer < estimateTokens joined then
    replace x (pointFor now joined pointer) .empty blocks pointer s
  else do
    let s ← spendBudget x pointer s
    return (s, some ⟨.empty, .text (some pointer) :: extrasOf blocks⟩)

/-- The hash is looked up, and added when it is new. -/
def lookup (o : Options) (x : Throws) (e : ToolResultEvent) (joined : Text) (s : State) :
    Attempt (State × Bool) :=
  let values := (s.seenResults s.active).getD []
  let opened := { s with seenResults := Function.update s.seenResults s.active (some values) }
  if x.hash then .error opened
  else
    let key := keyBytes s.active e.tool joined
    let (looked, found) := DedupeSet.has o.boundedDedupe (o.hash key) values
    let next := if found then looked else DedupeSet.add o.boundedDedupe (o.hash key) looked
    .ok ({ s with
      seenResults := Function.update s.seenResults s.active (some next)
      hashed := key :: s.hashed }, found)

def repeated (x : Throws) (now : Nat) (e : ToolResultEvent) (blocks : List Block) (joined : Text)
    (s : State) : Attempt Answer :=
  let pointer := repeatPointer e joined
  replace x (pointFor now joined pointer) .pointer blocks pointer s

def State.cap (s : State) : Nat :=
  match s.budget with
  | none => defaultCap
  | some b => capFor b.tier defaultCap

/-- The end of the handler: `shrinkToolText` of the whole text. -/
def shrunk (x : Throws) (now : Nat) (blocks : List Block) (joined : Text) (s : State) :
    Attempt Answer :=
  if x.shrink then .error s
  else
    let result := shrinkToolText joined s.cap
    if result.saved ≤ 0 then keep x joined s
    else replace x ⟨now, result.baseline, result.current, result.saved⟩ .shrunk blocks result.text s

/-- A source file that was read. -/
def skimmed (x : Throws) (now : Nat) (blocks : List Block) (joined path : Text) (s : State) :
    Attempt Answer :=
  if x.skim then .error s
  else
    let skim := skimSource joined path
    let s := { s with
      skimArchive := if skim.length < joined.length then rememberSkim path joined s.skimArchive
        else s.skimArchive }
    let text := match s.budget with
      | none => skim
      | some b => (shrinkToolText skim (capFor b.tier defaultCap)).text
    if estimateTokens text < estimateTokens joined then
      replace x (pointFor now joined text) .skimmed blocks text s
    else shrunk x now blocks joined s

/-- What is done with a result that is not a repeated one. -/
def shortened (x : Throws) (now : Nat) (e : ToolResultEvent) (blocks : List Block) (joined : Text)
    (s : State) : Attempt Answer :=
  if e.toolName = some (js "bash") ∧ (js "rtk ").isPrefixOf (trimStart e.command.shown) then
    keep x joined s
  else
    match decide (e.toolName = some (js "read")), e.path with
    | true, .str path => skimmed x now blocks joined path s
    | _, _ => shrunk x now blocks joined s

def answered (o : Options) (x : Throws) (now : Nat) (e : ToolResultEvent) (blocks : List Block)
    (joined : Text) (s : State) : Attempt Answer :=
  if isEmptyToolResult joined then emptied x now e blocks joined s
  else if joined.length ≤ dedupeMinChars then shortened x now e blocks joined s
  else do
    let (s, found) ← lookup o x e joined s
    if found then repeated x now e blocks joined s else shortened x now e blocks joined s

/-- `catch { return; }` -/
def caught : Attempt Answer → Answer
  | .error s => (s, none)
  | .ok answer => answer

/-- The result as it is left is noted. -/
def toolResult (o : Options) (x : Throws) (now : Nat) (e : ToolResultEvent) (s : State) : Answer :=
  if e.isError then (s, none)
  else
    match e.content with
    | none => (s, none)
    | some blocks =>
      if textsOf blocks = [] then (s, none)
      else
        let joined := unlinesOf blocks
        let (s, replacement) := caught (answered o x now e blocks joined s)
        ({ s with left := ⟨s.active, e.tool, joined, replacement.map Replacement.kind⟩ :: s.left },
          replacement)

inductive Input where
  /-- A session is started or switched to; `active` is the session that the ledger then has. -/
  | beginSession (active : Text)
  | compact
  | toolResult (throws_ : Throws) (now : Nat) (event : ToolResultEvent)

def step (o : Options) (s : State) : Input → State
  | .beginSession active =>
    { s with
      active := active
      seenResults := fun _ => none
      skimArchive := []
      budget := o.sessionBudget.map fun limit => ⟨limit, 0⟩
      left := [] }
  | .compact => { s with seenResults := fun _ => none, left := [] }
  | .toolResult throws_ now event => (toolResult o throws_ now event s).1

structure Start (o : Options) (s : State) : Prop where
  active : s.active = js "default"
  seenResults : s.seenResults = fun _ => none
  budget : s.budget = none
  points : s.points = []
  left : s.left = []
  hashed : s.hashed = []

def system (o : Options) : System State Input := ⟨Start o, fun s i t => t = step o s i⟩

end Ultrathink.Source.TokenOpt.ToolResult
