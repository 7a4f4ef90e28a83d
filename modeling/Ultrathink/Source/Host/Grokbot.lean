import Ultrathink.Library.JsonText
import Ultrathink.Source.Think.Pipeline

/-!
# Answers of Grok Bot (`src/host/grokbot.ts`)

The bot's model answers the engine's prompts. `validateAnswer` is modelled for the graph
prompt, where it is `validateGraph`; an accepted answer is stored, and the journal gives it
to the next run as the completion of that prompt. The other stages, the journal's files and
the pending requests are left out.
-/

namespace Ultrathink.Host.Grokbot

open Library JsText Regex Source.Uplift.Xml Source.Think.Graph Source.Think.Pipeline
open Library.JsNumber (Number)

abbrev Value := Json Number

def fence : Expr := literal false (js "```")

/-- ``/```(?:json)?\s*([\s\S]*?)```/i`` -/
def fencedRe : Expr :=
  .seq fence
    (.seq (.alt (literal true (js "json")) .empty)
      (.seq (.many true (.one isSpace)) (.seq (.group 1 (.many false (.one anyUnit))) fence)))

/-- `raw.slice(start, end + 1)` from the first brace to the last, when the one is before the
other. -/
def braced (raw : Text) : Option Text :=
  let start := raw.idxOf JsonText.openBrace
  let tail := raw.reverse.dropWhile (· ≠ JsonText.closeBrace)
  if start < raw.length ∧ start + 1 < tail.length then some (tail.reverse.drop start) else none

def extractJsonObject (text : Text) : Value :=
  let raw := trim (((exec fencedRe text).bind fun m => m.group 1).getD text)
  match JsonText.parse raw with
  | some value => value
  | none => ((braced raw).bind JsonText.parse).getD .null

def MIN_NODES : Nat := 5

def MAX_NODES : Nat := 8

def MAX_ANSWER_CHARS : Nat := 200000

structure Validation where
  ok : Bool
  errors : List Text
  /-- `info.nodes` -/
  nodes : Option Nat
deriving DecidableEq

/-- `{ ok: false, errors: [error] }` -/
def refused (error : Text) : Validation := ⟨false, [error], none⟩

/-- `if (when) errors.push(text)` -/
def check (when : Bool) (text : Text) : List Text := if when then [text] else []

/-- The checks of the entries and of the graph they become. -/
def graphErrors (nodes : List Value) (graph : ThoughtGraph) : List Text :=
  let kinds := graph.nodes.map (·.kind)
  check (nodes.length < MIN_NODES || MAX_NODES < nodes.length)
      (js "graph must have " ++ ofNat MIN_NODES ++ js "-" ++ ofNat MAX_NODES ++ js " nodes (got " ++
        ofNat nodes.length ++ js ")") ++
    check (isFallbackGraph graph) (js "graph normalized to the fallback graph") ++
    check (graph.nodes.length ≠ nodes.length)
      (js "normalization changed the node count (" ++ ofNat nodes.length ++ js " -> " ++
        ofNat graph.nodes.length ++ js ")") ++
    check (kinds.head? ≠ some .understand) (js "n1 must be kind understand") ++
    check (kinds.getLast? ≠ some .synthesize) (js "the last node must be kind synthesize") ++
    check (!kinds.contains .critique) (js "at least one critique node is required")

def validateGraph (raw original : Text) : Validation :=
  let parsed := extractJsonObject raw
  match property parsed "nodes" with
  | some (.arr nodes) =>
    let graph := normalizeGraph parsed original MIN_NODES MAX_NODES
    let errors := graphErrors nodes graph
    ⟨errors.isEmpty, errors, some graph.nodes.length⟩
  | _ => refused (js "graph JSON must have a nodes array")

/-- `validateAnswer` for a request of the stage `graph`; a session may have no recorded
original. -/
def validateAnswer (raw : Text) (original : Option Text) : Validation :=
  if trim raw = [] then refused (js "empty answer")
  else if MAX_ANSWER_CHARS < raw.length then refused (js "answer too large")
  else validateGraph raw (original.getD [])

/-- What the run after it asks: the journal answers the graph prompt with the stored text. -/
def resumed (graphSystem cotSystem : Text) (complete : Text → Text → Option Text) (uplift : Spec)
    (raw : Text) : Model Number where
  complete system user :=
    if system = graphSystem ∧ user = graphUserPayload uplift then some raw else complete system user
  graphSystem
  cotSystem
  extractJsonObject

end Ultrathink.Host.Grokbot
