import Ultrathink.Library.Json
import Ultrathink.Source.Track.Plan

/-!
# What the tracker tools answer

The readers of `track/create.ts`: issue references, page urls, list entries and the
rows that a re-run adopts. `JSON.parse`, `JSON.stringify` and the conversion of a value
to a number and on to text belong to the host; how `collectSchemaNames` understands a
schema answer is left open too, any set of names.
-/

namespace Ultrathink.Source.Track

open Library JsText Regex

structure Host (ν : Type) where
  parseJson : Text → Option (Json ν)
  stringify : Json ν → Text
  /-- `String(Number(value))` -/
  numberText : Option (Json ν) → Text
  ofNat : Nat → ν
  collectSchemaNames : Json ν → List Text

section Read
variable {ν : Type} (host : Host ν)

def asRecord : Option (Json ν) → Option (Json.Record ν)
  | some (.obj fields) => some fields
  | _ => none

/-- A string that is not blank, trimmed. -/
def str : Option (Json ν) → Option Text
  | some (.str s) => if trim s = [] then none else some (trim s)
  | _ => none

def toText : Json ν → Text
  | .str s => s
  | value => host.stringify value

def notSpace (u : UInt16) : Bool := !isSpace u

def isUpperOrDigit (u : UInt16) : Bool := isUpperLetter u || isDigit u

/-- `[A-Z][A-Z0-9]*-\d+` -/
def identifierUnits : Expr :=
  .seq (.one isUpperLetter)
    (.seq (.many true (.one isUpperOrDigit))
      (.seq (.one fun u => u = 0x2D) (.seq (.one isDigit) (.many true (.one isDigit)))))

/-- `[^\s"')\]]` -/
def isLinearUrlUnit (u : UInt16) : Bool :=
  notSpace u && u ≠ 0x22 && u ≠ 0x27 && u ≠ 0x29 && u ≠ 0x5D

def linearUrlRe : Expr :=
  .seq (literal false (js "https://linear.app/"))
    (.seq (.seq (.one notSpace) (.many false (.one notSpace)))
      (.seq (literal false (js "/issue/"))
        (.seq identifierUnits (.many true (.one isLinearUrlUnit)))))

def identifierRe : Expr := .seq .wordEdge (.seq identifierUnits .wordEdge)

def isNotionUrlUnit (u : UInt16) : Bool := isLinearUrlUnit u && u ≠ 0x3C && u ≠ 0x3E

def notionUrlRe : Expr :=
  .seq (literal false (js "https://"))
    (.seq
      (.alt
        (.seq (.alt (literal false (js "www.")) .empty)
          (.seq (literal false (js "notion."))
            (.alt (literal false (js "so")) (literal false (js "site")))))
        (literal false (js "app.notion.com")))
      (.seq (literal false (js "/"))
        (.seq (.one isNotionUrlUnit) (.many true (.one isNotionUrlUnit)))))

def extractIssueRef (result : Json ν) (title : Text) : Option IssueRef :=
  let record := match asRecord (some result), result with
    | some fields, _ => some fields
    | none, .str s => asRecord (host.parseJson s)
    | none, _ => none
  let inner := record.bind fun fields => asRecord (Json.field fields (js "issue"))
  let candidates := record.toList ++ inner.toList
  let named := fun name => candidates.findSome? fun fields => str (Json.field fields name)
  let text := toText host result
  let url := (named (js "url")).or ((exec linearUrlRe text).map (·.matched))
  let identifier := (named (js "identifier")).or
    (((exec identifierRe (url.getD [])).map (·.matched)).or ((exec identifierRe text).map (·.matched)))
  match identifier, url with
  | some identifier, some url => some ⟨(named (js "id")).getD identifier, identifier, url, title⟩
  | _, _ => none

/-- `replace(/\s+/g, " ")` -/
def collapseSpaces : Bool → Text → Text
  | _, [] => []
  | inside, u :: rest =>
    if isSpace u then (if inside then [] else [0x20]) ++ collapseSpaces true rest
    else u :: collapseSpaces false rest

def shortError (message : Text) : Text :=
  let short := (trim (collapseSpaces false message)).take 160
  if short = [] then js "error" else short

def dropTrailing (t : Text) : Text := t.rdropWhile fun u => u = 0x2E || u = 0x2C || u = 0x3B

def notionUrls (result : Json ν) : List Text :=
  let structured := match result with
    | .arr items => items
    | _ =>
      match (asRecord (some result)).bind fun fields => Json.field fields (js "pages") with
      | some (.arr items) => items
      | _ => []
  match structured.mapM fun entry => str ((asRecord (some entry)).bind (Json.field · (js "url"))) with
  | some (url :: urls) => url :: urls
  | _ =>
    ((matchAll notionUrlRe (toText host result)).foldl (fun urls m =>
      let url := dropTrailing m.matched
      if url ∈ urls then urls else urls ++ [url]) [])

/-- The records of a list answer: the array itself or the first array field of these names. -/
def listEntries (result : Json ν) : List (Json.Record ν) :=
  let value := match result with
    | .str s => host.parseJson s
    | value => some value
  let list := match value with
    | some (.arr items) => items
    | value =>
      ([js "issues", js "nodes", js "results", js "rows", js "pages", js "data"].findSome? fun key =>
        match (asRecord value).bind (Json.field · key) with
        | some (.arr items) => some items
        | _ => none).getD []
  list.filterMap fun entry => asRecord (some entry)

/-- ``ultrathink graph ${graphId} · node (\S+?)(?: · step (\d+))?\s*$`` under the `m`
flag. The white space that `\s*$` reads up to a line end is read here with the line end,
which no group sees. -/
def footerRe (graphId : Text) : Expr :=
  .seq (literal false (js "ultrathink graph " ++ graphId ++ js " · node "))
    (.seq (.group 1 (.seq (.one notSpace) (.many false (.one notSpace))))
      (.seq
        (.alt (.seq (literal false (js " · step "))
          (.group 2 (.seq (.one isDigit) (.many true (.one isDigit))))) .empty)
        (.seq (.many false (.one isSpace)) (.alt .atEnd (.one isLineEnd)))))

def adoptIssue (graphId : Text) (refs : Refs) (issue : Json.Record ν) : Refs :=
  match (str (Json.field issue (js "description"))).bind (exec (footerRe graphId)) with
  | none => refs
  | some m =>
    let nodeId := (m.group 1).getD []
    match extractIssueRef host (.obj issue) ((str (Json.field issue (js "title"))).getD []) with
    | none => refs
    | some ref =>
      match m.group 2 with
      | none =>
        if refs.hasLinearNode nodeId then refs
        else { refs with linearNodes := refs.linearNodes.set nodeId ref }
      | some digits =>
        let key := nodeId ++ js "." ++ host.numberText (some (.str digits))
        if refs.hasLinearStep key then refs
        else { refs with linearSteps := refs.linearSteps.set key ref }

/-- What `adoptLinear` does with the answer. -/
def adoptLinear (graphId : Text) (refs : Refs) (result : Json ν) : Refs :=
  (listEntries host result).foldl (adoptIssue host graphId) refs

/-- `^\[([^\]]+)\]` -/
def itemRe : Expr :=
  .seq .atStart
    (.seq (.one fun u => u = 0x5B)
      (.seq (.group 1 (.seq (.one fun u => u ≠ 0x5D) (.many true (.one fun u => u ≠ 0x5D))))
        (.one fun u => u = 0x5D)))

/-- `Number.isFinite` of the number with this text. -/
def isFiniteText (text : Text) : Bool :=
  text ≠ js "NaN" && text ≠ js "Infinity" && text ≠ js "-Infinity"

/-- `map[key] ??= url` -/
def setMissing (m : OrderedMap Text Text) (key url : Text) : OrderedMap Text Text :=
  if m.contains key then m else m.set key url

def adoptRow (refs : Refs) (row : Json.Record ν) : Refs :=
  match str (Json.field row (js "url")), str (Json.field row (js "Level")) with
  | some url, some level =>
    if level = js "Task" then { refs with taskUrl := refs.taskUrl.or (some url) }
    else
      match (str (Json.field row (js "Item"))).bind fun item => (exec itemRe item).bind (·.group 1) with
      | none => refs
      | some nodeId =>
        if level = js "Issue" then
          { refs with notionNodes := setMissing refs.notionNodes nodeId url }
        else if level = js "Sub-Issue" then
          let step := host.numberText (Json.field row (js "Step"))
          if isFiniteText step then
            { refs with notionSteps := setMissing refs.notionSteps (nodeId ++ js "." ++ step) url }
          else refs
        else refs
  | _, _ => refs

/-- What `adoptNotion` does with the answer. -/
def adoptNotion (refs : Refs) (result : Json ν) : Refs :=
  (listEntries host result).foldl (adoptRow host) refs

end Read

end Ultrathink.Source.Track
