import Ultrathink.Library.Escapes
import Ultrathink.Library.Occurrences
import Ultrathink.Source.Track.Plan

/-!
# Tracking in the specification

`track/render.ts`: `injectTrackingXml` and `stripTrackingXml`. The expressions are written as
what they match at the front of a text; none of them looks behind. An absent result is a
`TypeError`.
-/

namespace Ultrathink.Source.Track.Render

open Library JsText Occurrences

/-- `TrackingRefs`, what the rendering reads of it. -/
structure TrackingRefs where
  graphId : Text
  status : TrackingStatus
  refs : Refs

def statusText : TrackingStatus → Text
  | .complete => js "complete"
  | .partly => js "partial"
  | .failed => js "failed"

/-- The names that every record has without an entry of its own. -/
def inheritedNames : List Text := [
  js "constructor", js "__defineGetter__", js "__defineSetter__", js "hasOwnProperty",
  js "__lookupGetter__", js "__lookupSetter__", js "isPrototypeOf", js "propertyIsEnumerable",
  js "toString", js "valueOf", js "__proto__", js "toLocaleString"]

/-- What a record yields for a name; what it inherits is an object or a function. -/
inductive Looked (α : Type) where
  | absent
  | own (value : α)
  | inherited

def lookup {α : Type} (record : OrderedMap Text α) (name : Text) : Looked α :=
  match record.get? name with
  | some value => .own value
  | none => if name ∈ inheritedNames then .inherited else .absent

def escapeXml (value : Text) : Text :=
  replaceAll [(0x26, js "&amp;"), (0x3C, js "&lt;"), (0x3E, js "&gt;"), (0x22, js "&quot;")] value

def stripNodePrefix (item nodeId : Text) : Text :=
  let nodePrefix := js "[" ++ nodeId ++ js "] "
  if nodePrefix.isPrefixOf item then item.drop nodePrefix.length else item

def attr (name : Text) (value : Option Text) : Text :=
  match value with
  | none => []
  | some value =>
    if value = [] then [] else js " " ++ name ++ js "=\"" ++ escapeXml value ++ js "\""

/-- An inherited value has no `replace`. -/
def urlAttr (name : Text) : Looked Text → Option Text
  | .absent => some (attr name none)
  | .own url => some (attr name (some url))
  | .inherited => none

def Looked.identifier : Looked IssueRef → Option Text
  | .own ref => some ref.identifier
  | _ => none

def Looked.url : Looked IssueRef → Option Text
  | .own ref => some ref.url
  | _ => none

/-- `!ref && !notionUrl` -/
def isPending (ref : Looked IssueRef) (notionUrl : Looked Text) : Bool :=
  match ref, notionUrl with
  | .absent, .absent => true
  | .absent, .own url => url = []
  | _, _ => false

def linkAttrs (ref : Looked IssueRef) (notionUrl : Looked Text) : Option Text :=
  (urlAttr (js "notionUrl") notionUrl).map fun notion =>
    (if isPending ref notionUrl then js " status=\"pending\"" else []) ++
      attr (js "identifier") ref.identifier ++ attr (js "url") ref.url ++ notion

def stepsOf (plan : TrackPlan) (nodeId : Text) : List SubIssueRow :=
  (plan.subIssues.filter (·.nodeId = nodeId)).mergeSort fun a b => a.step ≤ b.step

def subIssueLine (tracking : TrackingRefs) (sub : SubIssueRow) : Option Text :=
  let key := stepKey sub.nodeId sub.step
  (linkAttrs (lookup tracking.refs.linearSteps key)
    (lookup tracking.refs.notionSteps key)).map fun links =>
    js "\t\t<SUBISSUE step=\"" ++ ofNat sub.step ++ js "\"" ++ links ++ js ">" ++
      escapeXml (stripNodePrefix sub.item sub.nodeId) ++ js "</SUBISSUE>"

def issueLines (plan : TrackPlan) (tracking : TrackingRefs) (issue : IssueRow) :
    Option (List Text) :=
  (linkAttrs (lookup tracking.refs.linearNodes issue.nodeId)
    (lookup tracking.refs.notionNodes issue.nodeId)).bind fun links =>
  ((stepsOf plan issue.nodeId).mapM (subIssueLine tracking)).map fun subs =>
    (js "\t<ISSUE node=\"" ++ escapeXml issue.nodeId ++ js "\"" ++ links ++ js ">" ++
      escapeXml issue.item) :: (subs ++ [js "\t</ISSUE>"])

def headLine (tracking : TrackingRefs) : Text :=
  js "<ISSUES graphId=\"" ++ escapeXml tracking.graphId ++ js "\" status=\"" ++
    escapeXml (statusText tracking.status) ++ js "\"" ++
    attr (js "notionTaskUrl") tracking.refs.taskUrl ++ js ">"

def issuesBlock (plan : TrackPlan) (tracking : TrackingRefs) : Option Text :=
  (plan.issues.mapM (issueLines plan tracking)).map fun issues =>
    join (js "\n") (headLine tracking :: (issues.flatten ++ [js "</ISSUES>"]))

/-- `[^"]*"`: what follows the next quote. -/
def throughQuote (t : Text) : Option Text :=
  match t.dropWhile (· ≠ 0x22) with
  | [] => none
  | _ :: rest => some rest

/-- What follows the first place of a pattern. -/
def afterFirst (pattern : Text) : Text → Option Text
  | [] => none
  | u :: rest =>
    if pattern.isPrefixOf (u :: rest) then some ((u :: rest).drop pattern.length)
    else afterFirst pattern rest

/-- `[ \t]` -/
def isBlank (u : UInt16) : Bool := u = 0x20 || u = 0x09

def issuesOpen : Text := js "<ISSUES graphId=\""

def issuesClose : Text := js "</ISSUES>"

/-- `\n?[ \t]*` -/
def dropLead : Text → Text
  | [] => []
  | u :: rest => if u = 0x0A then rest.dropWhile isBlank else (u :: rest).dropWhile isBlank

/-- `ISSUES_BLOCK_RE` -/
def issuesFound (t : Text) : Nat :=
  if issuesOpen.isPrefixOf (dropLead t) then
    match (throughQuote ((dropLead t).drop issuesOpen.length)).bind (afterFirst issuesClose) with
    | some rest => t.length - rest.length
    | none => 0
  else 0

def trackNames : List Text := [js "issue=\"", js "issueUrl=\"", js "notionUrl=\""]

/-- `TRACK_ATTR_RE` -/
def trackFound : Text → Nat
  | [] => 0
  | u :: rest =>
    if isSpace u then
      match trackNames.find? (·.isPrefixOf rest) with
      | some name =>
        match throughQuote (rest.drop name.length) with
        | some after => (u :: rest).length - after.length
        | none => 0
      | none => 0
    else 0

/-- `ID_ATTR_RE`, its group -/
def idOf : Text → Option Text
  | [] => none
  | u :: rest =>
    if isSpace u ∧ (js "id=\"").isPrefixOf rest ∧ 0x22 ∈ rest.drop 4 then
      some ((rest.drop 4).takeWhile (· ≠ 0x22))
    else idOf rest

def nodeOpen : Text := js "<NODE"

/-- The shortest text in front of `\s*\/?` at the end. -/
def attrsOf (content : Text) : Text :=
  (if content.getLast? = some 0x2F then content.dropLast else content).rdropWhile isSpace

/-- `NODE_TAG_RE`, its two groups -/
def nodeTag (t : Text) : Option (Text × Text) :=
  if nodeOpen.isPrefixOf t then
    let rest := t.drop nodeOpen.length
    if rest.head?.any isWord then none
    else if 0x3E ∈ rest then
      let content := rest.takeWhile (· ≠ 0x3E)
      some (attrsOf content, content.drop (attrsOf content).length)
    else none
  else none

/-- The callback on a tag; `extra` gives the attributes for an id. -/
def nodeReader (extra : Text → Option Text) : Reader := fun u rest =>
  match nodeTag (u :: rest) with
  | none => some ([u], 0)
  | some (attrs, close) =>
    let whole := nodeOpen ++ attrs ++ close ++ js ">"
    match idOf attrs with
    | none => some (whole, whole.length - 1)
    | some id =>
      (extra id).map fun added =>
        (nodeOpen ++ erase trackFound attrs ++ added ++ close ++ js ">", whole.length - 1)

/-- The attributes that the tag of a node gains. -/
def extraOf (tracking : TrackingRefs) (id : Text) : Option Text :=
  let ref := lookup tracking.refs.linearNodes id
  (urlAttr (js "notionUrl") (lookup tracking.refs.notionNodes id)).map fun notion =>
    attr (js "issue") ref.identifier ++ attr (js "issueUrl") ref.url ++ notion

def GRAPH_CLOSE : Text := js "</GRAPH_OF_THOUGHT>"

def graphOpen : Text := js "<GRAPH_OF_THOUGHT"

def slice (t : Text) (start stop : Nat) : Text := (t.take stop).drop start

/-- Where the last graph starts, given where it closes. -/
def graphStart (stripped : Text) (graphEnd : Nat) : Nat :=
  (lastIndexFrom graphOpen stripped graphEnd).getD graphEnd

def injectTrackingXml (xml : Text) (plan : TrackPlan) (tracking : TrackingRefs) : Option Text :=
  let stripped := erase issuesFound xml
  (issuesBlock plan tracking).bind fun block =>
    match lastIndexFrom GRAPH_CLOSE stripped stripped.length with
    | some graphEnd =>
      let start := graphStart stripped graphEnd
      let stop := graphEnd + GRAPH_CLOSE.length
      (unescape (nodeReader (extraOf tracking)) (slice stripped start stop)).map fun graph =>
        stripped.take start ++ graph ++ js "\n" ++ block ++ stripped.drop stop
    | none =>
      match lastIndexFrom (js "</") stripped stripped.length with
      | none => some (stripped ++ js "\n" ++ block)
      | some rootClose =>
        some ((stripped.take rootClose).rdropWhile (· = 0x0A) ++ js "\n" ++ block ++ js "\n" ++
          stripped.drop rootClose)

def stripTrackingXml (xml : Text) : Option Text :=
  let stripped := erase issuesFound xml
  match lastIndexFrom GRAPH_CLOSE stripped stripped.length with
  | none => some stripped
  | some graphEnd =>
    let start := graphStart stripped graphEnd
    let stop := graphEnd + GRAPH_CLOSE.length
    (unescape (nodeReader fun _ => some []) (slice stripped start stop)).map fun graph =>
      stripped.take start ++ graph ++ stripped.drop stop

end Ultrathink.Source.Track.Render
