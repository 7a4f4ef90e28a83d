import Ultrathink.Library.JsonWrite
import Ultrathink.Library.Search
import Ultrathink.Library.UtcDate
import Ultrathink.Source.Teach.Store

/-!
# The Hindsight document of a moment

`sanitizeTag`, `tagsFor`, `metadataFor`, `parseContent` and `lessonFromHit` of
`teach/mapping.ts`. `toLowerCase` is followed as far as a tag can tell: besides the letters of
ASCII only the Kelvin sign and the dotted capital I become characters that a tag keeps.
-/

namespace Ultrathink.Source.Teach

open Library JsText Search

def MomentKind.text : MomentKind → Text
  | .bug => js "bug"
  | .pitfall => js "pitfall"
  | .pattern => js "pattern"
  | .decision => js "decision"
  | .playbook => js "playbook"

def MOMENT_KINDS : List MomentKind := [.bug, .pitfall, .pattern, .decision, .playbook]

def kindOf (text : Text) : Option MomentKind := MOMENT_KINDS.find? fun kind => kind.text = text

theorem kindOf_text (kind : MomentKind) : kindOf kind.text = some kind := by
  cases kind <;> decide

def MomentStatus.text : MomentStatus → Text
  | .candidate => js "candidate"
  | .confirmed => js "confirmed"
  | .promoted => js "promoted"
  | .superseded => js "superseded"

def MomentOrigin.text : MomentOrigin → Text
  | .explicit => js "explicit"
  | .observe => js "observe"
  | .imported => js "import"

/-- The tables of the host. -/
structure Unicode where
  toLowerCase : Text → Text
  /-- `[\p{L}\p{N}]`, a code point as its units. -/
  isLetterOrNumber : Text → Bool

/-- The code points of a string, each as its units. -/
def characters : Text → List Text
  | [] => []
  | [u] => [[u]]
  | u :: v :: rest =>
    if isHighSurrogate u && isLowSurrogate v then [u, v] :: characters rest
    else [u] :: characters (v :: rest)

def MAX_TAG_CHARS : Nat := 40

def RESERVED_PREFIXES : List Text := [js "project:", js "host:", js "kind:", js "status:"]

def dash : UInt16 := 0x2D

/-- `[a-z0-9:_.-]` -/
def isTagChar (u : UInt16) : Bool :=
  isLowerLetter u || isDigit u || u = 0x3A || u = 0x5F || u = 0x2E || u = dash

def tagLower (u : UInt16) : Text :=
  if isUpperLetter u then [u + 0x20]
  else if u = 0x212A then [0x6B]
  else if u = 0x0130 then [0x69, 0x0307]
  else [u]

/-- `replace(/[^a-z0-9:_.-]+/g, "-")`; `inside` such a run its dash is written already. -/
def dashRuns (inside : Bool) : Text → Text
  | [] => []
  | u :: rest =>
    if isTagChar u then u :: dashRuns false rest
    else if inside then dashRuns true rest
    else dash :: dashRuns true rest

def dropDashes (t : Text) : Text := t.rdropWhile (· = dash)

def sanitizeTag (tag : Text) : Text :=
  let dashed := dashRuns false (tag.flatMap tagLower)
  dropDashes ((dropDashes (dashed.dropWhile (· = dash))).take MAX_TAG_CHARS)

def isReserved (tag : Text) : Bool := RESERVED_PREFIXES.any fun reserved => reserved.isPrefixOf tag

def baseTags (moment : TeachableMoment) : List Text :=
  [js "ultrathink", js "teachable", js "project:" ++ moment.project, js "host:" ++ moment.host,
    js "kind:" ++ moment.kind.text, js "status:" ++ moment.status.text]

@[irreducible] def tagsFor (moment : TeachableMoment) : List Text :=
  (((baseTags moment).map sanitizeTag).filter (fun clean => clean ≠ []) ++
    (moment.tags.map sanitizeTag).filter (fun clean => clean ≠ [] ∧ isReserved clean = false)).eraseDups

def pad (width n : Nat) : Text := List.replicate (width - (ofNat n).length) 0x30 ++ ofNat n

/-- `new Date(t).toISOString()` -/
def isoText (t : Nat) : Text :=
  let year := (UtcDate.getUTCFullYear t).toNat
  (if year ≤ 9999 then pad 4 year else js "+" ++ pad 6 year) ++
    js "-" ++ pad 2 ((UtcDate.getUTCMonth t).toNat + 1) ++ js "-" ++ pad 2 (UtcDate.getUTCDate t).toNat ++
    js "T" ++ pad 2 (UtcDate.getUTCHours t).toNat ++ js ":" ++ pad 2 (UtcDate.getUTCMinutes t).toNat ++
    js ":" ++ pad 2 (UtcDate.getUTCSeconds t).toNat ++ js "." ++
    pad 3 (UtcDate.getUTCMilliseconds t).toNat ++ js "Z"

def rationalText (q : ℚ) : Text :=
  JsonWrite.numberText (JsNumber.ofFraction (q < 0) (q.num.natAbs * JsNumber.one) q.den)

def listText (items : List Text) : Text := JsonWrite.stringify (.arr (items.map .str))

def metadataFor (moment : TeachableMoment) : List (Text × Text) :=
  [(js "tm_id", moment.id), (js "schema", js "tm/2"), (js "name", moment.name),
    (js "kind", moment.kind.text), (js "status", moment.status.text),
    (js "origin", moment.origin.text), (js "project", moment.project), (js "host", moment.host),
    (js "confidence", rationalText moment.confidence), (js "occurrences", ofNat moment.occurrences),
    (js "created_at", isoText moment.createdAt), (js "last_seen_at", isoText moment.lastSeenAt),
    (js "source_phase", moment.sourcePhase), (js "source_artifacts", listText moment.sourceArtifacts),
    (js "related_ids", listText moment.relatedIds)]

structure RecallHit where
  text : Text
  documentId : Option Text
  tags : List Text
  metadata : List (Text × Text)
  mentionedAt : Option Text

inductive LessonSource where
  | hindsight
  | local_
  deriving DecidableEq

structure RecalledLesson where
  id : Text
  name : Text
  description : Text
  body : Text
  kind : MomentKind
  project : Text
  host : Text
  occurrences : Nat
  createdAt : Text
  source : LessonSource
  deriving DecidableEq

/-- `^[A-Za-z0-9_.-]{1,80}$` -/
def isMomentId (id : Text) : Bool :=
  id ≠ [] && id.length ≤ 80 && id.all fun u => isWord u || u = 0x2E || u = dash

/-- `a || b` on strings that may be undefined. -/
def orElse (a b : Option Text) : Option Text := (a.filter fun t => t ≠ []).or b

def field (metadata : List (Text × Text)) (name : Text) : Option Text :=
  (metadata.find? fun m => m.1 = name).map Prod.snd

def tagValue (tags : List Text) (namespace_ : Text) : Option Text :=
  ((tags.find? fun tag => namespace_.isPrefixOf tag).map fun tag => tag.drop namespace_.length).filter
    fun value => value ≠ []

def newline : UInt16 := 0x0A

/-- `replace(/\r\n/g, "\n")` -/
def joinLineEnds : Text → Text
  | [] => []
  | [u] => [u]
  | u :: v :: rest =>
    if u = 0x0D ∧ v = newline then newline :: joinLineEnds rest else u :: joinLineEnds (v :: rest)

/-- What the line end behind the name leaves: two line ends, one, or the end of the text. -/
def dropHeaderEnd : Text → Text
  | u :: v :: rest => if u = newline ∧ v = newline then rest else v :: rest
  | _ => []

structure Parsed where
  name : Option Text
  description : Text
  body : Text
  deriving DecidableEq

def parseContent (text : Text) : Parsed :=
  let clean := trim (joinLineEnds text)
  if (js "# ").isPrefixOf clean then
    let header := clean.drop 2
    let name := trim (header.takeWhile (· ≠ newline))
    let rest := dropHeaderEnd (header.dropWhile (· ≠ newline))
    match indexOf (js "\n\n") rest with
    | none => ⟨some name, [], trim rest⟩
    | some i => ⟨some name, trim (rest.take i), trim (rest.drop (i + 2))⟩
  else ⟨none, [], clean⟩

/-- `Number.parseInt(text, 10)` where it finds digits without a minus sign; a negative number is
refused as no number is. -/
def parseCount (text : Text) : Option Nat :=
  let start := text.dropWhile isSpace
  let unsigned := if start.head? = some 0x2B then start.drop 1 else start
  let digits := unsigned.takeWhile isDigit
  if digits = [] then none else some (JsNumber.valueOf digits)

/-- The lesson a Hindsight hit stands for. -/
def lessonFromHit (hit : RecallHit) : Option RecalledLesson :=
  let meta_ := field hit.metadata
  let fromDocument := (hit.documentId.filter fun id => (js "tm:").isPrefixOf id).map (List.drop 3)
  match orElse (meta_ (js "tm_id")) fromDocument with
  | none => none
  | some id =>
    if isMomentId id = false then none
    else if js "status:superseded" ∈ hit.tags ∨ meta_ (js "status") = some (js "superseded") then none
    else
      let parsed := parseContent hit.text
      let name := trim ((orElse (meta_ (js "name")) parsed.name).getD [])
      if name = [] then none
      else
        let kind := ((meta_ (js "kind")).bind kindOf).or ((tagValue hit.tags (js "kind:")).bind kindOf)
        let occurrences := ((meta_ (js "occurrences")).bind parseCount).getD 1
        some
          { id := id
            name := name
            description := parsed.description
            body := parsed.body
            kind := kind.getD .pitfall
            project := (orElse (meta_ (js "project")) (tagValue hit.tags (js "project:"))).getD (js "unknown")
            host := (orElse (meta_ (js "host")) (tagValue hit.tags (js "host:"))).getD (js "unknown")
            occurrences := if 1 ≤ occurrences then occurrences else 1
            createdAt := (orElse (meta_ (js "created_at")) hit.mentionedAt).getD []
            source := .hindsight }

/-- The hit for the document of a moment. -/
def hitOf (moment : TeachableMoment) (mentionedAt : Option Text) : RecallHit :=
  ⟨contentFor moment, some (documentIdFor moment.id), tagsFor moment, metadataFor moment, mentionedAt⟩

theorem hitOf_tags (moment : TeachableMoment) (mentionedAt : Option Text) :
    (hitOf moment mentionedAt).tags = tagsFor moment := rfl

end Ultrathink.Source.Teach
