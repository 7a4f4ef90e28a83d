import Ultrathink.Source.Teach.Capture
import Ultrathink.Source.Teach.Mapping
import Ultrathink.Source.Teach.Redact

/-!
# Moments from captures

`buildMoment` of `teach/capture.ts` with `projectOf` and `dedupeKeyFor` of `teach/mapping.ts`. The
input is what a caller parsed; the directories, the clock and the drawn identifier are arguments.
-/

namespace Ultrathink.Source.Teach

open Library JsText JsNumber JsonText

structure CaptureInput where
  name : Option Value
  description : Option Value
  body : Option Value
  kind : Option Value
  tags : Option Value
  sourcePhase : Option Value
  sourceArtifacts : Option Value
  relatedIds : Option Value
  confidence : Option Value
  origin : Option Value
  supersedes : Option Value
  status : Option Value

/-- The roots that `gitRootsOf` finds. -/
structure GitRoots where
  worktree : Text
  primary : Text

/-- What a capture takes from its surroundings: `cwd` resolved, `home` of the context or else of the
process, `id` as drawn by `randomUUID`. -/
structure CaptureContext where
  unicode : Unicode
  host : Text
  cwd : Text
  roots : Option GitRoots
  home : Option Text
  now : Nat
  id : Text

/-- The last segment of a resolved path. -/
def basename (path : Text) : Text := (segmentsOf [] path).getLast?.getD []

def dropGit (name : Text) : Text :=
  if (js ".git").isSuffixOf name then name.take (name.length - 4) else name

def projectOf (ctx : CaptureContext) : Text :=
  let directory := (ctx.roots.map GitRoots.primary).getD ctx.cwd
  let name := ctx.unicode.toLowerCase (dropGit (basename directory))
  if name = [] then js "unknown" else name

/-- `replace(/[^\p{L}\p{N}]+/gu, " ")` -/
def wordRuns (unicode : Unicode) (inside : Bool) : List Text → Text
  | [] => []
  | c :: rest =>
    if unicode.isLetterOrNumber c then c ++ wordRuns unicode false rest
    else if inside then wordRuns unicode true rest
    else 0x20 :: wordRuns unicode true rest

def normalizeName (unicode : Unicode) (name : Text) : Text :=
  trim (wordRuns unicode false (characters (unicode.toLowerCase name)))

def dedupeKeyFor (unicode : Unicode) (project : Text) (kind : MomentKind) (name : Text) : Text :=
  (Sha256.sha256Hex (toUtf8 (project ++ js "|" ++ kind.text ++ js "|" ++ normalizeName unicode name))).take 32

def MAX_NAME_CHARS : Nat := 120

def MAX_DESCRIPTION_CHARS : Nat := 300

def MAX_BODY_CHARS : Nat := 2400

def trimEnd (t : Text) : Text := t.rdropWhile isSpace

def oneLine (text : Text) (max : Nat) : Text := trimEnd ((trim (blankRuns isSpace false text)).take max)

/-- `replace(/\r\n?/g, "\n")` -/
def plainLineEnds : Text → Text
  | [] => []
  | [u] => if u = 0x0D then [newline] else [u]
  | u :: v :: rest =>
    if u = 0x0D then if v = newline then newline :: plainLineEnds rest else newline :: plainLineEnds (v :: rest)
    else u :: plainLineEnds (v :: rest)

def bodyOf (text : Text) : Text := trimEnd ((trim (plainLineEnds text)).take MAX_BODY_CHARS)

/-- `typeof value === "string" ? value : ""` -/
def textOr (value : Option Value) : Text :=
  match value with
  | some (.str s) => s
  | _ => []

def itemsOf (value : Option Value) : List Value :=
  match value with
  | some (.arr items) => items
  | _ => []

def stringItem : Value → Option Text
  | .str s => some s
  | _ => none

def MOMENT_ORIGINS : List MomentOrigin := [.explicit, .observe, .imported]

def originOf (text : Text) : Option MomentOrigin := MOMENT_ORIGINS.find? fun origin => origin.text = text

/-- `candidate` and `confirmed` are what a caller may ask for. -/
def statusOf (text : Text) : Option MomentStatus :=
  [MomentStatus.candidate, .confirmed].find? fun status => status.text = text

/-- A string by the names that are allowed for it. -/
def named {α : Type} (of : Text → Option α) (value : Option Value) : Option α :=
  match value with
  | some (.str s) => of s
  | _ => none

/-- A finite number. -/
def finiteOf (value : Option Value) : Option ℚ :=
  match value with
  | some (.num (.finite x)) => some ((if x.negative then -1 else 1) * (x.units : ℚ) / one)
  | _ => none

def isValidId (value : Value) : Bool :=
  match value with
  | .str s => isMomentId s && s ≠ js "." && s ≠ js ".."
  | _ => false

/-- The first rule that the input breaks. -/
def inputError (input : CaptureInput) : Option Text :=
  if trim (textOr input.name) = [] then some (js "name is required")
  else if trim (textOr input.body) = [] then some (js "body is required")
  else if input.kind.isSome && (named kindOf input.kind).isNone then
    some (js "kind must be one of: " ++ join (js ", ") (MOMENT_KINDS.map MomentKind.text))
  else if input.origin.isSome && (named originOf input.origin).isNone then
    some (js "origin must be one of: " ++ join (js ", ") (MOMENT_ORIGINS.map MomentOrigin.text))
  else if input.status.isSome && (named statusOf input.status).isNone then
    some (js "status must be candidate or confirmed")
  else if input.confidence.isSome && (finiteOf input.confidence).isNone then
    some (js "confidence must be a number")
  else if input.supersedes.any fun id => !isValidId id then some (js "supersedes must be a moment id")
  else none

def redactOptions (ctx : CaptureContext) : RedactOptions :=
  ⟨ctx.home, some ((ctx.roots.map GitRoots.worktree).getD ctx.cwd)⟩

/-- The texts of a list, redacted, on one line each and no longer than `max`. -/
def listOf (ctx : CaptureContext) (items : Option Value) (max : Nat) : List Text :=
  unique ((((itemsOf items).filterMap stringItem).map fun item =>
    oneLine (redactText item (redactOptions ctx)) max).filter fun t => t ≠ []) maxListItems

def momentFrom (input : CaptureInput) (ctx : CaptureContext) : TeachableMoment :=
  let redacted := fun value => redactText (textOr value) (redactOptions ctx)
  let kind := (named kindOf input.kind).getD .pitfall
  let origin := (named originOf input.origin).getD .explicit
  let name := oneLine (redacted input.name) MAX_NAME_CHARS
  let project := projectOf ctx
  { id := ctx.id
    name := name
    description := oneLine (redacted input.description) MAX_DESCRIPTION_CHARS
    body := bodyOf (redacted input.body)
    sourcePhase := oneLine (redacted input.sourcePhase) 120
    sourceArtifacts := listOf ctx input.sourceArtifacts 300
    createdAt := ctx.now
    tags := (listOf ctx input.tags 80).take maxTags
    relatedIds := unique (((itemsOf input.relatedIds).filter isValidId).filterMap stringItem) maxListItems
    kind := kind
    status := (named statusOf input.status).getD (if origin = .observe then .candidate else .confirmed)
    origin := origin
    project := project
    host := ctx.host
    confidence := min 1 (max 0 ((finiteOf input.confidence).getD (if origin = .observe then 1 / 2 else 1)))
    occurrences := 1
    lastSeenAt := ctx.now
    dedupeKey := dedupeKeyFor ctx.unicode project kind name
    recalled := 0
    supersedes := (input.supersedes.filter isValidId).bind stringItem
    retained := none }

/-- The moment a capture stands for; only the strict form refuses. -/
def buildMoment (input : CaptureInput) (ctx : CaptureContext) (strict : Bool) : Except Text TeachableMoment :=
  match (if strict then inputError input else none) with
  | some message => .error message
  | none => .ok (momentFrom input ctx)

end Ultrathink.Source.Teach
