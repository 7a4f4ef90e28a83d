import Ultrathink.Library.Regex
import Ultrathink.Library.Search

/-!
# Skill scaffolds (`uplift/skill.ts`)

`parseSkillScaffold`: which skill a host expanded into a prompt, and what the user typed
beside it. The markers are sentences that Omp and Hermes write.
-/

namespace Ultrathink.Source.Uplift.Skill

open Library JsText Regex Search

inductive Origin where
  | omp
  | hermes
  | hermesBundle
  deriving DecidableEq

structure SkillInvocation where
  name : Text
  instruction : Option Text
  summary : Option Text
  source : Origin
  deriving DecidableEq

def newline : UInt16 := 0x0A

def doubleQuote : UInt16 := 0x22

def summaryMax : Nat := 600

/-- `OMP_PREFIX_RE` is this, a name and `ompTail`. -/
def ompHead : Text := js "[IMPORTANT: User invoked the \""

def ompTail : Text := js "\" skill; follow its instructions. Full skill below.]"

def hermesHead : Text := js "[IMPORTANT: The user has invoked the \""

def hermesSingleTail : Text :=
  js "\" skill, indicating they want you to follow its instructions. The full skill content is loaded below.]"

def hermesInstruction : Text :=
  js "The user has provided the following instruction alongside the skill invocation: "

def hermesRuntime : Text := js "\n\n[Runtime note:"

def bundleMark : Text := js " skill bundle,"

def bundleInstruction : Text := js "\nUser instruction: "

def bundleEnd : Text := js "\n\n[Loaded as part of the "

def ompDir : Text := js "\n[Skill directory: "

def ompUser : Text := js "\nUser: "

/-- `text.replace(/\s+/g, " ")` -/
def collapseRuns : Text → Text
  | [] => []
  | u :: rest =>
    if isSpace u then
      if (rest.head?.map isSpace).getD false then collapseRuns rest else 0x20 :: collapseRuns rest
    else u :: collapseRuns rest

def collapse (text : Text) : Option Text :=
  let flat := trim (collapseRuns text)
  if flat = [] then none
  else if summaryMax < flat.length then
    some ((flat.take (summaryMax - 1)).rdropWhile isSpace ++ js "…")
  else some flat

def nonEmpty (text : Text) : Option Text :=
  let trimmed := trim text
  if trimmed = [] then none else some trimmed

/-- `<objective>([\s\S]*?)<\/objective>` under the `i` flag. -/
def objectiveRe : Expr :=
  .seq (literal true (js "<objective>"))
    (.seq (.group 1 (.many false (.one fun _ => true))) (literal true (js "</objective>")))

def lineEndRe : Expr := .seq (.alt (.one fun u => u = 0x0D) .empty) (.one fun u => u = newline)

/-- `\r?\n\s*\r?\n` -/
def blankLineRe : Expr := .seq lineEndRe (.seq (.many true (.one isSpace)) lineEndRe)

/-- `text.split(e)` of an expression that matches no empty text; each round reads on, so
the units bound the rounds. -/
def splitBy (e : Expr) : Nat → Text → List Text
  | 0, text => [text]
  | fuel + 1, text =>
    match exec e text with
    | none => [text]
    | some m => m.before :: splitBy e fuel m.after

def paragraphSummary (body : Text) : Option Text :=
  (((splitBy blankLineRe body.length body).map trim).find? fun trimmed =>
    trimmed ≠ [] && !(js "#").isPrefixOf trimmed).bind collapse

def bodySummary (body : Text) : Option Text :=
  match exec objectiveRe body with
  | none => paragraphSummary body
  | some objective => (collapse ((objective.group 1).getD [])).or (paragraphSummary body)

/-- `text.slice(start, stop)` -/
def slice (start : Nat) (stop : Option Nat) (text : Text) : Text :=
  match stop with
  | none => text.drop start
  | some stop => (text.take stop).drop start

/-- `text.indexOf(needle, start)` -/
def indexFrom (needle text : Text) (start : Nat) : Option Nat :=
  (indexOf needle (text.drop start)).map (· + start)

/-- `OMP_PREFIX_RE.exec(text)`: the name, and how much the match has read. -/
def ompPrefixExec (text : Text) : Option (Text × Nat) :=
  if ompHead.isPrefixOf text then
    let rest := text.drop ompHead.length
    let name := rest.takeWhile (· ≠ doubleQuote)
    if name ≠ [] ∧ ompTail.isPrefixOf (rest.drop name.length) then
      some (name, ompHead.length + name.length + ompTail.length)
    else none
  else none

/-- `\n---\s*$` -/
def ruleRe : Expr :=
  .seq (literal false (js "\n---")) (.seq (.many true (.one isSpace)) .atEnd)

def ompInstruction (text : Text) : Option Text :=
  (lastIndexOf ompDir text).bind fun dirAt =>
    (indexFrom ompUser text (dirAt + ompDir.length)).bind fun userAt =>
      nonEmpty (text.drop (userAt + ompUser.length))

def ompInvocation (text name : Text) (read : Nat) : SkillInvocation :=
  let body := replaceFirst ruleRe (slice read (lastIndexOf ompDir text) text) []
  ⟨name, ompInstruction text, bodySummary body, .omp⟩

/-- The user's instruction precedes the first loaded skill. -/
def bundleInvocation (text name header : Text) : SkillInvocation :=
  let loadedAt := indexOf bundleEnd text
  match (indexOf bundleInstruction text).filter fun at_ => loadedAt.all (at_ < ·) with
  | some at_ =>
    ⟨name, nonEmpty (slice (at_ + bundleInstruction.length) loadedAt text),
      bodySummary (slice header.length (some at_) text), .hermesBundle⟩
  | none => ⟨name, none, bodySummary (text.drop header.length), .hermesBundle⟩

def singleInvocation (text name : Text) (bodyStart : Nat) : SkillInvocation :=
  match (lastIndexOf hermesInstruction text).filter (bodyStart ≤ ·) with
  | some at_ =>
    let rest := text.drop (at_ + hermesInstruction.length)
    ⟨name, nonEmpty (slice 0 (indexOf hermesRuntime rest) rest),
      bodySummary (slice bodyStart (some at_) text), .hermes⟩
  | none => ⟨name, none, bodySummary (text.drop bodyStart), .hermes⟩

def parseSkillScaffold (prompt : Text) : Option SkillInvocation :=
  let text := prompt.dropWhile isSpace
  match ompPrefixExec text with
  | some (name, read) => some (ompInvocation text name read)
  | none =>
    if !hermesHead.isPrefixOf text then none
    else
      match indexFrom [doubleQuote] text hermesHead.length with
      | none => none
      | some nameEnd =>
        let name := slice hermesHead.length (some nameEnd) text
        let header := text.takeWhile (· ≠ newline)
        if includes header bundleMark then some (bundleInvocation text name header)
        else if !hermesSingleTail.isPrefixOf (text.drop nameEnd) then none
        else some (singleInvocation text name (nameEnd + hermesSingleTail.length))

/-- A skill as the user invoked it. -/
structure Invocation where
  name : Text
  quoteFree : doubleQuote ∉ name
  dir : Text
  dirLine : newline ∉ dir
  instruction : Option Text

def ompResolve : Text :=
  js "]\nResolve relative paths in this skill against the directory above."

def ompTyped : Option Text → Text
  | none => []
  | some instruction => ompUser ++ instruction

def ompScaffold (x : Invocation) (body : Text) : Text :=
  (ompHead ++ (x.name ++ (ompTail ++ (js "\n\n" ++ (body ++ js "\n\n---\n"))))) ++
    (ompDir ++ (x.dir ++ (ompResolve ++ ompTyped x.instruction)))

def runtimeNote (note : Bool) : Text :=
  if note then hermesRuntime ++ js " tools are available]" else []

def hermesTyped (note : Bool) : Option Text → Text
  | none => runtimeNote note
  | some instruction => js "\n\n" ++ (hermesInstruction ++ (instruction ++ runtimeNote note))

def hermesScaffold (note : Bool) (x : Invocation) (body : Text) : Text :=
  (hermesHead ++ (x.name ++ hermesSingleTail)) ++
    (js "\n\n" ++ (body ++ hermesTyped note x.instruction))

def bundleTail : Text :=
  js "\" skill bundle, indicating they want you to follow its instructions.]"

/-- A skill of the bundle, as it was loaded. -/
def loadedSkill (name body : Text) : Text := bundleEnd ++ (name ++ (js " bundle]\n" ++ body))

def bundleTyped : Option Text → Text
  | none => []
  | some instruction => js "\n" ++ (bundleInstruction ++ instruction)

def bundleScaffold (x : Invocation) (first second : Text) : Text :=
  (hermesHead ++ (x.name ++ bundleTail)) ++
    (bundleTyped x.instruction ++ (loadedSkill x.name first ++ loadedSkill x.name second))

inductive Host where
  | omp
  | hermes (note : Bool)
  | hermesBundle

/-- The prompt that a host makes of the skill; only a bundle has a second body. -/
def scaffold (host : Host) (x : Invocation) (first second : Text) : Text :=
  match host with
  | .omp => ompScaffold x first
  | .hermes note => hermesScaffold note x first
  | .hermesBundle => bundleScaffold x first second

/-- What the texts of the parser and of the hosts hold. -/
structure Markers : Prop where
  ompTail_head : ompTail.head? = some doubleQuote
  hermes_long : (hermesHead.take 13).length ≤ ompHead.length
  hermes_other : ¬hermesHead.take 13 <+: ompHead
  ompHead_bracket : ompHead.head? = some 0x5B
  hermesHead_bracket : hermesHead.head? = some 0x5B
  ompUser_head : ompUser.head? = some newline
  ompDir_head : ompDir.head? = some newline
  resolve_user : apart ompUser ompResolve = true
  resolve_dir : apart ompDir ompResolve = true
  user_dir : apart ompDir ompUser = true
  ompDir_alone : Unbordered ompDir
  ompUser_alone : Unbordered ompUser
  ompDir_heavy : ompDir.any (!isSpace ·) = true
  hermesHead_line : newline ∉ hermesHead
  omp_long : ompHead.length ≤ hermesHead.length
  omp_other : ¬ompHead <+: hermesHead
  quote_alone : Unbordered [doubleQuote]
  hermesInstruction_alone : Unbordered hermesInstruction
  hermesRuntime_alone : Unbordered hermesRuntime
  mark_unquoted : doubleQuote ∉ bundleMark
  hermesHead_quote : hermesHead = hermesHead.dropLast ++ [doubleQuote]
  hermesHead_unmarked : indexOf bundleMark hermesHead.dropLast = none
  mark_some : bundleMark ≠ []
  note_head : (runtimeNote true).head? = some newline
  instruction_line : newline ∉ hermesInstruction
  note_free : apart hermesInstruction (runtimeNote true).tail = true
  single_head : hermesSingleTail.head? = some doubleQuote
  single_line : newline ∉ hermesSingleTail
  single_unmarked : apart bundleMark hermesSingleTail = true
  gap_head : (js "\n\n").head? = some newline
  gap_instruction : apart hermesInstruction (js "\n\n") = true
  decoy_instruction : apart hermesInstruction (js "x") = true
  decoy_runtime : apart hermesRuntime (js "x") = true
  decoy : nonEmpty (js "x") ≠ none ∧ nonEmpty (js "x") ≠ nonEmpty (js "y")
  instruction_heavy : hermesInstruction.any (!isSpace ·) = true
  runtime_heavy : hermesRuntime.any (!isSpace ·) = true
  bundleInstruction_alone : Unbordered bundleInstruction
  bundleEnd_alone : Unbordered bundleEnd
  bundleInstruction_head : bundleInstruction.head? = some newline
  bundleEnd_head : bundleEnd.head? = some newline
  bundleTail_head : bundleTail.head? = some doubleQuote
  bundleTail_line : newline ∉ bundleTail
  bundleTail_marked : includes bundleTail bundleMark = true
  line_head : (js "\n").head? = some newline
  line_instruction : indexOf bundleInstruction (js "\n") = none
  line_end : apart bundleEnd (js "\n" ++ bundleInstruction) = true
  gap_bundle : indexOf bundleInstruction (js "\n\n") = none
  gap_end : apart bundleEnd (js "\n\n" ++ bundleInstruction) = true
  bundleEnd_heavy : bundleEnd.any (!isSpace ·) = true
  decoy_end : apart bundleEnd (js "x") = true ∧ apart bundleEnd (js "y") = true

theorem markers : Markers := by
  constructor <;> decide

end Ultrathink.Source.Uplift.Skill
