import Ultrathink.Library.JsonText
import Ultrathink.Library.Search

/-!
# The ship assessment

`ship/assess.ts`: the deterministic rules, the judge and its verdict, and the Jev decision
that runs beside it in both modes. The judge's reply and the outcome of the decision are
inputs; of the state that Jev is sent this keeps the patch. A number is written by
parameters of the model.
-/

namespace Ultrathink.Source.Ship.Assess

open Library JsText JsNumber JsonText Search

structure GitSignals where
  base : Option Text
  onBase : Bool
  ahead : Nat
  dirty : List Text

structure Verification where
  phase : Text
  status : Text

structure MilestoneEvidence where
  version : Text
  verifications : List Verification

structure GsdSignals where
  phaseCount : Nat
  completedPhases : Nat
  trusted : Bool
  verification : Option Verification
  toolsMissing : Bool
  toolsTracked : Bool
  nodeMissing : Bool
  milestone : Option MilestoneEvidence

structure ShipSignals where
  git : GitSignals
  gsd : Option GsdSignals

def gapIf (condition : Bool) (text : Text) : List Text := if condition then [text] else []

def passed (v : Verification) : Bool := v.status = js "passed"

def gitGaps (git : GitSignals) : List Text :=
  gapIf git.onBase (js "working on the default branch; ship needs a feature branch") ++
    gapIf (git.ahead = 0 && git.dirty.isEmpty)
      (js "nothing to ship: no commits ahead of " ++ git.base.getD (js "base")) ++
    gapIf (!git.dirty.isEmpty)
      (js "uncommitted tracked changes: " ++ join (js ", ") git.dirty ++
        (if git.dirty.any (js ".planning/").isPrefixOf then
          js "; uncommitted .planning/ changes (another session may be planning here)" else []) ++
        js "; commit your work first")

def milestoneGaps (milestone : MilestoneEvidence) : List Text :=
  gapIf milestone.verifications.isEmpty
      (js "archived milestone " ++ milestone.version ++ js " has no phase verifications") ++
    milestone.verifications.flatMap fun v =>
      gapIf (!passed v)
        (js "archived milestone " ++ milestone.version ++ js ": " ++ v.phase ++
          js " verification is " ++ v.status)

def gsdGaps (gsd : GsdSignals) : List Text :=
  gapIf (!gsd.trusted)
      (js ".planning/ is neither tracked nor ignored (possibly stray planning written by another tool); commit or remove it before shipping") ++
    gapIf gsd.toolsMissing
      (js "GSD roadmap found but gsd-tools.cjs was not found; set GSD_TOOLS or rerun assess with --ignore-gsd") ++
    gapIf (gsd.toolsMissing && gsd.toolsTracked)
      (js "a gsd-tools.cjs committed in this repository was not run (repository code is never executed); install GSD outside the repository or set GSD_TOOLS") ++
    gapIf gsd.nodeMissing
      (js "GSD roadmap found but node is not on PATH, so gsd-tools.cjs could not run; install Node.js or rerun assess with --ignore-gsd") ++
    gapIf (gsd.completedPhases < gsd.phaseCount)
      (js "GSD roadmap incomplete: " ++ digits gsd.completedPhases ++ js "/" ++
        digits gsd.phaseCount ++ js " phases") ++
    gsd.verification.toList.flatMap (fun v =>
      gapIf (!passed v) (js "latest GSD verification is " ++ v.status)) ++
    gsd.milestone.toList.flatMap milestoneGaps

def ruleGaps (signals : ShipSignals) : List Text :=
  gitGaps signals.git ++ signals.gsd.toList.flatMap gsdGaps

structure JudgeVerdict where
  done : Bool
  confidence : Number
  summary : Text
  gaps : List Text

def number : Option (Json Number) → Number
  | some (.num n) => n
  | _ => JsNumber.ofNat 0

def text : Option (Json Number) → Text
  | some (.str s) => s
  | _ => []

def texts : Option (Json Number) → List Text
  | some (.arr items) => items.filterMap fun
    | .str s => some s
    | _ => none
  | _ => []

/-- The verdict in an object whose `done` is a boolean. -/
def verdictOf (fields : List (Text × Json Number)) : Option JudgeVerdict :=
  match Json.field fields (js "done") with
  | some (.bool done) =>
    some ⟨done, number (Json.field fields (js "confidence")),
      text (Json.field fields (js "summary")), texts (Json.field fields (js "gaps"))⟩
  | _ => none

/-- `JSON.parse` of a slice and the check of `done`; a slice that does not parse has none. -/
def readVerdict (slice : Text) : Option JudgeVerdict :=
  match parse slice with
  | some (.obj fields) => verdictOf fields
  | _ => none

/-- How much is read from the opening brace until `depth` is zero again. -/
def objectEnd (depth : Int) (inString : Bool) : Text → Option Nat
  | [] => none
  | ch :: rest =>
    if inString then
      if ch = backslash then
        match rest with
        | [] => none
        | _ :: rest => (objectEnd depth true rest).map (· + 2)
      else (objectEnd depth (ch ≠ quote) rest).map (· + 1)
    else if ch = quote then (objectEnd depth true rest).map (· + 1)
    else if ch = openBrace then (objectEnd (depth + 1) false rest).map (· + 1)
    else if ch = closeBrace then
      if depth - 1 = 0 then some 1 else (objectEnd (depth - 1) false rest).map (· + 1)
    else (objectEnd depth false rest).map (· + 1)

/-- The verdict that begins at the first unit of the text. -/
def verdictHere (t : Text) : Option JudgeVerdict :=
  (objectEnd 0 false t).bind fun length => readVerdict (t.take length)

/-- Extracts the first balanced JSON object from free text. -/
def parseJudge : Text → Option JudgeVerdict
  | [] => none
  | ch :: rest =>
    if ch = openBrace then (verdictHere (ch :: rest)).or (parseJudge rest) else parseJudge rest

def shipPatchMax : Nat := 24000

def diffGit : Text := js "diff --git a/"

def newline : UInt16 := 0x0A

/-- The lines that `^` and `$` of a multiline expression see. -/
def linesOf (t : Text) : List Text := t.splitOnP isLineEnd

/-- `/^diff --git a\/(.*?) b\/(.*)$/m` -/
def headerOf (section_ : Text) : Option (Text × Text) :=
  (linesOf section_).findSome? fun line =>
    if diffGit.isPrefixOf line then
      let rest := line.drop diffGit.length
      (indexOf (js " b/") rest).map fun i => (rest.take i, rest.drop (i + 3))
    else none

def isLockfile (path : Text) : Bool :=
  (js ".lock").isSuffixOf path || (js ".lockb").isSuffixOf path ||
    (path = js "package-lock.json" || (js "/package-lock.json").isSuffixOf path) ||
    (path = js "pnpm-lock.yaml" || (js "/pnpm-lock.yaml").isSuffixOf path)

def isLockfileSection (section_ : Text) : Bool :=
  match headerOf section_ with
  | none => false
  | some (old, new) => isLockfile old || isLockfile new

def sectionStarts (patch : Text) : List Nat :=
  (List.range patch.length).filter fun i =>
    diffGit.isPrefixOf (patch.drop i) && (i = 0 || patch[i - 1]? = some newline)

def withoutLockfiles (patch : Text) : Text :=
  match sectionStarts patch with
  | [] => patch
  | first :: rest =>
    patch.take first ++
      ((first :: rest).zip (rest ++ [patch.length])).flatMap fun (start, stop) =>
        let section_ := (patch.take stop).drop start
        if isLockfileSection section_ then [] else section_

/-- The patch in the state, and whether it was cut. -/
def buildShipState (patch : Text) (patchTruncated : Bool) : Text × Bool :=
  let patch := withoutLockfiles patch
  let cut := shipPatchMax < patch.length
  (if cut then patch.take shipPatchMax else patch, patchTruncated || cut)

/-- `a <= b` -/
def atMost : Number → Number → Bool
  | .nan, _ => false
  | _, .nan => false
  | .infinity true, _ => true
  | _, .infinity false => true
  | .infinity false, _ => false
  | _, .infinity true => false
  | .finite a, .finite b =>
    (if a.negative then -(a.units : Int) else a.units) ≤
      if b.negative then -(b.units : Int) else b.units

def minConfidence : Number := ofDecimal false 7 (-1)

inductive JudgeMode where
  | gate | advisory
  deriving DecidableEq

inductive AssessmentSource where
  | llm | rules | jev
  deriving DecidableEq

inductive DecisionAction where
  | failOpen | veto | none | approve | reject | adviseVeto
  deriving DecidableEq

/-- `DecisionRecord`, with the fields that nothing here reads as they come. -/
structure DecisionRecord (ρ : Type) where
  rest : ρ
  action : DecisionAction
  threshold : Number

structure Assessment (ρ : Type) where
  done : Bool
  confidence : Number
  summary : Text
  gaps : List Text
  signals : ShipSignals
  source : AssessmentSource
  mode : JudgeMode
  /-- The verdict in advisory mode, with what kept it from being one. -/
  judge : Option (JudgeVerdict × Option Text)
  decision : Option (DecisionRecord ρ)
  at_ : Nat

/-- What the completer comes to: a reply, or the text of what it throws. -/
inductive Reply where
  | text (t : Text)
  | throws (reason : Text)

/-- What a decision comes to; `aborted` is a rejection. -/
inductive Outcome (ρ : Type) where
  | inactive
  | ok (p : Number) (record : DecisionRecord ρ)
  | error (record : DecisionRecord ρ)
  | aborted

structure Decisions (ρ : Type) where
  active : Bool
  shipVetoAtOrBelow : Number
  shipApproveAt : Number
  outcome : Outcome ρ

structure AssessInput (ρ : Type) where
  signals : ShipSignals
  patch : Option Text
  patchTruncated : Bool
  complete : Option Reply
  mode : Option JudgeMode
  decisions : Option (Decisions ρ)
  autoMerge : Option Bool
  now : Nat

/-- `formatP` and `String(n)`. -/
structure Format where
  formatP : Number → Text
  string : Number → Text

/-- A started decision and what its outcome is read against. -/
structure ShipDecision (ρ : Type) where
  outcome : Outcome ρ
  truncated : Bool
  veto : Number
  approve : Number

/-- The judge result, and the verdict when it was usable. -/
structure GateJudgement (ρ : Type) where
  assessment : Assessment ρ
  verdict : Option JudgeVerdict

section

variable {ρ : Type} (format : Format)

def startShipDecision (input : AssessInput ρ) : Option (ShipDecision ρ) :=
  input.decisions.bind fun decisions =>
    if decisions.active then
      some ⟨decisions.outcome, (buildShipState (input.patch.getD []) input.patchTruncated).2,
        decisions.shipVetoAtOrBelow, decisions.shipApproveAt⟩
    else none

def decided (record : DecisionRecord ρ) (action : DecisionAction) (threshold : Number) :
    DecisionRecord ρ :=
  { record with action, threshold }

/-- The verdict of a reply, or why there is none. -/
def verdictFrom : Reply → Except Text JudgeVerdict
  | .throws reason => .error reason
  | .text t =>
    match parseJudge t with
    | some verdict => .ok verdict
    | none => .error (js "judge reply was not parseable JSON")

def confident (verdict : JudgeVerdict) : Bool :=
  verdict.done && atMost minConfidence verdict.confidence

def judgeGate (input : AssessInput ρ) : GateJudgement ρ :=
  match input.complete with
  | none =>
    ⟨⟨true, ofDecimal false 5 (-1), js "deterministic checks passed", [], input.signals, .rules,
      .gate, none, none, input.now⟩, none⟩
  | some reply =>
    match verdictFrom reply with
    | .ok verdict =>
      let done := confident verdict
      let gaps :=
        if !done && verdict.done then
          verdict.gaps ++ [js "judge confidence " ++ format.string verdict.confidence ++
            js " below " ++ format.string minConfidence]
        else verdict.gaps
      ⟨⟨done, verdict.confidence, verdict.summary, gaps, input.signals, .llm, .gate, none, none,
        input.now⟩, some verdict⟩
    | .error reason =>
      let gap := js "assessment unavailable: " ++ reason
      ⟨⟨false, JsNumber.ofNat 0, gap, [gap], input.signals, .llm, .gate, none, none, input.now⟩,
        none⟩

def gateWithJev (judged : GateJudgement ρ) (jev : ShipDecision ρ) (autoMerge : Bool) :
    Option (Assessment ρ) :=
  let assessment := judged.assessment
  let vetoOnly := judged.verdict.isSome || autoMerge
  match jev.outcome with
  | .aborted => none
  | .inactive => some assessment
  | .error record =>
    some { assessment with
      decision := some (decided record .failOpen (if vetoOnly then jev.veto else jev.approve)) }
  | .ok p record =>
    if vetoOnly then
      match judged.verdict with
      | some verdict =>
        if assessment.done && atMost p jev.veto && !jev.truncated then
          let gap := js "Jev judged the change incomplete (P(complete) " ++ format.formatP p ++
            js ")"
          some { assessment with
            done := false
            summary := gap
            gaps := verdict.gaps ++ [gap]
            decision := some (decided record .veto jev.veto) }
        else some { assessment with decision := some (decided record .none jev.veto) }
      | none => some { assessment with decision := some (decided record .none jev.veto) }
    else if atMost jev.approve p then
      some ⟨true, p, js "Jev judged the change complete (P(complete) " ++ format.formatP p ++
        js ")", [], assessment.signals, .jev, .gate, none,
        some (decided record .approve jev.approve), assessment.at_⟩
    else
      let gap := js "Jev P(complete) " ++ format.formatP p ++ js " is below " ++
        format.string jev.approve
      some ⟨false, p, gap, [gap], assessment.signals, .jev, .gate, none,
        some (decided record .reject jev.approve), assessment.at_⟩

def assessAdvisory (input : AssessInput ρ) : Assessment ρ :=
  let failed (error : Text) : Option (JudgeVerdict × Option Text) :=
    some (⟨false, JsNumber.ofNat 0, [], []⟩, some error)
  match input.complete with
  | none =>
    ⟨true, ofDecimal false 5 (-1), js "deterministic checks passed (judge unavailable, advisory)",
      [], input.signals, .rules, .advisory, failed (js "no judge available"), none, input.now⟩
  | some reply =>
    match verdictFrom reply with
    | .ok verdict =>
      ⟨true, verdict.confidence, verdict.summary, [], input.signals, .llm, .advisory,
        some (verdict, none), none, input.now⟩
    | .error reason =>
      ⟨true, JsNumber.ofNat 0, js "deterministic checks passed; judge failed: " ++ reason, [],
        input.signals, .llm, .advisory, failed reason, none, input.now⟩

def adviseWithJev (assessment : Assessment ρ) (jev : ShipDecision ρ) : Option (Assessment ρ) :=
  match jev.outcome with
  | .aborted => none
  | .inactive => some assessment
  | .error record =>
    some { assessment with decision := some (decided record .failOpen jev.veto) }
  | .ok p record =>
    let action := if atMost p jev.veto && !jev.truncated then DecisionAction.adviseVeto else .none
    some { assessment with decision := some (decided record action jev.veto) }

/-- Absent where the caller aborts the decision. -/
def assessDone (input : AssessInput ρ) : Option (Assessment ρ) :=
  let mode := input.mode.getD .gate
  match ruleGaps input.signals with
  | gap :: gaps =>
    some ⟨false, JsNumber.ofNat 1, gap, gap :: gaps, input.signals, .rules, mode, none, none,
      input.now⟩
  | [] =>
    let jev := startShipDecision input
    match mode with
    | .advisory =>
      let assessment := assessAdvisory input
      match jev with
      | some jev => adviseWithJev assessment jev
      | none => some assessment
    | .gate =>
      let judged := judgeGate format input
      match jev with
      | some jev => gateWithJev format judged jev (input.autoMerge.getD false)
      | none => some judged.assessment

end

end Ultrathink.Source.Ship.Assess
