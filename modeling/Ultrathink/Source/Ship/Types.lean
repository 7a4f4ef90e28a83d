import Ultrathink.Library.Json
import Ultrathink.Source.Config.Types

/-!
# Ship records and the merge gate

The records of `ship/types.ts`, the gate of `ship/merge.ts` and the writers of
`ship/state.ts`. A record read back from the session file may be anything of its
type.
-/

namespace Ultrathink.Source.Ship

open Library JsText Source.Config

structure ReviewComment where
  path : Option Text
  line : Option ℚ
  body : Text
  severity : Option Text
  securityIssue : Option Bool
  threadId : Option Text

inductive ReviewSource where
  | pr | cli
deriving DecidableEq

inductive ReviewStatus where
  | completed | pending | unverified | timeout | failed | blocked
deriving DecidableEq

def ReviewStatus.text : ReviewStatus → Text
  | .completed => js "completed"
  | .pending => js "pending"
  | .unverified => js "unverified"
  | .timeout => js "timeout"
  | .failed => js "failed"
  | .blocked => js "blocked"

structure ReviewResult where
  source : ReviewSource
  status : ReviewStatus
  score : Option ℚ
  comments : List ReviewComment
  headSha : Option Text
  reviewId : Option Text
  error : Option Text

structure PrRef where
  number : Nat
  url : Text
  head : Text
  base : Text
  repo : Option Text

inductive PrState where
  | openPr | merged | closed
deriving DecidableEq

inductive Mergeable where
  | mergeable | conflicting | unknown
deriving DecidableEq

inductive Checks where
  | passing | pending | failing | noChecks
deriving DecidableEq

structure PrStatus where
  state : PrState
  headSha : Text
  mergeable : Mergeable
  checks : Checks
  url : Text

inductive ShipPhase where
  | notDone | prOpen | needsFixes | ready | merged | blocked
deriving DecidableEq

def ShipPhase.text : ShipPhase → Text
  | .notDone => js "not-done"
  | .prOpen => js "pr-open"
  | .needsFixes => js "needs-fixes"
  | .ready => js "ready"
  | .merged => js "merged"
  | .blocked => js "blocked"

inductive AttemptStep where
  | review | merge

inductive AttemptOutcome where
  | passed | needsFixes | failed | timeout | waiting | retry | merged | needsAgent | blocked

structure ShipAttempt where
  stamp : ℚ
  step : AttemptStep
  headSha : Text
  outcome : AttemptOutcome
  score : Option ℚ
  detail : Option Text

structure PendingReview where
  headSha : Text
  source : ReviewSource
  since : ℚ
  runId : Option Text

structure Waiting where
  headSha : Text
  since : ℚ

inductive AssessmentSource where
  | llm | rules | jev
deriving DecidableEq

/-- The branch is that of the signals the assessment was made on. -/
structure Assessment where
  done : Bool
  confidence : ℚ
  summary : Text
  gaps : List Text
  source : AssessmentSource
  branch : Option Text

/-- A ship without its history: also one entry of a history. -/
structure ShipEntry where
  phase : ShipPhase
  assessment : Option Assessment
  pr : Option PrRef
  rounds : List ReviewResult
  mergedAt : Option ℚ
  blockedReason : Option Text
  pending : Option PendingReview
  attempts : List ShipAttempt
  waiting : Option Waiting
  updatedAt : ℚ

structure ShipState extends ShipEntry where
  history : List ShipEntry

def greptileMaxScore : Nat := 5

/-- What the platform computes: `JSON.parse`, `String(n)` and the two case maps. -/
structure Platform where
  parseJson : Text → Option (Json ℚ)
  showNumber : ℚ → Text
  toUpperCase : Text → Text
  toLowerCase : Text → Text

/-- The review side of the gate. -/
def reviewPasses (config : ShipConfig) (review : ReviewResult) : Bool :=
  if review.status ≠ .completed then false
  else match review.score with
    | none => false
    | some score =>
      if score < config.minScore then false
      else !config.requireNoComments || review.comments.isEmpty

structure Gate where
  ok : Bool
  reason : Text
deriving DecidableEq

def scoreBelow (p : Platform) (config : ShipConfig) (score : ℚ) : Text :=
  js "review score " ++ p.showNumber score ++ js "/" ++ ofNat greptileMaxScore ++
    js " is below " ++ p.showNumber config.minScore ++ js "/" ++ ofNat greptileMaxScore

def PrState.lower : PrState → Text
  | .openPr => js "open"
  | .merged => js "merged"
  | .closed => js "closed"

def mergeGate (p : Platform) (config : ShipConfig) (status : PrStatus)
    (latest : Option ReviewResult) : Gate :=
  let fail (reason : Text) : Gate := ⟨false, reason⟩
  match latest with
  | none => fail (js "no review has run")
  | some latest =>
    if latest.status ≠ .completed then fail (js "review " ++ latest.status.text)
    -- an empty or absent head is not compared
    else if latest.headSha.any fun sha => sha ≠ [] ∧ sha ≠ status.headSha then
      fail (js "review is for an older commit")
    else match latest.score with
      | none => fail (js "review has no score")
      | some score =>
        if score < config.minScore then fail (scoreBelow p config score)
        else if config.requireNoComments ∧ 0 < latest.comments.length then
          fail (ofNat latest.comments.length ++ js " open review comment(s)")
        else if status.state ≠ .openPr then fail (js "PR is " ++ status.state.lower)
        else if status.mergeable = .conflicting then fail (js "merge conflicts")
        else if status.mergeable = .unknown then
          fail (js "GitHub has not computed mergeability yet")
        else if status.checks = .failing then fail (js "CI checks failing")
        else if status.checks = .pending then fail (js "CI checks pending")
        else ⟨true, js "ready to merge"⟩

theorem reviewPasses_eq_true {config : ShipConfig} {review : ReviewResult}
    (passes : reviewPasses config review = true) :
    review.status = .completed ∧ (∃ score, review.score = some score ∧ config.minScore ≤ score) ∧
      (config.requireNoComments = true → review.comments = []) := by
  unfold reviewPasses at passes
  split at passes
  · cases passes
  rename_i completed
  split at passes
  · cases passes
  rename_i score scored
  split at passes
  · cases passes
  rename_i enough
  refine ⟨not_not.mp completed, ⟨score, scored, not_lt.mp enough⟩, fun required => ?_⟩
  simpa [required] using passes

/-- An open gate: the pull request is open, mergeable and without failing or
pending checks. -/
theorem mergeGate_ok {p : Platform} {config : ShipConfig} {status : PrStatus}
    {latest : Option ReviewResult} (ok : (mergeGate p config status latest).ok = true) :
    status.state = .openPr ∧ status.mergeable = .mergeable ∧
      (status.checks = .noChecks ∨ status.checks = .passing) := by
  unfold mergeGate at ok
  simp only at ok
  split at ok
  · cases ok
  · iterate 2
      split at ok
      · cases ok
    split at ok
    · cases ok
    · iterate 7
        split at ok
        · cases ok
      rename_i isOpen conflicting unknown failing pending
      refine ⟨not_not.mp isOpen, ?_, ?_⟩
      · cases mergeable : status.mergeable with
        | mergeable => rfl
        | conflicting => exact absurd mergeable conflicting
        | unknown => exact absurd mergeable unknown
      · cases checks : status.checks with
        | noChecks => exact Or.inl rfl
        | passing => exact Or.inr rfl
        | failing => exact absurd checks failing
        | pending => exact absurd checks pending

def maxAttempts : Nat := 50
def maxShipHistory : Nat := 10
def maxDetail : Nat := 200

/-- `Partial<ShipState>` as the commands use it: an absent field is kept. -/
structure ShipPatch where
  phase : Option ShipPhase := none
  assessment : Option Assessment := none
  pr : Option PrRef := none
  rounds : Option (List ReviewResult) := none
  mergedAt : Option ℚ := none
  blockedReason : Option (Option Text) := none
  pending : Option (Option PendingReview) := none
  waiting : Option (Option Waiting) := none

/-- `{ phase: "not-done", rounds: [] }` -/
def freshShip (now : ℚ) : ShipState :=
  ⟨⟨.notDone, none, none, [], none, none, none, [], none, now⟩, []⟩

def lastN {α : Type} (n : Nat) (l : List α) : List α := l.drop (l.length - n)

/-- Every run of white space becomes one space. -/
def collapseSpaces : Text → Text
  | [] => []
  | [u] => if isSpace u then js " " else [u]
  | u :: v :: rest =>
    if isSpace u then
      if isSpace v then collapseSpaces (v :: rest) else js " " ++ collapseSpaces (v :: rest)
    else u :: collapseSpaces (v :: rest)

/-- One line of at most `maxDetail` characters. -/
def oneLine (detail : Text) : Text := (trim (collapseSpaces detail)).take maxDetail

inductive Write where
  | patch (change : ShipPatch)
  | archive
  | attempts (added : List ShipAttempt)

def applyPatch (ship : ShipState) (patch : ShipPatch) (now : ℚ) : ShipState :=
  { ship with
    phase := patch.phase.getD ship.phase
    assessment := patch.assessment.or ship.assessment
    pr := patch.pr.or ship.pr
    rounds := patch.rounds.getD ship.rounds
    mergedAt := patch.mergedAt.or ship.mergedAt
    blockedReason := patch.blockedReason.getD ship.blockedReason
    pending := patch.pending.getD ship.pending
    waiting := patch.waiting.getD ship.waiting
    updatedAt := now }

/-- `writeShip`, `archiveShip` and `appendAttempts` on the ship read under the
lock. Only a ship that is there is ever archived. -/
def Write.build (w : Write) (prior : Option ShipState) (now : ℚ) : ShipState :=
  match w with
  | .patch change => applyPatch (prior.getD (freshShip now)) change now
  | .archive =>
    { freshShip now with
      history := match prior with
        | some ship => lastN maxShipHistory (ship.history ++ [ship.toShipEntry])
        | none => [] }
  | .attempts added =>
    let ship := prior.getD (freshShip now)
    let added := added.map fun attempt => { attempt with detail := attempt.detail.map oneLine }
    { ship with attempts := lastN maxAttempts (ship.attempts ++ added), updatedAt := now }

/-- The write records the phase `merged`. -/
def Write.recordsMerged : Write → Bool
  | .patch change => change.phase = some .merged
  | _ => false

end Ultrathink.Source.Ship
