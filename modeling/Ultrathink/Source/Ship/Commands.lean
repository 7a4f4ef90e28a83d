import Ultrathink.Source.Ship.Github

/-!
# The ship commands

`ship/cli.ts`: assess, pr, review, merge, run and status as programs over their
dependencies. The merge loop polls until it is done; `polls` bounds how many
polls a trace shows, and any number may be taken.
-/

namespace Ultrathink.Source.Ship

open Library JsText Interaction Source.Config

def nextFix : Text :=
  js "fix the listed findings, commit only the files you edited, push, then run review again"

def nextPending : Text :=
  js "Greptile review still running; run review again (safe to repeat, it resumes the same review)"

def mergedOutside : Text := js "PR was merged outside the ship flow before its review passed"

def runReviewAgain : Text := js "; run review again"

/-- What the agent does about a gate reason that only a new commit clears. -/
def gateNext (reason : Text) : Option Text :=
  if reason = js "CI checks failing" then
    some (js "CI checks failing: fix CI, commit, push, then run review again")
  else if reason = js "merge conflicts" then
    some (js "merge conflicts: resolve them against the base, push, then run review again")
  else none

/-- Gate reasons that clear on their own. -/
def transientGate (reason : Text) : Bool :=
  reason = js "CI checks pending" || reason = js "GitHub has not computed mergeability yet"

/-- A literal alternative of an error pattern, anywhere and in either case. -/
def mentions (t : Text) (alternatives : List String) : Bool :=
  alternatives.any fun alternative => t.tails.any (startsFolded (js alternative))

def transientMergeError (error : Text) : Bool :=
  mentions error ["base branch policy prohibits", "rate limit"]

def terminalMergeError (error : Text) : Bool :=
  mentions error ["approv", "review required", "reviews required", "changes requested",
    "permission", "forbidden", "not authorised", "not authorized", "pull request is closed",
    "PR is CLOSED", "resource not accessible", "must have admin", "must have write",
    "must have push", "must have maintain", "insufficient scopes", "insufficient permissions",
    "not permitted"]

def agentMergeError (error : Text) : Bool :=
  mentions error ["conflict", "not mergeable", "out of date", "behind", "update the branch",
    "head branch was modified", "head commit"]

def maxPollMs : ℚ := 60000

def prWaitNext (reason : Text) : Text :=
  match gateNext reason with
  | some next => js "review passed; " ++ next
  | none => js "review passed; " ++ reason ++ js ": wait, then run merge again"

/-- Minutes with one decimal. -/
def minutes (p : Platform) (ms : ℚ) : Text := p.showNumber ((Rat.floor (ms / 6000 + 1 / 2) : ℚ) / 10)

/-- The JSON object a command prints, by its keys. -/
structure Output where
  ok : Bool
  done : Option Bool := none
  ready : Option Bool := none
  passed : Option Bool := none
  blocked : Option Bool := none
  reused : Option Bool := none
  merged : Option Bool := none
  waiting : Option Bool := none
  alreadyMerged : Option Bool := none
  commented : Option Bool := none
  status : Option ReviewStatus := none
  score : Option ℚ := none
  comments : List ReviewComment := []
  gate : Option Gate := none
  round : Option Nat := none
  failedRounds : Option Nat := none
  polls : Option Nat := none
  waitedMs : Option ℚ := none
  pr : Option PrRef := none
  method : Option MergeMethod := none
  reason : Option Text := none
  next : Option Text := none

def isFailedReview (round : ReviewResult) : Bool :=
  round.status = .failed || round.status = .timeout

/-- Completed reviews that did not pass. -/
def countFailedRounds (config : ShipConfig) (rounds : List ReviewResult) : Nat :=
  rounds.countP fun round => round.status = .completed && !reviewPasses config round

def readShip : M SessionShip := do
  let record ← ask .readShip
  return record.join

def writeShip (patch : ShipPatch) : M (Option ShipState) := ask (.write (.patch patch))

/-- The log after the append, also when the file could not be written. -/
def appendAttempt (attempts : List ShipAttempt) (attempt : ShipAttempt) :
    M (List ShipAttempt) := do
  let written ← ask (.write (.attempts [attempt]))
  return (written.map (·.attempts)).getD (attempts ++ [attempt])

/-- The stopped comment, when one is due; whether it was posted. -/
def postComment (due : Bool) (number : Nat) (body : StoppedComment) : M (Option Bool) :=
  if due then some <$> ask (.comment number body) else pure none

def prUrlPattern : Regex.Expr :=
  let segment : Regex.Expr := .seq (.one (· ≠ 0x2F)) (.many true (.one (· ≠ 0x2F)))
  let pull : Regex.Expr := .seq (Regex.literal false (js "/pull/")) (.one isDigit)
  .seq .atStart (.seq (Regex.literal false (js "https://github.com/"))
    (.seq (.group 1 segment) (.seq (.one (· = 0x2F)) (.seq (.group 2 segment) pull))))

/-- owner/repo of a recorded PR. -/
def prRepo (pr : PrRef) : Option Text :=
  match pr.repo.filter (· ≠ []) with
  | some repo => some repo
  | none =>
    match Regex.exec prUrlPattern pr.url with
    | none => none
    | some m => some ((m.group 1).getD [] ++ js "/" ++ (m.group 2).getD [])

def elsewhere (pr : PrRef) (signals : GitSignals) : Bool :=
  (match prRepo pr, signals.repo with
    | some prior, some repo => prior ≠ [] && repo ≠ [] && prior ≠ repo
    | _, _ => false) || signals.branch ≠ some pr.head

/-- A merged ship, or a blocked one of another place, is archived; an active one
elsewhere refuses. The PR that the assessment goes on with. -/
def settlePrior (ship : ShipState) (pr : PrRef) (signals : GitSignals) :
    M (Except Text (Option PrRef)) := do
  if elsewhere pr signals ∧ ship.phase ≠ .merged ∧ ship.phase ≠ .blocked then
    return .error (js "this session is still shipping " ++ pr.url ++ js " (phase " ++
      ship.phase.text ++
      js "); finish or block that ship before assessing another repository or branch")
  else if ship.phase = .merged ∨ elsewhere pr signals then
    let archived ← ask (.write .archive)
    match archived with
    | none =>
      return .error (js "could not archive the finished ship " ++ pr.url ++
        js "; state file not writable")
    | some _ => return .ok none
  else return .ok (some pr)

/-- A rules-only verdict never counts as done when it would lead to a merge. -/
def gateAssessment (config : ShipConfig) (assessment : Assessment) : Assessment :=
  if config.judge = .gate ∧ config.autoMerge ∧ assessment.source = .rules ∧ assessment.done then
    { assessment with done := false, gaps := assessment.gaps ++ [js "no judge available"] }
  else assessment

def assessFrom (config : ShipConfig) (signals : GitSignals) (pr : Option PrRef) : M Output := do
  let assessment ← ask (.assess signals config.autoMerge config.judge)
  let assessment := gateAssessment config assessment
  let phase := if assessment.done ∧ pr.isSome then ShipPhase.prOpen else .notDone
  let _ ← writeShip { assessment := some assessment, phase := some phase }
  return { ok := true, done := some assessment.done }

def stepAssess (config : ShipConfig) (ignoreGsd : Bool) : M Output := do
  let record ← ask .readShip
  match record with
  | none =>
    return { ok := false, done := some false, reason := some (js "state file missing or unreadable") }
  | some session =>
    let signals ← ask (.signals ignoreGsd)
    match session.bind fun ship => ship.pr.map fun pr => (ship, pr) with
    | none => assessFrom config signals none
    | some (ship, pr) =>
      match ← settlePrior ship pr signals with
      | .error reason => return { ok := false, done := some false, reason := some reason }
      | .ok pr => assessFrom config signals pr

def refused (reason : Text) : Output := { ok := false, reason := some reason }

/-- Pushes the branch and opens or reuses its PR. -/
def openPr (p : Platform) (branch : Text) (base : Option Text) : M Output := do
  let repoView ← ask (.repoView none)
  let repo := parseRepo p repoView
  match (repo.map Prod.snd).or base with
  | none => return refused (js "could not determine default branch")
  | some base =>
    match ← ask (.push branch) with
    | some error => return refused (js "push failed: " ++ error)
    | none =>
      let record (found : PrRef) (reused : Bool) : M Output := do
        let name := repo.map Prod.fst
        let pr := { found with head := branch, repo := name.or found.repo }
        let _ ← writeShip { pr := some pr, phase := some .prOpen }
        return { ok := true, pr := some pr, reused := some reused }
      match ← ask (.findOpenPr branch) with
      | some found => record found true
      | none =>
        match ← ask (.createPr base branch) with
        | .error error => return refused (js "create PR failed: " ++ error)
        | .ok created => record created false

def stepPr (p : Platform) : M Output := do
  let record ← ask .readShip
  match record.join.bind (·.assessment) with
  | none => return refused (js "task not assessed as done; run assess first")
  | some assessment =>
    if !assessment.done then return refused (js "task not assessed as done; run assess first")
    let git ← ask (.signals false)
    match git.branch with
    | none => return refused (js "no current branch (detached HEAD?)")
    | some branch =>
      if assessment.branch ≠ some branch then
        return refused (js "branch changed since assessment (" ++
          assessment.branch.getD (js "none") ++ js " -> " ++ branch ++ js "); run assess again")
      if git.onBase then
        return refused (js "on base branch " ++ git.base.getD [] ++
          js "; work must be on a feature branch")
      if git.dirty ≠ [] then
        return refused (js "uncommitted tracked changes: " ++ join (js ", ") git.dirty)
      openPr p branch git.base

def reviewRefused (reason : Text) (next : Option Text) : Output :=
  { ok := false, ready := some false, reason := some reason, next }

/-- `failed` or `timed out`, for the messages. -/
def failureText (result : ReviewResult) : Option Text :=
  if isFailedReview result then
    some (if result.status = .timeout then js "timed out" else js "failed")
  else none

def errorSuffix (result : ReviewResult) : Text :=
  match result.error.filter (· ≠ []) with
  | some error => js ": " ++ error
  | none => []

/-- Why the ship stops at this round, if it does; `used` counts the failures of
this head, this one included. -/
def roundBlocked (p : Platform) (config : ShipConfig) (status : PrStatus) (result : ReviewResult)
    (gate : Gate) (used failedRounds : Nat) : Option Text :=
  let passed := reviewPasses config result
  let waiting := !gate.ok && status.state = .openPr && result.headSha = some status.headSha && passed
  if gate.ok || waiting || (status.state = .merged && passed) then none
  else if status.state = .merged then some mergedOutside
  else if status.state = .closed then some (js "PR closed without merge")
  else match failureText result with
    | some failure =>
      if config.reviewRetries < used then
        some (js "Greptile review " ++ failure ++ js " " ++ ofNat used ++ js " times on " ++
          status.headSha.take 7 ++ js " (ship.reviewRetries " ++
          p.showNumber config.reviewRetries ++ js ")" ++ errorSuffix result)
      else none
    | none =>
      if config.maxRounds ≤ failedRounds then some (js "max rounds reached: " ++ gate.reason) else none

def roundAttempt (config : ShipConfig) (t : ℚ) (status : PrStatus) (result : ReviewResult)
    (gate : Gate) : ShipAttempt :=
  let outcome := match result.status with
    | .failed => AttemptOutcome.failed
    | .timeout => .timeout
    | _ => if reviewPasses config result then .passed else .needsFixes
  ⟨t, .review, status.headSha, outcome, result.score, some (result.error.getD gate.reason)⟩

def roundNext (p : Platform) (config : ShipConfig) (result : ReviewResult) (gate : Gate)
    (mergedPassing waiting : Bool) (blockedReason : Option Text) (used : Nat) : Text :=
  if gate.ok then js "run merge"
  else if mergedPassing then js "PR already merged: run merge to finish the cleanup"
  else if waiting then prWaitNext gate.reason
  else match blockedReason, failureText result with
    | some reason, _ => js "stop: " ++ reason
    | none, some failure =>
      js "Greptile review " ++ failure ++ errorSuffix result ++
        js "; run review again to re-trigger it (retry " ++ ofNat used ++ js " of " ++
        p.showNumber config.reviewRetries ++ js ")"
    | none, none => nextFix

/-- A reused round is logged already. -/
def logRound (ship : ShipState) (reused : Bool) (attempt : ShipAttempt) : M (List ShipAttempt) :=
  if reused then pure ship.attempts else appendAttempt ship.attempts attempt

/-- A review result that counts: the round, its attempt and the phase are recorded. -/
def recordRound (p : Platform) (config : ShipConfig) (ship : ShipState) (pr : PrRef)
    (status : PrStatus) (failedHere : Nat) (reused : Bool) (result : ReviewResult) : M Output := do
  let t ← now
  let rounds := (if reused then ship.rounds.dropLast else ship.rounds) ++ [result]
  let gate := mergeGate p config status (some result)
  let failedRounds := countFailedRounds config rounds
  let passed := reviewPasses config result
  let used := if isFailedReview result then failedHere + 1 else 0
  let mergedPassing := status.state = .merged && passed
  let waiting := !gate.ok && status.state = .openPr && result.headSha = some status.headSha && passed
  let blockedReason := roundBlocked p config status result gate used failedRounds
  let phase :=
    if gate.ok || mergedPassing then ShipPhase.ready
    else if waiting then .prOpen
    else if blockedReason.isSome then .blocked
    else .needsFixes
  let attempts ← logRound ship reused (roundAttempt config t status result gate)
  let due := blockedReason.isSome && status.state = .openPr && !reused && ship.phase ≠ .blocked
  let commented ← postComment due pr.number
    ⟨blockedReason.getD [], result.score, failedRounds, result.comments, attempts⟩
  let _ ← writeShip {
    rounds := some rounds, phase := some phase, blockedReason := some blockedReason
    pending := some none }
  return {
    ok := true, ready := some (gate.ok || mergedPassing), passed := some passed
    blocked := some blockedReason.isSome, reused := some reused, status := some result.status
    score := result.score, comments := result.comments, gate := some gate
    round := some rounds.length, failedRounds := some failedRounds, commented
    next := some (roundNext p config result gate mergedPassing waiting blockedReason used) }

def pendingSince (same : Option PendingReview) : M ℚ :=
  match same with
  | some pending => pure pending.since
  | none => now

/-- A pending review is left to the next call until `reviewTimeoutMs`, then counts
as timed out. -/
def pendingRound (p : Platform) (config : ShipConfig) (ship : ShipState) (pr : PrRef)
    (status : PrStatus) (failedHere : Nat) (reused : Bool) (result : ReviewResult) : M Output := do
  let same := ship.pending.filter fun pending => pending.headSha = status.headSha
  let since ← pendingSince same
  let t ← now
  let runId := result.reviewId.or (same.bind (·.runId))
  if t - since ≤ config.reviewTimeoutMs then
    let _ ← writeShip { pending := some (some ⟨status.headSha, result.source, since, runId⟩) }
    return {
      ok := true, ready := some false, status := some .pending, round := some ship.rounds.length
      next := some nextPending }
  let cause := match result.error.filter (· ≠ []) with
    | some error => js " (last error: " ++ error ++ js ")"
    | none => []
  let error := js "review still pending after " ++ p.showNumber config.reviewTimeoutMs ++ js "ms" ++ cause
  let timedOut := { result with status := .timeout, error := some error, reviewId := runId }
  recordRound p config ship pr status failedHere reused timedOut

def settleReview (p : Platform) (config : ShipConfig) (ship : ShipState) (pr : PrRef)
    (status : PrStatus) (failedHere : Nat) (reused : Bool) (result : ReviewResult) : M Output := do
  match result.status with
  | .unverified =>
    let _ ← writeShip { phase := some .prOpen, pending := some none }
    return { reviewRefused (js "could not read review threads: " ++
        result.error.getD (js "verification unavailable")) (some (js "run review again")) with
      status := some .unverified, round := some ship.rounds.length }
  | .blocked =>
    let reason := result.error.getD (js "Greptile review blocked")
    let _ ← writeShip {
      phase := some .blocked, blockedReason := some (some reason), pending := some none }
    return { reviewRefused reason (some (js "stop: " ++ reason)) with
      blocked := some true, status := some .blocked, round := some ship.rounds.length }
  | .pending => pendingRound p config ship pr status failedHere reused result
  | _ => recordRound p config ship pr status failedHere reused result

/-- A completed round of this head is reused; in PR mode its comments are read
again from the threads. -/
def reuseRound (p : Platform) (config : ShipConfig) (ship : ShipState) (pr : PrRef)
    (status : PrStatus) (failedHere : Nat) (threadDeadline : ℚ) (round : ReviewResult) :
    M Output := do
  if round.source = .pr then
    match ← reviewThreads p pr.number (some threadDeadline) with
    | .error error =>
      return reviewRefused (js "could not read review threads: " ++ error)
        (some (js "run review again"))
    | .ok threads =>
      settleReview p config ship pr status failedHere true
        { round with comments := openThreadComments p threads }
  else settleReview p config ship pr status failedHere true round

/-- The review runs on the local head, so it must be the PR's. -/
def freshRound (p : Platform) (config : ShipConfig) (ship : ShipState) (pr : PrRef)
    (status : PrStatus) (repo : Text) (failedHere : List ReviewResult) : M Output := do
  let r ← ask .localHead
  let head := if r.exitCode = 0 then trim r.stdout else []
  if head ≠ status.headSha then
    let shown := if head = [] then js "unknown" else head.take 7
    return reviewRefused (js "local HEAD " ++ shown ++ js " differs from PR head " ++
      status.headSha.take 7 ++ js "; push your commits (or pull) first")
      (some (js "git push, then run review again"))
  let anonymous := failedHere.any fun round => (round.reviewId.filter (· ≠ [])).isNone
  let resuming := ship.pending.any fun pending => pending.headSha = status.headSha
  let staleReviewIds := failedHere.filterMap fun round => round.reviewId.filter (· ≠ [])
  let result ← ask (.review
    ⟨repo, pr.base, pr.number, status.headSha, staleReviewIds, anonymous && !resuming⟩)
  settleReview p config ship pr status failedHere.length false result

def stepReview (p : Platform) (config : ShipConfig) : M Output := do
  let started ← now
  let ship ← readShip
  match ship.bind fun ship => ship.pr.map fun pr => (ship, pr) with
  | none => return reviewRefused (js "no PR; run pr first") none
  | some (ship, pr) =>
    match ← prStatus p pr.number with
    | none => return reviewRefused (js "could not read PR status") none
    | some status =>
      let repoView ← ask (.repoView none)
      match parseRepo p repoView with
      | none => return reviewRefused (js "could not resolve GitHub repo") none
      | some (repo, _) =>
        let failedHere := ship.rounds.filter fun round =>
          isFailedReview round && round.headSha = some status.headSha
        let reusable := ship.rounds.getLast?.filter fun round =>
          round.status = .completed && round.headSha = some status.headSha
        match reusable with
        | some round =>
          reuseRound p config ship pr status failedHere.length (started + config.waitMs) round
        | none => freshRound p config ship pr status repo failedHere

/-- One merge poll's outcome. -/
inductive MergeStep where
  | merged (headSha : Text) (score : Option ℚ) (method : MergeMethod) (alreadyMerged : Bool)
  | transient (reason : Text) (headSha : Option Text) (retry : Bool)
  | needsAgent (reason next headSha : Text)
  | blocked (reason headSha : Text) (comment : Bool)

def reviewAgain (reason headSha : Text) : MergeStep :=
  .needsAgent reason (reason ++ runReviewAgain) headSha

def classifyGateReason (reason headSha : Text) : MergeStep :=
  if transientGate reason then .transient reason (some headSha) false
  else .needsAgent reason ((gateNext reason).getD (reason ++ runReviewAgain)) headSha

def classifyMergeError (error headSha : Text) : MergeStep :=
  let transient := MergeStep.transient (js "merge failed: " ++ error) (some headSha) true
  if transientMergeError error then transient
  else if terminalMergeError error then
    .blocked (js "merge refused by GitHub: " ++ error) headSha true
  else if agentMergeError error then reviewAgain error headSha
  else transient

/-- Why the stored review alone refuses the merge. -/
def storedReviewRefusal (p : Platform) (config : ShipConfig) (latest : Option ReviewResult)
    (url : Text) : Option Text :=
  if latest.any (reviewPasses config) then none
  else
    let headSha := (latest.bind (·.headSha)).getD []
    some (mergeGate p config ⟨.openPr, headSha, .mergeable, .noChecks, url⟩ latest).reason

/-- After a recorded merge the stored review no longer matters. -/
def mergeRefusal (p : Platform) (config : ShipConfig) (ship : ShipState) (pr : PrRef) :
    Option Text :=
  if ship.phase = .merged then none
  else storedReviewRefusal p config ship.rounds.getLast? pr.url

/-- The merge itself, behind the gate on the review as it stands now. -/
def mergeReviewed (p : Platform) (config : ShipConfig) (pr : PrRef) (status : PrStatus)
    (latest : ReviewResult) : M MergeStep := do
  let headSha := status.headSha
  let gate := mergeGate p config status (some latest)
  if !reviewPasses config latest then return reviewAgain gate.reason headSha
  if !gate.ok then return classifyGateReason gate.reason headSha
  let allowed ← mergeMethods p
  let method := if config.mergeMethod ∈ allowed then config.mergeMethod
    else allowed.head?.getD config.mergeMethod
  match ← merge p pr.number method headSha with
  | none => return .merged headSha latest.score method false
  | some error => return classifyMergeError error headSha

/-- An open PR at the reviewed head: in PR mode the current threads replace the
stored comments. -/
def mergeOpen (p : Platform) (config : ShipConfig) (pr : PrRef) (status : PrStatus)
    (latest : ReviewResult) (deadlineMs : ℚ) : M MergeStep := do
  if latest.source = .pr then
    match ← reviewThreads p pr.number (some deadlineMs) with
    | .error error =>
      return .transient (js "could not read review threads: " ++ error) (some status.headSha) false
    | .ok threads =>
      mergeReviewed p config pr status { latest with comments := openThreadComments p threads }
  else mergeReviewed p config pr status latest

/-- One merge poll. -/
def mergeOnce (p : Platform) (config : ShipConfig) (ship : ShipState) (pr : PrRef)
    (deadlineMs : ℚ) : M MergeStep := do
  let latest := ship.rounds.getLast?
  let refusal := mergeRefusal p config ship pr
  match ← prStatus p pr.number with
  | none =>
    match refusal with
    | none => return .transient (js "could not read PR status") none false
    | some refusal => return reviewAgain refusal ((latest.bind (·.headSha)).getD [])
  | some status =>
    let headSha := status.headSha
    match status.state with
    | .closed => return .blocked (js "PR closed without merge") headSha false
    | .merged =>
      let reviewed := latest.any (fun round => round.headSha = some headSha) && refusal.isNone
      if ship.phase = .merged || reviewed then
        return .merged headSha (latest.bind (·.score)) config.mergeMethod true
      else return .blocked mergedOutside headSha false
    | .openPr =>
      match refusal, latest with
      | some refusal, _ => return reviewAgain refusal headSha
      | none, none => return reviewAgain (js "no review has run") headSha
      | none, some latest =>
        if latest.headSha ≠ some headSha then
          return reviewAgain (js "PR head changed since last review") headSha
        mergeOpen p config pr status latest deadlineMs

def mergeAttempt (t : ℚ) (headSha : Text) (outcome : AttemptOutcome) (score : Option ℚ)
    (detail : Option Text) : ShipAttempt := ⟨t, .merge, headSha, outcome, score, detail⟩

/-- Stops the ship, with one comment on an open PR. -/
def blockMerge (config : ShipConfig) (ship : ShipState) (pr : PrRef) (reason headSha : Text)
    (comment : Bool) (t : ℚ) : M Output := do
  let attempts ← appendAttempt ship.attempts (mergeAttempt t headSha .blocked none (some reason))
  let commented ← postComment (comment && ship.phase ≠ .blocked) pr.number
    ⟨reason, ship.rounds.getLast?.bind (·.score), countFailedRounds config ship.rounds, [], attempts⟩
  let _ ← writeShip {
    phase := some .blocked, blockedReason := some (some reason), waiting := some none }
  return {
    ok := false, merged := some false, blocked := some true, reason := some reason
    next := some (js "stop: " ++ reason), commented }

def cleanUp (config : ShipConfig) (pr : PrRef) (headSha : Text) : M Unit :=
  if config.deleteBranch then do
    let _ ← ask (.deleteRemoteBranch pr.head)
    let _ ← ask (.syncBase pr.base pr.head headSha)
    return ()
  else pure ()

/-- After the merge: branch cleanup, then the phase is recorded. -/
def finishMerge (config : ShipConfig) (ship : ShipState) (pr : PrRef) (headSha : Text)
    (score : Option ℚ) (method : MergeMethod) (alreadyMerged : Bool) (t : ℚ) : M Output := do
  cleanUp config pr headSha
  let detail := if alreadyMerged then some (js "PR already merged") else none
  let _ ← appendAttempt ship.attempts (mergeAttempt t headSha .merged score detail)
  let _ ← writeShip {
    phase := some .merged, mergedAt := some (ship.mergedAt.getD t), waiting := some none }
  return {
    ok := true, merged := some true, alreadyMerged := some alreadyMerged, pr := some pr
    method := some method, next := some (js "run ultrathink-sync") }

/-- The state of the merge loop between polls. -/
structure MergeWait where
  waiting : Option Waiting
  delay : ℚ

def logRetry (ship : ShipState) (retry : Bool) (attempt : ShipAttempt) : M Unit :=
  if retry then do
    let _ ← appendAttempt ship.attempts attempt
    return ()
  else pure ()

/-- The bound of a new head starts now. -/
def waitingOn (headSha : Text) (t : ℚ) (waiting : Option Waiting) : M Waiting :=
  match waiting.filter fun waiting => waiting.headSha = headSha with
  | some waiting => pure waiting
  | none => do
    let _ ← writeShip { waiting := some (some ⟨headSha, t⟩) }
    return ⟨headSha, t⟩

/-- After a transient poll: block past the bound, report past the budget, or wait. -/
def waitOrStop (p : Platform) (config : ShipConfig) (ship : ShipState) (pr : PrRef) (reason : Text)
    (stepHead : Option Text) (retry : Bool) (polls : Nat) (started budgetMs t : ℚ)
    (wait : MergeWait) : M (Output ⊕ MergeWait) := do
  let reviewedHead := (ship.rounds.getLast?.bind (·.headSha)).or (wait.waiting.map (·.headSha))
  let headSha := stepHead.getD (reviewedHead.getD [])
  logRetry ship retry (mergeAttempt t headSha .retry none (some reason))
  let waiting ← waitingOn headSha t wait.waiting
  let waitedMs := t - waiting.since
  if config.mergeTimeoutMs ≤ waitedMs then
    let out ← blockMerge config ship pr (js "merge still not possible after " ++ minutes p waitedMs ++ js " min on " ++
      headSha.take 7 ++ js ": " ++ reason) headSha true t
    return .inl out
  let remaining := budgetMs - (t - started)
  if remaining ≤ 0 then
    let detail := reason ++ js " (" ++ ofNat polls ++ js " poll(s))"
    let _ ← appendAttempt ship.attempts (mergeAttempt t headSha .waiting none (some detail))
    let next := js "run merge again: " ++ reason ++ js " (waited " ++ minutes p waitedMs ++
      js " of " ++ minutes p config.mergeTimeoutMs ++
      js " min on this commit; it keeps retrying until the PR merges)"
    return .inl {
      ok := false, merged := some false, waiting := some true, reason := some reason
      polls := some polls, waitedMs := some waitedMs, next := some next }
  let _ ← ask (.sleep (min wait.delay remaining))
  return .inr ⟨some waiting, min (wait.delay * (3 / 2)) maxPollMs⟩

/-- The polls of `stepMerge`; `none` when the loop still runs after `polls` more. -/
def mergeLoop (p : Platform) (config : ShipConfig) (ship : ShipState) (pr : PrRef)
    (started budgetMs : ℚ) (polls taken : Nat) (wait : MergeWait) : M (Option Output) :=
  match polls with
  | 0 => return none
  | polls + 1 => do
    let step ← mergeOnce p config ship pr (started + budgetMs)
    let t ← now
    match step with
    | .merged headSha score method alreadyMerged =>
      let out ← finishMerge config ship pr headSha score method alreadyMerged t
      return some out
    | .blocked reason headSha comment =>
      let out ← blockMerge config ship pr reason headSha comment t
      return some out
    | .needsAgent reason next headSha =>
      let _ ← appendAttempt ship.attempts (mergeAttempt t headSha .needsAgent none (some reason))
      return some { ok := false, merged := some false, reason := some reason, next := some next }
    | .transient reason headSha retry =>
      match ← waitOrStop p config ship pr reason headSha retry (taken + 1) started budgetMs t wait with
      | .inl out => return some out
      | .inr wait => mergeLoop p config ship pr started budgetMs polls (taken + 1) wait

def stepMerge (p : Platform) (config : ShipConfig) (polls : Nat) (budgetMs : ℚ) :
    M (Option Output) := do
  if !config.autoMerge then
    return some { ok := false, merged := some false, reason := some (js "autoMerge disabled") }
  let ship ← readShip
  match ship.bind fun ship => ship.pr.map fun pr => (ship, pr) with
  | none =>
    return some { ok := false, merged := some false, reason := some (js "no PR; run pr first") }
  | some (ship, pr) =>
    let started ← now
    mergeLoop p config ship pr started budgetMs polls 0 ⟨ship.waiting, config.pollMs⟩

def stepRun (p : Platform) (config : ShipConfig) (ignoreGsd : Bool) (polls : Nat) :
    M (Option Output) := do
  let started ← now
  let assess ← stepAssess config ignoreGsd
  if assess.done ≠ some true then
    return some { ok := true, next := some (js "task not done: finish the listed gaps, then run again") }
  let pr ← stepPr p
  if !pr.ok then return some { ok := false, next := some (js "stop: " ++ pr.reason.getD []) }
  let review ← stepReview p config
  let ready := review.ready = some true
  let passed := ready || (review.passed = some true && review.blocked ≠ some true)
  if !passed || !config.autoMerge then
    let next := if ready then js "autoMerge disabled: merge manually"
      else review.next.getD (js "stop: " ++ review.reason.getD [])
    return some { ok := review.ok && review.blocked ≠ some true, next := some next }
  let t ← now
  let merge ← stepMerge p config polls (max 0 (config.waitMs - (t - started)))
  match merge with
  | none => return none
  | some merge =>
    let next := if merge.ok then js "run ultrathink-sync"
      else merge.next.getD (js "stop: " ++ merge.reason.getD [])
    return some { ok := merge.ok, next := some next }

def stepStatus : M Output := do
  let ship ← readShip
  match ship with
  | some _ => return { ok := true }
  | none => return { ok := false, reason := some (js "no ship state") }

inductive Command where
  | assess (ignoreGsd : Bool)
  | pr
  | review
  | merge
  | run (ignoreGsd : Bool)
  | status

/-- One call of the CLI: the config is loaded, then the command runs. What throws
ends the call where it stands. -/
def runShip (p : Platform) (polls : Nat) (command : Command) : M (Option Output) := do
  let config ← ask .loadConfig
  match command with
  | .assess ignoreGsd => some <$> stepAssess config ignoreGsd
  | .pr => some <$> stepPr p
  | .review => some <$> stepReview p config
  | .merge => stepMerge p config polls config.waitMs
  | .run ignoreGsd => stepRun p config ignoreGsd polls
  | .status => some <$> stepStatus

/-- A session's calls of the CLI one after the other, each finished or stopped
anywhere, with every answer the environment gave. -/
inductive Session (p : Platform) : History Call Answer → Prop
  | start : Session p []
  | command {h t : History Call Answer} {o : Option (Option Output)} (polls : Nat)
      (command : Command) (earlier : Session p h) (emits : Emits (runShip p polls command) t o) :
      Session p (h ++ t)

end Ultrathink.Source.Ship
