import Ultrathink.Source.Ship.Commands

/-!
# Merge safety

A monitor of the ship commands' calls remembers the config loaded last, the ship record read last,
the last reading of the pull request and how far a scan of its review threads has come. Whatever
is answered, `gh pr merge` is called only when these allow it.
-/

namespace Ultrathink.Guarantees.MergeSafety

open Library JsText Interaction Source.Config Source.Ship

/-- A scan of review threads: the pages read in order from the first, each at the
cursor that the one before named, up to one that names none. -/
inductive Scan where
  | idle
  | reading (number : Nat) (next : Text) (threads : List ReviewThread)
  | complete (number : Nat) (threads : List ReviewThread)

structure Seen where
  config : Option ShipConfig
  ship : Option ShipState
  view : Option (Nat × Exec)
  scan : Scan

def nothing : Seen := ⟨none, none, none, .idle⟩

/-- The threads before the page asked for at the cursor `after`. -/
def threadsBefore (number : Nat) (after : Option Text) (scan : Scan) : Option (List ReviewThread) :=
  match after, scan with
  | none, _ => some []
  | some cursor, .reading number' next threads =>
    if number' = number ∧ next = cursor then some threads else none
  | some _, _ => none

def scanPage (p : Platform) (number : Nat) (after : Option Text) (r : Exec) (scan : Scan) : Scan :=
  if r.exitCode ≠ 0 then .idle
  else match threadsBefore number after scan, parseThreadsPage p r.stdout with
    | some threads, .ok (page, none) => .complete number (threads ++ page)
    | some threads, .ok (page, some next) => .reading number next (threads ++ page)
    | _, _ => .idle

/-- A new reading of the pull request makes older scans void. -/
def observe (p : Platform) (seen : Seen) : Event Call Answer → Seen
  | ⟨.loadConfig, config⟩ => { seen with config := some config }
  | ⟨.readShip, record⟩ => { seen with ship := record.join }
  | ⟨.prView number, r⟩ => { seen with view := some (number, r), scan := .idle }
  | ⟨.threadsPage _ _ number after _, r⟩ =>
    { seen with scan := scanPage p number after r seen.scan }
  | _ => seen

def seenIn (p : Platform) (h : History Call Answer) : Seen := h.foldl (observe p) nothing

/-- The last reading of the pull request. -/
def Views (p : Platform) (seen : Seen) (number : Nat) (status : PrStatus) : Prop :=
  ∃ r, seen.view = some (number, r) ∧ parsePrStatus p r = some status

/-- No finding is open: by a complete scan for a review of the PR, by the review's
own comments for a review of the CLI. -/
def NoFindings (seen : Seen) (number : Nat) (review : ReviewResult) : Prop :=
  match review.source with
  | .pr => ∃ threads, seen.scan = .complete number threads ∧
      ∀ thread ∈ threads, thread.isOpen = false
  | .cli => review.comments = []

structure MayMerge (p : Platform) (seen : Seen) (number : Nat) (headSha : Text)
    (config : ShipConfig) (review : ReviewResult) (status : PrStatus) : Prop where
  loaded : seen.config = some config
  autoMerge : config.autoMerge = true
  recorded : ∃ ship pr, seen.ship = some ship ∧ ship.pr = some pr ∧ pr.number = number ∧
    ship.rounds.getLast? = some review
  completed : review.status = .completed
  scored : ∃ score, review.score = some score ∧ config.minScore ≤ score
  reviewedHead : review.headSha = some headSha
  viewed : Views p seen number status
  currentHead : status.headSha = headSha
  isOpen : status.state = .openPr
  mergeable : status.mergeable = .mergeable
  checks : status.checks = .noChecks ∨ status.checks = .passing
  noFindings : config.requireNoComments = true → NoFindings seen number review

/-- The recorded pull request was last read as merged. -/
def SeenMerged (p : Platform) (seen : Seen) : Prop :=
  ∃ ship pr status, seen.ship = some ship ∧ ship.pr = some pr ∧ Views p seen pr.number status ∧
    status.state = .merged

def Permitted (p : Platform) (seen : Seen) (c : Call) : Prop :=
  match c with
  | .prMerge number _ headSha =>
    ∃ config review status, MayMerge p seen number headSha config review status
  | .write w => w.recordsMerged = true → SeenMerged p seen
  | _ => True

variable {seen : Seen} {α : Type} {prog : M α}

variable {β : Type} {next : α → M β} {P : Prop} {first second : M α} {patch : ShipPatch}
  {status : PrStatus} {review : ReviewResult}

section Commands
variable (p : Platform)

/-- The program's calls are permitted from what was seen. -/
abbrev Safe {α : Type} (prog : M α) (seen : Seen) (Q : Seen → α → Prop) : Prop :=
  wp (observe p) (Permitted p) prog seen Q

@[simp] theorem safe_now (seen : Seen) (Q : Seen → ℚ → Prop) :
    wp (observe p) (Permitted p) now seen Q ↔ ∀ t, Q seen t :=
  ⟨fun h => h.2, fun h => ⟨trivial, h⟩⟩

@[simp] theorem safe_prStatus (number : Nat) (seen : Seen)
    (Q : Seen → Option PrStatus → Prop) :
    wp (observe p) (Permitted p) (prStatus p number) seen Q ↔
      ∀ r, Q { seen with view := some (number, r), scan := .idle } (parsePrStatus p r) :=
  ⟨fun h => h.2, fun h => ⟨trivial, h⟩⟩

@[simp] theorem safe_mergeMethods (seen : Seen) (Q : Seen → List MergeMethod → Prop) :
    wp (observe p) (Permitted p) (mergeMethods p) seen Q ↔ ∀ r, Q seen (parseMethods p r) :=
  ⟨fun h => h.2, fun h => ⟨trivial, h⟩⟩

/-- The outcome of a scan: only the scan itself was seen, and threads come from a
complete one. -/
def Scanned (number : Nat) (seen : Seen) (seen' : Seen)
    (r : Except Text (List ReviewThread)) : Prop :=
  ∃ scan, seen' = { seen with scan := scan } ∧ ∀ threads, r = .ok threads →
    scan = .complete number threads

theorem Scanned.error {number : Nat} {error : Text} (scan : Scan) :
    Scanned number seen { seen with scan := scan } (.error error) :=
  ⟨scan, rfl, fun _ h => nomatch h⟩

theorem safe_remaining (deadlineMs : Option ℚ) {Q : Seen → Option ℚ → Prop}
    (each : ∀ left, Q seen left) :
    wp (observe p) (Permitted p) (remaining deadlineMs) seen Q := by
  cases deadlineMs with
  | none => exact each none
  | some deadline => exact ⟨trivial, fun t => each (some (deadline - t))⟩

theorem scanPages_safe (owner name : Text) (number : Nat) (deadlineMs : Option ℚ) (pages : Nat)
    (after : Option Text) (cursors : List Text) (threads : List ReviewThread) (seen : Seen)
    (before : threadsBefore number after seen.scan = some threads) :
    Safe p (scanPages p owner name number deadlineMs pages after cursors threads) seen
      (Scanned number seen) := by
  induction pages generalizing after cursors threads seen with
  | zero => exact Scanned.error seen.scan
  | succ pages ih =>
    unfold scanPages
    refine (wp_bind _ _ _).mpr (safe_remaining p deadlineMs fun left => ?_)
    split
    · exact Scanned.error seen.scan
    refine (wp_bind _ _ _).mpr ⟨trivial, fun r => ?_⟩
    refine (wp_bind _ _ _).mpr (safe_remaining p deadlineMs fun left' => ?_)
    split
    · exact Scanned.error _
    split
    · exact Scanned.error _
    rename_i exited
    have page : (observe p seen ⟨.threadsPage owner name number after left, r⟩).scan =
        scanPage p number after r seen.scan := rfl
    rw [scanPage, if_neg exited, before] at page
    split
    · exact Scanned.error _
    · rename_i read parsed
      rw [parsed] at page
      refine ⟨_, rfl, fun threads' ok => ?_⟩
      cases ok
      exact page
    · rename_i read next parsed
      rw [parsed] at page
      split
      · exact Scanned.error _
      · have later := ih (some next) (next :: cursors) (threads ++ read)
          (observe p seen ⟨.threadsPage owner name number after left, r⟩)
          (by rw [page]; simp [threadsBefore])
        exact later

theorem reviewThreads_safe (number : Nat) (deadlineMs : Option ℚ) (seen : Seen) :
    Safe p (reviewThreads p number deadlineMs) seen (Scanned number seen) := by
  unfold reviewThreads
  refine (wp_bind _ _ _).mpr (safe_remaining p deadlineMs fun left => ?_)
  split
  · exact Scanned.error seen.scan
  refine (wp_bind _ _ _).mpr ⟨trivial, fun r => ?_⟩
  refine (wp_bind _ _ _).mpr (safe_remaining p deadlineMs fun left' => ?_)
  split
  · exact Scanned.error seen.scan
  split
  · split
    · exact Scanned.error seen.scan
    · exact scanPages_safe p _ _ number deadlineMs maxThreadPages none [] [] seen rfl
  · exact Scanned.error seen.scan

/-- Permitted wherever it runs, and the monitor sees nothing new. -/
def Silent {α : Type} (prog : M α) : Prop :=
  ∀ seen, Safe p prog seen fun seen' _ => seen' = seen

theorem Silent.done (a : α) : Silent p (pure a : M α) := fun _ => rfl

variable {p}

theorem Silent.bind (first : Silent p prog) (later : ∀ a, Silent p (next a)) :
    Silent p (prog >>= next) := by
  have kept : Keeps (observe p) (Permitted p) (fun seen => seen) (prog >>= next) := .bind first later
  exact kept

theorem Silent.ask {c : Call} (permitted : ∀ seen, Permitted p seen c)
    (blind : ∀ seen r, observe p seen ⟨c, r⟩ = seen) : Silent p (ask c) :=
  fun seen => ⟨permitted seen, fun r => blind seen r⟩

theorem Silent.ite [Decidable P] (yes : Silent p first) (no : Silent p second) :
    Silent p (if P then first else second) := by
  have kept : Keeps (observe p) (Permitted p) (fun seen => seen) (if P then first else second) :=
    .ite yes no
  exact kept

variable (p)

theorem writeShip_silent (other : patch.phase ≠ some .merged) :
    Silent p (writeShip patch) :=
  .ask (fun _ merged => absurd (by simpa [Write.recordsMerged] using merged) other) fun _ _ => rfl

theorem appendAttempt_silent (attempts : List ShipAttempt) (attempt : ShipAttempt) :
    Silent p (appendAttempt attempts attempt) :=
  .bind (.ask (fun _ merged => nomatch merged) fun _ _ => rfl) fun _ => .done p _

theorem comment_silent (number : Nat) (body : StoppedComment) :
    Silent p (ask (.comment number body)) := .ask (fun _ => trivial) fun _ _ => rfl

variable (config : ShipConfig) (ship : ShipState) (pr : PrRef)

theorem postComment_silent (due : Bool) (number : Nat) (body : StoppedComment) :
    Silent p (postComment due number body) :=
  .ite (.bind (comment_silent p number body) fun _ => .done p _) (.done p _)

theorem blockMerge_silent (reason headSha : Text) (comment : Bool) (t : ℚ) :
    Silent p (blockMerge config ship pr reason headSha comment t) := by
  refine .bind (appendAttempt_silent p _ _) fun attempts => .bind (postComment_silent p _ _ _) ?_
  exact fun commented => .bind (writeShip_silent p (by simp)) fun _ => .done p _

theorem waitingOn_silent (headSha : Text) (t : ℚ) (waiting : Option Waiting) :
    Silent p (waitingOn headSha t waiting) := by
  unfold waitingOn
  split
  · exact .done p _
  · exact .bind (writeShip_silent p (by simp)) fun _ => .done p _

theorem waitOrStop_silent (reason : Text) (stepHead : Option Text) (retry : Bool) (polls : Nat)
    (started budgetMs t : ℚ) (wait : MergeWait) :
    Silent p (waitOrStop p config ship pr reason stepHead retry polls started budgetMs t wait) := by
  have log : ∀ attempt, Silent p (logRetry ship retry attempt) := fun attempt =>
    .ite (.bind (appendAttempt_silent p _ _) fun _ => .done p _) (.done p _)
  refine .bind (log _) fun _ => .bind (waitingOn_silent p _ t _) fun waiting => .ite ?_ (.ite ?_ ?_)
  · exact .bind (blockMerge_silent p config ship pr _ _ true t) fun _ => .done p _
  · exact .bind (appendAttempt_silent p _ _) fun _ => .done p _
  · exact .bind (.ask (fun _ => trivial) fun _ _ => rfl) fun _ => .done p _

variable {config ship pr}

/-- After a poll config and record are those from before, and `merged` is answered
only once the pull request read back as merged. -/
def Polled (seen seen' : Seen) (step : MergeStep) : Prop :=
  seen'.config = seen.config ∧ seen'.ship = seen.ship ∧
    ∀ headSha score method already, step = .merged headSha score method already →
      SeenMerged p seen'

variable {p}

theorem Polled.other {seen' : Seen} {step : MergeStep} (config : seen'.config = seen.config)
    (ship : seen'.ship = seen.ship)
    (other : ∀ headSha score method already, step ≠ .merged headSha score method already) :
    Polled p seen seen' step :=
  ⟨config, ship, fun _ _ _ _ same => absurd same (other _ _ _ _)⟩

theorem classifyGateReason_ne_merged (reason head headSha : Text) (score : Option ℚ)
    (method : MergeMethod) (already : Bool) :
    classifyGateReason reason head ≠ .merged headSha score method already := by
  unfold classifyGateReason
  split <;> simp

theorem classifyMergeError_ne_merged (error head headSha : Text) (score : Option ℚ)
    (method : MergeMethod) (already : Bool) :
    classifyMergeError error head ≠ .merged headSha score method already := by
  unfold classifyMergeError reviewAgain
  simp only
  repeat' split
  all_goals simp

theorem merge_safe {number : Nat} {method : MergeMethod} {headSha : Text}
    (permitted : Permitted p seen (.prMerge number method headSha)) :
    Safe p (merge p number method headSha) seen fun seen' error =>
      seen'.config = seen.config ∧ seen'.ship = seen.ship ∧
        (error = none → ∃ status, Views p seen' number status ∧ status.state = .merged) := by
  unfold merge
  simp only [wp_bind, safe_prStatus]
  refine ⟨permitted, fun r view => ?_⟩
  split
  · rename_i state
    obtain ⟨status, parsed, merged⟩ := Option.map_eq_some_iff.mp state
    exact ⟨rfl, rfl, fun _ => ⟨status, ⟨view, rfl, parsed⟩, merged⟩⟩
  · split
    · exact ⟨rfl, rfl, fun none => by cases none⟩
    · exact ⟨rfl, rfl, fun none => by cases none⟩

/-- What `mergeOnce` has established when it comes to merge. -/
structure Reviewed (p : Platform) (seen : Seen) (config : ShipConfig) (ship : ShipState)
    (pr : PrRef) (status : PrStatus) (review : ReviewResult) : Prop where
  loaded : seen.config = some config
  autoMerge : config.autoMerge = true
  read : seen.ship = some ship
  recorded : ship.pr = some pr
  latest : ship.rounds.getLast? = some review
  head : review.headSha = some status.headSha
  viewed : Views p seen pr.number status

theorem mergeReviewed_safe {current : ReviewResult}
    (known : Reviewed p seen config ship pr status review)
    (sameStatus : current.status = review.status) (sameScore : current.score = review.score)
    (findings : current.comments = [] → NoFindings seen pr.number review) :
    Safe p (mergeReviewed p config pr status current) seen (Polled p seen) := by
  unfold mergeReviewed
  simp only
  split
  · exact .other rfl rfl (by simp [reviewAgain])
  rename_i passes
  split
  · exact .other rfl rfl (classifyGateReason_ne_merged _ _)
  rename_i ok
  simp only [wp_bind, safe_mergeMethods]
  intro r
  have passes : reviewPasses config current = true := by simpa using passes
  have gate := mergeGate_ok (by simpa using ok)
  obtain ⟨completed, scored, uncommented⟩ := reviewPasses_eq_true passes
  have permitted : ∀ method, Permitted p seen (.prMerge pr.number method status.headSha) :=
    fun method => ⟨config, review, status, {
      loaded := known.loaded, autoMerge := known.autoMerge
      recorded := ⟨ship, pr, known.read, known.recorded, rfl, known.latest⟩
      completed := sameStatus ▸ completed, scored := sameScore ▸ scored
      reviewedHead := known.head, viewed := known.viewed, currentHead := rfl
      isOpen := gate.1, mergeable := gate.2.1, checks := gate.2.2
      noFindings := fun required => findings (uncommented required) }⟩
  refine wp_mono ?_ (merge_safe (permitted _))
  rintro seen' error ⟨sameConfig, sameShip, merged⟩
  cases error with
  | none =>
    obtain ⟨last, viewed, state⟩ := merged rfl
    exact ⟨sameConfig, sameShip, fun _ _ _ _ _ =>
      ⟨ship, pr, last, sameShip.trans known.read, known.recorded, viewed, state⟩⟩
  | some error => exact .other sameConfig sameShip (classifyMergeError_ne_merged _ _)

theorem mergeOpen_safe (known : Reviewed p seen config ship pr status review) (deadlineMs : ℚ) :
    Safe p (mergeOpen p config pr status review deadlineMs) seen (Polled p seen) := by
  unfold mergeOpen
  split
  · rename_i source
    simp only [wp_bind]
    refine wp_mono ?_ (reviewThreads_safe p pr.number (some deadlineMs) seen)
    rintro seen' found ⟨scan, rfl, complete⟩
    cases found with
    | error error => exact .other rfl rfl (by simp)
    | ok threads =>
      have scanned : Reviewed p { seen with scan := scan } config ship pr status review :=
        ⟨known.loaded, known.autoMerge, known.read, known.recorded, known.latest, known.head,
          known.viewed⟩
      refine wp_mono ?_ (mergeReviewed_safe scanned rfl rfl fun uncommented => ?_)
      · exact fun _ _ polled => polled
      · simp only [NoFindings, source]
        exact ⟨threads, complete threads rfl, openThreadComments_eq_nil.mp uncommented⟩
  · rename_i source
    refine mergeReviewed_safe known rfl rfl fun uncommented => ?_
    cases cli : review.source with
    | pr => exact absurd cli source
    | cli => simpa [NoFindings, cli] using uncommented

theorem mergeOnce_safe (loaded : seen.config = some config) (autoMerge : config.autoMerge = true)
    (read : seen.ship = some ship) (recorded : ship.pr = some pr) (deadlineMs : ℚ) :
    Safe p (mergeOnce p config ship pr deadlineMs) seen (Polled p seen) := by
  unfold mergeOnce
  generalize mergeRefusal p config ship pr = refusal
  simp only [wp_bind, safe_prStatus]
  intro r
  split
  · split
    · exact .other rfl rfl (by simp)
    · exact .other rfl rfl (by simp [reviewAgain])
  rename_i status parsed
  have viewed : Views p { seen with view := some (pr.number, r), scan := .idle } pr.number status :=
    ⟨r, rfl, parsed⟩
  split
  · exact .other rfl rfl (by simp)
  · rename_i state
    split
    · exact ⟨rfl, rfl, fun _ _ _ _ _ => ⟨ship, pr, status, read, recorded, viewed, state⟩⟩
    · exact .other rfl rfl (by simp)
  · split
    · exact .other rfl rfl (by simp [reviewAgain])
    · exact .other rfl rfl (by simp [reviewAgain])
    · rename_i review latest
      split
      · exact .other rfl rfl (by simp [reviewAgain])
      · rename_i head
        have known : Reviewed p { seen with view := some (pr.number, r), scan := .idle } config ship
            pr status review :=
          ⟨loaded, autoMerge, read, recorded, latest, not_not.mp head, viewed⟩
        exact wp_mono (fun _ _ polled => polled) (mergeOpen_safe known deadlineMs)

theorem finishMerge_safe (merged : SeenMerged p seen) (headSha : Text) (score : Option ℚ)
    (method : MergeMethod) (already : Bool) (t : ℚ) :
    Safe p (finishMerge config ship pr headSha score method already t) seen fun _ _ => True := by
  have cleaned : Silent p (cleanUp config pr headSha) := by
    refine .ite (.bind ?_ fun _ => .bind ?_ fun _ => .done p _) (.done p _)
    · exact .ask (fun _ => trivial) fun _ _ => rfl
    · exact .ask (fun _ => trivial) fun _ _ => rfl
  unfold finishMerge
  simp only [wp_bind]
  refine wp_mono ?_ (cleaned seen)
  rintro seen' - rfl
  refine wp_mono ?_ (appendAttempt_silent p _ _ seen')
  rintro seen'' - rfl
  exact ⟨fun _ => merged, fun _ => trivial⟩

theorem mergeLoop_safe (loaded : seen.config = some config) (autoMerge : config.autoMerge = true)
    (read : seen.ship = some ship) (recorded : ship.pr = some pr) (started budgetMs : ℚ)
    (polls taken : Nat) (wait : MergeWait) :
    Safe p (mergeLoop p config ship pr started budgetMs polls taken wait) seen
      fun _ _ => True := by
  induction polls generalizing taken wait seen with
  | zero => trivial
  | succ polls ih =>
    unfold mergeLoop
    simp only [wp_bind]
    refine wp_mono ?_ (mergeOnce_safe loaded autoMerge read recorded _)
    rintro seen' step ⟨sameConfig, sameShip, merged⟩
    rw [safe_now]
    intro t
    cases step with
    | merged headSha score method already =>
      simp only [wp_bind]
      exact wp_mono (fun _ _ _ => trivial)
        (finishMerge_safe (merged headSha score method already rfl) headSha score method already t)
    | blocked reason headSha comment =>
      simp only [wp_bind]
      exact wp_mono (fun _ _ _ => trivial)
        (blockMerge_silent p config ship pr reason headSha comment t seen')
    | needsAgent reason next headSha =>
      simp only [wp_bind]
      exact wp_mono (fun _ _ _ => trivial) (appendAttempt_silent p _ _ seen')
    | transient reason headSha retry =>
      simp only [wp_bind]
      refine wp_mono ?_ (waitOrStop_silent p config ship pr reason headSha retry _ _ _ t wait seen')
      rintro seen'' outcome rfl
      cases outcome with
      | inl out => trivial
      | inr wait => exact ih (sameConfig.trans loaded) (sameShip.trans read) _ wait

theorem safe_readShip (seen : Seen) (Q : Seen → SessionShip → Prop) :
    wp (observe p) (Permitted p) readShip seen Q ↔
      ∀ record : Option SessionShip, Q { seen with ship := record.join } record.join :=
  ⟨fun h => h.2, fun h => ⟨trivial, h⟩⟩

theorem stepMerge_safe (loaded : seen.config = some config) (polls : Nat) (budgetMs : ℚ) :
    Safe p (stepMerge p config polls budgetMs) seen fun _ _ => True := by
  unfold stepMerge
  split
  · trivial
  rename_i autoMerge
  simp only [wp_bind, safe_readShip]
  intro record
  cases read : record.join with
  | none => trivial
  | some ship =>
    cases recorded : ship.pr with
    | none =>
      simp only [Option.bind_some, recorded, Option.map_none]
      trivial
    | some pr =>
      simp only [Option.bind_some, recorded, Option.map_some, wp_bind, safe_now]
      intro started
      refine mergeLoop_safe ?_ (by simpa using autoMerge) ?_ recorded started budgetMs polls 0 _
      · exact loaded
      · rfl

variable (p)

/-- Permitted wherever it runs, and the config stays the one loaded. -/
def Quiet {α : Type} (prog : M α) : Prop :=
  ∀ seen, Safe p prog seen fun seen' _ => seen'.config = seen.config

theorem Quiet.done (a : α) : Quiet p (pure a : M α) := fun _ => rfl

variable {p}

theorem Silent.quiet (silent : Silent p prog) : Quiet p prog := by
  have kept : Keeps (observe p) (Permitted p) (fun seen => seen) prog := silent
  exact kept.through Seen.config

theorem Quiet.bind (first : Quiet p prog) (later : ∀ a, Quiet p (next a)) :
    Quiet p (prog >>= next) := by
  have kept : Keeps (observe p) (Permitted p) (fun seen => seen.config) (prog >>= next) :=
    .bind first later
  exact kept

theorem Quiet.ask {c : Call} (permitted : ∀ seen, Permitted p seen c)
    (keeps : ∀ seen r, (observe p seen ⟨c, r⟩).config = seen.config) : Quiet p (ask c) :=
  fun seen => ⟨permitted seen, fun r => keeps seen r⟩

theorem Quiet.ite [Decidable P] (yes : Quiet p first) (no : Quiet p second) :
    Quiet p (if P then first else second) := by
  have kept : Keeps (observe p) (Permitted p) (fun seen => seen.config)
      (if P then first else second) := .ite yes no
  exact kept

variable (p)

theorem readShip_quiet : Quiet p readShip :=
  .bind (.ask (fun _ => trivial) fun _ _ => rfl) fun _ => .done p _

theorem now_quiet : Quiet p now := .ask (fun _ => trivial) fun _ _ => rfl

theorem prStatus_quiet (number : Nat) : Quiet p (prStatus p number) :=
  .bind (.ask (fun _ => trivial) fun _ _ => rfl) fun _ => .done p _

theorem reviewThreads_quiet (number : Nat) (deadlineMs : Option ℚ) :
    Quiet p (reviewThreads p number deadlineMs) := by
  intro seen
  refine wp_mono ?_ (reviewThreads_safe p number deadlineMs seen)
  rintro seen' found ⟨scan, rfl, -⟩
  rfl

theorem writeShip_quiet (other : patch.phase ≠ some .merged) :
    Quiet p (writeShip patch) := (writeShip_silent p other).quiet

theorem stepAssess_quiet (config : ShipConfig) (ignoreGsd : Bool) :
    Quiet p (stepAssess config ignoreGsd) := by
  have assessed : ∀ signals pr, Quiet p (assessFrom config signals pr) := by
    intro signals pr
    refine .bind (.ask (fun _ => trivial) fun _ _ => rfl) fun assessment => ?_
    refine .bind (writeShip_quiet p ?_) fun _ => .done p _
    simp only [ne_eq, Option.some.injEq]
    split <;> simp
  have settled : ∀ ship pr signals, Quiet p (settlePrior ship pr signals) := by
    intro ship pr signals
    refine .ite (.done p _) (.ite (.bind (.ask ?_ fun _ _ => rfl) fun archived => ?_) (.done p _))
    · exact fun _ merged => nomatch merged
    · cases archived <;> exact .done p _
  refine .bind (.ask (fun _ => trivial) fun _ _ => rfl) fun record => ?_
  cases record with
  | none => exact .done p _
  | some session =>
    refine .bind (.ask (fun _ => trivial) fun _ _ => rfl) fun signals => ?_
    split
    · exact assessed signals none
    · refine .bind (settled _ _ signals) fun pr => ?_
      cases pr with
      | error reason => exact .done p _
      | ok pr => exact assessed signals pr

theorem openPr_quiet (branch : Text) (base : Option Text) : Quiet p (openPr p branch base) := by
  have recorded : ∀ (pr : PrRef) (reused : Bool), Quiet p (do
      let _ ← writeShip { pr := some pr, phase := some .prOpen }
      return ({ ok := true, pr := some pr, reused := some reused } : Output)) :=
    fun pr reused => .bind (writeShip_quiet p (by simp)) fun _ => .done p _
  refine .bind (.ask (fun _ => trivial) fun _ _ => rfl) fun repoView => ?_
  dsimp only
  split
  · exact .done p _
  · refine .bind (.ask (fun _ => trivial) fun _ _ => rfl) fun pushed => ?_
    cases pushed with
    | some error => exact .done p _
    | none =>
      refine .bind (.ask (fun _ => trivial) fun _ _ => rfl) fun found => ?_
      cases found with
      | some found => exact recorded _ true
      | none =>
        refine .bind (.ask (fun _ => trivial) fun _ _ => rfl) fun created => ?_
        cases created with
        | error error => exact .done p _
        | ok created => exact recorded _ false

theorem stepPr_quiet : Quiet p (stepPr p) := by
  refine .bind (.ask (fun _ => trivial) fun _ _ => rfl) fun record => ?_
  split
  · exact .done p _
  · refine .ite (.done p _) (.bind (.ask (fun _ => trivial) fun _ _ => rfl) fun git => ?_)
    split
    · exact .done p _
    · exact .ite (.done p _) (.ite (.done p _) (.ite (.done p _) (openPr_quiet p _ _)))

section Review
variable (config : ShipConfig) (ship : ShipState) (pr : PrRef) (status : PrStatus)
  (failedHere : Nat) (reused : Bool) (result : ReviewResult)

theorem recordRound_quiet :
    Quiet p (recordRound p config ship pr status failedHere reused result) := by
  refine .bind (now_quiet p) fun t => .bind ?_ fun attempts => .bind ?_ fun commented => ?_
  · exact (Silent.ite (.done p _) (appendAttempt_silent p _ _)).quiet
  · exact (postComment_silent p _ _ _).quiet
  · refine .bind (writeShip_quiet p ?_) fun _ => .done p _
    simp only [ne_eq, Option.some.injEq]
    repeat' split
    all_goals simp

theorem settleReview_quiet :
    Quiet p (settleReview p config ship pr status failedHere reused result) := by
  have recorded := recordRound_quiet p config ship pr status failedHere reused
  unfold settleReview
  split
  · exact .bind (writeShip_quiet p (by simp)) fun _ => .done p _
  · exact .bind (writeShip_quiet p (by simp)) fun _ => .done p _
  · refine .bind ?_ fun since => .bind (now_quiet p) fun t => .ite ?_ (recorded _)
    · unfold pendingSince
      split
      · exact .done p _
      · exact now_quiet p
    · exact .bind (writeShip_quiet p (by simp)) fun _ => .done p _
  · exact recorded _

theorem reuseRound_quiet (threadDeadline : ℚ) (round : ReviewResult) :
    Quiet p (reuseRound p config ship pr status failedHere threadDeadline round) := by
  refine .ite (.bind (reviewThreads_quiet p _ _) fun threads => ?_)
    (settleReview_quiet p config ship pr status failedHere true round)
  cases threads with
  | error error => exact .done p _
  | ok threads => exact settleReview_quiet p config ship pr status failedHere true _

theorem freshRound_quiet (repo : Text) (failedRounds : List ReviewResult) :
    Quiet p (freshRound p config ship pr status repo failedRounds) := by
  refine .bind (.ask (fun _ => trivial) fun _ _ => rfl) fun r => .ite (.done p _) ?_
  refine .bind (.ask (fun _ => trivial) fun _ _ => rfl) fun result => ?_
  exact settleReview_quiet p config ship pr status _ false result

theorem stepReview_quiet : Quiet p (stepReview p config) := by
  refine .bind (now_quiet p) fun started => .bind (readShip_quiet p) fun record => ?_
  split
  · exact .done p _
  refine .bind (prStatus_quiet p _) fun status => ?_
  cases status with
  | none => exact .done p _
  | some status =>
    refine .bind (.ask (fun _ => trivial) fun _ _ => rfl) fun repoView => ?_
    split
    · exact .done p _
    · dsimp only
      split
      · exact reuseRound_quiet p config _ _ status _ _ _
      · exact freshRound_quiet p config _ _ status _ _

end Review

theorem stepRun_safe {config : ShipConfig} (loaded : seen.config = some config) (ignoreGsd : Bool)
    (polls : Nat) :
    Safe p (stepRun p config ignoreGsd polls) seen fun _ _ => True := by
  unfold stepRun
  simp only [wp_bind, safe_now]
  intro started
  refine wp_mono ?_ (stepAssess_quiet p config ignoreGsd seen)
  intro seen₁ assess kept₁
  split
  · trivial
  simp only [wp_bind]
  refine wp_mono ?_ (stepPr_quiet p seen₁)
  intro seen₂ pr kept₂
  split
  · trivial
  simp only [wp_bind]
  refine wp_mono ?_ (stepReview_quiet p config seen₂)
  intro seen₃ review kept₃
  split
  · trivial
  simp only [wp_bind, safe_now]
  intro t
  have still := ((kept₃.trans kept₂).trans kept₁).trans loaded
  refine wp_mono ?_ (stepMerge_safe still polls _)
  intro seen₄ merge _
  cases merge <;> trivial

theorem runShip_safe (polls : Nat) (command : Command) (seen : Seen) :
    Safe p (runShip p polls command) seen fun _ _ => True := by
  refine ⟨trivial, fun config => ?_⟩
  have anyway : ∀ {α : Type} {prog : M α}, Quiet p prog → Safe p (some <$> prog)
      { seen with config := some config } fun _ _ => True := by
    intro α prog quiet
    simp only [Safe, wp_map]
    exact wp_mono (fun _ _ _ => trivial) (quiet _)
  cases command with
  | assess ignoreGsd => exact anyway (stepAssess_quiet p config ignoreGsd)
  | pr => exact anyway (stepPr_quiet p)
  | review => exact anyway (stepReview_quiet p config)
  | merge => exact stepMerge_safe rfl polls config.waitMs
  | run ignoreGsd => exact stepRun_safe p rfl ignoreGsd polls
  | status =>
    refine anyway (.bind (readShip_quiet p) fun ship => ?_)
    cases ship <;> exact .done p _

theorem session_permitted {h : History Call Answer} (session : Session p h) :
    ∀ before e after, h = before ++ e :: after → Permitted p (seenIn p before) e.1 := by
  induction session with
  | start => simp
  | @command h t o polls command earlier emits ih =>
    intro before e after split
    rcases List.append_eq_append_iff.mp split with ⟨first, rfl, tail⟩ | ⟨rest, rfl, tail⟩
    · have permitted := wp_sound emits (runShip_safe p polls command (seenIn p h)) first e after tail
      simpa [seenIn] using permitted
    · cases rest with
      | nil =>
        have permitted := wp_sound emits (runShip_safe p polls command (seenIn p before)) [] e after
          (by simpa using tail.symm)
        simpa using permitted
      | cons e' rest =>
        obtain ⟨rfl, -⟩ := List.cons.inj tail
        exact ih before _ rest rfl

/-- In every session `gh pr merge` is called only for the recorded pull request at
the head of its last review, behind the whole gate, and `merged` is recorded only
once the pull request read back as merged. -/
theorem merge_safety {h : History Call Answer} (session : Session p h) :
    (∀ before number method headSha r after,
      h = before ++ ⟨.prMerge number method headSha, r⟩ :: after →
        ∃ config review status,
          MayMerge p (seenIn p before) number headSha config review status) ∧
      ∀ before w r after, h = before ++ ⟨.write w, r⟩ :: after → w.recordsMerged = true →
        SeenMerged p (seenIn p before) :=
  ⟨fun before _ _ _ _ after split => session_permitted p session before _ after split,
    fun before _ _ after split => session_permitted p session before _ after split⟩

end Commands

/-! ### A CLI review

The stored review is one of the Greptile CLI, complete and without comments; the
pull request is open at its head, mergeable and without checks. -/

def openJson : Text :=
  js "\x7b\"state\":\"OPEN\",\"headRefOid\":\"c0ffee\",\"mergeable\":\"MERGEABLE\",\"url\":\"u\"\x7d"

def cliPlatform : Platform where
  parseJson := fun t => if t = openJson then
    some (.obj [(js "state", .str (js "OPEN")), (js "headRefOid", .str (js "c0ffee")),
      (js "mergeable", .str (js "MERGEABLE")), (js "url", .str (js "u"))]) else none
  showNumber := fun n => ofNat n.num.toNat
  toUpperCase := id
  toLowerCase := id

def cliReview : ReviewResult := ⟨.cli, .completed, some 5, [], some (js "c0ffee"), none, none⟩

def cliShip : ShipState :=
  { freshShip 0 with
    phase := .ready
    pr := some ⟨7, js "u", js "topic", js "main", none⟩
    rounds := [cliReview] }

def mergingConfig : ShipConfig := { defaultConfig.ship with autoMerge := true }

def cliAnswer : (c : Call) → Answer c
  | .loadConfig => mergingConfig
  | .now => 0
  | .sleep _ => ()
  | .readShip => some (some cliShip)
  | .write _ => none
  | .signals _ => ⟨none, none, false, [], none⟩
  | .assess _ _ _ => ⟨false, 0, [], [], .rules, none⟩
  | .localHead => ⟨1, [], []⟩
  | .review _ => cliReview
  | .repoView _ => ⟨1, [], []⟩
  | .prView _ => ⟨0, openJson, []⟩
  | .prMerge _ _ _ => ⟨1, [], []⟩
  | .threadsPage _ _ _ _ _ => ⟨1, [], []⟩
  | .repoMethods => ⟨1, [], []⟩
  | .push _ => none
  | .findOpenPr _ => none
  | .createPr _ _ => .error []
  | .comment _ _ => false
  | .deleteRemoteBranch _ => none
  | .syncBase _ _ _ => none

def cliTrace : History Call Answer :=
  (respond cliAnswer (runShip cliPlatform 1 .merge)).1

theorem cliTrace_session : Session cliPlatform cliTrace :=
  .command 1 .merge .start (emits_respond cliAnswer _)

theorem cliTrace_merges : ∃ before headSha r after,
    cliTrace = before ++ ⟨.prMerge 7 .squash headSha, r⟩ :: after ∧
      (seenIn cliPlatform before).config = some mergingConfig ∧
      (seenIn cliPlatform before).scan = .idle :=
  ⟨cliTrace.take 5, _, _, _, rfl, rfl, rfl⟩

theorem merge_safety_cli : ∃ before headSha r after,
    cliTrace = before ++ ⟨.prMerge 7 .squash headSha, r⟩ :: after ∧
      ∃ config review status,
        MayMerge cliPlatform (seenIn cliPlatform before) 7 headSha config review status := by
  obtain ⟨before, headSha, r, after, split, -⟩ := cliTrace_merges
  exact ⟨before, headSha, r, after, split,
    (merge_safety cliPlatform cliTrace_session).1 before 7 .squash headSha r after split⟩

/-- Comments are required to be gone and the merge is called without any scan. -/
theorem merge_without_scan :
    ¬∀ (p : Platform) {h : History Call Answer}, Session p h →
      ∀ before number method headSha r after,
        h = before ++ ⟨.prMerge number method headSha, r⟩ :: after →
          ∀ config, (seenIn p before).config = some config → config.requireNoComments = true →
            ∃ threads, (seenIn p before).scan = .complete number threads ∧
              ∀ thread ∈ threads, thread.isOpen = false := by
  intro scanned
  obtain ⟨before, headSha, r, after, split, config, idle⟩ := cliTrace_merges
  obtain ⟨threads, complete, -⟩ := scanned cliPlatform cliTrace_session before 7 .squash headSha r
    after split mergingConfig config rfl
  rw [idle] at complete
  cases complete

end Ultrathink.Guarantees.MergeSafety
