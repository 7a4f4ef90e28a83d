import Mathlib.Data.List.Dedup
import Ultrathink.Source.Ship.Commands

/-!
# Rounds that count, and retries

What the rounds of a ship record add up to over any session of the ship commands on one session
file, with any answers and with stops anywhere. A round that is read again keeps its place, though
its threads may tell then that it does not pass.
-/

namespace Ultrathink.Guarantees.RoundAccounting

open List Library JsText Interaction Source.Config Source.Ship

structure Seen where
  config : Option ShipConfig
  /-- The rounds as last read, while none was written since. -/
  read : Option (List ReviewResult)
  /-- The head of the review asked for since, and its answer. -/
  answer : Option (Text × ReviewResult)

def nothing : Seen := ⟨none, none, none⟩

def setsRounds : Write → Bool
  | .archive => true
  | .patch change => change.rounds.isSome
  | .attempts _ => false

def observe (seen : Seen) : Event Call Answer → Seen
  | ⟨.loadConfig, config⟩ => { seen with config := some config }
  | ⟨.readShip, r⟩ => { seen with read := r.join.map (·.rounds), answer := none }
  | ⟨.review input, r⟩ => { seen with answer := some (input.headSha, r) }
  | ⟨.write w, _⟩ => if setsRounds w then { seen with read := none, answer := none } else seen
  | _ => seen

def seenIn (h : History Call Answer) : Seen := h.foldl observe nothing

/-- Failed and timed-out rounds of a head. -/
def failuresOn (head : Text) (rounds : List ReviewResult) : Nat :=
  rounds.countP fun round => isFailedReview round && round.headSha = some head

/-- A completed round of this head that the next review uses again. -/
def reusable (head : Text) (rounds : List ReviewResult) : Bool :=
  rounds.getLast?.any fun round => round.status = .completed && round.headSha = some head

/-- How the rounds that are written follow those that were read: a completed review or a
failed one is added, or the completed last round is there with comments read again. One
failure more than `reviewRetries` blocks. -/
inductive Recorded (config : ShipConfig) (rounds : List ReviewResult) :
    Option (Text × ReviewResult) → Option ShipPhase → List ReviewResult → Prop
  | completed {head : Text} {review : ReviewResult} {phase : Option ShipPhase}
      (done : review.status = .completed) :
      Recorded config rounds (some (head, review)) phase (rounds ++ [review])
  | failed {head : Text} {answer review : ReviewResult} {phase : Option ShipPhase}
      (failure : isFailedReview review = true) (sameHead : review.headSha = answer.headSha)
      (stops : config.reviewRetries < (failuresOn head rounds + 1 : ℕ) → phase = some .blocked) :
      Recorded config rounds (some (head, answer)) phase (rounds ++ [review])
  | reread {earlier : List ReviewResult} {last : ReviewResult} {comments : List ReviewComment}
      {answer : Option (Text × ReviewResult)} {phase : Option ShipPhase}
      (whole : rounds = earlier ++ [last]) (done : last.status = .completed) :
      Recorded config rounds answer phase (earlier ++ [{ last with comments }])

/-- A review is asked for a head that the last round is no completed one of, and rounds
are written as `Recorded` says. -/
def Permitted (seen : Seen) : Call → Prop
  | .review input => ∃ rounds, seen.read = some rounds ∧ reusable input.headSha rounds = false
  | .write (.patch change) => ∀ rounds', change.rounds = some rounds' → ∃ config rounds,
      seen.config = some config ∧ seen.read = some rounds ∧
        Recorded config rounds seen.answer change.phase rounds'
  | _ => True

variable {α : Type} {prog : M α} {rounds rounds' : List ReviewResult} {phase : Option ShipPhase}
  {e : Event Call Answer} {seen : Seen}

section Commands
variable (p : Platform)

abbrev Safe {α : Type} (prog : M α) (seen : Seen) (Q : Seen → α → Prop) : Prop :=
  wp observe Permitted prog seen Q

abbrev Silent {α : Type} (prog : M α) : Prop := Keeps observe Permitted id prog

abbrev Quiet {α : Type} (prog : M α) : Prop := Keeps observe Permitted (·.config) prog

theorem Silent.quiet (silent : Silent prog) : Quiet prog :=
  Keeps.through silent Seen.config

theorem now_silent : Silent now := .call (fun _ => trivial) fun _ _ => rfl

theorem prStatus_silent (number : Nat) : Silent (prStatus p number) :=
  .bind (.call (fun _ => trivial) fun _ _ => rfl) fun _ => .done _

theorem remaining_silent (deadlineMs : Option ℚ) : Silent (remaining deadlineMs) := by
  cases deadlineMs with
  | none => exact .done _
  | some deadline => exact .bind now_silent fun _ => .done _

theorem scanPages_silent (owner name : Text) (number : Nat) (deadlineMs : Option ℚ) (pages : Nat)
    (after : Option Text) (cursors : List Text) (threads : List ReviewThread) :
    Silent (scanPages p owner name number deadlineMs pages after cursors threads) := by
  induction pages generalizing after cursors threads with
  | zero => exact .done _
  | succ pages ih =>
    refine .bind (remaining_silent _) fun left => .ite (.done _) ?_
    refine .bind (.call (fun _ => trivial) fun _ _ => rfl) fun r => ?_
    refine .bind (remaining_silent _) fun left' => .ite (.done _) (.ite (.done _) ?_)
    split
    · exact .done _
    · exact .done _
    · exact .ite (.done _) (ih _ _ _)

theorem reviewThreads_silent (number : Nat) (deadlineMs : Option ℚ) :
    Silent (reviewThreads p number deadlineMs) := by
  refine .bind (remaining_silent _) fun left => .ite (.done _) ?_
  refine .bind (.call (fun _ => trivial) fun _ _ => rfl) fun r => ?_
  refine .bind (remaining_silent _) fun left' => .ite (.done _) ?_
  split
  · exact .ite (.done _) (scanPages_silent p _ _ _ _ _ _ _ _)
  · exact .done _

theorem writeShip_silent {change : ShipPatch} (other : change.rounds = none) :
    Silent (writeShip change) := by
  apply Keeps.call
  · intro seen rounds' set_
    rw [other] at set_
    cases set_
  · intro seen r
    exact if_neg (by simp [setsRounds, other])

theorem appendAttempt_silent (attempts : List ShipAttempt) (attempt : ShipAttempt) :
    Silent (appendAttempt attempts attempt) :=
  .bind (.call (fun _ => trivial) fun _ _ => rfl) fun _ => .done _

theorem postComment_silent (due : Bool) (number : Nat) (body : StoppedComment) :
    Silent (postComment due number body) :=
  .ite (.bind (.call (fun _ => trivial) fun _ _ => rfl) fun _ => .done _) (.done _)

theorem readShip_quiet : Quiet readShip :=
  .bind (.call (fun _ => trivial) fun _ _ => rfl) fun _ => .done _

theorem archive_quiet : Quiet (ask (.write .archive)) := by
  apply Keeps.call
  · exact fun _ => trivial
  · exact fun _ _ => rfl

theorem stepAssess_quiet (config : ShipConfig) (ignoreGsd : Bool) :
    Quiet (stepAssess config ignoreGsd) := by
  have assessed : ∀ signals pr, Quiet (assessFrom config signals pr) := by
    intro signals pr
    refine .bind (.call (fun _ => trivial) fun _ _ => rfl) fun assessment => ?_
    exact .bind (Silent.quiet (writeShip_silent rfl)) fun _ => .done _
  have settled : ∀ ship pr signals, Quiet (settlePrior ship pr signals) := by
    intro ship pr signals
    refine .ite (.done _) (.ite (.bind archive_quiet fun archived => ?_) (.done _))
    cases archived <;> exact .done _
  refine .bind (.call (fun _ => trivial) fun _ _ => rfl) fun record => ?_
  cases record with
  | none => exact .done _
  | some session =>
    refine .bind (.call (fun _ => trivial) fun _ _ => rfl) fun signals => ?_
    split
    · exact assessed signals none
    · refine .bind (settled _ _ signals) fun pr => ?_
      cases pr with
      | error reason => exact .done _
      | ok pr => exact assessed signals pr

theorem openPr_quiet (branch : Text) (base : Option Text) : Quiet (openPr p branch base) := by
  have recorded : ∀ (pr : PrRef) (reused : Bool), Quiet (do
      let _ ← writeShip { pr := some pr, phase := some .prOpen }
      return ({ ok := true, pr := some pr, reused := some reused } : Output)) :=
    fun pr reused => .bind (Silent.quiet (writeShip_silent rfl)) fun _ => .done _
  refine .bind (.call (fun _ => trivial) fun _ _ => rfl) fun repoView => ?_
  dsimp only
  split
  · exact .done _
  · refine .bind (.call (fun _ => trivial) fun _ _ => rfl) fun pushed => ?_
    cases pushed with
    | some error => exact .done _
    | none =>
      refine .bind (.call (fun _ => trivial) fun _ _ => rfl) fun found => ?_
      cases found with
      | some found => exact recorded _ true
      | none =>
        refine .bind (.call (fun _ => trivial) fun _ _ => rfl) fun created => ?_
        cases created with
        | error error => exact .done _
        | ok created => exact recorded _ false

theorem stepPr_quiet : Quiet (stepPr p) := by
  refine .bind (.call (fun _ => trivial) fun _ _ => rfl) fun record => ?_
  split
  · exact .done _
  · refine .ite (.done _) (.bind (.call (fun _ => trivial) fun _ _ => rfl) fun git => ?_)
    split
    · exact .done _
    · exact .ite (.done _) (.ite (.done _) (.ite (.done _) (openPr_quiet p _ _)))

section Merging
variable (config : ShipConfig) (ship : ShipState) (pr : PrRef)

theorem blockMerge_silent (reason headSha : Text) (comment : Bool) (t : ℚ) :
    Silent (blockMerge config ship pr reason headSha comment t) :=
  .bind (appendAttempt_silent _ _) fun _ => .bind (postComment_silent _ _ _) fun _ =>
    .bind (writeShip_silent rfl) fun _ => .done _

theorem waitOrStop_silent (reason : Text) (stepHead : Option Text) (retry : Bool) (polls : Nat)
    (started budgetMs t : ℚ) (wait : MergeWait) :
    Silent (waitOrStop p config ship pr reason stepHead retry polls started budgetMs t wait) := by
  have log : ∀ attempt, Silent (logRetry ship retry attempt) := fun attempt =>
    .ite (.bind (appendAttempt_silent _ _) fun _ => .done _) (.done _)
  have waits : ∀ headSha waiting, Silent (waitingOn headSha t waiting) := by
    intro headSha waiting
    unfold waitingOn
    split
    · exact .done _
    · exact .bind (writeShip_silent rfl) fun _ => .done _
  refine .bind (log _) fun _ => .bind (waits _ _) fun waiting => .ite ?_ (.ite ?_ ?_)
  · exact .bind (blockMerge_silent config ship pr _ _ _ _) fun _ => .done _
  · exact .bind (appendAttempt_silent _ _) fun _ => .done _
  · exact .bind (.call (fun _ => trivial) fun _ _ => rfl) fun _ => .done _

theorem merge_silent (number : Nat) (method : MergeMethod) (headSha : Text) :
    Silent (merge p number method headSha) :=
  .bind (.call (fun _ => trivial) fun _ _ => rfl) fun _ =>
    .bind (prStatus_silent p number) fun _ => .ite (.done _) (.ite (.done _) (.done _))

theorem mergeReviewed_silent (status : PrStatus) (latest : ReviewResult) :
    Silent (mergeReviewed p config pr status latest) := by
  refine .ite (.done _) (.ite (.done _) (.bind ?_ fun allowed => ?_))
  · exact .bind (.call (fun _ => trivial) fun _ _ => rfl) fun _ => .done _
  · refine .bind (merge_silent p _ _ _) fun outcome => ?_
    cases outcome <;> exact .done _

theorem mergeOnce_silent (deadlineMs : ℚ) : Silent (mergeOnce p config ship pr deadlineMs) := by
  refine .bind (prStatus_silent p _) fun status => ?_
  cases status with
  | none =>
    dsimp only
    split <;> exact .done _
  | some status =>
    dsimp only
    split
    · exact .done _
    · exact .ite (.done _) (.done _)
    · split
      · exact .done _
      · exact .done _
      · refine .ite (.done _) (.ite ?_ (mergeReviewed_silent p config pr status _))
        refine .bind (reviewThreads_silent p _ _) fun threads => ?_
        cases threads with
        | error error => exact .done _
        | ok threads => exact mergeReviewed_silent p config pr status _

theorem finishMerge_silent (headSha : Text) (score : Option ℚ) (method : MergeMethod)
    (alreadyMerged : Bool) (t : ℚ) :
    Silent (finishMerge config ship pr headSha score method alreadyMerged t) := by
  have cleaned : Silent (cleanUp config pr headSha) :=
    .ite (.bind (.call (fun _ => trivial) fun _ _ => rfl) fun _ =>
      .bind (.call (fun _ => trivial) fun _ _ => rfl) fun _ => .done _) (.done _)
  exact .bind cleaned fun _ => .bind (appendAttempt_silent _ _) fun _ =>
    .bind (writeShip_silent rfl) fun _ => .done _

theorem mergeLoop_silent (started budgetMs : ℚ) (polls taken : Nat) (wait : MergeWait) :
    Silent (mergeLoop p config ship pr started budgetMs polls taken wait) := by
  induction polls generalizing taken wait with
  | zero => exact .done _
  | succ polls ih =>
    refine .bind (mergeOnce_silent p config ship pr _) fun step => .bind now_silent fun t => ?_
    cases step with
    | merged headSha score method alreadyMerged =>
      exact .bind (finishMerge_silent config ship pr _ _ _ _ _) fun _ => .done _
    | blocked reason headSha comment =>
      exact .bind (blockMerge_silent config ship pr _ _ _ _) fun _ => .done _
    | needsAgent reason next headSha => exact .bind (appendAttempt_silent _ _) fun _ => .done _
    | transient reason headSha retry =>
      refine .bind (waitOrStop_silent p config ship pr _ _ _ _ _ _ _ _) fun outcome => ?_
      cases outcome with
      | inl out => exact .done _
      | inr wait => exact ih _ wait

end Merging

theorem stepMerge_quiet (config : ShipConfig) (polls : Nat) (budgetMs : ℚ) :
    Quiet (stepMerge p config polls budgetMs) := by
  refine .ite (.done _) (.bind readShip_quiet fun ship => ?_)
  split
  · exact .done _
  · exact .bind (Silent.quiet now_silent) fun _ =>
      Silent.quiet (mergeLoop_silent p config _ _ _ _ _ _ _)

section Review
variable {p} {config : ShipConfig} {ship : ShipState} {pr : PrRef} {status : PrStatus} {seen : Seen}
  {failedHere : Nat} {reused : Bool} {result : ReviewResult}

/-- The config and the rounds that the step goes on with are those loaded and read. -/
def Ready (config : ShipConfig) (ship : ShipState) (seen : Seen) : Prop :=
  seen.config = some config ∧ seen.read = some ship.rounds

theorem safe_after {β : Type} {next : α → M β} {Q : Seen → β → Prop} (first : Silent prog)
    (later : ∀ a, Safe (next a) seen Q) : Safe (prog >>= next) seen Q := by
  rw [Safe, wp_bind]
  apply wp_mono _ (first seen)
  intro seen' a same
  rw [show seen' = seen from same]
  exact later a

theorem quiet_safe (quiet : Quiet prog) :
    Safe prog seen fun seen' _ => seen'.config = seen.config := quiet seen

theorem recordRound_safe (ready : Ready config ship seen)
    (recorded : ∀ phase : ShipPhase,
      (isFailedReview result = true → config.reviewRetries < (failedHere + 1 : ℕ) →
        phase = .blocked) →
      Recorded config ship.rounds seen.answer (some phase)
        ((if reused then ship.rounds.dropLast else ship.rounds) ++ [result])) :
    Safe (recordRound p config ship pr status failedHere reused result) seen
      fun seen' _ => seen'.config = seen.config := by
  refine safe_after now_silent fun t => safe_after ?_ fun attempts => safe_after ?_ fun commented => ?_
  · exact .ite (.done _) (appendAttempt_silent _ _)
  · exact postComment_silent _ _ _
  · refine ⟨?_, fun _ => rfl⟩
    intro rounds' set_
    cases set_
    refine ⟨config, ship.rounds, ready.1, ready.2, recorded _ ?_⟩
    intro failure past
    have failed : result.status = .failed ∨ result.status = .timeout := by
      simpa [isFailedReview] using failure
    have incomplete : result.status ≠ .completed := by
      rcases failed with at_ | at_ <;> rw [at_] <;> simp
    have shut : (mergeGate p config status (some result)).ok = false := by
      unfold mergeGate
      simp only [if_pos incomplete]
    have fails : reviewPasses config result = false := if_pos incomplete
    have text : ∃ failure, failureText result = some failure := ⟨_, if_pos failure⟩
    obtain ⟨failureName, text⟩ := text
    have stopped : (roundBlocked p config status result (mergeGate p config status (some result))
        (if isFailedReview result then failedHere + 1 else 0)
        (countFailedRounds config ((if reused then ship.rounds.dropLast else ship.rounds) ++
          [result]))).isSome = true := by
      unfold roundBlocked
      simp only [shut, fails, failure, text, if_pos past, Bool.and_false, Bool.or_false,
        Bool.false_eq_true, if_false, if_true]
      split
      · rfl
      · split <;> rfl
    simp only [shut, fails, stopped, Bool.and_false, Bool.or_false, Bool.false_eq_true, if_false,
      if_true]

theorem settleReview_fresh {head : Text} (ready : Ready config ship seen)
    (answered : seen.answer = some (head, result)) :
    Safe (settleReview p config ship pr status (failuresOn head ship.rounds) false result) seen
      fun seen' _ => seen'.config = seen.config := by
  have failed : ∀ review : ReviewResult, isFailedReview review = true →
      review.headSha = result.headSha →
      Safe (recordRound p config ship pr status (failuresOn head ship.rounds) false review) seen
        fun seen' _ => seen'.config = seen.config := by
    intro review failure sameHead
    apply recordRound_safe ready
    intro phase stops
    rw [answered]
    exact .failed failure sameHead fun past => congrArg some (stops failure past)
  unfold settleReview
  split
  · exact quiet_safe (.bind (Silent.quiet (writeShip_silent rfl)) fun _ => .done _)
  · exact quiet_safe (.bind (Silent.quiet (writeShip_silent rfl)) fun _ => .done _)
  · refine safe_after ?_ fun since => safe_after now_silent fun t => ?_
    · unfold pendingSince
      split
      · exact .done _
      · exact now_silent
    · split
      · exact quiet_safe (.bind (Silent.quiet (writeShip_silent rfl)) fun _ => .done _)
      · exact failed _ rfl rfl
  · rename_i unverified blocked pending
    by_cases done : result.status = .completed
    · apply recordRound_safe ready
      intro phase _
      rw [answered]
      exact .completed done
    · apply failed result _ rfl
      unfold isFailedReview
      cases at_ : result.status with
      | completed => exact absurd at_ done
      | pending => exact absurd at_ pending
      | unverified => exact absurd at_ unverified
      | blocked => exact absurd at_ blocked
      | _ => rfl

theorem settleReview_reread {earlier : List ReviewResult} {last : ReviewResult}
    {comments : List ReviewComment} (ready : Ready config ship seen)
    (whole : ship.rounds = earlier ++ [last]) (done : last.status = .completed) :
    Safe (settleReview p config ship pr status failedHere true { last with comments }) seen
      fun seen' _ => seen'.config = seen.config := by
  have stays : ∀ other, other ≠ ReviewStatus.completed → last.status ≠ other :=
    fun other differs same => differs (same.symm.trans done)
  unfold settleReview
  split
  · exact absurd ‹_› (stays .unverified (by simp))
  · exact absurd ‹_› (stays .blocked (by simp))
  · exact absurd ‹_› (stays .pending (by simp))
  · apply recordRound_safe ready
    intro phase _
    rw [if_pos rfl, whole, dropLast_concat]
    exact .reread rfl done

theorem reuseRound_safe {threadDeadline : ℚ} {earlier : List ReviewResult} {last : ReviewResult}
    (ready : Ready config ship seen) (whole : ship.rounds = earlier ++ [last])
    (done : last.status = .completed) :
    Safe (reuseRound p config ship pr status failedHere threadDeadline last) seen
      fun seen' _ => seen'.config = seen.config := by
  unfold reuseRound
  split
  · refine safe_after (reviewThreads_silent p _ _) fun threads => ?_
    cases threads with
    | error error => exact rfl
    | ok threads => exact settleReview_reread ready whole done
  · exact @settleReview_reread p config ship pr status seen failedHere earlier last last.comments
      ready whole done

theorem freshRound_safe {repo : Text} (ready : Ready config ship seen)
    (fresh : reusable status.headSha ship.rounds = false) :
    Safe (freshRound p config ship pr status repo (ship.rounds.filter fun round =>
        isFailedReview round && round.headSha = some status.headSha)) seen
      fun seen' _ => seen'.config = seen.config := by
  have count : (ship.rounds.filter fun round => isFailedReview round &&
      round.headSha = some status.headSha).length = failuresOn status.headSha ship.rounds :=
    countP_eq_length_filter.symm
  unfold freshRound
  refine safe_after (.call (fun _ => trivial) fun _ _ => rfl) fun r => ?_
  dsimp only
  generalize (if r.exitCode = 0 then trim r.stdout else []) = head
  split
  · exact rfl
  · rw [Safe, wp_bind]
    refine ⟨⟨ship.rounds, ready.2, fresh⟩, fun result => ?_⟩
    rw [count]
    exact settleReview_fresh ready rfl

theorem safe_readShip (seen : Seen) (Q : Seen → SessionShip → Prop) :
    wp observe Permitted readShip seen Q ↔
      ∀ r : Option SessionShip, Q (observe seen ⟨.readShip, r⟩) r.join :=
  ⟨fun h => h.2, fun h => ⟨trivial, h⟩⟩

theorem stepReview_safe (loaded : seen.config = some config) :
    Safe (stepReview p config) seen fun seen' _ => seen'.config = seen.config := by
  refine safe_after now_silent fun started => ?_
  rw [Safe, wp_bind, safe_readShip]
  intro record
  have ready : ∀ ship, record.join = some ship → Ready config ship (observe seen ⟨.readShip, record⟩) := by
    intro ship found
    refine ⟨loaded, ?_⟩
    rw [observe, found]
    rfl
  have same : (observe seen ⟨.readShip, record⟩).config = seen.config := rfl
  rw [← same]
  generalize observe seen ⟨.readShip, record⟩ = seen at ready
  cases read : record.join with
  | none => exact rfl
  | some ship =>
    have ready := ready ship read
    cases recorded : ship.pr with
    | none =>
      simp only [Option.bind_some, recorded, Option.map_none]
      exact rfl
    | some pr =>
      simp only [Option.bind_some, recorded, Option.map_some]
      refine safe_after (prStatus_silent p _) fun status => ?_
      cases status with
      | none => exact rfl
      | some status =>
        refine safe_after (.call (fun _ => trivial) fun _ _ => rfl) fun repoView => ?_
        split
        · exact rfl
        · split
          · rename_i round again
            obtain ⟨last, kept⟩ := Option.filter_eq_some_iff.mp again
            obtain ⟨earlier, whole⟩ := getLast?_eq_some_iff.mp last
            exact reuseRound_safe ready whole (by simp at kept; exact kept.1)
          · rename_i again
            apply freshRound_safe ready
            cases last : ship.rounds.getLast? with
            | none => simp [reusable, last]
            | some round =>
              rw [last] at again
              simpa [reusable, last, Option.filter] using again

end Review

theorem stepRun_safe {config : ShipConfig} (loaded : seen.config = some config) (ignoreGsd : Bool)
    (polls : Nat) :
    Safe (stepRun p config ignoreGsd polls) seen fun _ _ => True := by
  refine safe_after now_silent fun started => ?_
  rw [Safe, wp_bind]
  refine wp_mono ?_ (stepAssess_quiet config ignoreGsd seen)
  intro seen₁ assess kept₁
  split
  · trivial
  rw [wp_bind]
  refine wp_mono ?_ (stepPr_quiet p seen₁)
  intro seen₂ pr kept₂
  split
  · trivial
  rw [wp_bind]
  refine wp_mono ?_ (stepReview_safe ((kept₂.trans kept₁).trans loaded))
  intro seen₃ review _
  dsimp only
  split
  · trivial
  refine safe_after now_silent fun t => ?_
  rw [Safe, wp_bind]
  refine wp_mono ?_ (stepMerge_quiet p config polls _ seen₃)
  intro seen₄ merge _
  cases merge <;> trivial

theorem runShip_safe (polls : Nat) (command : Command) (seen : Seen) :
    Safe (runShip p polls command) seen fun _ _ => True := by
  refine ⟨trivial, fun config => ?_⟩
  have anyway : ∀ {α : Type} {prog : M α} {seen : Seen} {Q : Seen → α → Prop}, Safe prog seen Q →
      Safe (some <$> prog) seen fun _ _ => True := by
    intro α prog seen Q safe
    simp only [Safe, wp_map]
    exact wp_mono (fun _ _ _ => trivial) safe
  cases command with
  | assess ignoreGsd => exact anyway (stepAssess_quiet config ignoreGsd _)
  | pr => exact anyway (stepPr_quiet p _)
  | review => exact anyway (stepReview_safe rfl)
  | merge => exact wp_mono (fun _ _ _ => trivial) (stepMerge_quiet p config polls _ _)
  | run ignoreGsd => exact stepRun_safe p rfl ignoreGsd polls
  | status =>
    refine anyway (Q := fun _ _ => True) ?_
    rw [Safe, stepStatus, wp_bind, safe_readShip]
    intro record
    cases record.join <;> trivial

theorem session_permitted {h : History Call Answer} (session : Session p h) :
    ∀ before e after, h = before ++ e :: after → Permitted (seenIn before) e.1 := by
  induction session with
  | start => simp
  | @command h t o polls command earlier emits ih =>
    intro before e after split
    rcases append_eq_append_iff.mp split with ⟨first, rfl, tail⟩ | ⟨rest, rfl, tail⟩
    · have permitted := wp_sound emits (runShip_safe p polls command (seenIn h)) first e after tail
      simpa [seenIn] using permitted
    · cases rest with
      | nil =>
        have permitted := wp_sound emits (runShip_safe p polls command (seenIn before)) [] e after
          (by simpa using tail.symm)
        simpa using permitted
      | cons e' rest =>
        obtain ⟨rfl, -⟩ := List.cons.inj tail
        exact ih before _ rest rfl

end Commands

/-- What was seen, the record as it is stored, whether a write has blocked it, how many
reviews were answered as completed, and for each head the failures it had when its reviews
were asked for. -/
structure Book extends Seen where
  file : Option ShipState
  blocked : Bool
  completions : Nat
  tries : Text → List Nat

def opening (file : Option ShipState) : Book := { nothing with
  file, blocked := false, completions := 0, tries := fun _ => [] }

def roundsOf (file : Option ShipState) : List ReviewResult := (file.map (·.rounds)).getD []

def isCompletion : Event Call Answer → Bool
  | ⟨.review _, r⟩ => r.status = .completed
  | _ => false

def blocks : Event Call Answer → Bool
  | ⟨.write (.patch change), some _⟩ => change.phase = some .blocked
  | _ => false

def stored (file : Option ShipState) : Event Call Answer → Option ShipState
  | ⟨.write _, some ship⟩ => some ship
  | _ => file

/-- The `k`-th entry above 0 is the re-trigger after the `k`-th failure; a new record
starts anew. -/
def tried (book : Book) : Event Call Answer → Text → List Nat
  | ⟨.review input, _⟩ => fun head =>
    if head = input.headSha then book.tries head ++ [failuresOn head (roundsOf book.file)]
    else book.tries head
  | ⟨.write .archive, some _⟩ => fun _ => []
  | _ => book.tries

def note (book : Book) (e : Event Call Answer) : Book := { observe book.toSeen e with
  file := stored book.file e
  blocked := book.blocked || blocks e
  completions := book.completions + if isCompletion e then 1 else 0
  tries := tried book e }

def bookIn (file : Option ShipState) (h : History Call Answer) : Book := h.foldl note (opening file)

/-- One config throughout, the record is read as it is stored and written as the writers
build it, and a review is of the head asked for. -/
def Honest (config : ShipConfig) (file : Option ShipState) : Event Call Answer → Prop
  | ⟨.loadConfig, loaded⟩ => loaded = config
  | ⟨.readShip, r⟩ => r = none ∨ r = some file
  | ⟨.write w, r⟩ => ∀ ship, r = some ship → ∃ t, ship = w.build file t
  | ⟨.review input, r⟩ => r.headSha = some input.headSha
  | _ => True

def completedRounds (rounds : List ReviewResult) : Nat :=
  rounds.countP fun round => round.status = .completed

theorem patch_rounds (change : ShipPatch) (file : Option ShipState) (t : ℚ) :
    ((Write.patch change).build file t).rounds = change.rounds.getD (roundsOf file) := by
  cases file <;> rfl

theorem attempts_rounds (added : List ShipAttempt) (file : Option ShipState) (t : ℚ) :
    ((Write.attempts added).build file t).rounds = roundsOf file := by
  cases file <;> rfl

section Accounts
variable {config : ShipConfig}

/-- No failure of this head, or no more of them than the retries. -/
def Within (config : ShipConfig) (failures : Nat) : Prop :=
  failures = 0 ∨ (failures : ℚ) ≤ config.reviewRetries

/-- The review that was asked for and is not recorded yet is completed. -/
def awaiting (seen : Seen) : Nat :=
  if seen.answer.any fun answer => answer.2.status = .completed then 1 else 0

/-- `base` are the completed rounds of the record at the start, `began` says that its heads
were within the retries. -/
structure Sound (config : ShipConfig) (base : Nat) (began : Prop) (book : Book) : Prop where
  loaded : ∀ c, book.config = some c → c = config
  reading : ∀ rounds, book.read = some rounds → rounds = roundsOf book.file
  answered : ∀ head review, book.answer = some (head, review) → review.headSha = some head
  completed : completedRounds (roundsOf book.file) + awaiting book.toSeen ≤ base + book.completions
  retries : began → book.blocked = false → ∀ head, Within config (failuresOn head (roundsOf book.file))
  tried : began → book.blocked = false → ∀ head, ∀ k ∈ book.tries head, Within config k

theorem Recorded.counts (recorded : Recorded config rounds seen.answer phase rounds')
    (answered : ∀ head review, seen.answer = some (head, review) → review.headSha = some head) :
    completedRounds rounds' ≤ completedRounds rounds + awaiting seen ∧
      (phase ≠ some .blocked → (∀ head, Within config (failuresOn head rounds)) →
        ∀ head, Within config (failuresOn head rounds')) := by
  generalize at_ : seen.answer = answer at recorded
  cases recorded with
  | @completed head review phase done =>
    constructor
    · simp [completedRounds, awaiting, at_, done, countP_append]
    · intro _ within head'
      have same : failuresOn head' (rounds ++ [review]) = failuresOn head' rounds := by
        simp [failuresOn, countP_append, isFailedReview, done]
      rw [same]
      exact within head'
  | @failed head answer review phase failure sameHead stops =>
    have incomplete : review.status ≠ .completed := by
      intro done
      simp [isFailedReview, done] at failure
    constructor
    · simp [completedRounds, countP_append, incomplete]
    · intro open_ within head'
      have of : review.headSha = some head := sameHead.trans (answered head answer at_)
      by_cases same : head' = head
      · have more : failuresOn head' (rounds ++ [review]) = failuresOn head rounds + 1 := by
          simp [failuresOn, countP_append, failure, of, same]
        rw [more]
        exact Or.inr (not_lt.mp fun past => open_ (stops past))
      · have kept : failuresOn head' (rounds ++ [review]) = failuresOn head' rounds := by
          simp [failuresOn, countP_append, of, Ne.symm same]
        rw [kept]
        exact within head'
  | @reread earlier last comments answer phase whole done =>
    subst whole
    constructor
    · simp [completedRounds, countP_append]
    · intro _ within head'
      have same : failuresOn head' (earlier ++ [{ last with comments }]) =
          failuresOn head' (earlier ++ [last]) := by
        simp [failuresOn, countP_append, isFailedReview]
      rw [same]
      exact within head'

variable {base : Nat} {began : Prop} {book : Book}

theorem Sound.note_read (sound : Sound config base began book) {r : Option SessionShip}
    (honest : Honest config book.file ⟨.readShip, r⟩) :
    Sound config base began (note book ⟨.readShip, r⟩) where
  loaded := sound.loaded
  reading rounds at_ := by
    rcases honest with rfl | rfl
    · cases at_
    · cases file : book.file with
      | none =>
        rw [file] at at_
        cases at_
      | some ship =>
        rw [file] at at_
        cases at_
        change ship.rounds = roundsOf book.file
        rw [file]
        rfl
  answered head review at_ := by cases at_
  completed := (Nat.add_le_add_left (Nat.zero_le _) _).trans sound.completed
  retries begun open_ := sound.retries begun (by simpa [note, blocks] using open_)
  tried begun open_ := sound.tried begun (by simpa [note, blocks] using open_)

theorem Sound.note_review (sound : Sound config base began book) {input : ReviewInput} {r : ReviewResult}
    (honest : Honest config book.file ⟨.review input, r⟩) :
    Sound config base began (note book ⟨.review input, r⟩) where
  loaded := sound.loaded
  reading := sound.reading
  answered head review at_ := by
    cases at_
    exact honest
  completed := by
    have before := sound.completed
    have now_ : awaiting (note book ⟨.review input, r⟩).toSeen ≤
        if isCompletion ⟨.review input, r⟩ then 1 else 0 := by
      simp [awaiting, note, observe, isCompletion]
    have file : (note book ⟨.review input, r⟩).file = book.file := rfl
    have count : (note book ⟨.review input, r⟩).completions = book.completions +
      if isCompletion ⟨.review input, r⟩ then 1 else 0 := rfl
    rw [file, count]
    omega
  retries begun open_ := sound.retries begun (by simpa [note, blocks] using open_)
  tried begun open_ head k mem := by
    have still : book.blocked = false := by simpa [note, blocks] using open_
    have mem : k ∈ (if head = input.headSha then
        book.tries head ++ [failuresOn head (roundsOf book.file)] else book.tries head) := mem
    split at mem
    · rcases mem_append.mp mem with old | new
      · exact sound.tried begun still head k old
      · rw [mem_singleton.mp new]
        exact sound.retries begun still head
    · exact sound.tried begun still head k mem

theorem Sound.kept (sound : Sound config base began book) {next : Book}
    (config_ : next.config = book.config)
    (reading : next.read = book.read ∨ next.read = none)
    (answer : next.answer = book.answer ∨ next.answer = none)
    (rounds : roundsOf next.file = roundsOf book.file) (count : next.completions = book.completions)
    (blocked : next.blocked = false → book.blocked = false) (tries : next.tries = book.tries) :
    Sound config base began next where
  loaded := by
    rw [config_]
    exact sound.loaded
  reading rounds' at_ := by
    rcases reading with same | none_
    · rw [rounds]
      exact sound.reading rounds' (same.symm.trans at_)
    · rw [none_] at at_
      cases at_
  answered head review at_ := by
    rcases answer with same | none_
    · exact sound.answered head review (same.symm.trans at_)
    · rw [none_] at at_
      cases at_
  completed := by
    have fewer : awaiting next.toSeen ≤ awaiting book.toSeen := by
      rcases answer with same | none_
      · rw [awaiting, awaiting, same]
      · simp [awaiting, none_]
    rw [rounds, count]
    exact (Nat.add_le_add_left fewer _).trans sound.completed
  retries begun open_ := by
    rw [rounds]
    exact sound.retries begun (blocked open_)
  tried begun open_ := by
    rw [tries]
    exact sound.tried begun (blocked open_)

theorem Sound.note_write (sound : Sound config base began book) {w : Write} {r : Option ShipState}
    (permitted : Permitted book.toSeen (.write w)) (honest : Honest config book.file ⟨.write w, r⟩) :
    Sound config base began (note book ⟨.write w, r⟩) := by
  have config_ : (note book ⟨.write w, r⟩).config = book.config := by
    simp only [note, observe]
    split <;> rfl
  have reading : (note book ⟨.write w, r⟩).read = book.read ∨ (note book ⟨.write w, r⟩).read = none := by
    simp only [note, observe]
    split
    · exact Or.inr rfl
    · exact Or.inl rfl
  have answer : (note book ⟨.write w, r⟩).answer = book.answer ∨
      (note book ⟨.write w, r⟩).answer = none := by
    simp only [note, observe]
    split
    · exact Or.inr rfl
    · exact Or.inl rfl
  have open_ : (note book ⟨.write w, r⟩).blocked = false → book.blocked = false := by
    intro open_
    exact (Bool.or_eq_false_iff.mp open_).1
  cases r with
  | none =>
    refine sound.kept config_ reading answer rfl rfl open_ ?_
    cases w <;> rfl
  | some ship =>
    obtain ⟨t, built⟩ := honest ship rfl
    have stored_ : roundsOf (note book ⟨.write w, some ship⟩).file = (w.build book.file t).rounds := by
      rw [← built]
      rfl
    cases w with
    | archive =>
      have none_ : roundsOf (note book ⟨.write .archive, some ship⟩).file = [] := stored_
      refine ⟨sound.loaded, ?_, ?_, ?_, ?_, ?_⟩
      · exact fun rounds at_ => nomatch at_
      · exact fun head review at_ => nomatch at_
      · rw [none_]
        exact Nat.zero_le _
      · intro _ _ head
        rw [none_]
        exact Or.inl rfl
      · intro _ _ head k mem
        cases mem
    | attempts added =>
      exact sound.kept config_ reading answer (stored_.trans (attempts_rounds added book.file t)) rfl
        open_ rfl
    | patch change =>
      rw [patch_rounds] at stored_
      cases set_ : change.rounds with
      | none =>
        rw [set_] at stored_
        exact sound.kept config_ reading answer stored_ rfl open_ rfl
      | some rounds' =>
        rw [set_, Option.getD_some] at stored_
        obtain ⟨config', rounds, loaded, read, recorded⟩ := permitted rounds' set_
        rw [sound.loaded config' loaded, sound.reading rounds read] at recorded
        obtain ⟨count, retries⟩ := recorded.counts sound.answered
        have cleared : observe book.toSeen ⟨.write (.patch change), some ship⟩ =
            { book.toSeen with read := none, answer := none } := by
          rw [observe, if_pos]
          simp [setsRounds, set_]
        have toSeen : (note book ⟨.write (.patch change), some ship⟩).toSeen =
            { book.toSeen with read := none, answer := none } := cleared
        refine ⟨?_, ?_, ?_, ?_, ?_, ?_⟩
        · rw [config_]
          exact sound.loaded
        · rw [toSeen]
          exact fun rounds at_ => nomatch at_
        · rw [toSeen]
          exact fun head review at_ => nomatch at_
        · rw [stored_, toSeen]
          exact count.trans sound.completed
        · intro begun still
          rw [stored_]
          have unblocked := (Bool.or_eq_false_iff.mp still).2
          exact retries (by simpa [blocks] using unblocked) (sound.retries begun (open_ still))
        · exact fun begun still => sound.tried begun (open_ still)

theorem Sound.note (sound : Sound config base began book) (permitted : Permitted book.toSeen e.1)
    (honest : Honest config book.file e) :
    Sound config base began (note book e) := by
  obtain ⟨c, r⟩ := e
  have same : ∀ {next : Book}, next = { book with
      blocked := book.blocked || false, completions := book.completions + 0 } →
      Sound config base began next := by
    rintro next rfl
    exact sound.kept rfl (Or.inl rfl) (Or.inl rfl) rfl rfl (by simp) rfl
  cases c with
  | loadConfig =>
    refine ⟨?_, sound.reading, sound.answered, sound.completed, ?_, ?_⟩
    · intro c at_
      cases at_
      exact honest
    · exact fun begun open_ => sound.retries begun (Bool.or_eq_false_iff.mp open_).1
    · exact fun begun open_ => sound.tried begun (Bool.or_eq_false_iff.mp open_).1
  | readShip => exact sound.note_read honest
  | review input => exact sound.note_review honest
  | write w => exact sound.note_write permitted honest
  | _ => exact same rfl

end Accounts

/-- The failed rounds after this event, if it raised their count, are those before and one
more at the end: a completed review of the head last asked for that does not pass, or
the last round itself, which passed until its comments were read again. -/
inductive Counted (config : ShipConfig) (book : Book) (rounds' : List ReviewResult) : Prop
  | completed {head : Text} {review : ReviewResult} (asked : book.answer = some (head, review))
      (done : review.status = .completed) (fails : reviewPasses config review = false)
      (added : rounds' = roundsOf book.file ++ [review])
  | reread {earlier : List ReviewResult} {last : ReviewResult} {comments : List ReviewComment}
      (whole : roundsOf book.file = earlier ++ [last]) (passed : reviewPasses config last = true)
      (fails : reviewPasses config { last with comments } = false)
      (kept : rounds' = earlier ++ [{ last with comments }])

/-- The accounts of a session that started on the record `file`. -/
structure Accounted (config : ShipConfig) (file : Option ShipState) (h : History Call Answer) :
    Prop where
  /-- Only reviews answered as completed count, each once. -/
  total : ∀ before after, h = before ++ after →
    countFailedRounds config (roundsOf (bookIn file before).file) ≤
      completedRounds (roundsOf file) + before.countP isCompletion
  /-- A review is asked for only where the last round is no completed one of its head. -/
  newHeads : ∀ before input r after, h = before ++ ⟨.review input, r⟩ :: after →
    reusable input.headSha (roundsOf (bookIn file before).file) = false
  counted : ∀ before e after, h = before ++ e :: after →
    let rounds := roundsOf (bookIn file before).file
    let rounds' := roundsOf (bookIn file (before ++ [e])).file
    countFailedRounds config rounds < countFailedRounds config rounds' →
      countFailedRounds config rounds' = countFailedRounds config rounds + 1 ∧
        Counted config (bookIn file before) rounds'
  /-- While nothing has blocked the ship, no head has had more re-triggers than the retries. -/
  retries : (∀ head, Within config (failuresOn head (roundsOf file))) →
    ∀ before after, h = before ++ after → (bookIn file before).blocked = false → ∀ head,
      ((((bookIn file before).tries head).filter (0 < ·)).dedup.length : ℚ) ≤
        max 0 config.reviewRetries

variable {book : Book}

section Sessions
variable {p : Platform} {config : ShipConfig} {file : Option ShipState} {h : History Call Answer}

end Sessions

/-! ### A passing round that stops passing

The review of the head passed; before the next call a finding is posted. -/

def openJson : Text := js "pr"

def repoJson : Text := js "repo"

def threadsJson : Text := js "threads"

def openThread : Json ℚ :=
  .obj [(js "id", .str (js "t1")), (js "isResolved", .bool false), (js "isOutdated", .bool false),
    (js "comments", .obj [(js "nodes", .arr [.obj [
      (js "author", .obj [(js "login", .str (js "greptile"))]), (js "body", .str (js "x"))]])])]

def threadsPage : Json ℚ :=
  .obj [(js "data", .obj [(js "repository", .obj [(js "pullRequest", .obj [(js "reviewThreads", .obj [
    (js "nodes", .arr [openThread]), (js "pageInfo", .obj [(js "hasNextPage", .bool false)])])])])])]

def platform : Platform where
  parseJson := fun t =>
    if t = openJson then
      some (.obj [(js "state", .str (js "OPEN")), (js "headRefOid", .str (js "c0ffee")),
        (js "mergeable", .str (js "MERGEABLE")), (js "url", .str (js "u"))])
    else if t = repoJson then
      some (.obj [(js "nameWithOwner", .str (js "o/r")),
        (js "defaultBranchRef", .obj [(js "name", .str (js "main"))])])
    else if t = threadsJson then some threadsPage else none
  showNumber := fun n => ofNat n.num.toNat
  toUpperCase := id
  toLowerCase := id

def passingReview : ReviewResult :=
  ⟨.pr, .completed, some 5, [], some (js "c0ffee"), some (js "r1"), none⟩

def reviewedShip : ShipState :=
  { freshShip 0 with
    phase := .ready
    pr := some ⟨7, js "u", js "topic", js "main", none⟩
    rounds := [passingReview] }

def answers : (c : Call) → Answer c
  | .loadConfig => defaultConfig.ship
  | .now => 0
  | .sleep _ => ()
  | .readShip => some (some reviewedShip)
  | .write w => some (w.build (some reviewedShip) 0)
  | .signals _ => ⟨none, none, false, [], none⟩
  | .assess _ _ _ => ⟨false, 0, [], [], .rules, none⟩
  | .localHead => ⟨1, [], []⟩
  | .review input => { passingReview with headSha := some input.headSha }
  | .repoView _ => ⟨0, repoJson, []⟩
  | .prView _ => ⟨0, openJson, []⟩
  | .prMerge _ _ _ => ⟨1, [], []⟩
  | .threadsPage _ _ _ _ _ => ⟨0, threadsJson, []⟩
  | .repoMethods => ⟨1, [], []⟩
  | .push _ => none
  | .findOpenPr _ => none
  | .createPr _ _ => .error []
  | .comment _ _ => false
  | .deleteRemoteBranch _ => none
  | .syncBase _ _ _ => none

end Ultrathink.Guarantees.RoundAccounting
