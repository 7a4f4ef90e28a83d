import Ultrathink.Guarantees.TokenProvenance
import Ultrathink.Source.OAuth.Links

/-!
# The deadline of an approval

An authorize POST compares the clock with the deadline of its request before it awaits the
password check. What runs after the check looks at the state of the request, at the map and at the
client, but not at the clock.
-/

namespace Ultrathink.Guarantees.ApprovalDeadline

open List Library JsText Runs Source.OAuth

/-- `createdAt + PENDING_TTL_MS` -/
def deadline (request : PendingRequest) : ℤ := request.createdAt + pendingTtlMs

/-- The event is the success of a password check whose request still waits. -/
structure Settles (s : Store) (event : Event) (key : Text) (request : PendingRequest) : Prop where
  checked : ∃ flight code grantId, flight.key = key ∧
    event = .loginSettled flight .ok code grantId
  found : s.requests.get? key = some request
  undecided : request.approvalState = .pendingApproval
  listed : key ∈ s.listed
  known : s.data.clients.contains request.clientId

/-- The step puts the approval of the request on record, with its code. -/
def Issues (x : Step Store Label) (key : Text) : Prop :=
  ∃ code grantId, .approved key code grantId ∈ x.after.history ∧
    .approved key code grantId ∉ x.before.history

/-- A code is issued at or past the deadline; the handler's first clock reading
dates the code. -/
def IssuesLate (x : Step Store Label) : Prop :=
  ∃ key request, Issues x key ∧ x.before.requests.get? key = some request ∧
    deadline request ≤ x.label.env.now 0

/-- A password check succeeds at or past the deadline of a request that still waits. -/
def Overdue (s : Store) (label : Label) : Prop :=
  ∃ key request, Settles s label.event key request ∧ deadline request ≤ label.env.now 0

/-- Nothing that the history gained is an approval. -/
def NoApproval (s s' : Store) : Prop :=
  ∀ key code grantId, .approved key code grantId ∈ s'.history →
    .approved key code grantId ∈ s.history

variable {s s' m : Store} {key : Text} {d : ℤ} {e : Env}

theorem NoApproval.of_handsOutNothing (rest : HandsOutNothing s s') :
    NoApproval s s' := by
  intro key code grantId told
  rwa [rest.history] at told

section Handlers
variable (o : Options) (e : Env)

theorem revokeAndPersist_noApproval (t : ℤ) (grantId : Text) (reply : Reply) (s : Store) :
    NoApproval s (revokeAndPersist e t grantId reply s).2 := by
  intro key code other told
  rcases mem_append.mp told with old | new
  · exact old
  · cases mem_singleton.mp new

theorem answerTokens_noApproval (access refresh grantId clientId grantResource : Text)
    (scope : Option Text) (spent : Data) {facts : List Fact} (s : Store)
    (others : ∀ key code other, .approved key code other ∉ facts) :
    NoApproval s (answerTokens o e access refresh grantId clientId grantResource scope spent facts
      s).2 := by
  intro key code other told
  unfold answerTokens persist at told
  simp only at told
  split at told
  · rcases mem_append.mp told with before | minted
    · rcases mem_append.mp before with old | new
      · exact old
      · exact absurd new (others key code other)
    · cases mem_singleton.mp minted
  · exact told

theorem exchangeCode_noApproval (form : Form) (clientId access refresh : Text) (s : Store) :
    NoApproval s (exchangeCode o e form clientId access refresh s).2 := by
  unfold exchangeCode
  simp only
  split
  · exact fun _ _ _ => id
  · split
    · exact revokeAndPersist_noApproval e _ _ _ s
    · iterate 4
        split
        · exact fun _ _ _ => id
      exact answerTokens_noApproval o e _ _ _ _ _ _ _ s (by simp)

theorem refreshGrant_noApproval (form : Form) (clientId access refresh : Text) (s : Store) :
    NoApproval s (refreshGrant o e form clientId access refresh s).2 := by
  unfold refreshGrant
  simp only
  split
  · exact fun _ _ _ => id
  · iterate 2
      split
      · exact fun _ _ _ => id
    split
    · exact revokeAndPersist_noApproval e _ _ _ s
    · iterate 3
        split
        · exact fun _ _ _ => id
      exact answerTokens_noApproval o e _ _ _ _ _ _ _ s (by simp)

theorem token_noApproval (form : Form) (access refresh : Text) (s : Store) :
    NoApproval s (token o e form access refresh s).2 := by
  have touched (client : Text) : NoApproval s (touchClient s client (e.now 0)) := fun _ _ _ => id
  unfold token
  simp only
  split
  · exact fun _ _ _ => id
  · split
    · exact fun _ _ _ => id
    · split
      · exact touched _
      · split
        · exact exchangeCode_noApproval o e form _ access refresh _
        · exact refreshGrant_noApproval o e form _ access refresh _

theorem revoke_noApproval (form : Form) (s : Store) : NoApproval s (revoke o e form s).2 := by
  unfold revoke
  simp only
  split
  · exact fun _ _ _ => id
  · split
    · exact fun _ _ _ => id
    · split
      · exact revokeAndPersist_noApproval e _ _ _ s
      · exact fun _ _ _ => id

/-- A settled check approves its request when that still waits, and nothing otherwise. -/
theorem settleLogin_history (flight : Flight) (outcome : LoginOutcome) (code grantId : Text)
    (s : Store) :
    (settleLogin o e flight outcome code grantId s).2.history = s.history ∧
        (∀ request, ¬ Settles s (.loginSettled flight outcome code grantId) flight.key request) ∨
      (settleLogin o e flight outcome code grantId s).2.history =
          s.history ++ [.approved flight.key (o.digest code) grantId] ∧
        ∃ request, Settles s (.loginSettled flight outcome code grantId) flight.key request := by
  unfold settleLogin
  split
  · next missing =>
    refine .inl ⟨rfl, fun request settles => ?_⟩
    rw [settles.found] at missing
    cases missing
  · next request found =>
    split
    · refine .inl ⟨rfl, fun _ settles => ?_⟩
      obtain ⟨_, _, _, -, same⟩ := settles.checked
      cases same
    · have unchecked (other : PendingRequest) :
          ¬ Settles s (.loginSettled flight .wrongPassword code grantId) flight.key other := by
        intro settles
        obtain ⟨_, _, _, -, same⟩ := settles.checked
        cases same
      split
      · exact .inl ⟨rfl, unchecked⟩
      · exact .inl ⟨rfl, unchecked⟩
    · split
      · next unknown =>
        refine .inl ⟨rfl, fun other settles => ?_⟩
        obtain rfl := Option.some.inj (found.symm.trans settles.found)
        have known := settles.known
        rw [OrderedMap.contains, unknown] at known
        cases known
      · next client known =>
        split
        · next gone =>
          refine .inl ⟨rfl, fun other settles => ?_⟩
          obtain rfl := Option.some.inj (found.symm.trans settles.found)
          rcases gone with decided | unlisted
          · exact decided settles.undecided
          · exact unlisted settles.listed
        · next waits =>
          obtain ⟨undecided, listed⟩ := not_or.mp waits
          exact .inr ⟨rfl, request, ⟨_, _, _, rfl, rfl⟩, found, not_not.mp undecided,
            not_not.mp listed, contains_of_get? known⟩

end Handlers

variable {o : Options}

/-- The spec of a step: it issues a code for a request exactly when it is the success
of a check whose request still waits. -/
theorem issues_iff {n : Store} {label : Label} (step : (service o).step m label n) (key : Text) :
    Issues ⟨m, label, n⟩ key ↔ ∃ request, Settles m label.event key request := by
  obtain ⟨e, event⟩ := label
  obtain ⟨allowed, rfl⟩ := step
  have none_ (quiet : NoApproval m (handle o e event m).2)
      (other : ∀ request, ¬ Settles m event key request) :
      Issues ⟨m, ⟨e, event⟩, (handle o e event m).2⟩ key ↔
        ∃ request, Settles m event key request := by
    constructor
    · rintro ⟨code, grantId, told, new⟩
      exact absurd (quiet key code grantId told) new
    · rintro ⟨request, settles⟩
      exact absurd settles (other request)
  cases event with
  | register fields clientId =>
    apply none_ (.of_handsOutNothing (register_handsOutNothing o e fields clientId m))
    rintro request ⟨⟨_, _, _, -, same⟩, -⟩
    cases same
  | authorizeGet params requestId nonce =>
    apply none_ (.of_handsOutNothing (authorizeGet_handsOutNothing o e params requestId nonce m
      allowed.1))
    rintro request ⟨⟨_, _, _, -, same⟩, -⟩
    cases same
  | authorizePost form allowAttempt =>
    apply none_ (.of_handsOutNothing (authorizePost_handsOutNothing o e form allowAttempt m))
    rintro request ⟨⟨_, _, _, -, same⟩, -⟩
    cases same
  | token form access refresh =>
    apply none_ (token_noApproval o e form access refresh m)
    rintro request ⟨⟨_, _, _, -, same⟩, -⟩
    cases same
  | revoke form =>
    apply none_ (revoke_noApproval o e form m)
    rintro request ⟨⟨_, _, _, -, same⟩, -⟩
    cases same
  | sweep =>
    apply none_ (.of_handsOutNothing (prune_handsOutNothing m (e.now 0)))
    rintro request ⟨⟨_, _, _, -, same⟩, -⟩
    cases same
  | loginSettled flight outcome code grantId =>
    obtain ⟨-, -, freshGrant⟩ := allowed
    have history : (handle o e (.loginSettled flight outcome code grantId) m).2.history =
      (settleLogin o e flight outcome code grantId m).2.history := rfl
    rcases settleLogin_history o e flight outcome code grantId m with
      ⟨same, waitsNot⟩ | ⟨grown, settles⟩
    · apply none_
      · intro key' code' grantId' told
        rwa [history, same] at told
      · intro request settles
        obtain ⟨other, _, _, rfl, event⟩ := settles.checked
        cases event
        exact waitsNot request settles
    · constructor
      · rintro ⟨code', grantId', told, new⟩
        rw [history, grown] at told
        rcases mem_append.mp told with old | here
        · exact absurd old new
        · cases mem_singleton.mp here
          exact settles
      · rintro ⟨request, ⟨other, _, _, rfl, same⟩, -⟩
        cases same
        refine ⟨o.digest code, grantId, ?_, fun old => ?_⟩
        · rw [history, grown]
          exact mem_append_right _ mem_cons_self
        · exact freshGrant.2 _ old (by simp [Fact.ids])

theorem issuesLate_iff {n : Store} {label : Label} (step : (service o).step m label n) :
    IssuesLate ⟨m, label, n⟩ ↔ Overdue m label := by
  constructor
  · rintro ⟨key, request, issues, found, late⟩
    obtain ⟨other, settles⟩ := (issues_iff step key).mp issues
    obtain rfl := Option.some.inj (found.symm.trans settles.found)
    exact ⟨key, request, settles, late⟩
  · rintro ⟨key, request, settles, late⟩
    exact ⟨key, request, (issues_iff step key).mpr ⟨request, settles⟩, settles.found, late⟩

/-- The request is approved or expired. -/
def Decided (s : Store) (key : Text) : Prop :=
  ∃ request, s.requests.get? key = some request ∧ request.approvalState ≠ .pendingApproval

theorem Decided.of_handsOutNothing (decided : Decided s key) (rest : HandsOutNothing s s') :
    Decided s' key := by
  obtain ⟨request, found, settled⟩ := decided
  obtain ⟨request', found', keeps⟩ := rest.requests key request found
  exact ⟨request', found', keeps settled⟩

theorem Decided.recordApproval (decided : Decided s key) (t : ℤ) (approved : Text)
    (request : PendingRequest) (client : ClientRecord) (code grantId : Text) :
    Decided (recordApproval o t approved request client code grantId s) key := by
  obtain ⟨old, found, settled⟩ := decided
  by_cases same : key = approved
  · subst same
    exact ⟨{ request with approvalState := .approved }, OrderedMap.get?_set_self _ _ _, by simp⟩
  · exact ⟨old, (OrderedMap.get?_set_of_ne _ _ same).trans found, settled⟩

theorem Decided.effect (decided : Decided s key) (effect : Effect o e s s') : Decided s' key := by
  cases effect with
  | quiet rest => exact decided.of_handsOutNothing rest
  | approval t client _ _ _ _ rest =>
    exact (decided.recordApproval t _ _ client _ _).of_handsOutNothing rest
  | withdrawal grantId rest =>
    apply Decided.of_handsOutNothing _ rest
    exact decided
  | exchange access refresh _ _ rest =>
    apply Decided.of_handsOutNothing _ rest
    exact decided
  | rotation access refresh expiresAt _ _ rest =>
    apply Decided.of_handsOutNothing _ rest
    exact decided

theorem decided_prune {t : ℤ} {request : PendingRequest} (standing : s.pending key = some request)
    (due : request.expiresAt ≤ t) :
    Decided (prune s t).2 key := by
  unfold Store.pending at standing
  split at standing
  · next listed =>
    refine ⟨{ request with approvalState := .expired }, ?_, by simp⟩
    have dead : requestDead request t := by
      rw [requestDead, Bool.or_eq_true]
      exact .inl (decide_eq_true due)
    change (pruneRequests _ t).requests.get? key = _
    simp only [pruneRequests, OrderedMap.get?_mapValues, standing, Option.map_some, listed, dead,
      and_self, if_true]
  · cases standing

theorem not_issues_of_decided {t : Store} {steps : List (Step Store Label)}
    (run : (service o).Run s steps t) (decided : Decided s key) :
    ∀ x ∈ steps, ¬ Issues x key := by
  refine run.steps_of (Decided · key) (fun _ => True) (fun x => ¬ Issues x key) decided ?_ ?_
    fun _ _ => trivial
  · rintro m label n ⟨allowed, rfl⟩ - decided
    exact decided.effect (handle_effect o label.env label.event m allowed)
  · rintro m label n step - ⟨request, found, settled⟩ issues
    obtain ⟨other, settles⟩ := (issues_iff step key).mp issues
    obtain rfl := Option.some.inj (found.symm.trans settles.found)
    exact settled settles.undecided

/-- The request is on record with this deadline. -/
def DueAt (s : Store) (key : Text) (t : ℤ) : Prop :=
  ∃ request, s.requests.get? key = some request ∧ deadline request = t

theorem DueAt.pruneRequests (due : DueAt s key d) (t : ℤ) :
    DueAt (pruneRequests s t) key d := by
  obtain ⟨request, found, same⟩ := due
  simp only [DueAt, Source.OAuth.pruneRequests, OrderedMap.get?_mapValues, found, Option.map_some,
    Option.some.injEq, exists_eq_left']
  split
  · exact same
  · exact same

theorem DueAt.setRequest {other : Text} {request : PendingRequest} (due : DueAt s key d)
    (same : ∀ old, s.requests.get? other = some old →
      request.createdAt = old.createdAt) : DueAt (setRequest s other request) key d := by
  obtain ⟨old, found, dated⟩ := due
  by_cases here : key = other
  · subst here
    refine ⟨request, OrderedMap.get?_set_self _ _ _, ?_⟩
    rw [← dated, deadline, same old found, deadline]
  · exact ⟨old, (OrderedMap.get?_set_of_ne _ _ here).trans found, dated⟩

theorem DueAt.move {e : Env} {s s' : Store} {key : Text} {d : ℤ} (due : DueAt s key d)
    (move : Move o e s s') : DueAt s' key d := by
  cases move with
  | prune i => exact due.pruneRequests (e.now i)
  | restore i => exact due.pruneRequests (e.now i)
  | enroll made new =>
    have pruned := due.pruneRequests (e.now 0)
    rcases makeRoomForClient_cases made with ⟨rfl, -⟩ | ⟨_, _, -, -, -, rfl⟩
    · exact pruned
    · exact pruned
  | openRequest new dated =>
    apply DueAt.setRequest (s := { s with listed := s.listed ++ [_] }) due
    intro old found
    cases new.symm.trans found
  | tick found ticked =>
    apply due.setRequest
    intro old foundOld
    obtain rfl := Option.some.inj (found.symm.trans foundOld)
    exact ticked.created
  | touch => exact due
  | check => exact due
  | exchange => exact due
  | rotate => exact due
  | revoke => exact due

theorem DueAt.moves (due : DueAt s key d) (moves : Moves o e s m) : DueAt m key d := by
  induction moves with
  | refl => exact due
  | tail _ move ih => exact ih.move move

theorem DueAt.handle (due : DueAt s key d) (event : Event) (allowed : Allowed o s event)
    (new : DrawsNew o s event) :
    DueAt (handle o e event s).2 key d := by
  obtain ⟨m, after, moves | ⟨approved, code, grantId, request, client, approves, rfl⟩⟩ :=
    handle_moves o e event s allowed new
  · have kept := due.moves moves
    rw [after]
    exact kept
  · rw [after]
    apply DueAt.pruneRequests (s := recordApproval o (e.now 0) approved request client code grantId s)
    apply due.setRequest
    intro old found
    obtain rfl := Option.some.inj (approves.found.symm.trans found)
    rfl

/-- In every run in which no password check succeeds for a request that still waits
past its deadline, no code is issued past a deadline. A step of any run issues a late
code exactly when it is such a check. A deadline never moves, and once a pruning has
met a listed request at or past its end, no run issues a code for it. -/
theorem approval_deadline (o : Options) :
    (∀ s steps t, (service o).Run s steps t → (∀ x ∈ steps, ¬ Overdue x.before x.label) →
        ∀ x ∈ steps, ¬ IssuesLate x) ∧
      (∀ s steps t, (service o).Run s steps t →
        ∀ x ∈ steps, IssuesLate x ↔ Overdue x.before x.label) ∧
      (∀ s steps t, (service o).Run s steps t → (∀ x ∈ steps, DrawsNew o x.before x.label.event) →
        ∀ key d, DueAt s key d → DueAt t key d) ∧
      ∀ s now key request, s.pending key = some request → request.expiresAt ≤ now →
        ∀ steps t, (service o).Run (prune s now).2 steps t → ∀ x ∈ steps, ¬ Issues x key := by
  refine ⟨?_, ?_, ?_, ?_⟩
  · intro s steps t run onTime x mem late
    exact onTime x mem ((issuesLate_iff (run.mem_step x mem)).mp late)
  · intro s steps t run x mem
    exact issuesLate_iff (run.mem_step x mem)
  · intro s steps t run new key d due
    apply run.invariant_of (DueAt · key d) _ due _ new
    rintro m label n ⟨allowed, rfl⟩ new due
    exact due.handle label.event allowed new
  · intro s now key request standing due steps t run
    exact not_issues_of_decided run (decided_prune standing due)

open TokenProvenance (flowOptions flowEnv flowStart flowStep flowCallback flowChallenge flowDigest)

/-- The environment of the flow at another time. -/
def at_ (t : ℤ) : Env := { flowEnv with now := fun _ => t }

/-- The password is entered a millisecond before the deadline, and its check takes as long. -/
def slowLabels : List Label :=
  [⟨at_ 0, .register ⟨[flowCallback], [js "authorization_code"], js "Claude"⟩ (js "c")⟩,
    ⟨at_ 0, .authorizeGet [(js "client_id", js "c"), (js "redirect_uri", flowCallback),
      (js "response_type", js "code"), (js "code_challenge", flowChallenge),
      (js "code_challenge_method", js "S256"), (js "resource", js "https://u.dev/mcp")]
      (js "ut_req_a") (js "n")⟩,
    ⟨at_ (pendingTtlMs - 1), .authorizePost [(js "req", js "ut_req_a"), (js "nonce", js "n"),
      (js "password", js "p")] true⟩,
    ⟨at_ pendingTtlMs, .loginSettled ⟨flowDigest (js "ut_req_a"), js "ut_req_a", js "Claude"⟩ .ok
      (js "ut_code_a") (js "g")⟩]

theorem late_code_issued : ∃ steps t, (service flowOptions).Run flowStart steps t ∧
    ∃ x ∈ steps, IssuesLate x := by
  have allowed : ∀ x ∈ traceOf flowStep flowStart slowLabels,
      Allowed flowOptions x.before x.label.event := by decide
  refine ⟨_, _, run_traceOf_of_mem flowStart slowLabels fun x mem => ⟨allowed x mem, mem_traceOf mem⟩,
    _, mem_of_getElem? (i := 3) rfl, flowDigest (js "ut_req_a"), _, ⟨flowDigest (js "ut_code_a"),
      js "g", by decide, by decide⟩, rfl, by decide⟩

end Ultrathink.Guarantees.ApprovalDeadline
