import Ultrathink.Source.OAuth.Effects

/-!
# Token provenance and single use

Over every run of the authorization server, with any clock and any failing write. What the state
file held at the start is the only source of grants and tokens besides the approvals.
-/

namespace Ultrathink.Guarantees.TokenProvenance

open List Library JsText Runs Source.OAuth

def approves (key : Text) : Fact → Bool
  | .approved request _ _ => request = key
  | _ => false

/-- The owner approved the grant in this run, or the state file had it. -/
def Approved (loaded s : Store) (grantId : Text) : Prop :=
  (∃ request code, .approved request code grantId ∈ s.history) ∨
    loaded.data.grants.contains grantId

/-- The access token of this digest was minted for the grant in this run, or the
state file had it for the grant. -/
def MintedFor (loaded s : Store) (token grantId : Text) : Prop :=
  .minted token grantId ∈ s.history ∨
    ∃ old, loaded.data.tokens.get? token = some old ∧ old.kind = .access ∧ old.grantId = grantId

/-- The invariant that carries single use and provenance. -/
structure Provenance (loaded s : Store) : Prop where
  approvedSettled : ∀ key code grantId, .approved key code grantId ∈ s.history →
    ∃ request, s.requests.get? key = some request ∧ request.approvalState ≠ .pendingApproval
  approvedOnce : ∀ key, s.history.countP (approves key) ≤ 1
  exchangedSpent : ∀ code record, .exchanged code ∈ s.history →
    s.data.codes.get? code = some record → record.used = true
  exchangedOnce : ∀ code, s.history.count (.exchanged code) ≤ 1
  grantsApproved : ∀ id, s.data.grants.contains id → Approved loaded s id
  grantsStand : ∀ id, s.data.grants.contains id → .revoked id ∉ s.history
  tokensMinted : ∀ token record, s.data.tokens.get? token = some record → record.kind = .access →
    MintedFor loaded s token record.grantId

variable {o : Options} {grantId : Text} {spent : Data}

theorem provenance_start {loaded : Store} (start : (service o).start loaded) :
    Provenance loaded loaded := by
  obtain ⟨e, stored, storedPending, rfl⟩ := start
  refine ⟨by simp [createOAuth], by simp [createOAuth], by simp [createOAuth],
    by simp [createOAuth], fun id held => Or.inr held, by simp [createOAuth], ?_⟩
  exact fun token record found kind => Or.inr ⟨record, found, kind, rfl⟩

variable {loaded s s' : Store}

theorem Provenance.of_handsOutNothing (inv : Provenance loaded s) (rest : HandsOutNothing s s') :
    Provenance loaded s' := by
  refine ⟨?_, ?_, ?_, ?_, ?_, ?_, ?_⟩
  · intro key code grantId told
    rw [rest.history] at told
    obtain ⟨request, found, settled⟩ := inv.approvedSettled key code grantId told
    obtain ⟨request', found', keeps⟩ := rest.requests key request found
    exact ⟨request', found', keeps settled⟩
  · simpa only [rest.history] using inv.approvedOnce
  · intro code record told held
    rw [rest.history] at told
    exact inv.exchangedSpent code record told (rest.codes code record held)
  · simpa only [rest.history] using inv.exchangedOnce
  · intro id held
    simpa only [Approved, rest.history] using inv.grantsApproved id (rest.grants id held)
  · intro id held
    simpa only [rest.history] using inv.grantsStand id (rest.grants id held)
  · intro token record held kind
    simpa only [MintedFor, rest.history] using
      inv.tokensMinted token record (rest.tokens token record held) kind

theorem Approved.of_subset (subset : ∀ fact ∈ s.history, fact ∈ s'.history)
    (h : Approved loaded s grantId) : Approved loaded s' grantId :=
  h.imp (fun ⟨request, code, told⟩ => ⟨request, code, subset _ told⟩) id

theorem MintedFor.of_subset (subset : ∀ fact ∈ s.history, fact ∈ s'.history) {token : Text}
    (h : MintedFor loaded s token grantId) : MintedFor loaded s' token grantId :=
  h.imp (subset _) id

theorem contains_set {κ ν : Type} [DecidableEq κ] {m : OrderedMap κ ν} {k key : κ} {v : ν}
    (held : (m.set k v).contains key) : key = k ∨ m.contains key := by
  by_cases same : key = k
  · exact Or.inl same
  · rw [OrderedMap.contains, OrderedMap.get?_set_of_ne m v same] at held
    exact Or.inr held

theorem Provenance.approval (o : Options) (inv : Provenance loaded s) (t : ℤ)
    (client : ClientRecord) {key code grantId : Text} {request : PendingRequest}
    (found : s.requests.get? key = some request)
    (undecided : request.approvalState = .pendingApproval) (freshCode : Fresh s (o.digest code))
    (freshGrant : Fresh s grantId) :
    Provenance loaded (recordApproval o t key request client code grantId s) := by
  have unapproved : ∀ code' grantId', .approved key code' grantId' ∉ s.history := by
    intro code' grantId' told
    obtain ⟨settled, foundSettled, decided⟩ := inv.approvedSettled key code' grantId' told
    obtain rfl : request = settled := Option.some.inj (found.symm.trans foundSettled)
    exact decided undecided
  have history : (recordApproval o t key request client code grantId s).history =
      s.history ++ [.approved key (o.digest code) grantId] := rfl
  have subset : ∀ fact ∈ s.history,
      fact ∈ (recordApproval o t key request client code grantId s).history := by
    intro fact told
    rw [history]
    exact mem_append_left _ told
  refine ⟨?_, ?_, ?_, ?_, ?_, ?_, ?_⟩
  · intro key' code' grantId' told
    change ∃ request', (s.requests.set key _).get? key' = some request' ∧ _
    by_cases same : key' = key
    · exact ⟨_, by rw [OrderedMap.get?_set, if_pos same], by simp⟩
    · rw [OrderedMap.get?_set_of_ne _ _ same]
      have old : .approved key' code' grantId' ∈ s.history := by
        simpa [history, same] using told
      exact inv.approvedSettled key' code' grantId' old
  · intro key'
    rw [history, countP_append]
    by_cases same : key' = key
    · have none : s.history.countP (approves key) = 0 := by
        rw [countP_eq_zero]
        intro fact told
        cases fact with
        | approved request' code' grantId' =>
          simp only [approves, decide_eq_true_eq]
          rintro rfl
          exact unapproved _ _ told
        | exchanged => simp [approves]
        | minted => simp [approves]
        | revoked => simp [approves]
      rw [same, none]
      simp [approves]
    · have once := inv.approvedOnce key'
      simpa [approves, Ne.symm same] using once
  · intro code' record told held
    change (s.data.codes.set (o.digest code) _).get? code' = some record at held
    have old : .exchanged code' ∈ s.history := by simpa [history] using told
    by_cases same : code' = o.digest code
    · exact absurd (by simp [Fact.ids, same]) (freshCode.2 _ old)
    · rw [OrderedMap.get?_set_of_ne _ _ same] at held
      exact inv.exchangedSpent code' record old held
  · intro code'
    rw [history, count_append]
    simpa using inv.exchangedOnce code'
  · intro id held
    rcases contains_set held with rfl | old
    · exact Or.inl ⟨key, o.digest code, by simp [history]⟩
    · exact (inv.grantsApproved id old).of_subset subset
  · intro id held told
    have old : .revoked id ∈ s.history := by simpa [history] using told
    rcases contains_set held with rfl | standing
    · exact freshGrant.2 _ old (by simp [Fact.ids])
    · exact inv.grantsStand id standing old
  · intro token record held kind
    exact (inv.tokensMinted token record held kind).of_subset subset

theorem Provenance.withdrawal (inv : Provenance loaded s) (grantId : Text) :
    Provenance loaded (revokeGrant s grantId) := by
  have history : (revokeGrant s grantId).history = s.history ++ [.revoked grantId] := rfl
  have subset : ∀ fact ∈ s.history, fact ∈ (revokeGrant s grantId).history := by
    intro fact told
    rw [history]
    exact mem_append_left _ told
  refine ⟨?_, ?_, ?_, ?_, ?_, ?_, ?_⟩
  · intro key code grantId' told
    exact inv.approvedSettled key code grantId' (by simpa [history] using told)
  · intro key
    rw [history, countP_append]
    simpa [approves] using inv.approvedOnce key
  · intro code record told held
    exact inv.exchangedSpent code record (by simpa [history] using told) (get?_of_filter held)
  · intro code
    rw [history, count_append]
    simpa using inv.exchangedOnce code
  · intro id held
    exact (inv.grantsApproved id (contains_of_filter held)).of_subset subset
  · intro id held told
    change (s.data.grants.erase grantId).contains id at held
    rw [history, mem_append, mem_singleton] at told
    rcases told with old | now
    · exact inv.grantsStand id (contains_of_filter held) old
    · cases now
      simp [OrderedMap.contains] at held
  · intro token record held kind
    exact (inv.tokensMinted token record (get?_of_filter held) kind).of_subset subset

theorem tokensMinted_issueTokens (inv : Provenance loaded s)
    (spentTokens : ∀ token record, spent.tokens.get? token = some record →
      record.kind = .access → s.data.tokens.get? token = some record) (e : Env)
    (access refresh grantId clientId grantResource : Text) (scope : Option Text) (facts : List Fact)
    (token : Text) (record : TokenRecord)
    (held : (answered e access refresh grantId clientId grantResource scope spent facts
      s).data.tokens.get? token = some record) (kind : record.kind = .access) :
    MintedFor loaded (answered e access refresh grantId clientId grantResource scope spent facts s)
      token record.grantId := by
  simp only [answered, issueTokens, OrderedMap.get?_set] at held
  by_cases isRefresh : token = refresh
  · rw [if_pos isRefresh] at held
    cases held
    cases kind
  rw [if_neg isRefresh] at held
  by_cases isAccess : token = access
  · rw [if_pos isAccess] at held
    cases held
    exact Or.inl (by simp [answered, isAccess])
  · rw [if_neg isAccess] at held
    refine (inv.tokensMinted token record (spentTokens token record held kind) kind).of_subset ?_
    exact fun fact told => by simp [answered, told]

theorem contains_issueTokens {t : ℤ} {access refresh clientId grantResource id : Text}
    {scope : Option Text} (held : (issueTokens spent t access refresh grantId clientId grantResource
      scope).grants.contains id) : spent.grants.contains id := by
  simp only [issueTokens, OrderedMap.contains, OrderedMap.get?_modify] at held ⊢
  split at held
  · rename_i same
    rwa [same, Option.isSome_map] at *
  · exact held

/-- The facts that go with new tokens, an exchange apart, leave the rest as it is. -/
theorem Provenance.answered (inv : Provenance loaded s) (e : Env)
    (access refresh grantId clientId grantResource : Text) (scope : Option Text) {facts : List Fact}
    (only : ∀ fact ∈ facts, ∃ code, fact = .exchanged code)
    (spentGrants : spent.grants = s.data.grants)
    (spentTokens : ∀ token record, spent.tokens.get? token = some record →
      record.kind = .access → s.data.tokens.get? token = some record)
    (spentCodes : ∀ code record, .exchanged code ∈ s.history ++ facts →
      spent.codes.get? code = some record → record.used = true)
    (once : ∀ code, (s.history ++ facts).count (.exchanged code) ≤ 1) :
    Provenance loaded
      (Source.OAuth.answered e access refresh grantId clientId grantResource scope spent facts
        s) := by
  have subset : ∀ fact ∈ s.history, fact ∈ s.history ++ facts ++ [.minted access grantId] :=
    fun fact told => by simp [told]
  have told_of : ∀ fact, (∀ code, fact ≠ .exchanged code) → fact ≠ .minted access grantId →
      fact ∈ s.history ++ facts ++ [.minted access grantId] → fact ∈ s.history := by
    intro fact notExchanged notMinted told
    simp only [mem_append, mem_singleton] at told
    rcases told with (old | fresh) | minted
    · exact old
    · obtain ⟨code, rfl⟩ := only fact fresh
      exact absurd rfl (notExchanged code)
    · exact absurd minted notMinted
  refine ⟨?_, ?_, ?_, ?_, ?_, ?_, ?_⟩
  · intro key code grantId' told
    exact inv.approvedSettled key code grantId' (told_of _ (by simp) (by simp) told)
  · intro key
    change (s.history ++ facts ++ [Fact.minted access grantId]).countP (approves key) ≤ 1
    have none : facts.countP (approves key) = 0 := by
      rw [countP_eq_zero]
      intro fact fresh
      obtain ⟨code, rfl⟩ := only fact fresh
      simp [approves]
    simpa [countP_append, none, approves] using inv.approvedOnce key
  · intro code record told held
    refine spentCodes code record ?_ held
    change _ ∈ s.history ++ facts ++ [Fact.minted access grantId] at told
    simpa using told
  · intro code
    change (s.history ++ facts ++ [Fact.minted access grantId]).count (.exchanged code) ≤ 1
    rw [count_append]
    simpa using once code
  · intro id held
    have old := contains_issueTokens held
    rw [spentGrants] at old
    exact (inv.grantsApproved id old).of_subset subset
  · intro id held told
    have old := contains_issueTokens held
    rw [spentGrants] at old
    exact inv.grantsStand id old (told_of _ (by simp) (by simp) told)
  · exact tokensMinted_issueTokens inv spentTokens e access refresh grantId clientId grantResource
      scope facts

/-- A code that is not used was not exchanged before, so this exchange is its
first, and it leaves the code used. -/
theorem Provenance.exchange (inv : Provenance loaded s) (e : Env) {code : Text}
    {record : CodeRecord} (access refresh : Text) (found : s.data.codes.get? code = some record)
    (unused : record.used = false) :
    Provenance loaded (Source.OAuth.answered e access refresh record.grantId record.clientId
      record.resource record.scope
      { s.data with codes := s.data.codes.set code { record with used := true } }
      [.exchanged code] s) := by
  have unexchanged : .exchanged code ∉ s.history := by
    intro told
    have used := inv.exchangedSpent code record told found
    rw [unused] at used
    cases used
  refine inv.answered e access refresh _ _ _ _ (fun fact fresh => ⟨code, by simpa using fresh⟩) rfl
    (fun _ _ held _ => held) ?_ ?_
  · intro code' record' told held
    rw [OrderedMap.get?_set] at held
    by_cases same : code' = code
    · rw [if_pos same] at held
      cases held
      rfl
    · rw [if_neg same] at held
      exact inv.exchangedSpent code' record' (by simpa [same] using told) held
  · intro code'
    rw [count_append]
    by_cases same : code' = code
    · rw [same, count_eq_zero_of_not_mem unexchanged]
      simp
    · have once := inv.exchangedOnce code'
      simpa [count_singleton, Ne.symm same] using once

theorem Provenance.rotation (inv : Provenance loaded s) (e : Env) {key : Text}
    {record : TokenRecord} (access refresh : Text) (expiresAt : ℤ)
    (kind : record.kind = .refresh) :
    Provenance loaded (Source.OAuth.answered e access refresh record.grantId record.clientId
      record.resource record.scope
      { s.data with
        tokens := s.data.tokens.set key { record with used := true, expiresAt := expiresAt } }
      [] s) := by
  refine inv.answered e access refresh _ _ _ _ (by simp) rfl ?_ ?_ ?_
  · intro token record' held access
    rw [OrderedMap.get?_set] at held
    split at held
    · cases held
      rw [kind] at access
      cases access
    · exact held
  · intro code record' told held
    exact inv.exchangedSpent code record' (by simpa using told) held
  · simpa using inv.exchangedOnce

theorem Provenance.effect {e : Env} (inv : Provenance loaded s) (h : Effect o e s s') :
    Provenance loaded s' := by
  cases h with
  | quiet rest => exact inv.of_handsOutNothing rest
  | approval t client found undecided freshCode freshGrant rest =>
    exact (inv.approval o t client found undecided freshCode freshGrant).of_handsOutNothing rest
  | withdrawal grantId rest => exact (inv.withdrawal grantId).of_handsOutNothing rest
  | exchange access refresh found unused rest =>
    exact (inv.exchange e access refresh found unused).of_handsOutNothing rest
  | rotation access refresh expiresAt found kind rest =>
    exact (inv.rotation e access refresh expiresAt kind).of_handsOutNothing rest

theorem provenance_run {steps : List (Step Store Label)} (start : (service o).start loaded)
    (run : (service o).Run loaded steps s) :
    Provenance loaded s := by
  refine run.invariant (Provenance loaded) (provenance_start start) ?_
  rintro m label n ⟨allowed, rfl⟩ inv
  exact inv.effect (handle_effect o label.env label.event m allowed)

/-- The step answers an authorization code with tokens. -/
def answersCode (o : Options) (code : Text) (x : Step Store Label) : Bool :=
  match x.label.event with
  | .token form access refresh =>
    form.get (js "grant_type") = some (js "authorization_code") &&
      o.digest (form.text "code") = code &&
      (token o x.label.env form access refresh x.before).1.isTokens
  | _ => false

theorem answersCode_count (o : Options) (code : Text) {m n : Store} {label : Label}
    (step : (service o).step m label n) :
    m.history.count (.exchanged code) + (if answersCode o code ⟨m, label, n⟩ then 1 else 0) ≤
      n.history.count (.exchanged code) := by
  obtain ⟨allowed, rfl⟩ := step
  obtain ⟨more, history⟩ := (handle_effect o label.env label.event m allowed).history_grows
  by_cases answers : answersCode o code ⟨m, label, (handle o label.env label.event m).2⟩ = true
  · rw [if_pos answers]
    unfold answersCode at answers
    split at answers
    · rename_i form access refresh event
      simp only [Bool.and_eq_true, decide_eq_true_eq] at answers
      obtain ⟨⟨grantType, rfl⟩, told⟩ := answers
      obtain ⟨grantId, recorded⟩ := token_isTokens grantType told
      rw [show label.event = .token form access refresh from event]
      change _ ≤ (token o label.env form access refresh m).2.history.count _
      rw [recorded, count_append, count_append]
      simp
    · cases answers
  · rw [if_neg answers, history, count_append]
    omega

/-- Each request is approved at most once, each code answered with tokens at most
once, and an accepted access token was minted for an approved grant that has not
been revoked. -/
theorem token_provenance (o : Options) {loaded s : Store} {steps : List (Step Store Label)}
    (start : (service o).start loaded) (run : (service o).Run loaded steps s) :
    (∀ key, s.history.countP (approves key) ≤ 1) ∧
      (∀ code, steps.countP (answersCode o code) ≤ 1) ∧
      ∀ t presented, verifyAccessToken o s t presented = true →
        ∃ grantId, MintedFor loaded s (o.digest presented) grantId ∧ Approved loaded s grantId ∧
          .revoked grantId ∉ s.history := by
  have inv := provenance_run start run
  refine ⟨inv.approvedOnce, fun code => ?_, fun t presented accepted => ?_⟩
  · have grown := run.countP_le (fun s => s.history.count (.exchanged code)) (answersCode o code)
      fun _ _ _ => answersCode_count o code
    have once := inv.exchangedOnce code
    omega
  · unfold verifyAccessToken at accepted
    split at accepted
    · cases accepted
    split at accepted
    · cases accepted
    rename_i record found
    split at accepted
    · cases accepted
    rename_i kind
    split at accepted
    · cases accepted
    split at accepted
    · cases accepted
    exact ⟨record.grantId, inv.tokensMinted _ record found (not_not.mp kind),
      inv.grantsApproved _ accepted, inv.grantsStand _ accepted⟩

/-! ### A concrete flow

A client registers, asks for a code, is approved and exchanges it. The digests
are those of the strings the flow hashes. -/

def flowCallback : Text := js "https://claude.ai/cb"

def flowVerifier : Text := js "dBjftJeZ4CVP-mB92K27uhbUJU1p1r_wW1gFWFOEjXk"

def flowChallenge : Text := js "E9Melhoa2OwvFrEMTJguCHaoeK1t8URWbuGJSstw-cM"

def flowDigest (t : Text) : Text :=
  if t = js "ut_req_a" then js "aWx3ibMXxq7zKzq9XVPYdCGE7VifPrjqsmBjSn6-fqU"
  else if t = js "ut_code_a" then js "_dFkZlqNEl7YOF-avmN0LbRor-4hIaV2Y_5ucKdbrrU"
  else if t = js "ut_at_a" then js "9MjYmQIFO18RkVxh3ehcdU1GcwdPA2hBU19L1vyleHk"
  else if t = js "ut_rt_a" then js "8W0bvP6rQ41SI8Y_iZjadD8MnF7c82OiJQdJFwaqsss"
  else if t = flowVerifier then flowChallenge
  else []

def flowOptions : Options where
  origin := js "https://u.dev"
  redirectOrigins := [js "https://claude.ai"]
  maxClients := 200
  parseUrl := fun raw => if raw = flowCallback then
    some ⟨js "https:", js "claude.ai", js "/cb", [], [], [], [], js "https://claude.ai"⟩ else none
  digest := flowDigest

def flowEnv : Env where
  now := fun _ => 1000
  saves := true
  signApproval := fun _ => some (js "k.mac")
  verifyApproval := fun _ signature => signature = js "k.mac"

def flowStart : Store := createOAuth flowEnv ⟨.empty, .empty, .empty, .empty⟩ .empty

def flowEvents : List Event :=
  let client := (js "client_id", js "c")
  let callback := (js "redirect_uri", flowCallback)
  [.register ⟨[flowCallback], [js "authorization_code"], js "Claude"⟩ (js "c"),
    .authorizeGet [client, callback, (js "response_type", js "code"),
      (js "code_challenge", flowChallenge), (js "code_challenge_method", js "S256"),
      (js "resource", js "https://u.dev/mcp")] (js "ut_req_a") (js "n"),
    .authorizePost [(js "req", js "ut_req_a"), (js "nonce", js "n"), (js "password", js "p")] true,
    .loginSettled ⟨flowDigest (js "ut_req_a"), js "ut_req_a", js "Claude"⟩ .ok (js "ut_code_a")
      (js "g"),
    .token [client, callback, (js "grant_type", js "authorization_code"),
      (js "code", js "ut_code_a"), (js "code_verifier", flowVerifier)] (js "ut_at_a")
      (js "ut_rt_a")]

def flowStep (s : Store) (label : Label) : Store := (handle flowOptions label.env label.event s).2

def flowLabels : List Label := flowEvents.map fun event => ⟨flowEnv, event⟩

theorem flow_run : (service flowOptions).Run flowStart (traceOf flowStep flowStart flowLabels)
    (runInputs flowStep flowStart flowLabels) := by
  refine run_traceOf_of_mem flowStart flowLabels fun x mem => ⟨?_, mem_traceOf mem⟩
  have allowed : ∀ x ∈ traceOf flowStep flowStart flowLabels,
      Allowed flowOptions x.before x.label.event := by decide
  exact allowed x mem

theorem flow_accepted : verifyAccessToken flowOptions (runInputs flowStep flowStart flowLabels) 2000
    (js "ut_at_a") = true := by decide

theorem token_provenance_flow : ∃ grantId,
    MintedFor flowStart (runInputs flowStep flowStart flowLabels) (flowDigest (js "ut_at_a"))
        grantId ∧
      Approved flowStart (runInputs flowStep flowStart flowLabels) grantId ∧
      .revoked grantId ∉ (runInputs flowStep flowStart flowLabels).history :=
  (token_provenance flowOptions ⟨flowEnv, _, _, rfl⟩ flow_run).2.2 2000 (js "ut_at_a") flow_accepted

end Ultrathink.Guarantees.TokenProvenance
