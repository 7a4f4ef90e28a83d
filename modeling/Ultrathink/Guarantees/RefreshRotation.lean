import Ultrathink.Guarantees.StoreIntegrity

/-!
# Refresh rotation and reuse detection

Each grant has at most one secret left that can be redeemed for tokens: its
unused code or its unspent refresh token. A code on record as used, or a refresh
token on record as spent that its own client presents, takes the grant with all
its tokens for the rest of the process.
-/

namespace Ultrathink.Guarantees.RefreshRotation

open Library JsText Runs Source.OAuth StoreIntegrity

inductive Secret where
  | code (key : Text)
  | refresh (key : Text)

/-- The secret is on record for the grant and was not redeemed. -/
def Unspent (data : Data) (grantId : Text) : Secret → Prop
  | .code key => ∃ record, data.codes.get? key = some record ∧ record.grantId = grantId ∧
      record.used = false
  | .refresh key => ∃ record, data.tokens.get? key = some record ∧ record.kind = .refresh ∧
      record.grantId = grantId ∧ record.used = false

def SingleSecret (data : Data) : Prop :=
  ∀ grantId a b, Unspent data grantId a → Unspent data grantId b → a = b

theorem SingleSecret.of_fewer {data data' : Data} (single : SingleSecret data)
    (codes : ∀ key record, data'.codes.get? key = some record → data.codes.get? key = some record)
    (tokens : ∀ key record, data'.tokens.get? key = some record →
      data.tokens.get? key = some record) : SingleSecret data' := by
  have fewer : ∀ grantId a, Unspent data' grantId a → Unspent data grantId a := by
    intro grantId a unspent
    cases a with
    | code key =>
      obtain ⟨record, held, rest⟩ := unspent
      exact ⟨record, codes key record held, rest⟩
    | refresh key =>
      obtain ⟨record, held, rest⟩ := unspent
      exact ⟨record, tokens key record held, rest⟩
  exact fun grantId a b ha hb => single grantId a b (fewer grantId a ha) (fewer grantId b hb)

theorem SingleSecret.of_replaced {data data' : Data} (single : SingleSecret data) {grantId : Text}
    {redeemed fresh : Secret} (unspent : Unspent data grantId redeemed)
    (others : ∀ id a, Unspent data' id a →
      (id = grantId ∧ a = fresh) ∨ (Unspent data id a ∧ a ≠ redeemed)) : SingleSecret data' := by
  intro id a b ha hb
  rcases others id a ha with ⟨rfl, rfl⟩ | ⟨oldA, apartA⟩
  · rcases others _ b hb with ⟨-, rfl⟩ | ⟨oldB, apartB⟩
    · rfl
    · exact absurd (single _ b redeemed oldB unspent) apartB
  · rcases others _ b hb with ⟨rfl, rfl⟩ | ⟨oldB, -⟩
    · exact absurd (single _ a redeemed oldA unspent) apartA
    · exact single id a b oldA oldB

variable {o : Options} {e : Env}

variable {s : Store} {grantId access refresh : Text}

theorem single_exchange (single : SingleSecret s.data) {code : Text} {record : CodeRecord}
    {facts : List Fact} (found : s.data.codes.get? code = some record)
    (unused : record.used = false) :
    SingleSecret (answered e access refresh record.grantId record.clientId record.resource
      record.scope { s.data with codes := s.data.codes.set code { record with used := true } }
      facts s).data := by
  have unspentCode : Unspent s.data record.grantId (.code code) := ⟨record, found, rfl, unused⟩
  refine @SingleSecret.of_replaced _ _ single _ _ (.refresh refresh) unspentCode fun id a unspent => ?_
  cases a with
  | code key =>
    obtain ⟨other, held, rest⟩ := unspent
    simp only [answered, issueTokens, OrderedMap.get?_set] at held
    split at held
    · cases held
      exact absurd rest.2 (by simp)
    · rename_i apart
      exact Or.inr ⟨⟨other, held, rest⟩, fun same => apart (by cases same; rfl)⟩
  | refresh key =>
    obtain ⟨other, held, kind, rest⟩ := unspent
    simp only [answered, issueTokens, OrderedMap.get?_set] at held
    split at held
    · rename_i same
      cases held
      exact Or.inl ⟨rest.1.symm, by rw [same]⟩
    · split at held
      · cases held
        cases kind
      · exact Or.inr ⟨⟨other, held, kind, rest⟩, fun same => by cases same⟩

theorem single_rotate (single : SingleSecret s.data) {spent : Text} {record : TokenRecord}
    {facts : List Fact} (expiresAt : ℤ) (found : s.data.tokens.get? spent = some record)
    (kind : record.kind = .refresh) (unused : record.used = false) :
    SingleSecret (answered e access refresh record.grantId record.clientId record.resource
      record.scope { s.data with tokens := s.data.tokens.set spent { record with
        used := true, expiresAt := expiresAt } } facts s).data := by
  have unspentToken : Unspent s.data record.grantId (.refresh spent) :=
    ⟨record, found, kind, rfl, unused⟩
  refine @SingleSecret.of_replaced _ _ single _ _ (.refresh refresh) unspentToken fun id a unspent => ?_
  cases a with
  | code key =>
    obtain ⟨other, held, rest⟩ := unspent
    exact Or.inr ⟨⟨other, held, rest⟩, nofun⟩
  | refresh key =>
    obtain ⟨other, held, kind', rest⟩ := unspent
    simp only [answered, issueTokens, OrderedMap.get?_set] at held
    split at held
    · rename_i same
      cases held
      exact Or.inl ⟨rest.1.symm, by rw [same]⟩
    · split at held
      · cases held
        cases kind'
      · split at held
        · cases held
          exact absurd rest.2 (by simp)
        · rename_i apart
          exact Or.inr ⟨⟨other, held, kind', rest⟩, fun same => apart (by cases same; rfl)⟩

/-- Nothing on record bears the id of a new grant, so its code is its only secret. -/
theorem single_approval (single : SingleSecret s.data) (linked : Linked s.data) {key code : Text}
    {request : PendingRequest} {client : ClientRecord}
    (approves : Approves o s key code grantId request client) (t : ℤ) :
    SingleSecret (recordApproval o t key request client code grantId s).data := by
  have others : ∀ id a,
      Unspent (recordApproval o t key request client code grantId s).data id a →
      (id = grantId ∧ a = .code (o.digest code)) ∨ (Unspent s.data id a ∧ id ≠ grantId) := by
    intro id a unspent
    cases a with
    | code other =>
      obtain ⟨record, held, owner, unused⟩ := unspent
      change (s.data.codes.set (o.digest code) _).get? other = some record at held
      rw [OrderedMap.get?_set] at held
      split at held
      · rename_i same
        cases held
        exact Or.inl ⟨owner.symm, by rw [same]⟩
      · exact Or.inr ⟨⟨record, held, owner, unused⟩, owner ▸
          ne_of_contains approves.newGrant (linked.codes other record held)⟩
    | refresh other =>
      obtain ⟨record, held, kind, owner, unused⟩ := unspent
      exact Or.inr ⟨⟨record, held, kind, owner, unused⟩, owner ▸
        ne_of_contains approves.newGrant (linked.tokens other record held)⟩
  intro id a b ha hb
  rcases others id a ha with ⟨rfl, rfl⟩ | ⟨oldA, apart⟩
  · rcases others _ b hb with ⟨-, rfl⟩ | ⟨-, apart⟩
    · rfl
    · exact absurd rfl apart
  · rcases others id b hb with ⟨same, -⟩ | ⟨oldB, -⟩
    · exact absurd same apart
    · exact single id a b oldA oldB

theorem SingleSecret.prune (single : SingleSecret s.data) (t : ℤ) :
    SingleSecret (prune s t).2.data :=
  single.of_fewer (fun _ _ held => get?_of_filter held) (fun _ _ held => get?_of_filter held)

theorem SingleSecret.move {s s' : Store} (single : SingleSecret s.data) (move : Move o e s s') :
    SingleSecret s'.data := by
  cases move with
  | prune i => exact single.prune _
  | enroll made new =>
    have pruned := single.prune (e.now 0)
    rcases makeRoomForClient_cases made with ⟨rfl, -⟩ | ⟨_, _, -, -, -, rfl⟩
    · exact pruned.of_fewer (fun _ _ held => held) (fun _ _ held => held)
    · exact pruned.of_fewer (fun _ _ held => held) (fun _ _ held => held)
  | exchange found unused newAccess newRefresh => exact single_exchange single found unused
  | rotate expiresAt found kind unused newAccess newRefresh =>
    exact single_rotate single expiresAt found kind unused
  | revoke grantId =>
    exact single.of_fewer (fun _ _ held => get?_of_filter held) (fun _ _ held => get?_of_filter held)
  | _ => exact single.of_fewer (fun _ _ held => held) (fun _ _ held => held)

theorem SingleSecret.handle (single : SingleSecret s.data) (linked : Linked s.data) {event : Event}
    (allowed : Allowed o s event) (new : DrawsNew o s event) :
    SingleSecret (handle o e event s).2.data := by
  obtain ⟨m, after, moves | ⟨key, code, grantId, request, client, approves, rfl⟩⟩ :=
    handle_moves o e event s allowed new
  · have kept : SingleSecret m.data := by
      clear after
      induction moves with
      | refl => exact single
      | tail _ move ih => exact ih.move move
    rwa [after]
  · rw [after]
    exact (single_approval single linked approves (e.now 0)).prune (e.now 1)

theorem single_run {t : Store} {steps : List (Step Store Label)} (sound : Sound o s)
    (single : SingleSecret s.data) (run : (service o).Run s steps t)
    (new : ∀ x ∈ steps, DrawsNew o x.before x.label.event) : SingleSecret t.data := by
  refine (run.invariant_of (fun s => Sound o s ∧ SingleSecret s.data)
    (fun x => DrawsNew o x.before x.label.event) ⟨sound, single⟩ ?_ new).2
  rintro m label n ⟨allowed, rfl⟩ new ⟨sound, single⟩
  exact ⟨sound.handle label.event allowed new, single.handle sound.linked allowed new⟩

theorem single_written {stored : Data} {storedPending : OrderedMap Text PendingRequest}
    (written : Written o stored storedPending) : SingleSecret stored := by
  induction written with
  | missing =>
    intro grantId a b unspent
    cases a <;> simp [Unspent] at unspent
  | @saved e stored pending s steps earlier run new ih =>
    refine single_run (sound_written earlier e) ?_ run new
    exact ih.of_fewer (fun _ _ held => held) (fun _ _ held => held)

/-- A client registered for the grant type presents a code on record as used, or its
own refresh token on record as spent. -/
def replays (o : Options) (s : Store) (event : Event) (grantId : Text) : Bool :=
  match event with
  | .token form _ _ =>
    let clientId := form.text "client_id"
    let grantType := (form.get (js "grant_type")).getD []
    (s.data.clients.get? clientId).any (fun client => grantType ∈ client.grantTypes) &&
      (grantType = js "authorization_code" &&
          (s.data.codes.get? (o.digest (form.text "code"))).any
            (fun record => record.used && record.grantId = grantId) ||
        grantType = js "refresh_token" &&
          (s.data.tokens.get? (o.digest (form.text "refresh_token"))).any
            (fun record => record.kind = .refresh && record.clientId = clientId && record.used &&
              record.grantId = grantId))
  | _ => false

/-- The grant was revoked, and no record of it, of a code or of a token is left. -/
structure Gone (grantId : Text) (s : Store) : Prop where
  revoked : .revoked grantId ∈ s.history
  grant : s.data.grants.contains grantId = false
  codes : ∀ key record, s.data.codes.get? key = some record → record.grantId ≠ grantId
  tokens : ∀ key record, s.data.tokens.get? key = some record → record.grantId ≠ grantId

theorem gone_revokeGrant (s : Store) (grantId : Text) : Gone grantId (revokeGrant s grantId) where
  revoked := by simp [revokeGrant, Store.note]
  grant := by simp [revokeGrant, Store.note, OrderedMap.contains]
  codes _ _ held := of_decide_eq_true ((get?_filter_iff _).mp held).2
  tokens _ _ held := of_decide_eq_true ((get?_filter_iff _).mp held).2

theorem Gone.of_handsOutNothing {s' : Store} (gone : Gone grantId s) (rest : HandsOutNothing s s') :
    Gone grantId s' where
  revoked := rest.history ▸ gone.revoked
  grant := by
    by_contra held
    have before := rest.grants grantId (Bool.of_not_eq_false held)
    exact Bool.false_ne_true (gone.grant.symm.trans before)
  codes key record held := gone.codes key record (rest.codes key record held)
  tokens key record held := gone.tokens key record (rest.tokens key record held)

theorem token_replay {form : Form}
    (replay : replays o s (.token form access refresh) grantId = true) :
    Gone grantId (token o e form access refresh s).2 := by
  simp only [replays, Bool.and_eq_true, Option.any_eq_true, decide_eq_true_eq,
    Bool.or_eq_true] at replay
  obtain ⟨⟨client, known, registered⟩, ⟨grantType, record, found, used, owner⟩ |
    ⟨grantType, record, found, ⟨⟨kind, same⟩, used⟩, owner⟩⟩ := replay
  all_goals
    have named : form.get (js "grant_type") = some ((form.get (js "grant_type")).getD []) := by
      cases presented : form.get (js "grant_type") with
      | none =>
        rw [presented] at grantType
        exact absurd grantType (by decide)
      | some _ => rfl
    rw [grantType] at named
    rw [grantType] at registered
    have gone (t t' : ℤ) : Gone grantId (prune (revokeGrant
        (touchClient s (form.text "client_id") t) grantId) t').2 :=
      (gone_revokeGrant _ grantId).of_handsOutNothing (prune_handsOutNothing _ _)
    unfold token
    simp only [named, known]
  · rw [if_neg (by simp), if_neg (by simpa using registered), if_pos trivial]
    unfold exchangeCode
    have found' : (touchClient s (form.text "client_id") (e.now 0)).data.codes.get?
        (o.digest (form.text "code")) = some record := found
    simp only [found', used, if_true]
    exact owner ▸ gone _ _
  · rw [if_neg (by simp), if_neg (by simpa using registered), if_neg (by decide)]
    unfold refreshGrant
    have found' : (touchClient s (form.text "client_id") (e.now 0)).data.tokens.get?
        (o.digest (form.text "refresh_token")) = some record := found
    simp only [found', kind, same, used, ne_eq, not_true, if_true, if_false]
    exact owner ▸ gone _ _

theorem handle_replay {event : Event} (replay : replays o s event grantId = true) :
    Gone grantId (handle o e event s).2 := by
  cases event with
  | token form access refresh => exact token_replay replay
  | _ => simp [replays] at replay

theorem Gone.answered (gone : Gone grantId s) {id clientId grantResource : Text}
    {scope : Option Text} {spent : Data} {facts : List Source.OAuth.Fact} (other : id ≠ grantId)
    (grants : spent.grants = s.data.grants)
    (codes : ∀ key record, spent.codes.get? key = some record → record.grantId ≠ grantId)
    (tokens : ∀ key record, spent.tokens.get? key = some record → record.grantId ≠ grantId) :
    Gone grantId
      (Source.OAuth.answered e access refresh id clientId grantResource scope spent facts s) := by
  refine ⟨by simp [Source.OAuth.answered, gone.revoked], ?_, codes, fun key record held => ?_⟩
  · exact (contains_grants_issueTokens ..).trans (grants ▸ gone.grant)
  · simp only [Source.OAuth.answered, issueTokens, OrderedMap.get?_set] at held
    split at held
    · cases held
      exact other
    · split at held
      · cases held
        exact other
      · exact tokens key record held

theorem Gone.approval {grantId : Text} {s : Store} (gone : Gone grantId s) {approved : Text}
    (other : approved ≠ grantId) (t : ℤ) (key code : Text) (request : PendingRequest)
    (client : ClientRecord) :
    Gone grantId (recordApproval o t key request client code approved s) := by
  refine ⟨List.mem_append_left _ gone.revoked, ?_, fun key' record held => ?_, gone.tokens⟩
  · change (s.data.grants.set approved _).contains grantId = false
    rw [OrderedMap.contains, OrderedMap.get?_set_of_ne _ _ other.symm]
    exact gone.grant
  · change (s.data.codes.set (o.digest code) _).get? key' = some record at held
    rw [OrderedMap.get?_set] at held
    split at held
    · cases held
      exact other
    · exact gone.codes key' record held

theorem Gone.withdrawal (gone : Gone grantId s) (id : Text) :
    Gone grantId (revokeGrant s id) where
  revoked := List.mem_append_left _ gone.revoked
  grant := by
    by_contra held
    have before : s.data.grants.contains grantId = true :=
      contains_of_filter (Bool.of_not_eq_false held)
    exact Bool.false_ne_true (gone.grant.symm.trans before)
  codes key record held := gone.codes key record (get?_of_filter held)
  tokens key record held := gone.tokens key record (get?_of_filter held)

/-- No segment brings a revoked grant back: a code or a token is only ever given for
a new grant or for one that has a code or a token on record. -/
theorem Gone.effect {s' : Store} (gone : Gone grantId s) (h : Effect o e s s') :
    Gone grantId s' := by
  cases h with
  | quiet rest => exact gone.of_handsOutNothing rest
  | @approval key code approved request t client found undecided freshCode freshGrant rest =>
    have other : approved ≠ grantId := by
      rintro rfl
      exact freshGrant.2 _ gone.revoked (by simp [Fact.ids])
    exact (gone.approval other t key code request client).of_handsOutNothing rest
  | withdrawal id rest => exact (gone.withdrawal id).of_handsOutNothing rest
  | @exchange code record access refresh found unused rest =>
    have other := gone.codes code record found
    refine (gone.answered other ?_ (fun key record' held => ?_) ?_).of_handsOutNothing rest
    · rfl
    · rw [OrderedMap.get?_set] at held
      split at held
      · cases held
        exact other
      · exact gone.codes key record' held
    · exact gone.tokens
  | @rotation spent record access refresh expiresAt found kind rest =>
    have other := gone.tokens spent record found
    refine (gone.answered other ?_ ?_ fun key record' held => ?_).of_handsOutNothing rest
    · rfl
    · exact gone.codes
    · rw [OrderedMap.get?_set] at held
      split at held
      · cases held
        exact other
      · exact gone.tokens key record' held

theorem verifyAccessToken_record {t : ℤ} {presented : Text}
    (accepted : verifyAccessToken o s t presented = true) :
    ∃ record, s.data.tokens.get? (o.digest presented) = some record := by
  unfold verifyAccessToken at accepted
  split at accepted
  · cases accepted
  · split at accepted
    · cases accepted
    · rename_i record found
      exact ⟨record, found⟩

/-- In every state a grant has at most one unspent refresh token; and after a replay
no grant, code or token record of the grant is left, so no token of it verifies. -/
theorem refresh_rotation (o : Options) {stored : Data} {storedPending : OrderedMap Text PendingRequest}
    (written : Written o stored storedPending) {e : Env} {s : Store}
    {steps : List (Step Store Label)}
    (run : (service o).Run (createOAuth e stored storedPending) steps s)
    (new : ∀ x ∈ steps, DrawsNew o x.before x.label.event) :
    (∀ grantId a b, Unspent s.data grantId (.refresh a) → Unspent s.data grantId (.refresh b) →
        a = b) ∧
      ∀ x ∈ steps, ∀ grantId, replays o x.before x.label.event grantId = true →
        Gone grantId s ∧ ∀ t presented, verifyAccessToken o s t presented = true →
          ∃ record, s.data.tokens.get? (o.digest presented) = some record ∧
            record.grantId ≠ grantId := by
  constructor
  · intro grantId a b unspentA unspentB
    have single := single_run (sound_written written e)
      ((single_written written).of_fewer (fun _ _ held => held) (fun _ _ held => held)) run new
    have same := single grantId _ _ unspentA unspentB
    cases same
    rfl
  · intro x mem grantId replay
    have gone : Gone grantId s := by
      refine run.kept_since (Gone grantId) ?_ mem ?_
      · rintro m label n ⟨allowed, rfl⟩ gone
        exact gone.effect (handle_effect o label.env label.event m allowed)
      · obtain ⟨-, after⟩ := run.mem_step x mem
        rw [after]
        exact handle_replay replay
    refine ⟨gone, fun t presented accepted => ?_⟩
    obtain ⟨record, found⟩ := verifyAccessToken_record accepted
    exact ⟨record, found, gone.tokens _ _ found⟩

/-! ### Concrete runs

The flow of a client that may also refresh: it exchanges its code and redeems the
refresh token once. -/

open TokenProvenance (flowDigest flowCallback flowChallenge flowVerifier flowEnv)

def rotationDigest (t : Text) : Text :=
  if t = js "ut_at_b" then js "KhxUFIfFsv3Roc7vqchNVesu0449FzMh6lUSeHlUZF4"
  else if t = js "ut_rt_b" then js "J0h80ReTSG9F0DopzzGEWmKJP2kmaxOu-UZlwIb18_0"
  else if t = js "ut_at_c" then js "9n_RjOi1ceFPIxYZefFvvimASgM9DJQxIE4XoAPHhRw"
  else if t = js "ut_rt_c" then js "qjafMdsVPRlpYEZzBt3Tc1CZtk2cDlYMsyZPQB4CXBk"
  else flowDigest t

def rotationOptions : Options := { TokenProvenance.flowOptions with digest := rotationDigest }

def rotationStart : Store := createOAuth flowEnv ⟨.empty, .empty, .empty, .empty⟩ .empty

def rotationStep (s : Store) (label : Label) : Store :=
  (handle rotationOptions label.env label.event s).2

def exchangeEvent (access refresh : Text) : Event :=
  .token [(js "client_id", js "c"), (js "redirect_uri", flowCallback),
    (js "grant_type", js "authorization_code"), (js "code", js "ut_code_a"),
    (js "code_verifier", flowVerifier)] access refresh

def refreshEvent (presented access refresh : Text) : Event :=
  .token [(js "client_id", js "c"), (js "grant_type", js "refresh_token"),
    (js "refresh_token", presented)] access refresh

def rotationEvents : List Event :=
  [.register ⟨[flowCallback], [js "authorization_code", js "refresh_token"], js "Claude"⟩ (js "c"),
    .authorizeGet [(js "client_id", js "c"), (js "redirect_uri", flowCallback),
      (js "response_type", js "code"), (js "code_challenge", flowChallenge),
      (js "code_challenge_method", js "S256"), (js "resource", js "https://u.dev/mcp")]
      (js "ut_req_a") (js "n"),
    .authorizePost [(js "req", js "ut_req_a"), (js "nonce", js "n"), (js "password", js "p")] true,
    .loginSettled ⟨rotationDigest (js "ut_req_a"), js "ut_req_a", js "Claude"⟩ .ok (js "ut_code_a")
      (js "g"),
    exchangeEvent (js "ut_at_a") (js "ut_rt_a"),
    refreshEvent (js "ut_rt_a") (js "ut_at_b") (js "ut_rt_b")]

/-- The spent token comes back at once. -/
def replayLabels : List Label :=
  (rotationEvents ++ [refreshEvent (js "ut_rt_a") (js "ut_at_c") (js "ut_rt_c")]).map
    fun event => ⟨flowEnv, event⟩

theorem replay_run : (service rotationOptions).Run rotationStart
    (traceOf rotationStep rotationStart replayLabels)
    (runInputs rotationStep rotationStart replayLabels) := by
  have allowed : ∀ x ∈ traceOf rotationStep rotationStart replayLabels,
      Allowed rotationOptions x.before x.label.event := by decide
  exact run_traceOf_of_mem rotationStart replayLabels fun x mem => ⟨allowed x mem, mem_traceOf mem⟩

theorem replay_new : ∀ x ∈ traceOf rotationStep rotationStart replayLabels,
    DrawsNew rotationOptions x.before x.label.event := by decide

theorem replay_detected : ∃ x ∈ traceOf rotationStep rotationStart replayLabels,
    replays rotationOptions x.before x.label.event (js "g") = true := by decide

theorem refresh_rotation_replay :
    Gone (js "g") (runInputs rotationStep rotationStart replayLabels) := by
  obtain ⟨x, mem, replay⟩ := replay_detected
  exact ((refresh_rotation rotationOptions .missing (e := flowEnv) replay_run replay_new).2 x mem
    (js "g") replay).1

/-- The spent token comes back after a sweep six minutes later. -/
def lateReplayLabels : List Label :=
  (rotationEvents.map fun event => ⟨flowEnv, event⟩) ++
    ([.sweep, refreshEvent (js "ut_rt_a") (js "ut_at_c") (js "ut_rt_c")].map
      fun event => ⟨flowAt 361000, event⟩)

/-- The step presents the refresh token. -/
def presentsRefresh (secret : Text) (x : Step Store Label) : Bool :=
  match x.label.event with
  | .token form _ _ => form.get (js "refresh_token") = some secret
  | _ => false

/-- The step presents the refresh token and is answered with new ones, which spends it. -/
def spendsRefresh (secret : Text) (x : Step Store Label) : Bool :=
  presentsRefresh secret x && (handle rotationOptions x.label.env x.label.event x.before).1.isTokens

/-- A spent refresh token is presented again by the last step, and the access token of its successor
still verifies afterwards. -/
theorem late_replay_unnoticed :
    ∃ steps s, (service rotationOptions).Run rotationStart steps s ∧
      (∀ x ∈ steps, DrawsNew rotationOptions x.before x.label.event) ∧
      steps.dropLast.any (spendsRefresh (js "ut_rt_a")) = true ∧
      steps.getLast?.any (presentsRefresh (js "ut_rt_a")) = true ∧
      (s.data.tokens.get? (rotationDigest (js "ut_at_b"))).any (·.grantId = js "g") = true ∧
      verifyAccessToken rotationOptions s 361000 (js "ut_at_b") = true := by
  have allowed : ∀ x ∈ traceOf rotationStep rotationStart lateReplayLabels,
      Allowed rotationOptions x.before x.label.event := by decide
  refine ⟨_, _, run_traceOf_of_mem rotationStart lateReplayLabels fun x mem =>
    ⟨allowed x mem, mem_traceOf mem⟩, ?_, ?_, ?_, ?_, ?_⟩
  all_goals decide

/-- A revoked token's grant stays ended, even if the write fails. -/
theorem revocation_final {first : Store} {steps : List (Step Store Label)}
    (run : (service o).Run first steps s) {x : Step Store Label} (mem : x ∈ steps) {form : Form}
    (asked : x.label.event = .revoke form) (named : form.text "token" ≠ []) {record : TokenRecord}
    (found : x.before.data.tokens.get? (o.digest (form.text "token")) = some record)
    (client : form.text "client_id" = [] ∨ form.text "client_id" = record.clientId) :
    Gone record.grantId s := by
  refine run.kept_since _ ?_ mem ?_
  · rintro m label n ⟨allowed, rfl⟩ gone
    exact gone.effect (handle_effect o label.env label.event m allowed)
  · obtain ⟨-, after⟩ := run.mem_step x mem
    rw [after, asked]
    unfold handle revoke
    simp only [named, found, client, if_true, if_false]
    exact (gone_revokeGrant _ _).of_handsOutNothing (persisted_handsOutNothing ..)

def oneToken : Store := ⟨⟨.empty, .empty, .empty, OrderedMap.empty.set (flowDigest (js "ut_at_a"))
  ⟨.access, js "g", js "c", [], none, 9, false⟩⟩, .empty, [], [], []⟩

def byHolder : Label := ⟨flowEnv, .revoke [(js "token", js "ut_at_a")]⟩

theorem revocation_final_holder : Gone (js "g") (rotationStep oneToken byHolder) :=
  revocation_final (o := rotationOptions) (.tail (.refl oneToken) (i := byHolder) ⟨trivial, rfl⟩)
    (by simp; rfl) rfl (by decide) rfl (.inl rfl)

end Ultrathink.Guarantees.RefreshRotation
