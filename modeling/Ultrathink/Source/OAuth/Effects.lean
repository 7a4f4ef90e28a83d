import Ultrathink.Source.OAuth.Service

/-!
# What one segment does to what was handed out

`handle_effect` says once, for every event, how a segment changes the requests, the grants, the
codes, the tokens and the history.
-/

namespace Ultrathink.Source.OAuth

open Library JsText

/-- From `s` to `s'` nothing is handed out or withdrawn on record: requests stay
settled, and grants, codes and tokens at most go. -/
structure HandsOutNothing (s s' : Store) : Prop where
  history : s'.history = s.history
  requests : ∀ key request, s.requests.get? key = some request →
    ∃ request', s'.requests.get? key = some request' ∧
      (request.approvalState ≠ .pendingApproval → request'.approvalState ≠ .pendingApproval)
  grants : ∀ id, s'.data.grants.contains id → s.data.grants.contains id
  codes : ∀ code record, s'.data.codes.get? code = some record →
    s.data.codes.get? code = some record
  tokens : ∀ token record, s'.data.tokens.get? token = some record →
    s.data.tokens.get? token = some record

theorem HandsOutNothing.refl (s : Store) : HandsOutNothing s s :=
  ⟨rfl, fun _ request found => ⟨request, found, id⟩, fun _ => id, fun _ _ => id, fun _ _ => id⟩

variable {s s' : Store} {t : ℤ} {access refresh : Text}

theorem HandsOutNothing.trans {m t : Store} (first : HandsOutNothing s m)
    (second : HandsOutNothing m t) : HandsOutNothing s t where
  history := second.history.trans first.history
  requests key request found := by
    obtain ⟨middle, foundMiddle, settled⟩ := first.requests key request found
    obtain ⟨last, foundLast, settledLast⟩ := second.requests key middle foundMiddle
    exact ⟨last, foundLast, fun h => settledLast (settled h)⟩
  grants id held := first.grants id (second.grants id held)
  codes code record held := first.codes code record (second.codes code record held)
  tokens token record held := first.tokens token record (second.tokens token record held)

theorem HandsOutNothing.of_same (history : s'.history = s.history)
    (requests : s'.requests = s.requests) (grants : s'.data.grants = s.data.grants)
    (codes : s'.data.codes = s.data.codes) (tokens : s'.data.tokens = s.data.tokens) :
    HandsOutNothing s s' := by
  refine ⟨history, fun _ request found => ⟨request, requests ▸ found, id⟩, ?_, ?_, ?_⟩
  · intro id held
    rwa [grants] at held
  · intro code record held
    rwa [codes] at held
  · intro token record held
    rwa [tokens] at held

variable {κ ν : Type} {m : OrderedMap κ ν} {keep : κ → ν → Bool} {k : κ} {key clientId : Text}
  {form : Form}

theorem get?_of_filter [DecidableEq κ] {v : ν} (found : (m.filter keep).get? k = some v) :
    m.get? k = some v := by
  rw [OrderedMap.get?_filter, Option.filter_eq_some_iff] at found
  exact found.1

theorem contains_of_filter [DecidableEq κ] (found : (m.filter keep).contains k) : m.contains k := by
  obtain ⟨v, hv⟩ := Option.isSome_iff_exists.mp found
  exact Option.isSome_iff_exists.mpr ⟨v, get?_of_filter hv⟩

theorem pruneRequests_handsOutNothing (s : Store) (t : ℤ) :
    HandsOutNothing s (pruneRequests s t) := by
  refine ⟨rfl, fun key request found => ?_, fun _ => id, fun _ _ => id, fun _ _ => id⟩
  simp only [pruneRequests, OrderedMap.get?_mapValues, found, Option.map_some, Option.some.injEq,
    exists_eq_left']
  split
  · exact fun _ => by simp
  · exact id

theorem prune_handsOutNothing (s : Store) (t : ℤ) : HandsOutNothing s (prune s t).2 := by
  have shorter : HandsOutNothing s { s with data := pruneTokens (pruneCodes s.data t) t } :=
    ⟨rfl, fun _ request found => ⟨request, found, id⟩, fun _ => id,
      fun _ _ => get?_of_filter, fun _ _ => get?_of_filter⟩
  have requests := shorter.trans (pruneRequests_handsOutNothing _ t)
  refine requests.trans ⟨rfl, fun _ request found => ⟨request, found, id⟩, fun _ => ?_,
    fun _ _ => id, fun _ _ => id⟩
  exact contains_of_filter

theorem persisted_handsOutNothing (e : Env) (t : ℤ) (s : Store) (reply : Reply) :
    HandsOutNothing s (persisted e t s reply).2 :=
  prune_handsOutNothing s t

theorem setClient_handsOutNothing (s : Store) (id : Text) (client : ClientRecord) :
    HandsOutNothing s (setClient s id client) := .of_same rfl rfl rfl rfl rfl

theorem touchClient_handsOutNothing (s : Store) (id : Text) (t : ℤ) :
    HandsOutNothing s (touchClient s id t) := .of_same rfl rfl rfl rfl rfl

theorem setRequest_handsOutNothing (s : Store) (key : Text) (request : PendingRequest)
    (open_ : ∀ old, s.requests.get? key = some old → old.approvalState ≠ .pendingApproval →
      request.approvalState ≠ .pendingApproval) :
    HandsOutNothing s (setRequest s key request) := by
  refine ⟨rfl, fun other old found => ?_, fun _ => id, fun _ _ => id, fun _ _ => id⟩
  simp only [setRequest, OrderedMap.get?_set]
  by_cases same : other = key
  · subst same
    exact ⟨request, by simp, open_ old found⟩
  · exact ⟨old, by simp [same, found], id⟩

theorem setRequest_fresh_handsOutNothing (s : Store) (key : Text) (request : PendingRequest)
    (fresh : s.requests.get? key = none) : HandsOutNothing s (setRequest s key request) :=
  setRequest_handsOutNothing s key request fun old found => by rw [fresh] at found; cases found

theorem listRequest_handsOutNothing (s : Store) (key : Text) :
    HandsOutNothing s { s with listed := s.listed ++ [key] } := .of_same rfl rfl rfl rfl rfl

theorem makeRoomForClient_handsOutNothing (s : Store) (t : ℤ) (maxClients : Nat) :
    HandsOutNothing s (makeRoomForClient s t maxClients).2 ∧
      ∀ room, (makeRoomForClient s t maxClients).1 = some room → HandsOutNothing s room := by
  have pruned := prune_handsOutNothing s t
  unfold makeRoomForClient
  simp only
  split
  · exact ⟨pruned, fun room h => Option.some.inj h ▸ pruned⟩
  · split
    · exact ⟨pruned, fun room h => by cases h⟩
    · refine ⟨pruned.trans (.of_same rfl rfl rfl rfl rfl), fun room h => ?_⟩
      cases Option.some.inj h
      exact pruned.trans (.of_same rfl rfl rfl rfl rfl)

section Handlers
variable (o : Options) (e : Env)

theorem register_handsOutNothing (fields : RegisterFields) (clientId : Text) (s : Store) :
    HandsOutNothing s (register o e fields clientId s).2 := by
  have room := makeRoomForClient_handsOutNothing s (e.now 0) o.maxClients
  unfold register
  split
  · exact .refl s
  · split
    · rename_i full
      rw [full] at room
      exact room.1
    · rename_i made
      rw [made] at room
      exact ((room.2 _ rfl).trans (setClient_handsOutNothing _ _ _)).trans
        (persisted_handsOutNothing e _ _ _)

theorem openRequest_handsOutNothing (params : Form) (client : ClientRecord)
    (requestId nonce : Text) (s : Store) (fresh : s.requests.get? (o.digest requestId) = none) :
    HandsOutNothing s (openRequest o e params client requestId nonce s).2 := by
  unfold openRequest
  simp only
  split
  · exact .refl s
  · exact ((setRequest_fresh_handsOutNothing s _ _ fresh).trans
      (listRequest_handsOutNothing _ _)).trans (persisted_handsOutNothing e _ _ _)

theorem prune_requests_none (fresh : s.requests.get? key = none) :
    (prune s t).2.requests.get? key = none := by
  simp [prune, pruneRequests, pruneClients, OrderedMap.get?_mapValues, fresh]

theorem authorizeGet_handsOutNothing (params : Form) (requestId nonce : Text) (s : Store)
    (fresh : s.requests.get? (o.digest requestId) = none) :
    HandsOutNothing s (authorizeGet o e params requestId nonce s).2 := by
  have pruned := prune_handsOutNothing s (e.now 0)
  have freshPruned := prune_requests_none (t := e.now 0) fresh
  unfold authorizeGet
  simp only
  split
  · exact pruned
  · split
    · exact pruned
    · have touched := pruned.trans (touchClient_handsOutNothing (prune s (e.now 0)).2
        (params.text "client_id") (e.now 1))
      repeat' split
      all_goals first
        | exact touched
        | exact touched.trans (openRequest_handsOutNothing o e _ _ _ _ _ freshPruned)

theorem tickApproval_handsOutNothing (t : ℤ) (key : Text) (request : PendingRequest) (s : Store)
    (found : s.requests.get? key = some request) :
    HandsOutNothing s (tickApproval e t key request s).2 := by
  have keeps : ∀ request' : PendingRequest, request'.approvalState = .expired ∨
      request'.approvalState = request.approvalState →
      HandsOutNothing s (setRequest s key request') := by
    intro request' state
    refine setRequest_handsOutNothing s key request' fun old foundOld settled => ?_
    obtain rfl : request = old := Option.some.inj (found.symm.trans foundOld)
    rcases state with expired | same
    · simp [expired]
    · rwa [same]
  unfold tickApproval
  split
  · exact .refl s
  · simp only
    split
    · exact keeps _ (Or.inl rfl)
    · split
      · exact keeps _ (Or.inr rfl)
      · exact keeps _ (Or.inr rfl)

theorem pollReply_handsOutNothing (key : Text) (s : Store) :
    HandsOutNothing s (pollReply e key s).2 := by
  have pruned := prune_handsOutNothing s (e.now 1)
  unfold pollReply
  simp only
  repeat' split
  all_goals exact pruned

theorem beginApproval_handsOutNothing (allowAttempt : Bool) (requestId key : Text)
    (request : PendingRequest) (s : Store) :
    HandsOutNothing s (beginApproval allowAttempt requestId key request s).2 := by
  unfold beginApproval
  simp only
  repeat' split
  all_goals exact .of_same rfl rfl rfl rfl rfl

theorem findPending_found {requestId nonce : Text} {request : PendingRequest}
    (found : findPending o e s requestId nonce = some (key, request)) :
    s.requests.get? key = some request := by
  unfold findPending at found
  split at found
  · cases found
  · simp only at found
    split at found
    · cases found
    · rename_i listed
      split at found
      · cases found
      · split at found
        · cases found
        · cases found
          unfold Store.pending at listed
          split at listed
          · exact listed
          · cases listed

theorem authorizePost_handsOutNothing (form : Form) (allowAttempt : Bool) (s : Store) :
    HandsOutNothing s (authorizePost o e form allowAttempt s).2 := by
  unfold authorizePost
  simp only
  split
  · exact .refl s
  · rename_i key request found
    have ticked := tickApproval_handsOutNothing e (e.now 0) key request s
      (findPending_found o e found)
    split
    · rename_i s' tick
      rw [tick] at ticked
      exact ticked
    · rename_i s' tick
      rw [tick] at ticked
      split
      · exact ticked.trans (pollReply_handsOutNothing e key s')
      · have saved := ticked.trans (prune_handsOutNothing s' (e.now 1))
        split
        · exact saved.trans (beginApproval_handsOutNothing _ _ _ _ _)
        · exact saved
    · rename_i s' state tick
      rw [tick] at ticked
      exact ticked.trans (persisted_handsOutNothing e _ s' _)

/-- The tables after tokens were minted, and what was told. -/
def answered (e : Env) (access refresh grantId clientId grantResource : Text)
    (scope : Option Text) (spent : Data) (facts : List Fact) (s : Store) : Store :=
  { s with
    data := issueTokens spent (e.now 3) access refresh grantId clientId grantResource scope
    history := s.history ++ facts ++ [.minted access grantId] }

inductive Effect (s : Store) : Store → Prop
  | quiet {s' : Store} (rest : HandsOutNothing s s') : Effect s s'
  | approval {s' : Store} {key code grantId : Text} {request : PendingRequest} (t : ℤ)
      (client : ClientRecord) (found : s.requests.get? key = some request)
      (undecided : request.approvalState = .pendingApproval) (freshCode : Fresh s (o.digest code))
      (freshGrant : Fresh s grantId)
      (rest : HandsOutNothing (recordApproval o t key request client code grantId s) s') :
      Effect s s'
  | withdrawal {s' : Store} (grantId : Text) (rest : HandsOutNothing (revokeGrant s grantId) s') :
      Effect s s'
  | exchange {s' : Store} {code : Text} {record : CodeRecord} (access refresh : Text)
      (found : s.data.codes.get? code = some record) (unused : record.used = false)
      (rest : HandsOutNothing (answered e access refresh record.grantId record.clientId
        record.resource record.scope
        { s.data with codes := s.data.codes.set code { record with used := true } }
        [.exchanged code] s) s') : Effect s s'
  | rotation {s' : Store} {key : Text} {record : TokenRecord} (access refresh : Text) (expiresAt : ℤ)
      (found : s.data.tokens.get? key = some record) (kind : record.kind = .refresh)
      (rest : HandsOutNothing (answered e access refresh record.grantId record.clientId
        record.resource record.scope
        { s.data with
          tokens := s.data.tokens.set key { record with used := true, expiresAt := expiresAt } }
        [] s) s') : Effect s s'

theorem HandsOutNothing.withHistory (h : HandsOutNothing s s') (history : List Fact) :
    HandsOutNothing { s with history := history } { s' with history := history } :=
  ⟨rfl, h.requests, h.grants, h.codes, h.tokens⟩

theorem answerTokens_cases (access refresh grantId clientId grantResource : Text)
    (scope : Option Text) (spent : Data) (facts : List Fact) (s : Store) :
    HandsOutNothing s (answerTokens o e access refresh grantId clientId grantResource scope spent
        facts s).2 ∨
      HandsOutNothing (answered e (o.digest access) (o.digest refresh) grantId clientId
          grantResource scope spent facts s)
        (answerTokens o e access refresh grantId clientId grantResource scope spent facts s).2 := by
  have pruned := prune_handsOutNothing { s with
    data := issueTokens spent (e.now 3) (o.digest access) (o.digest refresh) grantId clientId
      grantResource scope } (e.now 4)
  unfold answerTokens persist
  simp only
  split
  · right
    exact pruned.withHistory _
  · left
    exact ⟨pruned.history, pruned.requests, fun _ => id, fun _ _ => id, fun _ _ => id⟩

variable {o e}

theorem Effect.of_touch {id : Text} (h : Effect o e (touchClient s id t) s') : Effect o e s s' := by
  cases h with
  | quiet rest => exact .quiet ((touchClient_handsOutNothing s id t).trans rest)
  | approval t' client found undecided freshCode freshGrant rest =>
    refine .approval t' client found undecided freshCode freshGrant (HandsOutNothing.trans ?_ rest)
    exact .of_same rfl rfl rfl rfl rfl
  | withdrawal grantId rest =>
    refine .withdrawal grantId (HandsOutNothing.trans ?_ rest)
    exact .of_same rfl rfl rfl rfl rfl
  | exchange access refresh found unused rest =>
    refine .exchange access refresh found unused (HandsOutNothing.trans ?_ rest)
    exact .of_same rfl rfl rfl rfl rfl
  | rotation access refresh expiresAt found kind rest =>
    refine .rotation access refresh expiresAt found kind (HandsOutNothing.trans ?_ rest)
    exact .of_same rfl rfl rfl rfl rfl

variable (o e)

theorem revokeAndPersist_effect (t : ℤ) (grantId : Text) (reply : Reply) (s : Store) :
    Effect o e s (revokeAndPersist e t grantId reply s).2 :=
  .withdrawal grantId (persisted_handsOutNothing e t _ reply)

theorem settleLogin_effect (flight : Flight) (outcome : LoginOutcome) (code grantId : Text)
    (s : Store) (freshCode : Fresh s (o.digest code)) (freshGrant : Fresh s grantId) :
    Effect o e s (settleLogin o e flight outcome code grantId s).2 := by
  have same : Effect o e s s := .quiet (.refl s)
  unfold settleLogin
  split
  · exact same
  · rename_i request found
    split
    · exact same
    · split <;> exact same
    · split
      · exact same
      · rename_i client _
        split
        · exact same
        · rename_i standing
          obtain ⟨undecided, -⟩ := not_or.mp standing
          exact .approval (e.now 0) client found (not_not.mp undecided) freshCode freshGrant
            (persisted_handsOutNothing e _ _ _)

theorem exchangeCode_effect (form : Form) (clientId access refresh : Text) (s : Store) :
    Effect o e s (exchangeCode o e form clientId access refresh s).2 := by
  have same : Effect o e s s := .quiet (.refl s)
  unfold exchangeCode
  simp only
  split
  · exact same
  · rename_i record found
    split
    · exact revokeAndPersist_effect o e _ _ _ s
    · rename_i unused
      iterate 4
        split
        · exact same
      rcases answerTokens_cases o e access refresh record.grantId record.clientId record.resource
        record.scope _ _ s with nothing | whole
      · exact .quiet nothing
      · exact .exchange _ _ found (by simpa using unused) whole

theorem refreshGrant_effect (form : Form) (clientId access refresh : Text) (s : Store) :
    Effect o e s (refreshGrant o e form clientId access refresh s).2 := by
  have same : Effect o e s s := .quiet (.refl s)
  unfold refreshGrant
  simp only
  split
  · exact same
  · rename_i record found
    split
    · exact same
    · rename_i kind
      split
      · exact same
      split
      · exact revokeAndPersist_effect o e _ _ _ s
      iterate 3
        split
        · exact same
      rcases answerTokens_cases o e access refresh record.grantId record.clientId record.resource
        record.scope _ _ s with nothing | whole
      · exact .quiet nothing
      · exact .rotation _ _ _ found (not_not.mp kind) whole

theorem token_effect (form : Form) (access refresh : Text) (s : Store) :
    Effect o e s (token o e form access refresh s).2 := by
  unfold token
  simp only
  split
  · exact .quiet (.refl s)
  · split
    · exact .quiet (.refl s)
    · split
      · exact .quiet (touchClient_handsOutNothing s _ _)
      · split
        · exact .of_touch (exchangeCode_effect o e form _ access refresh _)
        · exact .of_touch (refreshGrant_effect o e form _ access refresh _)

theorem revoke_effect (form : Form) (s : Store) : Effect o e s (revoke o e form s).2 := by
  have same : Effect o e s s := .quiet (.refl s)
  unfold revoke
  simp only
  split
  · exact same
  · split
    · exact same
    · split
      · exact revokeAndPersist_effect o e _ _ _ s
      · exact same

theorem Effect.dropFlight (h : Effect o e s s') (approving : List Flight) :
    Effect o e s { s' with approving := approving } := by
  have after : HandsOutNothing s' { s' with approving := approving } := .of_same rfl rfl rfl rfl rfl
  cases h with
  | quiet rest => exact .quiet (rest.trans after)
  | approval t' client found undecided freshCode freshGrant rest =>
    exact .approval t' client found undecided freshCode freshGrant (rest.trans after)
  | withdrawal grantId rest => exact .withdrawal grantId (rest.trans after)
  | exchange access refresh found unused rest => exact .exchange access refresh found unused (rest.trans after)
  | rotation access refresh expiresAt found kind rest => exact .rotation access refresh expiresAt found kind (rest.trans after)

theorem handle_effect (event : Event) (s : Store) (allowed : Allowed o s event) :
    Effect o e s (handle o e event s).2 := by
  cases event with
  | register fields clientId => exact .quiet (register_handsOutNothing o e fields clientId s)
  | authorizeGet params requestId nonce =>
    exact .quiet (authorizeGet_handsOutNothing o e params requestId nonce s allowed.1)
  | authorizePost form allowAttempt =>
    exact .quiet (authorizePost_handsOutNothing o e form allowAttempt s)
  | loginSettled flight outcome code grantId =>
    obtain ⟨-, freshCode, freshGrant⟩ := allowed
    exact (settleLogin_effect o e flight outcome code grantId s freshCode freshGrant).dropFlight o e _
  | token form access refresh => exact token_effect o e form access refresh s
  | revoke form => exact revoke_effect o e form s
  | sweep => exact .quiet (prune_handsOutNothing s (e.now 0))

variable {o e}

theorem Effect.history_grows (h : Effect o e s s') :
    ∃ more, s'.history = s.history ++ more := by
  cases h with
  | quiet rest => exact ⟨[], by rw [rest.history, List.append_nil]⟩
  | approval t client found undecided freshCode freshGrant rest => exact ⟨_, rest.history⟩
  | withdrawal grantId rest => exact ⟨_, rest.history⟩
  | exchange access refresh found unused rest =>
    exact ⟨_, rest.history.trans (List.append_assoc ..)⟩
  | rotation access refresh expiresAt found kind rest =>
    exact ⟨_, rest.history.trans (List.append_assoc ..)⟩

def Reply.isTokens : Reply → Bool
  | .tokens .. => true
  | _ => false

theorem persisted_isTokens {reply : Reply} (none : reply.isTokens = false) :
    (persisted e t s reply).1.isTokens = false := by
  unfold persisted
  simp only
  split
  · exact none
  · rfl

theorem answerTokens_isTokens {grantId grantResource : Text} {scope : Option Text} {spent : Data}
    {facts : List Fact}
    (told : (answerTokens o e access refresh grantId clientId grantResource scope spent facts
      s).1.isTokens = true) :
    (answerTokens o e access refresh grantId clientId grantResource scope spent facts
      s).2.history = s.history ++ facts ++ [.minted (o.digest access) grantId] := by
  unfold answerTokens at told ⊢
  simp only at told ⊢
  split at told
  · rename_i saved
    rw [if_pos saved]
  · cases told

theorem exchangeCode_isTokens
    (told : (exchangeCode o e form clientId access refresh s).1.isTokens = true) :
    ∃ grantId, (exchangeCode o e form clientId access refresh s).2.history =
      s.history ++ [.exchanged (o.digest (form.text "code"))] ++
        [.minted (o.digest access) grantId] := by
  unfold exchangeCode at told ⊢
  simp only at told ⊢
  split at told
  · cases told
  rename_i record found
  split at told
  · rw [revokeAndPersist, persisted_isTokens rfl] at told
    cases told
  rename_i unused
  rw [if_neg unused]
  iterate 4
    split at told
    · cases told
    rename_i h
    rw [if_neg h]
  exact ⟨record.grantId, answerTokens_isTokens told⟩

theorem token_isTokens (grantType : form.get (js "grant_type") = some (js "authorization_code"))
    (told : (token o e form access refresh s).1.isTokens = true) :
    ∃ grantId, (token o e form access refresh s).2.history =
      s.history ++ [.exchanged (o.digest (form.text "code"))] ++
        [.minted (o.digest access) grantId] := by
  unfold token at told ⊢
  simp only [grantType] at told ⊢
  split at told
  · cases told
  rename_i supported
  rw [if_neg supported]
  split at told
  · cases told
  rename_i client found
  split at told
  · cases told
  rename_i registered
  rw [if_neg registered]
  exact exchangeCode_isTokens told

end Handlers

end Ultrathink.Source.OAuth
