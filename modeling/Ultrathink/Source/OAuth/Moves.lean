import Ultrathink.Source.OAuth.Effects

/-!
# A segment as a chain of moves

`Effects.lean` says what a segment hands out. Results on the tables themselves
need every write it makes, so `handle_moves` cuts each segment into single
writes and prunings: a segment is a chain of moves, or an approval that is then
pruned. What every `Move` and an approval keep is kept by every segment.
-/

namespace Ultrathink.Source.OAuth

open Library JsText

/-- The random ids and secrets that the segment draws are new to the tables. -/
def DrawsNew (o : Options) (s : Store) : Event → Prop
  | .register _ clientId => s.data.clients.contains clientId = false
  | .loginSettled _ _ code grantId =>
    s.data.codes.contains (o.digest code) = false ∧ s.data.grants.contains grantId = false
  | .token _ access refresh =>
    s.data.tokens.contains (o.digest access) = false ∧
      s.data.tokens.contains (o.digest refresh) = false
  | _ => True

instance (o : Options) (s : Store) : ∀ event : Event, Decidable (DrawsNew o s event)
  | .register .. => inferInstanceAs (Decidable (_ = _))
  | .loginSettled .. | .token .. => inferInstanceAs (Decidable (_ ∧ _))
  | .authorizeGet .. | .authorizePost .. | .revoke .. | .sweep => inferInstanceAs (Decidable True)

/-- A tick keeps the request's client and dates it anew; only a request that is
due expires. -/
structure Ticked (e : Env) (old new : PendingRequest) : Prop where
  client : new.clientId = old.clientId
  created : new.createdAt = old.createdAt
  deadline : new.expiresAt = old.createdAt + pendingTtlMs
  state : new.approvalState = old.approvalState ∨
    old.createdAt + pendingTtlMs ≤ e.now 0 ∨ old.expiresAt ≤ e.now 0

inductive Move (o : Options) (e : Env) (s : Store) : Store → Prop
  | prune (i : Nat) : Move o e s (prune s (e.now i)).2
  | touch (id : Text) (i : Nat) : Move o e s (touchClient s id (e.now i))
  | enroll {room : Store} {id : Text} {client : ClientRecord}
      (made : (makeRoomForClient s (e.now 0) o.maxClients).1 = some room)
      (new : s.data.clients.contains id = false) : Move o e s (setClient room id client)
  | openRequest {key : Text} {request : PendingRequest} (new : s.requests.get? key = none)
      (deadline : request.expiresAt = request.createdAt + pendingTtlMs) :
      Move o e s (setRequest { s with listed := s.listed ++ [key] } key request)
  | tick {key : Text} {old new : PendingRequest} (found : s.requests.get? key = some old)
      (ticked : Ticked e old new) : Move o e s (setRequest s key new)
  | check (approving : List Flight) (kept : ∀ flight ∈ s.approving, flight ∈ approving) :
      Move o e s { s with approving }
  | exchange {code : Text} {record : CodeRecord} {access refresh : Text}
      (found : s.data.codes.get? code = some record) (unused : record.used = false)
      (newAccess : s.data.tokens.contains access = false)
      (newRefresh : s.data.tokens.contains refresh = false) :
      Move o e s (answered e access refresh record.grantId record.clientId record.resource
        record.scope { s.data with codes := s.data.codes.set code { record with used := true } }
        [.exchanged code] s)
  | rotate {key : Text} {record : TokenRecord} {access refresh : Text} (expiresAt : ℤ)
      (found : s.data.tokens.get? key = some record) (kind : record.kind = .refresh)
      (unused : record.used = false) (newAccess : s.data.tokens.contains access = false)
      (newRefresh : s.data.tokens.contains refresh = false) :
      Move o e s (answered e access refresh record.grantId record.clientId record.resource
        record.scope { s.data with tokens := s.data.tokens.set key { record with
          used := true, expiresAt := expiresAt } } [] s)
  /-- A failed write puts the tables back; the requests that its pruning dropped stay away. -/
  | restore (i : Nat) : Move o e s (pruneRequests s (e.now i))
  | revoke (grantId : Text) : Move o e s (revokeGrant s grantId)

/-- What the handler of an approval has checked when it records the grant. -/
structure Approves (o : Options) (s : Store) (key code grantId : Text) (request : PendingRequest)
    (client : ClientRecord) : Prop where
  found : s.requests.get? key = some request
  listed : key ∈ s.listed
  known : s.data.clients.get? request.clientId = some client
  newCode : s.data.codes.contains (o.digest code) = false
  newGrant : s.data.grants.contains grantId = false

abbrev Moves (o : Options) (e : Env) : Store → Store → Prop := Relation.ReflTransGen (Move o e)

section Handlers
variable {o : Options} {e : Env}

theorem Move.one {s s' : Store} (move : Move o e s s') : Moves o e s s' := .single move

theorem Moves.prune {s m : Store} (h : Moves o e s m) (i : Nat) :
    Moves o e s (prune m (e.now i)).2 := h.tail (.prune i)

theorem makeRoomForClient_none {s s' : Store} {t : ℤ} {maxClients : Nat}
    (h : makeRoomForClient s t maxClients = (none, s')) : s' = (OAuth.prune s t).2 := by
  unfold makeRoomForClient at h
  simp only at h
  split at h
  · cases h
  · split at h
    · exact (congrArg Prod.snd h).symm
    · cases h

variable (o e)

theorem register_moves (fields : RegisterFields) (clientId : Text) (s : Store)
    (new : s.data.clients.contains clientId = false) :
    Moves o e s (register o e fields clientId s).2 := by
  unfold register
  split
  · exact .refl
  · split
    · rename_i s' full
      rw [makeRoomForClient_none full]
      exact (Move.prune 0).one
    · rename_i room _ made
      exact (Move.enroll (by rw [made]) new).one.prune 2

theorem openRequest_moves (params : Form) (client : ClientRecord) (requestId nonce : Text)
    (s : Store) (new : s.requests.get? (o.digest requestId) = none) :
    Moves o e s (openRequest o e params client requestId nonce s).2 := by
  unfold openRequest
  simp only
  split
  · exact .refl
  · exact (Move.openRequest new (by rfl)).one.prune 3

theorem authorizeGet_moves (params : Form) (requestId nonce : Text) (s : Store)
    (new : s.requests.get? (o.digest requestId) = none) :
    Moves o e s (authorizeGet o e params requestId nonce s).2 := by
  have pruned : Moves o e s (OAuth.prune s (e.now 0)).2 := (Move.prune 0).one
  have stillNew := prune_requests_none (t := e.now 0) new
  unfold authorizeGet
  simp only
  split
  · exact pruned
  · split
    · exact pruned
    · have touched := pruned.tail (.touch (params.text "client_id") 1)
      repeat' split
      all_goals first
        | exact touched
        | exact touched.trans (openRequest_moves o e _ _ _ _ _ stillNew)

theorem tickApproval_moves (key : Text) (request : PendingRequest) (s : Store)
    (found : s.requests.get? key = some request) :
    Moves o e s (tickApproval e (e.now 0) key request s).2 := by
  unfold tickApproval
  split
  · exact .refl
  · simp only
    split
    · rename_i due
      exact Move.one (.tick found ⟨rfl, rfl, rfl, Or.inr due⟩)
    · split
      · exact Move.one (.tick found ⟨rfl, rfl, rfl, Or.inl rfl⟩)
      · exact Move.one (.tick found ⟨rfl, rfl, rfl, Or.inl rfl⟩)

theorem beginApproval_moves (allowAttempt : Bool) (requestId key : Text)
    (request : PendingRequest) (s : Store) :
    Moves o e s (beginApproval allowAttempt requestId key request s).2 := by
  unfold beginApproval
  simp only
  split
  · exact .refl
  · split
    · exact .refl
    · exact (Move.check _ fun _ held => List.mem_append_left _ held).one

theorem pollReply_moves (key : Text) (s : Store) : Moves o e s (pollReply e key s).2 := by
  have pruned : Moves o e s (OAuth.prune s (e.now 1)).2 := (Move.prune 1).one
  unfold pollReply
  simp only
  repeat' split
  all_goals exact pruned

theorem authorizePost_moves (form : Form) (allowAttempt : Bool) (s : Store) :
    Moves o e s (authorizePost o e form allowAttempt s).2 := by
  unfold authorizePost
  simp only
  split
  · exact .refl
  · rename_i key request found
    have ticked := tickApproval_moves o e key request s (findPending_found o e found)
    split
    · rename_i s' tick
      rw [tick] at ticked
      exact ticked
    · rename_i s' tick
      rw [tick] at ticked
      split
      · exact ticked.trans (pollReply_moves o e key s')
      · split
        · exact (ticked.prune 1).trans (beginApproval_moves o e _ _ _ _ _)
        · exact ticked.prune 1
    · rename_i s' state tick
      rw [tick] at ticked
      exact ticked.prune 1

theorem settleLogin_cases (flight : Flight) (outcome : LoginOutcome) (code grantId : Text)
    (s : Store) (newCode : s.data.codes.contains (o.digest code) = false)
    (newGrant : s.data.grants.contains grantId = false) :
    (settleLogin o e flight outcome code grantId s).2 = s ∨
      ∃ request client, Approves o s flight.key code grantId request client ∧
        (settleLogin o e flight outcome code grantId s).2 =
          (OAuth.prune (recordApproval o (e.now 0) flight.key request client code grantId s)
            (e.now 1)).2 := by
  unfold settleLogin
  split
  · exact Or.inl rfl
  · rename_i request found
    split
    · exact Or.inl rfl
    · split <;> exact Or.inl rfl
    · split
      · exact Or.inl rfl
      · rename_i client known
        split
        · exact Or.inl rfl
        · rename_i standing
          obtain ⟨-, listed⟩ := not_or.mp standing
          exact Or.inr ⟨request, client, ⟨found, not_not.mp listed, known, newCode, newGrant⟩, rfl⟩

theorem revokeAndPersist_moves (i : Nat) (grantId : Text) (reply : Reply) (s : Store) :
    Moves o e s (revokeAndPersist e (e.now i) grantId reply s).2 := (Move.revoke grantId).one.prune i

/-- Either the tokens stand and are pruned with the rest, or the tables are put back. -/
theorem answerTokens_moves {access refresh grantId clientId grantResource : Text}
    {scope : Option Text} {spent : Data} {facts : List Fact} {s : Store}
    (whole : Move o e s (answered e (o.digest access) (o.digest refresh) grantId clientId
      grantResource scope spent facts s)) :
    Moves o e s (answerTokens o e access refresh grantId clientId grantResource scope spent facts
      s).2 := by
  unfold answerTokens persist
  simp only
  split
  · exact whole.one.prune 4
  · exact (Move.restore 4).one

theorem exchangeCode_moves (form : Form) (clientId access refresh : Text) (s : Store)
    (newAccess : s.data.tokens.contains (o.digest access) = false)
    (newRefresh : s.data.tokens.contains (o.digest refresh) = false) :
    Moves o e s (exchangeCode o e form clientId access refresh s).2 := by
  unfold exchangeCode
  simp only
  split
  · exact .refl
  · rename_i record found
    split
    · exact revokeAndPersist_moves o e 1 _ _ s
    · rename_i unused
      iterate 4
        split
        · exact .refl
      exact answerTokens_moves o e (.exchange found (by simpa using unused) newAccess newRefresh)

theorem refreshGrant_moves (form : Form) (clientId access refresh : Text) (s : Store)
    (newAccess : s.data.tokens.contains (o.digest access) = false)
    (newRefresh : s.data.tokens.contains (o.digest refresh) = false) :
    Moves o e s (refreshGrant o e form clientId access refresh s).2 := by
  unfold refreshGrant
  simp only
  split
  · exact .refl
  · rename_i record found
    split
    · exact .refl
    · rename_i kind
      split
      · exact .refl
      split
      · exact revokeAndPersist_moves o e 1 _ _ s
      rename_i unused
      iterate 3
        split
        · exact .refl
      exact answerTokens_moves o e (.rotate _ found (not_not.mp kind) (by simpa using unused)
        newAccess newRefresh)

theorem token_moves (form : Form) (access refresh : Text) (s : Store)
    (newAccess : s.data.tokens.contains (o.digest access) = false)
    (newRefresh : s.data.tokens.contains (o.digest refresh) = false) :
    Moves o e s (token o e form access refresh s).2 := by
  unfold token
  simp only
  split
  · exact .refl
  · split
    · exact .refl
    · have touched : Moves o e s (touchClient s (form.text "client_id") (e.now 0)) :=
        (Move.touch _ 0).one
      split
      · exact touched
      · split
        · exact touched.trans (exchangeCode_moves o e form _ access refresh _ newAccess newRefresh)
        · exact touched.trans (refreshGrant_moves o e form _ access refresh _ newAccess newRefresh)

theorem revoke_moves (form : Form) (s : Store) : Moves o e s (revoke o e form s).2 := by
  unfold revoke
  simp only
  split
  · exact .refl
  · split
    · exact .refl
    · split
      · exact revokeAndPersist_moves o e 0 _ _ s
      · exact .refl

/-- Every segment is a chain of moves or an approval, after which a settled check
is dropped. -/
theorem handle_moves (event : Event) (s : Store) (allowed : Allowed o s event)
    (new : DrawsNew o s event) :
    ∃ m, (handle o e event s).2 = { m with approving := (handle o e event s).2.approving } ∧
      (Moves o e s m ∨ ∃ key code grantId request client,
        Approves o s key code grantId request client ∧
          m = (OAuth.prune (recordApproval o (e.now 0) key request client code grantId s)
            (e.now 1)).2) := by
  cases event with
  | register fields clientId => exact ⟨_, rfl, Or.inl (register_moves o e fields clientId s new)⟩
  | authorizeGet params requestId nonce =>
    exact ⟨_, rfl, Or.inl (authorizeGet_moves o e params requestId nonce s allowed.1)⟩
  | authorizePost form allowAttempt =>
    exact ⟨_, rfl, Or.inl (authorizePost_moves o e form allowAttempt s)⟩
  | loginSettled flight outcome code grantId =>
    refine ⟨(settleLogin o e flight outcome code grantId s).2, rfl, ?_⟩
    rcases settleLogin_cases o e flight outcome code grantId s new.1 new.2 with
      same | ⟨request, client, approves, after⟩
    · rw [same]
      exact Or.inl .refl
    · exact Or.inr ⟨_, _, _, request, client, approves, after⟩
  | token form access refresh =>
    exact ⟨_, rfl, Or.inl (token_moves o e form access refresh s new.1 new.2)⟩
  | revoke form => exact ⟨_, rfl, Or.inl (revoke_moves o e form s)⟩
  | sweep => exact ⟨_, rfl, Or.inl (Move.prune 0).one⟩

end Handlers

end Ultrathink.Source.OAuth
