import Ultrathink.Guarantees.TokenProvenance
import Ultrathink.Source.OAuth.Links

/-!
# Integrity of the authorization store

In every state of the service, from any state file it can find, codes and tokens name grants on
record and grants clients on record, and the client table fits. An approval whose request expires
during the password check protects its client no longer.
-/

namespace Ultrathink.Guarantees.StoreIntegrity

open List Library JsText Runs Source.OAuth

/-- What `flush` writes beside the tables: the requests of the `pending` map. -/
def savedPending (s : Store) : OrderedMap Text PendingRequest :=
  s.requests.filter fun key _ => key ∈ s.listed

/-- The contents a process can find in the state file: none (no file, or one that
does not parse and is moved aside), or what an earlier process saved. -/
inductive Written (o : Options) : Data → OrderedMap Text PendingRequest → Prop
  | missing : Written o ⟨.empty, .empty, .empty, .empty⟩ .empty
  | saved {e : Env} {stored : Data} {storedPending : OrderedMap Text PendingRequest} {s : Store}
      {steps : List (Step Store Label)} (earlier : Written o stored storedPending)
      (run : (service o).Run (createOAuth e stored storedPending) steps s)
      (new : ∀ x ∈ steps, DrawsNew o x.before x.label.event) : Written o s.data (savedPending s)

variable {o : Options} {client : ClientRecord} {request : PendingRequest}

theorem backfill_client (grants : List GrantRecord) (clients : OrderedMap Text ClientRecord)
    (id : Text) (found : clients.get? id = some client) :
    ∃ dated, (grants.foldl (fun clients grant => clients.modify grant.clientId fun client =>
        { client with grantedAt := some (client.grantedAt.getD grant.createdAt) }) clients).get? id =
          some dated ∧ (client.grantedAt ≠ none → dated.grantedAt ≠ none) := by
  induction grants generalizing clients client with
  | nil => exact ⟨client, found, fun granted => granted⟩
  | cons grant rest ih =>
    rw [foldl_cons]
    by_cases same : id = grant.clientId
    · have modified : (clients.modify grant.clientId fun client =>
          { client with grantedAt := some (client.grantedAt.getD grant.createdAt) }).get? id =
            some { client with grantedAt := some (client.grantedAt.getD grant.createdAt) } := by
        rw [OrderedMap.get?_modify, if_pos same, ← same, found, Option.map_some]
      obtain ⟨dated, foundDated, kept⟩ := ih _ modified
      exact ⟨dated, foundDated, fun _ => kept (by simp)⟩
    · obtain ⟨dated, foundDated, kept⟩ := ih (clients.modify grant.clientId fun client =>
        { client with grantedAt := some (client.grantedAt.getD grant.createdAt) })
        (by rw [OrderedMap.get?_modify, if_neg same, found])
      exact ⟨dated, foundDated, kept⟩

theorem backfill_size (grants : List GrantRecord) (clients : OrderedMap Text ClientRecord) :
    (grants.foldl (fun clients grant => clients.modify grant.clientId fun client =>
      { client with grantedAt := some (client.grantedAt.getD grant.createdAt) }) clients).size =
        clients.size := by
  induction grants generalizing clients with
  | nil => rfl
  | cons grant rest ih =>
    rw [foldl_cons, ih]
    exact size_modify _

variable {stored : Data} {s room n : Store} {other : Text}

theorem sound_createOAuth (e : Env) (storedPending : OrderedMap Text PendingRequest)
    (linked : Linked stored) (room : stored.clients.size ≤ o.maxClients) :
    Sound o (createOAuth e stored storedPending) := by
  refine ⟨⟨linked.codes, linked.tokens, fun id grant held => ?_⟩, ?_, fun key request found => ?_⟩
  · obtain ⟨client, found, granted⟩ := linked.grants id grant held
    obtain ⟨dated, foundDated, kept⟩ :=
      backfill_client stored.grants.values stored.clients grant.clientId found
    exact ⟨dated, foundDated, kept granted⟩
  · exact (backfill_size stored.grants.values stored.clients).trans_le room
  · obtain ⟨-, trusted⟩ := (get?_filter_iff _).mp found
    simp only [trustedPending, Bool.and_eq_true, decide_eq_true_eq] at trusted
    exact trusted.1.2

theorem sound_run {t : Store} {steps : List (Step Store Label)} (sound : Sound o s)
    (run : (service o).Run s steps t) (new : ∀ x ∈ steps, DrawsNew o x.before x.label.event) :
    Sound o t := by
  refine run.invariant_of (Sound o) (fun x => DrawsNew o x.before x.label.event) sound ?_ new
  rintro m label n ⟨allowed, rfl⟩ new sound
  exact sound.handle label.event allowed new

theorem sound_written {storedPending : OrderedMap Text PendingRequest}
    (written : Written o stored storedPending) (e : Env) :
    Sound o (createOAuth e stored storedPending) := by
  suffices tables : Linked stored ∧ stored.clients.size ≤ o.maxClients from
    sound_createOAuth e storedPending tables.1 tables.2
  induction written with
  | missing =>
    exact ⟨⟨by simp, by simp, by simp⟩, Nat.zero_le _⟩
  | @saved e' stored' pending' s steps _ run new ih =>
    have sound := sound_run (sound_createOAuth e' pending' ih.1 ih.2) run new
    exact ⟨sound.linked, sound.room⟩

/-- The clock moves by at most a day within the segment. -/
def Brief (e : Env) : Prop := ∀ i j, e.now j - e.now i ≤ grantIdleMs

/-- At every clock reading of the segment the grant has a code or a token that has
not expired, or was used within a day. -/
def LiveGrant (e : Env) (data : Data) (id : Text) (grant : GrantRecord) : Prop :=
  (∃ key record, data.codes.get? key = some record ∧ record.grantId = id ∧
      ∀ i, e.now i < record.expiresAt) ∨
    (∃ key record, data.tokens.get? key = some record ∧ record.grantId = id ∧
      ∀ i, e.now i < record.expiresAt) ∨
    ∀ i, e.now i - grant.lastUsedAt.getD grant.createdAt ≤ grantIdleMs

/-- The client is on record with a live grant. -/
def HoldsGrant (e : Env) (s : Store) (clientId id : Text) : Prop :=
  ∃ grant client, s.data.grants.get? id = some grant ∧ grant.clientId = clientId ∧
    s.data.clients.get? clientId = some client ∧ client.grantedAt ≠ none ∧
    LiveGrant e s.data id grant

section Grants
variable {o : Options} {e : Env} {s s' : Store} {clientId id : Text}

theorem HoldsGrant.present (h : HoldsGrant e s clientId id) : s.data.clients.contains clientId := by
  obtain ⟨_, client, -, -, known, -⟩ := h
  exact contains_of_get? known

/-- The tables of codes, tokens and grants are those of `s`, and the client stays granted. -/
theorem HoldsGrant.of_same (h : HoldsGrant e s clientId id) (grants : s'.data.grants = s.data.grants)
    (codes : s'.data.codes = s.data.codes) (tokens : s'.data.tokens = s.data.tokens)
    (clients : ∀ client, s.data.clients.get? clientId = some client → client.grantedAt ≠ none →
      ∃ client', s'.data.clients.get? clientId = some client' ∧ client'.grantedAt ≠ none) :
    HoldsGrant e s' clientId id := by
  obtain ⟨grant, client, found, owner, known, granted, live⟩ := h
  obtain ⟨client', known', granted'⟩ := clients client known granted
  refine ⟨grant, client', grants ▸ found, owner, known', granted', ?_⟩
  unfold LiveGrant
  rwa [codes, tokens]

theorem HoldsGrant.prune (h : HoldsGrant e s clientId id) (i : Nat) :
    HoldsGrant e (prune s (e.now i)).2 clientId id := by
  obtain ⟨grant, client, found, rfl, known, granted, live⟩ := h
  have foundPruned : (prunedData s.data (e.now i)).grants.get? id = some grant := by
    refine get?_filter_of _ found ?_
    rcases live with ⟨key, record, held, rfl, fresh⟩ | ⟨key, record, held, rfl, fresh⟩ | used
    · have kept : (pruneTokens (pruneCodes s.data (e.now i)) (e.now i)).codes.get? key =
          some record := get?_filter_of _ held (decide_eq_true (fresh i))
      rw [grantLive_of_code kept, Bool.true_or]
    · have kept : (pruneTokens (pruneCodes s.data (e.now i)) (e.now i)).tokens.get? key =
          some record := get?_filter_of _ held (decide_eq_true (fresh i))
      rw [grantLive_of_token kept, Bool.true_or]
    · rw [decide_eq_true (used i), Bool.or_true]
  refine ⟨grant, client, foundPruned, rfl, get?_filter_of _ known ?_, granted, ?_⟩
  · obtain ⟨grantedAt, dated⟩ := Option.ne_none_iff_exists'.mp granted
    have named : (prunedData s.data (e.now i)).grants.values.any
        (fun g => g.clientId = grant.clientId) = true :=
      any_eq_true.mpr ⟨grant, mem_values_of_get? foundPruned, by simp⟩
    change (!clientRemovable { pruneRequests s (e.now i) with
      data := prunedData s.data (e.now i) } (e.now i) grant.clientId client) = true
    unfold clientRemovable
    rw [dated]
    split <;> rfl
  · rcases live with ⟨key, record, held, owned, fresh⟩ | ⟨key, record, held, owned, fresh⟩ | used
    · exact Or.inl ⟨key, record, get?_filter_of _ held (decide_eq_true (fresh i)), owned, fresh⟩
    · exact Or.inr (Or.inl
        ⟨key, record, get?_filter_of _ held (decide_eq_true (fresh i)), owned, fresh⟩)
    · exact Or.inr (Or.inr used)

theorem HoldsGrant.enroll (h : HoldsGrant e s clientId id)
    (made : (makeRoomForClient s (e.now 0) o.maxClients).1 = some room)
    (new : s.data.clients.contains other = false) :
    HoldsGrant e (setClient room other client) clientId id := by
  have inRoom : HoldsGrant e room clientId id := by
    have pruned := h.prune 0
    rcases makeRoomForClient_cases made with ⟨rfl, -⟩ | ⟨victim, gone, found, ungranted, -, rfl⟩
    · exact pruned
    · refine pruned.of_same rfl rfl rfl fun kept known granted => ?_
      have spared : clientId ≠ victim := by
        rintro rfl
        rw [found] at known
        cases known
        exact granted ungranted
      exact ⟨kept, by rw [OrderedMap.get?_erase, if_neg spared]; exact known, granted⟩
  refine inRoom.of_same rfl rfl rfl fun kept known granted => ?_
  have spared : clientId ≠ other := ne_of_not_contains (makeRoomForClient_new new made) known
  exact ⟨kept, (OrderedMap.get?_set_of_ne _ _ spared).trans known, granted⟩

theorem HoldsGrant.answered (h : HoldsGrant e s clientId id) (brief : Brief e)
    {access refresh grantId grantClient grantResource : Text} {scope : Option Text} {spent : Data}
    {facts : List Fact} (grants : spent.grants = s.data.grants)
    (clients : spent.clients = s.data.clients)
    (codes : ∀ key record, s.data.codes.get? key = some record → record.grantId ≠ grantId →
      spent.codes.get? key = some record)
    (tokens : ∀ key record, s.data.tokens.get? key = some record → record.grantId ≠ grantId →
      spent.tokens.get? key = some record)
    (newAccess : s.data.tokens.contains access = false)
    (newRefresh : s.data.tokens.contains refresh = false) :
    HoldsGrant e (answered e access refresh grantId grantClient grantResource scope spent facts s)
      clientId id := by
  obtain ⟨grant, client, found, owner, known, granted, live⟩ := h
  have kept : spent.grants.get? id = some grant := grants ▸ found
  have known' : spent.clients.get? clientId = some client := clients ▸ known
  by_cases same : id = grantId
  · refine ⟨{ grant with lastUsedAt := some (e.now 3) }, client, ?_, owner, known', granted,
      Or.inr (Or.inr fun i => brief 3 i)⟩
    simp only [Source.OAuth.answered, issueTokens, OrderedMap.get?_modify, if_pos same]
    rw [← same, kept, Option.map_some]
  · refine ⟨grant, client, ?_, owner, known', granted, ?_⟩
    · simp only [Source.OAuth.answered, issueTokens, OrderedMap.get?_modify, if_neg same]
      exact kept
    · rcases live with ⟨key, record, held, rfl, fresh⟩ | ⟨key, record, held, rfl, fresh⟩ | used
      · exact Or.inl ⟨key, record, codes key record held same, rfl, fresh⟩
      · refine Or.inr (Or.inl ⟨key, record, ?_, rfl, fresh⟩)
        simp only [Source.OAuth.answered, issueTokens]
        rw [OrderedMap.get?_set_of_ne _ _ (ne_of_not_contains newRefresh held),
          OrderedMap.get?_set_of_ne _ _ (ne_of_not_contains newAccess held)]
        exact tokens key record held same
      · exact Or.inr (Or.inr used)

/-- Every move keeps a live grant and its client, the grant's own revocation apart. -/
theorem HoldsGrant.move (h : HoldsGrant e s clientId id) (brief : Brief e) (move : Move o e s s')
    (stands : .revoked id ∉ s'.history) : HoldsGrant e s' clientId id := by
  cases move with
  | prune i => exact h.prune i
  | touch other i =>
    refine h.of_same rfl rfl rfl fun client known granted => ?_
    simp only [touchClient, OrderedMap.get?_modify]
    split
    · rename_i same
      rw [← same, known]
      exact ⟨_, rfl, granted⟩
    · exact ⟨client, known, granted⟩
  | enroll made new => exact h.enroll made new
  | openRequest new deadline => exact h.of_same rfl rfl rfl fun client known granted => ⟨client, known, granted⟩
  | tick found ticked => exact h.of_same rfl rfl rfl fun client known granted => ⟨client, known, granted⟩
  | check approving kept => exact h.of_same rfl rfl rfl fun client known granted => ⟨client, known, granted⟩
  | @exchange code record access refresh found unused newAccess newRefresh =>
    refine h.answered brief rfl rfl (fun key other held owned => ?_) (fun _ _ held _ => held)
      newAccess newRefresh
    have apart : key ≠ code := by
      rintro rfl
      rw [found] at held
      cases held
      exact owned rfl
    exact (OrderedMap.get?_set_of_ne _ _ apart).trans held
  | @rotate spentKey record access refresh expiresAt found kind unused newAccess newRefresh =>
    refine h.answered brief rfl rfl (fun _ _ held _ => held) (fun key other held owned => ?_)
      newAccess newRefresh
    have apart : key ≠ spentKey := by
      rintro rfl
      rw [found] at held
      cases held
      exact owned rfl
    exact (OrderedMap.get?_set_of_ne _ _ apart).trans held
  | restore i => exact h.of_same rfl rfl rfl fun client known granted => ⟨client, known, granted⟩
  | revoke grantId =>
    have other : id ≠ grantId := by
      rintro rfl
      exact stands (by simp [revokeGrant, Store.note])
    obtain ⟨grant, client, found, owner, known, granted, live⟩ := h
    refine ⟨grant, client, ?_, owner, known, granted, ?_⟩
    · exact (OrderedMap.get?_erase ..).trans (by rw [if_neg other, found])
    · rcases live with ⟨key, record, held, rfl, fresh⟩ | ⟨key, record, held, rfl, fresh⟩ | used
      · exact Or.inl ⟨key, record, get?_filter_of _ held (decide_eq_true other), rfl, fresh⟩
      · exact Or.inr (Or.inl ⟨key, record, get?_filter_of _ held (decide_eq_true other), rfl, fresh⟩)
      · exact Or.inr (Or.inr used)

theorem history_move (move : Move o e s s') : ∀ fact ∈ s.history, fact ∈ s'.history := by
  intro fact told
  cases move with
  | enroll made new =>
    rcases makeRoomForClient_cases made with ⟨rfl, -⟩ | ⟨_, _, -, -, -, rfl⟩
    · exact told
    · exact told
  | exchange => simp [Source.OAuth.answered, told]
  | rotate => simp [Source.OAuth.answered, told]
  | revoke grantId => simp [revokeGrant, Store.note, told]
  | _ => exact told

theorem HoldsGrant.moves (h : HoldsGrant e s clientId id) (brief : Brief e) (moves : Moves o e s n)
    (stands : .revoked id ∉ n.history) : HoldsGrant e n clientId id := by
  induction moves with
  | refl => exact h
  | tail _ move ih =>
    exact (ih fun told => stands (history_move move _ told)).move brief move stands

end Grants

/-- The password is being checked for a pending request of a client on record, and
the request does not expire within the segment. -/
def UnderCheck (e : Env) (s : Store) (clientId key : Text) : Prop :=
  s.data.clients.contains clientId ∧ (∃ flight ∈ s.approving, flight.key = key) ∧
    ∃ request, s.pending key = some request ∧ request.clientId = clientId ∧
      request.approvalState ≠ .expired ∧ ∀ i, e.now i < request.expiresAt

section Checks
variable {o : Options} {e : Env} {s s' : Store} {clientId key : Text}

theorem pending_some :
    s.pending key = some request ↔ key ∈ s.listed ∧ s.requests.get? key = some request := by
  unfold Store.pending
  split
  · rename_i listed
    simp [listed]
  · rename_i unlisted
    simp [unlisted]

theorem UnderCheck.of_same (h : UnderCheck e s clientId key)
    (clients : s.data.clients.contains clientId → s'.data.clients.contains clientId)
    (approving : s'.approving = s.approving) (requests : s'.requests = s.requests)
    (listed : s'.listed = s.listed) : UnderCheck e s' clientId key := by
  obtain ⟨known, check, request, standing, rest⟩ := h
  refine ⟨clients known, approving ▸ check, request, ?_, rest⟩
  rwa [pending_some, requests, listed, ← pending_some]

theorem pending_pruneRequests {t : ℤ} (standing : s.pending key = some request)
    (undecided : request.approvalState ≠ .expired) (fresh : t < request.expiresAt) :
    (pruneRequests s t).pending key = some request := by
  obtain ⟨listed, found⟩ := pending_some.mp standing
  have alive : requestDead request t = false := by
    simp [requestDead, undecided, fresh]
  refine pending_some.mpr ⟨mem_filter.mpr ⟨listed, ?_⟩, ?_⟩
  · simp [keyDead, found, alive]
  · simp [pruneRequests, OrderedMap.get?_mapValues, found, alive]

theorem UnderCheck.prune (h : UnderCheck e s clientId key) (i : Nat) :
    UnderCheck e (prune s (e.now i)).2 clientId key := by
  obtain ⟨known, check, request, standing, owner, undecided, fresh⟩ := h
  have stays := pending_pruneRequests standing undecided (fresh i)
  refine ⟨?_, check, request, stays, owner, undecided, fresh⟩
  obtain ⟨client, found⟩ := get?_of_contains known
  obtain ⟨listed, foundRequest⟩ := pending_some.mp stays
  have named : ((pruneRequests s (e.now i)).listed.any fun other =>
      ((pruneRequests s (e.now i)).requests.get? other).any
        fun request => request.clientId = clientId) = true :=
    any_eq_true.mpr ⟨key, listed, by rw [foundRequest]; simpa using owner⟩
  refine contains_of_get? (get?_filter_of _ found ?_)
  change (!clientRemovable { pruneRequests s (e.now i) with
    data := prunedData s.data (e.now i) } (e.now i) clientId client) = true
  unfold clientRemovable
  rw [if_pos named]
  rfl

theorem mem_approvingClients (check : ∃ flight ∈ s.approving, flight.key = key)
    (standing : s.pending key = some request) : request.clientId ∈ approvingClients s := by
  obtain ⟨flight, held, rfl⟩ := check
  exact mem_filterMap.mpr ⟨flight, held, by rw [standing, Option.map_some]⟩

theorem UnderCheck.enroll (h : UnderCheck e s clientId key)
    (made : (makeRoomForClient s (e.now 0) o.maxClients).1 = some room) :
    UnderCheck e (setClient room other client) clientId key := by
  have inRoom : UnderCheck e room clientId key := by
    have pruned := h.prune 0
    rcases makeRoomForClient_cases made with ⟨rfl, -⟩ | ⟨victim, gone, -, -, free, rfl⟩
    · exact pruned
    · obtain ⟨known, check, request, standing, owner, rest⟩ := pruned
      have spared : clientId ≠ victim := by
        rintro rfl
        exact free (owner ▸ mem_approvingClients check standing)
      obtain ⟨listed, found⟩ := pending_some.mp standing
      refine ⟨?_, check, request, pending_some.mpr ⟨mem_filter.mpr ⟨listed, ?_⟩, found⟩, owner,
        rest⟩
      · unfold OrderedMap.contains at known ⊢
        rwa [OrderedMap.get?_erase, if_neg spared]
      · simpa [found, owner] using spared
  exact inRoom.of_same contains_set_of rfl rfl rfl

theorem UnderCheck.move (h : UnderCheck e s clientId key) (deadlines : Deadlines s)
    (move : Move o e s s') : UnderCheck e s' clientId key := by
  cases move with
  | prune i => exact h.prune i
  | touch other i =>
    refine h.of_same (fun known => ?_) rfl rfl rfl
    simp only [touchClient, OrderedMap.contains, OrderedMap.get?_modify] at known ⊢
    split
    · rename_i same
      rwa [Option.isSome_map, ← same]
    · exact known
  | enroll made new => exact h.enroll made
  | openRequest new deadline =>
    obtain ⟨known, check, request, standing, rest⟩ := h
    obtain ⟨listed, found⟩ := pending_some.mp standing
    refine ⟨known, check, request, pending_some.mpr ⟨mem_append_left _ listed, ?_⟩, rest⟩
    refine (OrderedMap.get?_set_of_ne _ _ ?_).trans found
    rintro rfl
    rw [new] at found
    cases found
  | @tick ticking old request' found ticked =>
    obtain ⟨known, check, request, standing, owner, undecided, fresh⟩ := h
    obtain ⟨listed, foundRequest⟩ := pending_some.mp standing
    by_cases same : key = ticking
    · subst same
      obtain rfl : old = request := Option.some.inj (found.symm.trans foundRequest)
      have dated := deadlines key old found
      have undue := fresh 0
      refine ⟨known, check, request', pending_some.mpr ⟨listed, OrderedMap.get?_set_self _ _ _⟩,
        ticked.client.trans owner, ?_, fun i => ?_⟩
      · rcases ticked.state with kept | due | due
        · rwa [kept]
        · omega
        · omega
      · rw [ticked.deadline, ← dated]
        exact fresh i
    · exact ⟨known, check, request, pending_some.mpr ⟨listed,
        (OrderedMap.get?_set_of_ne _ _ same).trans foundRequest⟩, owner, undecided, fresh⟩
  | check approving kept =>
    obtain ⟨known, ⟨flight, held, same⟩, rest⟩ := h
    exact ⟨known, ⟨flight, kept flight held, same⟩, rest⟩
  | exchange => exact h.of_same id rfl rfl rfl
  | rotate => exact h.of_same id rfl rfl rfl
  | restore i =>
    obtain ⟨known, check, request, standing, owner, undecided, fresh⟩ := h
    exact ⟨known, check, request, pending_pruneRequests standing undecided (fresh i), owner,
      undecided, fresh⟩
  | revoke grantId => exact h.of_same id rfl rfl rfl

theorem UnderCheck.moves (h : UnderCheck e s clientId key) (sound : Sound o s)
    (moves : Moves o e s n) : UnderCheck e n clientId key := by
  induction moves with
  | refl => exact h
  | tail before move ih => exact ih.move (sound.moves before).deadlines move

variable {code grantId approved : Text} {request : PendingRequest} {client : ClientRecord}

theorem HoldsGrant.approval {id : Text} (h : HoldsGrant e s clientId id)
    (approves : Approves o s approved code grantId request client) (t : ℤ) :
    HoldsGrant e (recordApproval o t approved request client code grantId s) clientId id := by
  obtain ⟨grant, old, found, owner, known, granted, live⟩ := h
  have foundAfter : (s.data.grants.set grantId
      ⟨request.clientId, request.resource, t, some t⟩).get? id = some grant :=
    (OrderedMap.get?_set_of_ne _ _ (ne_of_not_contains approves.newGrant found)).trans found
  have knownAfter : ∃ client', (recordApproval o t approved request client code grantId
      s).data.clients.get? clientId = some client' ∧ client'.grantedAt ≠ none := by
    change ∃ client', (s.data.clients.set request.clientId _).get? clientId = some client' ∧ _
    by_cases same : clientId = request.clientId
    · exact ⟨_, by rw [OrderedMap.get?_set, if_pos same], by simp⟩
    · exact ⟨old, by rw [OrderedMap.get?_set_of_ne _ _ same, known], granted⟩
  obtain ⟨client', known', granted'⟩ := knownAfter
  refine ⟨grant, client', foundAfter, owner, known', granted', ?_⟩
  rcases live with ⟨key, record, held, owned, fresh⟩ | tokens | used
  · exact Or.inl ⟨key, record, (OrderedMap.get?_set_of_ne _ _
      (ne_of_not_contains approves.newCode held)).trans held, owned, fresh⟩
  · exact Or.inr (Or.inl tokens)
  · exact Or.inr (Or.inr used)

theorem holdsGrant_recordApproval (brief : Brief e) :
    HoldsGrant e (recordApproval o (e.now 0) approved request client code grantId s)
      request.clientId grantId :=
  ⟨_, _, OrderedMap.get?_set_self _ _ _, rfl, OrderedMap.get?_set_self _ _ _, by simp,
    Or.inr (Or.inr fun i => brief 0 i)⟩

theorem UnderCheck.approval (h : UnderCheck e s clientId key)
    (approves : Approves o s approved code grantId request client) (brief : Brief e) :
    (Source.OAuth.prune (recordApproval o (e.now 0) approved request client code grantId s)
      (e.now 1)).2.data.clients.contains clientId := by
  obtain ⟨known, check, standingRequest, standing, owner, undecided, fresh⟩ := h
  obtain ⟨listed, found⟩ := pending_some.mp standing
  by_cases same : key = approved
  · obtain rfl : standingRequest = request := by
      rw [same] at found
      exact Option.some.inj (found.symm.trans approves.found)
    rw [← owner]
    exact ((holdsGrant_recordApproval brief).prune 1).present
  · have kept : UnderCheck e (recordApproval o (e.now 0) approved request client code grantId s)
        clientId key := by
      refine ⟨contains_set_of known, check, standingRequest, pending_some.mpr ⟨?_, ?_⟩, owner,
        undecided, fresh⟩
      · exact mem_filter.mpr ⟨listed, by simpa using same⟩
      · exact (OrderedMap.get?_set_of_ne _ _ same).trans found
    exact (kept.prune 1).1

end Checks

/-- A segment keeps the client of a live grant that it does not revoke and the
client of an approval under way whose request stands. -/
theorem handle_keeps_client {e : Env} {event : Event} (sound : Sound o s)
    (allowed : Allowed o s event) (new : DrawsNew o s event) (brief : Brief e) {clientId : Text}
    (needed : (∃ id, HoldsGrant e s clientId id ∧ .revoked id ∉ (handle o e event s).2.history) ∨
      ∃ key, UnderCheck e s clientId key) :
    (handle o e event s).2.data.clients.contains clientId := by
  obtain ⟨m, after, how⟩ := handle_moves o e event s allowed new
  have history : (handle o e event s).2.history = m.history := by rw [after]
  have data : (handle o e event s).2.data = m.data := by rw [after]
  rw [history] at needed
  rw [data]
  rcases how with moves | ⟨key, code, grantId, request, client, approves, rfl⟩
  · rcases needed with ⟨id, holds, stands⟩ | ⟨key, check⟩
    · exact (holds.moves brief moves stands).present
    · exact (check.moves sound moves).1
  · rcases needed with ⟨id, holds, -⟩ | ⟨key, check⟩
    · exact ((holds.approval approves (e.now 0)).prune 1).present
    · exact check.approval approves brief

/-- Referential integrity of the store in every state of every run, from any state
file; and no step takes a client that has a live grant or an approval under way
whose request stands. -/
theorem store_integrity (o : Options) {stored : Data} {storedPending : OrderedMap Text PendingRequest}
    (written : Written o stored storedPending) {e : Env} {s : Store}
    {steps : List (Step Store Label)}
    (run : (service o).Run (createOAuth e stored storedPending) steps s)
    (new : ∀ x ∈ steps, DrawsNew o x.before x.label.event) :
    (Linked s.data ∧ s.data.clients.size ≤ o.maxClients) ∧
      ∀ x ∈ steps, Brief x.label.env →
        (∀ id grant, x.before.data.grants.get? id = some grant →
          LiveGrant x.label.env x.before.data id grant → .revoked id ∉ x.after.history →
          x.after.data.clients.contains grant.clientId) ∧
        ∀ clientId key, UnderCheck x.label.env x.before clientId key →
          x.after.data.clients.contains clientId := by
  have start := sound_written written e
  have final := sound_run start run new
  refine ⟨⟨final.linked, final.room⟩, ?_⟩
  refine run.steps_of (Sound o) (fun x => DrawsNew o x.before x.label.event) _ start ?_ ?_ new
  · rintro m label n ⟨allowed, rfl⟩ new sound
    exact sound.handle label.event allowed new
  · rintro m label n ⟨allowed, rfl⟩ new sound brief
    refine ⟨fun id grant found live stands => ?_, fun clientId key check => ?_⟩
    · obtain ⟨client, known, granted⟩ := sound.linked.grants id grant found
      exact handle_keeps_client sound allowed new brief
        (Or.inl ⟨id, ⟨grant, client, found, rfl, known, granted, live⟩, stands⟩)
    · exact handle_keeps_client sound allowed new brief (Or.inr ⟨key, check⟩)

open TokenProvenance (flowOptions flowEnv flowStart flowStep flowLabels flow_run flowCallback
  flowChallenge)

theorem flow_new : ∀ x ∈ traceOf flowStep flowStart flowLabels,
    DrawsNew flowOptions x.before x.label.event := by decide

theorem store_integrity_flow : Linked (runInputs flowStep flowStart flowLabels).data ∧
    (runInputs flowStep flowStart flowLabels).data.clients.size ≤ 200 :=
  (store_integrity flowOptions .missing (e := flowEnv) flow_run flow_new).1

/-- The environment of the flow at another time. -/
def flowAt (t : ℤ) : Env := { flowEnv with now := fun _ => t }

/-- A client registers, opens a request five minutes before its day is over, and the
password is entered a millisecond before the request expires; then a sweep runs. -/
def lapseLabels : List Label :=
  let day := ungrantedClientTtlMs
  let opened := day - 5 * 60 * 1000
  [⟨flowAt 0, .register ⟨[flowCallback], [js "authorization_code"], js "Claude"⟩ (js "c")⟩,
    ⟨flowAt opened, .authorizeGet [(js "client_id", js "c"), (js "redirect_uri", flowCallback),
      (js "response_type", js "code"), (js "code_challenge", flowChallenge),
      (js "code_challenge_method", js "S256"), (js "resource", js "https://u.dev/mcp")]
      (js "ut_req_a") (js "n")⟩,
    ⟨flowAt (opened + pendingTtlMs - 1), .authorizePost [(js "req", js "ut_req_a"),
      (js "nonce", js "n"), (js "password", js "p")] true⟩,
    ⟨flowAt (opened + pendingTtlMs), .sweep⟩]

/-- A check is under way after the step for a listed request whose client the step takes. -/
def losesCheckedClient (x : Step Store Label) : Bool :=
  x.after.approving.any fun flight =>
    x.before.approving.any (fun held => held = flight) &&
      (x.before.pending flight.key).any fun request =>
        x.before.data.clients.contains request.clientId &&
          !x.after.data.clients.contains request.clientId

theorem expired_request_loses_checked_client :
    ∃ steps s, (service flowOptions).Run flowStart steps s ∧
      (∀ x ∈ steps, DrawsNew flowOptions x.before x.label.event) ∧
      ∃ x ∈ steps, losesCheckedClient x = true := by
  have allowed : ∀ x ∈ traceOf flowStep flowStart lapseLabels,
      Allowed flowOptions x.before x.label.event := by decide
  refine ⟨_, _, run_traceOf_of_mem flowStart lapseLabels fun x mem => ⟨allowed x mem, mem_traceOf mem⟩,
    by decide, by decide⟩

end Ultrathink.Guarantees.StoreIntegrity
