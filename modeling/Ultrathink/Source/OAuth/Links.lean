import Ultrathink.Source.OAuth.Moves

/-!
# References between the tables

`Linked` says that codes and tokens name a grant on record and a grant a client
on record that is known to have been granted. Pruning walks the tables in an
order that keeps it: a grant goes after its codes and tokens, a client after its
grants.
-/

namespace Ultrathink.Source.OAuth

open List Library JsText

structure Linked (data : Data) : Prop where
  codes : ∀ key record, data.codes.get? key = some record → data.grants.contains record.grantId
  tokens : ∀ key record, data.tokens.get? key = some record → data.grants.contains record.grantId
  grants : ∀ id grant, data.grants.get? id = some grant →
    ∃ client, data.clients.get? grant.clientId = some client ∧ client.grantedAt ≠ none

section Maps
variable {κ ν : Type} [DecidableEq κ] {m : OrderedMap κ ν} {k key : κ} {v : ν}

theorem contains_of_get? (found : m.get? k = some v) : m.contains k :=
  Option.isSome_iff_exists.mpr ⟨v, found⟩

theorem get?_of_contains (held : m.contains k) : ∃ v, m.get? k = some v :=
  Option.isSome_iff_exists.mp held

theorem mem_values_of_get? (found : m.get? k = some v) : v ∈ m.values :=
  mem_map.mpr ⟨(k, v), (m.get?_eq_some_iff k v).mp found, rfl⟩

theorem get?_filter_of (keep : κ → ν → Bool) (found : m.get? k = some v) (kept : keep k v = true) :
    (m.filter keep).get? k = some v := by
  rw [OrderedMap.get?_filter, found, Option.filter_some, if_pos kept]

theorem get?_filter_iff (keep : κ → ν → Bool) :
    (m.filter keep).get? k = some v ↔ m.get? k = some v ∧ keep k v = true := by
  rw [OrderedMap.get?_filter, Option.filter_eq_some_iff]

theorem contains_set_of (held : m.contains key) : (m.set k v).contains key := by
  unfold OrderedMap.contains at *
  rw [OrderedMap.get?_set]
  split
  · rfl
  · exact held

theorem ne_of_contains (new : m.contains k = false) (held : m.contains key) : key ≠ k := by
  rintro rfl
  exact Bool.false_ne_true (new.symm.trans held)

theorem ne_of_not_contains (new : m.contains k = false) (found : m.get? key = some v) :
    key ≠ k := ne_of_contains new (contains_of_get? found)

theorem size_modify (f : ν → ν) : (m.modify k f).size = m.size := length_map _

theorem size_set_of_contains (held : m.contains k) : (m.set k v).size = m.size := by
  obtain ⟨w, found⟩ := get?_of_contains held
  exact m.size_set_of_present v found

theorem size_erase_lt (held : m.contains k) : (m.erase k).size < m.size := by
  obtain ⟨w, found⟩ := get?_of_contains held
  have mem := (m.get?_eq_some_iff k w).mp found
  have drops : ¬ (m.entries.filter fun e => decide (e.1 ≠ k)).length = m.entries.length := by
    rw [length_filter_eq_length_iff]
    intro all
    simpa using all _ mem
  have le := length_filter_le (fun e : κ × ν => decide (e.1 ≠ k)) m.entries
  change (m.entries.filter fun e => decide (e.1 ≠ k)).length < m.entries.length
  omega

end Maps

variable {s room : Store} {data : Data} {t : ℤ} {maxClients : Nat}

variable {key id grantId : Text} {record : CodeRecord} {client : ClientRecord}

theorem grantLive_of_code (found : data.codes.get? key = some record) :
    grantLive data record.grantId = true := by
  refine Bool.or_eq_true_iff.mpr (Or.inl (any_eq_true.mpr ⟨record, ?_, by simp⟩))
  exact mem_values_of_get? found

theorem grantLive_of_token {record : TokenRecord} (found : data.tokens.get? key = some record) :
    grantLive data record.grantId = true := by
  refine Bool.or_eq_true_iff.mpr (Or.inr (any_eq_true.mpr ⟨record, ?_, by simp⟩))
  exact mem_values_of_get? found

/-- The tables after codes, tokens and grants were pruned, before the clients. -/
def prunedData (data : Data) (t : ℤ) : Data := pruneGrants (pruneTokens (pruneCodes data t) t) t

theorem prune_eq (s : Store) (t : ℤ) :
    (prune s t).2 =
      pruneClients { pruneRequests s t with data := prunedData s.data t } t := rfl

theorem contains_prunedData (held : data.grants.contains id)
    (live : grantLive (pruneTokens (pruneCodes data t) t) id = true) :
    (prunedData data t).grants.contains id := by
  obtain ⟨grant, found⟩ := get?_of_contains held
  exact contains_of_get? (get?_filter_of _ found (by rw [live, Bool.true_or]))

theorem Linked.prunedData (linked : Linked data) (t : ℤ) :
    Linked (OAuth.prunedData data t) where
  codes key record held := by
    have kept : (pruneTokens (pruneCodes data t) t).codes.get? key = some record := held
    exact contains_prunedData (linked.codes key record (get?_of_filter held))
      (grantLive_of_code kept)
  tokens key record held := by
    have kept : (pruneTokens (pruneCodes data t) t).tokens.get? key = some record := held
    exact contains_prunedData (linked.tokens key record (get?_of_filter held))
      (grantLive_of_token kept)
  grants id grant held := linked.grants id grant (get?_of_filter held)

/-- A client that some grant names stays: it was granted, so it is idle only when no grant is left. -/
theorem Linked.pruneClients (linked : Linked s.data) (t : ℤ) :
    Linked (pruneClients s t).data where
  codes := linked.codes
  tokens := linked.tokens
  grants id grant held := by
    obtain ⟨client, found, granted⟩ := linked.grants id grant held
    refine ⟨client, get?_filter_of _ found ?_, granted⟩
    obtain ⟨grantedAt, dated⟩ := Option.ne_none_iff_exists'.mp granted
    have named : s.data.grants.values.any (fun g => g.clientId = grant.clientId) = true :=
      any_eq_true.mpr ⟨grant, mem_values_of_get? held, by simp⟩
    unfold clientRemovable
    -- `split` settles the inner test by `named`
    rw [dated]
    split <;> rfl

theorem Linked.prune (linked : Linked s.data) (t : ℤ) :
    Linked (prune s t).2.data := by
  rw [prune_eq]
  exact Linked.pruneClients (s := { pruneRequests s t with data := OAuth.prunedData s.data t })
    (linked.prunedData t) t

theorem size_clients_prune (s : Store) (t : ℤ) :
    (prune s t).2.data.clients.size ≤ s.data.clients.size :=
  OrderedMap.size_filter_le _ _

theorem Linked.touchClient (linked : Linked s.data) (id : Text) (t : ℤ) :
    Linked (touchClient s id t).data where
  codes := linked.codes
  tokens := linked.tokens
  grants gid grant held := by
    obtain ⟨client, found, granted⟩ := linked.grants gid grant held
    simp only [OAuth.touchClient, OrderedMap.get?_modify]
    split
    · rename_i same
      rw [← same, found]
      exact ⟨_, rfl, granted⟩
    · exact ⟨client, found, granted⟩

theorem Linked.revokeGrant (linked : Linked s.data) (grantId : Text) :
    Linked (revokeGrant s grantId).data := by
  have stays : ∀ id, s.data.grants.contains id → id ≠ grantId →
      (s.data.grants.erase grantId).contains id := by
    intro id held other
    unfold OrderedMap.contains at *
    rwa [OrderedMap.get?_erase, if_neg other]
  refine ⟨fun key record held => ?_, fun key record held => ?_, fun id grant held => ?_⟩
  · obtain ⟨found, other⟩ := (get?_filter_iff _).mp held
    exact stays _ (linked.codes key record found) (of_decide_eq_true other)
  · obtain ⟨found, other⟩ := (get?_filter_iff _).mp held
    exact stays _ (linked.tokens key record found) (of_decide_eq_true other)
  · exact linked.grants id grant (get?_of_filter held)

theorem contains_grants_issueTokens (data : Data) (t : ℤ)
    (access refresh grantId clientId grantResource : Text) (scope : Option Text) (id : Text) :
    (issueTokens data t access refresh grantId clientId grantResource scope).grants.contains id =
      data.grants.contains id := by
  simp only [issueTokens, OrderedMap.contains, OrderedMap.get?_modify]
  split
  · rename_i same
    rw [same, Option.isSome_map]
  · rfl

theorem Linked.issueTokens (linked : Linked data) (t : ℤ) (access refresh : Text)
    (clientId grantResource : Text) (scope : Option Text) (granted : data.grants.contains grantId) :
    Linked (issueTokens data t access refresh grantId clientId grantResource scope) := by
  refine ⟨fun key record held => ?_, fun key record held => ?_, fun id grant held => ?_⟩
  · rw [contains_grants_issueTokens]
    exact linked.codes key record held
  · rw [contains_grants_issueTokens]
    simp only [OAuth.issueTokens, OrderedMap.get?_set] at held
    split at held
    · cases held
      exact granted
    · split at held
      · cases held
        exact granted
      · exact linked.tokens key record held
  · simp only [OAuth.issueTokens, OrderedMap.get?_modify] at held
    split at held
    · obtain ⟨old, found, rfl⟩ := Option.map_eq_some_iff.mp held
      exact linked.grants _ old found
    · exact linked.grants id grant held

theorem Linked.setCode (linked : Linked data) (key : Text)
    (granted : data.grants.contains record.grantId) :
    Linked { data with codes := data.codes.set key record } where
  codes other old held := by
    rw [OrderedMap.get?_set] at held
    split at held
    · cases held
      exact granted
    · exact linked.codes other old held
  tokens := linked.tokens
  grants := linked.grants

theorem Linked.setToken (linked : Linked data) (key : Text) {record : TokenRecord}
    (granted : data.grants.contains record.grantId) :
    Linked { data with tokens := data.tokens.set key record } where
  codes := linked.codes
  tokens other old held := by
    rw [OrderedMap.get?_set] at held
    split at held
    · cases held
      exact granted
    · exact linked.tokens other old held
  grants := linked.grants

/-- A client may be written when it replaces none that a grant names, or stays granted. -/
theorem Linked.setClient (linked : Linked data) (id : Text)
    (safe : data.clients.contains id = false ∨ client.grantedAt ≠ none) :
    Linked { data with clients := data.clients.set id client } where
  codes := linked.codes
  tokens := linked.tokens
  grants gid grant held := by
    obtain ⟨old, found, granted⟩ := linked.grants gid grant held
    by_cases same : grant.clientId = id
    · refine ⟨client, by rw [OrderedMap.get?_set, if_pos same], safe.resolve_left ?_⟩
      rw [← same, contains_of_get? found]
      exact Bool.noConfusion
    · exact ⟨old, by rw [OrderedMap.get?_set_of_ne _ _ same]; exact found, granted⟩

theorem Linked.setGrant (linked : Linked data) (id : Text) {grant : GrantRecord}
    (found : data.clients.get? grant.clientId = some client) (granted : client.grantedAt ≠ none) :
    Linked { data with grants := data.grants.set id grant } where
  codes key record held := contains_set_of (linked.codes key record held)
  tokens key record held := contains_set_of (linked.tokens key record held)
  grants other old held := by
    rw [OrderedMap.get?_set] at held
    split at held
    · cases held
      exact ⟨client, found, granted⟩
    · exact linked.grants other old held

theorem Linked.recordApproval {o : Options} (linked : Linked s.data) (t : ℤ)
    (key code grantId : Text) (request : PendingRequest) (client : ClientRecord) :
    Linked (recordApproval o t key request client code grantId s).data := by
  let dated := { client with grantedAt := some (client.grantedAt.getD t) }
  let grant : GrantRecord := ⟨request.clientId, request.resource, t, some t⟩
  have granted : dated.grantedAt ≠ none := by simp [dated]
  have withClient := linked.setClient request.clientId (Or.inr granted)
  have found : (s.data.clients.set request.clientId dated).get? grant.clientId = some dated :=
    OrderedMap.get?_set_self _ _ _
  have withGrant := withClient.setGrant grantId found granted
  exact withGrant.setCode (o.digest code) (contains_of_get? (OrderedMap.get?_set_self _ _ _))

/-- The victim that is chosen so far may go. -/
def MayGo (data : Data) (approvingClients : List Text) (victim : Option (Text × ℤ)) : Prop :=
  ∀ id at_, victim = some (id, at_) →
    id ∉ approvingClients ∧ ∃ client, data.clients.get? id = some client ∧ client.grantedAt = none

theorem mayGo_foldl {approvingClients : List Text} (l : List (Text × ClientRecord))
    {victim : Option (Text × ℤ)} (entries : ∀ e ∈ l, data.clients.get? e.1 = some e.2)
    (kept : MayGo data approvingClients victim) :
    MayGo data approvingClients (l.foldl (fun victim e =>
      if e.2.grantedAt = none ∧ e.1 ∉ approvingClients then
        match victim with
        | some (_, oldest) => if e.2.createdAt < oldest then some (e.1, e.2.createdAt) else victim
        | none => some (e.1, e.2.createdAt)
      else victim) victim) := by
  induction l generalizing victim with
  | nil => exact kept
  | cons e rest ih =>
    have ofHead : e.2.grantedAt = none ∧ e.1 ∉ approvingClients →
        MayGo data approvingClients (some (e.1, e.2.createdAt)) := by
      rintro ⟨ungranted, free⟩ id at_ same
      cases same
      exact ⟨free, e.2, entries e mem_cons_self, ungranted⟩
    rw [foldl_cons]
    refine ih (fun e' mem => entries e' (mem_cons_of_mem _ mem)) ?_
    split
    · rename_i eligible
      split
      · split
        · exact ofHead eligible
        · exact kept
      · exact ofHead eligible
    · exact kept

theorem oldestUngranted_spec {approvingClients : List Text} {victim : Text} {at_ : ℤ}
    (chosen : oldestUngranted data approvingClients = some (victim, at_)) :
    victim ∉ approvingClients ∧
      ∃ client, data.clients.get? victim = some client ∧ client.grantedAt = none := by
  have nobody : MayGo data approvingClients none := fun _ _ chosen => by cases chosen
  exact mayGo_foldl data.clients.entries
    (fun e mem => (data.clients.get?_eq_some_iff e.1 e.2).mpr mem) nobody victim at_ chosen

/-- The clients whose approval is being checked while its request is still listed. -/
def approvingClients (s : Store) : List Text :=
  s.approving.filterMap fun flight => (s.pending flight.key).map (·.clientId)

/-- The room made: the pruned store, or the pruned store without one client that
was never granted and has no approval under way. -/
theorem makeRoomForClient_cases (made : (makeRoomForClient s t maxClients).1 = some room) :
    room = (prune s t).2 ∧ (prune s t).2.data.clients.size < maxClients ∨
      ∃ victim client, (prune s t).2.data.clients.get? victim = some client ∧
        client.grantedAt = none ∧ victim ∉ approvingClients (prune s t).2 ∧
        room = { (prune s t).2 with
          data := { (prune s t).2.data with clients := (prune s t).2.data.clients.erase victim }
          listed := (prune s t).2.listed.filter fun key =>
            !((prune s t).2.requests.get? key).any fun request => request.clientId = victim } := by
  unfold makeRoomForClient at made
  simp only at made
  split at made
  · rename_i fits
    cases made
    exact Or.inl ⟨rfl, fits⟩
  · split at made
    · cases made
    · rename_i victim _ chosen
      cases made
      obtain ⟨free, client, found, ungranted⟩ := oldestUngranted_spec chosen
      exact Or.inr ⟨victim, client, found, ungranted, free, rfl⟩

theorem Linked.makeRoomForClient (linked : Linked s.data)
    (made : (makeRoomForClient s t maxClients).1 = some room) :
    Linked room.data := by
  have pruned := linked.prune t
  rcases makeRoomForClient_cases made with ⟨rfl, -⟩ | ⟨victim, client, found, ungranted, -, rfl⟩
  · exact pruned
  · refine ⟨pruned.codes, pruned.tokens, fun id grant held => ?_⟩
    obtain ⟨owner, foundOwner, granted⟩ := pruned.grants id grant held
    have other : grant.clientId ≠ victim := by
      intro same
      rw [same, found] at foundOwner
      cases foundOwner
      exact granted ungranted
    exact ⟨owner, by rw [OrderedMap.get?_erase, if_neg other]; exact foundOwner, granted⟩

theorem size_makeRoomForClient (fits : s.data.clients.size ≤ maxClients)
    (made : (makeRoomForClient s t maxClients).1 = some room) :
    room.data.clients.size < maxClients := by
  have pruned := size_clients_prune s t
  rcases makeRoomForClient_cases made with ⟨rfl, fits'⟩ | ⟨victim, client, found, -, -, rfl⟩
  · exact fits'
  · have smaller := size_erase_lt (contains_of_get? found)
    change ((prune s t).2.data.clients.erase victim).size < maxClients
    omega

theorem makeRoomForClient_new (new : s.data.clients.contains id = false)
    (made : (makeRoomForClient s t maxClients).1 = some room) :
    room.data.clients.contains id = false := by
  have pruned : (prune s t).2.data.clients.contains id = false := by
    by_contra held
    have before : s.data.clients.contains id = true :=
      contains_of_filter (Bool.of_not_eq_false held)
    exact Bool.false_ne_true (new.symm.trans before)
  rcases makeRoomForClient_cases made with ⟨rfl, -⟩ | ⟨victim, client, -, -, -, rfl⟩
  · exact pruned
  · by_contra held
    exact Bool.false_ne_true
      (pruned.symm.trans (contains_of_filter (Bool.of_not_eq_false held)))

/-- Every pending request keeps the deadline that its creation gave it. -/
def Deadlines (s : Store) : Prop :=
  ∀ key request, s.requests.get? key = some request →
    request.expiresAt = request.createdAt + pendingTtlMs

theorem Deadlines.pruneRequests (deadlines : Deadlines s) (t : ℤ) :
    Deadlines (pruneRequests s t) := by
  intro key request found
  simp only [OAuth.pruneRequests, OrderedMap.get?_mapValues] at found
  obtain ⟨old, foundOld, rfl⟩ := Option.map_eq_some_iff.mp found
  have dated := deadlines key old foundOld
  split <;> exact dated

theorem Deadlines.setRequest (deadlines : Deadlines s) (key : Text) {request : PendingRequest}
    (dated : request.expiresAt = request.createdAt + pendingTtlMs) :
    Deadlines (setRequest s key request) := by
  intro other old found
  simp only [OAuth.setRequest, OrderedMap.get?_set] at found
  split at found
  · cases found
    exact dated
  · exact deadlines other old found

structure Sound (o : Options) (s : Store) : Prop where
  linked : Linked s.data
  room : s.data.clients.size ≤ o.maxClients
  deadlines : Deadlines s

variable {o : Options} {e : Env}

theorem Sound.prune (sound : Sound o s) (t : ℤ) : Sound o (prune s t).2 :=
  ⟨sound.linked.prune t, (size_clients_prune s t).trans sound.room, by
    have same : (OAuth.prune s t).2.requests = (pruneRequests s t).requests := rfl
    have dated := sound.deadlines.pruneRequests t
    unfold Deadlines at dated ⊢
    rwa [same]⟩

theorem Sound.answered (sound : Sound o s) {access refresh clientId grantResource : Text}
    {scope : Option Text} {spent : Data} {facts : List Fact} (linked : Linked spent)
    (granted : spent.grants.contains grantId) (clients : spent.clients = s.data.clients) :
    Sound o (answered e access refresh grantId clientId grantResource scope spent facts s) :=
  ⟨linked.issueTokens _ _ _ _ _ _ granted, by
    change spent.clients.size ≤ _
    exact clients ▸ sound.room, sound.deadlines⟩

theorem Sound.move {s s' : Store} (sound : Sound o s) (move : Move o e s s') : Sound o s' := by
  cases move with
  | prune i => exact sound.prune _
  | touch id i =>
    exact ⟨sound.linked.touchClient id _, (size_modify _).trans_le sound.room, sound.deadlines⟩
  | enroll made new =>
    rename_i room id client
    have linked := sound.linked.makeRoomForClient made
    have fits := size_makeRoomForClient sound.room made
    refine ⟨linked.setClient id (Or.inl (makeRoomForClient_new new made)), ?_, ?_⟩
    · have grown := room.data.clients.size_set_le id client
      change (room.data.clients.set id client).size ≤ _
      omega
    · have dated := (sound.prune (e.now 0)).deadlines
      rcases makeRoomForClient_cases made with ⟨rfl, -⟩ | ⟨_, _, -, -, -, rfl⟩
      · exact dated
      · exact dated
  | openRequest new deadline =>
    exact ⟨sound.linked, sound.room, sound.deadlines.setRequest _ deadline⟩
  | tick found ticked =>
    refine ⟨sound.linked, sound.room, sound.deadlines.setRequest _ ?_⟩
    rw [ticked.deadline, ticked.created]
  | check approving kept => exact ⟨sound.linked, sound.room, sound.deadlines⟩
  | exchange found unused newAccess newRefresh =>
    have granted := sound.linked.codes _ _ found
    exact sound.answered (sound.linked.setCode _ granted) granted rfl
  | rotate expiresAt found kind unused newAccess newRefresh =>
    have granted := sound.linked.tokens _ _ found
    exact sound.answered (sound.linked.setToken _ granted) granted rfl
  | restore i => exact ⟨sound.linked, sound.room, sound.deadlines.pruneRequests _⟩
  | revoke grantId => exact ⟨sound.linked.revokeGrant grantId, sound.room, sound.deadlines⟩

theorem Sound.moves {m : Store} (sound : Sound o s) (moves : Moves o e s m) : Sound o m := by
  induction moves with
  | refl => exact sound
  | tail _ move ih => exact ih.move move

theorem Sound.approval {s : Store} (sound : Sound o s) {key code grantId : Text}
    {request : PendingRequest} {client : ClientRecord}
    (approves : Approves o s key code grantId request client) (t : ℤ) :
    Sound o (recordApproval o t key request client code grantId s) := by
  refine ⟨sound.linked.recordApproval t key code grantId request client, ?_,
    sound.deadlines.setRequest key (sound.deadlines key request approves.found)⟩
  exact (size_set_of_contains (contains_of_get? approves.known)).trans_le sound.room

theorem Sound.handle (sound : Sound o s) (event : Event) (allowed : Allowed o s event)
    (new : DrawsNew o s event) : Sound o (handle o e event s).2 := by
  obtain ⟨m, after, moves | ⟨key, code, grantId, request, client, approves, rfl⟩⟩ :=
    handle_moves o e event s allowed new
  · have kept := sound.moves moves
    rw [after]
    exact ⟨kept.linked, kept.room, kept.deadlines⟩
  · have kept := (sound.approval approves (e.now 0)).prune (e.now 1)
    rw [after]
    exact ⟨kept.linked, kept.room, kept.deadlines⟩

end Ultrathink.Source.OAuth
