import Ultrathink.Library.OrderedMap
import Ultrathink.Library.JsText

/-!
# The authorization server's store

The tables of `oauth/oauth.ts` and the operations on them that no handler owns:
pruning, revoking a grant, minting tokens and making room for a client. Secrets
are kept by digest only, so a key here is a digest. A pending request is an
object that a handler may still hold after the `pending` map has dropped it:
`requests` keeps every such object and `listed` the keys of the map. `history`
is no table of the source: it records what was handed out and withdrawn.
-/

namespace Ultrathink.Source.OAuth

open Library JsText

def accessTtlMs : ℤ := 60 * 60 * 1000
def refreshTtlMs : ℤ := 30 * 24 * 60 * 60 * 1000
def spentRefreshTtlMs : ℤ := 5 * 60 * 1000
def codeTtlMs : ℤ := 60 * 1000
def pendingTtlMs : ℤ := 10 * 60 * 1000
def ungrantedClientTtlMs : ℤ := 24 * 60 * 60 * 1000
def grantedClientIdleMs : ℤ := 30 * 24 * 60 * 60 * 1000
def grantIdleMs : ℤ := 24 * 60 * 60 * 1000
def maxPending : Nat := 200
def maxPendingPerClient : Nat := 5
def maxNameChars : Nat := 120

structure ClientRecord where
  name : Text
  redirectUris : List Text
  createdAt : ℤ
  grantTypes : List Text
  grantedAt : Option ℤ
  lastUsedAt : Option ℤ

structure GrantRecord where
  clientId : Text
  resource : Text
  createdAt : ℤ
  lastUsedAt : Option ℤ

structure CodeRecord where
  clientId : Text
  redirectUri : Text
  codeChallenge : Text
  resource : Text
  scope : Option Text
  grantId : Text
  expiresAt : ℤ
  used : Bool

inductive TokenKind where
  | access | refresh
deriving DecidableEq

structure TokenRecord where
  kind : TokenKind
  grantId : Text
  clientId : Text
  resource : Text
  scope : Option Text
  expiresAt : ℤ
  used : Bool

inductive ApprovalState where
  | pendingApproval | approved | expired
deriving DecidableEq

structure PendingRequest where
  clientId : Text
  redirectUri : Text
  codeChallenge : Text
  resource : Text
  scope : Option Text
  state : Option Text
  createdAt : ℤ
  expiresAt : ℤ
  refreshedAt : ℤ
  approvalState : ApprovalState
  nonce : Text
  signature : Text

structure Data where
  clients : OrderedMap Text ClientRecord
  grants : OrderedMap Text GrantRecord
  codes : OrderedMap Text CodeRecord
  tokens : OrderedMap Text TokenRecord

/-- What the service has done that a client or the owner can tell. -/
inductive Fact where
  /-- The owner approved a pending request: its code and its grant. -/
  | approved (request code grantId : Text)
  /-- A code was answered with tokens. -/
  | exchanged (code : Text)
  /-- An access token was minted for a grant. -/
  | minted (token grantId : Text)
  /-- A grant was revoked, by its client or by a replay. -/
  | revoked (grantId : Text)
deriving DecidableEq

/-- An approval whose password is being checked: what its handler holds. -/
structure Flight where
  key : Text
  requestId : Text
  clientName : Text
deriving DecidableEq

structure Store where
  data : Data
  requests : OrderedMap Text PendingRequest
  listed : List Text
  approving : List Flight
  history : List Fact

/-- `pending.get(key)` -/
def Store.pending (s : Store) (key : Text) : Option PendingRequest :=
  if key ∈ s.listed then s.requests.get? key else none

def Store.note (s : Store) (fact : Fact) : Store := { s with history := s.history ++ [fact] }

def requestDead (request : PendingRequest) (t : ℤ) : Bool :=
  request.expiresAt ≤ t || request.approvalState = .expired

def keyDead (s : Store) (t : ℤ) (key : Text) : Bool :=
  match s.requests.get? key with
  | some request => requestDead request t
  | none => false

def pruneCodes (data : Data) (t : ℤ) : Data :=
  { data with codes := data.codes.filter fun _ record => t < record.expiresAt }

def pruneTokens (data : Data) (t : ℤ) : Data :=
  { data with tokens := data.tokens.filter fun _ record => t < record.expiresAt }

def pruneRequests (s : Store) (t : ℤ) : Store :=
  { s with
    requests := s.requests.mapValues fun key request =>
      if key ∈ s.listed ∧ requestDead request t then { request with approvalState := .expired }
      else request
    listed := s.listed.filter fun key => !keyDead s t key }

/-- A code or a token of the grant is on record. -/
def grantLive (data : Data) (grantId : Text) : Bool :=
  data.codes.values.any (fun record => record.grantId = grantId) ||
    data.tokens.values.any (fun record => record.grantId = grantId)

def pruneGrants (data : Data) (t : ℤ) : Data :=
  { data with grants := data.grants.filter fun id grant =>
      grantLive data id || t - grant.lastUsedAt.getD grant.createdAt ≤ grantIdleMs }

def clientRemovable (s : Store) (t : ℤ) (id : Text) (client : ClientRecord) : Bool :=
  if s.listed.any fun key => (s.requests.get? key).any fun request => request.clientId = id then
    false
  else match client.grantedAt with
    | none => ungrantedClientTtlMs < t - client.createdAt
    | some grantedAt =>
      if s.data.grants.values.any fun grant => grant.clientId = id then false
      else grantedClientIdleMs < t - client.lastUsedAt.getD grantedAt

def pruneClients (s : Store) (t : ℤ) : Store :=
  { s with data := { s.data with
      clients := s.data.clients.filter fun id client => !clientRemovable s t id client } }

def Store.size (s : Store) : Nat :=
  s.data.codes.size + s.data.tokens.size + s.listed.length + s.data.grants.size +
    s.data.clients.size

/-- Codes and tokens first, then requests, idle grants and removable clients;
whether anything went is told by the sizes. -/
def prune (s : Store) (t : ℤ) : Bool × Store :=
  let s₁ := pruneRequests { s with data := pruneTokens (pruneCodes s.data t) t } t
  let s₂ := pruneClients { s₁ with data := pruneGrants s₁.data t } t
  (s₂.size ≠ s.size, s₂)

def revokeGrant (s : Store) (grantId : Text) : Store :=
  { s with data := { s.data with
      grants := s.data.grants.erase grantId
      tokens := s.data.tokens.filter fun _ record => record.grantId ≠ grantId
      codes := s.data.codes.filter fun _ record => record.grantId ≠ grantId } }.note
    (.revoked grantId)

/-- Adds the two tokens under their digests and marks the grant as used. -/
def issueTokens (data : Data) (t : ℤ) (access refresh grantId clientId resource : Text)
    (scope : Option Text) : Data :=
  let token (kind : TokenKind) (ttl : ℤ) : TokenRecord :=
    ⟨kind, grantId, clientId, resource, scope, t + ttl, false⟩
  { data with
    tokens := (data.tokens.set access (token .access accessTtlMs)).set refresh
      (token .refresh refreshTtlMs)
    grants := data.grants.modify grantId fun grant => { grant with lastUsedAt := some t } }

/-- The oldest client without a grant whose approval is not being checked. -/
def oldestUngranted (data : Data) (approvingClients : List Text) : Option (Text × ℤ) :=
  data.clients.entries.foldl (fun victim e =>
    if e.2.grantedAt = none ∧ e.1 ∉ approvingClients then
      match victim with
      | some (_, oldest) => if e.2.createdAt < oldest then some (e.1, e.2.createdAt) else victim
      | none => some (e.1, e.2.createdAt)
    else victim) none

/-- `none` when the table is full of clients that must stay. -/
def makeRoomForClient (s : Store) (t : ℤ) (maxClients : Nat) : Option Store × Store :=
  let s := (prune s t).2
  if s.data.clients.size < maxClients then (some s, s)
  else
    let approvingClients := s.approving.filterMap fun flight => (s.pending flight.key).map (·.clientId)
    match oldestUngranted s.data approvingClients with
    | none => (none, s)
    | some (victim, _) =>
      let s := { s with
        data := { s.data with clients := s.data.clients.erase victim }
        listed := s.listed.filter fun key =>
          !(s.requests.get? key).any fun request => request.clientId = victim }
      (some s, s)

end Ultrathink.Source.OAuth
