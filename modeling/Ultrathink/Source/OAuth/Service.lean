import Mathlib.Algebra.Group.Int.Defs
import Ultrathink.Library.Regex
import Ultrathink.Library.Runs
import Ultrathink.Source.OAuth.Store

/-!
# The authorization server's endpoints

The handlers of `createOAuth`, each cut where it awaits. A segment between two awaits runs alone,
so a step of the service is one segment. A segment reads the clock anew at each `now()`; its
readings are numbered in the order of the source and may be any. A request here has passed the
limiters and the form checks: a refused one changes no table.
-/

namespace Ultrathink.Source.OAuth

open Library JsText Runs

/-- The parts of a parsed URL that the checks read. -/
structure Url where
  protocol : Text
  hostname : Text
  pathname : Text
  search : Text
  hash : Text
  username : Text
  password : Text
  origin : Text
deriving DecidableEq

/-- What `createOAuth` is given and what the platform computes. -/
structure Options where
  origin : Text
  redirectOrigins : List Text
  maxClients : Nat
  parseUrl : Text → Option Url
  digest : Text → Text

def maxRedirectUriChars : Nat := 2048

def loopbackHosts : List Text := [js "localhost", js "127.0.0.1", js "[::1]"]

def isLoopbackHttp (url : Url) : Bool := url.protocol = js "http:" && url.hostname ∈ loopbackHosts

def parseRedirect (o : Options) (raw : Text) : Option Url :=
  if raw.length = 0 ∨ maxRedirectUriChars < raw.length then none
  else (o.parseUrl raw).filter fun url => url.hash = [] && url.username = [] && url.password = []

def redirectAllowed (o : Options) (raw : Text) : Bool :=
  match parseRedirect o raw with
  | none => false
  | some url => isLoopbackHttp url || (url.protocol = js "https:" && url.origin ∈ o.redirectOrigins)

/-- A loopback redirect may use any port, so the port is not compared. -/
def redirectMatches (o : Options) (registered requested : Text) : Bool :=
  if registered = requested then true
  else match parseRedirect o registered, parseRedirect o requested with
    | some a, some b =>
      isLoopbackHttp a && isLoopbackHttp b && a.hostname = b.hostname && a.pathname = b.pathname &&
        a.search = b.search
    | _, _ => false

/-- Form or query parameters, in the order sent. -/
abbrev Form := List (Text × Text)

/-- `URLSearchParams.get` -/
def Form.get (form : Form) (name : Text) : Option Text :=
  (form.find? (fun e => e.1 = name)).map Prod.snd

def Form.text (form : Form) (name : String) : Text := (form.get (js name)).getD []

def isUrlSafe (u : UInt16) : Bool := isUpperLetter u || isLowerLetter u || isDigit u || u = 0x2D

/-- `CHALLENGE_PATTERN` -/
def isChallenge (t : Text) : Bool := t.length = 43 && t.all fun u => isUrlSafe u || u = 0x5F

/-- `VERIFIER_PATTERN` -/
def isVerifier (t : Text) : Bool :=
  43 ≤ t.length && t.length ≤ 128 &&
    t.all fun u => isUrlSafe u || u = 0x2E || u = 0x5F || u = 0x7E

def maxScopeChars : Nat := 256

def isScopeUnit (u : UInt16) : Bool :=
  u = 0x21 || (0x23 ≤ u && u ≤ 0x5B) || (0x5D ≤ u && u ≤ 0x7E)

/-- `SCOPE_PATTERN` -/
def scopePattern : Regex.Expr :=
  let token : Regex.Expr := .seq (.one isScopeUnit) (.many true (.one isScopeUnit))
  .seq .atStart (.seq token (.seq (.many true (.seq (.one (· = 0x20)) token)) .atEnd))

def cleanScope (raw : Option Text) : Option Text :=
  match raw with
  | none => none
  | some raw =>
    let value := trim raw
    if value = [] ∨ maxScopeChars < value.length ∨ !Regex.test scopePattern value then none
    else some value

def resource (o : Options) : Text := o.origin ++ js "/mcp"

def sameResource (o : Options) (value : Text) : Bool :=
  value = resource o || value = resource o ++ js "/"

def pkceMatches (o : Options) (verifier challenge : Text) : Bool :=
  isVerifier verifier && toUtf8 (o.digest verifier) = toUtf8 challenge

/-- An absent or empty `resource` asks for no other resource. -/
def otherResource (o : Options) (form : Form) : Bool :=
  match form.get (js "resource") with
  | none => false
  | some presented => presented ≠ [] && !sameResource o presented

inductive Reply where
  | error (status : Nat) (code description : Text)
  | errorPage (status : Nat) (message : Text)
  | expiredState
  | redirect (uri : Text) (params : List (Text × Text)) (state : Option Text)
  | consentPage (requestId nonce clientName redirectUri message : Text)
  | pendingState (expiresIn refreshedAt : ℤ)
  | registered (clientId : Text) (client : ClientRecord)
  | tokens (access refresh : Text) (expiresIn : ℤ) (scope : Option Text)
  | done
  /-- The password is being checked. -/
  | awaiting
  /-- The handler threw: the request ends with a 500. -/
  | failed

def expiredMessage : Text :=
  js "This authorization request expired. Start the connection again from your client."

def expiredResponse (asJson : Bool) : Reply :=
  if asJson then .expiredState else .errorPage 400 expiredMessage

def invalidGrant (description : String) : Reply := .error 400 (js "invalid_grant") (js description)

def unknownGrant : Reply := invalidGrant "The authorization is invalid or expired."

def invalidClient : Reply :=
  .error 401 (js "invalid_client") (js "Unknown client. Register the client again.")

def invalidTarget : Reply :=
  .error 400 (js "invalid_target") (js "resource must be the ultrathink MCP endpoint.")

def notSaved : Reply := .error 500 (js "server_error") (js "OAuth state could not be saved.")

def refusedRedirect (uri : Text) (error description : String) (state : Option Text) : Reply :=
  .redirect uri [(js "error", js error), (js "error_description", js description)] state

structure ApprovalProof where
  subject : Text
  nonce : Text
  issuedAt : ℤ
  expiresAt : ℤ
  refreshedAt : ℤ

def proofOf (key : Text) (request : PendingRequest) : ApprovalProof :=
  ⟨key, request.nonce, request.createdAt, request.expiresAt, request.refreshedAt⟩

/-- What a segment meets outside the store: its clock readings, whether a write
of the state file succeeds and the approval keys of the moment. -/
structure Env where
  now : Nat → ℤ
  saves : Bool
  signApproval : ApprovalProof → Option Text
  verifyApproval : ApprovalProof → Text → Bool

/-- `persist`: the file is written from the pruned tables. A failed write throws
and leaves the tables as they are. -/
def persist (e : Env) (t : ℤ) (s : Store) : Bool × Store := (e.saves, (prune s t).2)

/-- Answers after `persist`, unless it throws. -/
def persisted (e : Env) (t : ℤ) (s : Store) (reply : Reply) : Reply × Store :=
  let (saved, s) := persist e t s
  (if saved then reply else .failed, s)

def setRequest (s : Store) (key : Text) (request : PendingRequest) : Store :=
  { s with requests := s.requests.set key request }

def setClient (s : Store) (id : Text) (client : ClientRecord) : Store :=
  { s with data := { s.data with clients := s.data.clients.set id client } }

/-- `client.lastUsedAt = now()` -/
def touchClient (s : Store) (id : Text) (t : ℤ) : Store :=
  { s with data := { s.data with
      clients := s.data.clients.modify id fun client => { client with lastUsedAt := some t } } }

structure RegisterFields where
  redirectUris : List Text
  grantTypes : List Text
  clientName : Text

/-- `[...new Set(values)]` keeps the first of equal values. -/
def distinct (values : List Text) : List Text := values.reverse.dedup.reverse

def clientNameOf (raw : Text) : Text :=
  let name := trim (raw.take maxNameChars)
  if name = [] then js "MCP client" else name

def register (o : Options) (e : Env) (fields : RegisterFields) (clientId : Text) (s : Store) :
    Reply × Store :=
  if !fields.redirectUris.all (redirectAllowed o) then
    (.error 400 (js "invalid_redirect_uri") (js "Register 1 to 5 redirect URIs: https on an allowed origin (" ++ join (js ", ") o.redirectOrigins ++ js ") or loopback http."), s)
  else match makeRoomForClient s (e.now 0) o.maxClients with
    | (none, s) =>
      (.error 503 (js "temporarily_unavailable") (js "Client registration is full."), s)
    | (some s, _) =>
      let client : ClientRecord := ⟨clientNameOf fields.clientName, distinct fields.redirectUris,
        e.now 1, distinct fields.grantTypes, none, some (e.now 1)⟩
      persisted e (e.now 2) (setClient s clientId client) (.registered clientId client)

def pendingOfClient (s : Store) (clientId : Text) : Nat :=
  s.listed.countP fun key => (s.requests.get? key).any fun request => request.clientId = clientId

/-- The new request is listed before `persist`, so it stays when the write fails. -/
def openRequest (o : Options) (e : Env) (params : Form) (client : ClientRecord)
    (requestId nonce : Text) (s : Store) : Reply × Store :=
  let key := o.digest requestId
  let unsigned : PendingRequest := ⟨params.text "client_id", params.text "redirect_uri",
    params.text "code_challenge", resource o, cleanScope (params.get (js "scope")),
    params.get (js "state"), e.now 2, e.now 2 + pendingTtlMs, e.now 2, .pendingApproval, nonce, []⟩
  match e.signApproval (proofOf key unsigned) with
  | none => (.failed, s)
  | some signature =>
    let s := setRequest s key { unsigned with signature }
    persisted e (e.now 3) { s with listed := s.listed ++ [key] }
      (.consentPage requestId nonce client.name unsigned.redirectUri [])

def authorizeGet (o : Options) (e : Env) (params : Form) (requestId nonce : Text) (s : Store) :
    Reply × Store :=
  let s := (prune s (e.now 0)).2
  let clientId := params.text "client_id"
  let redirectUri := params.text "redirect_uri"
  let state := params.get (js "state")
  match s.data.clients.get? clientId with
  | none => (.errorPage 400 (js "This client is not registered with ultrathink."), s)
  | some client =>
    if !client.redirectUris.any (redirectMatches o · redirectUri) then
      (.errorPage 400 (js "The redirect address does not match this client's registration."), s)
    else
      let s := touchClient s clientId (e.now 1)
      if params.get (js "response_type") ≠ some (js "code") then
        (refusedRedirect redirectUri "unsupported_response_type" "response_type must be code." state,
          s)
      else if params.get (js "code_challenge_method") ≠ some (js "S256") ∨
          !isChallenge (params.text "code_challenge") then
        (refusedRedirect redirectUri "invalid_request" "PKCE with S256 is required." state, s)
      else if !(params.get (js "resource")).any (sameResource o) then
        (refusedRedirect redirectUri "invalid_target"
          "resource must be the ultrathink MCP endpoint." state, s)
      else if maxPendingPerClient ≤ pendingOfClient s clientId then
        (.errorPage 429 (js "This client already has several authorizations waiting. Finish one or wait and try again."), s)
      else if maxPending ≤ s.listed.length then
        (.errorPage 503 (js "Authorization is temporarily unavailable. Start the connection again from your client."), s)
      else openRequest o e params client requestId nonce s

/-- Found by the request's secret, its nonce and a signature that still verifies. -/
def findPending (o : Options) (e : Env) (s : Store) (requestId nonce : Text) :
    Option (Text × PendingRequest) :=
  if requestId = [] ∨ nonce = [] then none
  else
    let key := o.digest requestId
    match s.pending key with
    | none => none
    | some request =>
      if toUtf8 nonce ≠ toUtf8 request.nonce then none
      else if !e.verifyApproval (proofOf key request) request.signature then none
      else some (key, request)

/-- `tickApproval` of a listed request: `none` when signing throws. The deadline
does not move. -/
def tickApproval (e : Env) (t : ℤ) (key : Text) (request : PendingRequest) (s : Store) :
    Option ApprovalState × Store :=
  if request.approvalState ≠ .pendingApproval then (some request.approvalState, s)
  else
    let deadline := request.createdAt + pendingTtlMs
    if deadline ≤ t ∨ request.expiresAt ≤ t then
      let expired := { request with approvalState := .expired, expiresAt := deadline }
      (some .expired, setRequest s key expired)
    else
      let request := { request with refreshedAt := t, expiresAt := deadline }
      match e.signApproval (proofOf key request) with
      | none => (none, setRequest s key request)
      | some signature => (some .pendingApproval, setRequest s key { request with signature })

/-- `Math.max(0, Math.ceil((expiresAt - now()) / 1000))` -/
def secondsLeft (expiresAt t : ℤ) : ℤ := max 0 (-((t - expiresAt) / 1000))

/-- A poll writes the file only when pruning removed something. -/
def pollReply (e : Env) (key : Text) (s : Store) : Reply × Store :=
  let (changed, s) := prune s (e.now 1)
  if changed && !e.saves then (.failed, s)
  else match s.requests.get? key with
    | none => (.failed, s)
    | some request => (.pendingState (secondsLeft request.expiresAt (e.now 2)) request.refreshedAt, s)

/-- Marks the request as being checked, after which the handler awaits. -/
def beginApproval (allowAttempt : Bool) (requestId key : Text) (request : PendingRequest)
    (s : Store) : Reply × Store :=
  let clientName := ((s.data.clients.get? request.clientId).map (·.name)).getD (js "MCP client")
  if s.approving.any (fun flight => flight.key = key) then
    (.consentPage requestId request.nonce clientName request.redirectUri
      (js "This approval is already being checked. Wait for the result."), s)
  else if !allowAttempt then
    (.errorPage 429 (js "Too many attempts. Wait and try again."), s)
  else (.awaiting, { s with approving := s.approving ++ [⟨key, requestId, clientName⟩] })

def authorizePost (o : Options) (e : Env) (form : Form) (allowAttempt : Bool) (s : Store) :
    Reply × Store :=
  let requestId := form.text "req"
  let polling := form.get (js "action") = some (js "poll")
  match findPending o e s requestId (form.text "nonce") with
  | none => (expiredResponse polling, s)
  | some (key, request) =>
    match tickApproval e (e.now 0) key request s with
    | (none, s) => (.failed, s)
    | (some .pendingApproval, s) =>
      if polling then pollReply e key s
      else
        let (saved, s) := persist e (e.now 1) s
        if saved then beginApproval allowAttempt requestId key request s else (.failed, s)
    | (some _, s) => persisted e (e.now 1) s (expiredResponse polling)

inductive LoginOutcome where
  | ok | rateLimited | wrongPassword

/-- The owner's approval: a grant and a code for the request, which leaves the map. -/
def recordApproval (o : Options) (t : ℤ) (key : Text) (request : PendingRequest)
    (client : ClientRecord) (code grantId : Text) (s : Store) : Store :=
  let grant : GrantRecord := ⟨request.clientId, request.resource, t, some t⟩
  let record : CodeRecord := ⟨request.clientId, request.redirectUri, request.codeChallenge,
    request.resource, request.scope, grantId, t + codeTtlMs, false⟩
  let s := setRequest s key { request with approvalState := .approved }
  let s := setClient s request.clientId { client with grantedAt := some (client.grantedAt.getD t) }
  let s := { s with
    listed := s.listed.filter (· ≠ key)
    data := { s.data with
      grants := s.data.grants.set grantId grant
      codes := s.data.codes.set (o.digest code) record } }
  s.note (.approved key (o.digest code) grantId)

/-- What follows the password check. The request or its client may have gone
while it ran. -/
def settleLogin (o : Options) (e : Env) (flight : Flight) (outcome : LoginOutcome)
    (code grantId : Text) (s : Store) : Reply × Store :=
  match s.requests.get? flight.key with
  | none => (.failed, s)
  | some request =>
    match outcome with
    | .rateLimited => (.errorPage 429 (js "Too many attempts. Wait and try again."), s)
    | .wrongPassword =>
      if request.approvalState ≠ .pendingApproval then (expiredResponse false, s)
      else (.consentPage flight.requestId request.nonce flight.clientName request.redirectUri
        (js "Incorrect password."), s)
    | .ok =>
      match s.data.clients.get? request.clientId with
      | none => (expiredResponse false, s)
      | some client =>
        if request.approvalState ≠ .pendingApproval ∨ flight.key ∉ s.listed then
          (expiredResponse false, s)
        else
          persisted e (e.now 1) (recordApproval o (e.now 0) flight.key request client code grantId s)
            (.redirect request.redirectUri [(js "code", code)] request.state)

/-- `finally { approving.delete(found.key) }` -/
def loginSettled (o : Options) (e : Env) (flight : Flight) (outcome : LoginOutcome)
    (code grantId : Text) (s : Store) : Reply × Store :=
  let (reply, s) := settleLogin o e flight outcome code grantId s
  (reply, { s with approving := s.approving.filter fun other => other.key ≠ flight.key })

/-- Revokes and persists; a failed write throws with the grant gone from memory. -/
def revokeAndPersist (e : Env) (t : ℤ) (grantId : Text) (reply : Reply) (s : Store) :
    Reply × Store :=
  persisted e t (revokeGrant s grantId) reply

/-- The shared end of an exchange and a refresh: `spent` has the presented code or
token marked as used. A failed write puts the tables of `s` back. -/
def answerTokens (o : Options) (e : Env) (access refresh grantId clientId grantResource : Text)
    (scope : Option Text) (spent : Data) (facts : List Fact) (s : Store) : Reply × Store :=
  let minted := issueTokens spent (e.now 3) (o.digest access) (o.digest refresh) grantId clientId
    grantResource scope
  let (saved, after) := persist e (e.now 4) { s with data := minted }
  if saved then
    (.tokens access refresh (accessTtlMs / 1000) scope,
      { after with history := s.history ++ facts ++ [.minted (o.digest access) grantId] })
  else (notSaved, { after with data := s.data })

def exchangeCode (o : Options) (e : Env) (form : Form) (clientId access refresh : Text)
    (s : Store) : Reply × Store :=
  let key := o.digest (form.text "code")
  match s.data.codes.get? key with
  | none => (unknownGrant, s)
  | some record =>
    if record.used then
      revokeAndPersist e (e.now 1) record.grantId
        (invalidGrant "The authorization code was already used.") s
    else if record.expiresAt ≤ e.now 1 then
      (invalidGrant "The authorization code expired.", s)
    else if record.clientId ≠ clientId ∨ record.redirectUri ≠ form.text "redirect_uri" then
      (invalidGrant "The code does not match this request.", s)
    else if otherResource o form then (invalidTarget, s)
    else if !pkceMatches o (form.text "code_verifier") record.codeChallenge then
      (invalidGrant "PKCE verification failed.", s)
    else
      let spent := { s.data with codes := s.data.codes.set key { record with used := true } }
      answerTokens o e access refresh record.grantId record.clientId record.resource record.scope
        spent [.exchanged key] s

def refreshGrant (o : Options) (e : Env) (form : Form) (clientId access refresh : Text)
    (s : Store) : Reply × Store :=
  let key := o.digest (form.text "refresh_token")
  match s.data.tokens.get? key with
  | none => (invalidGrant "The refresh token is unknown.", s)
  | some record =>
    if record.kind ≠ .refresh then (invalidGrant "The refresh token is unknown.", s)
    else if record.clientId ≠ clientId then
      (invalidGrant "The refresh token belongs to another client.", s)
    else if record.used then
      revokeAndPersist e (e.now 1) record.grantId
        (invalidGrant "The refresh token was already used.") s
    else if record.expiresAt ≤ e.now 1 then (invalidGrant "The refresh token expired.", s)
    else if !s.data.grants.contains record.grantId then
      (invalidGrant "The grant was revoked.", s)
    else if otherResource o form then (invalidTarget, s)
    else
      let used := { record with
        used := true, expiresAt := min record.expiresAt (e.now 2 + spentRefreshTtlMs) }
      let spent := { s.data with tokens := s.data.tokens.set key used }
      answerTokens o e access refresh record.grantId record.clientId record.resource record.scope
        spent [] s

def token (o : Options) (e : Env) (form : Form) (access refresh : Text) (s : Store) :
    Reply × Store :=
  let clientId := form.text "client_id"
  let grantType := form.get (js "grant_type")
  if grantType ≠ some (js "authorization_code") ∧ grantType ≠ some (js "refresh_token") then
    (.error 400 (js "unsupported_grant_type") (js "Use authorization_code or refresh_token."), s)
  else match s.data.clients.get? clientId with
    | none => (invalidClient, s)
    | some client =>
      let s := touchClient s clientId (e.now 0)
      if grantType.getD [] ∉ client.grantTypes then
        (.error 400 (js "unauthorized_client") (js "The client was not registered for grant_type " ++ grantType.getD [] ++ js "."), s)
      else if grantType = some (js "authorization_code") then
        exchangeCode o e form clientId access refresh s
      else refreshGrant o e form clientId access refresh s

def revoke (o : Options) (e : Env) (form : Form) (s : Store) : Reply × Store :=
  let presented := form.text "token"
  if presented = [] then (.error 400 (js "invalid_request") (js "token is required."), s)
  else match s.data.tokens.get? (o.digest presented) with
    | none => (.done, s)
    | some record =>
      let clientId := form.text "client_id"
      if clientId = [] ∨ clientId = record.clientId then
        revokeAndPersist e (e.now 0) record.grantId .done s
      else (.done, s)

def verifyAccessToken (o : Options) (s : Store) (t : ℤ) (presented : Text) : Bool :=
  if presented = [] then false
  else match s.data.tokens.get? (o.digest presented) with
    | none => false
    | some record =>
      if record.kind ≠ .access then false
      else if record.expiresAt ≤ t then false
      else if record.resource ≠ resource o then false
      else s.data.grants.contains record.grantId

/-- One segment, with the secrets it would draw. -/
inductive Event where
  | register (fields : RegisterFields) (clientId : Text)
  | authorizeGet (params : Form) (requestId nonce : Text)
  | authorizePost (form : Form) (allowAttempt : Bool)
  | loginSettled (flight : Flight) (outcome : LoginOutcome) (code grantId : Text)
  | token (form : Form) (access refresh : Text)
  | revoke (form : Form)
  | sweep

/-- A failed write of the sweep is swallowed. -/
def sweep (e : Env) (s : Store) : Reply × Store := (.done, (prune s (e.now 0)).2)

def handle (o : Options) (e : Env) (event : Event) (s : Store) : Reply × Store :=
  match event with
  | .register fields clientId => register o e fields clientId s
  | .authorizeGet params requestId nonce => authorizeGet o e params requestId nonce s
  | .authorizePost form allowAttempt => authorizePost o e form allowAttempt s
  | .loginSettled flight outcome code grantId => loginSettled o e flight outcome code grantId s
  | .token form access refresh => token o e form access refresh s
  | .revoke form => revoke o e form s
  | .sweep => sweep e s

def Fact.ids : Fact → List Text
  | .approved request code grantId => [request, code, grantId]
  | .exchanged code => [code]
  | .minted token grantId => [token, grantId]
  | .revoked grantId => [grantId]

/-- No request and nothing handed out so far bears the id. -/
def Fresh (s : Store) (id : Text) : Prop :=
  s.requests.get? id = none ∧ ∀ fact ∈ s.history, id ∉ fact.ids

/-- The digest of a random secret and a random id are new, and a check settles
for an approval that is under way. -/
def Allowed (o : Options) (s : Store) : Event → Prop
  | .authorizeGet _ requestId _ => Fresh s (o.digest requestId)
  | .loginSettled flight _ code grantId =>
    flight ∈ s.approving ∧ Fresh s (o.digest code) ∧ Fresh s grantId
  | _ => True

instance (s : Store) (id : Text) : Decidable (Fresh s id) := instDecidableAnd

instance (o : Options) (s : Store) (event : Event) : Decidable (Allowed o s event) := by
  cases event <;> unfold Allowed <;> infer_instance

structure Label where
  env : Env
  event : Event

def maxSafeInteger : ℤ := 2 ^ 53 - 1

def isSafeInteger (n : ℤ) : Bool := -maxSafeInteger ≤ n && n ≤ maxSafeInteger

def trustedPending (e : Env) (key : Text) (record : PendingRequest) : Bool :=
  isSafeInteger record.createdAt && isSafeInteger record.expiresAt &&
    isSafeInteger record.refreshedAt && record.expiresAt = record.createdAt + pendingTtlMs &&
    e.verifyApproval (proofOf key record) record.signature

/-- Clients of an older file that hold a grant get its date. -/
def backfillGrantedAt (data : Data) : Data :=
  { data with clients := data.grants.values.foldl (fun clients grant =>
      clients.modify grant.clientId fun client =>
        { client with grantedAt := some (client.grantedAt.getD grant.createdAt) }) data.clients }

/-- `createOAuth` on the tables and pending requests of the state file. -/
def createOAuth (e : Env) (stored : Data) (storedPending : OrderedMap Text PendingRequest) :
    Store :=
  let requests := storedPending.filter (trustedPending e)
  ⟨backfillGrantedAt stored, requests, requests.entries.map Prod.fst, [], []⟩

def service (o : Options) : System Store Label where
  start s := ∃ e stored storedPending, s = createOAuth e stored storedPending
  step s label s' := Allowed o s label.event ∧ s' = (handle o label.env label.event s).2

end Ultrathink.Source.OAuth
