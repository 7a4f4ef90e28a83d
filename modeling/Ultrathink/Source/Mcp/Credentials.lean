import Ultrathink.Library.JsText
import Ultrathink.Library.Mutex

/-!
# The credentials of the relay (`mcp/oauth.ts`, `mcp/store.ts`)

What `resolveAuthHeader`, `recoverUnauthorized`, `beginLogin`, `completeLogin`, `setApiKey` and
`logout` do with the credential store and the token endpoints, one segment between two awaits
at a time. Any number of processes share the store; `withStoreLock` is the section where one
of them stands alone. Checks of arguments, the metadata of a login and the verifier of its
code come before the segments modelled here and touch neither. Times are whole milliseconds.
-/

namespace Ultrathink.Source.Mcp.Credentials

open Library JsText Mutex

abbrev Provider := Text

structure OAuthClient where
  clientId : Text
  clientSecret : Option Text
  redirectUri : Text
  issuer : Text
  authorizationEndpoint : Text
  tokenEndpoint : Text
  registeredAt : Int
  deriving DecidableEq

structure OAuthTokens where
  accessToken : Text
  refreshToken : Option Text
  expiresAt : Option Int
  scope : Option Text
  deriving DecidableEq

inductive Credential where
  | apiKey (key : Text) (updatedAt : Int)
  | oauth (client : OAuthClient) (tokens : Option OAuthTokens) (needsLogin : Option Text) (updatedAt : Int)
  deriving DecidableEq

/-- `CredentialStore.providers` -/
abbrev Store := Provider → Option Credential

/-- A text that is present and not empty. -/
def truthy (t : Option Text) : Option Text := t.filter (· ≠ [])

def tokensOf (store : Store) (provider : Provider) : Option OAuthTokens :=
  match store provider with
  | some (.oauth _ tokens _ _) => tokens
  | _ => none

/-- The refresh token that the store holds. -/
def refreshOf (store : Store) (provider : Provider) : Option Text :=
  (tokensOf store provider).bind fun tokens => truthy tokens.refreshToken

/-- The tokens of a login that is not known to be over. -/
def usable : Option Credential → Option OAuthTokens
  | some (.oauth _ tokens needsLogin _) => if (truthy needsLogin).isSome then none else tokens
  | _ => none

/-- What a request to the token endpoint brings: tokens, a status with the text of `error`, or
nothing at all. -/
inductive Response where
  | granted (accessToken : Text) (refreshToken : Option Text) (expiresIn : Option Int) (scope : Option Text)
  | refused (status : Nat) (code : Option Text)
  | unreachable

inductive TokenError where
  | endpoint (status : Nat) (code : Option Text)
  | other

def TokenError.terminal : TokenError → Bool
  | .endpoint status code => code = some (js "invalid_grant") || status = 400 || status = 401
  | .other => false

def bearer (accessToken : Text) : Text := js "Bearer " ++ accessToken

def MAX_ACCESS_TOKEN_CHARS : Nat := 8192

/-- `AUTH_HEADER.validate(...).valid` -/
def validHeader (header : Text) : Bool :=
  header.length ≤ (js "Bearer ").length + MAX_ACCESS_TOKEN_CHARS && header.all fun u => 0x1F < u && u ≠ 0x7F

/-- `tokenRequest` once it is answered; `refreshToken` is the one of its parameters. -/
def tokenRequest (refreshToken : Option Text) (response : Response) (now : Int) :
    Except TokenError OAuthTokens :=
  match response with
  | .granted accessToken given expiresIn scope =>
    if validHeader (bearer accessToken) then
      .ok ⟨accessToken, given.or refreshToken, expiresIn.map fun seconds => now + seconds * 1000, scope⟩
    else .error .other
  | .refused status code => .error (.endpoint status code)
  | .unreachable => .error .other

/-- What is done in the section. -/
inductive Job where
  | resolve (provider : Provider)
  | recover (provider : Provider) (failedHeader : Option Text)
  | begin_ (provider : Provider) (redirectUri issuer authorizationEndpoint tokenEndpoint : Text)
      (registrationEndpoint : Option Text)
  | complete (provider : Provider) (client : OAuthClient) (tokens : OAuthTokens)
  | setApiKey (provider : Provider) (key : Text)
  | logout (provider : Provider)

def Job.provider : Job → Provider
  | resolve provider => provider
  | recover provider _ => provider
  | begin_ provider _ _ _ _ _ => provider
  | complete provider _ _ => provider
  | setApiKey provider _ => provider
  | logout provider => provider

inductive Event where
  /-- A job has read the store in the section. -/
  | read (job : Job)
  /-- A refresh token is sent to the token endpoint of the provider. -/
  | sent (provider : Provider) (token : Text)
  /-- The request with this refresh token has brought these tokens. -/
  | exchanged (provider : Provider) (token : Text) (tokens : OAuthTokens)
  /-- `writeStore` has replaced the one store by the other. -/
  | wrote (job : Job) (before after : Store)

structure Shared where
  file : Store
  /-- The refresh tokens that the endpoints have given so far. -/
  issued : List (Provider × Text)
  /-- The latest first. -/
  log : List Event

/-- A token endpoint gives no refresh token twice. -/
def issue (provider : Provider) (response : Response) (s : Shared) : Option Shared :=
  match response with
  | .granted _ given _ _ =>
    match truthy given with
    | none => some s
    | some token =>
      if (provider, token) ∈ s.issued then none
      else some { s with issued := (provider, token) :: s.issued }
  | _ => some s

inductive Result where
  | header (header : Option Text)
  | recovered (recovered : Bool)
  | client (client : OAuthClient)
  | stored
  | thrown

/-- Where a process stands outside the section. -/
inductive Stand where
  | idle
  /-- The code of a login is on its way to the token endpoint. -/
  | exchangingCode (provider : Provider) (client : OAuthClient)
  | calling

/-- Where it stands in the section, with the store that it has read. -/
inductive Spot where
  | reading (job : Job)
  | sending (job : Job) (store : Store) (client : OAuthClient) (tokens : OAuthTokens) (token : Text)
  | awaiting (job : Job) (store : Store) (client : OAuthClient) (tokens : OAuthTokens) (token : Text)
  | registering (job : Job) (store : Store)
  | writing (job : Job) (store : Store) (result : Result)

/-- What the surroundings choose at a step. -/
inductive Choice where
  | resolve (provider : Provider) (now : Int)
  | call (job : Job)
  | login (provider : Provider) (client : OAuthClient)
  | go (now : Int)
  | answered (response : Response) (now : Int)
  | registered (answer : Option (Text × Option Text)) (now : Int)
  | written (fails : Bool)

def REFRESH_SKEW_MS : Int := 60000

def lasts (tokens : OAuthTokens) (now : Int) : Bool :=
  match tokens.expiresAt with
  | none => true
  | some expiresAt => REFRESH_SKEW_MS < expiresAt - now

def start (s : Shared) : Prop :=
  s.log = [] ∧ ∀ provider token, refreshOf s.file provider = some token → (provider, token) ∈ s.issued

/-- `resolveAuthHeader` looks at the store first and mostly needs no lock, `recoverUnauthorized`
gives up without a login, and a login exchanges its code before it takes the lock. -/
def outer (_ : Nat → Bool) (_ : Nat) (s : Shared) (stand : Stand) (c : Choice) :
    Option (Shared × Stand × Option Spot) :=
  match stand, c with
  | .idle, .resolve provider now =>
    match usable (s.file provider) with
    | none => some (s, .idle, none)
    | some tokens =>
      if lasts tokens now then some (s, .idle, none)
      else some (s, .calling, some (.reading (.resolve provider)))
  | .idle, .call (.recover provider failedHeader) =>
    match s.file provider with
    | some (.oauth _ _ _ _) => some (s, .calling, some (.reading (.recover provider failedHeader)))
    | _ => some (s, .idle, none)
  | .idle, .call (.begin_ provider redirectUri issuer authorizationEndpoint tokenEndpoint registration) =>
    some (s, .calling,
      some (.reading (.begin_ provider redirectUri issuer authorizationEndpoint tokenEndpoint registration)))
  | .idle, .call (.setApiKey provider key) => some (s, .calling, some (.reading (.setApiKey provider key)))
  | .idle, .call (.logout provider) => some (s, .calling, some (.reading (.logout provider)))
  | .idle, .login provider client => some (s, .exchangingCode provider client, none)
  | .exchangingCode provider client, .answered response now =>
    (issue provider response s).map fun s =>
      match tokenRequest none response now with
      | .ok tokens => (s, .calling, some (.reading (.complete provider client tokens)))
      | .error _ => (s, .idle, none)
  | _, _ => none

variable (isHttps : Text → Bool)

/-- The job in the section from its read of the store to the next await. -/
def plan (job : Job) (store : Store) (now : Int) : Spot ⊕ Result :=
  match job with
  | .resolve provider =>
    match store provider with
    | some (.oauth client (some tokens) needsLogin _) =>
      if (truthy needsLogin).isSome then .inl (.writing job store (.header none))
      else if lasts tokens now then .inl (.writing job store (.header (some (bearer tokens.accessToken))))
      else
        match truthy tokens.refreshToken with
        | some token => .inl (.sending job store client tokens token)
        | none =>
          let header := if tokens.expiresAt.any (now < ·) then some (bearer tokens.accessToken) else none
          .inl (.writing job store (.header header))
    | _ => .inl (.writing job store (.header none))
  | .recover provider failedHeader =>
    match store provider with
    | some (.oauth client (some tokens) needsLogin _) =>
      if (truthy needsLogin).isSome then .inl (.writing job store (.recovered false))
      else if some (bearer tokens.accessToken) ≠ failedHeader then .inl (.writing job store (.recovered true))
      else
        match truthy tokens.refreshToken with
        | some token => .inl (.sending job store client tokens token)
        | none =>
          let rejected := Credential.oauth client (some tokens) (some (js "access token rejected")) now
          .inl (.writing job (Function.update store provider (some rejected)) (.recovered false))
    | _ => .inl (.writing job store (.recovered false))
  | .begin_ provider redirectUri _ authorizationEndpoint _ registrationEndpoint =>
    let register : Spot ⊕ Result :=
      if registrationEndpoint.isSome then .inl (.registering job store) else .inr .thrown
    match store provider with
    | some (.oauth client _ _ _) =>
      if client.redirectUri = redirectUri ∧ client.authorizationEndpoint = authorizationEndpoint ∧
          isHttps client.tokenEndpoint then .inl (.writing job store (.client client))
      else register
    | _ => register
  | .complete provider client tokens =>
    .inl (.writing job (Function.update store provider (some (.oauth client (some tokens) none now))) .stored)
  | .setApiKey provider key =>
    .inl (.writing job (Function.update store provider (some (.apiKey key now))) .stored)
  | .logout provider => .inl (.writing job (Function.update store provider none) .stored)

/-- What the job makes of the header that `refreshLocked` returns. -/
def refreshed : Job → Option Text → Result
  | .recover _ _, header => .recovered header.isSome
  | _, header => .header header

/-- `needsLogin` after a terminal refusal. -/
def loginReason : TokenError → Text
  | .endpoint status none => js "HTTP " ++ js (toString status)
  | .endpoint _ (some code) => code
  | .other => []

/-- `refreshLocked` once the token endpoint has answered. -/
def refreshLocked (job : Job) (store : Store) (client : OAuthClient) (tokens : OAuthTokens) (token : Text)
    (response : Response) (now : Int) : Spot ⊕ Result :=
  let put := fun credential => Function.update store job.provider (some credential)
  match tokenRequest (some token) response now with
  | .ok fresh =>
    .inl (.writing job (put (.oauth client (some fresh) none now))
      (refreshed job (some (bearer fresh.accessToken))))
  | .error error =>
    if error.terminal then
      .inl (.writing job (put (.oauth client (some tokens) (some (loginReason error)) now)) (refreshed job none))
    else .inr .thrown

/-- A client that was registered, kept unless there are tokens or a key. -/
def registered (job : Job) (store : Store) (answer : Option (Text × Option Text)) (now : Int) :
    Spot ⊕ Result :=
  match job, answer with
  | .begin_ provider redirectUri issuer authorizationEndpoint tokenEndpoint _, some (clientId, clientSecret) =>
    let client : OAuthClient :=
      ⟨clientId, clientSecret, redirectUri, issuer, authorizationEndpoint, tokenEndpoint, now⟩
    let put := Function.update store provider (some (.oauth client none none now))
    match store provider with
    | none => .inl (.writing job put (.client client))
    | some (.oauth _ none _ _) => .inl (.writing job put (.client client))
    | some _ => .inl (.writing job store (.client client))
  | _, _ => .inr .thrown

/-- What is exchanged for the token, in the log. -/
def noteExchange (provider : Provider) (token : Text) (response : Response) (now : Int) (s : Shared) : Shared :=
  match tokenRequest (some token) response now with
  | .ok tokens => { s with log := .exchanged provider token tokens :: s.log }
  | .error _ => s

def inner (_ : Nat → Bool) (_ : Nat) (s : Shared) (stand : Stand) (spot : Spot) (c : Choice) :
    Option (Shared × Stand × (Spot ⊕ Result)) :=
  match spot, c with
  | .reading job, .go now =>
    some ({ s with log := .read job :: s.log }, stand, plan isHttps job s.file now)
  | .sending job store client tokens token, .go _ =>
    some ({ s with log := .sent job.provider token :: s.log }, stand,
      .inl (.awaiting job store client tokens token))
  | .awaiting job store client tokens token, .answered response now =>
    (issue job.provider response s).map fun s =>
      (noteExchange job.provider token response now s, stand,
        refreshLocked job store client tokens token response now)
  | .registering job store, .registered answer now => some (s, stand, registered job store answer now)
  | .writing job store result, .written fails =>
    if fails then some (s, stand, .inr .thrown)
    else some ({ s with file := store, log := .wrote job s.file store :: s.log }, stand, .inr result)
  | _, _ => none

def processes : Program Shared Stand Spot Result Choice :=
  ⟨start, .idle, fun _ _ => none, outer, inner isHttps, fun _ _ => .idle⟩

end Ultrathink.Source.Mcp.Credentials
