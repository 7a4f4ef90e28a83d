import Ultrathink.Library.Runs
import Ultrathink.Source.Auth.FixedWindow

/-!
# Owner login

`login` of `auth/auth.ts`, cut at the awaited password check: `loginStart` runs
to the check and reserves a slot for the client address and one for the owner,
`loginFinish` runs from its verdict on. `throttle` lets any number of logins run
side by side. Its `attempts` are the calls made so far, each with the windows it
was counted in: the calls that wait for their check belong to the program, the
record of the others to the statements about it.
-/

namespace Ultrathink.Source.Auth

open Library JsText Runs

def loginWindowMs : ℤ := 15 * 60 * 1000
def loginAttemptsPerIp : Nat := 5
def ownerFailuresPerWindow : Nat := 10
def sessionLifetimeMs : ℤ := 12 * 60 * 60 * 1000
def ownerKey : Text := js "owner"
def maxPasswordChars : Nat := 1024
def maxIdentityChars : Nat := 64

structure StringValidator where
  allowEmpty : Bool
  maxLength : Nat
  pattern : Text → Bool

/-- The code of the first check that fails. -/
def StringValidator.validate (v : StringValidator) (t : Text) : Option Text :=
  if !v.allowEmpty && t.length = 0 then some (js "EMPTY_STRING")
  else if v.maxLength < t.length then some (js "TOO_LONG")
  else if !v.pattern t then some (js "PATTERN_MISMATCH")
  else none

def noControl (t : Text) : Bool := t.all (fun u => !(u ≤ 0x1F || u = 0x7F))

def passwordInput : StringValidator := ⟨true, maxPasswordChars, fun _ => true⟩

def identityInput : StringValidator := ⟨false, maxIdentityChars, noControl⟩

/-- `/^\$(?:argon2(?:id|i|d)|2[abxy]?)\$/`. -/
def hashFormat (hash : Text) : Bool :=
  [js "$argon2id$", js "$argon2i$", js "$argon2d$", js "$2$", js "$2a$", js "$2b$", js "$2x$",
    js "$2y$"].any (fun lead => lead.isPrefixOf hash)

/-- What the service was created with: the hash of the owner's password, the password
verifier (`none` when it throws) and the signer of session cookies. -/
structure AuthOptions where
  ownerPasswordHash : Text
  verify : Text → Text → Option Bool
  cookieSecure : Bool
  signingKid : Text
  sessionMac : ℤ → Text

def passwordMatches (o : AuthOptions) (password : Text) : Bool :=
  hashFormat o.ownerPasswordHash && (o.verify password o.ownerPasswordHash).getD false

def sessionCookieName (cookieSecure : Bool) : Text :=
  if cookieSecure then js "__Host-ut_session" else js "ut_session"

def cookieHeader (o : AuthOptions) (value : Text) (maxAgeSec : ℤ) : Text :=
  join (js "; ") ([sessionCookieName o.cookieSecure ++ js "=" ++ value, js "Path=/", js "HttpOnly",
    js "SameSite=Strict", js "Max-Age=" ++ ofNat maxAgeSec.toNat] ++
    if o.cookieSecure then [js "Secure"] else [])

inductive LoginResult where
  | ok (setCookie : Text)
  | invalid
  | rateLimited (retryAfterSec : ℤ)
  deriving DecidableEq

structure AuthState where
  loginsByIp : FixedWindowLimiter
  ownerFailures : FixedWindowLimiter

def AuthState.new : AuthState := ⟨.new maxTrackedKeys, .new maxTrackedKeys⟩

def retryAfterOf (hit : Option Hit) (windowMs : ℤ) : ℤ :=
  match hit with
  | some h => h.retryAfterSec
  | none => ceilSeconds windowMs

/-- `!hit || hit.count > limit`. -/
def exceeds (hit : Option Hit) (limit : Nat) : Bool :=
  match hit with
  | some h => limit < h.count
  | none => true

/-- To the password check; a result means that the call ended before it. -/
def loginStart (s : AuthState) (password clientIp : Text) (t1 t2 : ℤ) :
    AuthState × Option LoginResult :=
  if (passwordInput.validate password).isSome then (s, some .invalid)
  else if (identityInput.validate clientIp).isSome then (s, some .invalid)
  else
    let perIp := s.loginsByIp.hit clientIp loginWindowMs t1
    let s := { s with loginsByIp := perIp.1 }
    if exceeds perIp.2 loginAttemptsPerIp then
      (s, some (.rateLimited (retryAfterOf perIp.2 loginWindowMs)))
    else
      -- An owner slot is reserved before the check, so that concurrent calls cannot all pass.
      let perOwner := s.ownerFailures.hit ownerKey loginWindowMs t2
      let s := { s with ownerFailures := perOwner.1 }
      if exceeds perOwner.2 ownerFailuresPerWindow then
        (s, some (.rateLimited (retryAfterOf perOwner.2 loginWindowMs)))
      else (s, none)

/-- From the verdict of the password check on: a success gives both slots back. -/
def loginFinish (o : AuthOptions) (s : AuthState) (password clientIp : Text) (t1 t2 t3 : ℤ) :
    AuthState × LoginResult :=
  if passwordMatches o password then
    let expiresAt := t3 + sessionLifetimeMs
    let value := o.signingKid ++ js "." ++ ofNat expiresAt.toNat ++ js "." ++ o.sessionMac expiresAt
    (⟨s.loginsByIp.release clientIp t2, s.ownerFailures.release ownerKey t1⟩,
      .ok (cookieHeader o value (sessionLifetimeMs / 1000)))
  else (s, .invalid)

inductive Scope where
  | ip
  | owner
  deriving DecidableEq

def Scope.limit : Scope → Nat
  | .ip => loginAttemptsPerIp
  | .owner => ownerFailuresPerWindow

def AuthState.limiter (s : AuthState) : Scope → FixedWindowLimiter
  | .ip => s.loginsByIp
  | .owner => s.ownerFailures

inductive Stage where
  | refused
  | checking
  | failed
  | succeeded
  deriving DecidableEq

/-- A login call, with the end of the window of each scope that it was counted in. -/
structure Attempt where
  password : Text
  clientIp : Text
  ipWindow : Option ℤ
  ownerWindow : Option ℤ
  stage : Stage
  deriving DecidableEq

/-- The key and the window that the call was counted in. -/
def Attempt.slot (a : Attempt) : Scope → Option (Text × ℤ)
  | .ip => a.ipWindow.map (fun r => (a.clientIp, r))
  | .owner => a.ownerWindow.map (fun r => (ownerKey, r))

/-- The end of the window that a hit on `key` was counted in. -/
def countedIn (hit : FixedWindowLimiter × Option Hit) (key : Text) : Option ℤ :=
  match hit.2 with
  | some _ => (hit.1.windows.get? key).map Window.resetAt
  | none => none

/-- The record of a call, from the hits that `loginStart` makes. -/
def attemptOf (s : AuthState) (password clientIp : Text) (t1 t2 : ℤ) : Attempt :=
  let perIp := s.loginsByIp.hit clientIp loginWindowMs t1
  let perOwner := s.ownerFailures.hit ownerKey loginWindowMs t2
  if (passwordInput.validate password).isSome || (identityInput.validate clientIp).isSome then
    ⟨password, clientIp, none, none, .refused⟩
  else if exceeds perIp.2 loginAttemptsPerIp then
    ⟨password, clientIp, countedIn perIp clientIp, none, .refused⟩
  else
    ⟨password, clientIp, countedIn perIp clientIp, countedIn perOwner ownerKey,
      if exceeds perOwner.2 ownerFailuresPerWindow then .refused else .checking⟩

structure Throttle where
  auth : AuthState
  clock : ℤ
  attempts : List Attempt

inductive Label where
  | start (password clientIp : Text) (t1 t2 : ℤ)
  | finish (i : Nat) (t1 t2 t3 : ℤ)

def Throttle.next (o : AuthOptions) (s : Throttle) : Label → Throttle
  | .start password clientIp t1 t2 =>
    ⟨(loginStart s.auth password clientIp t1 t2).1, t2,
      s.attempts ++ [attemptOf s.auth password clientIp t1 t2]⟩
  | .finish i t1 t2 t3 =>
    match s.attempts[i]? with
    | some a =>
      ⟨(loginFinish o s.auth a.password a.clientIp t1 t2 t3).1, t3,
        s.attempts.set i
          { a with stage := if passwordMatches o a.password then .succeeded else .failed }⟩
    | none => s

/-- The clock only advances, and only a call that waits for its check can go on. -/
def Throttle.Enabled (s : Throttle) : Label → Prop
  | .start _ _ t1 t2 => s.clock ≤ t1 ∧ t1 ≤ t2
  | .finish i t1 t2 t3 =>
    (∃ a, s.attempts[i]? = some a ∧ a.stage = .checking) ∧ s.clock ≤ t1 ∧ t1 ≤ t2 ∧ t2 ≤ t3

instance (s : Throttle) (label : Label) : Decidable (s.Enabled label) :=
  match label with
  | .start _ _ t1 t2 => inferInstanceAs (Decidable (s.clock ≤ t1 ∧ t1 ≤ t2))
  | .finish i t1 t2 t3 =>
    have : Decidable (∃ a, s.attempts[i]? = some a ∧ a.stage = .checking) :=
      match s.attempts[i]? with
      | some a => decidable_of_iff (a.stage = .checking) (by simp)
      | none => .isFalse (by simp)
    inferInstanceAs (Decidable (_ ∧ s.clock ≤ t1 ∧ t1 ≤ t2 ∧ t2 ≤ t3))

end Ultrathink.Source.Auth
