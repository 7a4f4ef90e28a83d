import Ultrathink.Library.Sha256
import Ultrathink.Source.Auth.FixedWindow
import Mathlib.Data.Rat.Floor

/-!
# Request limits

`allowRequest` and `allowApprovalAttempt` of `auth/auth.ts`, from their limiters on: the hits
that one call makes, one after the other until one is refused. Each hit reads the clock once.
The checks that throw on a malformed argument are left out; scales are exact.
-/

namespace Ultrathink.Source.Auth.RequestLimit

open List Library JsText FixedWindowLimiter

def approvalWindowMs : ℤ := 60 * 1000
def approvalAttemptsPerWindow : Nat := 2

/-- A scale that is given: finite, or any other value. -/
inductive Scale where
  | finite (scale : ℚ)
  | other

inductive RequestScope where
  | ip
  | principal
  | owner
  deriving DecidableEq

inductive Decision where
  | ok
  | refused (retryAfterSec : ℤ) (scope : RequestScope)
  deriving DecidableEq

/-- A hit of `key` that is accepted up to `limit` in its window. -/
structure Acquisition where
  key : Text
  limit : Nat
  at_ : ℤ
  deriving DecidableEq

def isAccepted (hit : Option Hit) (limit : Nat) : Bool := hit.any fun h => h.count ≤ limit

def retryAfterOf (hit : Option Hit) (windowMs : ℤ) : ℤ :=
  match hit with
  | some h => h.retryAfterSec
  | none => ceilSeconds windowMs

/-- The hits in order, up to the first that is refused. -/
def hits (windowMs : ℤ) (l : FixedWindowLimiter) :
    List (RequestScope × Acquisition) → FixedWindowLimiter × Decision
  | [] => (l, .ok)
  | (scope, a) :: rest =>
    let hit := l.hit a.key windowMs a.at_
    if isAccepted hit.2 a.limit then hits windowMs hit.1 rest
    else (hit.1, .refused (retryAfterOf hit.2 windowMs) scope)

structure Request where
  clientIp : Text
  ownerId : Text
  principal : Option Text
  ownerLimit : Option ℚ
  scale : Option Scale

def allowApprovalAttempt (approvalAttempts : FixedWindowLimiter) (clientIp : Text) (t : ℤ) :
    FixedWindowLimiter × Decision :=
  hits approvalWindowMs approvalAttempts [(.ip, ⟨clientIp, approvalAttemptsPerWindow, t⟩)]

/-- One acquisition, whatever is decided from it. -/
def acquire (windowMs : ℤ) (l : FixedWindowLimiter) (a : Acquisition) : FixedWindowLimiter :=
  (l.hit a.key windowMs a.at_).1

end Ultrathink.Source.Auth.RequestLimit
