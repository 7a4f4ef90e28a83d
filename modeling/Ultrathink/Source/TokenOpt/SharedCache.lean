import Mathlib.Algebra.Group.Nat.Defs
import Ultrathink.Library.Runs

/-!
# The breaker of the shared cache

`createSharedCache` of `omp-token-opt/src/shared-cache.ts`: when a call may reach Redis.
`get`, `set` and `acquire` all go through `run`, which asks `admit` at once and reports
its outcome when the operation or its timeout settles. What is in flight between the two
is known by number.
-/

namespace Ultrathink.Source.TokenOpt.SharedCache

open Library.Runs

def MAX_TIMER_MS : Nat := 2147483647

/-- What `requireInteger` lets through. -/
structure SharedCacheOptions where
  enabled : Bool
  timeoutMs : Nat
  breakerThreshold : Nat
  breakerCooldownMs : Nat
  timeout_range : 1 ≤ timeoutMs ∧ timeoutMs ≤ MAX_TIMER_MS
  threshold_range : 1 ≤ breakerThreshold ∧ breakerThreshold ≤ 2 ^ 53 - 1
  cooldown_range : breakerCooldownMs ≤ MAX_TIMER_MS

/-- An admitted call that has not settled. It is a probe when it passed an open window. -/
structure Request where
  id : Nat
  probe : Bool
  started : Nat
  deriving DecidableEq

/-- `openUntil` is the epoch time until which the breaker stays open; 0 means closed. -/
structure Cache where
  clock : Nat
  closed : Bool
  consecutiveFailures : Nat
  openUntil : Nat
  inFlight : List Request

/-- The answer, and the state: the first caller past the cooldown extends the window. -/
def admits (o : SharedCacheOptions) (c : Cache) : Bool × Cache :=
  if !o.enabled || c.closed then (false, c)
  else if c.openUntil = 0 then (true, c)
  else if c.clock < c.openUntil then (false, c)
  else (true, { c with openUntil := c.clock + o.breakerCooldownMs })

def recordSuccess (c : Cache) : Cache := { c with consecutiveFailures := 0, openUntil := 0 }

def recordFailure (o : SharedCacheOptions) (c : Cache) : Cache :=
  if o.breakerThreshold ≤ c.consecutiveFailures + 1 then
    { c with
      consecutiveFailures := c.consecutiveFailures + 1
      openUntil := c.clock + o.breakerCooldownMs }
  else { c with consecutiveFailures := c.consecutiveFailures + 1 }

/-- The first part of `run`. A refused call gets its fallback and leaves nothing behind. -/
def request (o : SharedCacheOptions) (id : Nat) (c : Cache) : Cache :=
  let (admitted, after) := admits o c
  if admitted then
    { after with inFlight := ⟨id, c.openUntil ≠ 0, c.clock⟩ :: c.inFlight }
  else after

/-- The rest of `run`: `withTimeout` has settled. -/
def settle (o : SharedCacheOptions) (id : Nat) (succeeded : Bool) (c : Cache) : Cache :=
  let after := if succeeded then recordSuccess c else recordFailure o c
  { after with inFlight := c.inFlight.filter fun r => r.id ≠ id }

/-- `state() === "open"` -/
def isOpen (o : SharedCacheOptions) (c : Cache) : Bool :=
  o.enabled && !c.closed && c.clock < c.openUntil

inductive Label where
  | passes (now : Nat)
  | request (id : Nat)
  | settle (id : Nat) (succeeded : Bool)
  | close

def advance (o : SharedCacheOptions) (c : Cache) : Label → Option Cache
  | .passes now => if c.clock ≤ now then some { c with clock := now } else none
  | .request id => if ∃ r ∈ c.inFlight, r.id = id then none else some (request o id c)
  | .settle id succeeded =>
    if ∃ r ∈ c.inFlight, r.id = id then some (settle o id succeeded c) else none
  | .close => some { c with closed := true }

/-- `createSharedCache`, at any time. -/
def sharedCache (o : SharedCacheOptions) : System Cache Label :=
  .ofStep (fun c => ∃ clock, c = ⟨clock, false, 0, 0, []⟩) (advance o)

end Ultrathink.Source.TokenOpt.SharedCache
