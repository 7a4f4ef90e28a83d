import Ultrathink.Source.Claude.Atomic

/-!
# The file lock

`withFileLock`, `acquire` and `release` of `claude/atomic.ts` as a program around the
mutation guard. Tokens are random and never repeat. The clock of `now` may lag behind
the one that stamps files, never run ahead of it.
-/

namespace Ultrathink.Source.Claude.FileLock

open Library.Mutex

structure LockOptions where
  staleMs : Nat
  timeoutMs : Nat

/-- A lock file; the token is none while its creator has not written it. -/
structure LockFile where
  ino : Nat
  token : Option Nat
  mtimeMs : Nat
  deriving DecidableEq

structure Disk where
  lock : Option LockFile
  inodes : Nat
  tokens : Nat
  clock : Nat
  deriving DecidableEq

/-- Where a process stands outside the guard: `acquire` before a call of the guard or
after one that got no lock, `fn` with the lock, `release` before and after a call, or
`fn` without the lock. `since` is the time at which the token was written. -/
inductive Stand where
  | idle
  | acquiring (token started tries : Nat)
  | waiting (token started tries : Nat)
  | critical (token since : Nat)
  | releasing (token started tries : Nat)
  | releaseWaiting (token started tries : Nat)
  | unlocked
  deriving DecidableEq

/-- Where a callback stands: the calls of `acquire` and `reclaimStale`, then those of
`release`. -/
inductive Spot where
  | openLock
  | writeToken (ino : Nat)
  | unlinkBroken
  | closeLock (since : Nat)
  | readClock
  | statLock (seen : Nat)
  | unlinkStale
  | readToken
  | unlinkToken
  deriving DecidableEq

/-- What a callback returns; `retry` is what `reclaimStale` makes of the lock. -/
inductive Result where
  | taken (since : Nat)
  | retry (again : Bool)
  | threw
  | released
  deriving DecidableEq

/-- What the surroundings choose at a step: an error of the file system and the time. -/
structure Choice where
  fails : Bool
  now : Nat

/-- The token of a lock file that a dead process left is not drawn again. -/
def start (d : Disk) : Prop :=
  ∀ file token, d.lock = some file → file.token = some token → token < d.tokens

def first : Stand := .idle

/-- Time passes. -/
def world (d : Disk) (c : Choice) : Option Disk :=
  if d.clock ≤ c.now then some { d with clock := c.now } else none

def outer (o : LockOptions) (_ : Nat → Bool) (_ : Nat) (d : Disk) (stand : Stand) (c : Choice) :
    Option (Disk × Stand × Option Spot) :=
  match stand with
  | .idle =>
    some ({ d with tokens := d.tokens + 1 }, .acquiring d.tokens c.now 0, none)
  | .acquiring token started tries => some (d, .acquiring token started tries, some .openLock)
  | .waiting token started tries =>
    if started + o.timeoutMs ≤ c.now then some (d, .unlocked, none)
    else some (d, .acquiring token started (tries + 1), none)
  | .critical token _ => some (d, .releasing token c.now 0, none)
  | .releasing token started tries =>
    some (d, .releasing token started tries, some .readToken)
  | .releaseWaiting token started tries =>
    if started + o.timeoutMs ≤ c.now || 1000 ≤ tries + 1 then some (d, .idle, none)
    else some (d, .releasing token started (tries + 1), none)
  | .unlocked => some (d, .idle, none)

/-- The token of the call of `withFileLock`. -/
def Stand.token : Stand → Option Nat
  | .acquiring token _ _ | .waiting token _ _ | .critical token _ | .releasing token _ _
  | .releaseWaiting token _ _ => some token
  | .idle | .unlocked => none

def inner (o : LockOptions) (_ : Nat → Bool) (_ : Nat) (d : Disk) (stand : Stand) (spot : Spot)
    (c : Choice) : Option (Disk × Stand × (Spot ⊕ Result)) :=
  match spot with
  | .openLock =>
    if c.fails then some (d, stand, .inr .threw)
    else
      match d.lock with
      | none =>
        some ({ d with lock := some ⟨d.inodes, none, d.clock⟩, inodes := d.inodes + 1 }, stand,
          .inl (.writeToken d.inodes))
      | some _ => some (d, stand, .inl .readClock)
  | .writeToken ino =>
    if c.fails then some (d, stand, .inl .unlinkBroken)
    else
      -- The descriptor writes to its own file, whatever stands at the path.
      let written := d.lock.map fun file =>
        if file.ino = ino then { file with token := stand.token, mtimeMs := d.clock } else file
      some ({ d with lock := written }, stand, .inl (.closeLock d.clock))
  | .unlinkBroken =>
    if c.fails then some (d, stand, .inr .threw)
    else some ({ d with lock := none }, stand, .inr .threw)
  | .closeLock since =>
    if c.fails then some (d, stand, .inr .threw) else some (d, stand, .inr (.taken since))
  | .readClock => if c.now ≤ d.clock then some (d, stand, .inl (.statLock c.now)) else none
  | .statLock seen =>
    match d.lock with
    | none => some (d, stand, .inr (.retry true))
    | some file =>
      if c.fails || seen ≤ file.mtimeMs + o.staleMs then some (d, stand, .inr (.retry false))
      else some (d, stand, .inl .unlinkStale)
  | .unlinkStale =>
    match d.lock with
    | none => some (d, stand, .inr (.retry true))
    | some _ =>
      if c.fails then some (d, stand, .inr (.retry false))
      else some ({ d with lock := none }, stand, .inr (.retry true))
  | .readToken =>
    if !c.fails && d.lock.any (fun file => file.token.isSome && file.token = stand.token) then
      some (d, stand, .inl .unlinkToken)
    else some (d, stand, .inr .released)
  | .unlinkToken =>
    if c.fails then some (d, stand, .inr .released)
    else some ({ d with lock := none }, stand, .inr .released)

/-- What `acquire` and `release`, which alone call the guard, make of a call of it. -/
def resume (stand : Stand) (outcome : Outcome Result) : Stand :=
  match stand, outcome with
  | .acquiring token _ _, .returned (.taken since) => .critical token since
  | .acquiring token started tries, .returned (.retry again) =>
    if again && tries < 1000 then .acquiring token started (tries + 1)
    else .waiting token started tries
  | .acquiring token started tries, .busy => .waiting token started tries
  | .acquiring _ _ _, _ => .unlocked
  | .releasing token started tries, .busy => .releaseWaiting token started tries
  | _, _ => .idle

def withFileLock (o : LockOptions) : Program Disk Stand Spot Result Choice :=
  ⟨start, first, world, outer o, inner o, resume⟩

end Ultrathink.Source.Claude.FileLock
