import Ultrathink.Library.Runs
import Ultrathink.Library.Processes

/-!
# The credential store lock

`withStoreLock` and `breakStaleLock` of `mcp/store.ts`, one file-system call at a time.
A call of `withStoreLock` is known by number and may die at any step. The lock is a
directory with a file `owner` in it; the directory that a break renames aside is out of
everybody's reach but the breaker's.
-/

namespace Ultrathink.Source.Mcp.StoreLock

open Library Runs

/-- The lock directory: the call that made it, the nonce in `owner`, the timestamp. -/
structure Dir where
  maker : Nat
  owner : Option Nat
  mtimeMs : Nat
  deriving DecidableEq

structure Disk where
  lock : Option Dir
  clock : Nat
  deriving DecidableEq

/-- Where a call stands: the file-system call that it makes next, `waiting` between two
rounds, `holding` while `fn` runs and `beating` inside a heartbeat. -/
inductive Stand where
  | making
  | naming
  | stating
  | judging (mtimeMs : Nat)
  | readingOwner (mtimeMs : Nat)
  | breaking (owner : Option Nat) (mtimeMs : Nat)
  | comparing (owner : Option Nat) (mtimeMs : Nat) (aside : Dir)
  | removingAside
  | waiting
  | holding
  | beating
  | releasing
  | unlinkingOwner
  | removing
  | ended
  deriving DecidableEq

structure Call where
  nonce : Nat
  stand : Stand
  deriving DecidableEq

structure Calls where
  disk : Disk
  nonces : Nat
  calls : Nat → Option Call

/-- What the surroundings choose at a step: an error of the file system, the time that
`Date.now` gives, and whether `fn` ends or the deadline has passed. -/
structure Choice where
  fails : Bool
  now : Nat
  ends : Bool

/-- The process between the creation of its lock and the removal. -/
def Stand.holds : Stand → Bool
  | .naming | .holding | .beating | .releasing | .unlinkingOwner | .removing => true
  | _ => false

def readOwner (d : Disk) : Option Nat := d.lock.bind (·.owner)

/-- One file-system call of call `p`. -/
def step (staleMs p nonce : Nat) (d : Disk) (stand : Stand) (c : Choice) : Option (Disk × Stand) :=
  match stand with
  | .making =>
    if c.fails then some (d, .ended)
    else
      match d.lock with
      | none => some ({ d with lock := some ⟨p, none, d.clock⟩ }, .naming)
      | some _ => some (d, .stating)
  | .naming =>
    match d.lock with
    | none => some (d, .ended)
    | some dir =>
      if c.fails then some (d, .ended)
      else
        -- A new file stamps its directory, a rewritten one does not.
        let mtimeMs := if dir.owner.isNone then d.clock else dir.mtimeMs
        some ({ d with lock := some { dir with owner := some nonce, mtimeMs := mtimeMs } }, .holding)
  | .stating =>
    match d.lock with
    | none => some (d, .making)
    | some dir => some (d, if c.fails then .making else .judging dir.mtimeMs)
  | .judging mtimeMs =>
    if c.now ≤ d.clock then
      some (d, if mtimeMs + staleMs < c.now then .readingOwner mtimeMs else .waiting)
    else none
  | .readingOwner mtimeMs =>
    some (d, .breaking (if c.fails then none else readOwner d) mtimeMs)
  | .breaking owner mtimeMs =>
    match d.lock with
    | none => some (d, .making)
    | some dir =>
      if c.fails then some (d, .making)
      else some ({ d with lock := none }, .comparing owner mtimeMs dir)
  | .comparing owner mtimeMs aside =>
    if !c.fails && aside.owner = owner && aside.mtimeMs = mtimeMs then some (d, .removingAside)
    else some (d, .making)
  | .removingAside => some (d, .making)
  | .waiting => some (d, if c.ends then .ended else .making)
  | .holding =>
    if c.ends then some (d, .releasing)
    else some (d, if !c.fails && readOwner d = some nonce then .beating else .holding)
  | .beating =>
    match d.lock with
    | none => some (d, .holding)
    | some dir =>
      if c.fails then some (d, .holding)
      else if c.now ≤ d.clock then
        some ({ d with lock := some { dir with mtimeMs := c.now } }, .holding)
      else none
  | .releasing =>
    some (d, if !c.fails && readOwner d = some nonce then .unlinkingOwner else .ended)
  | .unlinkingOwner =>
    match d.lock with
    | none => some (d, .ended)
    | some dir =>
      if c.fails then some (d, .ended)
      else some ({ d with lock := some { dir with owner := none, mtimeMs := d.clock } }, .removing)
  | .removing =>
    match d.lock with
    | none => some (d, .ended)
    | some dir =>
      if c.fails || dir.owner.isSome then some (d, .ended)
      else some ({ d with lock := none }, .ended)
  | .ended => none

inductive Label where
  | start (p : Nat)
  | crash (p : Nat)
  | passes (now : Nat)
  | run (p : Nat) (c : Choice)

def advance (staleMs : Nat) (s : Calls) : Label → Option Calls
  | .start p =>
    if (s.calls p).isSome then none
    else
      some { s with
        nonces := s.nonces + 1
        calls := Function.update s.calls p (some ⟨s.nonces, .making⟩) }
  | .crash p => some { s with calls := Function.update s.calls p none }
  | .passes now => if s.disk.clock ≤ now then some { s with disk := { s.disk with clock := now } } else none
  | .run p c =>
    match s.calls p with
    | none => none
    | some call =>
      (step staleMs p call.nonce s.disk call.stand c).map fun (disk, stand) =>
        { s with disk := disk, calls := Function.update s.calls p (some ⟨call.nonce, stand⟩) }

/-- A dead process may have left its lock. -/
def withStoreLock (staleMs : Nat) : System Calls Label :=
  .ofStep (fun s => ∀ p, s.calls p = none) (advance staleMs)

end Ultrathink.Source.Mcp.StoreLock
