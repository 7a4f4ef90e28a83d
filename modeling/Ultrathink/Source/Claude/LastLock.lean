import Ultrathink.Source.Claude.Atomic

/-!
# The strict lock of the last plan

`withLastLock` and `lastLockHeld` of `claude/state.ts` as a program around the mutation
guard. A lock file is known by its inode, which a process that has it open keeps from
being used again.
-/

namespace Ultrathink.Source.Claude.LastLock

open Library.Mutex

/-- What a lock file holds: nothing yet, the number of the process that wrote it, or a
text that is no number, as when `!` stands over the first digit. -/
inductive LockText where
  | empty
  | pid (n : Nat)
  | done
  deriving DecidableEq

structure Disk where
  path : Option Nat
  text : Nat → LockText
  mtimeMs : Nat → Nat
  inodes : Nat
  clock : Nat

/-- Where a process stands outside the guard: in the loop of attempts, in `body`, before
the completion mark, before or in the removal, before the descriptor is closed. -/
inductive Stand where
  | idle
  | trying (attempt : Nat)
  | body (fd : Nat)
  | marking (fd : Nat)
  | removing (fd : Nat)
  | closing (fd : Nat)
  deriving DecidableEq

/-- Where a callback stands: `lastLockHeld`, the takeover with the dead process that it
has found, the creation, and the removal after `body`. -/
inductive Spot where
  | read
  | statEmpty
  | probe (n : Nat)
  | unlink (judged : Option Nat)
  | openLock
  | write (ino : Nat)
  | unlinkBroken
  | statOwn
  | unlinkOwn
  deriving DecidableEq

inductive Result where
  | opened (fd : Nat)
  | held
  | threw
  | released
  deriving DecidableEq

/-- What the surroundings choose at a step: an error of the file system and the time. -/
structure Choice where
  fails : Bool
  now : Nat

def lastLockAttempts : Nat := 40

def lastLockStaleMs : Nat := 5000

/-- Inodes in use have been numbered. -/
def start (d : Disk) : Prop := ∀ i, d.path = some i → i < d.inodes

def first : Stand := .idle

def world (d : Disk) (c : Choice) : Option Disk := some { d with clock := c.now }

def Disk.setText (d : Disk) (i : Nat) (text : LockText) : Disk :=
  { d with text := Function.update d.text i text }

def outer (_ : Nat → Bool) (_ : Nat) (d : Disk) (stand : Stand) (c : Choice) :
    Option (Disk × Stand × Option Spot) :=
  match stand with
  | .idle => some (d, .trying 0, none)
  | .trying attempt => some (d, .trying attempt, some .read)
  | .body fd => some (d, .marking fd, none)
  | .marking fd =>
    if c.fails then some (d, .removing fd, none) else some (d.setText fd .done, .removing fd, none)
  | .removing fd => some (d, .removing fd, some .statOwn)
  | .closing _ => some (d, .idle, none)

def inner (live : Nat → Bool) (p : Nat) (d : Disk) (stand : Stand) (spot : Spot) (c : Choice) :
    Option (Disk × Stand × (Spot ⊕ Result)) :=
  match spot with
  | .read =>
    match d.path with
    | none => some (d, stand, .inl (.unlink none))
    | some i =>
      if c.fails then some (d, stand, .inr .held)
      else
        match d.text i with
        | .empty => some (d, stand, .inl .statEmpty)
        | .pid n => some (d, stand, .inl (.probe n))
        | .done => some (d, stand, .inl (.unlink none))
  | .statEmpty =>
    match d.path with
    | none => some (d, stand, .inl (.unlink none))
    | some i =>
      if c.fails || c.now ≤ d.mtimeMs i + lastLockStaleMs then some (d, stand, .inr .held)
      else some (d, stand, .inl (.unlink none))
  | .probe n =>
    if live n then some (d, stand, .inr .held) else some (d, stand, .inl (.unlink (some n)))
  | .unlink _ =>
    match d.path with
    | none => some (d, stand, .inl .openLock)
    | some _ =>
      if c.fails then some (d, stand, .inr .threw)
      else some ({ d with path := none }, stand, .inl .openLock)
  | .openLock =>
    match d.path with
    | some _ => some (d, stand, .inr .threw)
    | none =>
      if c.fails then some (d, stand, .inr .threw)
      else
        some ({ d with
            path := some d.inodes
            text := Function.update d.text d.inodes .empty
            mtimeMs := Function.update d.mtimeMs d.inodes d.clock
            inodes := d.inodes + 1 }, stand, .inl (.write d.inodes))
  | .write ino =>
    if c.fails then some (d, stand, .inl .unlinkBroken)
    else some (d.setText ino (.pid p), stand, .inr (.opened ino))
  | .unlinkBroken =>
    if c.fails then some (d, stand, .inr .threw)
    else some ({ d with path := none }, stand, .inr .threw)
  | .statOwn =>
    match stand, d.path with
    | .removing fd, some i =>
      if c.fails || i ≠ fd then some (d, stand, .inr .released) else some (d, stand, .inl .unlinkOwn)
    | _, _ => some (d, stand, .inr .released)
  | .unlinkOwn =>
    if c.fails then some (d, stand, .inr .released)
    else some ({ d with path := none }, stand, .inr .released)

/-- What the loop of attempts and the `finally` block, which alone call the guard, make
of a call of it. -/
def resume (stand : Stand) (outcome : Outcome Result) : Stand :=
  match stand, outcome with
  | .trying _, .returned (.opened fd) => .body fd
  | .trying attempt, .returned .held | .trying attempt, .busy =>
    if attempt + 1 < lastLockAttempts then .trying (attempt + 1) else .idle
  | .trying _, _ => .idle
  | .removing fd, _ => .closing fd
  | _, _ => .idle

def withLastLock : Program Disk Stand Spot Result Choice :=
  ⟨start, first, world, outer, inner, resume⟩

end Ultrathink.Source.Claude.LastLock
