import Ultrathink.Library.Mutex

/-!
# The mutation guard

`withLockMutation` of `claude/atomic.ts`, one file-system call at a time, for any callback. The
guard is a directory with one entry named after its owner. The candidate directory that a call
prepares has a name of its own, so only the place of the call tells how far it is. A step that
`fails` meets an error of its own making.
-/

namespace Ultrathink.Source.Claude.Atomic

open Library Runs Mutex

/-- The entry `<pid>.<nonce>`; nonces never repeat. -/
structure Owner where
  pid : Nat
  nonce : Nat
  deriving DecidableEq

/-- Where a call of `withLockMutation` stands; `L` is where its callback stands. -/
inductive Mutation (L R : Type) where
  | makeCandidate (l : L)
  | openEntry (l : L)
  | rename (l : L)
  | readOwners (l : L)
  | probe (l : L) (found : Owner)
  | unlinkDead (l : L) (found : Owner)
  | removeDead (l : L)
  | renameAgain (l : L)
  | inside (l : L)
  | unlinkOwn (result : R)
  | removeOwn (result : R)
  | unlinkCandidate (outcome : Outcome R)
  | removeCandidate (outcome : Outcome R)
  | ended (outcome : Outcome R)
  deriving DecidableEq

/-- The names in the guard directory, none when there is no directory. -/
abbrev Guard := Option (List Owner)

variable {S O L R C : Type}

/-- A directory is renamed over no directory or an empty one. -/
def renameOver (owner : Owner) : Guard → Option Guard
  | none => some (some [owner])
  | some [] => some (some [owner])
  | some (_ :: _) => none

/-- `unlinkSync(join(path, owner))`, none when there is no such entry. -/
def unlinkEntry (owner : Owner) : Guard → Option Guard
  | none => none
  | some entries => if owner ∈ entries then some (some (entries.erase owner)) else none

/-- `rmdirSync(path)`, whose errors are swallowed. -/
def removeGuard (fails : Bool) : Guard → Guard
  | some [] => if fails then some [] else none
  | guard => guard

/-- The file-system calls around the callback. -/
def guardStep (live : Nat → Bool) (owner : Owner) (fails : Bool) (guard : Guard) :
    Mutation L R → Option (Guard × Mutation L R)
  | .makeCandidate l => some (guard, if fails then .ended .failed else .openEntry l)
  | .openEntry l => some (guard, if fails then .unlinkCandidate .failed else .rename l)
  | .rename l =>
    if fails then some (guard, .unlinkCandidate .failed)
    else
      match renameOver owner guard with
      | some guard => some (guard, .inside l)
      | none => some (guard, .readOwners l)
  | .readOwners l =>
    match guard with
    | some [found] => some (guard, if fails then .renameAgain l else .probe l found)
    | _ => some (guard, .renameAgain l)
  | .probe l found =>
    some (guard, if !fails && !live found.pid then .unlinkDead l found else .renameAgain l)
  | .unlinkDead l found =>
    match (if fails then none else unlinkEntry found guard) with
    | some guard => some (guard, .removeDead l)
    | none => some (guard, .renameAgain l)
  | .removeDead l => some (removeGuard fails guard, .renameAgain l)
  | .renameAgain l =>
    if fails then some (guard, .unlinkCandidate .failed)
    else
      match renameOver owner guard with
      | some guard => some (guard, .inside l)
      | none => some (guard, .unlinkCandidate .busy)
  | .unlinkOwn result =>
    match (if fails then none else unlinkEntry owner guard) with
    | some guard => some (guard, .removeOwn result)
    | none => some (guard, .ended (.returned result))
  | .removeOwn result => some (removeGuard fails guard, .ended (.returned result))
  | .unlinkCandidate outcome => some (guard, .removeCandidate outcome)
  | .removeCandidate outcome => some (guard, .ended outcome)
  | .inside _ | .ended _ => none

inductive Proc (O L R : Type) where
  | outer (o : O)
  | calling (o : O) (nonce : Nat) (mutation : Mutation L R)
  deriving DecidableEq

structure Guarded (S O L R : Type) where
  guard : Guard
  nonces : Nat
  shared : S
  procs : Nat → Option (Proc O L R)

/-- `process.kill(pid, 0)` finds a process. -/
def Guarded.live (s : Guarded S O L R) (p : Nat) : Bool := (s.procs p).isSome

def Guarded.put (s : Guarded S O L R) (p : Nat) (proc : Proc O L R) : Guarded S O L R :=
  { s with procs := Function.update s.procs p (some proc) }

inductive Label (C : Type) where
  | spawn (pid : Nat)
  | crash (pid : Nat)
  | world (c : C)
  | run (pid : Nat) (fails : Bool) (c : C)

/-- One step of a process. -/
def run (P : Program S O L R C) (p : Nat) (fails : Bool) (c : C) (s : Guarded S O L R) :
    Option (Guarded S O L R) :=
  match s.procs p with
  | none => none
  | some (.outer o) =>
    (P.outer s.live p s.shared o c).map fun (shared, o, call) =>
      match call with
      | none => { s with shared := shared }.put p (.outer o)
      | some l =>
        { s with shared := shared, nonces := s.nonces + 1 }.put p
          (.calling o s.nonces (.makeCandidate l))
  | some (.calling o nonce (.inside l)) =>
    (P.inner s.live p s.shared o l c).map fun (shared, o, next) =>
      match next with
      | .inl l => { s with shared := shared }.put p (.calling o nonce (.inside l))
      | .inr result => { s with shared := shared }.put p (.calling o nonce (.unlinkOwn result))
  | some (.calling o _ (.ended outcome)) => some (s.put p (.outer (P.resume o outcome)))
  | some (.calling o nonce mutation) =>
    (guardStep s.live ⟨p, nonce⟩ fails s.guard mutation).map fun (guard, mutation) =>
      { s with guard := guard }.put p (.calling o nonce mutation)

def advance (P : Program S O L R C) (s : Guarded S O L R) : Label C → Option (Guarded S O L R)
  | .spawn p => if s.live p then none else some (s.put p (.outer P.first))
  | .crash p => some { s with procs := Function.update s.procs p none }
  | .world c => (P.world s.shared c).map fun shared => { s with shared := shared }
  | .run p fails c => run P p fails c s

/-- What dead processes left of a guard has nonces that no later call repeats. -/
def LeftOver (s : Guarded S O L R) : Prop :=
  (∀ p, s.procs p = none) ∧ ∀ entries, s.guard = some entries → ∀ o ∈ entries, o.nonce < s.nonces

def guarded (P : Program S O L R C) : System (Guarded S O L R) (Label C) :=
  .ofStep (fun s => LeftOver s ∧ P.start s.shared) (advance P)

end Ultrathink.Source.Claude.Atomic
