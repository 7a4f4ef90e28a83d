import Ultrathink.Guarantees.MutationGuard
import Ultrathink.Source.Claude.LastLock

/-!
# The strict lock of the last plan excludes every other live process

A live process that runs `body` has its lock file at the path, with its own number. A
process that takes a lock over has found the number in it dead, and no live process has
that file open.
-/

namespace Ultrathink.Guarantees.LastLock

open Library Runs Processes Mutex
open Source.Claude.Atomic Source.Claude.LastLock
open MutationGuard (GuardInv start_inv step_taking taking taking_place)

abbrev Turns := Taking Disk Stand Spot Result

/-- The lock file of a process between the write of its number and the end of `body`. -/
def holding : Place Stand Spot Result → Option Nat
  | .leaving (.trying _) (.returned (.opened fd)) => some fd
  | .outer (.body fd) | .outer (.marking fd) => some fd
  | _ => none

def fdOf : Stand → Option Nat
  | .body fd | .marking fd | .removing fd | .closing fd => some fd
  | .idle | .trying _ => none

/-- The lock file that a process has open. -/
def opened : Place Stand Spot Result → Option Nat
  | .inside _ (.write ino) => some ino
  | .leaving (.trying _) (.returned (.opened fd)) => some fd
  | .outer stand | .entering stand _ | .inside stand _ | .leaving stand _ => fdOf stand

/-- No live process has the file open. -/
def Orphan (a : Turns) (i : Nat) : Prop := ∀ p place, a.places p = some place → opened place ≠ some i

/-- A lock that names a process names the one that was judged dead, and is nobody's. -/
def Abandoned (a : Turns) (judged : Option Nat) : Prop :=
  ∀ i n, a.shared.path = some i → a.shared.text i = .pid n → judged = some n ∧ Orphan a i

def Starts (stand : Stand) (spot : Spot) : Prop :=
  (spot = .read ∧ ∃ attempt, stand = .trying attempt) ∨ (spot = .statOwn ∧ ∃ fd, stand = .removing fd)

/-- What a process inside the guard knows of the lock. -/
def Knows (a : Turns) (stand : Stand) : Spot → Prop
  | .read => ∃ attempt, stand = .trying attempt
  | .statEmpty => (∃ attempt, stand = .trying attempt) ∧
      ∀ i n, a.shared.path = some i → a.shared.text i ≠ .pid n
  | .probe n => (∃ attempt, stand = .trying attempt) ∧
      ∀ i m, a.shared.path = some i → a.shared.text i = .pid m → m = n
  | .unlink judged => (∃ attempt, stand = .trying attempt) ∧ Abandoned a judged
  | .openLock => ∃ attempt, stand = .trying attempt
  | .write ino => (∃ attempt, stand = .trying attempt) ∧ a.shared.path = some ino ∧
      a.shared.text ino = .empty
  | .unlinkBroken => ∀ i n, a.shared.path = some i → a.shared.text i ≠ .pid n
  | .statOwn => ∃ fd, stand = .removing fd
  | .unlinkOwn => ∃ fd, stand = .removing fd ∧ a.shared.path = some fd

structure LockInv (a : Turns) : Prop where
  alone : Alone a
  starts : ∀ p stand spot, a.places p = some (.entering stand spot) → Starts stand spot
  held : ∀ p place i, a.places p = some place → holding place = some i →
    a.shared.path = some i ∧ a.shared.text i = .pid p
  fds : Tickets opened a.shared.inodes a.places
  bound : ∀ i, a.shared.path = some i → i < a.shared.inodes
  owned : ∀ p place i, a.places p = some place → opened place = some i →
    a.shared.text i = .pid p ∨ a.shared.text i = .done ∨
      ∃ stand, place = .inside stand (.write i) ∧ a.shared.text i = .empty
  knows : ∀ p stand spot, a.places p = some (.inside stand spot) → Knows a stand spot

variable {a : Turns} {p i n : Nat} {stand stand' : Stand} {shared : Disk} {spot : Spot}
  {place : Place Stand Spot Result} {next : Spot ⊕ Result} {c : Choice}

theorem holding_opened (holds : holding place = some i) :
    opened place = some i := by
  unfold holding at holds
  split at holds
  · exact holds
  · exact holds
  · exact holds
  · cases holds

/-- A process that moved to `place` has no file open but one that it had. -/
def OpenKept (a : Turns) (p : Nat) (place : Place Stand Spot Result) : Prop :=
  ∀ i, opened place = some i → ∃ old, a.places p = some old ∧ opened old = some i ∧
    ∀ stand, old ≠ .inside stand (.write i)

/-- The texts are as before, but for the mark of the process on its own file. -/
def TextKept (a : Turns) (shared : Disk) (p : Nat) : Prop :=
  ∀ i, shared.text i = a.shared.text i ∨
    (shared.text i = .done ∧ ∃ stand, a.places p = some (.outer stand) ∧ fdOf stand = some i)

theorem TextKept.pid (texts : TextKept a shared p) (at_ : shared.text i = .pid n) :
    a.shared.text i = .pid n := by
  rcases texts i with same | ⟨marked, -⟩
  · exact same ▸ at_
  · rw [marked] at at_
    cases at_

theorem TextKept.other {q : Nat} (texts : TextKept a shared p) (inv : LockInv a) (other : q ≠ p)
    (here : a.places q = some place) (has : opened place = some i) :
    shared.text i = a.shared.text i := by
  rcases texts i with same | ⟨-, stand, there, own⟩
  · exact same
  · exact absurd (inv.fds.apart q p _ _ i here there has own) other

theorem Orphan.put (orphan : Orphan a i) (kept : OpenKept a p place) :
    Orphan ({ a with shared := shared }.put p place) i := by
  intro q place' here has
  rcases put_places here with ⟨rfl, rfl⟩ | ⟨-, was⟩
  · obtain ⟨old, was, had, -⟩ := kept i has
    exact orphan q old was had
  · exact orphan q place' was has

/-- What a process inside knows stays true when another one moves, or it looks itself. -/
theorem Knows.put (knows : Knows a stand spot) (kept : OpenKept a p place)
    (path : shared.path = a.shared.path) (texts : TextKept a shared p)
    (same : ∀ ino, spot = .write ino → shared.text ino = a.shared.text ino) :
    Knows ({ a with shared := shared }.put p place) stand spot := by
  cases spot with
  | read => exact knows
  | statEmpty => exact ⟨knows.1, fun i n at_ text => knows.2 i n (path ▸ at_) (texts.pid text)⟩
  | probe n => exact ⟨knows.1, fun i m at_ text => knows.2 i m (path ▸ at_) (texts.pid text)⟩
  | unlink judged =>
    refine ⟨knows.1, fun i n at_ text => ?_⟩
    obtain ⟨dead, orphan⟩ := knows.2 i n (path ▸ at_) (texts.pid text)
    exact ⟨dead, orphan.put kept⟩
  | openLock => exact knows
  | write ino =>
    obtain ⟨trying, at_, text⟩ := knows
    exact ⟨trying, path.trans at_, (same ino rfl).trans text⟩
  | unlinkBroken => exact fun i n at_ text => knows i n (path ▸ at_) (texts.pid text)
  | statOwn => exact knows
  | unlinkOwn =>
    obtain ⟨fd, removing, at_⟩ := knows
    exact ⟨fd, removing, path.trans at_⟩

theorem LockInv.put (inv : LockInv a) (alone : Alone ({ a with shared := shared }.put p place))
    (starts : ∀ stand spot, place = .entering stand spot → Starts stand spot)
    (path : shared.path = a.shared.path) (inodes : shared.inodes = a.shared.inodes)
    (texts : TextKept a shared p)
    (held : ∀ i, holding place = some i → shared.text i = a.shared.text i ∧
      ∃ old, a.places p = some old ∧ holding old = some i) (kept : OpenKept a p place)
    (knows : ∀ stand spot, place = .inside stand spot → Knows a stand spot ∧
      ∀ ino, spot ≠ .write ino) :
    LockInv ({ a with shared := shared }.put p place) := by
  refine ⟨alone, fun q stand spot here => ?_, fun q place' i here holds => ?_, ?_, fun i at_ => ?_,
    fun q place' i here has => ?_, fun q stand spot here => ?_⟩
  · rcases put_places here with ⟨rfl, rfl⟩ | ⟨-, was⟩
    · exact starts stand spot rfl
    · exact inv.starts q stand spot was
  · rcases put_places here with ⟨rfl, rfl⟩ | ⟨other, was⟩
    · obtain ⟨same, old, was, had⟩ := held i holds
      obtain ⟨at_, text⟩ := inv.held q old i was had
      exact ⟨path.trans at_, same.trans text⟩
    · obtain ⟨at_, text⟩ := inv.held q place' i was holds
      exact ⟨path.trans at_, (texts.other inv other was (holding_opened holds)).trans text⟩
  · refine inv.fds.put (Nat.le_of_eq inodes.symm) fun i has => ?_
    obtain ⟨old, was, had, -⟩ := kept i has
    exact Or.inr ⟨old, was, had⟩
  · exact inodes ▸ inv.bound i (path ▸ at_)
  · rcases put_places here with ⟨rfl, rfl⟩ | ⟨other, was⟩
    · obtain ⟨old, was, had, closed⟩ := kept i has
      have before : a.shared.text i = .pid q ∨ a.shared.text i = .done := by
        rcases inv.owned q old i was had with own | marked | ⟨stand, write, -⟩
        · exact Or.inl own
        · exact Or.inr marked
        · exact absurd write (closed stand)
      rcases texts i with same | ⟨marked, -⟩
      · rw [← same] at before
        exact before.imp id Or.inl
      · exact Or.inr (Or.inl marked)
    · have before := inv.owned q place' i was has
      rw [← texts.other inv other was has] at before
      exact before
  · rcases put_places here with ⟨rfl, rfl⟩ | ⟨other, was⟩
    · obtain ⟨known, unwritten⟩ := knows stand spot rfl
      exact known.put kept path texts fun ino write => absurd write (unwritten ino)
    · refine (inv.knows q stand spot was).put kept path texts fun ino write => ?_
      subst write
      exact texts.other inv other was rfl

def Free (a : Turns) : Prop := ∀ p place, a.places p = some place → holding place = none

theorem free_of (inv : LockInv a)
    (unfit : ∀ p place i, a.places p = some place → holding place = some i →
      a.shared.path = some i → a.shared.text i = .pid p → False) : Free a := by
  intro p place here
  cases holds : holding place with
  | none => rfl
  | some i =>
    obtain ⟨at_, text⟩ := inv.held p place i here holds
    exact (unfit p place i here holds at_ text).elim

/-- A step of the process inside the guard that changes the path, while no process holds
the lock. -/
theorem LockInv.replace (inv : LockInv a) (here : a.places p = some (.inside stand spot))
    (free : Free a) (alone : Alone ({ a with shared := shared }.put p place))
    (unstarted : ∀ stand spot, place ≠ .entering stand spot)
    (grown : a.shared.inodes ≤ shared.inodes)
    (mine : ∀ i, opened place = some i → (i = a.shared.inodes ∧ i < shared.inodes) ∨
      ∃ old, a.places p = some old ∧ opened old = some i)
    (others : ∀ q place' i, q ≠ p → a.places q = some place' → opened place' = some i →
      shared.text i = a.shared.text i) (bound : ∀ i, shared.path = some i → i < shared.inodes)
    (held : ∀ i, holding place = some i → shared.path = some i ∧ shared.text i = .pid p)
    (owned : ∀ i, opened place = some i → shared.text i = .pid p ∨ shared.text i = .done ∨
      ∃ stand, place = .inside stand (.write i) ∧ shared.text i = .empty)
    (knows : ∀ stand spot, place = .inside stand spot →
      Knows ({ a with shared := shared }.put p place) stand spot) :
    LockInv ({ a with shared := shared }.put p place) := by
  refine ⟨alone, fun q s l there => ?_, fun q place' i there holds => ?_, inv.fds.put grown mine,
    bound, fun q place' i there has => ?_, fun q s l there => ?_⟩
  · rcases put_places there with ⟨rfl, rfl⟩ | ⟨-, was⟩
    · exact absurd rfl (unstarted s l)
    · exact inv.starts q s l was
  · rcases put_places there with ⟨rfl, rfl⟩ | ⟨-, was⟩
    · exact held i holds
    · rw [free q place' was] at holds
      cases holds
  · rcases put_places there with ⟨rfl, rfl⟩ | ⟨other, was⟩
    · exact owned i has
    · have before := inv.owned q place' i was has
      rw [← others q place' i other was has] at before
      exact before
  · rcases put_places there with ⟨rfl, rfl⟩ | ⟨other, was⟩
    · exact knows s l rfl
    · exact absurd (inv.alone q p _ _ _ _ was here) other

theorem textKept_refl (a : Turns) (p : Nat) : TextKept a a.shared p := fun _ => Or.inl rfl

theorem looks_inv (inv : LockInv a) (here : a.places p = some (.inside stand spot))
    (none_ : ∀ fd, next ≠ .inr (.opened fd)) (read : ∀ ino, next ≠ .inl (.write ino))
    (closed : (∀ ino, spot ≠ .write ino) ∨ ∃ attempt, stand = .trying attempt)
    (learns : ∀ spot', next = .inl spot' → Knows a stand spot')
    (alone : Alone ({ a with shared := a.shared }.put p (.stepped stand next))) :
    LockInv ({ a with shared := a.shared }.put p (.stepped stand next)) := by
  have unheld : holding (.stepped stand next) = none := by
    cases next with
    | inl spot' => rfl
    | inr result =>
      cases result with
      | opened fd => exact absurd rfl (none_ fd)
      | _ => cases stand <;> rfl
  have same : opened (.stepped stand next) = fdOf stand := by
    cases next with
    | inl spot' =>
      cases spot' with
      | write ino => exact absurd rfl (read ino)
      | _ => rfl
    | inr result =>
      cases result with
      | opened fd => exact absurd rfl (none_ fd)
      | _ => cases stand <;> rfl
  have kept : OpenKept a p (.stepped stand next) := by
    intro i has
    rw [same] at has
    rcases closed with unwritten | ⟨attempt, rfl⟩
    · refine ⟨_, here, ?_, fun s write => ?_⟩
      · cases spot with
        | write ino => exact absurd rfl (unwritten ino)
        | _ => exact has
      · cases write
        exact unwritten i rfl
    · cases has
  refine inv.put alone (fun s l same => ?_) rfl rfl (textKept_refl a p) (fun i holds => ?_) kept
    fun s l same => ?_
  · cases next <;> cases same
  · rw [unheld] at holds
    cases holds
  · cases next with
    | inl spot' =>
      cases same
      exact ⟨learns l rfl, fun ino write => read ino (by rw [write])⟩
    | inr result => cases same

theorem goes_inv {spot' : Spot} (inv : LockInv a) (here : a.places p = some (.inside stand spot))
    (unwritten : ∀ ino, spot ≠ .write ino) (read : ∀ ino, spot' ≠ .write ino)
    (learns : Knows a stand spot')
    (alone : Alone ({ a with shared := a.shared }.put p (.stepped stand (.inl spot')))) :
    LockInv ({ a with shared := a.shared }.put p (.stepped stand (.inl spot'))) :=
  looks_inv inv here (by simp) (fun ino same => read ino (Sum.inl.inj same)) (Or.inl unwritten)
    (fun _ same => Sum.inl.inj same ▸ learns) alone

theorem returns_inv {result : Result} (inv : LockInv a)
    (here : a.places p = some (.inside stand spot)) (unwritten : ∀ ino, spot ≠ .write ino)
    (none_ : ∀ fd, result ≠ .opened fd)
    (alone : Alone ({ a with shared := a.shared }.put p (.stepped stand (.inr result)))) :
    LockInv ({ a with shared := a.shared }.put p (.stepped stand (.inr result))) :=
  looks_inv inv here (fun fd same => none_ fd (Sum.inr.inj same)) (by simp) (Or.inl unwritten)
    (by simp) alone

theorem unlink_inv (inv : LockInv a) (here : a.places p = some (.inside stand spot)) (free : Free a)
    (unwritten : ∀ ino, spot ≠ .write ino)
    (goes : (next = .inl .openLock ∧ ∃ attempt, stand = .trying attempt) ∨
      ∃ result, next = .inr result ∧ ∀ fd, result ≠ .opened fd)
   
    (alone : Alone ({ a with shared := { a.shared with path := none } }.put p (.stepped stand next))) :
    LockInv ({ a with shared := { a.shared with path := none } }.put p (.stepped stand next)) := by
  have same : opened (.stepped stand next) = fdOf stand ∧ holding (.stepped stand next) = none := by
    rcases goes with ⟨rfl, -⟩ | ⟨result, rfl, none_⟩
    · exact ⟨rfl, rfl⟩
    · cases result with
      | opened fd => exact absurd rfl (none_ fd)
      | _ => cases stand <;> exact ⟨rfl, rfl⟩
  have before : opened (.inside stand spot) = fdOf stand := by
    cases spot with
    | write ino => exact absurd rfl (unwritten ino)
    | _ => rfl
  refine inv.replace here free alone (fun s l started => ?_) (Nat.le_refl _) (fun i has => ?_)
    (fun _ _ _ _ _ _ => rfl) (fun i at_ => by cases at_) (fun i holds => ?_) (fun i has => ?_)
    fun s l inside => ?_
  · cases next <;> cases started
  · rw [same.1, ← before] at has
    exact Or.inr ⟨_, here, has⟩
  · rw [same.2] at holds
    cases holds
  · rw [same.1, ← before] at has
    rcases inv.owned p _ i here has with own | marked | ⟨s, write, -⟩
    · exact Or.inl own
    · exact Or.inr (Or.inl marked)
    · cases write
      exact absurd rfl (unwritten i)
  · rcases goes with ⟨rfl, trying⟩ | ⟨result, rfl, -⟩
    · cases inside
      exact trying
    · cases inside

theorem outer_inv {call : Option Spot} (inv : LockInv a) (here : a.places p = some (.outer stand))
    (moved : outer a.live p a.shared stand c = some (shared, stand', call))
    (alone : Alone ({ a with shared := shared }.put p (.called stand' call))) :
    LockInv ({ a with shared := shared }.put p (.called stand' call)) := by
  -- A step that changes no file.
  have quiet : ∀ stand' call, (∀ i, holding (.called stand' call) = some i →
        holding (.outer stand) = some i) →
      (∀ i, opened (.called stand' call) = some i → fdOf stand = some i) →
      (∀ spot, call = some spot → Starts stand' spot) →
      Alone ({ a with shared := a.shared }.put p (.called stand' call)) →
      LockInv ({ a with shared := a.shared }.put p (.called stand' call)) := by
    intro stand' call held fds starts alone
    refine inv.put alone (fun s l same => ?_) rfl rfl (textKept_refl a p)
      (fun i holds => ⟨rfl, _, here, held i holds⟩)
      (fun i has => ⟨_, here, fds i has, fun s write => by cases write⟩) fun s l same => ?_
    · cases call with
      | none => cases same
      | some spot =>
        cases same
        exact starts l rfl
    · cases call <;> cases same
  cases stand with
  | idle =>
    cases moved
    exact quiet _ _ (fun i holds => holds) (fun i has => has) (by simp) alone
  | trying attempt =>
    cases moved
    refine quiet _ _ (fun i holds => by cases holds) (fun i has => has) (fun spot same => ?_) alone
    cases same
    exact Or.inl ⟨rfl, attempt, rfl⟩
  | body fd =>
    cases moved
    exact quiet _ _ (fun i holds => holds) (fun i has => has) (by simp) alone
  | marking fd =>
    simp only [outer] at moved
    split at moved
    · cases moved
      exact quiet _ _ (fun i holds => by cases holds) (fun i has => has) (by simp) alone
    · cases moved
      refine inv.put alone (fun s l same => by cases same) rfl rfl (fun i => ?_)
        (fun i holds => by cases holds) (fun i has => ⟨_, here, has, fun s write => by cases write⟩)
        fun s l same => by cases same
      rcases eq_or_ne i fd with rfl | other
      · exact Or.inr ⟨Function.update_self .., _, here, rfl⟩
      · exact Or.inl (Function.update_of_ne other ..)
  | removing fd =>
    cases moved
    refine quiet _ _ (fun i holds => by cases holds) (fun i has => has) (fun spot same => ?_) alone
    cases same
    exact Or.inr ⟨rfl, fd, rfl⟩
  | closing fd =>
    cases moved
    exact quiet _ _ (fun i holds => by cases holds) (fun i has => by cases has) (by simp) alone

/-- A lock that names no process, or one judged dead that has it no more, is not held. -/
theorem free_of_abandoned (inv : LockInv a) {judged : Option Nat} (abandoned : Abandoned a judged) :
    Free a :=
  free_of inv fun q place i there holds at_ text =>
    (abandoned i q at_ text).2 q place there (holding_opened holds)

theorem abandoned_of_unnamed {judged : Option Nat}
    (unnamed : ∀ i n, a.shared.path = some i → a.shared.text i ≠ .pid n) : Abandoned a judged :=
  fun i n at_ text => absurd text (unnamed i n at_)

theorem free_of_unnamed (inv : LockInv a)
    (unnamed : ∀ i n, a.shared.path = some i → a.shared.text i ≠ .pid n) : Free a :=
  free_of inv fun q _ i _ _ at_ text => unnamed i q at_ text

theorem unnamed_of_text (at_ : a.shared.path = some i) (unnamed : ∀ n, a.shared.text i ≠ .pid n) :
    ∀ j n, a.shared.path = some j → a.shared.text j ≠ .pid n := by
  intro j n at'
  rw [at_] at at'
  cases at'
  exact unnamed n

theorem orphan_of_dead (inv : LockInv a) (text : a.shared.text i = .pid n)
    (dead : a.live n = false) : Orphan a i := by
  intro q place there has
  rcases inv.owned q place i there has with own | marked | ⟨stand, -, empty⟩
  · rw [text] at own
    cases own
    simp [Taking.live, there] at dead
  · rw [text] at marked
    cases marked
  · rw [text] at empty
    cases empty

theorem inner_inv (inv : LockInv a) (here : a.places p = some (.inside stand spot))
    (moved : inner a.live p a.shared stand spot c = some (shared, stand', next))
    (alone : Alone ({ a with shared := shared }.put p (.stepped stand' next))) :
    LockInv ({ a with shared := shared }.put p (.stepped stand' next)) := by
  have knows := inv.knows p stand spot here
  cases spot with
  | read =>
    simp only [Source.Claude.LastLock.inner] at moved
    split at moved
    next none_ =>
      cases moved
      exact goes_inv inv here (by simp) (by simp)
        ⟨knows, abandoned_of_unnamed (by simp [none_])⟩ alone
    next i at_ =>
      split at moved
      · cases moved
        exact returns_inv inv here (by simp) (by simp) alone
      · split at moved
        next text =>
          cases moved
          exact goes_inv inv here (by simp) (by simp)
            ⟨knows, unnamed_of_text at_ (by simp [text])⟩ alone
        next n text =>
          cases moved
          refine goes_inv inv here (by simp) (by simp) ⟨knows, fun j m at' named => ?_⟩ alone
          rw [at_] at at'
          cases at'
          rw [text] at named
          cases named
          rfl
        next text =>
          cases moved
          exact goes_inv inv here (by simp) (by simp)
            ⟨knows, abandoned_of_unnamed (unnamed_of_text at_ (by simp [text]))⟩ alone
  | statEmpty =>
    simp only [Source.Claude.LastLock.inner] at moved
    split at moved
    · cases moved
      exact goes_inv inv here (by simp) (by simp) ⟨knows.1, abandoned_of_unnamed knows.2⟩ alone
    · split at moved
      · cases moved
        exact returns_inv inv here (by simp) (by simp) alone
      · cases moved
        exact goes_inv inv here (by simp) (by simp) ⟨knows.1, abandoned_of_unnamed knows.2⟩ alone
  | probe n =>
    simp only [Source.Claude.LastLock.inner] at moved
    split at moved
    · cases moved
      exact returns_inv inv here (by simp) (by simp) alone
    next dead =>
      cases moved
      refine goes_inv inv here (by simp) (by simp) ⟨knows.1, fun i m at_ named => ?_⟩ alone
      have same := knows.2 i m at_ named
      subst same
      exact ⟨rfl, orphan_of_dead inv named (by simpa using dead)⟩
  | unlink judged =>
    simp only [Source.Claude.LastLock.inner] at moved
    split at moved
    · cases moved
      exact goes_inv inv here (by simp) (by simp) knows.1 alone
    · split at moved
      · cases moved
        exact returns_inv inv here (by simp) (by simp) alone
      · cases moved
        exact unlink_inv inv here (free_of_abandoned inv knows.2) (by simp)
          (Or.inl ⟨rfl, knows.1⟩) alone
  | openLock =>
    simp only [Source.Claude.LastLock.inner] at moved
    split at moved
    · cases moved
      exact returns_inv inv here (by simp) (by simp) alone
    next none_ =>
      split at moved
      · cases moved
        exact returns_inv inv here (by simp) (by simp) alone
      · cases moved
        have free : Free a := free_of inv fun q place i _ _ at_ _ => by
          rw [none_] at at_
          cases at_
        refine inv.replace here free alone (fun s l started => by cases started) (Nat.le_succ _)
          (fun i has => ?_) (fun q place' i other was has => ?_) (fun i at_ => ?_)
          (fun i holds => by cases holds) (fun i has => ?_) fun s l inside => ?_
        · cases has
          exact Or.inl ⟨rfl, Nat.lt_succ_self _⟩
        · have older := inv.fds.drawn q place' i was has
          exact Function.update_of_ne (Nat.ne_of_lt older) ..
        · cases at_
          exact Nat.lt_succ_self _
        · cases has
          exact Or.inr (Or.inr ⟨stand, rfl, Function.update_self ..⟩)
        · cases inside
          exact ⟨knows, rfl, Function.update_self ..⟩
  | write ino =>
    obtain ⟨⟨attempt, rfl⟩, at_, empty⟩ := knows
    have unnamed := unnamed_of_text at_ (by simp [empty])
    simp only [Source.Claude.LastLock.inner] at moved
    split at moved
    · cases moved
      exact looks_inv inv here (by simp) (by simp) (Or.inr ⟨attempt, rfl⟩)
        (fun _ same => Sum.inl.inj same ▸ unnamed) alone
    · cases moved
      refine inv.replace here (free_of_unnamed inv unnamed) alone
        (fun s l started => by cases started) (Nat.le_refl _) (fun i has => ?_)
        (fun q place' i other was has => ?_) inv.bound (fun i holds => ?_) (fun i has => ?_)
        fun s l inside => by cases inside
      · cases has
        exact Or.inr ⟨_, here, rfl⟩
      · refine Function.update_of_ne (fun same => ?_) ..
        subst same
        exact other (inv.fds.apart q p _ _ i was here has rfl)
      · cases holds
        exact ⟨at_, Function.update_self ..⟩
      · cases has
        exact Or.inl (Function.update_self ..)
  | unlinkBroken =>
    simp only [Source.Claude.LastLock.inner] at moved
    split at moved
    · cases moved
      exact returns_inv inv here (by simp) (by simp) alone
    · cases moved
      exact unlink_inv inv here (free_of_unnamed inv knows) (by simp) (Or.inr ⟨_, rfl, by simp⟩) alone
  | statOwn =>
    obtain ⟨fd, rfl⟩ := knows
    simp only [Source.Claude.LastLock.inner] at moved
    split at moved
    next fd' i removing at_ =>
      cases removing
      split at moved
      · cases moved
        exact returns_inv inv here (by simp) (by simp) alone
      next own =>
        simp only [Bool.or_eq_true, decide_eq_true_eq, not_or, not_not] at own
        cases moved
        exact goes_inv inv here (by simp) (by simp) ⟨fd, rfl, own.2 ▸ at_⟩ alone
    · cases moved
      exact returns_inv inv here (by simp) (by simp) alone
  | unlinkOwn =>
    obtain ⟨fd, rfl, at_⟩ := knows
    simp only [Source.Claude.LastLock.inner] at moved
    split at moved
    · cases moved
      exact returns_inv inv here (by simp) (by simp) alone
    · cases moved
      refine unlink_inv inv here (free_of inv fun q place i there holds at' _ => ?_) (by simp)
        (Or.inr ⟨_, rfl, by simp⟩) alone
      rw [at_] at at'
      cases at'
      -- A holder of this file would be the process that removes it.
      have same := inv.fds.apart q p _ _ fd there here (holding_opened holds) rfl
      subst same
      rw [here] at there
      cases there
      cases holds

theorem resume_holding {outcome : Outcome Result}
    (holds : holding (.outer (resume stand outcome)) = some i) :
    holding (.leaving stand outcome) = some i := by
  unfold resume at holds
  split at holds
  · exact holds
  · split at holds <;> cases holds
  · split at holds <;> cases holds
  · cases holds
  · cases holds
  · cases holds

theorem resume_opened {outcome : Outcome Result}
    (has : opened (.outer (resume stand outcome)) = some i) :
    opened (.leaving stand outcome) = some i := by
  unfold resume at has
  split at has
  · exact has
  · split at has <;> cases has
  · split at has <;> cases has
  · cases has
  · exact has
  · cases has

theorem turn_inv {b : Turns} (turn : withLastLock.Turn a b) (inv : LockInv a) : LockInv b := by
  have alone := turn_alone turn inv.alone
  cases turn with
  | spawn p absent =>
    exact inv.put alone (fun s l same => by cases same) rfl rfl (textKept_refl a p)
      (fun i holds => by cases holds) (fun i has => by cases has) fun s l same => by cases same
  | crash p =>
    refine ⟨alone, fun q s l here => inv.starts q s l (update_none here),
      fun q place i here => inv.held q place i (update_none here), inv.fds.crash p, inv.bound,
      fun q place i here => inv.owned q place i (update_none here), fun q s l here => ?_⟩
    have knows := inv.knows q s l (update_none here)
    cases l with
    | unlink judged =>
      refine ⟨knows.1, fun i n at_ text => ?_⟩
      obtain ⟨dead, orphan⟩ := knows.2 i n at_ text
      exact ⟨dead, fun r place there => orphan r place (update_none there)⟩
    | _ => exact knows
  | world c shared moved =>
    cases moved
    exact ⟨alone, inv.starts, inv.held, ⟨inv.fds.drawn, inv.fds.apart⟩, inv.bound, inv.owned,
      fun q s l here => by
        have knows := inv.knows q s l here
        cases l <;> exact knows⟩
  | outer p stand stand' c shared call here moved => exact outer_inv inv here moved alone
  | enter p stand spot here free =>
    refine inv.put alone (fun s l same => by cases same) rfl rfl (textKept_refl a p)
      (fun i holds => by cases holds) (fun i has => ⟨_, here, ?_, fun s write => by cases write⟩)
      fun s l same => ?_
    · rcases inv.starts p stand spot here with ⟨rfl, -⟩ | ⟨rfl, -⟩ <;> exact has
    · cases same
      rcases inv.starts p stand spot here with ⟨rfl, trying⟩ | ⟨rfl, removing⟩
      · exact ⟨trying, by simp⟩
      · exact ⟨removing, by simp⟩
  | refuse p stand spot outcome here unrun =>
    have same : opened (.leaving stand outcome) = fdOf stand ∧
        holding (.leaving stand outcome) = none := by
      cases outcome with
      | returned result => exact absurd rfl (unrun result)
      | busy => cases stand <;> exact ⟨rfl, rfl⟩
      | failed => cases stand <;> exact ⟨rfl, rfl⟩
    refine inv.put alone (fun s l same => by cases same) rfl rfl (textKept_refl a p)
      (fun i holds => ?_) (fun i has => ⟨_, here, same.1.symm.trans has, fun s write => by cases write⟩)
      fun s l same => by cases same
    rw [same.2] at holds
    cases holds
  | inner p stand stand' spot c shared next here moved => exact inner_inv inv here moved alone
  | leave p stand outcome here =>
    exact inv.put alone (fun s l same => by cases same) rfl rfl (textKept_refl a p)
      (fun i holds => ⟨rfl, _, here, resume_holding holds⟩)
      (fun i has => ⟨_, here, resume_opened has, fun s write => by cases write⟩)
      fun s l same => by cases same

abbrev Processes := Guarded Disk Stand Spot Result

/-- A takeover: the lock that is removed names the process that the same call has found
dead, or none, and no live process has it open. -/
def TakesOverTheDead (x : Step Processes (Label Choice)) : Prop :=
  ∀ p stand nonce judged, x.before.procs p = some (.calling stand nonce (.inside (.unlink judged))) →
    Abandoned (taking x.before) judged

/-- A call that goes on to take over what a process named has found that process dead. -/
def FindsDead (x : Step Processes (Label Choice)) : Prop :=
  ∀ p fails c stand nonce n, x.label = .run p fails c →
    x.after.procs p = some (.calling stand nonce (.inside (.unlink (some n)))) →
    x.before.live n = false

/-- The removal after `body` removes the lock of its own process. -/
def ReleasesItsOwn (x : Step Processes (Label Choice)) : Prop :=
  ∀ p stand nonce, x.before.procs p = some (.calling stand nonce (.inside .unlinkOwn)) →
    ∃ fd, stand = .removing fd ∧ x.before.shared.path = some fd

theorem inner_finds {live : Nat → Bool} {d d' : Disk}
    (moved : inner live p d stand spot c = some (d', stand', .inl (.unlink (some n)))) :
    live n = false := by
  cases spot with
  | probe m =>
    simp only [Source.Claude.LastLock.inner] at moved
    split at moved
    · cases moved
    next dead =>
      cases moved
      simpa using dead
  | read =>
    simp only [Source.Claude.LastLock.inner] at moved
    split at moved
    · cases moved
    · split at moved
      · cases moved
      · split at moved <;> cases moved
  | statEmpty =>
    simp only [Source.Claude.LastLock.inner] at moved
    split at moved
    · cases moved
    · split at moved <;> cases moved
  | unlink judged =>
    simp only [Source.Claude.LastLock.inner] at moved
    split at moved
    · cases moved
    · split at moved <;> cases moved
  | openLock =>
    simp only [Source.Claude.LastLock.inner] at moved
    split at moved
    · cases moved
    · split at moved <;> cases moved
  | write ino =>
    simp only [Source.Claude.LastLock.inner] at moved
    split at moved <;> cases moved
  | unlinkBroken =>
    simp only [Source.Claude.LastLock.inner] at moved
    split at moved <;> cases moved
  | statOwn =>
    simp only [Source.Claude.LastLock.inner] at moved
    split at moved
    · split at moved <;> cases moved
    · cases moved
  | unlinkOwn =>
    simp only [Source.Claude.LastLock.inner] at moved
    split at moved <;> cases moved

theorem step_finds {s t : Processes} {label : Label Choice}
    (step : (guarded withLastLock).step s label t) (inv : LockInv (taking s)) :
    FindsDead ⟨s, label, t⟩ := by
  intro p fails c stand nonce n same there
  dsimp only at same there
  subst same
  cases MutationGuard.step_effect step with
  | outer _ _ _ o o' shared here moved =>
    rw [MutationGuard.procs_put, if_pos rfl] at there
    cases there
  | call _ _ _ o o' shared l here moved =>
    rw [MutationGuard.procs_put, if_pos rfl] at there
    cases there
  | inner _ _ _ o o' nonce' l shared next here moved =>
    rw [MutationGuard.procs_put, if_pos rfl] at there
    cases next with
    | inl spot =>
      cases there
      exact inner_finds moved
    | inr result => cases there
  | ends _ _ _ o nonce' outcome here =>
    rw [MutationGuard.procs_put, if_pos rfl] at there
    cases there
  | guards _ _ _ o nonce' at_ to_ guard here effect =>
    rw [MutationGuard.procs_put, if_pos rfl] at there
    cases there
    -- A call enters with the first step of its callback.
    cases effect with
    | takes at_ l free early =>
      have starts := inv.starts p stand (.unlink (some n))
      rcases early with rfl | rfl
      · rcases starts (taking_place here) with ⟨other, -⟩ | ⟨other, -⟩ <;> cases other
      · rcases starts (taking_place here) with ⟨other, -⟩ | ⟨other, -⟩ <;> cases other
    | moves at_ to_ unclaimed unseen stage => cases unclaimed
    | removes at_ to_ empty unclaimed unseen stage => cases unclaimed

theorem start_lock {s : Processes} (start : (guarded withLastLock).start s) :
    LockInv (taking s) := by
  have idle : ∀ p, (taking s).places p = none := fun p => by simp [taking, start.1.1 p]
  refine ⟨fun p q _ _ _ _ here => ?_, fun p _ _ here => ?_, fun p _ _ here => ?_,
    ⟨fun p _ _ here => ?_, fun p _ _ _ _ here => ?_⟩, start.2, fun p _ _ here => ?_,
    fun p _ _ here => ?_⟩ <;>
  · rw [idle p] at here
    cases here

/-- `body` runs in at most one live process, no lock of a live process is taken over, and
a removal removes the process's own lock. -/
theorem last_lock_exclusive {s t : Processes} {steps : List (Step Processes (Label Choice))}
    (start : (guarded withLastLock).start s) (run : (guarded withLastLock).Run s steps t) :
    (∀ p q fd fd', t.procs p = some (.outer (.body fd)) → t.procs q = some (.outer (.body fd')) →
      p = q) ∧
    (∀ x ∈ steps, TakesOverTheDead x ∧ FindsDead x) ∧ ∀ x ∈ steps, ReleasesItsOwn x := by
  have first : GuardInv s ∧ LockInv (taking s) := ⟨start_inv start, start_lock start⟩
  have kept : ∀ m label n, (guarded withLastLock).step m label n →
      GuardInv m ∧ LockInv (taking m) → GuardInv n ∧ LockInv (taking n) := fun m label n step inv =>
    step_taking step (fun b turn => turn_inv turn inv.2) inv
  have each : ∀ (Q : Step Processes (Label Choice) → Prop),
      (∀ m label n, (guarded withLastLock).step m label n → LockInv (taking m) → Q ⟨m, label, n⟩) →
      ∀ x ∈ steps, Q x := fun Q holds =>
    run.steps_of (fun s => GuardInv s ∧ LockInv (taking s)) (fun _ => True) Q first
      (fun m label n step _ inv => kept m label n step inv)
      (fun m label n step _ inv => holds m label n step inv.2) fun _ _ => trivial
  refine ⟨?_, each _ fun m label n step inv => ⟨?_, step_finds step inv⟩,
    each _ fun m label n step inv p stand nonce here => ?_⟩
  · have inv := run.invariant _ first kept
    intro p q fd fd' here there
    obtain ⟨at_, text⟩ := inv.2.held p _ fd (taking_place here) rfl
    obtain ⟨at', text'⟩ := inv.2.held q _ fd' (taking_place there) rfl
    rw [at_] at at'
    cases at'
    rw [text] at text'
    cases text'
    rfl
  · intro p stand nonce judged here
    exact (inv.knows p stand _ (taking_place here)).2
  · exact inv.knows p stand _ (taking_place here)

def sampleStart : Processes := ⟨none, 0, ⟨none, fun _ => .empty, fun _ => 0, 0, 0⟩, fun _ => none⟩

def runs (p count : Nat) : List (Label Choice) := List.replicate count (.run p false ⟨false, 0⟩)

/-- Process 1 dies in `body`, and process 2 takes its lock over. -/
def sampleLabels : List (Label Choice) :=
  .spawn 1 :: runs 1 12 ++ .crash 1 :: .spawn 2 :: runs 2 13

def sampleEnd : Processes := runInputs (stepped (advance withLastLock)) sampleStart sampleLabels

theorem last_lock_exclusive_sample :
    sampleEnd.procs 2 = some (.outer (.body 1)) ∧ ∀ p q fd fd',
      sampleEnd.procs p = some (.outer (.body fd)) → sampleEnd.procs q = some (.outer (.body fd')) →
        p = q :=
  ⟨by decide, (last_lock_exclusive
    ⟨⟨fun _ => rfl, by simp [sampleStart]⟩, by simp [withLastLock, start, sampleStart]⟩
    (run_stepped sampleStart sampleLabels (by decide))).1⟩

end Ultrathink.Guarantees.LastLock
