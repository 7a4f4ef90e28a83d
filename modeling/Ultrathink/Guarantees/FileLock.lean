import Ultrathink.Guarantees.MutationGuard
import Ultrathink.Source.Claude.FileLock

/-!
# Critical sections under a file lock do not overlap

The lock file of a process that holds the lock has its token and the time at which it
was written. A process that finds the file too old to be held finds no holder, as long
as no holder takes longer than `staleMs`.
-/

namespace Ultrathink.Guarantees.FileLock

open Library Runs Processes Mutex
open Source.Claude.Atomic Source.Claude.FileLock
open MutationGuard (GuardInv start_inv step_taking taking taking_place)

/-- The processes of `withFileLock`, as they take turns. -/
abbrev Turns := Taking Disk Stand Spot Result

/-- The token of a holder, and when it was written: a process holds the lock from the
write of its token to the end of `fn`. -/
def holding : Place Stand Spot Result → Option (Nat × Nat)
  | .inside (.acquiring token _ _) (.closeLock since) => some (token, since)
  | .leaving (.acquiring token _ _) (.returned (.taken since)) => some (token, since)
  | .outer (.critical token since) => some (token, since)
  | _ => none

def standOf : Place Stand Spot Result → Stand
  | .outer stand | .entering stand _ | .inside stand _ | .leaving stand _ => stand

/-- No holder has had the lock for longer than `staleMs`. -/
def Timely (o : LockOptions) (a : Turns) : Prop :=
  ∀ p place token since, a.places p = some place → holding place = some (token, since) →
    a.shared.clock ≤ since + o.staleMs

def Free (a : Turns) : Prop := ∀ p place, a.places p = some place → holding place = none

def Acquires (stand : Stand) : Prop := ∃ token started tries, stand = .acquiring token started tries

/-- What a process inside the guard knows of the lock. -/
def Knows (a : Turns) (stand : Stand) : Spot → Prop
  | .openLock => Acquires stand
  | .writeToken ino => Acquires stand ∧ ∃ mtimeMs, a.shared.lock = some ⟨ino, none, mtimeMs⟩
  | .statLock seen => seen ≤ a.shared.clock
  | .unlinkBroken | .unlinkStale => Free a
  | .unlinkToken => ∃ file token, a.shared.lock = some file ∧ file.token = some token ∧
      stand.token = some token
  | .closeLock _ | .readClock | .readToken => True

def Starts (stand : Stand) (spot : Spot) : Prop :=
  (spot = .openLock ∧ Acquires stand) ∨ spot = .readToken

structure LockInv (a : Turns) : Prop where
  alone : Alone a
  starts : ∀ p stand spot, a.places p = some (.entering stand spot) → Starts stand spot
  held : ∀ p place token since, a.places p = some place → holding place = some (token, since) →
    ∃ file, a.shared.lock = some file ∧ file.token = some token ∧ file.mtimeMs = since
  tokens : Tickets (fun place => (standOf place).token) a.shared.tokens a.places
  file : ∀ file token, a.shared.lock = some file → file.token = some token →
    token < a.shared.tokens
  knows : ∀ p stand spot, a.places p = some (.inside stand spot) → Knows a stand spot

variable {stand stand' : Stand} {a : Turns} {p : Nat} {spot : Spot}
  {place : Place Stand Spot Result} {shared : Disk} {o : LockOptions} {c : Choice} {result : Result}

variable {token since t : Nat} {call : Option Spot} {outcome : Outcome Result}
  {next : Spot ⊕ Result}

theorem holding_token (holds : holding place = some (token, since)) :
    (standOf place).token = some token := by
  unfold holding at holds
  split at holds
  · cases holds
    rfl
  · cases holds
    rfl
  · cases holds
    rfl
  · cases holds

/-- A process that moved to `place` holds the lock only if it did before. -/
def HoldingKept (a : Turns) (p : Nat) (place : Place Stand Spot Result) : Prop :=
  ∀ token since, holding place = some (token, since) →
    ∃ old, a.places p = some old ∧ holding old = some (token, since)

theorem Free.put (free : Free a) (kept : HoldingKept a p place) :
    Free ({ a with shared := shared }.put p place) := by
  intro q place' here
  rcases put_places here with ⟨rfl, rfl⟩ | ⟨-, was⟩
  · cases holds : holding place' with
    | none => rfl
    | some held =>
      obtain ⟨old, was, had⟩ := kept held.1 held.2 holds
      rw [free q old was] at had
      cases had
  · exact free q place' was

theorem Knows.put (knows : Knows a stand spot) (kept : HoldingKept a p place)
    (lock : shared.lock = a.shared.lock) (clock : a.shared.clock ≤ shared.clock) :
    Knows ({ a with shared := shared }.put p place) stand spot := by
  cases spot with
  | writeToken ino =>
    obtain ⟨acquiring, mtimeMs, at_⟩ := knows
    exact ⟨acquiring, mtimeMs, lock.trans at_⟩
  | statLock seen => exact Nat.le_trans knows clock
  | unlinkBroken => exact Free.put knows kept
  | unlinkStale => exact Free.put knows kept
  | unlinkToken =>
    obtain ⟨file, token, at_, own⟩ := knows
    exact ⟨file, token, lock.trans at_, own⟩
  | openLock => exact knows
  | closeLock since => trivial
  | readClock => trivial
  | readToken => trivial

theorem LockInv.put (inv : LockInv a) (alone : Alone ({ a with shared := shared }.put p place))
    (starts : ∀ stand spot, place = .entering stand spot → Starts stand spot)
    (lock : shared.lock = a.shared.lock) (clock : a.shared.clock ≤ shared.clock)
    (grown : a.shared.tokens ≤ shared.tokens)
    (mine : ∀ t, (standOf place).token = some t → (t = a.shared.tokens ∧ t < shared.tokens) ∨
      ∃ old, a.places p = some old ∧ (standOf old).token = some t) (kept : HoldingKept a p place)
    (knows : ∀ stand spot, place = .inside stand spot → Knows a stand spot) :
    LockInv ({ a with shared := shared }.put p place) := by
  refine ⟨alone, fun q stand spot here => ?_, fun q place' token since here holds => ?_,
    inv.tokens.put grown mine, fun file token at_ own => ?_, fun q stand spot here => ?_⟩
  · rcases put_places here with ⟨rfl, rfl⟩ | ⟨-, was⟩
    · exact starts stand spot rfl
    · exact inv.starts q stand spot was
  · rcases put_places here with ⟨rfl, rfl⟩ | ⟨-, was⟩
    · obtain ⟨old, was, had⟩ := kept token since holds
      exact lock ▸ inv.held q old token since was had
    · exact lock ▸ inv.held q place' token since was holds
  · exact Nat.lt_of_lt_of_le (inv.file file token (lock.symm.trans at_) own) grown
  · rcases put_places here with ⟨rfl, rfl⟩ | ⟨-, was⟩
    · exact (knows stand spot rfl).put kept lock clock
    · exact (inv.knows q stand spot was).put kept lock clock

/-- A step of the process inside the guard that changes the lock file, while no process
holds the lock. -/
theorem LockInv.replace (inv : LockInv a) (here : a.places p = some (.inside stand spot))
    (free : Free a) (alone : Alone ({ a with shared := shared }.put p place))
    (unstarted : ∀ stand spot, place ≠ .entering stand spot)
    (tokens : shared.tokens = a.shared.tokens) (same : standOf place = stand)
    (held : ∀ token since, holding place = some (token, since) →
      ∃ file, shared.lock = some file ∧ file.token = some token ∧ file.mtimeMs = since)
    (file : ∀ file token, shared.lock = some file → file.token = some token →
      token < shared.tokens) (knows : ∀ stand spot, place = .inside stand spot →
      Knows ({ a with shared := shared }.put p place) stand spot) :
    LockInv ({ a with shared := shared }.put p place) := by
  refine ⟨alone, fun q stand spot there => ?_, fun q place' token since there holds => ?_,
    inv.tokens.put (Nat.le_of_eq tokens.symm) fun t has => ?_, file, fun q stand spot there => ?_⟩
  · rcases put_places there with ⟨rfl, rfl⟩ | ⟨-, was⟩
    · exact absurd rfl (unstarted stand spot)
    · exact inv.starts q stand spot was
  · rcases put_places there with ⟨rfl, rfl⟩ | ⟨-, was⟩
    · exact held token since holds
    · rw [free q place' was] at holds
      cases holds
  · rw [same] at has
    exact Or.inr ⟨_, here, has⟩
  · rcases put_places there with ⟨rfl, rfl⟩ | ⟨other, was⟩
    · exact knows stand spot rfl
    · exact absurd (inv.alone q p _ _ _ _ was here) other

theorem outer_frame {live : Nat → Bool} {d d' : Disk}
    (moved : outer o live p d stand c = some (d', stand', call)) :
    d'.lock = d.lock ∧ d'.clock = d.clock ∧ d.tokens ≤ d'.tokens ∧
      (∀ t, stand'.token = some t → (t = d.tokens ∧ t < d'.tokens) ∨ stand.token = some t) ∧
      (∀ spot, call = some spot → Starts stand' spot) ∧ ∀ t since, stand' ≠ .critical t since := by
  unfold outer at moved
  split at moved
  · cases moved
    refine ⟨rfl, rfl, Nat.le_succ _, fun t holds => Or.inl ?_, by simp, by simp⟩
    cases holds
    exact ⟨rfl, Nat.lt_succ_self _⟩
  · cases moved
    refine ⟨rfl, rfl, Nat.le_refl _, fun t holds => Or.inr holds, fun spot same => ?_, by simp⟩
    cases same
    exact Or.inl ⟨rfl, _, _, _, rfl⟩
  · split at moved
    · cases moved
      exact ⟨rfl, rfl, Nat.le_refl _, (fun t holds => by cases holds), by simp, by simp⟩
    · cases moved
      exact ⟨rfl, rfl, Nat.le_refl _, fun t holds => Or.inr holds, by simp, by simp⟩
  · cases moved
    exact ⟨rfl, rfl, Nat.le_refl _, fun t holds => Or.inr holds, by simp, by simp⟩
  · cases moved
    refine ⟨rfl, rfl, Nat.le_refl _, fun t holds => Or.inr holds, fun spot same => ?_, by simp⟩
    cases same
    exact Or.inr rfl
  · split at moved
    · cases moved
      exact ⟨rfl, rfl, Nat.le_refl _, (fun t holds => by cases holds), by simp, by simp⟩
    · cases moved
      exact ⟨rfl, rfl, Nat.le_refl _, fun t holds => Or.inr holds, by simp, by simp⟩
  · cases moved
    exact ⟨rfl, rfl, Nat.le_refl _, (fun t holds => by cases holds), by simp, by simp⟩

theorem resume_token (holds : (resume stand outcome).token = some t) : stand.token = some t := by
  unfold resume at holds
  split at holds
  · exact holds
  · split at holds
    · exact holds
    · exact holds
  · exact holds
  · cases holds
  · exact holds
  · cases holds

theorem resume_holding (holds : holding (.outer (resume stand outcome)) = some (t, since)) :
    holding (.leaving stand outcome) = some (t, since) := by
  unfold resume at holds
  split at holds
  · exact holds
  · split at holds <;> cases holds
  · cases holds
  · cases holds
  · cases holds
  · cases holds

theorem outer_inv (inv : LockInv a) (here : a.places p = some (.outer stand))
    (moved : outer o a.live p a.shared stand c = some (shared, stand', call))
    (alone : Alone ({ a with shared := shared }.put p (.called stand' call))) :
    LockInv ({ a with shared := shared }.put p (.called stand' call)) := by
  obtain ⟨lock, clock, grown, mine, starts, uncritical⟩ := outer_frame moved
  have stand_ : standOf (.called stand' call) = stand' := by cases call <;> rfl
  have none_ : holding (.called stand' call) = none := by
    cases call with
    | some spot => rfl
    | none =>
      cases stand' with
      | critical t since => exact absurd rfl (uncritical t since)
      | _ => rfl
  refine inv.put alone (fun s spot same => ?_) lock (Nat.le_of_eq clock.symm) grown (fun t holds => ?_)
    (fun t since holds => ?_) fun s spot same => ?_
  · cases call with
    | none => cases same
    | some started =>
      cases same
      exact starts spot rfl
  · rw [stand_] at holds
    rcases mine t holds with new | old
    · exact Or.inl new
    · exact Or.inr ⟨_, here, old⟩
  · rw [none_] at holds
    cases holds
  · cases call <;> cases same

theorem free_of (inv : LockInv a) (unfit : ∀ p place token since file, a.places p = some place →
      holding place = some (token, since) → a.shared.lock = some file → file.token = some token →
      file.mtimeMs = since → False) : Free a := by
  intro p place here
  cases holds : holding place with
  | none => rfl
  | some held =>
    obtain ⟨file, at_, own, written⟩ := inv.held p place held.1 held.2 here holds
    exact (unfit p place held.1 held.2 file here holds at_ own written).elim

theorem free_of_token (inv : LockInv a) {file : LockFile}
    (here : a.places p = some (.inside stand spot)) (none_ : holding (.inside stand spot) = none)
    (at_ : a.shared.lock = some file) (own : file.token = some token)
    (mine : stand.token = some token) : Free a := by
  refine free_of inv fun q place t since file' there holds at' own' _ => ?_
  rw [at_] at at'
  cases at'
  rw [own] at own'
  cases own'
  -- The holder has the token of `p`, so it is `p`.
  have same := inv.tokens.apart p q _ place token here there mine (holding_token holds)
  subst same
  rw [here] at there
  cases there
  rw [none_] at holds
  cases holds

theorem holding_inside (other : ∀ since, spot ≠ .closeLock since) :
    holding (.inside stand spot) = none := by
  unfold holding
  split
  next same =>
    cases same
    exact absurd rfl (other _)
  next same => cases same
  next same => cases same
  next => rfl

theorem holding_returned (other : ∀ since, result ≠ .taken since) :
    holding (.leaving stand (.returned result)) = none := by
  unfold holding
  split
  next same => cases same
  next same =>
    cases same
    exact absurd rfl (other _)
  next same => cases same
  next => rfl

theorem holdingKept_of_none (none_ : holding place = none) : HoldingKept a p place := by
  intro token since holds
  rw [none_] at holds
  cases holds

theorem looks_inv (inv : LockInv a) (here : a.places p = some (.inside stand spot))
    (kept : HoldingKept a p (.stepped stand next))
    (learns : ∀ spot', next = .inl spot' → Knows a stand spot')
    (alone : Alone ({ a with shared := a.shared }.put p (.stepped stand next))) :
    LockInv ({ a with shared := a.shared }.put p (.stepped stand next)) := by
  have stand_ : standOf (.stepped stand next) = stand := by cases next <;> rfl
  refine inv.put alone (fun s spot' same => ?_) rfl (Nat.le_refl _) (Nat.le_refl _)
    (fun t holds => Or.inr ⟨_, here, stand_ ▸ holds⟩) kept fun s spot' same => ?_
  · cases next <;> cases same
  · cases next with
    | inl known =>
      cases same
      exact learns spot' rfl
    | inr result => cases same

theorem returns_inv (inv : LockInv a) (here : a.places p = some (.inside stand spot))
    (other : ∀ since, result ≠ .taken since)
    (alone : Alone ({ a with shared := a.shared }.put p (.stepped stand (.inr result)))) :
    LockInv ({ a with shared := a.shared }.put p (.stepped stand (.inr result))) :=
  looks_inv inv here (holdingKept_of_none (holding_returned other)) (fun _ same => by cases same) alone

theorem goes_inv {spot' : Spot} (inv : LockInv a) (here : a.places p = some (.inside stand spot))
    (other : ∀ since, spot' ≠ .closeLock since) (learns : Knows a stand spot')
    (alone : Alone ({ a with shared := a.shared }.put p (.stepped stand (.inl spot')))) :
    LockInv ({ a with shared := a.shared }.put p (.stepped stand (.inl spot'))) :=
  looks_inv inv here (holdingKept_of_none (holding_inside other))
    (fun _ same => by cases same; exact learns) alone

theorem unlink_inv (inv : LockInv a) (here : a.places p = some (.inside stand spot)) (free : Free a)
    (other : ∀ since, result ≠ .taken since)
    (alone : Alone ({ a with shared := { a.shared with lock := none } }.put p
      (.stepped stand (.inr result)))) :
    LockInv ({ a with shared := { a.shared with lock := none } }.put p
      (.stepped stand (.inr result))) := by
  refine inv.replace here free alone (by simp [Place.stepped]) rfl rfl (fun t since holds => ?_)
    (fun file t at_ => by cases at_) fun s spot' same => by cases same
  rw [Place.stepped, holding_returned other] at holds
  cases holds

theorem inner_inv (inv : LockInv a) (timely : Timely o a)
    (here : a.places p = some (.inside stand spot))
    (moved : inner o a.live p a.shared stand spot c = some (shared, stand', next))
    (alone : Alone ({ a with shared := shared }.put p (.stepped stand' next))) :
    LockInv ({ a with shared := shared }.put p (.stepped stand' next)) := by
  have knows := inv.knows p stand spot here
  cases spot with
  | openLock =>
    simp only [Source.Claude.FileLock.inner] at moved
    split at moved
    · cases moved
      exact returns_inv inv here (by simp) alone
    · split at moved
      next none_ =>
        cases moved
        have free := free_of inv fun q place t since file _ _ at_ _ _ => by
          rw [none_] at at_
          cases at_
        refine inv.replace here free alone (by simp [Place.stepped]) rfl rfl (fun t since holds => ?_)
          (fun file t at_ own => ?_) fun s spot' same => ?_
        · rw [Place.stepped, holding_inside (by simp)] at holds
          cases holds
        · cases at_
          cases own
        · cases same
          exact ⟨knows, _, rfl⟩
      · cases moved
        exact goes_inv inv here (by simp) trivial alone
  | writeToken ino =>
    obtain ⟨⟨token, started, tries, rfl⟩, mtimeMs, at_⟩ := knows
    have free : Free a := free_of inv fun q place t since file _ _ at' own _ => by
      rw [at_] at at'
      cases at'
      cases own
    simp only [Source.Claude.FileLock.inner] at moved
    split at moved
    · cases moved
      exact goes_inv inv here (by simp) free alone
    · cases moved
      refine inv.replace here free alone (by simp [Place.stepped]) rfl rfl (fun t since holds => ?_)
        (fun file t written own => ?_) fun s spot' same => ?_
      · cases holds
        simp [at_, Stand.token]
      · simp only [at_, Option.map_some, if_true, Option.some.injEq] at written
        rw [← written] at own
        exact inv.tokens.drawn p _ t here own
      · cases same
        trivial
  | unlinkBroken =>
    simp only [Source.Claude.FileLock.inner] at moved
    split at moved
    · cases moved
      exact returns_inv inv here (by simp) alone
    · cases moved
      exact unlink_inv inv here knows (by simp) alone
  | closeLock since =>
    simp only [Source.Claude.FileLock.inner] at moved
    split at moved
    · cases moved
      exact returns_inv inv here (by simp) alone
    · cases moved
      refine looks_inv inv here (fun t since' holds => ⟨_, here, ?_⟩) (fun _ same => by cases same) alone
      cases stand with
      | acquiring token started tries => exact holds
      | _ => cases holds
  | readClock =>
    simp only [Source.Claude.FileLock.inner] at moved
    split at moved
    next seen =>
      cases moved
      exact goes_inv inv here (by simp) seen alone
    · cases moved
  | statLock seen =>
    simp only [Source.Claude.FileLock.inner] at moved
    split at moved
    · cases moved
      exact returns_inv inv here (by simp) alone
    next file at_ =>
      split at moved
      · cases moved
        exact returns_inv inv here (by simp) alone
      next old =>
        cases moved
        simp only [Bool.or_eq_true, decide_eq_true_eq, not_or] at old
        -- A holder of this file would have held it for too long.
        refine goes_inv inv here (by simp) (free_of inv fun q place t since file' there holds at' _ written => ?_) alone
        rw [at_] at at'
        cases at'
        have short := timely q place t since there holds
        have late : seen ≤ a.shared.clock := knows
        omega
  | unlinkStale =>
    simp only [Source.Claude.FileLock.inner] at moved
    split at moved
    · cases moved
      exact returns_inv inv here (by simp) alone
    · split at moved
      · cases moved
        exact returns_inv inv here (by simp) alone
      · cases moved
        exact unlink_inv inv here knows (by simp) alone
  | readToken =>
    simp only [Source.Claude.FileLock.inner] at moved
    split at moved
    next own =>
      cases moved
      simp only [Bool.and_eq_true, Option.any_eq_true, decide_eq_true_eq] at own
      obtain ⟨-, file, at_, has, same⟩ := own
      obtain ⟨token, holds⟩ := Option.isSome_iff_exists.mp has
      exact goes_inv inv here (by simp) ⟨file, token, at_, holds, same.symm.trans holds⟩ alone
    · cases moved
      exact returns_inv inv here (by simp) alone
  | unlinkToken =>
    obtain ⟨file, token, at_, own, mine⟩ := knows
    simp only [Source.Claude.FileLock.inner] at moved
    split at moved
    · cases moved
      exact returns_inv inv here (by simp) alone
    · cases moved
      exact unlink_inv inv here (free_of_token inv here (holding_inside (by simp)) at_ own mine)
        (by simp) alone

theorem turn_inv {b : Turns} (turn : (withFileLock o).Turn a b) (timely : Timely o a)
    (inv : LockInv a) : LockInv b := by
  have alone := turn_alone turn inv.alone
  cases turn with
  | spawn p absent =>
    exact inv.put alone (by simp) rfl (Nat.le_refl _) (Nat.le_refl _) (fun t holds => by cases holds)
      (holdingKept_of_none rfl) (by simp)
  | crash p =>
    refine ⟨alone, fun q stand spot here => inv.starts q stand spot (update_none here),
      fun q place token since here => inv.held q place token since (update_none here),
      inv.tokens.crash p, inv.file, fun q stand spot here => ?_⟩
    have knows := inv.knows q stand spot (update_none here)
    cases spot with
    | unlinkBroken => exact fun r place there => knows r place (update_none there)
    | unlinkStale => exact fun r place there => knows r place (update_none there)
    | _ => exact knows
  | world c shared moved =>
    simp only [withFileLock, world] at moved
    split at moved
    next later =>
      cases moved
      refine ⟨alone, inv.starts, inv.held, ⟨inv.tokens.drawn, inv.tokens.apart⟩, inv.file,
        fun q stand spot here => ?_⟩
      have knows := inv.knows q stand spot here
      cases spot with
      | statLock seen => exact Nat.le_trans knows later
      | _ => exact knows
    · cases moved
  | outer p stand stand' c shared call here moved => exact outer_inv inv here moved alone
  | enter p stand spot here free =>
    refine inv.put alone (by simp) rfl (Nat.le_refl _) (Nat.le_refl _)
      (fun t holds => Or.inr ⟨_, here, holds⟩) (holdingKept_of_none ?_) fun s l same => ?_
    · rcases inv.starts p stand spot here with ⟨rfl, -⟩ | rfl <;> exact holding_inside (by simp)
    · cases same
      rcases inv.starts p stand spot here with ⟨rfl, acquires⟩ | rfl
      · exact acquires
      · trivial
  | refuse p stand spot outcome here unrun =>
    refine inv.put alone (by simp) rfl (Nat.le_refl _) (Nat.le_refl _)
      (fun t holds => Or.inr ⟨_, here, holds⟩) (holdingKept_of_none ?_) (by simp)
    cases outcome with
    | returned result => exact absurd rfl (unrun result)
    | busy => cases stand <;> rfl
    | failed => cases stand <;> rfl
  | inner p stand stand' spot c shared next here moved => exact inner_inv inv timely here moved alone
  | leave p stand outcome here =>
    exact inv.put alone (by simp) rfl (Nat.le_refl _) (Nat.le_refl _)
      (fun t holds => Or.inr ⟨_, here, resume_token holds⟩)
      (fun t since holds => ⟨_, here, resume_holding holds⟩) (by simp)

abbrev Processes := Guarded Disk Stand Spot Result

/-- The process runs `fn`, with the lock or without it. -/
def Runs (s : Processes) (p : Nat) : Prop :=
  (∃ token since, s.procs p = some (.outer (.critical token since))) ∨
    s.procs p = some (.outer .unlocked)

/-- Where `release` removes the lock file, the file has its own token and nobody holds
the lock. -/
def ReleasesItsOwn (x : Step Processes (Label Choice)) : Prop :=
  ∀ p fails c stand nonce, x.label = .run p fails c →
    x.before.procs p = some (.calling stand nonce (.inside .unlinkToken)) →
    (∃ file token, x.before.shared.lock = some file ∧ file.token = some token ∧
      stand.token = some token) ∧ Free (taking x.before)

/-- A process gives up waiting and runs `fn` unlocked. -/
def fallsBack (x : Step Processes (Label Choice)) : Bool :=
  match x.label with
  | .run p _ _ => x.after.procs p = some (.outer .unlocked)
  | _ => false

variable {s : Processes}

theorem step_locked {t : Processes} {label : Label Choice}
    (step : (guarded (withFileLock o)).step s label t) (stays : fallsBack ⟨s, label, t⟩ = false)
    (locked : ∀ p, s.procs p ≠ some (.outer .unlocked)) :
    ∀ p, t.procs p ≠ some (.outer .unlocked) := by
  -- Only the process that takes the step changes its place.
  have others : ∀ p q proc, q ≠ p →
      Function.update s.procs p proc q ≠ some (.outer .unlocked) := by
    intro p q proc other
    rw [Function.update_of_ne other]
    exact locked q
  have moved : ∀ p fails c, label = .run p fails c → t.procs p ≠ some (.outer .unlocked) := by
    intro p fails c same
    simpa [fallsBack, same] using stays
  intro q
  cases MutationGuard.step_effect step with
  | spawn p absent =>
    rcases eq_or_ne q p with rfl | other
    · simp [Guarded.put, withFileLock, first]
    · exact others p q _ other
  | crash p =>
    rcases eq_or_ne q p with rfl | other
    · simp
    · exact others p q _ other
  | world c shared moved => exact locked q
  | outer p fails c o o' shared here step =>
    rcases eq_or_ne q p with rfl | other
    · exact moved q fails c rfl
    · exact others p q _ other
  | call p fails c o o' shared l here step =>
    rcases eq_or_ne q p with rfl | other
    · exact moved q fails c rfl
    · exact others p q _ other
  | inner p fails c o o' nonce l shared next here step =>
    rcases eq_or_ne q p with rfl | other
    · exact moved q fails c rfl
    · exact others p q _ other
  | ends p fails c o nonce outcome here =>
    rcases eq_or_ne q p with rfl | other
    · exact moved q fails c rfl
    · exact others p q _ other
  | guards p fails c o nonce at_ to_ guard here effect =>
    rcases eq_or_ne q p with rfl | other
    · exact moved q fails c rfl
    · exact others p q _ other

theorem start_lock (start : (guarded (withFileLock o)).start s) :
    LockInv (taking s) := by
  have idle : ∀ p, (taking s).places p = none := fun p => by simp [taking, start.1.1 p]
  refine ⟨fun p q _ _ _ _ here => ?_, fun p _ _ here => ?_, fun p _ _ _ here => ?_,
    ⟨fun p _ _ here => ?_, fun p _ _ _ _ here => ?_⟩, start.2, fun p _ _ here => ?_⟩ <;>
  · rw [idle p] at here
    cases here

theorem releases_own {x : Step Processes (Label Choice)}
    (inv : LockInv (taking x.before)) : ReleasesItsOwn x := by
  intro p fails c stand nonce _ here
  have place := taking_place here
  obtain ⟨file, token, at_, own, mine⟩ := inv.knows p stand .unlinkToken place
  exact ⟨⟨file, token, at_, own, mine⟩,
    free_of_token inv place (holding_inside (by simp)) at_ own mine⟩

/-- When nobody holds the lock for longer than `staleMs`, from the write of the token to
the end of `fn`, and nobody gives up waiting, critical sections do not overlap and a
release removes no lock but its own. -/
theorem file_lock_exclusive (o : LockOptions) {s t : Processes}
    {steps : List (Step Processes (Label Choice))}
    (start : (guarded (withFileLock o)).start s) (run : (guarded (withFileLock o)).Run s steps t)
    (short : ∀ x ∈ steps, Timely o (taking x.before))
    (locked : ∀ x ∈ steps, fallsBack x = false) :
    (∀ p q, Runs t p → Runs t q → p = q) ∧ ∀ x ∈ steps, ReleasesItsOwn x := by
  have first := start_lock start
  have kept : ∀ m label n, (guarded (withFileLock o)).step m label n → Timely o (taking m) →
      GuardInv m ∧ LockInv (taking m) → GuardInv n ∧ LockInv (taking n) := fun m label n step timely inv =>
    step_taking step (fun b turn => turn_inv turn timely inv.2) inv
  constructor
  · have inv := run.invariant_of (fun s => GuardInv s ∧ LockInv (taking s))
      (fun x => Timely o (taking x.before)) ⟨start_inv start, first⟩ kept short
    have waited : ∀ p, t.procs p ≠ some (.outer .unlocked) :=
      run.invariant_of (fun s => ∀ p, s.procs p ≠ some (.outer .unlocked))
        (fun x => fallsBack x = false) (fun p => by simp [start.1.1 p])
        (fun _ _ _ step stays locked => step_locked step stays locked) locked
    intro p q runs runs'
    rcases runs with ⟨token, since, here⟩ | fallen
    · rcases runs' with ⟨token', since', there⟩ | fallen
      · obtain ⟨file, at_, own, -⟩ := inv.2.held p _ token since (taking_place here) rfl
        obtain ⟨file', at', own', -⟩ := inv.2.held q _ token' since' (taking_place there) rfl
        rw [at_] at at'
        cases at'
        rw [own] at own'
        cases own'
        exact inv.2.tokens.apart p q _ _ token (taking_place here) (taking_place there) rfl rfl
      · exact absurd fallen (waited q)
    · exact absurd fallen (waited p)
  · exact run.steps_of (fun s => GuardInv s ∧ LockInv (taking s)) (fun x => Timely o (taking x.before))
      ReleasesItsOwn ⟨start_inv start, first⟩ kept (fun _ _ _ _ _ inv => releases_own inv.2) short

def sampleOptions : LockOptions := ⟨10, 5⟩

def sampleStart : Processes := ⟨none, 0, ⟨none, 0, 0, 0⟩, fun _ => none⟩

def runs (p count : Nat) : List (Label Choice) := List.replicate count (.run p false ⟨false, 0⟩)

/-- Process 1 takes the lock, process 2 finds it fresh and waits, then takes it after
the release. -/
def sampleLabels : List (Label Choice) :=
  .spawn 1 :: runs 1 11 ++ .spawn 2 :: runs 2 11 ++ runs 1 10 ++ runs 2 11

def sampleEnd : Processes :=
  runInputs (stepped (advance (withFileLock sampleOptions))) sampleStart sampleLabels

theorem file_lock_exclusive_sample :
    sampleEnd.procs 2 = some (.outer (.critical 1 0)) ∧
      ∀ p q, Runs sampleEnd p → Runs sampleEnd q → p = q := by
  refine ⟨by decide +kernel, (@file_lock_exclusive sampleOptions sampleStart _ (traceOf
    (stepped (advance (withFileLock sampleOptions))) sampleStart sampleLabels) ?_ ?_ ?_ ?_).1⟩
  · exact ⟨⟨fun _ => rfl, by simp [sampleStart]⟩, fun file token at_ => by cases at_⟩
  · exact run_stepped sampleStart sampleLabels (by decide)
  · intro x mem p place token since _ _
    have early : ∀ x ∈ traceOf (stepped (advance (withFileLock sampleOptions))) sampleStart sampleLabels,
        x.before.shared.clock = 0 := by decide
    have zero : (taking x.before).shared.clock = 0 := early x mem
    omega
  · decide

end Ultrathink.Guarantees.FileLock
