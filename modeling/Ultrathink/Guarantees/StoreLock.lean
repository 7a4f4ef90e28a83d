import Ultrathink.Source.Mcp.StoreLock

/-!
# Breaking a stale credential store lock

A call that holds the lock has its directory at the path, as long as every break finds
there the lock that it judged stale. A break that finds another one takes a fresh lock
away from its holder.
-/

namespace Ultrathink.Guarantees.StoreLock

open Library Runs Processes
open Source.Mcp.StoreLock

/-- `fn` runs. -/
def Inside (s : Calls) (p : Nat) : Prop :=
  ∃ nonce, s.calls p = some ⟨nonce, .holding⟩ ∨ s.calls p = some ⟨nonce, .beating⟩

/-- The lock at the path is not older than the stale limit while its maker holds it. -/
def fresh (staleMs : Nat) (s : Calls) : Bool :=
  match s.disk.lock with
  | none => true
  | some dir =>
    match s.calls dir.maker with
    | none => true
    | some call => !call.stand.holds || s.disk.clock ≤ dir.mtimeMs + staleMs

/-- A break finds at the path another lock than the one that was judged stale. -/
def breaksAnother (x : Step Calls Label) : Bool :=
  match x.label with
  | .run p c =>
    match x.before.calls p, x.before.disk.lock with
    | some ⟨_, .breaking owner mtimeMs⟩, some dir =>
      !c.fails && !(dir.owner = owner && dir.mtimeMs = mtimeMs)
    | _, _ => false
  | _ => false

/-- What a call knows of the lock that it goes to break. -/
def Judged (staleMs : Nat) (d : Disk) : Stand → Prop
  | .readingOwner mtimeMs | .breaking _ mtimeMs => mtimeMs + staleMs < d.clock
  | _ => True

structure LockInv (staleMs : Nat) (s : Calls) : Prop where
  held : ∀ p call, s.calls p = some call → call.stand.holds = true →
    ∃ dir, s.disk.lock = some dir ∧ dir.maker = p
  judged : ∀ p call, s.calls p = some call → Judged staleMs s.disk call.stand

variable {staleMs p : Nat} {stand : Stand} {d d' : Disk} {c : Choice} {s : Calls}

theorem Judged.mono (judged : Judged staleMs d stand) (later : d.clock ≤ d'.clock) :
    Judged staleMs d' stand := by
  unfold Judged at judged ⊢
  split
  · exact Nat.lt_of_lt_of_le judged later
  · exact Nat.lt_of_lt_of_le judged later
  · trivial

/-- The ways a step can go, as far as the lock is concerned. -/
inductive Effect (staleMs p : Nat) (d : Disk) (stand : Stand) (c : Choice) : Disk → Stand → Prop
  | keeps (stand' : Stand) (still : stand'.holds = true → stand.holds = true)
      (judged : Judged staleMs d stand → Judged staleMs d stand') : Effect staleMs p d stand c d stand'
  | makes (absent : d.lock = none) (at_ : stand = .making) :
    Effect staleMs p d stand c { d with lock := some ⟨p, none, d.clock⟩ } .naming
  | stamps (dir dir' : Dir) (stand' : Stand) (at_ : d.lock = some dir) (same : dir'.maker = dir.maker)
      (holds : stand.holds = true) (unjudged : Judged staleMs d stand') :
    Effect staleMs p d stand c { d with lock := some dir' } stand'
  | breaks (owner : Option Nat) (mtimeMs : Nat) (dir : Dir) (at_ : d.lock = some dir)
      (here : stand = .breaking owner mtimeMs) (done : c.fails = false) :
    Effect staleMs p d stand c { d with lock := none } (.comparing owner mtimeMs dir)
  | removes (dir : Dir) (at_ : d.lock = some dir) (holds : stand = .removing) :
    Effect staleMs p d stand c { d with lock := none } .ended

theorem Effect.idle {stand' : Stand} (free : stand'.holds = false) (judged : Judged staleMs d stand') :
    Effect staleMs p d stand c d stand' :=
  .keeps _ (fun holds => by rw [free] at holds; cases holds) fun _ => judged

theorem step_effect {nonce : Nat} {stand' : Stand}
    (taken : step staleMs p nonce d stand c = some (d', stand')) :
    Effect staleMs p d stand c d' stand' := by
  cases stand with
  | making =>
    simp only [step] at taken
    split at taken
    · cases taken
      exact .idle rfl trivial
    · split at taken
      next absent =>
        cases taken
        exact .makes absent rfl
      · cases taken
        exact .idle rfl trivial
  | naming =>
    simp only [step] at taken
    split at taken
    · cases taken
      exact .idle rfl trivial
    next dir at_ =>
      split at taken
      · cases taken
        exact .idle rfl trivial
      · cases taken
        exact .stamps dir _ _ at_ rfl rfl trivial
  | stating =>
    simp only [step] at taken
    split at taken
    · cases taken
      exact .idle rfl trivial
    · cases taken
      exact .keeps _ (by split <;> simp [Stand.holds]) fun _ => by split <;> trivial
  | judging mtimeMs =>
    simp only [step] at taken
    split at taken
    next now =>
      cases taken
      refine .keeps _ (by split <;> simp [Stand.holds]) fun _ => ?_
      split
      next old => exact Nat.lt_of_lt_of_le old now
      next => trivial
    · cases taken
  | readingOwner mtimeMs =>
    cases taken
    exact .keeps _ (by simp [Stand.holds]) fun judged => judged
  | breaking owner mtimeMs =>
    simp only [step] at taken
    split at taken
    · cases taken
      exact .idle rfl trivial
    next dir at_ =>
      split at taken
      · cases taken
        exact .idle rfl trivial
      next done =>
        cases taken
        exact .breaks owner mtimeMs dir at_ rfl (by simpa using done)
  | comparing owner mtimeMs aside =>
    simp only [step] at taken
    split at taken
    · cases taken
      exact .idle rfl trivial
    · cases taken
      exact .idle rfl trivial
  | removingAside =>
    cases taken
    exact .idle rfl trivial
  | waiting =>
    cases taken
    exact .keeps _ (by split <;> simp [Stand.holds]) fun _ => by split <;> trivial
  | holding =>
    simp only [step] at taken
    split at taken
    · cases taken
      exact .keeps _ (fun _ => rfl) fun _ => trivial
    · cases taken
      exact .keeps _ (fun _ => rfl) fun _ => by split <;> trivial
  | beating =>
    simp only [step] at taken
    split at taken
    · cases taken
      exact .keeps _ (fun _ => rfl) fun _ => trivial
    next dir at_ =>
      split at taken
      · cases taken
        exact .keeps _ (fun _ => rfl) fun _ => trivial
      · split at taken
        · cases taken
          exact .stamps dir _ _ at_ rfl rfl trivial
        · cases taken
  | releasing =>
    cases taken
    exact .keeps _ (fun _ => rfl) fun _ => by split <;> trivial
  | unlinkingOwner =>
    simp only [step] at taken
    split at taken
    · cases taken
      exact .idle rfl trivial
    next dir at_ =>
      split at taken
      · cases taken
        exact .idle rfl trivial
      · cases taken
        exact .stamps dir _ _ at_ rfl rfl trivial
  | removing =>
    simp only [step] at taken
    split at taken
    · cases taken
      exact .idle rfl trivial
    next dir at_ =>
      split at taken
      · cases taken
        exact .idle rfl trivial
      · cases taken
        exact .removes dir at_ rfl
  | ended => cases taken

theorem run_inv {call : Call} {disk : Disk} (inv : LockInv staleMs s)
    (isFresh : fresh staleMs s = true) (here : s.calls p = some call)
    (effect : Effect staleMs p s.disk call.stand c disk stand) (breaks : breaksAnother ⟨s, .run p c,
      { s with disk := disk, calls := Function.update s.calls p (some ⟨call.nonce, stand⟩) }⟩ = false) :
    LockInv staleMs
      { s with disk := disk, calls := Function.update s.calls p (some ⟨call.nonce, stand⟩) } := by
  have calls : ∀ q other, Function.update s.calls p (some ⟨call.nonce, stand⟩) q = some other →
      (q = p ∧ other.stand = stand) ∨ (q ≠ p ∧ s.calls q = some other) := by
    intro q other there
    rcases update_some there with ⟨same, rfl⟩ | was
    · exact Or.inl ⟨same, rfl⟩
    · exact Or.inr was
  cases effect with
  | keeps stand' still judged =>
    refine ⟨fun q other there holds => ?_, fun q other there => ?_⟩
    · rcases calls q other there with ⟨rfl, rfl⟩ | ⟨-, was⟩
      · exact inv.held q call here (still holds)
      · exact inv.held q other was holds
    · rcases calls q other there with ⟨rfl, rfl⟩ | ⟨-, was⟩
      · exact judged (inv.judged q call here)
      · exact inv.judged q other was
  | makes absent at_ =>
    refine ⟨fun q other there holds => ?_, fun q other there => ?_⟩
    · rcases calls q other there with ⟨rfl, -⟩ | ⟨-, was⟩
      · exact ⟨_, rfl, rfl⟩
      · obtain ⟨dir, lock, -⟩ := inv.held q other was holds
        rw [absent] at lock
        cases lock
    · rcases calls q other there with ⟨rfl, same⟩ | ⟨-, was⟩
      · rw [same]
        trivial
      · exact inv.judged q other was
  | stamps dir dir' stand' at_ same holds unjudged =>
    refine ⟨fun q other there holds' => ?_, fun q other there => ?_⟩
    · have maker : ∃ found, s.disk.lock = some found ∧ found.maker = q := by
        rcases calls q other there with ⟨rfl, -⟩ | ⟨-, was⟩
        · exact inv.held q call here holds
        · exact inv.held q other was holds'
      obtain ⟨found, lock, mine⟩ := maker
      rw [at_] at lock
      cases lock
      exact ⟨dir', rfl, same.trans mine⟩
    · rcases calls q other there with ⟨rfl, rfl⟩ | ⟨-, was⟩
      · exact unjudged
      · exact inv.judged q other was
  | breaks owner mtimeMs dir at_ standing done =>
    -- The directory is the one that was judged, so no holder of it is left.
    have old := inv.judged p call here
    rw [standing] at old
    have same : dir.mtimeMs = mtimeMs := by
      obtain ⟨nonce, stand⟩ := call
      dsimp only at standing
      subst standing
      simp only [breaksAnother, here, at_, done, Bool.not_false, Bool.true_and, Bool.not_eq_false',
        Bool.and_eq_true, decide_eq_true_eq] at breaks
      exact breaks.2
    refine ⟨fun q other there holds => ?_, fun q other there => ?_⟩
    · rcases calls q other there with ⟨rfl, moved⟩ | ⟨-, was⟩
      · rw [moved] at holds
        cases holds
      · obtain ⟨found, lock, mine⟩ := inv.held q other was holds
        rw [at_] at lock
        cases lock
        simp only [fresh, at_, mine, was, holds, Bool.not_true, Bool.false_or, decide_eq_true_eq]
          at isFresh
        have late : mtimeMs + staleMs < s.disk.clock := old
        omega
    · rcases calls q other there with ⟨rfl, moved⟩ | ⟨-, was⟩
      · rw [moved]
        trivial
      · exact inv.judged q other was
  | removes dir at_ standing =>
    refine ⟨fun q other there holds => ?_, fun q other there => ?_⟩
    · rcases calls q other there with ⟨rfl, moved⟩ | ⟨apart, was⟩
      · rw [moved] at holds
        cases holds
      · obtain ⟨mine, lock, maker⟩ := inv.held p call here (by rw [standing]; rfl)
        obtain ⟨theirs, lock', maker'⟩ := inv.held q other was holds
        rw [lock] at lock'
        cases lock'
        exact absurd (maker'.symm.trans maker) apart
    · rcases calls q other there with ⟨rfl, moved⟩ | ⟨-, was⟩
      · rw [moved]
        trivial
      · exact inv.judged q other was

theorem step_inv {t : Calls} {label : Label} (taken : (withStoreLock staleMs).step s label t)
    (isFresh : fresh staleMs s = true) (breaks : breaksAnother ⟨s, label, t⟩ = false)
    (inv : LockInv staleMs s) :
    LockInv staleMs t := by
  cases label with
  | start p =>
    have started : (if (s.calls p).isSome then none else
        some { s with
          nonces := s.nonces + 1
          calls := Function.update s.calls p (some ⟨s.nonces, .making⟩) }) = some t := taken
    split at started
    · cases started
    · cases started
      refine ⟨fun q other there holds => ?_, fun q other there => ?_⟩
      · rcases update_some there with ⟨-, rfl⟩ | ⟨-, was⟩
        · cases holds
        · exact inv.held q other was holds
      · rcases update_some there with ⟨-, rfl⟩ | ⟨-, was⟩
        · trivial
        · exact inv.judged q other was
  | crash p =>
    cases taken
    exact ⟨fun q other there => inv.held q other (update_none there),
      fun q other there => inv.judged q other (update_none there)⟩
  | passes now =>
    have passed : (if s.disk.clock ≤ now then some { s with disk := { s.disk with clock := now } }
        else none) = some t := taken
    split at passed
    next later =>
      cases passed
      exact ⟨inv.held, fun q other there => (inv.judged q other there).mono later⟩
    · cases passed
  | run p c =>
    have ran : advance staleMs s (.run p c) = some t := taken
    simp only [advance] at ran
    split at ran
    · cases ran
    next call here =>
      obtain ⟨⟨disk, stand⟩, moved, after⟩ := Option.map_eq_some_iff.mp ran
      subst after
      exact run_inv inv isFresh here (step_effect moved) breaks

/-- When each holder keeps its lock fresh and each break finds the lock that it judged
stale, at most one call is inside. -/
theorem store_lock_exclusive (staleMs : Nat) {s t : Calls} {steps : List (Step Calls Label)}
    (start : (withStoreLock staleMs).start s) (run : (withStoreLock staleMs).Run s steps t)
    (refreshed : ∀ x ∈ steps, fresh staleMs x.before = true)
    (judged : ∀ x ∈ steps, breaksAnother x = false) :
    ∀ p q, Inside t p → Inside t q → p = q := by
  have idle : ∀ p, s.calls p = none := start
  have inv := run.invariant_of (LockInv staleMs)
    (fun x => fresh staleMs x.before = true ∧ breaksAnother x = false)
    ⟨fun p call here => by simp [idle p] at here, fun p call here => by simp [idle p] at here⟩
    (fun _ _ _ taken met inv => step_inv taken met.1 met.2 inv)
    fun x mem => ⟨refreshed x mem, judged x mem⟩
  have maker : ∀ p, Inside t p → ∃ dir, t.disk.lock = some dir ∧ dir.maker = p := by
    rintro p ⟨nonce, here | here⟩
    · exact inv.held p _ here rfl
    · exact inv.held p _ here rfl
  intro p q inside inside'
  obtain ⟨dir, lock, mine⟩ := maker p inside
  obtain ⟨dir', lock', theirs⟩ := maker q inside'
  rw [lock] at lock'
  cases lock'
  exact mine.symm.trans theirs

/-- A lock that a dead call left, too old for a limit of ten. -/
def sampleStart : Calls := ⟨⟨some ⟨9, some 0, 0⟩, 11⟩, 1, fun _ => none⟩

def runs (p count : Nat) : List Label := List.replicate count (.run p ⟨false, 11, false⟩)

/-- Calls 1 and 2 judge the dead call's lock stale; call 1 breaks it and takes the lock,
and then call 2 breaks the lock of call 1. -/
def brokenTwice : List Label := .start 1 :: .start 2 :: runs 1 4 ++ runs 2 4 ++ runs 1 5 ++ runs 2 4

/-- Call 2 breaks before call 1 has a new lock to lose. -/
def brokenOnce : List Label := .start 1 :: .start 2 :: runs 1 4 ++ runs 2 4 ++ runs 2 5

def after (labels : List Label) : Calls := runInputs (stepped (advance 10)) sampleStart labels

theorem store_lock_broken_twice :
    ¬∀ (staleMs : Nat) {s t : Calls} {steps : List (Step Calls Label)},
      (withStoreLock staleMs).start s → (withStoreLock staleMs).Run s steps t →
        (∀ x ∈ steps, fresh staleMs x.before = true) → ∀ p q, Inside t p → Inside t q → p = q := by
  intro all
  have exclusive := all 10 (fun _ => rfl) (run_stepped sampleStart brokenTwice (by decide))
    (by decide)
  have first : (after brokenTwice).calls 1 = some ⟨1, .holding⟩ := by decide
  have second : (after brokenTwice).calls 2 = some ⟨2, .holding⟩ := by decide
  exact absurd (exclusive 1 2 ⟨1, Or.inl first⟩ ⟨2, Or.inl second⟩) (by decide)

theorem store_lock_exclusive_once :
    Inside (after brokenOnce) 2 ∧
      ∀ p q, Inside (after brokenOnce) p → Inside (after brokenOnce) q → p = q :=
  ⟨⟨2, Or.inl (by decide)⟩, store_lock_exclusive 10 (fun _ => rfl)
    (run_stepped sampleStart brokenOnce (by decide)) (by decide)
    (by decide)⟩

end Ultrathink.Guarantees.StoreLock
