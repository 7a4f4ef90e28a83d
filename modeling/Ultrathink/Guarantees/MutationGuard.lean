import Ultrathink.Source.Claude.Atomic

/-!
# One live process inside the mutation guard

A call that is inside holds the guard directory with its own entry alone. From this,
`withLockMutation` refines programs that take turns, for any callback.
-/

namespace Ultrathink.Guarantees.MutationGuard

open Library Runs Mutex
open Source.Claude.Atomic

variable {S O L R C : Type}

/-- The call has put its entry in place and has not taken it away. -/
def claims : Mutation L R → Bool
  | .inside _ | .unlinkOwn _ => true
  | _ => false

/-- The owner that the call has read in the guard and not yet dealt with. -/
def found : Mutation L R → Option Owner
  | .probe _ owner | .unlinkDead _ owner => some owner
  | _ => none

/-- Where a call stands for those who take turns. -/
inductive Stage (L R : Type) where
  | entering (l : L)
  | inside (l : L)
  | leaving (outcome : Outcome R)

def Stage.place (o : O) : Stage L R → Place O L R
  | .entering l => .entering o l
  | .inside l => .inside o l
  | .leaving outcome => .leaving o outcome

def stageOf : Mutation L R → Stage L R
  | .makeCandidate l | .openEntry l | .rename l | .readOwners l | .probe l _ | .unlinkDead l _
  | .removeDead l | .renameAgain l => .entering l
  | .inside l => .inside l
  | .unlinkOwn result | .removeOwn result => .leaving (.returned result)
  | .unlinkCandidate outcome | .removeCandidate outcome | .ended outcome => .leaving outcome

/-- The call stays where it stands, or gives up before it is inside. -/
def StaysOrRefuses (at_ to_ : Mutation L R) : Prop :=
  stageOf to_ = stageOf at_ ∨ ∃ l outcome, stageOf at_ = .entering l ∧
    stageOf to_ = .leaving outcome ∧ ∀ result, outcome ≠ .returned result

/-- What a file-system call does to the guard and to the call that makes it. -/
inductive GuardEffect (live : Nat → Bool) (owner : Owner) (guard : Guard) :
    Mutation L R → Guard → Mutation L R → Prop
  | moves (at_ to_ : Mutation L R) (unclaimed : claims to_ = false) (unseen : found to_ = none)
      (stage : StaysOrRefuses at_ to_) : GuardEffect live owner guard at_ guard to_
  | sees (l : L) (seen : Owner) (only : guard = some [seen]) :
    GuardEffect live owner guard (.readOwners l) guard (.probe l seen)
  | judges (l : L) (seen : Owner) (dead : live seen.pid = false) :
    GuardEffect live owner guard (.probe l seen) guard (.unlinkDead l seen)
  | takes (at_ : Mutation L R) (l : L) (free : guard = none ∨ guard = some [])
      (early : at_ = .rename l ∨ at_ = .renameAgain l) :
    GuardEffect live owner guard at_ (some [owner]) (.inside l)
  | releases (result : R) (entries : List Owner) (held : guard = some entries) :
    GuardEffect live owner guard (.unlinkOwn result) (some (entries.erase owner)) (.removeOwn result)
  | clears (l : L) (seen : Owner) (entries : List Owner) (held : guard = some entries) :
    GuardEffect live owner guard (.unlinkDead l seen) (some (entries.erase seen)) (.removeDead l)
  | removes (at_ to_ : Mutation L R) (empty : guard = some []) (unclaimed : claims to_ = false)
      (unseen : found to_ = none) (stage : stageOf to_ = stageOf at_) :
    GuardEffect live owner guard at_ none to_

variable {s t : Guarded S O L R} {p q nonce : Nat} {P : Program S O L R C} {guard guard' : Guard}
  {at_ to_ : Mutation L R} {label : Label C} {o : O} {owner : Owner} {proc : Proc O L R}

theorem renameOver_some (renamed : renameOver owner guard = some guard') :
    (guard = none ∨ guard = some []) ∧ guard' = some [owner] := by
  unfold renameOver at renamed
  split at renamed
  · exact ⟨Or.inl rfl, (Option.some.inj renamed).symm⟩
  · exact ⟨Or.inr rfl, (Option.some.inj renamed).symm⟩
  · cases renamed

theorem unlinkEntry_some (unlinked : unlinkEntry owner guard = some guard') :
    ∃ entries, guard = some entries ∧ guard' = some (entries.erase owner) := by
  unfold unlinkEntry at unlinked
  split at unlinked
  · cases unlinked
  next entries =>
    split at unlinked
    · exact ⟨entries, rfl, (Option.some.inj unlinked).symm⟩
    · cases unlinked

theorem removeGuard_cases (fails : Bool) (guard : Guard) :
    removeGuard fails guard = guard ∨ (guard = some [] ∧ removeGuard fails guard = none) := by
  unfold removeGuard
  split
  · cases fails with
    | true => exact Or.inl rfl
    | false => exact Or.inr ⟨rfl, rfl⟩
  · exact Or.inl rfl

theorem guardStep_effect {live : Nat → Bool} {fails : Bool}
    (taken : guardStep live owner fails guard at_ = some (guard', to_)) :
    GuardEffect live owner guard at_ guard' to_ := by
  cases at_ with
  | makeCandidate l =>
    cases fails with
    | true =>
      cases taken
      exact .moves _ _ rfl rfl (Or.inr ⟨l, .failed, rfl, rfl, by simp⟩)
    | false =>
      cases taken
      exact .moves _ _ rfl rfl (Or.inl rfl)
  | openEntry l =>
    cases fails with
    | true =>
      cases taken
      exact .moves _ _ rfl rfl (Or.inr ⟨l, .failed, rfl, rfl, by simp⟩)
    | false =>
      cases taken
      exact .moves _ _ rfl rfl (Or.inl rfl)
  | rename l =>
    simp only [guardStep] at taken
    split at taken
    · cases taken
      exact .moves _ _ rfl rfl (Or.inr ⟨l, .failed, rfl, rfl, by simp⟩)
    · split at taken
      next renamed =>
        obtain ⟨free, rfl⟩ := renameOver_some renamed
        cases taken
        exact .takes _ l free (Or.inl rfl)
      · cases taken
        exact .moves _ _ rfl rfl (Or.inl rfl)
  | readOwners l =>
    simp only [guardStep] at taken
    split at taken
    next seen =>
      cases fails with
      | true =>
        cases taken
        exact .moves _ _ rfl rfl (Or.inl rfl)
      | false =>
        cases taken
        exact .sees l seen rfl
    · cases taken
      exact .moves _ _ rfl rfl (Or.inl rfl)
  | probe l seen =>
    simp only [guardStep, Option.some.injEq, Prod.mk.injEq] at taken
    obtain ⟨rfl, rfl⟩ := taken
    split
    next dead =>
      simp only [Bool.and_eq_true, Bool.not_eq_true'] at dead
      exact .judges l seen dead.2
    · exact .moves _ _ rfl rfl (Or.inl rfl)
  | unlinkDead l seen =>
    simp only [guardStep] at taken
    split at taken
    next unlinked =>
      split at unlinked
      · cases unlinked
      · obtain ⟨entries, held, rfl⟩ := unlinkEntry_some unlinked
        cases taken
        exact .clears l seen entries held
    · cases taken
      exact .moves _ _ rfl rfl (Or.inl rfl)
  | removeDead l =>
    simp only [guardStep, Option.some.injEq, Prod.mk.injEq] at taken
    obtain ⟨rfl, rfl⟩ := taken
    rcases removeGuard_cases fails guard with same | ⟨empty, removed⟩
    · rw [same]
      exact .moves _ _ rfl rfl (Or.inl rfl)
    · rw [removed]
      exact .removes _ _ empty rfl rfl rfl
  | renameAgain l =>
    simp only [guardStep] at taken
    split at taken
    · cases taken
      exact .moves _ _ rfl rfl (Or.inr ⟨l, .failed, rfl, rfl, by simp⟩)
    · split at taken
      next renamed =>
        obtain ⟨free, rfl⟩ := renameOver_some renamed
        cases taken
        exact .takes _ l free (Or.inr rfl)
      · cases taken
        exact .moves _ _ rfl rfl (Or.inr ⟨l, .busy, rfl, rfl, by simp⟩)
  | inside l => cases taken
  | unlinkOwn result =>
    simp only [guardStep] at taken
    split at taken
    next unlinked =>
      split at unlinked
      · cases unlinked
      · obtain ⟨entries, held, rfl⟩ := unlinkEntry_some unlinked
        cases taken
        exact .releases result entries held
    · cases taken
      exact .moves _ _ rfl rfl (Or.inl rfl)
  | removeOwn result =>
    simp only [guardStep, Option.some.injEq, Prod.mk.injEq] at taken
    obtain ⟨rfl, rfl⟩ := taken
    rcases removeGuard_cases fails guard with same | ⟨empty, removed⟩
    · rw [same]
      exact .moves _ _ rfl rfl (Or.inl rfl)
    · rw [removed]
      exact .removes _ _ empty rfl rfl rfl
  | unlinkCandidate outcome =>
    cases taken
    exact .moves _ _ rfl rfl (Or.inl rfl)
  | removeCandidate outcome =>
    cases taken
    exact .moves _ _ rfl rfl (Or.inl rfl)
  | ended outcome => cases taken

def afterInner : L ⊕ R → Mutation L R
  | .inl l => .inside l
  | .inr result => .unlinkOwn result

/-- The steps of the processes around the guard. -/
inductive Effect (P : Program S O L R C) (s : Guarded S O L R) :
    Label C → Guarded S O L R → Prop
  | spawn (p : Nat) (absent : s.procs p = none) : Effect P s (.spawn p) (s.put p (.outer P.first))
  | crash (p : Nat) : Effect P s (.crash p) { s with procs := Function.update s.procs p none }
  | world (c : C) (shared : S) (moved : P.world s.shared c = some shared) :
    Effect P s (.world c) { s with shared := shared }
  | outer (p : Nat) (fails : Bool) (c : C) (o o' : O) (shared : S)
      (here : s.procs p = some (.outer o))
      (moved : P.outer s.live p s.shared o c = some (shared, o', none)) :
    Effect P s (.run p fails c) ({ s with shared := shared }.put p (.outer o'))
  | call (p : Nat) (fails : Bool) (c : C) (o o' : O) (shared : S) (l : L)
      (here : s.procs p = some (.outer o))
      (moved : P.outer s.live p s.shared o c = some (shared, o', some l)) :
    Effect P s (.run p fails c)
      ({ s with shared := shared, nonces := s.nonces + 1 }.put p
        (.calling o' s.nonces (.makeCandidate l)))
  | inner (p : Nat) (fails : Bool) (c : C) (o o' : O) (nonce : Nat) (l : L) (shared : S)
      (next : L ⊕ R) (here : s.procs p = some (.calling o nonce (.inside l)))
      (moved : P.inner s.live p s.shared o l c = some (shared, o', next)) :
    Effect P s (.run p fails c)
      ({ s with shared := shared }.put p (.calling o' nonce (afterInner next)))
  | ends (p : Nat) (fails : Bool) (c : C) (o : O) (nonce : Nat) (outcome : Outcome R)
      (here : s.procs p = some (.calling o nonce (.ended outcome))) :
    Effect P s (.run p fails c) (s.put p (.outer (P.resume o outcome)))
  | guards (p : Nat) (fails : Bool) (c : C) (o : O) (nonce : Nat) (at_ to_ : Mutation L R)
      (guard : Guard) (here : s.procs p = some (.calling o nonce at_))
      (effect : GuardEffect s.live ⟨p, nonce⟩ s.guard at_ guard to_) :
    Effect P s (.run p fails c) ({ s with guard := guard }.put p (.calling o nonce to_))

theorem run_effect {fails : Bool} {c : C} (taken : run P p fails c s = some t) :
    Effect P s (.run p fails c) t := by
  unfold run at taken
  split at taken
  · cases taken
  next o here =>
    obtain ⟨⟨shared, o', call⟩, moved, after⟩ := Option.map_eq_some_iff.mp taken
    cases call with
    | none =>
      subst after
      exact .outer p fails c o o' shared here moved
    | some l =>
      subst after
      exact .call p fails c o o' shared l here moved
  next o nonce l here =>
    obtain ⟨⟨shared, o', next⟩, moved, after⟩ := Option.map_eq_some_iff.mp taken
    cases next with
    | inl l' =>
      subst after
      exact .inner p fails c o o' nonce l shared (.inl l') here moved
    | inr result =>
      subst after
      exact .inner p fails c o o' nonce l shared (.inr result) here moved
  next o nonce outcome here =>
    cases taken
    exact .ends p fails c o nonce outcome here
  next o nonce mutation outside unended here =>
    obtain ⟨⟨guard, to_⟩, moved, after⟩ := Option.map_eq_some_iff.mp taken
    subst after
    exact .guards p fails c o nonce mutation to_ guard here (guardStep_effect moved)

theorem step_effect (step : (guarded P).step s label t) : Effect P s label t := by
  cases label with
  | spawn p =>
    have taken : (if s.live p then none else some (s.put p (.outer P.first))) = some t := step
    split at taken
    · cases taken
    next dead =>
      cases taken
      exact .spawn p (by simpa [Guarded.live] using dead)
  | crash p =>
    cases step
    exact .crash p
  | world c =>
    obtain ⟨shared, moved, after⟩ := Option.map_eq_some_iff.mp step
    subst after
    exact .world c shared moved
  | run p fails c => exact run_effect step

structure GuardInv (s : Guarded S O L R) : Prop where
  held : ∀ p o nonce m, s.procs p = some (.calling o nonce m) → claims m = true →
    s.guard = some [⟨p, nonce⟩]
  used : ∀ entries, s.guard = some entries → ∀ owner ∈ entries, owner.nonce < s.nonces
  calls : ∀ p o nonce m, s.procs p = some (.calling o nonce m) → nonce < s.nonces
  seen : ∀ p o nonce m owner, s.procs p = some (.calling o nonce m) → found m = some owner →
    owner.nonce < s.nonces
  dead : ∀ p o nonce l owner, s.procs p = some (.calling o nonce (.unlinkDead l owner)) →
    ∀ q o' nonce' m, s.procs q = some (.calling o' nonce' m) → owner ≠ ⟨q, nonce'⟩

theorem procs_put :
    (s.put p proc).procs q = if q = p then some proc else s.procs q :=
  Function.update_apply s.procs p (some proc) q

theorem put_procs {value : Proc O L R} (here : (s.put p proc).procs q = some value) :
    (q = p ∧ proc = value) ∨ (q ≠ p ∧ s.procs q = some value) := by
  rw [procs_put] at here
  split at here
  next same => exact Or.inl ⟨same, Option.some.inj here⟩
  next other => exact Or.inr ⟨other, here⟩

theorem GuardInv.of_quiet (inv : GuardInv s) (guard : t.guard = s.guard)
    (nonces : t.nonces = s.nonces) (before : ∀ p o nonce m, t.procs p = some (.calling o nonce m) →
      ∃ o' m', s.procs p = some (.calling o' nonce m') ∧ (claims m = true → claims m' = true) ∧
        found m = found m' ∧ ((∃ l owner, m = .unlinkDead l owner) → m = m')) : GuardInv t := by
  refine ⟨fun p o nonce m here claimed => ?_, fun entries held owner mem => ?_,
    fun p o nonce m here => ?_, fun p o nonce m owner here seen => ?_,
    fun p o nonce l owner here q o' nonce' m there => ?_⟩
  · obtain ⟨o', m', was, claim, -⟩ := before p o nonce m here
    rw [guard]
    exact inv.held p o' nonce m' was (claim claimed)
  · rw [nonces]
    exact inv.used entries (guard ▸ held) owner mem
  · obtain ⟨o', m', was, -⟩ := before p o nonce m here
    rw [nonces]
    exact inv.calls p o' nonce m' was
  · obtain ⟨o', m', was, -, same, -⟩ := before p o nonce m here
    rw [nonces]
    exact inv.seen p o' nonce m' owner was (same ▸ seen)
  · obtain ⟨o₁, m₁, was, -, -, same⟩ := before p o nonce _ here
    obtain ⟨o₂, m₂, was', -⟩ := before q o' nonce' m there
    rw [← same ⟨l, owner, rfl⟩] at was
    exact inv.dead p o₁ nonce l owner was q o₂ nonce' m₂ was'

theorem effect_keeps {o' : O} {nonce' : Nat} {m : Mutation L R} (inv : GuardInv s)
    (here : s.procs p = some (.calling o nonce at_))
    (effect : GuardEffect s.live ⟨p, nonce⟩ s.guard at_ guard to_) (other : q ≠ p)
    (there : s.procs q = some (.calling o' nonce' m)) (claimed : claims m = true) :
    guard = some [⟨q, nonce'⟩] := by
  have held := inv.held q o' nonce' m there claimed
  cases effect with
  | moves at_ to_ unclaimed unseen stage => exact held
  | sees l seen only => exact held
  | judges l seen dead => exact held
  | takes at_ l free early =>
    rw [held] at free
    rcases free with none_ | empty
    · cases none_
    · cases empty
  | releases result entries held' =>
    have own := inv.held p o nonce _ here rfl
    rw [own] at held
    cases held
    exact absurd rfl other
  | clears l seen entries held' =>
    rw [held] at held'
    cases held'
    have different := inv.dead p o nonce l seen here q o' nonce' m there
    rw [List.erase_of_not_mem (by simpa using different)]
  | removes at_ to_ empty unclaimed unseen stage =>
    rw [held] at empty
    cases empty

theorem effect_used {live : Nat → Bool} {nonces : Nat}
    (effect : GuardEffect live owner guard at_ guard' to_) (bound : owner.nonce < nonces)
    (used : ∀ entries, guard = some entries → ∀ o ∈ entries, o.nonce < nonces) :
    ∀ entries, guard' = some entries → ∀ o ∈ entries, o.nonce < nonces := by
  intro entries' held' other mem
  cases effect with
  | moves at_ to_ unclaimed unseen stage => exact used entries' held' other mem
  | sees l seen only => exact used entries' held' other mem
  | judges l seen dead => exact used entries' held' other mem
  | takes at_ l free early =>
    cases held'
    rw [List.mem_singleton.mp mem]
    exact bound
  | releases result entries held =>
    cases held'
    exact used entries held other (List.mem_of_mem_erase mem)
  | clears l seen entries held =>
    cases held'
    exact used entries held other (List.mem_of_mem_erase mem)
  | removes at_ to_ empty unclaimed unseen stage => cases held'

theorem guards_inv (inv : GuardInv s) (here : s.procs p = some (.calling o nonce at_))
    (effect : GuardEffect s.live ⟨p, nonce⟩ s.guard at_ guard to_) :
    GuardInv ({ s with guard := guard }.put p (.calling o nonce to_)) := by
  have bound := inv.calls p o nonce at_ here
  -- Every call in progress was in progress, with the same nonce.
  have calls : ∀ q o' nonce' m,
      ({ s with guard := guard }.put p (.calling o nonce to_)).procs q =
        some (.calling o' nonce' m) →
      (q = p ∧ nonce' = nonce ∧ m = to_) ∨ (q ≠ p ∧ s.procs q = some (.calling o' nonce' m)) := by
    intro q o' nonce' m there
    rcases put_procs there with ⟨rfl, same⟩ | other
    · cases same
      exact Or.inl ⟨rfl, rfl, rfl⟩
    · exact Or.inr other
  refine ⟨fun q o' nonce' m there claimed => ?_, effect_used effect bound inv.used,
    fun q o' nonce' m there => ?_, fun q o' nonce' m owner there seen => ?_,
    fun q o' nonce' l owner there r o₂ nonce₂ m₂ other => ?_⟩
  · rcases calls q o' nonce' m there with ⟨rfl, rfl, rfl⟩ | ⟨other, was⟩
    · cases effect with
      | takes at_ l free early => rfl
      | moves at_ to_ unclaimed unseen stage => simp [unclaimed] at claimed
      | removes at_ to_ empty unclaimed unseen stage => simp [unclaimed] at claimed
      | sees l seen only => cases claimed
      | judges l seen dead => cases claimed
      | releases result entries held => cases claimed
      | clears l seen entries held => cases claimed
    · exact effect_keeps inv here effect other was claimed
  · rcases calls q o' nonce' m there with ⟨rfl, rfl, rfl⟩ | ⟨other, was⟩
    · exact bound
    · exact inv.calls q o' nonce' m was
  · rcases calls q o' nonce' m there with ⟨rfl, rfl, rfl⟩ | ⟨other, was⟩
    · cases effect with
      | sees l seen_ only =>
        cases seen
        exact inv.used _ only _ (List.mem_singleton_self _)
      | judges l seen_ dead => exact inv.seen q o nonce' _ owner here seen
      | takes at_ l free early => cases seen
      | moves at_ to_ unclaimed unseen stage => rw [unseen] at seen; cases seen
      | removes at_ to_ empty unclaimed unseen stage => rw [unseen] at seen; cases seen
      | releases result entries held => cases seen
      | clears l seen_ entries held => cases seen
    · exact inv.seen q o' nonce' m owner was seen
  · -- The call of `r` was in progress before this step, so `r` was alive.
    obtain ⟨o₃, m₃, was₂⟩ : ∃ o₃ m₃, s.procs r = some (.calling o₃ nonce₂ m₃) := by
      rcases calls r o₂ nonce₂ m₂ other with ⟨rfl, rfl, -⟩ | ⟨-, was⟩
      · exact ⟨o, at_, here⟩
      · exact ⟨o₂, m₂, was⟩
    rcases calls q o' nonce' _ there with ⟨rfl, rfl, same⟩ | ⟨-, was⟩
    · subst same
      cases effect with
      | judges l seen_ dead =>
        intro equal
        rw [equal] at dead
        simp [Guarded.live, was₂] at dead
      | moves at_ to_ unclaimed unseen stage => cases unseen
      | removes at_ to_ empty unclaimed unseen stage => cases unseen
    · exact inv.dead q o' nonce' l owner was r o₃ nonce₂ m₃ was₂

theorem call_inv {o' : O} {l : L} {shared : S} (inv : GuardInv s)
    (here : s.procs p = some (.outer o)) :
    GuardInv ({ s with shared := shared, nonces := s.nonces + 1 }.put p
      (.calling o' s.nonces (.makeCandidate l))) := by
  have calls : ∀ q o₁ nonce m,
      ({ s with shared := shared, nonces := s.nonces + 1 }.put p
        (.calling o' s.nonces (.makeCandidate l))).procs q = some (.calling o₁ nonce m) →
      (nonce = s.nonces ∧ m = .makeCandidate l) ∨ s.procs q = some (.calling o₁ nonce m) := by
    intro q o₁ nonce m there
    rcases put_procs there with ⟨rfl, same⟩ | ⟨-, was⟩
    · cases same
      exact Or.inl ⟨rfl, rfl⟩
    · exact Or.inr was
  refine ⟨fun q o₁ nonce m there claimed => ?_, fun entries held owner mem => ?_,
    fun q o₁ nonce m there => ?_, fun q o₁ nonce m owner there seen => ?_,
    fun q o₁ nonce l' owner there r o₂ nonce₂ m₂ other => ?_⟩
  · rcases calls q o₁ nonce m there with ⟨rfl, rfl⟩ | was
    · cases claimed
    · exact inv.held q o₁ nonce m was claimed
  · exact Nat.lt_succ_of_lt (inv.used entries held owner mem)
  · rcases calls q o₁ nonce m there with ⟨rfl, rfl⟩ | was
    · exact Nat.lt_succ_self _
    · exact Nat.lt_succ_of_lt (inv.calls q o₁ nonce m was)
  · rcases calls q o₁ nonce m there with ⟨rfl, rfl⟩ | was
    · cases seen
    · exact Nat.lt_succ_of_lt (inv.seen q o₁ nonce m owner was seen)
  · rcases calls q o₁ nonce _ there with ⟨-, none_⟩ | was
    · cases none_
    · rcases calls r o₂ nonce₂ m₂ other with ⟨rfl, -⟩ | was₂
      · intro equal
        have old := inv.seen q o₁ nonce _ owner was rfl
        rw [equal] at old
        exact Nat.lt_irrefl _ old
      · exact inv.dead q o₁ nonce l' owner was r o₂ nonce₂ m₂ was₂

theorem step_inv (step : (guarded P).step s label t) (inv : GuardInv s) : GuardInv t := by
  -- A process outside a call takes part in nothing.
  have outside : ∀ (shared : S) (p : Nat) (proc : Option (Proc O L R)),
      (∀ o nonce m, proc ≠ some (.calling o nonce m)) →
      GuardInv { s with shared := shared, procs := Function.update s.procs p proc } := by
    intro shared p proc idle
    refine inv.of_quiet rfl rfl fun q o nonce m there => ?_
    dsimp only at there
    rw [Function.update_apply] at there
    split at there
    · exact absurd there (idle o nonce m)
    · exact ⟨o, m, there, id, rfl, fun _ => rfl⟩
  cases step_effect step with
  | spawn p absent => exact outside s.shared p _ (by simp)
  | crash p => exact outside s.shared p none (by simp)
  | world c shared moved => exact inv.of_quiet rfl rfl fun q o nonce m there =>
      ⟨o, m, there, id, rfl, fun _ => rfl⟩
  | outer p fails c o o' shared here moved => exact outside shared p _ (by simp)
  | call p fails c o o' shared l here moved => exact call_inv inv here
  | inner p fails c o o' nonce l shared next here moved =>
    refine inv.of_quiet rfl rfl fun q o₁ nonce₁ m there => ?_
    rcases put_procs there with ⟨rfl, same⟩ | ⟨-, was⟩
    · cases same
      refine ⟨o, .inside l, here, fun _ => rfl, ?_, ?_⟩
      · cases next <;> rfl
      · rintro ⟨l', owner, same⟩
        cases next <;> cases same
    · exact ⟨o₁, m, was, id, rfl, fun _ => rfl⟩
  | ends p fails c o nonce outcome here => exact outside s.shared p _ (by simp)
  | guards p fails c o nonce at_ to_ guard here effect => exact guards_inv inv here effect

theorem start_inv (start : (guarded P).start s) :
    GuardInv s := by
  obtain ⟨⟨idle, used⟩, -⟩ := start
  refine ⟨fun p o nonce m here => ?_, used, fun p o nonce m here => ?_,
    fun p o nonce m owner here => ?_, fun p o nonce l owner here => ?_⟩ <;>
  · rw [idle p] at here
    cases here

def procPlace : Proc O L R → Place O L R
  | .outer o => .outer o
  | .calling o _ m => (stageOf m).place o

def taking (s : Guarded S O L R) : Taking S O L R := ⟨s.shared, fun p => (s.procs p).map procPlace⟩

theorem taking_put (s : Guarded S O L R) (p : Nat) (proc : Proc O L R) :
    taking (s.put p proc) = (taking s).put p (procPlace proc) := by
  refine congrArg (Taking.mk s.shared) (funext fun q => ?_)
  rw [procs_put, Function.update_apply]
  split <;> rfl

theorem taking_live (s : Guarded S O L R) : (taking s).live = s.live := by
  funext p
  exact Option.isSome_map

theorem taking_place (here : s.procs p = some proc) :
    (taking s).places p = some (procPlace proc) := by
  simp [taking, here]

theorem inside_of_place {l : L} (inside : (taking s).places p = some (.inside o l)) :
    ∃ nonce, s.procs p = some (.calling o nonce (.inside l)) := by
  obtain ⟨proc, here, place⟩ := Option.map_eq_some_iff.mp inside
  cases proc with
  | outer o' => cases place
  | calling o' nonce m => cases m <;> cases place
                          exact ⟨nonce, here⟩

theorem guards_turn (inv : GuardInv s) (here : s.procs p = some (.calling o nonce at_))
    (effect : GuardEffect s.live ⟨p, nonce⟩ s.guard at_ guard to_) :
    P.Turn (taking s) ((taking s).put p ((stageOf to_).place o)) ∨
      (stageOf to_).place o = (stageOf at_).place o := by
  have place := taking_place here
  cases effect with
  | moves at_ to_ unclaimed unseen stage =>
    rcases stage with same | ⟨l, outcome, entering, leaving, unrun⟩
    · exact Or.inr (by rw [same])
    · rw [leaving]
      refine Or.inl (.refuse p o l outcome ?_ unrun)
      rw [place, procPlace, entering]
      rfl
  | sees l seen only => exact Or.inr rfl
  | judges l seen dead => exact Or.inr rfl
  | takes at_ l free early =>
    refine Or.inl (.enter p o l ?_ fun q o' l' inside => ?_)
    · rcases early with rfl | rfl
      · exact place
      · exact place
    · obtain ⟨nonce', there⟩ := inside_of_place inside
      have held := inv.held q o' nonce' _ there rfl
      rw [held] at free
      rcases free with none_ | empty
      · cases none_
      · cases empty
  | releases result entries held => exact Or.inr rfl
  | clears l seen entries held => exact Or.inr rfl
  | removes at_ to_ empty unclaimed unseen stage => exact Or.inr (by rw [stage])

theorem put_same {proc' : Proc O L R} (here : s.procs p = some proc)
    (same : procPlace proc' = procPlace proc) :
    (taking s).put p (procPlace proc') = taking s := by
  refine congrArg (Taking.mk s.shared) (funext fun q => ?_)
  rw [Function.update_apply]
  split
  next equal =>
    rw [equal, same]
    exact (taking_place here).symm
  next => rfl

/-- A step of the processes around the guard is a step of processes that take turns, or
changes nothing for them. -/
theorem step_turn (step : (guarded P).step s label t) (inv : GuardInv s) :
    P.Turn (taking s) (taking t) ∨ taking t = taking s := by
  have live := taking_live s
  cases step_effect step with
  | spawn p absent =>
    rw [taking_put]
    exact Or.inl (.spawn p (by simp [taking, absent]))
  | crash p =>
    refine Or.inl ?_
    have gone : taking { s with procs := Function.update s.procs p none } =
        { taking s with places := Function.update (taking s).places p none } := by
      refine congrArg (Taking.mk s.shared) (funext fun q => ?_)
      dsimp only
      rw [Function.update_apply, Function.update_apply]
      split <;> rfl
    rw [gone]
    exact .crash p
  | world c shared moved => exact Or.inl (.world c shared moved)
  | outer p fails c o o' shared here moved =>
    rw [taking_put]
    exact Or.inl (.outer p o o' c shared none (taking_place here) (live ▸ moved))
  | call p fails c o o' shared l here moved =>
    rw [taking_put]
    exact Or.inl (.outer p o o' c shared (some l) (taking_place here) (live ▸ moved))
  | inner p fails c o o' nonce l shared next here moved =>
    rw [taking_put]
    have place : procPlace (.calling o' nonce (afterInner next)) = Place.stepped o' next := by
      cases next <;> rfl
    rw [place]
    exact Or.inl (.inner p o o' l c shared next (taking_place here) (live ▸ moved))
  | ends p fails c o nonce outcome here =>
    rw [taking_put]
    exact Or.inl (.leave p o outcome (taking_place here))
  | guards p fails c o nonce at_ to_ guard here effect =>
    rw [taking_put]
    rcases guards_turn (P := P) inv here effect with turn | same
    · exact Or.inl turn
    · exact Or.inr (put_same here same)

theorem step_taking (step : (guarded P).step s label t) {I : Taking S O L R → Prop}
    (kept : ∀ b, P.Turn (taking s) b → I b) (inv : GuardInv s ∧ I (taking s)) :
    GuardInv t ∧ I (taking t) := by
  refine ⟨step_inv step inv.1, ?_⟩
  rcases step_turn step inv.1 with turn | same
  · exact kept _ turn
  · rw [same]
    exact inv.2

/-- A live process is inside the guarded callback. -/
def Inside (s : Guarded S O L R) (p : Nat) : Prop :=
  ∃ o nonce l, s.procs p = some (.calling o nonce (.inside l))

/-- The process takes a dead owner's entry, or the guard that it emptied, away. -/
def recovers (s : Guarded S O L R) : Label C → Bool
  | .run p _ _ =>
    match s.procs p with
    | some (.calling _ _ (.unlinkDead _ _)) | some (.calling _ _ (.removeDead _)) => true
    | _ => false
  | _ => false

/-- Recovery leaves the guard of every live process that has one as it is. -/
def RecoversOnlyTheDead (x : Step (Guarded S O L R) (Label C)) : Prop :=
  recovers x.before x.label → ∀ q o nonce m,
    x.before.procs q = some (.calling o nonce m) → claims m = true →
      x.before.guard = some [⟨q, nonce⟩] ∧ x.after.guard = some [⟨q, nonce⟩]

theorem step_recovers (step : (guarded P).step s label t) (inv : GuardInv s) :
    RecoversOnlyTheDead ⟨s, label, t⟩ := by
  intro recovering q o nonce m there claimed
  have held := inv.held q o nonce m there claimed
  refine ⟨held, ?_⟩
  cases step_effect step with
  | spawn p absent => exact held
  | crash p => exact held
  | world c shared moved => exact held
  | outer p fails c o₁ o' shared here moved => exact held
  | call p fails c o₁ o' shared l here moved => exact held
  | inner p fails c o₁ o' nonce₁ l shared next here moved => exact held
  | ends p fails c o₁ nonce₁ outcome here => exact held
  | guards p fails c o₁ nonce₁ at_ to_ guard here effect =>
    by_cases same : q = p
    · -- A process that recovers has no guard of its own.
      subst same
      rw [here] at there
      cases there
      cases m with
      | inside l => simp [recovers, here] at recovering
      | unlinkOwn result => simp [recovers, here] at recovering
      | _ => cases claimed
    · exact effect_keeps inv here effect same there claimed

/-- Whatever the callback does, at most one live process is inside it, and recovery
never takes the guard of a live process away. -/
theorem mutation_guard_exclusive (P : Program S O L R C) {s t : Guarded S O L R}
    {steps : List (Step (Guarded S O L R) (Label C))} (start : (guarded P).start s)
    (run : (guarded P).Run s steps t) :
    (∀ p q, Inside t p → Inside t q → p = q) ∧ ∀ x ∈ steps, RecoversOnlyTheDead x := by
  have inv := run.invariant GuardInv (start_inv start) fun m label n step held => step_inv step held
  constructor
  · rintro p q ⟨o, nonce, l, here⟩ ⟨o', nonce', l', there⟩
    have mine := inv.held p o nonce _ here rfl
    have other := inv.held q o' nonce' _ there rfl
    rw [mine] at other
    cases other
    rfl
  · exact run.steps_of GuardInv (fun _ => True) RecoversOnlyTheDead (start_inv start)
      (fun m label n step _ held => step_inv step held)
      (fun m label n step _ held => step_recovers step held) fun _ _ => trivial

def sampleProgram : Program Unit Unit Unit Unit Unit :=
  ⟨fun _ => True, (), fun _ _ => none, fun _ _ _ _ _ => some ((), (), some ()),
    fun _ _ _ _ _ _ => some ((), (), .inr ()), fun _ _ => ()⟩

/-- Process 1 dies inside, and process 2 takes the guard from it. -/
def sampleLabels : List (Label Unit) :=
  [.spawn 1, .run 1 false (), .run 1 false (), .run 1 false (), .run 1 false (), .crash 1,
    .spawn 2, .run 2 false (), .run 2 false (), .run 2 false (), .run 2 false (), .run 2 false (),
    .run 2 false (), .run 2 false (), .run 2 false (), .run 2 false ()]

def sampleStart : Guarded Unit Unit Unit Unit := ⟨none, 0, (), fun _ => none⟩

def sampleEnd : Guarded Unit Unit Unit Unit :=
  runInputs (stepped (advance sampleProgram)) sampleStart sampleLabels

theorem mutation_guard_exclusive_sample :
    (∀ p q, Inside sampleEnd p → Inside sampleEnd q → p = q) ∧ sampleEnd.guard = some [⟨2, 1⟩] :=
  ⟨(mutation_guard_exclusive sampleProgram ⟨⟨fun _ => rfl, by simp [sampleStart]⟩, trivial⟩
    (run_stepped sampleStart sampleLabels (by decide))).1, by decide⟩

end Ultrathink.Guarantees.MutationGuard
