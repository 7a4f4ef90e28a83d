import Ultrathink.Source.Auth.Login

/-!
# The login limits hold over every interleaving

A window counts the calls reserved in it that have not succeeded. As long as a
success gives its slots back to the windows they were taken from, the calls that
passed a limit and have not succeeded stay within it, whatever the order of the
calls, their checks and the clock.
-/

namespace Ultrathink.Guarantees.LoginThrottle

open List Library JsText Runs
open Source.Auth Source.Auth.FixedWindowLimiter

/-- Counted in the window of `key` that ends at `r`, and not given back. -/
def holds (scope : Scope) (key : Text) (r : ℤ) (a : Attempt) : Bool :=
  a.slot scope = some (key, r) && a.stage ≠ .succeeded

/-- Past the limits, and not succeeded. -/
def passed (scope : Scope) (key : Text) (r : ℤ) (a : Attempt) : Bool :=
  holds scope key r a && a.stage ≠ .refused

def failed (scope : Scope) (key : Text) (r : ℤ) (a : Attempt) : Bool :=
  a.slot scope = some (key, r) && a.stage = .failed

/-- The windows of one scope against the calls counted in them. -/
structure ScopeInv (l : FixedWindowLimiter) (clock : ℤ) (scope : Scope) (attempts : List Attempt) :
    Prop where
  exact_ : ∀ key w, l.windows.get? key = some w →
    w.count = attempts.countP (holds scope key w.resetAt)
  running : ∀ key r, clock < r → 0 < attempts.countP (holds scope key r) →
    ∃ w, l.windows.get? key = some w ∧ w.resetAt = r
  within : ∀ key r, attempts.countP (passed scope key r) ≤ scope.limit

def ThrottleInv (s : Throttle) : Prop :=
  ∀ scope, ScopeInv (s.auth.limiter scope) s.clock scope s.attempts

theorem passed_le_holds (scope : Scope) (key : Text) (r : ℤ) (attempts : List Attempt) :
    attempts.countP (passed scope key r) ≤ attempts.countP (holds scope key r) :=
  countP_mono_left fun a _ passes => by
    rw [passed, Bool.and_eq_true] at passes
    exact passes.1

variable {l : FixedWindowLimiter} {attempts : List Attempt} {a : Attempt} {clock t now : ℤ}
  {scope : Scope} {key : Text} {s : Throttle} {i : Nat} {o : AuthOptions}

theorem ScopeInv.uncounted {l' : FixedWindowLimiter} (inv : ScopeInv l clock scope attempts)
    (none_ : a.slot scope = none) (before : clock ≤ t) (after : t ≤ now)
    (forgets : Forgets l l' t) : ScopeInv l' now scope (attempts ++ [a]) := by
  have same : ∀ key r, (attempts ++ [a]).countP (holds scope key r) =
      attempts.countP (holds scope key r) := by
    intro key r
    simp [holds, none_]
  have passes : ∀ key r, (attempts ++ [a]).countP (passed scope key r) =
      attempts.countP (passed scope key r) := by
    intro key r
    simp [passed, holds, none_]
  constructor
  · intro key w here
    rw [same]
    exact inv.exact_ key w (forgets.old key w here)
  · intro key r future some_
    rw [same] at some_
    obtain ⟨w, here, ends⟩ := inv.running key r (by omega) some_
    exact ⟨w, forgets.kept key w here (by omega), ends⟩
  · intro key r
    rw [passes]
    exact inv.within key r

theorem ScopeInv.counted {l' : FixedWindowLimiter} {w : Window}
    (inv : ScopeInv l clock scope attempts) (before : clock ≤ t) (after : t ≤ now)
    (slot : a.slot scope = some (key, w.resetAt)) (fresh : a.stage ≠ .succeeded)
    (count : Counted l l' key w t) (window : l.current key t = some w ∨
      l.current key t = none ∧ w = ⟨0, t + loginWindowMs⟩)
    (limited : a.stage ≠ .refused → w.count + 1 ≤ scope.limit) :
    ScopeInv l' now scope (attempts ++ [a]) := by
  have exact_ : w.count = attempts.countP (holds scope key w.resetAt) := by
    rcases window with running | ⟨ended, rfl⟩
    · exact inv.exact_ key w (current_eq_some.mp running).1
    · dsimp only
      by_contra counted
      have past : loginWindowMs = 900000 := rfl
      obtain ⟨v, here, ends⟩ := inv.running key (t + loginWindowMs) (by omega)
        (Nat.pos_of_ne_zero fun zero => counted zero.symm)
      have current := current_eq_some.mpr ⟨here, show t < v.resetAt by omega⟩
      rw [ended] at current
      cases current
  have one : ∀ k r, (attempts ++ [a]).countP (holds scope k r) =
      attempts.countP (holds scope k r) + if k = key ∧ r = w.resetAt then 1 else 0 := by
    intro k r
    rw [countP_append, countP_singleton]
    have this : holds scope k r a = true ↔ k = key ∧ r = w.resetAt := by
      simp only [holds, slot, fresh, Option.some.injEq, Prod.mk.injEq, ne_eq, not_false_eq_true,
        decide_true, Bool.and_true, decide_eq_true_eq]
      exact ⟨fun h => ⟨h.1.symm, h.2.symm⟩, fun h => ⟨h.1.symm, h.2.symm⟩⟩
    simp only [this]
  have other : ∀ k, k ≠ key → ∀ r, (attempts ++ [a]).countP (holds scope k r) =
      attempts.countP (holds scope k r) := by
    intro k differs r
    rw [one, if_neg fun h => differs h.1, Nat.add_zero]
  constructor
  · intro k v found
    by_cases same : k = key
    · rw [same, count.here] at found
      rw [← Option.some.inj found, same, one, if_pos ⟨rfl, rfl⟩, ← exact_]
    · rw [other k same]
      exact inv.exact_ k v (count.old k v same found)
  · intro k r future some_
    by_cases same : k = key
    · refine ⟨_, same ▸ count.here, ?_⟩
      dsimp only
      by_contra differs
      rw [one, if_neg fun h => differs h.2.symm, Nat.add_zero, same] at some_
      obtain ⟨v, here, ends⟩ := inv.running key r (by omega) some_
      have current := current_eq_some.mpr ⟨here, show t < v.resetAt by omega⟩
      rcases window with running | ⟨ended, -⟩
      · rw [running] at current
        exact differs (Option.some.inj current ▸ ends)
      · rw [ended] at current
        cases current
    · rw [other k same] at some_
      obtain ⟨v, here, ends⟩ := inv.running k r (by omega) some_
      exact ⟨v, count.kept k v same here (by omega), ends⟩
  · intro k r
    rw [countP_append, countP_singleton]
    split
    next passes =>
      rw [passed, Bool.and_eq_true] at passes
      have place : k = key ∧ r = w.resetAt := by
        have held := passes.1
        simp only [holds, slot, Option.some.injEq, Prod.mk.injEq, Bool.and_eq_true,
          decide_eq_true_eq] at held
        exact ⟨held.1.1.symm, held.1.2.symm⟩
      have bound := limited (by simpa using passes.2)
      have less := passed_le_holds scope key w.resetAt attempts
      rw [place.1, place.2]
      omega
    next => exact inv.within k r

theorem hit_effect (l : FixedWindowLimiter) (key : Text) (t : ℤ) :
    (countedIn (l.hit key loginWindowMs t) key = none ∧ (l.hit key loginWindowMs t).2 = none ∧
        Forgets l (l.hit key loginWindowMs t).1 t) ∨
      ∃ w h, countedIn (l.hit key loginWindowMs t) key = some w.resetAt ∧
        (l.hit key loginWindowMs t).2 = some h ∧ h.count = w.count + 1 ∧
        Counted l (l.hit key loginWindowMs t).1 key w t ∧
        (l.current key t = some w ∨ l.current key t = none ∧ w = ⟨0, t + loginWindowMs⟩) := by
  rcases hit_cases l key loginWindowMs t with ⟨refused, forgets⟩ | ⟨w, h, hit, count, counted, window⟩
  · left
    refine ⟨?_, refused, forgets⟩
    rw [countedIn, refused]
  · right
    refine ⟨w, h, ?_, hit, count, counted, window⟩
    rw [countedIn, hit, counted.here]
    rfl

theorem ScopeInv.hit (inv : ScopeInv l clock scope attempts) (before : clock ≤ t) (after : t ≤ now)
    (slot : a.slot scope = (countedIn (l.hit key loginWindowMs t) key).map (fun r => (key, r)))
    (fresh : a.stage ≠ .succeeded)
    (limited : a.stage ≠ .refused → exceeds (l.hit key loginWindowMs t).2 scope.limit = false) :
    ScopeInv (l.hit key loginWindowMs t).1 now scope (attempts ++ [a]) := by
  rcases hit_effect l key t with ⟨none_, -, forgets⟩ | ⟨w, h, some_, hit, count, counted, window⟩
  · exact inv.uncounted (by rw [slot, none_]; rfl) before after forgets
  · refine inv.counted before after (by rw [slot, some_]; rfl) fresh counted window ?_
    intro admitted
    have fits := limited admitted
    rw [hit, exceeds, decide_eq_false_iff_not] at fits
    omega

theorem start_inv {password clientIp : Text} {t1 t2 : ℤ} (inv : ThrottleInv s)
    (first : s.clock ≤ t1) (second : t1 ≤ t2) (o : AuthOptions) :
    ThrottleInv (s.next o (.start password clientIp t1 t2)) := by
  rw [Throttle.next]
  by_cases invalid : ((passwordInput.validate password).isSome ||
      (identityInput.validate clientIp).isSome) = true
  · have unchanged : (loginStart s.auth password clientIp t1 t2).1 = s.auth := by
      rw [loginStart]
      rw [Bool.or_eq_true] at invalid
      split
      · rfl
      next valid => rw [if_pos (invalid.resolve_left valid)]
    have record : attemptOf s.auth password clientIp t1 t2 =
        ⟨password, clientIp, none, none, .refused⟩ := by
      rw [attemptOf]
      exact if_pos invalid
    intro scope
    dsimp only
    rw [unchanged, record]
    refine (inv scope).uncounted ?_ first second (forgets_refl _ _)
    cases scope <;> rfl
  rw [Bool.not_eq_true, Bool.or_eq_false_iff] at invalid
  have validPassword : ¬ (passwordInput.validate password).isSome = true := by simp [invalid.1]
  have validIp : ¬ (identityInput.validate clientIp).isSome = true := by simp [invalid.2]
  have ipInv := inv .ip
  have ownerInv := inv .owner
  rw [loginStart, if_neg validPassword, if_neg validIp, attemptOf, invalid.1, invalid.2]
  by_cases ipFull : exceeds (s.auth.loginsByIp.hit clientIp loginWindowMs t1).2 loginAttemptsPerIp
  · simp only [ipFull, if_true, Bool.or_self, Bool.false_eq_true, if_false]
    intro scope
    cases scope with
    | ip => exact ipInv.hit first second rfl (by simp) (fun h => absurd rfl h)
    | owner => exact ownerInv.uncounted rfl first second (forgets_refl _ _)
  · simp only [ipFull, Bool.or_self, Bool.false_eq_true, if_false]
    have ipFits := Bool.not_eq_true _ ▸ ipFull
    by_cases ownerFull :
        exceeds (s.auth.ownerFailures.hit ownerKey loginWindowMs t2).2 ownerFailuresPerWindow
    · simp only [ownerFull, if_true]
      intro scope
      cases scope with
      | ip => exact ipInv.hit first second rfl (by simp) (fun h => absurd rfl h)
      | owner =>
        exact ownerInv.hit (le_trans first second) (le_refl t2) rfl (by simp)
          (fun h => absurd rfl h)
    · simp only [ownerFull, Bool.false_eq_true, if_false]
      intro scope
      cases scope with
      | ip => exact ipInv.hit first second rfl (by simp) (fun _ => ipFits)
      | owner =>
        exact ownerInv.hit (le_trans first second) (le_refl t2) rfl (by simp)
          (fun _ => Bool.not_eq_true _ ▸ ownerFull)

theorem countP_record (b : Attempt) (at_ : attempts[i]? = some a) (p : Attempt → Bool) :
    (attempts.set i b).countP p + (if p a then 1 else 0) =
      attempts.countP p + if p b then 1 else 0 := by
  obtain ⟨bound, value⟩ := List.getElem?_eq_some_iff.mp at_
  have here : p a = true → 0 < attempts.countP p := fun holds =>
    List.countP_pos_iff.mpr ⟨a, value ▸ List.getElem_mem bound, holds⟩
  rw [countP_set bound, value]
  split
  next holds =>
    have positive := here holds
    omega
  next => omega

theorem ScopeInv.fail (inv : ScopeInv l clock scope attempts) (at_ : attempts[i]? = some a)
    (stage : a.stage = .checking) (later : clock ≤ now) :
    ScopeInv l now scope (attempts.set i { a with stage := .failed }) := by
  have holdsSame : ∀ key r, holds scope key r { a with stage := .failed } = holds scope key r a := by
    intro key r
    simp only [holds, stage, Attempt.slot]
    rfl
  have passedSame : ∀ key r,
      passed scope key r { a with stage := .failed } = passed scope key r a := by
    intro key r
    rw [passed, passed, holdsSame]
    simp only [stage]
    rfl
  have same : ∀ key r, (attempts.set i { a with stage := .failed }).countP (holds scope key r) =
      attempts.countP (holds scope key r) := by
    intro key r
    have moved := countP_record { a with stage := .failed } at_ (holds scope key r)
    rw [holdsSame] at moved
    omega
  constructor
  · intro key w here
    rw [same]
    exact inv.exact_ key w here
  · intro key r future some_
    rw [same] at some_
    exact inv.running key r (lt_of_le_of_lt later future) some_
  · intro key r
    have moved := countP_record { a with stage := .failed } at_ (passed scope key r)
    rw [passedSame] at moved
    have bound := inv.within key r
    omega

/-- A success gives its slot back, to the window it was taken from or, when that
window has ended, to none. -/
theorem ScopeInv.succeed {r : ℤ} (inv : ScopeInv l clock scope attempts)
    (at_ : attempts[i]? = some a) (stage : a.stage = .checking)
    (slot : a.slot scope = some (key, r)) (before : clock ≤ t) (after : t ≤ now)
    (own : ∀ w, l.current key t = some w → w.resetAt = r) :
    ScopeInv (l.release key t) now scope (attempts.set i { a with stage := .succeeded }) := by
  have gone : ∀ k q, holds scope k q { a with stage := .succeeded } = false := by
    intro k q
    simp [holds]
  have held : ∀ k q, holds scope k q a = true ↔ k = key ∧ q = r := by
    intro k q
    simp only [holds, slot, stage, Option.some.injEq, Prod.mk.injEq, ne_eq, Bool.and_eq_true,
      decide_eq_true_eq]
    exact ⟨fun h => ⟨h.1.1.symm, h.1.2.symm⟩, fun h => ⟨⟨h.1.symm, h.2.symm⟩, by simp⟩⟩
  have moved : ∀ k q,
      (attempts.set i { a with stage := .succeeded }).countP (holds scope k q) +
        (if k = key ∧ q = r then 1 else 0) = attempts.countP (holds scope k q) := by
    intro k q
    have record := countP_record { a with stage := .succeeded } at_ (holds scope k q)
    simp only [gone, held, Bool.false_eq_true, if_false, Nat.add_zero] at record
    exact record
  have fewer : ∀ k q, 0 < (attempts.set i { a with stage := .succeeded }).countP (holds scope k q) →
      0 < attempts.countP (holds scope k q) := by
    intro k q positive
    have step := moved k q
    omega
  have other : ∀ k, k ≠ key → ∀ q,
      (attempts.set i { a with stage := .succeeded }).countP (holds scope k q) =
        attempts.countP (holds scope k q) := by
    intro k differs q
    have step := moved k q
    rw [if_neg fun h => differs h.1] at step
    omega
  refine ⟨?_, ?_, ?_⟩
  · intro k w here
    rcases release_cases l key t with ⟨-, absent, forgets⟩ | ⟨v, current, released, rest⟩
    · have differs : k ≠ key := by
        rintro rfl
        rw [absent] at here
        cases here
      rw [other k differs]
      exact inv.exact_ k w (forgets.old k w here)
    · by_cases same : k = key
      · rw [same, released] at here
        have exact_ := inv.exact_ key v (current_eq_some.mp current).1
        have step := moved key v.resetAt
        rw [if_pos ⟨rfl, own v current⟩] at step
        rw [← Option.some.inj here, same]
        dsimp only
        omega
      · rw [rest k same] at here
        rw [other k same]
        exact inv.exact_ k w here
  · intro k q future some_
    obtain ⟨w, here, ends⟩ := inv.running k q (by omega) (fewer k q some_)
    rcases release_cases l key t with ⟨-, absent, forgets⟩ | ⟨v, current, released, rest⟩
    · exact ⟨w, forgets.kept k w here (by omega), ends⟩
    · by_cases same : k = key
      · rw [same, (current_eq_some.mp current).1] at here
        refine ⟨_, by rw [same]; exact released, ?_⟩
        rw [← ends, ← Option.some.inj here]
      · exact ⟨w, by rw [rest k same, here], ends⟩
  · intro k q
    have record := countP_record { a with stage := .succeeded } at_ (passed scope k q)
    have dropped : passed scope k q { a with stage := .succeeded } = false := by
      rw [passed, gone, Bool.false_and]
    rw [dropped] at record
    have bound := inv.within k q
    simp only [Bool.false_eq_true, if_false] at record
    omega

/-- A success that goes on at these readings gives each slot back to the window it
was taken from, or finds no running window. -/
def ReleasesOwn (o : AuthOptions) (s : Throttle) : Label → Prop
  | .start _ _ _ _ => True
  | .finish i t1 t2 _ => ∀ a, s.attempts[i]? = some a → passwordMatches o a.password = true →
    (∀ w, s.auth.ownerFailures.current ownerKey t1 = some w → a.ownerWindow = some w.resetAt) ∧
      ∀ w, s.auth.loginsByIp.current a.clientIp t2 = some w → a.ipWindow = some w.resetAt

instance (found : Option Window) (slot : Option ℤ) :
    Decidable (∀ w, found = some w → slot = some w.resetAt) :=
  match found with
  | some w => decidable_of_iff (slot = some w.resetAt) (by simp)
  | none => .isTrue (by simp)

instance (o : AuthOptions) (s : Throttle) (label : Label) : Decidable (ReleasesOwn o s label) :=
  match label with
  | .start _ _ _ _ => .isTrue trivial
  | .finish i t1 t2 _ =>
    match at_ : s.attempts[i]? with
    | some a =>
      decidable_of_iff (passwordMatches o a.password = true →
        (∀ w, s.auth.ownerFailures.current ownerKey t1 = some w → a.ownerWindow = some w.resetAt) ∧
          ∀ w, s.auth.loginsByIp.current a.clientIp t2 = some w → a.ipWindow = some w.resetAt) (by
        rw [ReleasesOwn]
        simp only [at_, Option.some.injEq, forall_eq'])
    | none => .isTrue (by
      intro a found
      rw [at_] at found
      cases found)

/-- A call that waits for its check was counted in both scopes. -/
def Reserved (s : Throttle) : Prop :=
  ∀ a ∈ s.attempts, a.stage = .checking → a.ipWindow.isSome ∧ a.ownerWindow.isSome

theorem finish_inv {t1 t2 t3 : ℤ} (inv : ThrottleInv s) (reserved : Reserved s)
    (enabled : s.Enabled (.finish i t1 t2 t3)) (own : ReleasesOwn o s (.finish i t1 t2 t3)) :
    ThrottleInv (s.next o (.finish i t1 t2 t3)) := by
  obtain ⟨⟨a, at_, stage⟩, first, second, third⟩ := enabled
  have slots := reserved a (mem_of_getElem? at_) stage
  obtain ⟨ipWindow, ipSlot⟩ := Option.isSome_iff_exists.mp slots.1
  obtain ⟨ownerWindow, ownerSlot⟩ := Option.isSome_iff_exists.mp slots.2
  rw [Throttle.next, at_]
  dsimp only
  by_cases verified : passwordMatches o a.password = true
  · obtain ⟨ownOwner, ownIp⟩ := own a at_ verified
    rw [loginFinish, if_pos verified, if_pos verified]
    intro scope
    cases scope with
    | ip =>
      refine (inv .ip).succeed at_ stage (show a.slot .ip = some (a.clientIp, ipWindow) by
        rw [Attempt.slot, ipSlot]; rfl) (le_trans first second) third ?_
      intro w running
      have same := ownIp w running
      rw [ipSlot] at same
      exact (Option.some.inj same).symm
    | owner =>
      refine (inv .owner).succeed at_ stage (show a.slot .owner = some (ownerKey, ownerWindow) by
        rw [Attempt.slot, ownerSlot]; rfl) first (le_trans second third) ?_
      intro w running
      have same := ownOwner w running
      rw [ownerSlot] at same
      exact (Option.some.inj same).symm
  · rw [loginFinish, if_neg verified, if_neg verified]
    intro scope
    exact (inv scope).fail at_ stage (le_trans first (le_trans second third))

def opened : Throttle := ⟨.new, 0, []⟩

/-- Calls from the same address at one time. -/
def calls (password clientIp : Text) (t : ℤ) (n : Nat) : List Label :=
  List.replicate n (.start password clientIp t t)

/-- The checks of calls `from_` to `from_ + n - 1` end. -/
def ends (from_ n : Nat) (t : ℤ) : List Label :=
  (List.range n).map (fun i => .finish (from_ + i) t t t)

end Ultrathink.Guarantees.LoginThrottle
