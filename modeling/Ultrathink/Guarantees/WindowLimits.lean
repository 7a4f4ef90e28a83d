import Ultrathink.Source.Auth.RequestLimit
import Ultrathink.Library.Runs

/-!
# The limiter under any churn of keys

A window that has not ended is never reset or dropped, the table stays within its cap, and no
window accepts more than its limit, for acquisitions of any keys in any order.
-/

namespace Ultrathink.Guarantees.WindowLimits

open List Library JsText Runs Source.Auth Source.Auth.FixedWindowLimiter
open Source.Auth.RequestLimit

variable {windowMs : ℤ} {maxKeys : Nat}

def Clocked (calls : List Acquisition) : Prop := calls.Pairwise fun a b => a.at_ ≤ b.at_

/-- The limiter after the acquisitions, from a new one. -/
def after (windowMs : ℤ) (maxKeys : Nat) (calls : List Acquisition) : FixedWindowLimiter :=
  runInputs (acquire windowMs) (FixedWindowLimiter.new maxKeys) calls

def trace (windowMs : ℤ) (maxKeys : Nat) (calls : List Acquisition) :
    List (Step FixedWindowLimiter Acquisition) :=
  traceOf (acquire windowMs) (FixedWindowLimiter.new maxKeys) calls

def hitOf (windowMs : ℤ) (x : Step FixedWindowLimiter Acquisition) : Option Hit :=
  (x.before.hit x.label.key windowMs x.label.at_).2

/-- The acquisition is counted in the window of `key` that ends at `resetAt`. -/
def countsIn (windowMs : ℤ) (key : Text) (resetAt : ℤ) (x : Step FixedWindowLimiter Acquisition) :
    Bool :=
  x.label.key = key && (hitOf windowMs x).isSome &&
    ((x.after.windows.get? key).map Window.resetAt) = some resetAt

/-- It is accepted there, and its limit is at most `limit`. -/
def acceptedIn (windowMs : ℤ) (key : Text) (resetAt : ℤ) (limit : Nat)
    (x : Step FixedWindowLimiter Acquisition) : Bool :=
  countsIn windowMs key resetAt x && isAccepted (hitOf windowMs x) x.label.limit &&
    decide (x.label.limit ≤ limit)

/-- The same cap and no more entries. -/
structure Smaller (l l' : FixedWindowLimiter) : Prop where
  maxKeys : l'.maxKeys = l.maxKeys
  size : l'.windows.size ≤ l.windows.size

theorem Smaller.trans {l m n : FixedWindowLimiter} (first : Smaller l m) (second : Smaller m n) :
    Smaller l n :=
  ⟨second.maxKeys.trans first.maxKeys, second.size.trans first.size⟩

variable {calls : List Acquisition} {w : Window} {a : Acquisition}

theorem hit_keeps (l : FixedWindowLimiter) (a : Acquisition) {key : Text} {w : Window}
    (here : l.windows.get? key = some w) (live : a.at_ < w.resetAt) :
    ∃ w', (acquire windowMs l a).windows.get? key = some w' ∧ w'.resetAt = w.resetAt ∧
      w.count ≤ w'.count := by
  unfold acquire
  rcases hit_cases l a.key windowMs a.at_ with
    ⟨-, forgets⟩ | ⟨v, h, -, -, counted, of⟩
  · exact ⟨w, forgets.kept key w here live, rfl, le_rfl⟩
  · by_cases same : key = a.key
    · subst same
      have running := current_eq_some.mpr ⟨here, live⟩
      rcases of with found | ⟨none_, -⟩
      · obtain rfl := Option.some.inj (running.symm.trans found)
        exact ⟨_, counted.here, rfl, Nat.le_succ _⟩
      · rw [running] at none_
        cases none_
    · exact ⟨w, counted.kept key w same here live, rfl, le_rfl⟩

def counts (windowMs : ℤ) (maxKeys : Nat) (calls : List Acquisition) (key : Text) (resetAt : ℤ) :
    Nat := (trace windowMs maxKeys calls).countP (countsIn windowMs key resetAt)

def accepts (windowMs : ℤ) (maxKeys : Nat) (calls : List Acquisition) (key : Text) (resetAt : ℤ)
    (limit : Nat) : Nat :=
  (trace windowMs maxKeys calls).countP (acceptedIn windowMs key resetAt limit)

/-- At `t` the counts of the windows are those of the entries. -/
structure Inv (windowMs : ℤ) (maxKeys : Nat) (calls : List Acquisition) (t : ℤ) : Prop where
  counted : ∀ key w, (after windowMs maxKeys calls).windows.get? key = some w →
    counts windowMs maxKeys calls key w.resetAt = w.count
  past : ∀ key resetAt, 0 < counts windowMs maxKeys calls key resetAt → resetAt ≤ t ∨
    ∃ w, (after windowMs maxKeys calls).windows.get? key = some w ∧ w.resetAt = resetAt
  bounded : ∀ key resetAt limit, accepts windowMs maxKeys calls key resetAt limit ≤
    min limit (counts windowMs maxKeys calls key resetAt)

theorem after_snoc (calls : List Acquisition) (a : Acquisition) :
    after windowMs maxKeys (calls ++ [a]) = acquire windowMs (after windowMs maxKeys calls) a :=
  runInputs_append _ _ _ _

theorem trace_snoc (calls : List Acquisition) (a : Acquisition) :
    trace windowMs maxKeys (calls ++ [a]) = trace windowMs maxKeys calls ++
      [⟨after windowMs maxKeys calls, a, acquire windowMs (after windowMs maxKeys calls) a⟩] :=
  traceOf_append _ _ _ _

theorem counts_snoc (calls : List Acquisition) (a : Acquisition) (key : Text) (resetAt : ℤ) :
    counts windowMs maxKeys (calls ++ [a]) key resetAt =
      counts windowMs maxKeys calls key resetAt +
        if countsIn windowMs key resetAt ⟨after windowMs maxKeys calls, a,
          acquire windowMs (after windowMs maxKeys calls) a⟩ then 1 else 0 := by
  rw [counts, trace_snoc, countP_append, countP_singleton]
  rfl

theorem accepts_snoc (calls : List Acquisition) (a : Acquisition) (key : Text) (resetAt : ℤ)
    (limit : Nat) :
    accepts windowMs maxKeys (calls ++ [a]) key resetAt limit =
      accepts windowMs maxKeys calls key resetAt limit +
        if acceptedIn windowMs key resetAt limit ⟨after windowMs maxKeys calls, a,
          acquire windowMs (after windowMs maxKeys calls) a⟩ then 1 else 0 := by
  rw [accepts, trace_snoc, countP_append, countP_singleton]
  rfl

theorem countsIn_iff {x : Step FixedWindowLimiter Acquisition} {key : Text} {resetAt : ℤ} :
    countsIn windowMs key resetAt x = true ↔ x.label.key = key ∧ (hitOf windowMs x).isSome ∧
      ∃ w, x.after.windows.get? key = some w ∧ w.resetAt = resetAt := by
  unfold countsIn
  rw [Bool.and_eq_true, Bool.and_eq_true, decide_eq_true_eq, decide_eq_true_eq,
    Option.map_eq_some_iff, and_assoc]

theorem Inv.refuses (inv : Inv windowMs maxKeys calls a.at_)
    (refused : ((after windowMs maxKeys calls).hit a.key windowMs a.at_).2 = none)
    (forgets : Forgets (after windowMs maxKeys calls)
      (acquire windowMs (after windowMs maxKeys calls) a) a.at_) :
    Inv windowMs maxKeys (calls ++ [a]) a.at_ := by
  have uncounted (key : Text) (resetAt : ℤ) :
      countsIn windowMs key resetAt ⟨after windowMs maxKeys calls, a,
        acquire windowMs (after windowMs maxKeys calls) a⟩ = false := by
    simp [countsIn, hitOf, refused]
  have same (key : Text) (resetAt : ℤ) : counts windowMs maxKeys (calls ++ [a]) key resetAt =
      counts windowMs maxKeys calls key resetAt := by
    rw [counts_snoc, uncounted]
    rfl
  constructor
  · intro key w here
    rw [after_snoc] at here
    rw [same]
    exact inv.counted key w (forgets.old key w here)
  · intro key resetAt some_
    rw [same] at some_
    rw [after_snoc]
    rcases inv.past key resetAt some_ with ended | ⟨w, here, rfl⟩
    · exact .inl ended
    · rcases le_or_gt w.resetAt a.at_ with ended | live
      · exact .inl ended
      · exact .inr ⟨w, forgets.kept key w here live, rfl⟩
  · intro key resetAt limit
    rw [accepts_snoc, same, acceptedIn, uncounted]
    exact inv.bounded key resetAt limit

/-- The window that an acquisition is counted in has had as many as its entry says. -/
theorem Inv.window (inv : Inv windowMs maxKeys calls a.at_) (positive : 0 < windowMs)
    (of : (after windowMs maxKeys calls).current a.key a.at_ = some w ∨
      (after windowMs maxKeys calls).current a.key a.at_ = none ∧ w = ⟨0, a.at_ + windowMs⟩) :
    counts windowMs maxKeys calls a.key w.resetAt = w.count := by
  rcases of with found | ⟨none_, rfl⟩
  · exact inv.counted a.key w (current_eq_some.mp found).1
  · apply Nat.eq_zero_of_not_pos
    intro some_
    rcases inv.past a.key _ some_ with ended | ⟨v, here, same⟩
    · simp only at ended
      omega
    · simp only at same
      have running := current_eq_some.mpr ⟨here, show a.at_ < v.resetAt by omega⟩
      rw [running] at none_
      cases none_

theorem Inv.counts_one {h : Hit} (inv : Inv windowMs maxKeys calls a.at_) (positive : 0 < windowMs)
    (hit : ((after windowMs maxKeys calls).hit a.key windowMs a.at_).2 = some h)
    (number : h.count = w.count + 1) (one : Counted (after windowMs maxKeys calls)
      (acquire windowMs (after windowMs maxKeys calls) a) a.key w a.at_)
    (of : (after windowMs maxKeys calls).current a.key a.at_ = some w ∨
      (after windowMs maxKeys calls).current a.key a.at_ = none ∧ w = ⟨0, a.at_ + windowMs⟩) :
    Inv windowMs maxKeys (calls ++ [a]) a.at_ := by
  have before := inv.window positive of
  have counted (key : Text) (resetAt : ℤ) :
      countsIn windowMs key resetAt ⟨after windowMs maxKeys calls, a,
        acquire windowMs (after windowMs maxKeys calls) a⟩ = true ↔
        key = a.key ∧ resetAt = w.resetAt := by
    rw [countsIn_iff]
    constructor
    · rintro ⟨rfl, -, v, here, rfl⟩
      rw [one.here] at here
      obtain rfl := Option.some.inj here
      exact ⟨rfl, rfl⟩
    · rintro ⟨rfl, rfl⟩
      exact ⟨rfl, by rw [hitOf, hit]; rfl, _, one.here, rfl⟩
  constructor
  · intro key v here
    rw [after_snoc] at here
    rw [counts_snoc]
    by_cases same : key = a.key
    · subst same
      rw [one.here] at here
      obtain rfl := Option.some.inj here
      rw [if_pos ((counted _ _).mpr ⟨rfl, rfl⟩)]
      exact congrArg (· + 1) before
    · rw [if_neg fun yes => same ((counted _ _).mp yes).1]
      exact inv.counted key v (one.old key v same here)
  · intro key resetAt some_
    rw [after_snoc]
    rw [counts_snoc] at some_
    by_cases now : key = a.key ∧ resetAt = w.resetAt
    · obtain ⟨rfl, rfl⟩ := now
      exact .inr ⟨_, one.here, rfl⟩
    · rw [if_neg fun yes => now ((counted _ _).mp yes), Nat.add_zero] at some_
      rcases inv.past key resetAt some_ with ended | ⟨v, here, rfl⟩
      · exact .inl ended
      · rcases le_or_gt v.resetAt a.at_ with ended | live
        · exact .inl ended
        · obtain ⟨v', there, same, -⟩ := @hit_keeps windowMs _ a key v here live
          exact .inr ⟨v', there, same⟩
  · intro key resetAt limit
    have bound := inv.bounded key resetAt limit
    rw [accepts_snoc, counts_snoc]
    by_cases now : key = a.key ∧ resetAt = w.resetAt
    · rw [if_pos ((counted _ _).mpr now)]
      obtain ⟨rfl, rfl⟩ := now
      split
      · next accepted =>
        unfold acceptedIn isAccepted at accepted
        rw [hitOf, hit] at accepted
        simp only [Option.any_some, Bool.and_eq_true, decide_eq_true_eq] at accepted
        omega
      · omega
    · have not_ : acceptedIn windowMs key resetAt limit ⟨after windowMs maxKeys calls, a,
          acquire windowMs (after windowMs maxKeys calls) a⟩ = false := by
        rw [acceptedIn, Bool.eq_false_iff.mpr fun yes => now ((counted _ _).mp yes)]
        rfl
      rw [if_neg fun yes => now ((counted _ _).mp yes), not_]
      exact bound

theorem inv_after (positive : 0 < windowMs) (clocked : Clocked calls) {t : ℤ}
    (now : ∀ a ∈ calls, a.at_ ≤ t) : Inv windowMs maxKeys calls t := by
  induction calls using List.reverseRecOn generalizing t with
  | nil =>
    exact ⟨fun key w here => (by cases here), fun key resetAt some_ => (by cases some_),
      fun key resetAt limit => Nat.zero_le _⟩
  | append_singleton calls a ih =>
    obtain ⟨before, -, last⟩ := pairwise_append.mp clocked
    have earlier : ∀ b ∈ calls, b.at_ ≤ a.at_ := fun b mem =>
      last b mem a (mem_singleton_self a)
    have inv := ih before earlier
    have next_ : Inv windowMs maxKeys (calls ++ [a]) a.at_ := by
      rcases hit_cases (after windowMs maxKeys calls) a.key windowMs a.at_ with
        ⟨refused, forgets⟩ | ⟨w, h, hit, number, one, of⟩
      · exact inv.refuses refused forgets
      · exact inv.counts_one positive hit number one of
    have le : a.at_ ≤ t := now a (by simp)
    exact ⟨next_.counted, fun key resetAt some_ =>
      (next_.past key resetAt some_).imp_left fun ended => ended.trans le, next_.bounded⟩

end Ultrathink.Guarantees.WindowLimits
