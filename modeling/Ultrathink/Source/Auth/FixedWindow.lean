import Ultrathink.Library.JsText
import Ultrathink.Library.OrderedMap

/-!
# Fixed-window limiter

`FixedWindowLimiter` of `auth/auth.ts`: a count and an end for each key. Each
operation reads the clock once; the reading is an argument here.
-/

namespace Ultrathink.Source.Auth

open Library JsText

def maxTrackedKeys : Nat := 10000
def pruneIntervalMs : ℤ := 60 * 1000

structure Window where
  count : Nat
  resetAt : ℤ
  deriving DecidableEq

structure Hit where
  count : Nat
  retryAfterSec : ℤ
  deriving DecidableEq

structure FixedWindowLimiter where
  windows : OrderedMap Text Window
  maxKeys : Nat
  nextPruneAt : ℤ

/-- `Math.ceil(ms / 1000)`. -/
def ceilSeconds (ms : ℤ) : ℤ := -(-ms / 1000)

variable {t : ℤ} {l m : FixedWindowLimiter} {key : Text} {w : Window}

namespace FixedWindowLimiter

def new (maxKeys : Nat) : FixedWindowLimiter := ⟨OrderedMap.empty, maxKeys, 0⟩

def prune (l : FixedWindowLimiter) (t : ℤ) : FixedWindowLimiter :=
  { l with windows := l.windows.filter (fun _ w => t < w.resetAt) }

def pruneIfDue (l : FixedWindowLimiter) (t : ℤ) : FixedWindowLimiter :=
  if t < l.nextPruneAt then l else { l.prune t with nextPruneAt := t + pruneIntervalMs }

/-- The window of `key` that has not ended; an ended one is deleted. -/
def live (l : FixedWindowLimiter) (key : Text) (t : ℤ) : FixedWindowLimiter × Option Window :=
  match l.windows.get? key with
  | some w =>
    if t < w.resetAt then (l, some w) else ({ l with windows := l.windows.erase key }, none)
  | none => (l, none)

/-- Counts one in a window that has not ended. -/
def count (l : FixedWindowLimiter) (key : Text) (w : Window) (t : ℤ) :
    FixedWindowLimiter × Option Hit :=
  ({ l with windows := l.windows.set key { w with count := w.count + 1 } },
    some ⟨w.count + 1, max 1 (ceilSeconds (w.resetAt - t))⟩)

/-- A full table is pruned once before a new key is refused. -/
def makeRoom (l : FixedWindowLimiter) (t : ℤ) : FixedWindowLimiter :=
  if l.maxKeys ≤ l.windows.size then l.prune t else l

def hit (l : FixedWindowLimiter) (key : Text) (windowMs t : ℤ) :
    FixedWindowLimiter × Option Hit :=
  match (l.pruneIfDue t).live key t with
  | (l, some w) => l.count key w t
  | (l, none) =>
    let l := l.makeRoom t
    if l.maxKeys ≤ l.windows.size then (l, none) else l.count key ⟨0, t + windowMs⟩ t

def release (l : FixedWindowLimiter) (key : Text) (t : ℤ) : FixedWindowLimiter :=
  match l.live key t with
  | (l, some w) =>
    if 0 < w.count then { l with windows := l.windows.set key { w with count := w.count - 1 } }
    else l
  | (l, none) => l

/-- The window of `key` that has not ended at `t`. -/
def current (l : FixedWindowLimiter) (key : Text) (t : ℤ) : Option Window :=
  (l.windows.get? key).filter (fun w => t < w.resetAt)

theorem current_eq_some :
    l.current key t = some w ↔ l.windows.get? key = some w ∧ t < w.resetAt := by
  rw [current, Option.filter_eq_some_iff, decide_eq_true_eq]

/-- At `t` the table lost only ended windows. -/
structure Forgets (l l' : FixedWindowLimiter) (t : ℤ) : Prop where
  kept : ∀ key w, l.windows.get? key = some w → t < w.resetAt → l'.windows.get? key = some w
  old : ∀ key w, l'.windows.get? key = some w → l.windows.get? key = some w

theorem forgets_refl (l : FixedWindowLimiter) (t : ℤ) : Forgets l l t :=
  ⟨fun _ _ h _ => h, fun _ _ h => h⟩

theorem Forgets.trans {n : FixedWindowLimiter} (first : Forgets l m t) (second : Forgets m n t) :
    Forgets l n t :=
  ⟨fun key w here live => second.kept key w (first.kept key w here live) live,
    fun key w here => first.old key w (second.old key w here)⟩

theorem prune_forgets (l : FixedWindowLimiter) (t : ℤ) : Forgets l (l.prune t) t := by
  constructor
  · intro key w here live
    rw [prune, OrderedMap.get?_filter, here]
    simp [live]
  · intro key w here
    rw [prune, OrderedMap.get?_filter, Option.filter_eq_some_iff] at here
    exact here.1

theorem pruneIfDue_forgets (l : FixedWindowLimiter) (t : ℤ) : Forgets l (l.pruneIfDue t) t := by
  rw [pruneIfDue]
  split
  · exact forgets_refl l t
  · exact ⟨(prune_forgets l t).kept, (prune_forgets l t).old⟩

theorem live_forgets (l : FixedWindowLimiter) (key : Text) (t : ℤ) :
    Forgets l (l.live key t).1 t := by
  rw [live]
  split
  next w here =>
    split
    · exact forgets_refl l t
    next ended =>
      constructor
      · intro k v found live
        rw [OrderedMap.get?_erase]
        split
        next same =>
          rw [same, here] at found
          rw [Option.some.inj found] at ended
          exact absurd live ended
        · exact found
      · intro k v found
        rw [OrderedMap.get?_erase] at found
        split at found
        · cases found
        · exact found
  next => exact forgets_refl l t

theorem live_snd (l : FixedWindowLimiter) (key : Text) (t : ℤ) :
    (l.live key t).2 = l.current key t := by
  rw [live, current]
  cases l.windows.get? key with
  | none => rfl
  | some w =>
    dsimp only
    split
    next running => rw [Option.filter_some, if_pos (decide_eq_true running)]
    next ended => rw [Option.filter_some, if_neg (by simpa using ended)]

theorem live_absent (ended : l.current key t = none) :
    (l.live key t).1.windows.get? key = none := by
  rw [live]
  split
  next w here =>
    have past : ¬ t < w.resetAt := fun running =>
      absurd (current_eq_some.mpr ⟨here, running⟩) (by simp [ended])
    rw [if_neg past, OrderedMap.get?_erase, if_pos rfl]
  next absent => exact absent

theorem makeRoom_forgets (l : FixedWindowLimiter) (t : ℤ) : Forgets l (l.makeRoom t) t := by
  rw [makeRoom]
  split
  · exact prune_forgets l t
  · exact forgets_refl l t

theorem Forgets.current {l' : FixedWindowLimiter} (forgets : Forgets l l' t) (key : Text) :
    l'.current key t = l.current key t := by
  apply Option.ext
  intro w
  rw [current_eq_some, current_eq_some]
  constructor
  · intro found
    exact ⟨forgets.old key w found.1, found.2⟩
  · intro found
    exact ⟨forgets.kept key w found.1 found.2, found.2⟩

/-- One more in the window `w` of `key`, which has not ended; other keys lost only
ended windows. -/
structure Counted (l l' : FixedWindowLimiter) (key : Text) (w : Window) (t : ℤ) : Prop where
  here : l'.windows.get? key = some { w with count := w.count + 1 }
  kept : ∀ k v, k ≠ key → l.windows.get? k = some v → t < v.resetAt → l'.windows.get? k = some v
  old : ∀ k v, k ≠ key → l'.windows.get? k = some v → l.windows.get? k = some v

theorem count_counted (forgets : Forgets l m t) : Counted l (m.count key w t).1 key w t := by
  constructor
  · simp [count]
  · intro k v other found live
    rw [count, OrderedMap.get?_set_of_ne _ _ other]
    exact forgets.kept k v found live
  · intro k v other found
    rw [count, OrderedMap.get?_set_of_ne _ _ other] at found
    exact forgets.old k v found

/-- A hit is counted in the running window of the key or in a new one, or refused
with nothing counted. -/
theorem hit_cases (l : FixedWindowLimiter) (key : Text) (windowMs t : ℤ) :
    ((l.hit key windowMs t).2 = none ∧ Forgets l (l.hit key windowMs t).1 t) ∨
      ∃ w h, (l.hit key windowMs t).2 = some h ∧ h.count = w.count + 1 ∧
        Counted l (l.hit key windowMs t).1 key w t ∧
        (l.current key t = some w ∨ l.current key t = none ∧ w = ⟨0, t + windowMs⟩) := by
  have pruned := pruneIfDue_forgets l t
  have looked := pruned.trans (live_forgets (l.pruneIfDue t) key t)
  have same : ((l.pruneIfDue t).live key t).2 = l.current key t := by
    rw [live_snd, pruned.current]
  rw [hit]
  generalize (l.pruneIfDue t).live key t = found at looked same
  obtain ⟨m, window⟩ := found
  cases window with
  | some w =>
    right
    exact ⟨w, _, rfl, rfl, count_counted looked, .inl same.symm⟩
  | none =>
    have room := looked.trans (makeRoom_forgets m t)
    dsimp only
    split
    · exact .inl ⟨rfl, room⟩
    · right
      exact ⟨⟨0, t + windowMs⟩, _, rfl, rfl, count_counted room, .inr ⟨same.symm, rfl⟩⟩

theorem release_cases (l : FixedWindowLimiter) (key : Text) (t : ℤ) :
    (l.current key t = none ∧ (l.release key t).windows.get? key = none ∧
        Forgets l (l.release key t) t) ∨
      ∃ w, l.current key t = some w ∧
        (l.release key t).windows.get? key = some { w with count := w.count - 1 } ∧
        ∀ k, k ≠ key → (l.release key t).windows.get? k = l.windows.get? k := by
  have forgets := live_forgets l key t
  have same := live_snd l key t
  cases here : l.current key t with
  | none =>
    left
    have absent := live_absent here
    rw [here] at same
    rw [release]
    generalize l.live key t = found at forgets same absent
    obtain ⟨m, window⟩ := found
    obtain rfl : window = none := same
    exact ⟨rfl, absent, forgets⟩
  | some w =>
    right
    have running := current_eq_some.mp here
    have found : l.live key t = (l, some w) := by
      rw [live, running.1]
      simp [running.2]
    refine ⟨w, rfl, ?_⟩
    rw [release, found]
    dsimp only
    split
    · exact ⟨OrderedMap.get?_set_self _ _ _, fun k other => OrderedMap.get?_set_of_ne _ _ other⟩
    next empty =>
      refine ⟨?_, fun k _ => rfl⟩
      have zero : w.count - 1 = w.count := by omega
      rw [running.1, zero]

end FixedWindowLimiter

end Ultrathink.Source.Auth
