import Ultrathink.Library.Runs
import Ultrathink.Library.Processes

/-!
# Programs that take turns on a section

Processes are known by number and may die at any step; a number may be used again.
Each runs a program that calls a section of several steps, where it stands alone.
-/

namespace Ultrathink.Library.Mutex

open Processes

/-- How a call of the section ends: another process was inside, the call failed before
it was inside, or the section ran to its end. -/
inductive Outcome (R : Type) where
  | busy
  | failed
  | returned (result : R)
  deriving DecidableEq

/-- `S` is what the processes share, `O` where a process stands outside the section, `L`
where it stands inside, `R` what the section returns and `C` what the surroundings
choose. A step may ask which processes are alive. -/
structure Program (S O L R C : Type) where
  start : S → Prop
  first : O
  world : S → C → Option S
  outer : (Nat → Bool) → Nat → S → O → C → Option (S × O × Option L)
  inner : (Nat → Bool) → Nat → S → O → L → C → Option (S × O × (L ⊕ R))
  resume : O → Outcome R → O

inductive Place (O L R : Type) where
  | outer (o : O)
  | entering (o : O) (l : L)
  | inside (o : O) (l : L)
  | leaving (o : O) (outcome : Outcome R)
  deriving DecidableEq

variable {S O L R C : Type}

def Place.called (o : O) : Option L → Place O L R
  | none => .outer o
  | some l => .entering o l

def Place.stepped (o : O) : L ⊕ R → Place O L R
  | .inl l => .inside o l
  | .inr result => .leaving o (.returned result)

structure Taking (S O L R : Type) where
  shared : S
  places : Nat → Option (Place O L R)

def Taking.live (s : Taking S O L R) (p : Nat) : Bool := (s.places p).isSome

def Taking.put (s : Taking S O L R) (p : Nat) (place : Place O L R) : Taking S O L R :=
  { s with places := Function.update s.places p (some place) }

/-- One step of the processes that take turns. -/
inductive Program.Turn (P : Program S O L R C) (s : Taking S O L R) : Taking S O L R → Prop
  | spawn (p : Nat) (absent : s.places p = none) : P.Turn s (s.put p (.outer P.first))
  | crash (p : Nat) : P.Turn s { s with places := Function.update s.places p none }
  | world (c : C) (shared : S) (moved : P.world s.shared c = some shared) :
    P.Turn s { s with shared := shared }
  | outer (p : Nat) (o o' : O) (c : C) (shared : S) (call : Option L)
      (here : s.places p = some (.outer o))
      (moved : P.outer s.live p s.shared o c = some (shared, o', call)) :
    P.Turn s ({ s with shared := shared }.put p (.called o' call))
  | enter (p : Nat) (o : O) (l : L) (here : s.places p = some (.entering o l))
      (free : ∀ q o l, s.places q ≠ some (.inside o l)) : P.Turn s (s.put p (.inside o l))
  | refuse (p : Nat) (o : O) (l : L) (outcome : Outcome R)
      (here : s.places p = some (.entering o l)) (unrun : ∀ result, outcome ≠ .returned result) :
    P.Turn s (s.put p (.leaving o outcome))
  | inner (p : Nat) (o o' : O) (l : L) (c : C) (shared : S) (next : L ⊕ R)
      (here : s.places p = some (.inside o l))
      (moved : P.inner s.live p s.shared o l c = some (shared, o', next)) :
    P.Turn s ({ s with shared := shared }.put p (.stepped o' next))
  | leave (p : Nat) (o : O) (outcome : Outcome R)
      (here : s.places p = some (.leaving o outcome)) :
    P.Turn s (s.put p (.outer (P.resume o outcome)))

def Alone (s : Taking S O L R) : Prop :=
  ∀ p q o o' l l', s.places p = some (.inside o l) → s.places q = some (.inside o' l') → p = q

variable {s : Taking S O L R} {p q : Nat} {place : Place O L R}

theorem places_put :
    (s.put p place).places q = if q = p then some place else s.places q :=
  Function.update_apply s.places p (some place) q

theorem put_places {shared : S} {place' : Place O L R}
    (here : ({ s with shared := shared }.put p place).places q = some place') :
    (q = p ∧ place' = place) ∨ (q ≠ p ∧ s.places q = some place') :=
  update_some here

theorem put_inside {o : O} {l : L} (inside : (s.put p place).places q = some (.inside o l)) :
    (q = p ∧ place = .inside o l) ∨ s.places q = some (.inside o l) := by
  rw [places_put] at inside
  split at inside
  next same => exact Or.inl ⟨same, Option.some.inj inside⟩
  next => exact Or.inr inside

theorem turn_alone {P : Program S O L R C} {t : Taking S O L R} (turn : P.Turn s t)
    (alone : Alone s) : Alone t := by
  -- A process that was not inside, or was, and moved to a place that is not inside.
  have moved : ∀ (shared : S) (p : Nat) (place : Place O L R),
      (∀ o l, place = .inside o l → (∃ o l, s.places p = some (.inside o l)) ∨
        ∀ q o l, s.places q ≠ some (.inside o l)) →
      Alone ({ s with shared := shared }.put p place) := by
    intro shared p place entered a b o o' l l' first second
    rcases put_inside first with ⟨rfl, here⟩ | old <;>
      rcases put_inside second with ⟨rfl, there⟩ | old'
    · rfl
    · rcases entered o l here with ⟨_, _, was⟩ | free
      · exact alone _ _ _ _ _ _ was old'
      · exact absurd old' (free b o' l')
    · rcases entered o' l' there with ⟨_, _, was⟩ | free
      · exact alone _ _ _ _ _ _ old was
      · exact absurd old (free a o l)
    · exact alone _ _ _ _ _ _ old old'
  cases turn with
  | spawn p absent => exact moved s.shared p _ fun o l same => by cases same
  | crash p =>
    intro a b o o' l l' first second
    exact alone a b o o' l l' (update_none first) (update_none second)
  | world c shared step => exact alone
  | outer p o o' c shared call here step =>
    refine moved shared p _ fun _ _ same => ?_
    cases call with
    | none => cases same
    | some l => cases same
  | enter p o l here free => exact moved s.shared p _ fun _ _ _ => Or.inr free
  | refuse p o l outcome here unrun => exact moved s.shared p _ fun _ _ same => by cases same
  | inner p o o' l c shared next here step =>
    exact moved shared p _ fun _ _ _ => Or.inl ⟨o, l, here⟩
  | leave p o outcome here => exact moved s.shared p _ fun _ _ same => by cases same

end Ultrathink.Library.Mutex
