import Ultrathink.Source.Mcp.Relay

/-!
# The relay's threads go on

A handler waits for a re-initialize only after it saw it running, and a re-initialize
waits for nobody; so no handler is stuck.
-/

namespace Ultrathink.Mcp.Relay

open List Library JsText Interaction Threads

/-- The re-initialize that runs was launched. -/
def Sound (s : Shared) : Prop := ∀ task, s.reinitializing = some task → task < s.launched.length

/-- What the session never loses. -/
structure Grown (s s' : Shared) : Prop where
  launched : s.launched.length ≤ s'.launched.length
  settled : ∀ task, s.settled task ≠ none → s'.settled task ≠ none

def Orderly (f : Shared → Shared) : Prop := ∀ s, Sound s → Sound (f s) ∧ Grown s (f s)

/-- The states of the session as a thread's updates left them. -/
def sees (seen : List Shared) : Event Call Answer → List Shared
  | ⟨.update f, before⟩ => f before :: seen
  | _ => seen

/-- Updates are orderly, and a thread waits only for what it saw running. -/
def mayAsk (seen : List Shared) : Call → Prop
  | .update f => Orderly f
  | .reinitialized task => ∃ s ∈ seen, s.reinitializing = some task
  | _ => True

/-- The program waits for no re-initialize. -/
inductive Calm {α : Type} : M α → Prop
  | done (a : α) : Calm (.done a)
  | ask {c : Call} {next : Answer c → M α} (own : mayAsk [] c) (rest : ∀ r, Calm (next r)) :
      Calm (.ask c next)

variable {α β : Type} {p : M α} {c : Config Call Answer Unit Shared Name}

theorem Calm.bind {f : α → M β} (first : Calm p) (later : ∀ a, Calm (f a)) : Calm (p >>= f) := by
  induction first with
  | done a => exact later a
  | ask own rest ih => exact .ask own ih

theorem Calm.wp {seen : List Shared} {Q : List Shared → α → Prop} (calm : Calm p)
    (all : ∀ seen a, Q seen a) :
    Interaction.wp sees mayAsk p seen Q := by
  induction calm generalizing seen with
  | done a => exact all seen a
  | @ask c next own rest ih =>
    refine ⟨?_, fun r => ih r⟩
    cases c with
    | reinitialized task =>
      obtain ⟨s, mem, -⟩ := own
      cases mem
    | _ => exact own

section Calm
variable {h : Host} {o : Options}

end Calm

section Waiting
variable {h : Host} {o : Options} {seen : List Shared}

/-- However it goes on, the program waits only for what it saw running. -/
abbrev Waits {α : Type} (p : M α) (seen : List Shared) : Prop :=
  wp sees mayAsk p seen fun _ _ => True

theorem Calm.waits {α : Type} {p : M α} (calm : Calm p) : Waits p seen := calm.wp fun _ _ => trivial

def isArray : Value → Bool
  | .arr _ => true
  | _ => false

end Waiting

theorem Calm.along {p q : M Unit} {t : History Call Answer} (along : Along p t q)
    (calm : Calm p) : Calm q := by
  induction along with
  | here p => exact calm
  | ask rest ih =>
    cases calm with
    | ask own later => exact ih (later _)

section Progress
variable {h : Host} {o : Options}

theorem Grown.trans {s t u : Shared} (first : Grown s t) (second : Grown t u) : Grown s u :=
  ⟨Nat.le_trans first.launched second.launched,
    fun task held => second.settled task (first.settled task held)⟩

theorem Grown.refl (s : Shared) : Grown s s := ⟨Nat.le_refl _, fun _ held => held⟩

end Progress

end Ultrathink.Mcp.Relay
