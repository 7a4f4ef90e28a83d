import Ultrathink.Library.Interaction
import Ultrathink.Library.Processes
import Ultrathink.Library.Runs

/-!
# Programs that run beside each other

Threads share a store and take turns: a step starts a thread or answers the call at
which one stands. The store says which answers a call may get and which programs may
start.
-/

namespace Ultrathink.Library.Threads

open List Interaction Runs

variable {C : Type} {R : C → Type} {α σ ι : Type}

/-- `Along p t q`: answered as in `t`, the program `p` has come to `q`. -/
inductive Along : Prog C R α → History C R → Prog C R α → Prop
  | here (p : Prog C R α) : Along p [] p
  | ask {c : C} {next : R c → Prog C R α} {r : R c} {t : History C R} {q : Prog C R α}
      (rest : Along (next r) t q) : Along (.ask c next) (⟨c, r⟩ :: t) q

variable {t : History C R} {p : Prog C R α} {name : ι}

theorem Along.snoc {c : C} {next : R c → Prog C R α} (along : Along p t (.ask c next)) (r : R c) :
    Along p (t ++ [⟨c, r⟩]) (next r) := by
  generalize stands : Prog.ask c next = q at along
  induction along with
  | here p =>
    subst stands
    exact .ask (.here _)
  | ask rest ih => exact .ask (ih stands)

theorem Along.wp {β : Type} {observe : β → Event C R → β} {permitted : β → C → Prop}
    {q : Prog C R α} {Q : β → α → Prop} (along : Along p t q) {seen : β}
    (held : wp observe permitted p seen Q) :
    wp observe permitted q (t.foldl observe seen) Q := by
  induction along generalizing seen with
  | here p => exact held
  | ask rest ih => exact ih (held.2 _)

theorem Along.emits {q : Prog C R α} (along : Along p t q) :
    Emits p t none := by
  induction along with
  | here p => exact .stopped p
  | ask rest ih => exact .ask ih

structure Host (C : Type) (R : C → Type) (α σ ι : Type) where
  answers : σ → (c : C) → R c → σ → Prop
  starts : σ → ι → Prog C R α → Prop

structure Thread (C : Type) (R : C → Type) (α : Type) where
  program : Prog C R α
  history : History C R
  rest : Prog C R α

structure Config (C : Type) (R : C → Type) (α σ ι : Type) where
  store : σ
  threads : ι → Option (Thread C R α)

variable [DecidableEq ι]

inductive Host.Step (host : Host C R α σ ι) :
    Config C R α σ ι → ι → Config C R α σ ι → Prop
  | start {c : Config C R α σ ι} {name : ι} {p : Prog C R α} (free : c.threads name = none)
      (may : host.starts c.store name p) :
      host.Step c name { c with threads := Function.update c.threads name (some ⟨p, [], p⟩) }
  | move {c : Config C R α σ ι} {name : ι} {p : Prog C R α} {t : History C R} {call : C}
      {next : R call → Prog C R α} {r : R call} {s : σ}
      (here : c.threads name = some ⟨p, t, .ask call next⟩)
      (answered : host.answers c.store call r s) :
      host.Step c name
        ⟨s, Function.update c.threads name (some ⟨p, t ++ [⟨call, r⟩], next r⟩)⟩

def Host.system (host : Host C R α σ ι) (initial : σ) : System (Config C R α σ ι) ι where
  start c := c = ⟨initial, fun _ => none⟩
  step := host.Step

variable {host : Host C R α σ ι} {initial : σ} {c : Config C R α σ ι}

/-- Each thread stands where its history leads in a program it may have started with. -/
def Placed (host : Host C R α σ ι) (c : Config C R α σ ι) : Prop :=
  ∀ name thread, c.threads name = some thread →
    Along thread.program thread.history thread.rest ∧ ∃ s, host.starts s name thread.program

theorem Placed.step {c c' : Config C R α σ ι} {i : ι} (placed : Placed host c)
    (step : host.Step c i c') : Placed host c' := by
  intro name thread here
  cases step with
  | start free may =>
    rcases Processes.update_some here with ⟨rfl, rfl⟩ | ⟨-, was⟩
    · exact ⟨.here _, _, may⟩
    · exact placed name thread was
  | move there answered =>
    rcases Processes.update_some here with ⟨rfl, rfl⟩ | ⟨-, was⟩
    · obtain ⟨along, started⟩ := placed _ _ there
      exact ⟨along.snoc _, started⟩
    · exact placed name thread was

theorem Host.Step.history {d : Config C R α σ ι} {i : ι} (step : host.Step c i d)
    {thread : Thread C R α} (here : c.threads name = some thread) :
    ∃ thread', d.threads name = some thread' ∧ thread'.program = thread.program ∧
      thread.history ⊆ thread'.history := by
  cases step with
  | start free may =>
    have other : name ≠ i := by
      rintro rfl
      rw [free] at here
      cases here
    exact ⟨thread, (Function.update_of_ne other ..).trans here, rfl, List.Subset.refl _⟩
  | move there answered =>
    by_cases same : name = i
    · subst same
      rw [there] at here
      cases here
      exact ⟨_, Function.update_self .., rfl, subset_append_left _ _⟩
    · exact ⟨thread, (Function.update_of_ne same ..).trans here, rfl, List.Subset.refl _⟩

def Thread.handed {κ : Type} (marks : Event C R → List κ) (thread : Thread C R α) : List κ :=
  thread.history.flatMap marks

namespace HandsOut
variable {κ : Type} {marks : Event C R → List κ} {recorded : σ → κ → Prop}

end HandsOut

end Ultrathink.Library.Threads
