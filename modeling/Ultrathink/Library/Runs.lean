import Mathlib.Data.List.Basic

/-!
# Labelled transition systems and their finite runs

A system is a set of start states and a labelled step relation. A run keeps
every step it took (state before, label, state after), so that a condition on
the steps of one run can be stated beside an invariant of its states.
-/

namespace Ultrathink.Library.Runs

open List

structure System (σ ι : Type) where
  start : σ → Prop
  step : σ → ι → σ → Prop

structure Step (σ ι : Type) where
  before : σ
  label : ι
  after : σ

variable {σ ι : Type}

/-- `M.Run s steps t`: the steps lead from `s` to `t`, oldest first. -/
inductive System.Run (M : System σ ι) : σ → List (Step σ ι) → σ → Prop
  | refl (s : σ) : M.Run s [] s
  | tail {s m t : σ} {steps : List (Step σ ι)} {i : ι} (head : M.Run s steps m)
      (last : M.step m i t) : M.Run s (steps ++ [⟨m, i, t⟩]) t

def System.Reachable (M : System σ ι) (t : σ) : Prop :=
  ∃ s steps, M.start s ∧ M.Run s steps t

variable {M : System σ ι} {t s : σ} {steps : List (Step σ ι)} {step : σ → ι → σ}

theorem System.Run.mem_step (run : M.Run s steps t) :
    ∀ x ∈ steps, M.step x.before x.label x.after := by
  induction run with
  | refl => simp
  | tail head last ih =>
    intro x hx
    rcases mem_append.mp hx with old | new
    · exact ih x old
    · rw [mem_singleton.mp new]
      exact last

theorem System.Run.invariant_of (run : M.Run s steps t) (P : σ → Prop) (C : Step σ ι → Prop)
    (start : P s) (kept : ∀ m i n, M.step m i n → C ⟨m, i, n⟩ → P m → P n)
    (met : ∀ x ∈ steps, C x) : P t := by
  induction run with
  | refl => exact start
  | tail head last ih =>
    have before := ih (fun x hx => met x (mem_append_left _ hx))
    exact kept _ _ _ last (met _ (by simp)) before

theorem System.Run.invariant (run : M.Run s steps t) (P : σ → Prop) (start : P s)
    (kept : ∀ m i n, M.step m i n → P m → P n) : P t :=
  run.invariant_of P (fun _ => True) start (fun m i n h _ => kept m i n h) (fun _ _ => trivial)

theorem System.Run.steps_of (run : M.Run s steps t) (P : σ → Prop) (C Q : Step σ ι → Prop)
    (start : P s) (kept : ∀ m i n, M.step m i n → C ⟨m, i, n⟩ → P m → P n)
    (each : ∀ m i n, M.step m i n → C ⟨m, i, n⟩ → P m → Q ⟨m, i, n⟩) (met : ∀ x ∈ steps, C x) :
    ∀ x ∈ steps, Q x := by
  induction run with
  | refl => simp
  | tail head last ih =>
    intro x hx
    have older : ∀ y ∈ _, C y := fun y hy => met y (mem_append_left _ hy)
    rcases mem_append.mp hx with old | new
    · exact ih older x old
    · rw [mem_singleton.mp new]
      exact each _ _ _ last (met _ (by simp)) (head.invariant_of P C start kept older)

/-- When each step that meets `Q` adds one to a quantity no step lowers, the run
has no more such steps than the quantity grew by. -/
theorem System.Run.countP_le (run : M.Run s steps t) (quantity : σ → Nat) (Q : Step σ ι → Bool)
    (each : ∀ m i n, M.step m i n →
      quantity m + (if Q ⟨m, i, n⟩ then 1 else 0) ≤ quantity n) :
    quantity s + steps.countP Q ≤ quantity t := by
  induction run with
  | refl => simp
  | tail head last ih =>
    have grown := each _ _ _ last
    rw [countP_append, countP_singleton]
    omega

theorem System.Run.length_le (run : M.Run s steps t) (quantity : σ → Nat)
    (each : ∀ m i n, M.step m i n → quantity n < quantity m) :
    steps.length + quantity t ≤ quantity s := by
  induction run with
  | refl => simp
  | tail head last ih =>
    have lower := each _ _ _ last
    rw [length_append, length_singleton]
    omega

/-- What holds after one step of the run, and is kept by every step, holds at the end. -/
theorem System.Run.kept_since (run : M.Run s steps t) (P : σ → Prop)
    (kept : ∀ m i n, M.step m i n → P m → P n) {x : Step σ ι} (mem : x ∈ steps)
    (after : P x.after) : P t := by
  induction run with
  | refl => cases mem
  | tail head last ih =>
    rcases mem_append.mp mem with old | new
    · exact kept _ _ _ last (ih old)
    · rw [mem_singleton.mp new] at after
      exact after

theorem System.Run.fold_invariant {β : Type} (run : M.Run s steps t) (note : β → Step σ ι → β)
    (empty : β) (P : σ → β → Prop) (C : Step σ ι → Prop) (start : P s empty)
    (kept : ∀ m b i n, M.step m i n → C ⟨m, i, n⟩ → P m b → P n (note b ⟨m, i, n⟩))
    (met : ∀ x ∈ steps, C x) : P t (steps.foldl note empty) := by
  induction run with
  | refl => exact start
  | tail head last ih =>
    have before := ih (fun x hx => met x (mem_append_left _ hx))
    rw [foldl_append]
    exact kept _ _ _ _ last (met _ (by simp)) before

theorem System.Reachable.snoc {m : σ} {i : ι} (reached : M.Reachable m) (last : M.step m i t) :
    M.Reachable t := by
  obtain ⟨s, steps, first, run⟩ := reached
  exact ⟨s, _, first, run.tail last⟩

theorem System.Reachable.invariant (reached : M.Reachable t) (P : σ → Prop)
    (start : ∀ s, M.start s → P s) (kept : ∀ m i n, M.step m i n → P m → P n) : P t := by
  obtain ⟨s, steps, first, run⟩ := reached
  exact run.invariant P (start s first) kept

/-- The state after the inputs, oldest first. -/
def runInputs (step : σ → ι → σ) (s : σ) (inputs : List ι) : σ := inputs.foldl step s

@[simp] theorem runInputs_nil (step : σ → ι → σ) (s : σ) : runInputs step s [] = s := rfl

@[simp] theorem runInputs_cons (step : σ → ι → σ) (s : σ) (i : ι) (rest : List ι) :
    runInputs step s (i :: rest) = runInputs step (step s i) rest := rfl

theorem runInputs_append (step : σ → ι → σ) (s : σ) (first second : List ι) :
    runInputs step s (first ++ second) = runInputs step (runInputs step s first) second :=
  foldl_append

theorem runInputs_invariant (step : σ → ι → σ) (P : σ → Prop) (kept : ∀ s i, P s → P (step s i))
    (s : σ) (start : P s) (inputs : List ι) : P (runInputs step s inputs) := by
  induction inputs generalizing s with
  | nil => exact start
  | cons i rest ih => exact ih (step s i) (kept s i start)

theorem System.Run.cons {M : System σ ι} {s m t : σ} {steps : List (Step σ ι)} {i : ι}
    (first : M.step s i m) (run : M.Run m steps t) : M.Run s (⟨s, i, m⟩ :: steps) t := by
  induction run with
  | refl => exact .tail (.refl s) first
  | tail head last ih => exact .tail ih last

/-- The steps that a machine takes on its inputs. -/
def traceOf (step : σ → ι → σ) (s : σ) : List ι → List (Step σ ι)
  | [] => []
  | i :: rest => ⟨s, i, step s i⟩ :: traceOf step (step s i) rest

theorem run_traceOf_of_mem (s : σ) (inputs : List ι)
    (each : ∀ x ∈ traceOf step s inputs, M.step x.before x.label x.after) :
    M.Run s (traceOf step s inputs) (runInputs step s inputs) := by
  induction inputs generalizing s with
  | nil => exact .refl s
  | cons i rest ih =>
    simp only [traceOf, forall_mem_cons] at each
    exact .cons each.1 (ih (step s i) each.2)

theorem traceOf_append (step : σ → ι → σ) (s : σ) (first second : List ι) :
    traceOf step s (first ++ second) =
      traceOf step s first ++ traceOf step (runInputs step s first) second := by
  induction first generalizing s with
  | nil => rfl
  | cons i rest ih => rw [cons_append, traceOf, ih, traceOf, cons_append, runInputs_cons]

theorem mem_traceOf {inputs : List ι} {x : Step σ ι} (mem : x ∈ traceOf step s inputs) :
    x.after = step x.before x.label := by
  induction inputs generalizing s with
  | nil => cases mem
  | cons i rest ih =>
    rcases mem_cons.mp mem with rfl | later
    · rfl
    · exact ih later

theorem run_traceOf (machine : ∀ s i, M.step s i (step s i)) (s : σ) (inputs : List ι) :
    M.Run s (traceOf step s inputs) (runInputs step s inputs) := by
  refine run_traceOf_of_mem s inputs fun x mem => ?_
  rw [mem_traceOf mem]
  exact machine x.before x.label

/-- A system whose steps are given by a function that may refuse one. -/
def System.ofStep (start : σ → Prop) (step : σ → ι → Option σ) : System σ ι :=
  ⟨start, fun s i t => step s i = some t⟩

/-- The machine that stands still on an input it refuses. -/
def stepped (step : σ → ι → Option σ) (s : σ) (i : ι) : σ := (step s i).getD s

theorem run_stepped {start : σ → Prop} {step : σ → ι → Option σ} (s : σ) (inputs : List ι)
    (taken : ∀ x ∈ traceOf (stepped step) s inputs, (step x.before x.label).isSome) :
    (System.ofStep start step).Run s (traceOf (stepped step) s inputs)
      (runInputs (stepped step) s inputs) := by
  refine run_traceOf_of_mem s inputs fun x mem => ?_
  obtain ⟨t, value⟩ := Option.isSome_iff_exists.mp (taken x mem)
  have after := mem_traceOf mem
  rw [stepped, value, Option.getD_some] at after
  rw [after]
  exact value

theorem System.Run.of_foldlM {step : σ → ι → Option σ}
    (machine : ∀ s i t, step s i = some t → M.step s i t) {inputs : List ι}
    (taken : inputs.foldlM step s = some t) : ∃ steps, M.Run s steps t := by
  induction inputs generalizing s with
  | nil =>
    cases taken
    exact ⟨[], .refl _⟩
  | cons i rest ih =>
    rw [foldlM_cons] at taken
    obtain ⟨m, first, later⟩ := Option.bind_eq_some_iff.mp taken
    obtain ⟨steps, run⟩ := ih later
    exact ⟨_, .cons (machine s i m first) run⟩

end Ultrathink.Library.Runs
