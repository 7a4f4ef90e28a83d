import Mathlib.Data.List.Basic

/-!
# Programs that ask their environment

A program is a tree of calls: at each call the environment answers anything of
the call's reply type and the program goes on with the answer. `Emits` lists the
call and answer sequences a program can show, stopped at any call as by a crash
or an exception.
-/

namespace Ultrathink.Library.Interaction

inductive Prog (C : Type) (R : C → Type) (α : Type) : Type
  | done (a : α)
  | ask (c : C) (next : R c → Prog C R α)

abbrev Event (C : Type) (R : C → Type) := Σ c : C, R c

abbrev History (C : Type) (R : C → Type) := List (Event C R)

variable {C : Type} {R : C → Type} {α β : Type}

namespace Prog

def bind : Prog C R α → (α → Prog C R β) → Prog C R β
  | done a, f => f a
  | ask c next, f => ask c (fun r => (next r).bind f)

instance : Monad (Prog C R) where
  pure := done
  bind := bind

@[simp] theorem pure_eq (a : α) : (pure a : Prog C R α) = done a := rfl

@[simp] theorem done_bind (a : α) (f : α → Prog C R β) : (done a >>= f) = f a := rfl

@[simp] theorem ask_bind (c : C) (next : R c → Prog C R α) (f : α → Prog C R β) :
    (ask c next >>= f) = ask c (fun r => next r >>= f) := rfl

theorem bind_done (p : Prog C R α) : p >>= done = p := by
  induction p with
  | done a => rfl
  | ask c next ih => exact congrArg (ask c) (funext ih)

theorem bind_assoc {γ : Type} (p : Prog C R α) (f : α → Prog C R β) (g : β → Prog C R γ) :
    (p >>= f) >>= g = p >>= fun a => f a >>= g := by
  induction p with
  | done a => rfl
  | ask c next ih => exact congrArg (ask c) (funext ih)

/-- A single call, answered to the caller. -/
def call (c : C) : Prog C R (R c) := ask c done

end Prog

/-- A trace of the program: `some a` when it finished with `a`, `none` when it
was stopped. -/
inductive Emits : Prog C R α → History C R → Option α → Prop
  | stopped (p : Prog C R α) : Emits p [] none
  | done (a : α) : Emits (.done a) [] (some a)
  | ask {c : C} {next : R c → Prog C R α} {r : R c} {t : History C R} {o : Option α}
      (rest : Emits (next r) t o) : Emits (.ask c next) (⟨c, r⟩ :: t) o

/-! ## Permitted calls

A monitor reads the events one by one; what it has seen decides which calls are
permitted next. -/

/-- From what was `seen`, every call the program makes is permitted where it is
made, and a result meets `Q` with what was seen then. -/
def wp {σ : Type} (observe : σ → Event C R → σ) (permitted : σ → C → Prop) (p : Prog C R α)
    (seen : σ) (Q : σ → α → Prop) : Prop :=
  match p with
  | .done a => Q seen a
  | .ask c next =>
    permitted seen c ∧ ∀ r, wp observe permitted (next r) (observe seen ⟨c, r⟩) Q

variable {p : Prog C R α} {t : History C R} {o : Option α} {Q : α → Prop} {n : Nat}
  {f : α → Prog C R β}

section Rules
variable {σ : Type} {observe : σ → Event C R → σ} {permitted : σ → C → Prop} {seen : σ}

@[simp] theorem wp_ask (c : C) (next : R c → Prog C R α) (Q : σ → α → Prop) :
    wp observe permitted (.ask c next) seen Q ↔
      permitted seen c ∧ ∀ r, wp observe permitted (next r) (observe seen ⟨c, r⟩) Q := Iff.rfl

theorem wp_mono {Q Q' : σ → α → Prop} (weaker : ∀ s a, Q s a → Q' s a)
    (held : wp observe permitted p seen Q) : wp observe permitted p seen Q' := by
  induction p generalizing seen with
  | done a => exact weaker seen a held
  | ask c next ih => exact ⟨held.1, fun r => ih r (held.2 r)⟩

@[simp] theorem wp_bind (p : Prog C R α) (f : α → Prog C R β) (Q : σ → β → Prop) :
    wp observe permitted (p >>= f) seen Q ↔
      wp observe permitted p seen (fun s a => wp observe permitted (f a) s Q) := by
  induction p generalizing seen with
  | done a => rfl
  | ask c next ih =>
    rw [Prog.ask_bind, wp_ask, wp_ask]
    exact and_congr_right fun _ => forall_congr' fun r => ih r

@[simp] theorem wp_map (p : Prog C R α) (f : α → β) (Q : σ → β → Prop) :
    wp observe permitted (f <$> p) seen Q ↔
      wp observe permitted p seen (fun s a => Q s (f a)) :=
  wp_bind p (fun a => .done (f a)) Q

theorem wp_sound {Q : σ → α → Prop} (emits : Emits p t o) (held : wp observe permitted p seen Q) :
    ∀ before e after, t = before ++ e :: after → permitted (before.foldl observe seen) e.1 := by
  induction emits generalizing seen with
  | stopped p => simp
  | done a => simp
  | ask rest ih =>
    intro before e after split
    cases before with
    | nil =>
      obtain ⟨rfl, -⟩ := List.cons.inj split
      exact held.1
    | cons first before =>
      obtain ⟨rfl, tail⟩ := List.cons.inj split
      exact ih (held.2 _) before e after tail

end Rules

/-! ## Calls and results alone

Where a permission does not depend on what was seen. -/

section Ends
variable {permitted : C → Prop}

/-- Every call is permitted, and every result meets `Q`. -/
def Ends (permitted : C → Prop) (p : Prog C R α) (Q : α → Prop) : Prop :=
  wp (fun (seen : Unit) _ => seen) (fun _ c => permitted c) p () fun _ a => Q a

theorem ends_call {c : C} {Q : R c → Prop} (may : permitted c) (met : ∀ r, Q r) :
    Ends permitted (Prog.call c) Q := ⟨may, met⟩

theorem ends_bind {Q : β → Prop} (first : Ends permitted p fun a => Ends permitted (f a) Q) :
    Ends permitted (p >>= f) Q :=
  (wp_bind _ _ _).mpr first

theorem Ends.mono {Q' : α → Prop} (ends : Ends permitted p Q) (weaker : ∀ a, Q a → Q' a) :
    Ends permitted p Q' := wp_mono (fun _ a => weaker a) ends

theorem Ends.calls (ends : Ends permitted p Q) (emits : Emits p t o) : ∀ e ∈ t, permitted e.1 := by
  intro e mem
  obtain ⟨before, after, split⟩ := List.append_of_mem mem
  exact wp_sound emits ends before e after split

theorem Ends.result (ends : Ends permitted p Q) {a : α} (emits : Emits p t (some a)) : Q a := by
  induction p generalizing t with
  | done b =>
    cases emits
    exact ends
  | ask c next ih =>
    cases emits with
    | ask rest => exact ih _ (ends.2 _) rest

end Ends

section Keeping
variable {σ τ : Type} (observe : σ → Event C R → σ) (permitted : σ → C → Prop) (view : σ → τ)

/-- Permitted wherever it runs, and the view is the same at the end. -/
def Keeps (p : Prog C R α) : Prop :=
  ∀ seen, wp observe permitted p seen fun seen' _ => view seen' = view seen

variable {observe permitted view}

theorem Keeps.done (a : α) : Keeps observe permitted view (.done a) := fun _ => rfl

theorem Keeps.bind {next : α → Prog C R β} (first : Keeps observe permitted view p)
    (later : ∀ a, Keeps observe permitted view (next a)) :
    Keeps observe permitted view (p >>= next) := by
  intro seen
  rw [wp_bind]
  apply wp_mono _ (first seen)
  intro seen' a same
  apply wp_mono _ (later a seen')
  exact fun _ _ same' => same'.trans same

theorem Keeps.call {c : C} (ok : ∀ seen, permitted seen c)
    (blind : ∀ seen r, view (observe seen ⟨c, r⟩) = view seen) :
    Keeps observe permitted view (Prog.call c) := fun seen => ⟨ok seen, fun r => blind seen r⟩

theorem Keeps.ite {P : Prop} [Decidable P] {first second : Prog C R α}
    (yes : Keeps observe permitted view first) (no : Keeps observe permitted view second) :
    Keeps observe permitted view (if P then first else second) := by
  split
  · exact yes
  · exact no

theorem Keeps.through {υ : Type} (keeps : Keeps observe permitted view p) (part : τ → υ) :
    Keeps observe permitted (fun seen => part (view seen)) p :=
  fun seen => wp_mono (fun _ _ same => congrArg part same) (keeps seen)

end Keeping

/-- An invariant of what a history is folded to, when every event is good where it stands. -/
theorem fold_invariant {σ : Type} (note : σ → Event C R → σ) (good : σ → Event C R → Prop)
    (P : σ → Prop) (kept : ∀ s e, good s e → P s → P (note s e)) (h : History C R) {s : σ}
    (start : P s) (met : ∀ before e after, h = before ++ e :: after → good (before.foldl note s) e) :
    P (h.foldl note s) := by
  induction h generalizing s with
  | nil => exact start
  | cons e rest ih =>
    apply ih (kept s e (met [] e rest rfl) start)
    intro before e' after split
    exact met (e :: before) e' after (by rw [split, List.cons_append])

theorem Emits.bind_some {b : β} (emits : Emits (p >>= f) t (some b)) :
    ∃ first a later, t = first ++ later ∧ Emits p first (some a) ∧ Emits (f a) later (some b) := by
  induction p generalizing t with
  | done a => exact ⟨[], a, t, rfl, .done a, emits⟩
  | ask c next ih =>
    rw [Prog.ask_bind] at emits
    cases emits with
    | ask rest =>
      obtain ⟨first, a, later, rfl, head, tail⟩ := ih _ rest
      exact ⟨_ :: first, a, later, rfl, .ask head, tail⟩

/-- At most `n` calls, whatever the answers. -/
def AtMost : Nat → Prog C R α → Prop
  | _, .done _ => True
  | 0, .ask _ _ => False
  | n + 1, .ask _ next => ∀ r, AtMost n (next r)

theorem AtMost.done (n : Nat) (a : α) : AtMost n (Prog.done a : Prog C R α) := by
  cases n <;> trivial

theorem AtMost.call (c : C) : AtMost 1 (Prog.call c : Prog C R (R c)) := fun r => .done 0 r

theorem AtMost.mono {m : Nat} (least : AtMost m p) (le : m ≤ n) : AtMost n p := by
  induction p generalizing m n with
  | done a => exact .done n a
  | ask c next ih =>
    cases m with
    | zero => exact least.elim
    | succ m =>
      cases n with
      | zero => omega
      | succ n => exact fun r => ih r (least r) (by omega)

theorem AtMost.bind {m : Nat} (first : AtMost m p) (later : ∀ a, AtMost n (f a)) :
    AtMost (m + n) (p >>= f) := by
  induction p generalizing m with
  | done a => exact (later a).mono (by omega)
  | ask c next ih =>
    cases m with
    | zero => exact first.elim
    | succ m =>
      rw [Prog.ask_bind, Nat.add_right_comm]
      exact fun r => ih r (first r)

theorem AtMost.length_le (most : AtMost n p) (emits : Emits p t o) : t.length ≤ n := by
  induction emits generalizing n with
  | stopped p => exact Nat.zero_le n
  | done a => exact Nat.zero_le n
  | ask rest ih =>
    cases n with
    | zero => exact most.elim
    | succ n => exact Nat.succ_le_succ (ih (most _))

/-- The trace when the environment answers by `answer`, and the result. -/
def respond (answer : (c : C) → R c) : Prog C R α → History C R × α
  | .done a => ([], a)
  | .ask c next =>
    let (t, a) := respond answer (next (answer c))
    (⟨c, answer c⟩ :: t, a)

theorem emits_respond (answer : (c : C) → R c) (p : Prog C R α) :
    Emits p (respond answer p).1 (some (respond answer p).2) := by
  induction p with
  | done a => exact .done a
  | ask c next ih => exact .ask (ih (answer c))

end Ultrathink.Library.Interaction
