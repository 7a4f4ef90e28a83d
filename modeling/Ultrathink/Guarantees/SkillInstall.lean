import Ultrathink.Source.Teach.Install

/-!
# Installing leaves the skills of others

`SKILL.md` is looked at and written in steps of their own, so the result is about the runs in
which nobody else changes it in between.
-/

namespace Ultrathink.Guarantees.SkillInstall

open Library JsText Runs Source.Teach.Install

variable {draft : SkillDraft} {s t : State} {d d' : Disk} {stand stand' : Stand}
  {fails : Option Failure} {n : Node}

/-- A regular file whose marker names lessons of this install alone, one at least. -/
def Ours (draft : SkillDraft) (n : Node) : Prop :=
  ∃ ino text, n = .file ino (some text) ∧ isOurs (draft.sourceIds.map markerId) text = true

/-- The placeholder that the call has made at the path. -/
def placeholder : Stand → Option Nat
  | .replacing _ made | .removingTmp made _ => made
  | .removingPlaceholder made _ => some made
  | _ => none

/-- What the call may take away. -/
def Free (draft : SkillDraft) (stand : Stand) (n : Node) : Prop :=
  Ours draft n ∨ ∃ made, placeholder stand = some made ∧ n = .file made (some [])

/-- A step of the call replaces and removes nothing else. -/
def Respects (draft : SkillDraft) (x : Step State Label) : Prop :=
  ∀ fails, x.label = .call fails → ∀ n, x.before.disk.skill = some n →
    x.after.disk.skill ≠ some n → Free draft x.before.stand n

/-- From the look at a regular file to its replacement, and while a placeholder stands. -/
def isRelying : Stand → Bool
  | .reading | .staging true | .replacing _ _ | .removingPlaceholder _ _ => true
  | .removingTmp made _ => made.isSome
  | _ => false

/-- Nobody else changes `SKILL.md` where the call relies on it. -/
def Undisturbed (x : Step State Label) : Prop :=
  ∀ dir skill inodes, x.label = .other dir skill inodes → isRelying x.before.stand = true →
    skill = x.before.disk.skill

def Known (draft : SkillDraft) (skill : Option Node) : Stand → Prop
  | .reading => ∃ ino text, skill = some (.file ino text)
  | .staging true | .replacing _ none => ∃ n, skill = some n ∧ Ours draft n
  | .replacing _ (some made) | .removingTmp (some made) _ | .removingPlaceholder made _ =>
    skill = some (.file made (some []))
  | _ => True

theorem known_of_not_relying {skill : Option Node} (no : isRelying stand = false) :
    Known draft skill stand := by
  cases stand with
  | staging replace =>
    cases replace with
    | false => trivial
    | true => cases no
  | removingTmp made outcome =>
    cases made with
    | none => trivial
    | some made => cases no
  | statDir | statFile | making | claiming | ended => trivial
  | _ => cases no

theorem known_judge {ino : Nat} {text : Option Text} (at_ : d.skill = some (.file ino text)) :
    Known draft d.skill (judge (draft.sourceIds.map markerId) text) := by
  cases text with
  | none => trivial
  | some text =>
    unfold judge
    dsimp only
    split
    · trivial
    · split
      next ours => exact ⟨_, at_, ino, text, rfl, ours⟩
      · trivial

theorem step_known (known : Known draft d.skill stand)
    (taken : step draft fails d stand = some (d', stand')) :
    Known draft d'.skill stand' ∧
      ∀ n, d.skill = some n → d'.skill ≠ some n → Free draft stand n := by
  have same : Known draft d.skill stand' → Known draft d.skill stand' ∧
      ∀ n, d.skill = some n → d.skill ≠ some n → Free draft stand n :=
    fun known => ⟨known, fun _ at_ other => absurd at_ other⟩
  cases stand with
  | statDir =>
    cases taken
    refine same ?_
    repeat' split
    all_goals trivial
  | statFile =>
    cases taken
    refine same ?_
    repeat' split
    any_goals trivial
    next at_ => exact ⟨_, _, at_⟩
  | reading =>
    cases taken
    obtain ⟨ino, text, at_⟩ := known
    refine same ?_
    split
    · trivial
    · rw [at_, textAt, ← at_]
      exact known_judge at_
  | making =>
    simp only [step] at taken
    split at taken
    all_goals
      cases taken
      exact same trivial
  | staging replace =>
    simp only [step] at taken
    split at taken
    · cases taken
      exact same trivial
    · cases taken
      cases replace with
      | false => exact same trivial
      | true => exact same known
  | claiming tmp =>
    simp only [step] at taken
    split at taken
    · cases taken
      exact same trivial
    · cases taken
      exact same trivial
    next none_ =>
      cases taken
      exact ⟨rfl, fun n at_ => by rw [none_] at at_; cases at_⟩
  | replacing tmp made =>
    simp only [step] at taken
    split at taken
    · cases taken
      refine same ?_
      cases made with
      | none => trivial
      | some made => exact known
    · cases taken
    · cases taken
      refine ⟨trivial, fun n at_ _ => ?_⟩
      cases made with
      | none =>
        obtain ⟨n', at', ours⟩ := known
        rw [at_] at at'
        exact Or.inl (Option.some.inj at' ▸ ours)
      | some made =>
        have known : d.skill = some (.file made (some [])) := known
        rw [at_] at known
        exact Or.inr ⟨made, rfl, Option.some.inj known⟩
  | removingTmp made outcome =>
    cases taken
    refine same ?_
    split
    · trivial
    · cases made with
      | none => trivial
      | some made => exact known
  | removingPlaceholder made outcome =>
    have known : d.skill = some (.file made (some [])) := known
    simp only [step] at taken
    split at taken
    · cases taken
      exact same trivial
    · cases taken
    · cases taken
      refine ⟨trivial, fun n at_ _ => ?_⟩
      rw [at_] at known
      exact Or.inr ⟨made, rfl, Option.some.inj known⟩
  | ended outcome => cases taken

theorem next_known {i : Label} (taken : next draft s i = some t)
    (undisturbed : Undisturbed ⟨s, i, t⟩) (known : Known draft s.disk.skill s.stand) :
    Known draft t.disk.skill t.stand ∧ Respects draft ⟨s, i, t⟩ := by
  cases i with
  | call fails =>
    obtain ⟨⟨disk, stand⟩, stepped, rfl⟩ := Option.map_eq_some_iff.mp taken
    obtain ⟨known, free⟩ := step_known known stepped
    exact ⟨known, fun _ _ => free⟩
  | other dir skill inodes =>
    simp only [next] at taken
    split at taken
    · cases taken
      refine ⟨?_, nofun⟩
      cases relying : isRelying s.stand with
      | false => exact known_of_not_relying relying
      | true =>
        rw [undisturbed dir skill inodes rfl relying]
        exact known
    · cases taken

/-- In every run in which nobody else changes `SKILL.md` where the call relies on it, the call
replaces and removes a `SKILL.md` only where it was a regular file made from lessons of this
install alone, or is the empty file that the call has made itself. -/
theorem install_respects {steps : List (Step State Label)} (start : s.stand = installSkill draft)
    (run : (installing draft).Run s steps t) (undisturbed : ∀ x ∈ steps, Undisturbed x) :
    ∀ x ∈ steps, Respects draft x := by
  refine run.steps_of (fun s => Known draft s.disk.skill s.stand) Undisturbed (Respects draft) ?_
    (fun _ _ _ taken met known => (next_known taken met known).1)
    (fun _ _ _ taken met known => (next_known taken met known).2) undisturbed
  rw [start, installSkill]
  repeat' split
  all_goals trivial

def sampleDraft : SkillDraft :=
  ⟨js "lesson-types", js "Use import type.\n<!-- ultrathink:teach ids=m1 -->\n", [js "m1"]⟩

def older : Node := .file 0 (some (js "Old.\n<!-- ultrathink:teach ids=m1 -->\n"))

def foreign : Node := .file 1 (some (js "Mine."))

def found : State := ⟨⟨some .directory, some older, 1⟩, .statDir⟩

def call : Label := .call none

/-- Somebody saves a skill of their own after the old one was read. -/
def overtaken : List Label :=
  [call, call, call, .other (some .directory) (some foreign) 2, call, call]

theorem found_start : found.stand = installSkill sampleDraft := by decide +kernel

/-- The step that puts the new skill over what somebody else has just saved. -/
def replaced : Step State Label :=
  ⟨runInputs (stepped (next sampleDraft)) found (overtaken.take 5), call,
    runInputs (stepped (next sampleDraft)) found overtaken⟩

theorem foreign_replaced : ¬ ∀ (draft : SkillDraft) (s t : State) (steps : List (Step State Label)),
    s.stand = installSkill draft → (installing draft).Run s steps t →
    ∀ x ∈ steps, Respects draft x := by
  intro claimed
  have taken : replaced ∈ traceOf (stepped (next sampleDraft)) found overtaken := by
    simp [traceOf, overtaken, replaced]
  have free := claimed sampleDraft found _ _ found_start
    (run_stepped found overtaken (by decide +kernel)) replaced taken none rfl foreign
    (by decide +kernel) (by decide +kernel)
  rcases free with ⟨ino, text, same, ours⟩ | ⟨made, here, -⟩
  · cases same
    exact absurd ours (by decide +kernel)
  · have none_ : placeholder replaced.before.stand = none := by decide +kernel
    rw [none_] at here
    cases here

def undisturbed : List Label := [call, call, call, call, call]

/-- The step that puts the new skill over the older one. -/
def updated : Step State Label :=
  ⟨runInputs (stepped (next sampleDraft)) found (undisturbed.take 4), call,
    runInputs (stepped (next sampleDraft)) found undisturbed⟩

theorem install_respects_older :
    updated.after.disk.skill = some (.file 1 (some sampleDraft.content)) ∧
      Free sampleDraft updated.before.stand older := by
  have respects := install_respects found_start
    (run_stepped found undisturbed (by decide +kernel))
    (by simp [traceOf, Undisturbed, undisturbed, call]) updated
    (by simp [traceOf, updated, undisturbed])
  exact ⟨by decide +kernel, respects none rfl older (by decide +kernel) (by decide +kernel)⟩

end Ultrathink.Guarantees.SkillInstall
