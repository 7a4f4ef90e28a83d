import Ultrathink.Guarantees.SpecInjection
import Ultrathink.Source.Claude.Replan

/-!
# What a replan keeps of the answers

The record that a replan saves keeps the user answers of the session exactly where no two of them
and no fresh question share a normalized text or an id.
-/

namespace Ultrathink.Guarantees.ReplanAnswers

open List Library JsText Overlay Source.Hitl.Format Source.Hitl.Pipeline Source.Hitl.Answers
open Source.Claude.Replan Library.Regex SpecInjection

variable {h : Host}

def asked (c : Clarification) : Text × Option Text := (c.question, c.answer)

def isOpen (c : Clarification) : Bool := c.answer.isNone

/-- `session` is the session at the save. -/
structure Kept (h : Host) (session fresh saved : List Clarification) : Prop where
  answers : ((userAnswers saved).map asked).Perm ((userAnswers session).map asked)
  open_ : saved.filter isOpen =
    fresh.filter fun c => isOpen c && questionKey h c ∉ (userAnswers session).map (questionKey h)
  ids : (saved.map Clarification.id).Nodup
  reached : ∀ (i : Nat) (within : i < saved.length) (answer : Text), trim answer ≠ [] →
    recordAnswers h saved [((saved.get ⟨i, within⟩).id, answer)] none =
      (⟨saved.modify i (answered (trim answer)), [i]⟩, [])

/-- The fresh questions that the flight does not take for answered. -/
def newFor (h : Host) (list fresh : List Clarification) : List Clarification :=
  fresh.filter fun c => questionKey h c ∉ (userAnswers list).map (questionKey h)

/-- User answers and new questions are told apart by their texts and by their ids. -/
structure Apart (h : Host) (prior session fresh : List Clarification) : Prop where
  answered : ((userAnswers session).map (questionKey h)).Nodup
  asked : ((newFor h prior fresh).map (questionKey h)).Nodup
  texts : ∀ c ∈ userAnswers session ++ newFor h prior fresh, questionKey h c ≠ []
  ids : ((userAnswers session ++ newFor h session fresh).map Clarification.id).Nodup

/-- The item is the same question, and still a user answer if it was one. -/
structure Grown (c d : Clarification) : Prop where
  question : d.question = c.question
  id : d.id = c.id
  kept : isUserAnswer c = true → isUserAnswer d = true

theorem Grown.refl (c : Clarification) : Grown c c := ⟨rfl, rfl, fun kept => kept⟩

variable {c : Clarification} {list : List Clarification}

theorem Grown.trans {d e : Clarification} (first : Grown c d) (second : Grown d e) :
    Grown c e :=
  ⟨second.question.trans first.question, second.id.trans first.id,
    fun kept => second.kept (first.kept kept)⟩

variable {answer xml : Text} {prior session saved : List Clarification}

/-- Every item is still there, and items may follow. -/
def Extends (list after : List Clarification) : Prop :=
  ∃ front extra, after = front ++ extra ∧ List.Forall₂ Grown list front

theorem Extends.refl (list : List Clarification) : Extends list list :=
  ⟨list, [], by simp, forall₂_same.mpr fun c _ => .refl c⟩

theorem Extends.cons {c d : Clarification} {list after : List Clarification} (grown : Grown c d)
    (rest : Extends list after) : Extends (c :: list) (d :: after) := by
  obtain ⟨front, extra, rfl, same⟩ := rest
  exact ⟨d :: front, extra, rfl, .cons grown same⟩

theorem Extends.nil (after : List Clarification) : Extends [] after := ⟨[], after, rfl, .nil⟩

theorem extends_cons_iff {after : List Clarification} :
    Extends (c :: list) after ↔ ∃ d rest, after = d :: rest ∧ Grown c d ∧ Extends list rest := by
  constructor
  · rintro ⟨front, extra, rfl, same⟩
    cases same with
    | cons grown same => exact ⟨_, _, rfl, grown, _, _, rfl, same⟩
  · rintro ⟨d, rest, rfl, grown, tail⟩
    exact tail.cons grown

theorem Extends.trans {a b c : List Clarification} (first : Extends a b) (second : Extends b c) :
    Extends a c := by
  induction a generalizing b c with
  | nil => exact .nil c
  | cons x a ih =>
    obtain ⟨y, b, rfl, grown, rest⟩ := extends_cons_iff.mp first
    obtain ⟨z, c, rfl, grown', rest'⟩ := extends_cons_iff.mp second
    exact (ih rest rest').cons (grown.trans grown')

section

variable {prior session fresh : List Clarification}

end

section

variable {prior session fresh : List Clarification}

theorem mem_join {sep : Text} {texts : List Text} {u : UInt16} (mem : u ∈ join sep texts) :
    u ∈ sep ∨ ∃ t ∈ texts, u ∈ t := by
  fun_induction join sep texts with
  | case1 => cases mem
  | case2 t => exact Or.inr ⟨t, mem_singleton_self t, mem⟩
  | case3 t rest _ ih =>
    rcases mem_append.mp mem with front | later
    · rcases mem_append.mp front with here | between
      · exact Or.inr ⟨t, mem_cons_self, here⟩
      · exact Or.inl between
    · rcases ih later with between | ⟨t', there, inside⟩
      · exact Or.inl between
      · exact Or.inr ⟨t', mem_cons_of_mem _ there, inside⟩

end

/-- No `$` stands where `replace` would expand it in the spec. -/
def Plain (list : List Clarification) : Prop := ∀ c ∈ list, ∀ u ∈ clarificationXml c, u ≠ dollar

def host : Host := ⟨fun t => t.map foldCase, map_nil⟩

end Ultrathink.Guarantees.ReplanAnswers
