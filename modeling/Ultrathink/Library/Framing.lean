import Mathlib.Data.List.Basic

/-!
# Lines of a stream that comes in pieces

A list is cut at its line ends into the lines that have ended and what is left. Where the
first part of a stream was cut before, the rest is cut from what that left, so the lines do
not depend on the pieces.
-/

namespace Ultrathink.Library.Framing

open List

variable {α : Type} (ends : α → Bool)

/-- The lines that have ended, and what is left. -/
def cut : List α → List (List α) × List α
  | [] => ([], [])
  | u :: rest =>
    if ends u then ([] :: (cut rest).1, (cut rest).2)
    else
      match (cut rest).1 with
      | [] => ([], u :: (cut rest).2)
      | line :: more => ((u :: line) :: more, (cut rest).2)

variable {ends}

@[simp] theorem cut_nil : cut ends [] = ([], []) := rfl

theorem cut_end {u : α} (isEnd : ends u = true) (rest : List α) :
    cut ends (u :: rest) = ([] :: (cut ends rest).1, (cut ends rest).2) := by
  rw [cut, if_pos isEnd]

theorem cut_cons {u : α} (inside : ends u = false) (rest : List α) :
    cut ends (u :: rest) =
      match (cut ends rest).1 with
      | [] => ([], u :: (cut ends rest).2)
      | line :: more => ((u :: line) :: more, (cut ends rest).2) := by
  rw [cut, if_neg (by simp [inside])]

theorem cut_of_free {t : List α} (free : ∀ u ∈ t, ends u = false) : cut ends t = ([], t) := by
  induction t with
  | nil => rfl
  | cons u rest ih =>
    rw [cut_cons (free u mem_cons_self), ih fun v mem => free v (mem_cons_of_mem _ mem)]

variable {limit : Nat} {left line : List α}

theorem cut_line (free : ∀ u ∈ line, ends u = false) {e : α} (isEnd : ends e = true)
    (rest : List α) :
    cut ends (line ++ e :: rest) = (line :: (cut ends rest).1, (cut ends rest).2) := by
  induction line with
  | nil => exact cut_end isEnd rest
  | cons u more ih =>
    rw [cons_append, cut_cons (free u mem_cons_self),
      ih fun v mem => free v (mem_cons_of_mem _ mem)]

theorem left_free (t : List α) : ∀ u ∈ (cut ends t).2, ends u = false := by
  induction t with
  | nil => simp
  | cons u rest ih =>
    cases inside : ends u with
    | true =>
      rw [cut_end inside]
      exact ih
    | false =>
      rw [cut_cons inside]
      split
      · intro v mem
        rcases mem_cons.mp mem with rfl | old
        · exact inside
        · exact ih v old
      · exact ih

theorem cut_append (s t : List α) :
    cut ends (s ++ t) =
      ((cut ends s).1 ++ (cut ends ((cut ends s).2 ++ t)).1, (cut ends ((cut ends s).2 ++ t)).2) := by
  induction s with
  | nil => rfl
  | cons u rest ih =>
    rw [cons_append]
    cases inside : ends u with
    | true => rw [cut_end inside, cut_end inside, ih]; rfl
    | false =>
      rw [cut_cons inside, cut_cons inside, ih]
      cases ended : (cut ends rest).1 with
      | nil =>
        simp only [nil_append, cons_append]
        rw [cut_cons inside]
      | cons line more => rfl

theorem first_end (ends : α → Bool) (t : List α) :
    (∀ u ∈ t, ends u = false) ∨
    ∃ line e after, t = line ++ e :: after ∧ (∀ u ∈ line, ends u = false) ∧ ends e = true := by
  induction t with
  | nil => exact .inl (by simp)
  | cons u rest ih =>
    cases here : ends u with
    | true => exact .inr ⟨[], u, rest, rfl, by simp, here⟩
    | false =>
      rcases ih with free | ⟨line, e, after, rfl, free, isEnd⟩
      · exact .inl (forall_mem_cons.mpr ⟨here, free⟩)
      · exact .inr ⟨u :: line, e, after, rfl, forall_mem_cons.mpr ⟨here, free⟩, isEnd⟩

theorem left_within (s t : List α) :
    ∃ line ∈ (cut ends (s ++ t)).1 ++ [(cut ends (s ++ t)).2], (cut ends s).2 <+: line := by
  have joined : ∀ u, (∀ v ∈ u, ends v = false) → ∀ v ∈ (cut ends s).2 ++ u, ends v = false := by
    intro u free v mem
    exact (mem_append.mp mem).elim (left_free s v) (free v)
  rw [cut_append]
  rcases first_end ends t with free | ⟨line, e, after, rfl, free, isEnd⟩
  · rw [cut_of_free (joined t free)]
    exact ⟨(cut ends s).2 ++ t, by simp, prefix_append _ _⟩
  · rw [← append_assoc, cut_line (joined line free) isEnd]
    exact ⟨(cut ends s).2 ++ line, by simp, prefix_append _ _⟩

theorem cut_free_append {r : List α} (free : ∀ u ∈ r, ends u = false) (t : List α) :
    cut ends (r ++ t) =
      match (cut ends t).1 with
      | [] => ([], r ++ (cut ends t).2)
      | line :: more => ((r ++ line) :: more, (cut ends t).2) := by
  induction r with
  | nil => cases ended : (cut ends t).1 <;> simp [← ended]
  | cons u rest ih =>
    rw [cons_append, cut_cons (free u mem_cons_self),
      ih fun v mem => free v (mem_cons_of_mem _ mem)]
    cases (cut ends t).1 <;> rfl

inductive Frame (α : Type) where
  | line (content : List α)
  | refused

def frame (limit : Nat) (line : List α) : Frame α :=
  if limit < line.length then .refused else .line line

theorem frame_long (long : limit < line.length) :
    frame limit line = .refused := if_pos long

theorem frame_short (short : ¬ limit < line.length) :
    frame limit line = .line line := if_neg short

variable (ends)

/-- The lines of a whole stream, each refused or given. -/
def frames (limit : Nat) (t : List α) : List (Frame α) :=
  (cut ends t).1.map (frame limit) ++ [frame limit (cut ends t).2]

/-- A line that goes on is refused as soon as it is too long. -/
def early (limit : Nat) (left : List α) : List (Frame α) :=
  if limit < left.length then [.refused] else []

/-- What is kept of a line that goes on, none when it is refused. -/
def keep (limit : Nat) (left : List α) : Option (List α) :=
  if limit < left.length then none else some left

/-- What is known of the lines when `t` has come. -/
def given (limit : Nat) (t : List α) : List (Frame α) :=
  (cut ends t).1.map (frame limit) ++ early limit (cut ends t).2

def kept (limit : Nat) (t : List α) : Option (List α) := keep limit (cut ends t).2

/-- A reader that keeps one line at most: what a piece gives, and what is kept after it. The
rest of a refused line is thrown away up to its end. -/
def advance (limit : Nat) (piece : List α) : Option (List α) → List (Frame α) × Option (List α)
  | some left => (given ends limit (left ++ piece), kept ends limit (left ++ piece))
  | none =>
    match (cut ends piece).1 with
    | [] => ([], none)
    | _ :: more =>
      (more.map (frame limit) ++ early limit (cut ends piece).2, keep limit (cut ends piece).2)

variable {ends}

theorem early_long (long : limit < left.length) :
    early limit left = [.refused] := if_pos long

theorem early_short (short : ¬ limit < left.length) :
    early limit left = [] := if_neg short

theorem keep_long (long : limit < left.length) :
    keep limit left = none := if_pos long

theorem keep_short (short : ¬ limit < left.length) :
    keep limit left = some left := if_neg short

theorem given_append (limit : Nat) (t piece : List α) :
    (given ends limit (t ++ piece), kept ends limit (t ++ piece)) =
      (given ends limit t ++ (advance ends limit piece (kept ends limit t)).1,
        (advance ends limit piece (kept ends limit t)).2) := by
  by_cases long : limit < (cut ends t).2.length
  · have refused : kept ends limit t = none := keep_long long
    have joined := cut_free_append (@left_free _ ends t) piece
    have early : given ends limit t = (cut ends t).1.map (frame limit) ++ [.refused] := by
      rw [given, early_long long]
    rw [refused, early, advance, given, kept, cut_append, joined]
    cases ended : (cut ends piece).1 with
    | nil =>
      have still : limit < ((cut ends t).2 ++ (cut ends piece).2).length := by
        rw [length_append]
        omega
      simp only [keep_long still, early_long still, append_nil]
    | cons line more =>
      have still : limit < ((cut ends t).2 ++ line).length := by
        rw [length_append]
        omega
      simp only [map_append, map_cons, frame_long still, append_assoc,
        cons_append, nil_append]
  · have known : kept ends limit t = some (cut ends t).2 := keep_short long
    have nothing : given ends limit t = (cut ends t).1.map (frame limit) := by
      rw [given, early_short long, append_nil]
    rw [known, nothing, advance]
    simp only [given, kept, cut_append t piece, map_append, append_assoc]

theorem frames_append {piece : List α} (free : ∀ u ∈ piece, ends u = false) (limit : Nat)
    (t : List α) :
    frames ends limit (t ++ piece) = given ends limit t ++
      match kept ends limit t with
      | some left => [frame limit (left ++ piece)]
      | none => [] := by
  have joined : ∀ u ∈ (cut ends t).2 ++ piece, ends u = false := by
    intro u mem
    exact (mem_append.mp mem).elim (left_free t u) (free u)
  rw [frames, cut_append, cut_of_free joined, given, kept, append_nil]
  by_cases long : limit < (cut ends t).2.length
  · have still : limit < ((cut ends t).2 ++ piece).length := by
      rw [length_append]
      omega
    rw [early_long long, keep_long long, frame_long still, append_nil]
  · rw [early_short long, keep_short long, append_nil]

end Ultrathink.Library.Framing
