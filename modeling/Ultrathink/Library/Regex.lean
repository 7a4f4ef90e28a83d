import Ultrathink.Library.JsText

/-!
# Backtracking regular expressions over JavaScript strings

`results` lists every way an expression can match at a cursor, in the order the
backtracking matcher of ECMAScript tries them, so its head is the match that
`exec` returns. No group stands under a repetition in the expressions written
here, so captures are never reset.
-/

namespace Ultrathink.Library.Regex

open List JsText

/-- A position in a subject: what was read (latest unit first), what is left and
the groups captured so far. -/
structure Cursor where
  before : Text
  rest : Text
  groups : List (Nat × Text)
deriving DecidableEq

inductive Expr where
  | empty
  | one (accepts : UInt16 → Bool)
  | seq (first second : Expr)
  | alt (first second : Expr)
  | many (greedy : Bool) (body : Expr)
  | group (index : Nat) (body : Expr)
  | atStart
  | lineStart
  | atEnd
  | wordEdge

/-- The units between two cursors of one match. -/
def Cursor.upTo (c d : Cursor) : Text := c.rest.take (c.rest.length - d.rest.length)

/-- `^` under the `m` flag, on what was read, latest unit first. -/
def opensLine : List UInt16 → Bool
  | [] => true
  | u :: _ => isLineEnd u

def isWordAt : List UInt16 → Bool
  | [] => false
  | u :: _ => isWord u

/-- Repeats `step`; an iteration that reads nothing is refused, so the length of
the rest bounds their number. -/
def repeated (step : Cursor → List Cursor) (greedy : Bool) : Nat → Cursor → List Cursor
  | 0, c => [c]
  | n + 1, c =>
    let further := ((step c).filter (fun d => d.rest.length < c.rest.length)).flatMap
      (repeated step greedy n)
    if greedy then further ++ [c] else c :: further

def results : Expr → Cursor → List Cursor
  | .empty, c => [c]
  | .one accepts, c =>
    match c.rest with
    | [] => []
    | u :: rest => if accepts u then [⟨u :: c.before, rest, c.groups⟩] else []
  | .seq first second, c => (results first c).flatMap (results second)
  | .alt first second, c => results first c ++ results second c
  | .many greedy body, c => repeated (results body) greedy c.rest.length c
  | .group index body, c =>
    (results body c).map (fun d => { d with groups := (index, c.upTo d) :: d.groups })
  | .atStart, c => if c.before = [] then [c] else []
  | .lineStart, c => if opensLine c.before = true then [c] else []
  | .atEnd, c => if c.rest = [] then [c] else []
  | .wordEdge, c => if isWordAt c.before ≠ isWordAt c.rest then [c] else []

structure Match where
  before : Text
  matched : Text
  after : Text
  groups : List (Nat × Text)
deriving DecidableEq

/-- Group `index` of the match, the last capture winning. -/
def Match.group (m : Match) (index : Nat) : Option Text :=
  (m.groups.find? (fun g => g.1 = index)).map Prod.snd

/-- Tries each position of the subject from the left. -/
def execFrom (e : Expr) (before : Text) : Text → Option Match
  | [] =>
    (results e ⟨before, [], []⟩).head?.map (fun d => ⟨before.reverse, [], d.rest, d.groups⟩)
  | u :: rest =>
    match results e ⟨before, u :: rest, []⟩ with
    | d :: _ =>
      some ⟨before.reverse, Cursor.upTo ⟨before, u :: rest, []⟩ d, d.rest, d.groups⟩
    | [] => execFrom e (u :: before) rest

def exec (e : Expr) (subject : Text) : Option Match := execFrom e [] subject

def test (e : Expr) (subject : Text) : Bool := (exec e subject).isSome

/-- `String.prototype.matchAll`: from the end of each match on, one unit further after
an empty one; each round moves on, so the units left bound the rounds. -/
def matchAllFrom (e : Expr) : Nat → Text → Text → List Match
  | 0, _, _ => []
  | fuel + 1, before, rest =>
    match execFrom e before rest with
    | none => []
    | some m =>
      let read := (m.before ++ m.matched).reverse
      m :: (match m.matched, m.after with
        | [], u :: after => matchAllFrom e fuel (u :: read) after
        | [], [] => []
        | _ :: _, after => matchAllFrom e fuel read after)

def matchAll (e : Expr) (subject : Text) : List Match :=
  matchAllFrom e (subject.length + 1) [] subject

def dollar : UInt16 := 0x24
def ampersand : UInt16 := 0x26
def backtick : UInt16 := 0x60
def quote : UInt16 := 0x27

/-- `GetSubstitution` for an expression without capture groups: `$$`, `$&`,
the text before the match and the text after it; every other `$` stands for
itself. -/
def expand (m : Match) : Text → Text
  | [] => []
  | [u] => [u]
  | u :: v :: rest =>
    if u = dollar then
      if v = dollar then dollar :: expand m rest
      else if v = ampersand then m.matched ++ expand m rest
      else if v = backtick then m.before ++ expand m rest
      else if v = quote then m.after ++ expand m rest
      else u :: expand m (v :: rest)
    else u :: expand m (v :: rest)

/-- `String.prototype.replace` with a regular expression without the `g` flag. -/
def replaceFirst (e : Expr) (subject template : Text) : Text :=
  match exec e subject with
  | none => subject
  | some m => m.before ++ expand m template ++ m.after

/-- Whatever the expression, the cursor it ends at has read a prefix of the rest. -/
def Advances (c d : Cursor) (part : Text) : Prop :=
  c.rest = part ++ d.rest ∧ d.before = part.reverse ++ c.before

theorem Advances.refl (c : Cursor) : Advances c c [] := ⟨rfl, rfl⟩

variable {c d : Cursor} {part : Text} {m : Match} {greedy : Bool}

variable {t before rest subject : Text} {accepts : UInt16 → Bool} {step : Cursor → List Cursor}
  {first second : Expr}

theorem Advances.trans {e : Cursor} {s : Text} (first : Advances c d s) (second : Advances d e t) :
    Advances c e (s ++ t) := by
  refine ⟨?_, ?_⟩
  · rw [first.1, second.1, append_assoc]
  · rw [second.2, first.2, reverse_append, append_assoc]

theorem Advances.upTo_eq (h : Advances c d part) :
    c.upTo d = part := by
  simp [Cursor.upTo, h.1]

theorem Advances.nothing (adv : Advances c d part) (same : d = c) :
    part = [] := by
  subst same
  simpa using adv.1

theorem mem_repeated {n : Nat} (reached : d ∈ repeated step greedy n c) :
    d = c ∨ ∃ m k, m ∈ step c ∧ k < n ∧ d ∈ repeated step greedy k m := by
  cases n with
  | zero => exact Or.inl (by simpa [repeated] using reached)
  | succ n =>
    have cases : d = c ∨ ∃ m, m ∈ step c ∧ d ∈ repeated step greedy n m := by
      cases greedy <;>
        simp only [repeated, if_true, Bool.false_eq_true, if_false, mem_append,
          mem_cons, not_mem_nil, or_false, mem_flatMap, mem_filter] at reached
      · rcases reached with same | ⟨m, ⟨hm, -⟩, hd⟩
        · exact Or.inl same
        · exact Or.inr ⟨m, hm, hd⟩
      · rcases reached with ⟨m, ⟨hm, -⟩, hd⟩ | same
        · exact Or.inr ⟨m, hm, hd⟩
        · exact Or.inl same
    rcases cases with same | ⟨m, hm, hd⟩
    · exact Or.inl same
    · exact Or.inr ⟨m, n, hm, Nat.lt_succ_self n, hd⟩

theorem repeated_advances (one : ∀ c d, d ∈ step c → ∃ part, Advances c d part) (n : Nat)
    (reached : d ∈ repeated step greedy n c) : ∃ part, Advances c d part := by
  induction n using Nat.strong_induction_on generalizing c with
  | _ n ih =>
    rcases mem_repeated reached with same | ⟨m, k, hm, small, hd⟩
    · exact ⟨[], same ▸ Advances.refl c⟩
    · obtain ⟨first, hfirst⟩ := one c m hm
      obtain ⟨second, hsecond⟩ := ih k small hd
      exact ⟨first ++ second, hfirst.trans hsecond⟩

theorem results_advances (e : Expr) (reached : d ∈ results e c) :
    ∃ part, Advances c d part := by
  induction e generalizing c d with
  | empty => exact ⟨[], by simp only [results, mem_singleton] at reached; exact reached ▸ .refl c⟩
  | one accepts =>
    obtain ⟨before, rest, groups⟩ := c
    cases rest with
    | nil => simp [results] at reached
    | cons u rest =>
      simp only [results] at reached
      split at reached
      · rw [mem_singleton.mp reached]
        exact ⟨[u], rfl, rfl⟩
      · simp at reached
  | seq first second ihFirst ihSecond =>
    obtain ⟨m, hm, hd⟩ := mem_flatMap.mp reached
    obtain ⟨s, hs⟩ := ihFirst hm
    obtain ⟨t, ht⟩ := ihSecond hd
    exact ⟨s ++ t, hs.trans ht⟩
  | alt first second ihFirst ihSecond =>
    rcases mem_append.mp reached with h | h
    · exact ihFirst h
    · exact ihSecond h
  | many greedy body ih => exact repeated_advances (fun _ _ h => ih h) _ reached
  | group index body ih =>
    obtain ⟨m, hm, rfl⟩ := mem_map.mp reached
    obtain ⟨part, h⟩ := ih hm
    exact ⟨part, h.1, h.2⟩
  | atStart | lineStart | atEnd | wordEdge =>
    simp only [results] at reached
    split at reached
    · rw [mem_singleton.mp reached]
      exact ⟨[], .refl c⟩
    · simp at reached

theorem execFrom_eq_some (e : Expr) (found : execFrom e before rest = some m) :
    before.reverse ++ rest = m.before ++ m.matched ++ m.after ∧
      ∃ d ∈ results e ⟨m.before.reverse, m.matched ++ m.after, []⟩,
        Advances ⟨m.before.reverse, m.matched ++ m.after, []⟩ d m.matched ∧ d.rest = m.after ∧
          d.groups = m.groups := by
  induction rest generalizing before with
  | nil =>
    simp only [execFrom, Option.map_eq_some_iff] at found
    obtain ⟨d, hd, rfl⟩ := found
    have mem : d ∈ results e ⟨before, [], []⟩ := mem_of_head? hd
    obtain ⟨part, adv⟩ := results_advances e mem
    have nothing : part = [] ∧ d.rest = [] := append_eq_nil_iff.mp adv.1.symm
    obtain ⟨rfl, done⟩ := nothing
    simp only [reverse_reverse, done, append_nil]
    exact ⟨trivial, d, mem, adv, done, rfl⟩
  | cons u rest ih =>
    simp only [execFrom] at found
    split at found
    · rename_i d others hres
      have mem : d ∈ results e ⟨before, u :: rest, []⟩ := by rw [hres]; simp
      obtain ⟨part, adv⟩ := results_advances e mem
      cases found
      simp only [adv.upTo_eq, reverse_reverse, append_assoc, ← adv.1]
      exact ⟨trivial, d, mem, adv, rfl, rfl⟩
    · have split := ih found
      simpa using split

theorem execFrom_before (e : Expr) (found : execFrom e before rest = some m) :
    ∃ gap, m.before = before.reverse ++ gap := by
  induction rest generalizing before with
  | nil =>
    simp only [execFrom, Option.map_eq_some_iff] at found
    obtain ⟨d, -, rfl⟩ := found
    exact ⟨[], (append_nil _).symm⟩
  | cons u rest ih =>
    simp only [execFrom] at found
    split at found
    · cases found
      exact ⟨[], (append_nil _).symm⟩
    · obtain ⟨gap, split⟩ := ih found
      exact ⟨u :: gap, by rw [split, reverse_cons, append_assoc]; rfl⟩

/-- Each match begins behind the one before it. -/
def Consecutive : Text → List Match → Prop
  | _, [] => True
  | read, m :: rest => (∃ gap, m.before = read ++ gap) ∧ Consecutive (m.before ++ m.matched) rest

theorem Consecutive.weaken {read more : Text} {ms : List Match}
    (behind : Consecutive (read ++ more) ms) : Consecutive read ms := by
  cases ms with
  | nil => trivial
  | cons m rest =>
    obtain ⟨⟨gap, split⟩, later⟩ := behind
    exact ⟨⟨more ++ gap, by rw [split, append_assoc]⟩, later⟩

/-- A match of `e` somewhere in the subject. -/
def Matches (e : Expr) (subject : Text) (m : Match) : Prop :=
  subject = m.before ++ m.matched ++ m.after ∧
    ∃ d ∈ results e ⟨m.before.reverse, m.matched ++ m.after, []⟩,
      Advances ⟨m.before.reverse, m.matched ++ m.after, []⟩ d m.matched ∧ d.rest = m.after ∧
        d.groups = m.groups

theorem matchAllFrom_spec (e : Expr) (fuel : Nat) (before rest : Text) :
    (∀ m ∈ matchAllFrom e fuel before rest, Matches e (before.reverse ++ rest) m) ∧
      Consecutive before.reverse (matchAllFrom e fuel before rest) := by
  induction fuel generalizing before rest with
  | zero => exact ⟨fun m mem => absurd mem not_mem_nil, trivial⟩
  | succ fuel ih =>
    rw [matchAllFrom]
    cases found : execFrom e before rest with
    | none => exact ⟨fun m mem => absurd mem not_mem_nil, trivial⟩
    | some m =>
      have own := execFrom_eq_some e found
      have begins := execFrom_before e found
      obtain ⟨skipped, matched, after, groups⟩ := m
      cases matched with
      | cons u us =>
        obtain ⟨each, later⟩ := ih (skipped ++ u :: us).reverse after
        rw [reverse_reverse] at each later
        rw [← own.1] at each
        refine ⟨fun n mem => ?_, begins, later⟩
        rcases mem_cons.mp mem with rfl | mem
        · exact own
        · exact each n mem
      | nil =>
        cases after with
        | nil =>
          refine ⟨fun n mem => ?_, begins, trivial⟩
          obtain rfl := mem_singleton.mp mem
          exact own
        | cons u after =>
          obtain ⟨each, later⟩ := ih (u :: (skipped ++ []).reverse) after
          have further : (u :: (skipped ++ []).reverse).reverse = skipped ++ [] ++ [u] := by simp
          rw [further] at each later
          rw [append_assoc _ [u], singleton_append, ← own.1] at each
          refine ⟨fun n mem => ?_, begins, later.weaken⟩
          rcases mem_cons.mp mem with rfl | mem
          · exact own
          · exact each n mem

theorem matchAll_spec (e : Expr) (subject : Text) :
    (∀ m ∈ matchAll e subject, Matches e subject m) ∧ Consecutive [] (matchAll e subject) :=
  matchAllFrom_spec e _ [] subject

theorem mem_results_one (reached : d ∈ results (.one accepts) c) (adv : Advances c d part) :
    ∃ u, part = [u] ∧ accepts u = true ∧ d.groups = c.groups := by
  obtain ⟨before, rest, groups⟩ := c
  cases rest with
  | nil => simp [results] at reached
  | cons u rest =>
    simp only [results] at reached
    split at reached
    · rename_i ok
      rw [mem_singleton.mp reached] at adv ⊢
      refine ⟨u, ?_, ok, rfl⟩
      have := adv.1
      rw [← singleton_append, append_cancel_right_eq] at this
      exact this.symm
    · simp at reached

theorem mem_results_seq (reached : d ∈ results (.seq first second) c) (adv : Advances c d part) :
    ∃ m s t, m ∈ results first c ∧ Advances c m s ∧ d ∈ results second m ∧ Advances m d t ∧
      part = s ++ t := by
  obtain ⟨m, hm, hd⟩ := mem_flatMap.mp reached
  obtain ⟨s, hs⟩ := results_advances first hm
  obtain ⟨t, ht⟩ := results_advances second hd
  have same := (hs.trans ht).1.symm.trans adv.1
  exact ⟨m, s, t, hm, hs, hd, ht, (append_cancel_right same).symm⟩

theorem mem_results_alt (reached : d ∈ results (.alt first second) c) :
    d ∈ results first c ∨ d ∈ results second c :=
  mem_append.mp reached

theorem mem_results_empty (reached : d ∈ results .empty c) (adv : Advances c d part) :
    part = [] := by
  exact adv.nothing (mem_singleton.mp reached)

theorem mem_results_many_one (reached : d ∈ results (.many greedy (.one accepts)) c)
    (adv : Advances c d part) :
    (∀ u ∈ part, accepts u = true) ∧ d.groups = c.groups := by
  replace reached : d ∈ repeated (results (.one accepts)) greedy c.rest.length c := reached
  generalize c.rest.length = n at reached
  induction n using Nat.strong_induction_on generalizing c part with
  | _ n ih =>
    rcases mem_repeated reached with same | ⟨m, k, hm, small, hd⟩
    · subst same
      have nothing : part = [] := by simpa using adv.1
      simp [nothing]
    · obtain ⟨s, hs⟩ := results_advances (.one accepts) hm
      obtain ⟨u, rfl, ok, same⟩ := mem_results_one hm hs
      obtain ⟨t, ht⟩ := repeated_advances (fun _ _ h => results_advances (.one accepts) h) k hd
      obtain ⟨all, kept⟩ := ih k small ht hd
      have whole : part = [u] ++ t :=
        (append_cancel_right ((hs.trans ht).1.symm.trans adv.1)).symm
      refine ⟨?_, kept.trans same⟩
      intro v hv
      rw [whole, singleton_append, mem_cons] at hv
      rcases hv with rfl | hv
      · exact ok
      · exact all v hv

theorem mem_results_group {index : Nat} {body : Expr} (reached : d ∈ results (.group index body) c)
    (adv : Advances c d part) :
    ∃ m ∈ results body c, Advances c m part ∧ d.groups = (index, part) :: m.groups := by
  obtain ⟨m, hm, rfl⟩ := mem_map.mp reached
  have same : Advances c m part := adv
  exact ⟨m, hm, same, by rw [same.upTo_eq]⟩

theorem mem_results_atStart (reached : d ∈ results .atStart c) (adv : Advances c d part) :
    part = [] ∧ c.before = [] ∧ d.groups = c.groups := by
  simp only [results] at reached
  split at reached
  · rename_i first
    have same := mem_singleton.mp reached
    exact ⟨adv.nothing same, first, by rw [same]⟩
  · simp at reached

theorem mem_results_lineStart (reached : d ∈ results .lineStart c) (adv : Advances c d part) :
    part = [] ∧ opensLine c.before = true ∧ d.groups = c.groups := by
  simp only [results] at reached
  split at reached
  · rename_i first
    have same := mem_singleton.mp reached
    exact ⟨adv.nothing same, first, by rw [same]⟩
  · simp at reached

def units : List (UInt16 → Bool) → Expr
  | [] => .empty
  | accepts :: rest => .seq (.one accepts) (units rest)

/-- A literal, its ASCII letters in either case under the `i` flag. -/
def literal (ignoreCase : Bool) (t : Text) : Expr :=
  units (t.map fun u => if ignoreCase then fun v => foldCase v = foldCase u else fun v => v = u)

theorem mem_results_units {atoms : List (UInt16 → Bool)} (reached : d ∈ results (units atoms) c)
    (adv : Advances c d part) :
    List.Forall₂ (fun accepts u => accepts u = true) atoms part ∧ d.groups = c.groups := by
  induction atoms generalizing c part with
  | nil =>
    simp only [units, results, mem_singleton] at reached
    subst reached
    have nothing : part = [] := by simpa using adv.1
    simp [nothing]
  | cons accepts rest ih =>
    obtain ⟨m, s, t, hm, hs, hd, ht, rfl⟩ := mem_results_seq reached adv
    obtain ⟨u, rfl, ok, same⟩ := mem_results_one hm hs
    obtain ⟨all, kept⟩ := ih hd ht
    exact ⟨List.Forall₂.cons ok all, kept.trans same⟩

/-- Equal up to the case of ASCII letters. -/
def SameFolded (s t : Text) : Prop := s.map foldCase = t.map foldCase

theorem mem_results_literal (reached : d ∈ results (literal true t) c) (adv : Advances c d part) :
    SameFolded part t ∧ d.groups = c.groups := by
  obtain ⟨all, kept⟩ := mem_results_units reached adv
  refine ⟨?_, kept⟩
  clear reached adv
  induction t generalizing part with
  | nil =>
    cases all
    rfl
  | cons u t ih =>
    cases all with
    | cons ok rest =>
      have := ih rest
      simp only [if_true, decide_eq_true_eq] at ok
      simp only [SameFolded, map_cons, ok] at this ⊢
      rw [this]

end Ultrathink.Library.Regex
