import Ultrathink.Source.Track.Steps

/-!
# A rationale keeps its text

Cut at its markers, a rationale is its preamble and, behind each marker, a piece. The steps are
these texts without the white space around them, the preamble in front of the first piece.
-/

namespace Ultrathink.Guarantees.RationaleSplit

open List Library JsText Regex JsNumber Source.Track.Steps

def IsBold (t : Text) : Prop := t = [] ∨ t = js "**"

/-- White space behind the word `step`, in either case. -/
def IsStepWord (t : Text) : Prop :=
  t = [] ∨ ∃ word gap, t = word ++ gap ∧ SameFolded word (js "step") ∧ gap ≠ [] ∧
    ∀ u ∈ gap, isSpace u

def IsNumber (t : Text) : Prop :=
  (t.length = 1 ∨ t.length = 2) ∧ ∀ u ∈ t, isDigit u

/-- A point, or a dash behind white space. -/
def IsPoint (t : Text) : Prop :=
  (∃ u, t = [u] ∧ isPoint u) ∨
    ∃ gap u, t = gap ++ [u] ∧ gap ≠ [] ∧ (∀ v ∈ gap, isSpace v) ∧ isDash u

/-- `marker` behind `before` numbers a line: only blanks stand before it on its line. -/
def LineMarker (before marker : Text) : Prop :=
  (∃ lines blanks, before = lines ++ blanks ∧ opensLine lines.reverse = true ∧
    ∀ u ∈ blanks, isBlank u) ∧
  ∃ bold word number point bold' gap,
    marker = bold ++ (word ++ (number ++ (point ++ (bold' ++ gap)))) ∧ IsBold bold ∧
      IsStepWord word ∧ IsNumber number ∧ IsPoint point ∧ IsBold bold' ∧ gap ≠ [] ∧
      ∀ u ∈ gap, isBlank u

/-- `marker` behind `before` is number `n` of a sequence in running text. -/
def InlineMarker (n : Nat) (before marker : Text) : Prop :=
  (before = [] ∨ ∃ front u, before = front ++ [u] ∧ isSpace u) ∧
  ∃ number u gap, marker = number ++ u :: gap ∧ IsNumber number ∧ valueOf number = n ∧
    isInlinePoint u ∧ gap ≠ [] ∧ ∀ v ∈ gap, isSpace v

/-- Markers from number `n` on, each with the piece behind it, after `before`. -/
inductive Cut (IsMarker : Nat → Text → Text → Prop) : Nat → Text → List (Text × Text) → Prop
  | done {n before} : Cut IsMarker n before []
  | next {n before marker piece rest} : IsMarker n before marker →
      Cut IsMarker (n + 1) (before ++ (marker ++ piece)) rest →
      Cut IsMarker n before ((marker, piece) :: rest)

variable {text part : Text} {c d : Cursor} {m : Match} {u : UInt16}

theorem mem_results_some {accepts : UInt16 → Bool} (reached : d ∈ results (some_ accepts) c)
    (adv : Advances c d part) :
    part ≠ [] ∧ (∀ u ∈ part, accepts u = true) ∧ d.groups = c.groups := by
  obtain ⟨_, s, t, first, adv₁, others, adv₂, rfl⟩ := mem_results_seq reached adv
  obtain ⟨u, rfl, ok, kept⟩ := mem_results_one first adv₁
  obtain ⟨all, kept'⟩ := mem_results_many_one others adv₂
  refine ⟨cons_ne_nil _ _, ?_, kept'.trans kept⟩
  intro v mem
  rcases mem_cons.mp mem with rfl | mem
  · exact ok
  · exact all v mem

theorem mem_results_bold (reached : d ∈ results boldRe c) (adv : Advances c d part) :
    IsBold part := by
  rcases mem_results_alt reached with two | none_
  · obtain ⟨_, s, t, first, adv₁, second, adv₂, rfl⟩ := mem_results_seq two adv
    obtain ⟨u, rfl, isStar, -⟩ := mem_results_one first adv₁
    obtain ⟨v, rfl, isStar', -⟩ := mem_results_one second adv₂
    obtain rfl := of_decide_eq_true isStar
    obtain rfl := of_decide_eq_true isStar'
    exact .inr rfl
  · exact .inl (mem_results_empty none_ adv)

theorem mem_results_step (reached : d ∈ results stepRe c) (adv : Advances c d part) :
    IsStepWord part := by
  rcases mem_results_alt reached with word | none_
  · obtain ⟨_, s, t, first, adv₁, second, adv₂, rfl⟩ := mem_results_seq word adv
    obtain ⟨some_, spaces, -⟩ := mem_results_some second adv₂
    exact .inr ⟨s, t, rfl, (mem_results_literal first adv₁).1, some_, spaces⟩
  · exact .inl (mem_results_empty none_ adv)

theorem mem_results_number (reached : d ∈ results numberRe c) (adv : Advances c d part) :
    IsNumber part ∧ ∃ groups, d.groups = (1, part) :: groups := by
  obtain ⟨m, read, adv, groups⟩ := mem_results_group reached adv
  refine ⟨?_, _, groups⟩
  obtain ⟨_, s, t, first, adv₁, second, adv₂, rfl⟩ := mem_results_seq read adv
  obtain ⟨u, rfl, isDigit_, -⟩ := mem_results_one first adv₁
  rcases mem_results_alt second with one | none_
  · obtain ⟨v, rfl, isDigit', -⟩ := mem_results_one one adv₂
    refine ⟨.inr rfl, ?_⟩
    simp [isDigit_, isDigit']
  · rw [mem_results_empty none_ adv₂]
    refine ⟨.inl rfl, ?_⟩
    simp [isDigit_]

theorem mem_results_point (reached : d ∈ results pointRe c) (adv : Advances c d part) :
    IsPoint part := by
  rcases mem_results_alt reached with one | dash
  · obtain ⟨u, rfl, ok, -⟩ := mem_results_one one adv
    exact .inl ⟨u, rfl, ok⟩
  · obtain ⟨_, s, t, first, adv₁, second, adv₂, rfl⟩ := mem_results_seq dash adv
    obtain ⟨some_, spaces, -⟩ := mem_results_some first adv₁
    obtain ⟨u, rfl, ok, -⟩ := mem_results_one second adv₂
    exact .inr ⟨s, u, rfl, some_, spaces, ok⟩

/-- What a marker starts with is no white space. -/
def Solid (t : Text) : Prop := ∃ u rest, t = u :: rest ∧ isSpace u = false

theorem Solid.append {s : Text} (solid : Solid s) (t : Text) : Solid (s ++ t) := by
  obtain ⟨u, rest, rfl, notSpace⟩ := solid
  exact ⟨u, rest ++ t, rfl, notSpace⟩

theorem solid_number {t : Text} (number : IsNumber t) : Solid t := by
  cases t with
  | nil => exact absurd number.1 (by simp)
  | cons u rest => exact ⟨u, rest, rfl, isSpace_digit (number.2 u mem_cons_self)⟩

theorem upper_solid (upper : isUpperLetter u = true) : isSpace u = false := by
  simp only [isUpperLetter, Bool.and_eq_true, decide_eq_true_eq, UInt16.le_iff_toNat_le,
    UInt16.reduceToNat] at upper
  exact isSpace_graphic (by omega) (by omega)

theorem solid_step {word : Text} (same : SameFolded word (js "step")) : Solid word := by
  cases word with
  | nil => cases same
  | cons u rest =>
    refine ⟨u, rest, rfl, ?_⟩
    have folded : foldCase u = 0x73 := (List.cons.inj same).1
    unfold foldCase at folded
    split at folded
    · next upper => exact upper_solid upper
    · rw [folded]
      rfl

theorem solid_marker {bold word number : Text} (isBold : IsBold bold) (isWord_ : IsStepWord word)
    (isNumber : IsNumber number) (rest : Text) : Solid (bold ++ (word ++ (number ++ rest))) := by
  rcases isBold with rfl | rfl
  · rcases isWord_ with rfl | ⟨name, gap, rfl, same, -⟩
    · exact (solid_number isNumber).append rest
    · exact ((solid_step same).append gap).append _
  · exact ⟨0x2A, 0x2A :: (word ++ (number ++ rest)), rfl, rfl⟩

def lead (m : Match) : Text := m.matched.takeWhile isSpace

theorem lead_append (m : Match) : lead m ++ trimStart m.matched = m.matched :=
  takeWhile_append_dropWhile

theorem trimStart_append {blanks rest : Text} (spaces : ∀ u ∈ blanks, isSpace u = true)
    (solid : Solid rest) :
    (blanks ++ rest).takeWhile isSpace = blanks ∧ trimStart (blanks ++ rest) = rest := by
  obtain ⟨u, tail, rfl, notSpace⟩ := solid
  constructor
  · rw [takeWhile_append_of_pos spaces, takeWhile_cons_of_neg (by simp [notSpace]),
      append_nil]
  · rw [trimStart, dropWhile_append_of_pos spaces, dropWhile_cons_of_neg (by simp [notSpace])]

theorem space_of_blank (blank : isBlank u = true) : isSpace u = true := by
  simp only [isBlank, Bool.or_eq_true, decide_eq_true_eq] at blank
  rcases blank with rfl | rfl <;> rfl

theorem lineMarker_of_match (found : Matches LINE_MARKER_RE text m) :
    LineMarker (m.before ++ lead m) (trimStart m.matched) := by
  obtain ⟨-, d, reached, adv, -, -⟩ := found
  obtain ⟨_, none_, _, first, adv₁, reached, adv₂, matched⟩ := mem_results_seq reached adv
  obtain ⟨rfl, opens, -⟩ := mem_results_lineStart first adv₁
  obtain ⟨_, blanks, _, first, adv₃, reached, adv₄, rfl⟩ := mem_results_seq reached adv₂
  obtain ⟨_, bold, _, bold_, adv₅, reached, adv₆, rfl⟩ := mem_results_seq reached adv₄
  obtain ⟨_, word, _, word_, adv₇, reached, adv₈, rfl⟩ := mem_results_seq reached adv₆
  obtain ⟨_, number, _, number_, adv₉, reached, adv₁₀, rfl⟩ := mem_results_seq reached adv₈
  obtain ⟨_, point, _, point_, adv₁₁, reached, adv₁₂, rfl⟩ := mem_results_seq reached adv₁₀
  obtain ⟨_, bold', gap, bold'_, adv₁₃, gap_, adv₁₄, rfl⟩ := mem_results_seq reached adv₁₂
  have allBlank := (mem_results_many_one first adv₃).1
  have isBold := mem_results_bold bold_ adv₅
  have isWord_ := mem_results_step word_ adv₇
  have isNumber := (mem_results_number number_ adv₉).1
  obtain ⟨some_, blanks', -⟩ := mem_results_some gap_ adv₁₄
  have split := trimStart_append (fun u mem => space_of_blank (allBlank u mem))
    (solid_marker isBold isWord_ isNumber (point ++ (bold' ++ gap)))
  rw [nil_append] at matched
  rw [lead, matched, split.1, split.2]
  exact ⟨⟨m.before, blanks, rfl, opens, allBlank⟩, bold, word, number, point, bold', gap, rfl,
    isBold, isWord_, isNumber, mem_results_point point_ adv₁₁, mem_results_bold bold'_ adv₁₃, some_,
    blanks'⟩

theorem groupOne {number : Text} {groups : List (Nat × Text)}
    (captured : m.groups = (1, number) :: groups) : m.group 1 = some number := by
  rw [Match.group, captured]
  rfl

theorem inlineMarker_of_match (found : Matches INLINE_MARKER_RE text m) :
    InlineMarker (valueOf ((m.group 1).getD [])) (m.before ++ lead m) (trimStart m.matched) := by
  obtain ⟨-, d, reached, adv, -, captured⟩ := found
  obtain ⟨_, edge, _, edge_, adv₁, reached, adv₂, matched⟩ := mem_results_seq reached adv
  obtain ⟨_, number, _, number_, adv₃, reached, adv₄, rfl⟩ := mem_results_seq reached adv₂
  obtain ⟨_, point, gap, point_, adv₅, gap_, adv₆, rfl⟩ := mem_results_seq reached adv₄
  obtain ⟨isNumber, groups, group⟩ := mem_results_number number_ adv₃
  obtain ⟨u, rfl, isPoint_, kept⟩ := mem_results_one point_ adv₅
  obtain ⟨some_, spaces, kept'⟩ := mem_results_some gap_ adv₆
  have value : m.group 1 = some number := groupOne (captured.symm.trans (kept'.trans (kept.trans group)))
  have starts : (∀ v ∈ edge, isSpace v = true) ∧
      (m.before ++ edge = [] ∨ ∃ front v, m.before ++ edge = front ++ [v] ∧ isSpace v) := by
    rcases mem_results_alt edge_ with atStart | space
    · obtain ⟨rfl, first, -⟩ := mem_results_atStart atStart adv₁
      have first : m.before = [] := reverse_eq_nil_iff.mp first
      exact ⟨fun v mem => absurd mem not_mem_nil, .inl (by rw [first]; rfl)⟩
    · obtain ⟨v, rfl, ok, -⟩ := mem_results_one space adv₁
      refine ⟨?_, .inr ⟨m.before, v, rfl, ok⟩⟩
      intro w mem
      rw [mem_singleton.mp mem]
      exact ok
  have split := trimStart_append starts.1 ((solid_number isNumber).append ([u] ++ gap))
  rw [lead, matched, split.1, split.2, value]
  exact ⟨starts.2, number, u, gap, rfl, isNumber, rfl, isPoint_, some_, spaces⟩

/-- The matches read markers, the first of them number `n`. -/
def Numbered (IsMarker : Nat → Text → Text → Prop) : Nat → List Match → Prop
  | _, [] => True
  | n, m :: rest =>
    IsMarker n (m.before ++ lead m) (trimStart m.matched) ∧ Numbered IsMarker (n + 1) rest

theorem markerOf_start (m : Match) : (markerOf m).start = (m.before ++ lead m).length := by
  have length := congrArg List.length (lead_append m)
  rw [length_append] at length
  rw [length_append]
  show m.before.length + (m.matched.length - (trimStart m.matched).length) = _
  omega

theorem markerOf_stop (m : Match) : (markerOf m).stop = (m.before ++ m.matched).length :=
  (length_append ..).symm

theorem slice_middle (s t u : Text) : slice (s ++ (t ++ u)) s.length (s ++ t).length = t := by
  rw [slice, ← append_assoc, take_left, drop_left]

theorem cut_matches {IsMarker : Nat → Text → Text → Prop} (rest : List Match) :
    ∀ (n : Nat) (m : Match), (∀ k ∈ m :: rest, text = k.before ++ k.matched ++ k.after) →
      Consecutive (m.before ++ m.matched) rest → Numbered IsMarker n (m :: rest) →
      ∃ cuts, text = (m.before ++ lead m) ++ cuts.flatMap (fun c => c.1 ++ c.2) ∧
        Cut IsMarker n (m.before ++ lead m) cuts ∧
        pieces text ((m :: rest).map markerOf) = cuts.map (fun c => trim c.2) ∧
        cuts.length = rest.length + 1 := by
  induction rest with
  | nil =>
    intro n m whole _ numbered
    have whole := whole m mem_cons_self
    refine ⟨[(trimStart m.matched, m.after)], ?_, .next numbered.1 .done, ?_, rfl⟩
    · rw [flatMap_singleton, append_assoc, ← append_assoc (lead m), lead_append, whole,
        append_assoc]
    · have last := slice_middle (m.before ++ m.matched) m.after []
      rw [append_nil, ← whole] at last
      simp only [map_cons, map_nil, pieces]
      rw [markerOf_stop, last]
  | cons k rest ih =>
    intro n m whole consecutive numbered
    obtain ⟨⟨gap, behind⟩, later⟩ := consecutive
    obtain ⟨cuts, split, cut, pieces_, length⟩ :=
      ih (n + 1) k (fun j mem => whole j (mem_cons_of_mem _ mem)) later numbered.2
    have front : m.before ++ lead m ++ (trimStart m.matched ++ (gap ++ lead k)) =
        k.before ++ lead k := by
      rw [behind, append_assoc m.before, ← append_assoc (lead m), lead_append]
      simp only [append_assoc]
    refine ⟨(trimStart m.matched, gap ++ lead k) :: cuts, ?_, .next numbered.1 ?_, ?_, ?_⟩
    · rw [flatMap_cons, ← append_assoc, front]
      exact split
    · rw [front]
      exact cut
    · have piece : slice text (markerOf m).stop (markerOf k).start = gap ++ lead k := by
        have middle := slice_middle (m.before ++ m.matched) (gap ++ lead k)
          (cuts.flatMap fun c => c.1 ++ c.2)
        rw [split, markerOf_stop, markerOf_start, behind]
        simp only [append_assoc] at middle ⊢
        exact middle
      simp only [map_cons, pieces] at pieces_ ⊢
      rw [piece, pieces_]
    · rw [length_cons, length, length_cons]

theorem numbered_lines (ms : List Match) (found : ∀ m ∈ ms, Matches LINE_MARKER_RE text m)
    (n : Nat) :
    Numbered (fun _ => LineMarker) n ms := by
  induction ms generalizing n with
  | nil => trivial
  | cons m rest ih =>
    exact ⟨lineMarker_of_match (found m mem_cons_self),
      ih (fun k mem => found k (mem_cons_of_mem _ mem)) (n + 1)⟩

theorem continuing_sublist (n : Nat) (ms : List Match) : (continuing n ms).Sublist ms := by
  induction ms generalizing n with
  | nil => exact .slnil
  | cons m rest ih =>
    unfold continuing
    split
    · exact (ih n).cons m
    · exact (ih (n + 1)).cons_cons m

theorem consecutive_continuing (n : Nat) (ms : List Match) :
    ∀ read, Consecutive read ms → Consecutive read (continuing n ms) := by
  induction ms generalizing n with
  | nil => exact fun _ _ => trivial
  | cons m rest ih =>
    rintro read ⟨⟨gap, behind⟩, later⟩
    unfold continuing
    split
    · apply ih
      rw [behind, append_assoc] at later
      exact later.weaken
    · exact ⟨⟨gap, behind⟩, ih (n + 1) _ later⟩

theorem numbered_continuing (ms : List Match) (found : ∀ m ∈ ms, Matches INLINE_MARKER_RE text m)
    (n : Nat) :
    Numbered InlineMarker n (continuing n ms) := by
  induction ms generalizing n with
  | nil => trivial
  | cons m rest ih =>
    have later := fun k mem => found k (mem_cons_of_mem m mem)
    unfold continuing
    split
    · exact ih later n
    · next expected =>
      have own := inlineMarker_of_match (found m mem_cons_self)
      rw [not_not.mp expected] at own
      exact ⟨own, ih later (n + 1)⟩

/-- Two texts as one, with a space between them when neither is empty. -/
def joined (s t : Text) : Text :=
  if s = [] then t else if t = [] then s else s ++ js " " ++ t

/-- The preamble goes in front of the first piece. -/
def stepsOf (preamble : Text) : List Text → List Text
  | [] => [trim preamble]
  | first :: rest => joined (trim preamble) (trim first) :: rest.map trim

theorem joined_trim (s t : Text) :
    (if trim s = [] then trim t else trim (trim s ++ js " " ++ trim t)) = joined (trim s) (trim t) := by
  have sEnds := trim_ends s
  have tEnds := trim_ends t
  unfold joined
  split
  · rfl
  · next some_ =>
    cases first : trim s with
    | nil => exact absurd first some_
    | cons u rest =>
      rw [first] at sEnds
      split
      · next none_ =>
        rw [none_, append_nil]
        have solid : trim (u :: rest) = u :: rest := trim_eq_self sEnds.1 sEnds.2
        have space : js " " = [0x20] := rfl
        rw [trim] at solid ⊢
        rw [space, cons_append, dropWhile_cons_of_neg (by simp [sEnds.1 u rfl]),
          ← cons_append, rdropWhile_concat_pos isSpace (u :: rest) 0x20 rfl]
        rw [dropWhile_cons_of_neg (by simp [sEnds.1 u rfl])] at solid
        exact solid
      · next some_ =>
        apply trim_eq_self
        · exact sEnds.1
        · rw [getLast?_append_of_ne_nil _ some_]
          exact tEnds.2

theorem withPreamble_pieces (preamble first : Text) (rest : List Text) :
    withPreamble (trim preamble) ((first :: rest).map trim) = stepsOf preamble (first :: rest) := by
  rw [stepsOf, ← joined_trim, map_cons, withPreamble]
  split <;> rfl

/-- The steps of a text that is cut at its first match and the matches behind it. -/
theorem steps_of_cut {IsMarker : Nat → Text → Text → Prop} {rest : List Match}
    (whole : ∀ k ∈ m :: rest, text = k.before ++ k.matched ++ k.after)
    (consecutive : Consecutive [] (m :: rest)) (numbered : Numbered IsMarker 1 (m :: rest)) :
    ∃ preamble cuts, text = preamble ++ cuts.flatMap (fun c => c.1 ++ c.2) ∧
      Cut IsMarker 1 preamble cuts ∧ cuts.length = rest.length + 1 ∧
      withPreamble (trim (text.take (markerOf m).start)) (pieces text ((m :: rest).map markerOf)) =
        stepsOf preamble (cuts.map Prod.snd) := by
  obtain ⟨cuts, split, cut, pieces_, length⟩ := cut_matches rest 1 m whole consecutive.2 numbered
  refine ⟨_, cuts, split, cut, length, ?_⟩
  rw [pieces_]
  cases cuts with
  | nil => cases length
  | cons c cuts =>
    rw [markerOf_start, split, take_left]
    have shape : (c :: cuts).map (fun c => trim c.2) = (c.2 :: cuts.map Prod.snd).map trim := by
      simp
    rw [shape, withPreamble_pieces]
    rfl

/-- A rationale is cut at line markers, at least two, or at the numbers of a sequence in running
text; its steps are the texts between them. -/
theorem rationale_split (rationale : Text) :
    ∃ preamble cuts, trim rationale = preamble ++ cuts.flatMap (fun c => c.1 ++ c.2) ∧
      ((2 ≤ cuts.length ∧ Cut (fun _ => LineMarker) 1 preamble cuts) ∨
        Cut InlineMarker 1 preamble cuts) ∧
      splitRationaleSteps rationale = (stepsOf preamble (cuts.map Prod.snd)).filter (· ≠ []) := by
  unfold splitRationaleSteps
  dsimp only
  split
  · next none_ => exact ⟨[], [], none_, .inr .done, rfl⟩
  · next some_ =>
    generalize text_ : trim rationale = text at some_
    have trimmed : trim text = text := by rw [← text_, trim_trim]
    by_cases two : 2 ≤ (lineMarkers text).length
    · rw [if_pos two]
      obtain ⟨found, consecutive⟩ := matchAll_spec LINE_MARKER_RE text
      have lines : lineMarkers text = (matchAll LINE_MARKER_RE text).map markerOf := rfl
      rw [lines] at two ⊢
      cases ms : matchAll LINE_MARKER_RE text with
      | nil =>
        rw [ms] at two
        cases two
      | cons m rest =>
        rw [ms] at found consecutive two
        obtain ⟨preamble, cuts, split, cut, length, steps⟩ :=
          steps_of_cut (fun k mem => (found k mem).1) consecutive (numbered_lines _ found 1)
        rw [length_map, length_cons] at two
        refine ⟨preamble, cuts, split, .inl ⟨by omega, cut⟩, ?_⟩
        rw [← steps]
        rfl
    · rw [if_neg two]
      obtain ⟨found, consecutive⟩ := matchAll_spec INLINE_MARKER_RE text
      have sub := continuing_sublist 1 (matchAll INLINE_MARKER_RE text)
      have consecutive := consecutive_continuing 1 _ _ consecutive
      have numbered := numbered_continuing _ found 1
      rw [sequentialInlineMarkers]
      cases ms : continuing 1 (matchAll INLINE_MARKER_RE text) with
      | nil =>
        refine ⟨text, [], (append_nil text).symm, .inr .done, ?_⟩
        simp only [map_nil, stepsOf, trimmed]
        symm
        rw [filter_cons_of_pos (by simpa using some_), filter_nil]
      | cons m rest =>
        rw [ms] at sub consecutive numbered
        obtain ⟨preamble, cuts, split, cut, -, steps⟩ :=
          steps_of_cut (fun k mem => (found k (sub.subset mem)).1) consecutive numbered
        refine ⟨preamble, cuts, split, .inr cut, ?_⟩
        rw [← steps]
        rfl

end Ultrathink.Guarantees.RationaleSplit
