import Ultrathink.Source.Uplift.Skill

/-!
# What the user typed beside a skill

The markers are looked for in text that the skill's author and the user wrote, so the
instruction is found where neither wrote one of the host's markers. Which invocations that
are, host by host; and that skill text is taken for the instruction elsewhere.
-/

namespace Ultrathink.Guarantees.SkillScaffold

open List Library JsText Search Source.Uplift.Skill

/-- The parser gives back the user's trimmed text, or undefined when there was none. -/
def Right (host : Host) (x : Invocation) (first second : Text) : Prop :=
  (parseSkillScaffold (scaffold host x first second)).map SkillInvocation.instruction =
    some (x.instruction.bind nonEmpty)

/-- Neither the name nor the instruction holds a marker that the parser looks for there, nor
does the body of a Hermes skill that was invoked without an instruction. -/
def Clear (host : Host) (x : Invocation) (body : Text) : Prop :=
  match host with
  | .omp => x.name ≠ [] ∧ ∀ i ∈ x.instruction, ¬ompDir <:+: i
  | .hermes _ =>
    ¬bundleMark <:+: x.name.takeWhile (· ≠ newline) ∧
      match x.instruction with
      | none => ¬hermesInstruction <:+: body
      | some i => ¬hermesInstruction <:+: i ∧ ¬hermesRuntime <:+: i
  | .hermesBundle => newline ∉ x.name ∧ ∀ i ∈ x.instruction, ¬bundleEnd <:+: i

/-- A skill that was invoked without an instruction. -/
def bareSkill : Invocation :=
  ⟨js "research", by decide +kernel, [], by decide +kernel, none⟩

/-- How many units are not white space. -/
def weight (t : Text) : Nat := t.countP fun u => !isSpace u

@[simp] theorem weight_append (s t : Text) : weight (s ++ t) = weight s + weight t :=
  countP_append

variable {name t front i rest q tail : Text}

theorem weight_of_spaces (spaces : ∀ u ∈ t, isSpace u) : weight t = 0 := by
  rw [weight, countP_eq_zero]
  intro u mem
  simp [spaces u mem]

theorem weight_pos (some_ : t.any (!isSpace ·) = true) : 0 < weight t := by
  rw [weight, countP_pos_iff]
  exact any_eq_true.mp some_

theorem weight_trim (t : Text) : weight (trim t) = weight t := by
  obtain ⟨lead, trail, same, before, after⟩ := trim_decompose t
  have whole := congrArg weight same
  simp only [weight_append, weight_of_spaces before, weight_of_spaces after] at whole
  omega

variable {s marker header : Text} {host : Host} {x : Invocation}

theorem weight_of_infix (inside : s <:+: t) : weight s ≤ weight t :=
  inside.sublist.countP_le

theorem nonEmpty_none (empty : nonEmpty t = none) : weight t = 0 := by
  unfold nonEmpty at empty
  dsimp only at empty
  split at empty
  next blank =>
    rw [← weight_trim, blank]
    rfl
  · cases empty

theorem nonEmpty_weight (same : nonEmpty s = nonEmpty t) : weight s = weight t := by
  cases value : nonEmpty t with
  | none =>
    rw [value] at same
    rw [nonEmpty_none same, nonEmpty_none value]
  | some text =>
    rw [value] at same
    have trimmed : ∀ r : Text, nonEmpty r = some text → trim r = text := by
      intro r given
      unfold nonEmpty at given
      dsimp only at given
      split at given
      · cases given
      · exact Option.some.inj given
    rw [← weight_trim s, ← weight_trim t, trimmed s same, trimmed t value]

theorem nonEmpty_ne {part : Text} (heavy : 0 < weight marker)
    (less : weight part + weight marker ≤ weight i) : nonEmpty part ≠ nonEmpty i := by
  intro same
  have := nonEmpty_weight same
  omega

theorem nonEmpty_ne_none (inside : marker <:+: i) (heavy : 0 < weight marker) :
    nonEmpty i ≠ none := by
  intro empty
  have := nonEmpty_none empty
  have := weight_of_infix inside
  omega

theorem dropWhile_of_bracket (bracket : front.head? = some 0x5B) :
    (front ++ t).dropWhile isSpace = front ++ t := by
  obtain ⟨rest, rfl⟩ := head?_eq_some_iff.mp bracket
  rw [cons_append, dropWhile_cons_of_neg (by decide)]

theorem takeWhile_name {u : UInt16} (free : u ∉ name) :
    (name ++ u :: rest).takeWhile (· ≠ u) = name := by
  rw [takeWhile_append_of_pos]
  · simp
  · intro v mem
    simp only [ne_eq, decide_eq_true_eq]
    rintro rfl
    exact free mem

theorem free_line (absent : newline ∉ t) : ∀ u ∈ t, decide (u ≠ newline) = true := by
  intro u mem
  simp only [ne_eq, decide_eq_true_eq]
  rintro rfl
  exact absent mem

theorem ompPrefixExec_eq (free : doubleQuote ∉ name) (rest : Text) :
    ompPrefixExec (ompHead ++ (name ++ (ompTail ++ rest))) =
      if name = [] then none
      else some (name, ompHead.length + name.length + ompTail.length) := by
  have named : (name ++ (ompTail ++ rest)).takeWhile (· ≠ doubleQuote) = name := by
    obtain ⟨inner, same⟩ := head?_eq_some_iff.mp markers.ompTail_head
    rw [same, cons_append]
    exact takeWhile_name free
  have tail : ompTail.isPrefixOf (ompTail ++ rest) = true := by simp
  unfold ompPrefixExec
  simp only [drop_left, named, tail]
  simp

theorem not_hermes (t : Text) : hermesHead.isPrefixOf (ompHead ++ t) = false := by
  rw [Bool.eq_false_iff, Ne, isPrefixOf_iff_prefix]
  intro here
  have short := (prefix_append (hermesHead.take 13) (hermesHead.drop 13)).trans
    ((take_append_drop 13 hermesHead).symm ▸ here)
  have both := prefix_of_prefix_length_le short (prefix_append ompHead t)
    markers.hermes_long
  exact markers.hermes_other both

theorem omp_parsed (x : Invocation) (body : Text) :
    (parseSkillScaffold (ompScaffold x body)).map SkillInvocation.instruction =
      if x.name = [] then none
      else some (ompInstruction (ompScaffold x body)) := by
  have shape : ∃ rest, ompScaffold x body = ompHead ++ (x.name ++ (ompTail ++ rest)) :=
    ⟨js "\n\n" ++ (body ++ js "\n\n---\n") ++ (ompDir ++ (x.dir ++ (ompResolve ++ ompTyped x.instruction))),
      by simp only [ompScaffold, append_assoc]⟩
  obtain ⟨rest, shape⟩ := shape
  have kept : (ompScaffold x body).dropWhile isSpace = ompScaffold x body := by
    rw [shape]
    exact dropWhile_of_bracket markers.ompHead_bracket
  unfold parseSkillScaffold
  dsimp only
  rw [kept, shape, ompPrefixExec_eq x.quoteFree]
  by_cases empty : x.name = []
  · simp [empty, not_hermes]
  · simp [empty, ompInvocation]

/-- What stands after the directory marker. -/
def ompRest (x : Invocation) : Text := x.dir ++ ompResolve

theorem ompRest_user (x : Invocation) : ¬ompUser <:+: ompRest x := by
  intro inside
  have dirApart := apart_of_head_not_mem markers.ompUser_head x.dirLine
  exact not_infix_of_apart markers.ompUser_alone.1 markers.resolve_user (infix_of_apart dirApart inside)

theorem ompRest_dir (x : Invocation) (inside : ompDir <:+: ompRest x ++ t) :
    ompDir <:+: t := by
  have dirApart := apart_of_head_not_mem markers.ompDir_head x.dirLine
  rw [ompRest, append_assoc] at inside
  exact infix_of_apart markers.resolve_dir (infix_of_apart dirApart inside)

theorem omp_none (x : Invocation) :
    ompInstruction (front ++ (ompDir ++ ompRest x)) = none := by
  have free : ¬ompDir <:+: ompRest x := by
    intro inside
    rw [← append_nil (ompRest x)] at inside
    exact markers.ompDir_alone.1 (infix_nil.mp (ompRest_dir x inside))
  rw [ompInstruction, markers.ompDir_alone.lastIndexOf_eq free, Option.bind_some, indexFrom,
    ← append_assoc, ← length_append, drop_left, (indexOf_none_iff markers.ompUser_alone.1).mpr (ompRest_user x)]
  rfl

theorem omp_some (x : Invocation) (free : ¬ompDir <:+: i) :
    ompInstruction (front ++ (ompDir ++ (ompRest x ++ (ompUser ++ i)))) = nonEmpty i := by
  let text := front ++ (ompDir ++ (ompRest x ++ (ompUser ++ i)))
  have rest : ¬ompDir <:+: ompRest x ++ (ompUser ++ i) := fun inside =>
    free (infix_of_apart markers.user_dir (ompRest_dir x inside))
  have behind : text.drop (front.length + ompDir.length) = ompRest x ++ (ompUser ++ i) := by
    rw [← length_append]
    simp only [text]
    rw [← append_assoc, drop_left]
  rw [ompInstruction, markers.ompDir_alone.lastIndexOf_eq rest, Option.bind_some, indexFrom, behind,
    markers.ompUser_alone.indexOf_eq (ompRest_user x), Option.map_some, Option.bind_some]
  have last : text.drop ((ompRest x).length + (front.length + ompDir.length) + ompUser.length) = i := by
    have order : (ompRest x).length + (front.length + ompDir.length) + ompUser.length =
        (front.length + ompDir.length) + (ompRest x ++ ompUser).length := by
      rw [length_append]
      omega
    rw [order, ← drop_drop, behind, ← append_assoc, drop_left]
  rw [last]

theorem omp_hidden (inside : ompDir <:+: i) :
    ompInstruction (front ++ i) ≠ nonEmpty i := by
  have heavy := weight_pos markers.ompDir_heavy
  have found : lastIndexOf ompDir i ≠ none := by
    rw [Ne, lastIndexOf_none_iff markers.ompDir_alone.1, not_not]
    exact inside
  obtain ⟨k, found⟩ := Option.ne_none_iff_exists'.mp found
  obtain ⟨rest, same, within⟩ := lastIndexOf_split found
  rw [ompInstruction, lastIndexOf_append found, Option.bind_some]
  cases user : indexFrom ompUser (front ++ i) (front.length + k + ompDir.length) with
  | none => exact fun empty => nonEmpty_ne_none inside heavy empty.symm
  | some userAt =>
    rw [Option.bind_some]
    apply nonEmpty_ne heavy
    have least : front.length + k + ompDir.length ≤ userAt + ompUser.length := by
      obtain ⟨j, -, rfl⟩ := Option.map_eq_some_iff.mp user
      omega
    obtain ⟨more, later⟩ := Nat.exists_eq_add_of_le least
    have behind : (front ++ i).drop (front.length + k + ompDir.length) = rest := by
      have front_ : (i.take k ++ ompDir).length = k + ompDir.length := by
        rw [length_append, length_take_of_le (by omega)]
      have whole := congrArg (List.drop (k + ompDir.length)) same
      rw [Nat.add_assoc, drop_length_add_append, whole, ← front_, drop_left]
    rw [later, ← drop_drop, behind]
    have whole := congrArg weight same
    simp only [weight_append] at whole
    have part := weight_of_infix (drop_suffix more rest).isInfix
    omega

theorem omp_right_iff (x : Invocation) (first second : Text) :
    Right .omp x first second ↔ Clear .omp x first := by
  unfold Right Clear scaffold
  dsimp only
  rw [omp_parsed]
  by_cases empty : x.name = []
  · simp [empty]
  rw [if_neg empty]
  simp only [Option.some.injEq, ne_eq, empty, not_false_eq_true, true_and]
  unfold ompScaffold
  rw [← append_assoc x.dir, ← ompRest]
  cases given : x.instruction with
  | none =>
    rw [ompTyped, append_nil, omp_none]
    simp
  | some i =>
    rw [ompTyped, Option.bind_some]
    constructor
    · intro right i' mem inside
      cases mem
      simp only [← append_assoc] at right
      exact omp_hidden inside right
    · intro free
      exact omp_some x (free i rfl)

theorem ompPrefixExec_hermes (t : Text) : ompPrefixExec (hermesHead ++ t) = none := by
  have other : ompHead.isPrefixOf (hermesHead ++ t) = false := by
    rw [Bool.eq_false_iff, Ne, isPrefixOf_iff_prefix]
    intro here
    have both := prefix_of_prefix_length_le here (prefix_append hermesHead t)
      markers.omp_long
    exact markers.omp_other both
  simp [ompPrefixExec, other]

theorem hermes_parsed (free : doubleQuote ∉ name) (quoted : tail.head? = some doubleQuote)
    (rest : Text) :
    let text := hermesHead ++ name ++ tail ++ rest
    parseSkillScaffold text =
      if includes (text.takeWhile (· ≠ newline)) bundleMark then
        some (bundleInvocation text name (text.takeWhile (· ≠ newline)))
      else if !hermesSingleTail.isPrefixOf (tail ++ rest) then none
      else some (singleInvocation text name
        ((hermesHead ++ name).length + hermesSingleTail.length)) := by
  intro text
  obtain ⟨inner, rfl⟩ := head?_eq_some_iff.mp quoted
  have shape : text = hermesHead ++ (name ++ ([doubleQuote] ++ (inner ++ rest))) := by
    simp [text]
  have kept : text.dropWhile isSpace = text := by
    rw [shape]
    exact dropWhile_of_bracket markers.hermesHead_bracket
  have omp : ompPrefixExec text = none := by
    rw [shape]
    exact ompPrefixExec_hermes _
  have head : hermesHead.isPrefixOf text = true := by
    rw [shape]
    simp
  have quote_ : indexFrom [doubleQuote] text hermesHead.length =
      some (hermesHead ++ name).length := by
    have absent : ¬[doubleQuote] <:+: name := fun inside =>
      free ((singleton_infix_iff _ _).mp inside)
    rw [indexFrom, shape, drop_left, markers.quote_alone.indexOf_eq absent, Option.map_some,
      length_append, Nat.add_comm]
  have named : slice hermesHead.length (some (hermesHead ++ name).length) text = name := by
    have whole : text = (hermesHead ++ name) ++ ([doubleQuote] ++ (inner ++ rest)) := by simp [text]
    rw [slice, whole, take_left, drop_left]
  have behind : text.drop (hermesHead ++ name).length = doubleQuote :: inner ++ rest := by
    have whole : text = (hermesHead ++ name) ++ (doubleQuote :: inner ++ rest) := by simp [text]
    rw [whole, drop_left]
  unfold parseSkillScaffold
  dsimp only
  rw [kept, omp]
  simp only [head, quote_, named, behind, Bool.not_true, Bool.false_eq_true, if_false]

/-- Everything of a Hermes scaffold before its body. -/
def hermesFront (name : Text) : Text := hermesHead ++ name ++ hermesSingleTail

theorem header_iff (quoted : tail.head? = some doubleQuote) (line : newline ∉ tail)
    (unmarked : ¬bundleMark <:+: tail) (broken : rest.head? = some newline) :
    includes ((hermesHead ++ name ++ tail ++ rest).takeWhile (· ≠ newline)) bundleMark = true ↔
      bundleMark <:+: name.takeWhile (· ≠ newline) := by
  obtain ⟨inner, rfl⟩ := head?_eq_some_iff.mp quoted
  obtain ⟨rest, rfl⟩ := head?_eq_some_iff.mp broken
  have unquoted := markers.mark_unquoted
  have before : ∀ t : Text, bundleMark <:+: hermesHead ++ t → bundleMark <:+: t := by
    intro t inside
    rw [markers.hermesHead_quote, append_assoc] at inside
    rcases infix_or_of_not_mem unquoted inside with first | second
    · exact absurd first ((indexOf_none_iff markers.mark_some).mp markers.hermesHead_unmarked)
    · exact second
  rw [includes_iff markers.mark_some, append_assoc, append_assoc,
    takeWhile_append_of_pos (free_line markers.hermesHead_line)]
  by_cases broken : newline ∈ name
  · have cut : (name ++ (doubleQuote :: inner ++ newline :: rest)).takeWhile (· ≠ newline) =
        name.takeWhile (· ≠ newline) := by
      rw [takeWhile_append, if_neg]
      intro whole
      have all := takeWhile_eq_self_iff.mp
        ((List.takeWhile_prefix _).eq_of_length whole) newline broken
      simp at all
    rw [cut]
    exact ⟨before _, fun inside => inside.trans (suffix_append _ _).isInfix⟩
  · have whole : name.takeWhile (· ≠ newline) = name :=
      takeWhile_eq_self_iff.mpr (free_line broken)
    have cut : (name ++ (doubleQuote :: inner ++ newline :: rest)).takeWhile (· ≠ newline) =
        name ++ doubleQuote :: inner := by
      rw [takeWhile_append_of_pos (free_line broken),
        takeWhile_append_of_pos (free_line line)]
      simp
    rw [cut, whole]
    constructor
    · intro inside
      rcases infix_or_of_not_mem unquoted (before _ inside) with first | second
      · exact first
      · exact absurd (infix_cons second) unmarked
    · intro inside
      exact (inside.trans (prefix_append _ _).isInfix).trans (suffix_append _ _).isInfix

/-- What is left of the text up to the runtime note. -/
def cut (rest : Text) : Text := slice 0 (indexOf hermesRuntime rest) rest

theorem cut_note (free : ¬hermesRuntime <:+: q) (note : Bool) :
    cut (q ++ runtimeNote note) = q := by
  cases note with
  | false =>
    rw [runtimeNote, if_neg (by decide), append_nil, cut,
      (indexOf_none_iff markers.hermesRuntime_alone.1).mpr free]
    rfl
  | true =>
    rw [runtimeNote, if_pos rfl, cut, markers.hermesRuntime_alone.indexOf_eq free]
    exact take_left

theorem cut_short (inside : hermesRuntime <:+: q) (note : Bool) :
    weight (cut (q ++ runtimeNote note)) + weight hermesRuntime ≤ weight q := by
  have found : indexOf hermesRuntime q ≠ none := by
    rw [Ne, indexOf_none_iff markers.hermesRuntime_alone.1, not_not]
    exact inside
  obtain ⟨j, found⟩ := Option.ne_none_iff_exists'.mp found
  obtain ⟨rest, same, within⟩ := indexOf_split found
  have part : cut (q ++ runtimeNote note) = q.take j := by
    rw [cut, indexOf_append found]
    exact take_append_of_le_length (by omega)
  rw [part]
  have whole := congrArg weight same
  simp only [weight_append] at whole
  omega

theorem cut_le (q : Text) (note : Bool) : weight (cut (q ++ runtimeNote note)) ≤ weight q := by
  by_cases inside : hermesRuntime <:+: q
  · have := cut_short inside note
    omega
  · rw [cut_note inside]

theorem instruction_note (free : ¬hermesInstruction <:+: q) (note : Bool) :
    ¬hermesInstruction <:+: q ++ runtimeNote note := by
  intro inside
  cases note with
  | false => exact free (by simpa [runtimeNote] using inside)
  | true =>
    obtain ⟨inner, same⟩ := head?_eq_some_iff.mp markers.note_head
    have behind := not_infix_of_apart markers.hermesInstruction_alone.1 markers.note_free
    rw [same] at inside behind
    rcases infix_or_of_not_mem markers.instruction_line inside with first | second
    · exact free first
    · exact behind second

theorem single_marked {gap : Text} (free : ¬hermesInstruction <:+: q) (note : Bool) :
    (singleInvocation (front ++ gap ++ (hermesInstruction ++ (q ++ runtimeNote note))) name
      front.length).instruction = nonEmpty (cut (q ++ runtimeNote note)) := by
  have at_ : lastIndexOf hermesInstruction
      (front ++ gap ++ (hermesInstruction ++ (q ++ runtimeNote note))) =
        some (front ++ gap).length :=
    markers.hermesInstruction_alone.lastIndexOf_eq (instruction_note free note)
  have within : decide (front.length ≤ (front ++ gap).length) = true := by simp
  have behind : (front ++ gap ++ (hermesInstruction ++ (q ++ runtimeNote note))).drop
      ((front ++ gap).length + hermesInstruction.length) = q ++ runtimeNote note := by
    rw [← length_append, ← append_assoc, drop_left]
  unfold singleInvocation
  rw [at_, Option.filter_some, if_pos within]
  dsimp only
  rw [behind]
  rfl

theorem single_unmarked (free : ¬hermesInstruction <:+: rest) :
    (singleInvocation (front ++ rest) name front.length).instruction = none := by
  have none_ : (lastIndexOf hermesInstruction (front ++ rest)).filter (front.length ≤ ·) = none := by
    rw [Option.filter_eq_none_iff]
    intro at_ found
    simp only [decide_eq_true_eq]
    intro within
    obtain ⟨tail, same, -⟩ := lastIndexOf_split found
    apply free
    have behind := congrArg (List.drop front.length) same
    rw [drop_left, append_assoc] at behind
    have le : front.length ≤ ((front ++ rest).take at_).length := by
      obtain ⟨-, -, bound⟩ := lastIndexOf_split found
      rw [length_take]
      omega
    rw [drop_append_of_le_length le] at behind
    rw [behind]
    exact ⟨_, tail, append_assoc _ _ _⟩
  unfold singleInvocation
  rw [none_]

section Hermes
variable (note : Bool) (x : Invocation)

theorem hermes_single (unmarked : ¬bundleMark <:+: x.name.takeWhile (· ≠ newline)) (body : Text) :
    (parseSkillScaffold (hermesScaffold note x body)).map SkillInvocation.instruction =
      some (singleInvocation (hermesScaffold note x body) x.name
        (hermesFront x.name).length).instruction := by
  have quoted := markers.single_head
  have shape : hermesScaffold note x body = hermesHead ++ x.name ++ hermesSingleTail ++
      (js "\n\n" ++ (body ++ hermesTyped note x.instruction)) := by
    simp only [hermesScaffold, append_assoc]
  have broken : (js "\n\n" ++ (body ++ hermesTyped note x.instruction)).head? = some newline := by
    obtain ⟨inner, same⟩ := head?_eq_some_iff.mp markers.gap_head
    rw [same]
    rfl
  have plain := mt (header_iff quoted markers.single_line
    (not_infix_of_apart markers.mark_some markers.single_unmarked) broken).mp unmarked
  have tail : ∀ t : Text, hermesSingleTail.isPrefixOf (hermesSingleTail ++ t) = true := by simp
  rw [shape, hermes_parsed x.quoteFree quoted, if_neg plain, tail, hermesFront,
    @List.length_append _ (hermesHead ++ x.name)]
  rfl

theorem hermes_none (none_ : x.instruction = none)
    (unmarked : ¬bundleMark <:+: x.name.takeWhile (· ≠ newline)) {body : Text}
    (free : ¬hermesInstruction <:+: body) (second : Text) : Right (.hermes note) x body second := by
  have rest : ¬hermesInstruction <:+: js "\n\n" ++ (body ++ runtimeNote note) := fun inside =>
    instruction_note free note (infix_of_apart markers.gap_instruction inside)
  have front : hermesScaffold note x body =
      hermesFront x.name ++ (js "\n\n" ++ (body ++ runtimeNote note)) := by
    simp [hermesScaffold, hermesFront, none_, hermesTyped]
  rw [Right, scaffold, hermes_single note x unmarked, front, single_unmarked rest, none_]
  rfl

theorem hermes_decoy (none_ : x.instruction = none)
    (unmarked : ¬bundleMark <:+: x.name.takeWhile (· ≠ newline)) (second : Text) :
    ¬Right (.hermes note) x (hermesInstruction ++ js "x") second := by
  have front : hermesScaffold note x (hermesInstruction ++ js "x") =
      hermesFront x.name ++ js "\n\n" ++ (hermesInstruction ++ (js "x" ++ runtimeNote note)) := by
    simp [hermesScaffold, hermesFront, none_, hermesTyped]
  rw [Right, scaffold, hermes_single note x unmarked, front,
    single_marked (not_infix_of_apart markers.hermesInstruction_alone.1 markers.decoy_instruction),
    cut_note (not_infix_of_apart markers.hermesRuntime_alone.1 markers.decoy_runtime), none_,
    Option.some.injEq]
  exact markers.decoy.1

theorem hermes_some (given : x.instruction = some i)
    (unmarked : ¬bundleMark <:+: x.name.takeWhile (· ≠ newline)) (body second : Text) :
    Right (.hermes note) x body second ↔ ¬hermesInstruction <:+: i ∧ ¬hermesRuntime <:+: i := by
  have front : hermesScaffold note x body =
      hermesFront x.name ++ (js "\n\n" ++ body ++ js "\n\n") ++
        (hermesInstruction ++ (i ++ runtimeNote note)) := by
    simp [hermesScaffold, hermesFront, given, hermesTyped]
  have heavy := weight_pos markers.instruction_heavy
  rw [Right, scaffold, hermes_single note x unmarked, given, Option.bind_some, Option.some.injEq]
  by_cases inside : hermesInstruction <:+: i
  · -- the marker that counts is the last one of the instruction
    have found : lastIndexOf hermesInstruction i ≠ none := by
      rw [Ne, lastIndexOf_none_iff markers.hermesInstruction_alone.1, not_not]
      exact inside
    obtain ⟨k, found⟩ := Option.ne_none_iff_exists'.mp found
    obtain ⟨q, same, within⟩ := lastIndexOf_split found
    have rest := lastIndexOf_rest markers.hermesInstruction_alone.1 found
    have behind : i.drop (k + hermesInstruction.length) = q := by
      have front_ : (i.take k ++ hermesInstruction).length = k + hermesInstruction.length := by
        rw [length_append, length_take_of_le (by omega)]
      have whole := congrArg (List.drop (k + hermesInstruction.length)) same
      rw [whole, ← front_, drop_left]
    rw [behind] at rest
    have moved : hermesScaffold note x body = hermesFront x.name ++ ((js "\n\n" ++ body ++ js "\n\n") ++
        hermesInstruction ++ i.take k) ++ (hermesInstruction ++ (q ++ runtimeNote note)) := by
      rw [front]
      conv_lhs => rw [same]
      simp only [append_assoc]
    rw [moved, single_marked rest]
    simp only [inside, not_true, false_and, iff_false]
    apply nonEmpty_ne heavy
    have whole := congrArg weight same
    simp only [weight_append] at whole
    have := cut_le q note
    omega
  · rw [front, single_marked inside]
    by_cases runtime : hermesRuntime <:+: i
    · simp only [runtime, not_true, and_false, iff_false]
      exact nonEmpty_ne (weight_pos markers.runtime_heavy) (cut_short runtime note)
    · rw [cut_note runtime]
      simp [inside, runtime]

end Hermes

theorem bundle_between (line : newline ∉ front) (gap : Text) (gapFree : ¬bundleInstruction <:+: gap)
    (endFree : apart bundleEnd (gap ++ bundleInstruction) = true) (free : ¬bundleEnd <:+: i) :
    (bundleInvocation (front ++ (gap ++ (bundleInstruction ++ (i ++ (bundleEnd ++ rest))))) name
      header).instruction = nonEmpty i := by
  have first := apart_of_head_not_mem markers.bundleInstruction_head line
  have last := apart_of_head_not_mem markers.bundleEnd_head line
  have at_ : indexOf bundleInstruction
      (front ++ (gap ++ (bundleInstruction ++ (i ++ (bundleEnd ++ rest))))) =
        some (front.length + gap.length) := by
    rw [indexOf_of_apart first, markers.bundleInstruction_alone.indexOf_eq gapFree]
    rfl
  have loadedAt : indexOf bundleEnd
      (front ++ (gap ++ (bundleInstruction ++ (i ++ (bundleEnd ++ rest))))) =
        some (front.length + ((gap ++ bundleInstruction).length + i.length)) := by
    rw [indexOf_of_apart last, ← append_assoc gap, indexOf_of_apart endFree,
      markers.bundleEnd_alone.indexOf_eq free]
    rfl
  have before : (some (front.length + ((gap ++ bundleInstruction).length + i.length))).all
      (fun loadedAt => decide (front.length + gap.length < loadedAt)) = true := by
    have positive := length_pos_of_ne_nil markers.bundleInstruction_alone.1
    simp only [Option.all_some, decide_eq_true_eq, length_append]
    omega
  unfold bundleInvocation
  dsimp only
  rw [at_, loadedAt, Option.filter_some, if_pos before]
  dsimp only
  have shape : front ++ (gap ++ (bundleInstruction ++ (i ++ (bundleEnd ++ rest)))) =
      (front ++ gap ++ bundleInstruction) ++ i ++ (bundleEnd ++ rest) := by
    simp only [append_assoc]
  have stop : front.length + ((gap ++ bundleInstruction).length + i.length) =
      ((front ++ gap ++ bundleInstruction) ++ i).length := by
    simp only [length_append]
    omega
  have start_ : front.length + gap.length + bundleInstruction.length =
      (front ++ gap ++ bundleInstruction).length := by
    simp only [length_append]
  rw [slice, shape, stop, take_left, start_, drop_left]

theorem bundle_parsed (free : doubleQuote ∉ name) (line : newline ∉ name)
    (quoted : tail.head? = some doubleQuote) (tailLine : newline ∉ tail)
    (marked : bundleMark <:+: name ++ tail) (broken : rest.head? = some newline) :
    (parseSkillScaffold (hermesHead ++ name ++ tail ++ rest)).map SkillInvocation.instruction =
      some (bundleInvocation (hermesHead ++ name ++ tail ++ rest) name
        (hermesHead ++ name ++ tail)).instruction := by
  have front : newline ∉ hermesHead ++ name ++ tail := by
    simp only [mem_append, not_or]
    exact ⟨⟨markers.hermesHead_line, line⟩, tailLine⟩
  have header : (hermesHead ++ name ++ tail ++ rest).takeWhile (· ≠ newline) =
      hermesHead ++ name ++ tail := by
    obtain ⟨inner, rfl⟩ := head?_eq_some_iff.mp broken
    rw [takeWhile_append_of_pos (free_line front)]
    simp
  have names : includes (hermesHead ++ name ++ tail) bundleMark = true := by
    rw [includes_iff markers.mark_some, append_assoc]
    exact marked.trans (suffix_append _ _).isInfix
  rw [hermes_parsed free quoted, header, if_pos names]
  rfl

section Bundle
variable (x : Invocation)

theorem bundleFront_line (line : newline ∉ x.name) : newline ∉ hermesHead ++ x.name ++ bundleTail := by
  simp only [mem_append, not_or]
  exact ⟨⟨markers.hermesHead_line, line⟩, markers.bundleTail_line⟩

theorem bundle_instruction (line : newline ∉ x.name) (rest : Text)
    (broken : rest.head? = some newline) :
    (parseSkillScaffold (hermesHead ++ x.name ++ bundleTail ++ rest)).map
        SkillInvocation.instruction =
      some (bundleInvocation (hermesHead ++ x.name ++ bundleTail ++ rest) x.name
        (hermesHead ++ x.name ++ bundleTail)).instruction := by
  exact bundle_parsed x.quoteFree line markers.bundleTail_head markers.bundleTail_line
    (((includes_iff markers.mark_some).mp markers.bundleTail_marked).trans (suffix_append _ _).isInfix) broken

theorem bundle_none (line : newline ∉ front) :
    (bundleInvocation (front ++ (bundleEnd ++ rest)) name header).instruction = none := by
  have first := apart_of_head_not_mem markers.bundleInstruction_head line
  have last := apart_of_head_not_mem markers.bundleEnd_head line
  have here := @Unbordered.indexOf_eq _ _ _ [] rest markers.bundleEnd_alone
    (fun bad => markers.bundleEnd_alone.1 (infix_nil.mp bad))
  rw [nil_append] at here
  have late : (indexOf bundleInstruction (front ++ (bundleEnd ++ rest))).filter (fun at_ =>
      (indexOf bundleEnd (front ++ (bundleEnd ++ rest))).all (at_ < ·)) = none := by
    rw [Option.filter_eq_none_iff]
    intro at_ found
    rw [indexOf_of_apart first] at found
    obtain ⟨j, -, rfl⟩ := Option.map_eq_some_iff.mp found
    rw [indexOf_of_apart last, here]
    simp
  unfold bundleInvocation
  dsimp only
  rw [late]

theorem bundle_right_iff (line : newline ∉ x.name) (first second : Text) :
    Right .hermesBundle x first second ↔ ∀ i ∈ x.instruction, ¬bundleEnd <:+: i := by
  have front := bundleFront_line x line
  rw [Right, scaffold]
  cases given : x.instruction with
  | none =>
    let rest := x.name ++ (js " bundle]\n" ++ first) ++ loadedSkill x.name second
    have shape : bundleScaffold x first second =
        hermesHead ++ x.name ++ bundleTail ++ (bundleEnd ++ rest) := by
      simp [bundleScaffold, given, bundleTyped, loadedSkill, rest]
    have broken : (bundleEnd ++ rest).head? = some newline := by
      obtain ⟨inner, same⟩ := head?_eq_some_iff.mp markers.bundleEnd_head
      rw [same]
      rfl
    rw [shape, bundle_instruction x line _ broken, bundle_none front]
    simp
  | some i =>
    let rest := x.name ++ (js " bundle]\n" ++ first) ++ loadedSkill x.name second
    have shape : bundleScaffold x first second = hermesHead ++ x.name ++ bundleTail ++
        (js "\n" ++ (bundleInstruction ++ (i ++ (bundleEnd ++ rest)))) := by
      simp [bundleScaffold, given, bundleTyped, loadedSkill, rest]
    have broken : (js "\n" ++ (bundleInstruction ++ (i ++ (bundleEnd ++ rest)))).head? =
        some newline := by
      obtain ⟨inner, same⟩ := head?_eq_some_iff.mp markers.line_head
      rw [same]
      rfl
    rw [shape, bundle_instruction x line _ broken, Option.bind_some, Option.some.injEq]
    simp only [Option.mem_def, Option.some.injEq, forall_eq']
    by_cases inside : bundleEnd <:+: i
    · -- the instruction ends where it names a loaded skill
      have found : indexOf bundleEnd i ≠ none := by
        rw [Ne, indexOf_none_iff markers.bundleEnd_alone.1, not_not]
        exact inside
      obtain ⟨j, found⟩ := Option.ne_none_iff_exists'.mp found
      obtain ⟨tail, same, -⟩ := indexOf_split found
      have moved : i ++ (bundleEnd ++ rest) =
          i.take j ++ (bundleEnd ++ (tail ++ (bundleEnd ++ rest))) := by
        conv_lhs => rw [same]
        simp only [append_assoc]
      rw [moved, bundle_between front (js "\n")
        ((indexOf_none_iff markers.bundleInstruction_alone.1).mp markers.line_instruction) markers.line_end
        (indexOf_before found markers.bundleEnd_alone.1)]
      simp only [inside, not_true, iff_false]
      apply nonEmpty_ne (weight_pos markers.bundleEnd_heavy)
      have whole := congrArg weight same
      simp only [weight_append] at whole
      omega
    · rw [bundle_between front (js "\n")
        ((indexOf_none_iff markers.bundleInstruction_alone.1).mp markers.line_instruction) markers.line_end inside]
      simp [inside]

theorem hermes_named_bundle (note : Bool) (line : newline ∉ x.name) (marked : bundleMark <:+: x.name)
    {d : Text} (free : ¬bundleEnd <:+: d) :
    (parseSkillScaffold (hermesScaffold note x (bundleInstruction ++ (d ++ bundleEnd)))).map
      SkillInvocation.instruction = some (nonEmpty d) := by
  have front : newline ∉ hermesHead ++ x.name ++ hermesSingleTail := by
    simp only [mem_append, not_or]
    exact ⟨⟨markers.hermesHead_line, line⟩, markers.single_line⟩
  have shape : hermesScaffold note x (bundleInstruction ++ (d ++ bundleEnd)) =
      hermesHead ++ x.name ++ hermesSingleTail ++ (js "\n\n" ++
        (bundleInstruction ++ (d ++ (bundleEnd ++ hermesTyped note x.instruction)))) := by
    simp [hermesScaffold]
  have broken : (js "\n\n" ++ (bundleInstruction ++ (d ++ (bundleEnd ++
      hermesTyped note x.instruction)))).head? = some newline := by
    obtain ⟨inner, same⟩ := head?_eq_some_iff.mp markers.gap_head
    rw [same]
    rfl
  rw [shape, bundle_parsed x.quoteFree line markers.single_head markers.single_line
    (marked.trans (prefix_append _ _).isInfix) broken,
    bundle_between front (js "\n\n")
      ((indexOf_none_iff markers.bundleInstruction_alone.1).mp markers.gap_bundle) markers.gap_end free]

end Bundle

theorem right_of_clear {first : Text} (clear : Clear host x first) (second : Text) :
    Right host x first second := by
  cases host with
  | omp => exact (omp_right_iff x first second).mpr clear
  | hermes note =>
    obtain ⟨unmarked, rest⟩ := clear
    cases given : x.instruction with
    | none =>
      rw [given] at rest
      exact hermes_none note x given unmarked rest second
    | some i =>
      rw [given] at rest
      exact (hermes_some note x given unmarked first second).mpr rest
  | hermesBundle => exact (bundle_right_iff x clear.1 first second).mpr clear.2

theorem clear_of_right (line : newline ∉ x.name) (right : ∀ first second, Right host x first second)
    (first : Text) : Clear host x first := by
  cases host with
  | omp => exact (omp_right_iff x first []).mp (right first [])
  | hermes note =>
    have whole : x.name.takeWhile (· ≠ newline) = x.name :=
      takeWhile_eq_self_iff.mpr (free_line line)
    by_cases marked : bundleMark <:+: x.name
    · -- two bodies, two instructions
      have decoy : ∀ d, ¬bundleEnd <:+: d → nonEmpty d = x.instruction.bind nonEmpty := by
        intro d free
        have parsed := hermes_named_bundle x note line marked free
        have same := right (bundleInstruction ++ (d ++ bundleEnd)) []
        rw [Right, scaffold, parsed] at same
        exact Option.some.inj same
      have one := decoy (js "x")
        (not_infix_of_apart markers.bundleEnd_alone.1 markers.decoy_end.1)
      have other := decoy (js "y")
        (not_infix_of_apart markers.bundleEnd_alone.1 markers.decoy_end.2)
      exact absurd (one.trans other.symm) markers.decoy.2
    · have unmarked : ¬bundleMark <:+: x.name.takeWhile (· ≠ newline) := by rwa [whole]
      refine ⟨unmarked, ?_⟩
      cases given : x.instruction with
      | none => exact absurd (right _ []) (hermes_decoy note x given unmarked [])
      | some i => exact (hermes_some note x given unmarked first []).mp (right first [])
  | hermesBundle => exact ⟨line, (bundle_right_iff x line first []).mp (right first [])⟩

/-- Where no marker is written in the name or the instruction, nor in the body of a Hermes
skill without an instruction, the parser gives back what the user typed, whatever the bodies;
and for a name of one line it does so for all bodies only there. -/
theorem scaffold_parsed (host : Host) (x : Invocation) :
    (∀ first second, Clear host x first → Right host x first second) ∧
      (newline ∉ x.name →
        ((∀ first second, Right host x first second) ↔ ∀ first, Clear host x first)) :=
  ⟨fun _ second clear => right_of_clear clear second, fun line =>
    ⟨clear_of_right line, fun clear first second => right_of_clear (clear first) second⟩⟩

def findPapers : Invocation :=
  ⟨js "research", by decide, [], by decide, some (js "find papers\non X")⟩

theorem find_papers_parsed :
    Right (.hermes true) findPapers (js "# Skill\nUser: decoy") [] := by
  refine (scaffold_parsed (.hermes true) findPapers).1 _ _ ⟨?_, ?_, ?_⟩
  · exact not_infix_of_apart markers.mark_some (by decide)
  · exact not_infix_of_apart markers.hermesInstruction_alone.1 (by decide)
  · exact not_infix_of_apart markers.hermesRuntime_alone.1 (by decide)

/-- A skill that was invoked bare, whose body quotes the sentence that introduces an
instruction. -/
theorem body_taken_for_instruction :
    (parseSkillScaffold (hermesScaffold false bareSkill (hermesInstruction ++ js "delete it"))).map
        SkillInvocation.instruction = some (some (js "delete it")) ∧
      ¬Right (.hermes false) bareSkill (hermesInstruction ++ js "delete it") [] := by
  have parsed : (parseSkillScaffold (hermesScaffold false bareSkill
      (hermesInstruction ++ js "delete it"))).map SkillInvocation.instruction =
        some (some (js "delete it")) := by decide +kernel
  refine ⟨parsed, fun right => ?_⟩
  rw [Right, scaffold, parsed] at right
  cases right

end Ultrathink.Guarantees.SkillScaffold
