import Mathlib.Data.List.Nodup
import Ultrathink.Source.Hitl.Answers

/-!
# Answers that land apart

A key is taken for the item that its normal form finds in the list it was given, or for the item
of an earlier key that found none.
-/

namespace Ultrathink.Guarantees.AnswersLand

open List Library JsText JsNumber Search Source.Hitl.Format Source.Hitl.Pipeline
open Source.Hitl.Answers

variable (h : Host)

/-- The answers by key that are not blank. -/
def given : Response → List (Text × Text)
  | .object answers _ => answers.filter fun entry => trim entry.2 ≠ []
  | _ => []

def texts : Response → List Text
  | .absent => []
  | .text response => [trim response].filter (· ≠ [])
  | .object answers response =>
    (given (.object answers response)).map (fun entry => trim entry.2) ++
      [trimmed response].filter (· ≠ [])

/-- The place of the item that the answer goes to. -/
def landing (s : Folded) (key : Text) : Nat := (findMatch h s.list key).getD s.list.length

/-- The places of the answers, in turn. -/
def landings (asked : List AskedQuestion) : List (Text × Text) → Folded → List Nat
  | [], _ => []
  | entry :: rest, s =>
    landing h s entry.1 :: landings asked rest (settle h asked entry.1 entry.2 s)

structure AllLand (list : List Clarification) (input : List RawQuestion) (response : Response) :
    Prop where
  answers : ∀ text ∈ texts response, ∃ item ∈ (applyAnswers h list input response).list,
    item.answer = some text
  apart : (landings h (askedQuestions input) (given response) ⟨list, []⟩).Nodup
  ids : ∀ (i j : Nat) (item other : Clarification), list.length ≤ i → i ≠ j →
    (applyAnswers h list input response).list[i]? = some item →
    (applyAnswers h list input response).list[j]? = some other → other.id ≠ item.id

/-- One of the normal forms contains the other. -/
def Alike (key other : Text) : Prop :=
  normalizeQuestion h key ≠ [] ∧ normalizeQuestion h other ≠ [] ∧
    (includes (normalizeQuestion h key) (normalizeQuestion h other) = true ∨
      includes (normalizeQuestion h other) (normalizeQuestion h key) = true)

/-- Taken for one item of the list, or for none of it and alike. -/
def Clash (list : List Clarification) (key other : Text) : Prop :=
  findMatch h list key = findMatch h list other ∧
    (findMatch h list key = none → Alike h key other)

/-- An open item that an asked question is taken for and no key. -/
def leftOpen (list : List Clarification) (input : List RawQuestion) (keys : List Text) : Bool :=
  (askedQuestions input).any fun item =>
    (findMatch h list item.question).any fun place =>
      isOpenAt list place && keys.all fun key => findMatch h list key ≠ some place

/-- The number of items to add, as keys find none of the list. -/
def added (list : List Clarification) (input : List RawQuestion) : Response → Nat
  | .absent => 0
  | .text response =>
    if trim response = [] then 0
    else
      match (askedQuestions input).filter fun item =>
        (findMatch h list item.question).all (isOpenAt list) with
      | [item] => if (findMatch h list item.question).isNone then 1 else 0
      | _ => 1
  | .object answers response =>
    let keys := (given (.object answers response)).map Prod.fst
    (keys.filter fun key => (findMatch h list key).isNone).length +
      if trimmed response = [] ∨ leftOpen h list input keys = true then 0 else 1

/-- No two keys are taken for one item, and no item of the list has an id that is to be given. -/
structure ToldApart (list : List Clarification) (input : List RawQuestion) (response : Response) :
    Prop where
  keys : (given response).Pairwise fun entry other => ¬ Clash h list entry.1 other.1
  ids : ∀ i < added h list input response,
    js "q" ++ digits (list.length + i + 1) ∉ list.map Clarification.id

def AllSpace (t : Text) : Prop := ∀ u ∈ t, isSpace u = true

variable {entries : List (Text × Text)} {s : Folded} {place : Nat} {list : List Clarification}
  {wanted text t : Text}

theorem spaced_spaces (all : AllSpace t) (inside : Bool) : AllSpace (spaced inside t) := by
  induction t generalizing inside with
  | nil => exact fun u mem => absurd mem not_mem_nil
  | cons u rest ih =>
    have later := ih (fun v mem => all v (mem_cons_of_mem _ mem)) true
    rw [spaced, if_pos (all u mem_cons_self)]
    intro v mem
    rcases mem_append.mp mem with blank | mem
    · cases inside with
      | true => cases blank
      | false =>
        rw [mem_singleton.mp blank]
        rfl
    · exact later v mem

theorem spaced_trail {trail : Text} (all : AllSpace trail) (s : Text) (inside : Bool) :
    ∃ tail, AllSpace tail ∧ spaced inside (s ++ trail) = spaced inside s ++ tail := by
  induction s generalizing inside with
  | nil => exact ⟨_, spaced_spaces all inside, rfl⟩
  | cons u rest ih =>
    rw [cons_append, spaced, spaced]
    split
    · obtain ⟨tail, spaces, same⟩ := ih true
      exact ⟨tail, spaces, by rw [same, append_assoc]⟩
    · obtain ⟨tail, spaces, same⟩ := ih false
      exact ⟨tail, spaces, by rw [same, cons_append]⟩

theorem spaced_lead {lead : Text} (all : AllSpace lead) {s : Text}
    (solid : ∀ u ∈ s.head?, isSpace u = false) (inside : Bool) :
    ∃ front, AllSpace front ∧ spaced inside (lead ++ s) = front ++ spaced false s := by
  induction lead generalizing inside with
  | nil =>
    refine ⟨[], fun u mem => absurd mem not_mem_nil, ?_⟩
    cases s with
    | nil => rfl
    | cons u rest =>
      have notSpace := solid u rfl
      simp [spaced, notSpace]
  | cons u rest ih =>
    obtain ⟨front, spaces, same⟩ := ih (fun v mem => all v (mem_cons_of_mem _ mem)) true
    have isSpace_ := all u mem_cons_self
    refine ⟨(if inside then [] else [0x20]) ++ front, ?_, ?_⟩
    · intro v mem
      rcases mem_append.mp mem with blank | mem
      · cases inside with
        | true => cases blank
        | false =>
          rw [mem_singleton.mp blank]
          rfl
      · exact spaces v mem
    · rw [cons_append, spaced, if_pos isSpace_, same, append_assoc]

variable {tail value key : Text} {α : Type} {after : Folded} {places : List Nat}
  {entry : Text × Text} {l : List Clarification} {response : Response}

theorem rdropWhile_spaces (all : AllSpace tail) :
    (t ++ tail).rdropWhile isSpace = t.rdropWhile isSpace := by
  induction tail using List.reverseRecOn with
  | nil => rw [append_nil]
  | append_singleton tail u ih =>
    rw [← append_assoc, rdropWhile_concat_pos isSpace _ u (all u (by simp)),
      ih fun v mem => all v (mem_append_left _ mem)]

theorem trim_surround {front : Text} (first : AllSpace front) (last : AllSpace tail) (t : Text) :
    trim (front ++ (t ++ tail)) = trim t := by
  have drop : (front ++ (t ++ tail)).dropWhile isSpace = (t ++ tail).dropWhile isSpace :=
    dropWhile_append_of_pos first
  rw [trim, trim, drop]
  cases some_ : t.dropWhile isSpace with
  | nil =>
    have spaces : AllSpace t := dropWhile_eq_nil_iff.mp some_
    have none_ : (t ++ tail).dropWhile isSpace = [] :=
      dropWhile_eq_nil_iff.mpr fun u mem => (mem_append.mp mem).elim (spaces u) (last u)
    rw [none_]
  | cons u rest =>
    have split : (t ++ tail).dropWhile isSpace = t.dropWhile isSpace ++ tail := by
      rw [dropWhile_append, some_]
      rfl
    rw [split, rdropWhile_spaces last, some_]

theorem normalizeQuestion_trim (lower : ∀ t, h.toLowerCase (trim t) = trim (h.toLowerCase t))
    (key : Text) : normalizeQuestion h (trim key) = normalizeQuestion h key := by
  rw [normalizeQuestion, normalizeQuestion, lower]
  generalize h.toLowerCase key = t
  obtain ⟨lead, trail, split, first, last⟩ := trim_decompose t
  obtain ⟨tail, tailSpaces, trailed⟩ := spaced_trail last (lead ++ trim t) false
  obtain ⟨front, frontSpaces, led⟩ := spaced_lead first (trim_ends t).1 false
  have whole : spaced false t = front ++ (spaced false (trim t) ++ tail) := by
    rw [← split, led, append_assoc] at trailed
    exact trailed
  rw [whole, trim_surround frontSpaces tailSpaces]

section Seek

/-- `findMatch` on the normal forms. -/
def seek (forms : List Text) (wanted : Text) : Option Nat :=
  if wanted = [] then none
  else
    (forms.findIdx? fun form => form = wanted).or
      (forms.findIdx? fun form => form ≠ [] && (includes form wanted || includes wanted form))

/-- Neither is empty, and one contains the other. -/
def Meets (form wanted : Text) : Prop :=
  form ≠ [] ∧ wanted ≠ [] ∧ (includes form wanted = true ∨ includes wanted form = true)

theorem findMatch_eq (list : List Clarification) (key : Text) :
    findMatch h list key =
      seek (list.map fun item => normalizeQuestion h item.question) (normalizeQuestion h key) := by
  unfold findMatch seek
  rw [findIdx?_map, findIdx?_map]
  rfl

theorem includes_self (some_ : t ≠ []) : includes t t = true :=
  (includes_iff some_).mpr infix_rfl

theorem seek_eq_none {forms : List Text} :
    seek forms wanted = none ↔ ∀ form ∈ forms, ¬ Meets form wanted := by
  unfold seek
  by_cases blank : wanted = []
  · rw [if_pos blank]
    exact ⟨fun _ form _ meets => meets.2.1 blank, fun _ => rfl⟩
  · rw [if_neg blank, Option.or_eq_none_iff, findIdx?_eq_none_iff, findIdx?_eq_none_iff]
    constructor
    · rintro ⟨-, second⟩ form mem ⟨some_, -, within⟩
      have no := second form mem
      simp only [Bool.and_eq_false_iff, decide_eq_false_iff_not, not_not, Bool.or_eq_false_iff] at no
      rcases no with empty | ⟨left, right⟩
      · exact some_ empty
      · rw [left, right] at within
        rcases within with bad | bad <;> cases bad
    · intro none_
      constructor
      · intro form mem
        rw [decide_eq_false_iff_not]
        rintro rfl
        exact none_ form mem ⟨blank, blank, .inl (includes_self blank)⟩
      · intro form mem
        have no := none_ form mem
        simp only [Bool.and_eq_false_iff, decide_eq_false_iff_not, not_not, Bool.or_eq_false_iff]
        by_cases empty : form = []
        · exact .inl empty
        · refine .inr ⟨Bool.eq_false_iff.mpr fun left => no ⟨empty, blank, .inl left⟩,
            Bool.eq_false_iff.mpr fun right => no ⟨empty, blank, .inr right⟩⟩

theorem findIdx?_append_none {p : α → Bool} {xs : List α} (ys : List α)
    (none_ : xs.findIdx? p = none) :
    (xs ++ ys).findIdx? p = (ys.findIdx? p).map (· + xs.length) := by
  rw [findIdx?_append, none_, Option.none_or]

theorem seek_append_none {forms : List Text} (others : List Text)
    (none_ : seek forms wanted = none) :
    seek (forms ++ others) wanted = (seek others wanted).map (· + forms.length) := by
  unfold seek at none_ ⊢
  split
  · rfl
  · next some_ =>
    rw [if_neg some_, Option.or_eq_none_iff] at none_
    rw [findIdx?_append_none others none_.1, findIdx?_append_none others none_.2, Option.map_or]

theorem seek_append_some {forms : List Text} {others : List Text}
    (found : seek forms wanted = some place) (unfound : ∀ form ∈ others, seek forms form = none) :
    seek (forms ++ others) wanted = some place := by
  have absent : others.findIdx? (fun form => decide (form = wanted)) = none := by
    rw [findIdx?_eq_none_iff]
    intro form mem
    rw [decide_eq_false_iff_not]
    rintro rfl
    rw [unfound form mem] at found
    cases found
  unfold seek at found ⊢
  split at found
  · cases found
  · next some_ =>
    rw [if_neg some_, findIdx?_append, absent, Option.map_none, Option.or_none,
      findIdx?_append]
    cases exact_ : forms.findIdx? fun form => form = wanted with
    | some i =>
      rw [exact_] at found
      exact found
    | none =>
      rw [exact_, Option.none_or] at found
      rw [found]
      rfl

theorem seek_lt {forms : List Text} (found : seek forms wanted = some place) :
    place < forms.length := by
  unfold seek at found
  split at found
  · cases found
  · rcases Option.or_eq_some_iff.mp found with first | ⟨-, second⟩
    · exact (findIdx?_eq_some_iff_getElem.mp first).1
    · exact (findIdx?_eq_some_iff_getElem.mp second).1

end Seek

section Run
variable (items : List AskedQuestion)

abbrev run (entries : List (Text × Text)) (s : Folded) : Folded :=
  entries.foldl (fun s (key, value) => settle h items key value s) s

theorem settle_blank (blank : trim value = []) (key : Text) (s : Folded) :
    settle h items key value s = s := by
  rw [settle, if_pos blank]

theorem run_given (entries : List (Text × Text)) (s : Folded) :
    run h items entries s = run h items (entries.filter fun entry => trim entry.2 ≠ []) s := by
  induction entries generalizing s with
  | nil => rfl
  | cons entry rest ih =>
    by_cases blank : trim entry.2 = []
    · rw [filter_cons_of_neg (by simpa using blank), ← ih]
      show run h items rest (settle h items entry.1 entry.2 s) = _
      rw [settle_blank h items blank]
    · rw [filter_cons_of_pos (by simpa using blank)]
      exact ih _

theorem landings_snoc (entries : List (Text × Text)) (entry : Text × Text) (s : Folded) :
    landings h items (entries ++ [entry]) s =
      landings h items entries s ++ [landing h (run h items entries s) entry.1] := by
  induction entries generalizing s with
  | nil => rfl
  | cons first rest ih =>
    rw [cons_append, landings, landings, ih]
    rfl

/-- What one answer does: at its place the item has it, and the other items stay. -/
structure Settled (s after : Folded) (place : Nat) (text : Text) : Prop where
  here : after.list[place]?.bind Clarification.answer = some text
  others : ∀ i < s.list.length, i ≠ place → after.list[i]? = s.list[i]?
  length : after.list.length = max s.list.length (place + 1)

theorem record_settled {target : Nat} (small : target < s.list.length) (text : Text) :
    Settled s (record target text s) target text := by
  refine ⟨?_, ?_, ?_⟩
  · rw [record, getElem?_modify_eq, getElem?_eq_getElem small]
    rfl
  · intro i _ other
    rw [record, getElem?_modify_ne _ _ (Ne.symm other)]
  · rw [record, length_modify]
    omega

theorem append_settled (s : Folded) (item : Option AskedQuestion) (question text : Text) :
    Settled s (append item question text s) s.list.length text := by
  refine ⟨?_, ?_, ?_⟩
  · rw [append, getElem?_append_right (Nat.le_refl _), Nat.sub_self]
    rfl
  · intro i small _
    rw [append, getElem?_append_left small]
  · rw [append, length_append, length_singleton]
    omega

theorem findMatch_lt (found : findMatch h list key = some place) :
    place < list.length := by
  rw [findMatch_eq] at found
  have small := seek_lt found
  rwa [List.length_map] at small

theorem settle_settled (some_ : trim value ≠ []) (key : Text) (s : Folded) :
    Settled s (settle h items key value s) (landing h s key) (trim value) := by
  rw [settle, if_neg some_, landing]
  cases found : findMatch h s.list key with
  | some place => exact record_settled (findMatch_lt h found) _
  | none => exact append_settled s _ _ _

/-- The answers stand at their places. -/
def Stand (list : List Clarification) (entries : List (Text × Text)) (places : List Nat) : Prop :=
  List.Forall₂ (fun entry place => list[place]?.bind Clarification.answer = some (trim entry.2))
    entries places

theorem Stand.keep (stand : Stand s.list entries places) (settled : Settled s after place text)
    (apart : place ∉ places) :
    Stand after.list entries places := by
  induction stand with
  | nil => exact .nil
  | @cons entry other _ places here _ ih =>
    refine .cons ?_ (ih fun mem => apart (mem_cons_of_mem _ mem))
    have small : other < s.list.length := by
      by_contra large
      rw [getElem?_eq_none (by omega)] at here
      cases here
    have different : other ≠ place := by
      rintro rfl
      exact apart mem_cons_self
    rw [settled.others other small different]
    exact here

theorem run_stand (entries : List (Text × Text)) (some_ : ∀ entry ∈ entries, trim entry.2 ≠ [])
    (s : Folded) (apart : (landings h items entries s).Nodup) :
    Stand (run h items entries s).list entries (landings h items entries s) := by
  induction entries using List.reverseRecOn with
  | nil => exact .nil
  | append_singleton entries entry ih =>
    rw [landings_snoc, nodup_append] at apart
    have stand := ih (fun other mem => some_ other (mem_append_left _ mem)) apart.1
    have settled := settle_settled h items (some_ entry (by simp)) entry.1 (run h items entries s)
    rw [landings_snoc, run, foldl_append, foldl_cons, foldl_nil]
    refine rel_append (stand.keep settled ?_) (.cons settled.here .nil)
    exact fun mem => apart.2.2 _ mem _ (mem_singleton_self _) rfl

/-- The items of the list keep their ids, the others have the ids that follow. -/
structure Numbered (list : List Clarification) (s : Folded) : Prop where
  ids : s.list.map Clarification.id =
    list.map Clarification.id ++ (List.range' list.length (s.list.length - list.length)).map
      fun i => js "q" ++ digits (i + 1)
  length : list.length ≤ s.list.length

theorem numbered_start (list : List Clarification) : Numbered list ⟨list, []⟩ := by
  refine ⟨?_, Nat.le_refl _⟩
  rw [Nat.sub_self]
  exact (append_nil _).symm

theorem map_modify (f : Clarification → α) (keeps : ∀ item, f (answered text item) = f item)
    (list : List Clarification) (target : Nat) :
    (list.modify target (answered text)).map f = list.map f := by
  induction list generalizing target with
  | nil => cases target <;> rfl
  | cons item rest ih =>
    cases target with
    | zero => exact congrArg (· :: rest.map f) (keeps item)
    | succ target => exact congrArg (f item :: ·) (ih target)

theorem numbered_record (numbered : Numbered list s) (target : Nat) (text : Text) :
    Numbered list (record target text s) := by
  have length : (record target text s).list.length = s.list.length := length_modify ..
  refine ⟨?_, ?_⟩
  · rw [length, ← numbered.ids]
    exact map_modify Clarification.id (fun _ => rfl) s.list target
  · rw [length]
    exact numbered.length

theorem numbered_append (numbered : Numbered list s) (item : Option AskedQuestion)
    (question text : Text) :
    Numbered list (append item question text s) := by
  have least := numbered.length
  refine ⟨?_, ?_⟩
  · rw [append, map_append, numbered.ids, length_append, length_singleton,
      show s.list.length + 1 - list.length = (s.list.length - list.length) + 1 by omega,
      range'_concat, map_append, append_assoc]
    congr 2
    rw [map_singleton, map_singleton,
      show list.length + 1 * (s.list.length - list.length) = s.list.length by omega]
    rfl
  · rw [append, length_append]
    omega

theorem numbered_settle (numbered : Numbered list s) (key value : Text) :
    Numbered list (settle h items key value s) := by
  unfold settle
  dsimp only
  split
  · exact numbered
  · split
    · exact numbered_record numbered _ _
    · exact numbered_append numbered _ _ _

theorem numbered_run (entries : List (Text × Text)) (numbered : Numbered list s) :
    Numbered list (run h items entries s) := by
  induction entries generalizing s with
  | nil => exact numbered
  | cons entry rest ih => exact ih (numbered_settle h items numbered entry.1 entry.2)

theorem digits_injective {a b : Nat} (same : js "q" ++ digits a = js "q" ++ digits b) : a = b := by
  have values := congrArg valueOf (append_cancel_left same)
  rwa [valueOf_digits, valueOf_digits] at values

/-- The items that were added are told from the others when the list has none of their ids. -/
theorem Numbered.apart_iff (numbered : Numbered list s) :
    (∀ (i j : Nat) (item other : Clarification), list.length ≤ i → i ≠ j →
      s.list[i]? = some item → s.list[j]? = some other → other.id ≠ item.id) ↔
    ∀ i < s.list.length - list.length,
      js "q" ++ digits (list.length + i + 1) ∉ list.map Clarification.id := by
  have least := numbered.length
  have new : ∀ i, list.length ≤ i → i < s.list.length →
      (s.list.map Clarification.id)[i]? = some (js "q" ++ digits (i + 1)) := by
    intro i low high
    rw [numbered.ids, getElem?_append_right (by rwa [List.length_map]), List.length_map,
      List.getElem?_map, getElem?_range' (by omega)]
    show some (js "q" ++ digits (list.length + 1 * (i - list.length) + 1)) = _
    rw [show list.length + 1 * (i - list.length) = i by omega]
  have old : ∀ i, i < list.length →
      (s.list.map Clarification.id)[i]? = (list.map Clarification.id)[i]? := by
    intro i low
    rw [numbered.ids, getElem?_append_left (by rwa [List.length_map])]
  constructor
  · intro apart i small mem
    obtain ⟨j, at_⟩ := List.getElem?_of_mem mem
    have low := (List.getElem?_eq_some_iff.mp at_).1
    rw [List.length_map] at low
    have atNew := new (list.length + i) (by omega) (by omega)
    rw [← old j low, List.getElem?_map, Option.map_eq_some_iff] at at_
    rw [List.getElem?_map, Option.map_eq_some_iff] at atNew
    obtain ⟨other, atOther, otherId⟩ := at_
    obtain ⟨item, atItem, itemId⟩ := atNew
    exact apart _ j item other (by omega) (by omega) atItem atOther (otherId.trans itemId.symm)
  · intro free i j item other low different atItem atOther same
    have high := (List.getElem?_eq_some_iff.mp atItem).1
    have itemId := new i low high
    rw [List.getElem?_map, atItem] at itemId
    have itemId : item.id = js "q" ++ digits (i + 1) := Option.some.inj itemId
    rcases Nat.lt_or_ge j list.length with small | large
    · have otherId := old j small
      rw [List.getElem?_map, atOther] at otherId
      apply free (i - list.length) (by omega)
      rw [show list.length + (i - list.length) + 1 = i + 1 by omega, ← itemId, ← same]
      exact mem_of_getElem? otherId.symm
    · have otherId := new j large (List.getElem?_eq_some_iff.mp atOther).1
      rw [List.getElem?_map, atOther] at otherId
      have otherId : other.id = js "q" ++ digits (j + 1) := Option.some.inj otherId
      have equal := digits_injective (otherId.symm.trans (same.trans itemId))
      omega

end Run

section Shape
variable (list : List Clarification) (items : List AskedQuestion)

def forms (list : List Clarification) : List Text :=
  list.map fun item => normalizeQuestion h item.question

/-- The normal forms of the keys that find no item of the list. -/
def extras (entries : List (Text × Text)) : List Text :=
  (entries.filter fun entry => (findMatch h list entry.1).isNone).map
    fun entry => normalizeQuestion h entry.1

theorem extras_unfound (entries : List (Text × Text)) :
    ∀ form ∈ extras h list entries, seek (forms h list) form = none := by
  intro form mem
  obtain ⟨entry, kept, rfl⟩ := mem_map.mp mem
  have none_ := (mem_filter.mp kept).2
  rw [findMatch_eq, Option.isNone_iff_eq_none] at none_
  exact none_

/-- The list after the answers, and their places. -/
structure Shape (entries : List (Text × Text)) : Prop where
  normal : forms h (run h items entries ⟨list, []⟩).list = forms h list ++ extras h list entries
  places : ∀ x, x ∈ landings h items entries ⟨list, []⟩ ↔
    (∃ entry ∈ entries, findMatch h list entry.1 = some x) ∨
      (list.length ≤ x ∧ x < list.length + (extras h list entries).length)

variable {h} {list} {items}

theorem Shape.length (shape : Shape h list items entries) :
    (run h items entries ⟨list, []⟩).list.length = list.length + (extras h list entries).length := by
  have same := congrArg List.length shape.normal
  rwa [length_append, forms, forms, List.length_map,
    List.length_map] at same

theorem Shape.find (shape : Shape h list items entries) (key : Text) :
    findMatch h (run h items entries ⟨list, []⟩).list key =
      (findMatch h list key).or
        ((seek (extras h list entries) (normalizeQuestion h key)).map (· + list.length)) := by
  rw [findMatch_eq, findMatch_eq]
  show seek (forms h _) _ = (seek (forms h list) _).or _
  rw [shape.normal]
  cases found : seek (forms h list) (normalizeQuestion h key) with
  | some place => exact seek_append_some found (extras_unfound h list entries)
  | none =>
    rw [seek_append_none _ found, Option.none_or, forms, List.length_map]

theorem clash_of_meets (none_ : findMatch h list key = none) {form : Text}
    (mem : form ∈ extras h list entries) (meets : Meets form (normalizeQuestion h key)) :
    ∃ entry ∈ entries, Clash h list entry.1 key := by
  obtain ⟨entry, kept, rfl⟩ := mem_map.mp mem
  obtain ⟨memEntry, unfound⟩ := mem_filter.mp kept
  exact ⟨entry, memEntry, (Option.isNone_iff_eq_none.mp unfound).trans none_.symm, fun _ => meets⟩

theorem mem_extras (mem : entry ∈ entries) (none_ : findMatch h list entry.1 = none) :
    normalizeQuestion h entry.1 ∈ extras h list entries :=
  mem_map.mpr ⟨entry, mem_filter.mpr ⟨mem, by rw [none_]; rfl⟩, rfl⟩

theorem Shape.landing_mem (shape : Shape h list items entries) (key : Text) :
    landing h (run h items entries ⟨list, []⟩) key ∈ landings h items entries ⟨list, []⟩ ↔
      ∃ entry ∈ entries, Clash h list entry.1 key := by
  rw [shape.places, landing, shape.find, shape.length]
  cases found : findMatch h list key with
  | some place =>
    have small := findMatch_lt h found
    rw [Option.some_or, Option.getD_some]
    constructor
    · rintro (⟨entry, mem, same⟩ | ⟨low, -⟩)
      · exact ⟨entry, mem, same.trans found.symm, fun none_ => by rw [same] at none_; cases none_⟩
      · omega
    · rintro ⟨entry, mem, same, -⟩
      exact .inl ⟨entry, mem, same.trans found⟩
  | none =>
    rw [Option.none_or]
    cases within : seek (extras h list entries) (normalizeQuestion h key) with
    | some j =>
      have small := seek_lt within
      have met : ∃ form ∈ extras h list entries, Meets form (normalizeQuestion h key) := by
        by_contra none_
        rw [seek_eq_none.mpr fun form mem meets => none_ ⟨form, mem, meets⟩] at within
        cases within
      obtain ⟨form, mem, meets⟩ := met
      refine ⟨fun _ => clash_of_meets found mem meets, fun _ => .inr ?_⟩
      rw [Option.map_some, Option.getD_some]
      omega
    | none =>
      rw [Option.map_none, Option.getD_none]
      constructor
      · rintro (⟨entry, mem, same⟩ | ⟨-, high⟩)
        · have small := findMatch_lt h same
          omega
        · omega
      · rintro ⟨entry, mem, same, alike⟩
        have none_ := same.trans found
        exact absurd (alike none_) (seek_eq_none.mp within _ (mem_extras mem none_))

variable (lower : ∀ t, h.toLowerCase (trim t) = trim (h.toLowerCase t))
include lower

/-- A key that clashes with none is answered where it is found, or adds its normal form. -/
theorem Shape.snoc (shape : Shape h list items entries) (some_ : trim entry.2 ≠ [])
    (apart : ∀ other ∈ entries, ¬ Clash h list other.1 entry.1) :
    Shape h list items (entries ++ [entry]) := by
  have lengths := shape.length
  have found := shape.find entry.1
  have step : run h items (entries ++ [entry]) ⟨list, []⟩ =
      settle h items entry.1 entry.2 (run h items entries ⟨list, []⟩) := by
    rw [run, foldl_append]
    rfl
  have places : ∀ x, x ∈ landings h items (entries ++ [entry]) ⟨list, []⟩ ↔
      x ∈ landings h items entries ⟨list, []⟩ ∨
        x = landing h (run h items entries ⟨list, []⟩) entry.1 := by
    intro x
    rw [landings_snoc, mem_append, mem_singleton]
  have more : extras h list (entries ++ [entry]) = extras h list entries ++
      if (findMatch h list entry.1).isNone then [normalizeQuestion h entry.1] else [] := by
    rw [extras, filter_append, map_append, filter_singleton]
    cases (findMatch h list entry.1).isNone <;> rfl
  cases own : findMatch h list entry.1 with
  | some place =>
    rw [own, Option.some_or] at found
    rw [own, if_neg (by simp), append_nil] at more
    refine ⟨?_, ?_⟩
    · rw [step, more, settle, if_neg some_, found, ← shape.normal]
      exact map_modify _ (fun _ => rfl) _ _
    · intro x
      rw [places, shape.places, more, landing, found, Option.getD_some]
      constructor
      · rintro ((⟨other, mem, same⟩ | range) | rfl)
        · exact .inl ⟨other, mem_append_left _ mem, same⟩
        · exact .inr range
        · exact .inl ⟨entry, mem_append_right _ (mem_singleton_self _), own⟩
      · rintro (⟨other, mem, same⟩ | range)
        · rcases mem_append.mp mem with old | new
          · exact .inl (.inl ⟨other, old, same⟩)
          · rw [mem_singleton.mp new, own] at same
            exact .inr (Option.some.inj same).symm
        · exact .inl (.inr range)
  | none =>
    have unmet : seek (extras h list entries) (normalizeQuestion h entry.1) = none := by
      rw [seek_eq_none]
      intro form mem meets
      obtain ⟨other, memOther, clash⟩ := clash_of_meets own mem meets
      exact apart other memOther clash
    rw [own, Option.none_or, unmet, Option.map_none] at found
    rw [own, if_pos (by rfl)] at more
    refine ⟨?_, ?_⟩
    · rw [step, more, settle, if_neg some_, found, ← append_assoc, ← shape.normal]
      show forms h (_ ++ [_]) = _
      rw [forms, map_append, map_singleton]
      congr 2
      show normalizeQuestion h (Option.getD _ _) = _
      cases asked : items.find? fun item =>
          normalizeQuestion h item.question = normalizeQuestion h entry.1 with
      | none => exact normalizeQuestion_trim h lower entry.1
      | some item =>
        have same := find?_some asked
        exact of_decide_eq_true same
    · intro x
      rw [places, shape.places, more, landing, found, Option.getD_none, lengths, length_append,
        length_singleton]
      constructor
      · rintro ((⟨other, mem, same⟩ | range) | rfl)
        · exact .inl ⟨other, mem_append_left _ mem, same⟩
        · exact .inr ⟨range.1, by omega⟩
        · exact .inr ⟨by omega, by omega⟩
      · rintro (⟨other, mem, same⟩ | range)
        · rcases mem_append.mp mem with old | new
          · exact .inl (.inl ⟨other, old, same⟩)
          · rw [mem_singleton.mp new, own] at same
            cases same
        · rcases Nat.lt_or_ge x (list.length + (extras h list entries).length) with small | large
          · exact .inl (.inr ⟨range.1, small⟩)
          · exact .inr (by omega)

/-- The places differ exactly when no two keys clash, and the list then has the shape. -/
theorem landings_nodup (entries : List (Text × Text)) (some_ : ∀ entry ∈ entries, trim entry.2 ≠ []) :
    ((landings h items entries ⟨list, []⟩).Nodup ↔
      entries.Pairwise fun entry other => ¬ Clash h list entry.1 other.1) ∧
    ((entries.Pairwise fun entry other => ¬ Clash h list entry.1 other.1) →
      Shape h list items entries) := by
  induction entries using List.reverseRecOn with
  | nil =>
    refine ⟨⟨fun _ => .nil, fun _ => nodup_nil⟩, fun _ => ⟨(append_nil _).symm, fun x => ?_⟩⟩
    constructor
    · exact fun mem => absurd mem not_mem_nil
    · rintro (⟨entry, mem, -⟩ | range)
      · cases mem
      · have none_ : (extras h list []).length = 0 := rfl
        omega
  | append_singleton entries entry ih =>
    obtain ⟨nodup, shape⟩ := ih fun other mem => some_ other (mem_append_left _ mem)
    have split : (entries ++ [entry]).Pairwise (fun entry other => ¬ Clash h list entry.1 other.1) ↔
        entries.Pairwise (fun entry other => ¬ Clash h list entry.1 other.1) ∧
          ∀ other ∈ entries, ¬ Clash h list other.1 entry.1 := by
      rw [pairwise_append]
      simp
    constructor
    · rw [split, landings_snoc, ← concat_eq_append, nodup_concat, nodup]
      constructor
      · rintro ⟨new, pairwise⟩
        rw [(shape pairwise).landing_mem] at new
        exact ⟨pairwise, fun other mem clash => new ⟨other, mem, clash⟩⟩
      · rintro ⟨pairwise, apart⟩
        rw [(shape pairwise).landing_mem]
        exact ⟨fun ⟨other, mem, clash⟩ => apart other mem clash, pairwise⟩
    · intro pairwise
      obtain ⟨before, apart⟩ := split.mp pairwise
      exact (shape before).snoc lower (some_ entry (by simp)) apart

end Shape

section Finish
variable {h} {list : List Clarification} {items : List AskedQuestion}

theorem run_others (entries : List (Text × Text)) (some_ : ∀ entry ∈ entries, trim entry.2 ≠ []) :
    list.length ≤ (run h items entries ⟨list, []⟩).list.length ∧
    ∀ x < list.length, x ∉ landings h items entries ⟨list, []⟩ →
      (run h items entries ⟨list, []⟩).list[x]? = list[x]? := by
  induction entries using List.reverseRecOn with
  | nil => exact ⟨Nat.le_refl _, fun _ _ _ => rfl⟩
  | append_singleton entries entry ih =>
    obtain ⟨longer, same⟩ := ih fun other mem => some_ other (mem_append_left _ mem)
    have settled := settle_settled h items (some_ entry (by simp)) entry.1
      (run h items entries ⟨list, []⟩)
    rw [run, foldl_append, foldl_cons, foldl_nil]
    refine ⟨?_, fun x small away => ?_⟩
    · rw [settled.length]
      omega
    · rw [landings_snoc, mem_append, not_or, mem_singleton] at away
      rw [settled.others x (by omega) away.2]
      exact same x small away.1

theorem stand_answers (stand : Stand l entries places) :
    (∀ entry ∈ entries, ∃ item ∈ l, item.answer = some (trim entry.2)) ∧
      ∀ place ∈ places, place < l.length ∧ isOpenAt l place = false := by
  induction stand with
  | nil => exact ⟨fun _ mem => absurd mem not_mem_nil, fun _ mem => absurd mem not_mem_nil⟩
  | @cons entry place _ _ here _ ih =>
    obtain ⟨item, at_, answer⟩ := Option.bind_eq_some_iff.mp here
    constructor
    · intro other mem
      rcases List.mem_cons.mp mem with rfl | mem
      · exact ⟨item, mem_of_getElem? at_, answer⟩
      · exact ih.1 other mem
    · intro other mem
      rcases List.mem_cons.mp mem with rfl | mem
      · refine ⟨(List.getElem?_eq_some_iff.mp at_).1, ?_⟩
        rw [isOpenAt, here]
        rfl
      · exact ih.2 other mem

theorem Shape.open_iff (shape : Shape h list items entries)
    (some_ : ∀ entry ∈ entries, trim entry.2 ≠ [])
    (stand : Stand (run h items entries ⟨list, []⟩).list entries (landings h items entries ⟨list, []⟩))
    {x : Nat} (inside : x < (run h items entries ⟨list, []⟩).list.length) :
    isOpenAt (run h items entries ⟨list, []⟩).list x = true ↔
      x < list.length ∧ isOpenAt list x = true ∧
        ∀ entry ∈ entries, findMatch h list entry.1 ≠ some x := by
  have others := (@run_others h list items entries some_).2 x
  rw [shape.length] at inside
  constructor
  · intro open_
    have away : x ∉ landings h items entries ⟨list, []⟩ := by
      intro mem
      rw [((stand_answers stand).2 x mem).2] at open_
      cases open_
    have places := mt (shape.places x).mpr away
    rw [not_or] at places
    have small : x < list.length := by
      by_contra large
      exact places.2 ⟨by omega, inside⟩
    rw [isOpenAt, others small away] at open_
    exact ⟨small, open_, fun entry mem same => places.1 ⟨entry, mem, same⟩⟩
  · rintro ⟨small, open_, untaken⟩
    have away : x ∉ landings h items entries ⟨list, []⟩ := by
      rw [shape.places]
      rintro (⟨entry, mem, same⟩ | range)
      · exact untaken entry mem same
      · omega
    rw [isOpenAt, others small away]
    exact open_

variable (h) in
/-- The item that the free-form response goes to. -/
def pending (items : List AskedQuestion) (l : List Clarification) : Option Nat :=
  (items.filterMap fun item => findMatch h l item.question).find? (isOpenAt l)

theorem pending_spec (found : pending h items l = some place) :
    place < l.length ∧ isOpenAt l place = true := by
  obtain ⟨item, -, same⟩ := mem_filterMap.mp (mem_of_find?_eq_some found)
  exact ⟨findMatch_lt h same, find?_some found⟩

theorem Shape.pending_iff {input : List RawQuestion}
    (shape : Shape h list (askedQuestions input) entries)
    (some_ : ∀ entry ∈ entries, trim entry.2 ≠ [])
    (stand : Stand (run h (askedQuestions input) entries ⟨list, []⟩).list entries
      (landings h (askedQuestions input) entries ⟨list, []⟩)) :
    (pending h (askedQuestions input)
        (run h (askedQuestions input) entries ⟨list, []⟩).list).isSome = true ↔
      leftOpen h list input (entries.map Prod.fst) = true := by
  have keys : ∀ x, (entries.map Prod.fst).all (fun key => decide (findMatch h list key ≠ some x)) = true ↔
      ∀ entry ∈ entries, findMatch h list entry.1 ≠ some x := by
    intro x
    simp
  rw [pending, find?_isSome, leftOpen, any_eq_true]
  constructor
  · rintro ⟨x, mem, open_⟩
    obtain ⟨item, memItem, found⟩ := mem_filterMap.mp mem
    obtain ⟨small, openBefore, untaken⟩ := (shape.open_iff some_ stand (findMatch_lt h found)).mp open_
    refine ⟨item, memItem, ?_⟩
    rw [shape.find] at found
    cases own : findMatch h list item.question with
    | none =>
      rw [own, Option.none_or] at found
      obtain ⟨j, -, rfl⟩ := Option.map_eq_some_iff.mp found
      omega
    | some place =>
      rw [own, Option.some_or] at found
      obtain rfl := Option.some.inj found
      rw [Option.any_some, openBefore, Bool.true_and, keys]
      exact untaken
  · rintro ⟨item, memItem, left⟩
    cases own : findMatch h list item.question with
    | none =>
      rw [own] at left
      cases left
    | some x =>
      rw [own, Option.any_some, Bool.and_eq_true, keys] at left
      have found : findMatch h (run h (askedQuestions input) entries ⟨list, []⟩).list item.question =
          some x := by
        rw [shape.find, own, Option.some_or]
      refine ⟨x, mem_filterMap.mpr ⟨item, memItem, found⟩, ?_⟩
      exact (shape.open_iff some_ stand (findMatch_lt h found)).mpr
        ⟨findMatch_lt h own, left.1, left.2⟩

end Finish

section Whole
variable {h} {list : List Clarification} {input : List RawQuestion}

theorem given_some : ∀ entry ∈ given response, trim entry.2 ≠ [] := by
  intro entry mem
  cases response with
  | absent => cases mem
  | text response => cases mem
  | object answers response => simpa using (mem_filter.mp mem).2

theorem applyAnswers_object (answers : List (Text × Text)) (response : Option Text) :
    applyAnswers h list input (.object answers response) =
      let s := run h (askedQuestions input) (given (.object answers response)) ⟨list, []⟩
      if trimmed response = [] then s
      else
        match pending h (askedQuestions input) s.list with
        | some target => record target (trimmed response) s
        | none => append none freeForm (trimmed response) s := by
  rw [given, ← run_given]
  rfl

theorem Settled.answer (settled : Settled s after place text) :
    ∃ item ∈ after.list, item.answer = some text := by
  obtain ⟨item, at_, answer⟩ := Option.bind_eq_some_iff.mp settled.here
  exact ⟨item, mem_of_getElem? at_, answer⟩

/-- What the call leaves when the keys do not clash. -/
structure Left (h : Host) (list : List Clarification) (input : List RawQuestion)
    (response : Response) : Prop where
  answers : ∀ text ∈ texts response, ∃ item ∈ (applyAnswers h list input response).list,
    item.answer = some text
  numbered : Numbered list (applyAnswers h list input response)
  length : (applyAnswers h list input response).list.length = list.length + added h list input response

theorem left_one (only : texts response = [text])
    (settled : Settled ⟨list, []⟩ (applyAnswers h list input response) place text)
    (numbered : Numbered list (applyAnswers h list input response))
    (count : max list.length (place + 1) = list.length + added h list input response) :
    Left h list input response := by
  refine ⟨?_, numbered, settled.length.trans count⟩
  rw [only]
  intro other mem
  rw [mem_singleton.mp mem]
  exact settled.answer

theorem left_text (response : Text) : Left h list input (.text response) := by
  have start := numbered_start list
  by_cases blank : trim response = []
  · have same : applyAnswers h list input (.text response) = ⟨list, []⟩ := if_pos blank
    refine ⟨?_, same ▸ start, ?_⟩
    · rw [texts, blank]
      exact fun text mem => absurd mem not_mem_nil
    · rw [same, added, if_pos blank]
      rfl
  · have only : texts (.text response) = [trim response] := by
      rw [texts, filter_cons_of_pos (by simpa using blank), filter_nil]
    have freeform : applyAnswers h list input (.text response) =
          append none freeForm (trim response) ⟨list, []⟩ → added h list input (.text response) = 1 →
        Left h list input (.text response) := by
      intro same count
      apply left_one only (same ▸ append_settled ⟨list, []⟩ none freeForm (trim response))
        (same ▸ numbered_append start none freeForm _)
      rw [count]
      exact Nat.max_eq_right (Nat.le_succ _)
    rcases whole : (askedQuestions input).filter fun item =>
        (findMatch h list item.question).all (isOpenAt list) with _ | ⟨item, _ | ⟨next, more⟩⟩
    · apply freeform
      · rw [applyAnswers, if_neg blank, whole]
      · rw [added, if_neg blank, whole]
    · have same : applyAnswers h list input (.text response) =
          settle h (askedQuestions input) item.question (trim response) ⟨list, []⟩ := by
        rw [applyAnswers, if_neg blank, whole]
      have settled := settle_settled h (askedQuestions input)
        (show trim (trim response) ≠ [] by rwa [trim_trim]) item.question ⟨list, []⟩
      rw [trim_trim] at settled
      apply left_one only (same ▸ settled) (same ▸ numbered_settle h _ start item.question _)
      rw [added, if_neg blank, whole, landing]
      dsimp only
      cases found : findMatch h list item.question with
      | none => exact Nat.max_eq_right (Nat.le_succ _)
      | some place => exact Nat.max_eq_left (findMatch_lt h found)
    · apply freeform
      · rw [applyAnswers, if_neg blank, whole]
      · rw [added, if_neg blank, whole]

/-- The keys do not clash: every answer stands, and the free-form response goes to an open item
or to one of its own. -/
theorem left_object (lower : ∀ t, h.toLowerCase (trim t) = trim (h.toLowerCase t))
    (answers : List (Text × Text)) (response : Option Text)
    (apart : (given (.object answers response)).Pairwise
      fun entry other => ¬ Clash h list entry.1 other.1) :
    Left h list input (.object answers response) := by
  obtain ⟨nodup, shaped⟩ := @landings_nodup h list (askedQuestions input) lower
    (given (.object answers response)) given_some
  have shape := shaped apart
  have stand := run_stand h (askedQuestions input) _ given_some ⟨list, []⟩ (nodup.mpr apart)
  have numbered := numbered_run h (askedQuestions input) (given (.object answers response))
    (numbered_start list)
  have pending_ := shape.pending_iff given_some stand
  have whole := @applyAnswers_object h list input answers response
  have unfound : (((given (.object answers response)).map Prod.fst).filter fun key =>
      (findMatch h list key).isNone).length = (extras h list (given (.object answers response))).length := by
    rw [filter_map, List.length_map, extras, List.length_map]
    rfl
  have lengths := shape.length
  rw [← unfound] at lengths
  dsimp only at whole
  generalize run h (askedQuestions input) (given (.object answers response)) ⟨list, []⟩ = s at *
  have fromKeys : ∀ {after : Folded}, Stand after.list (given (.object answers response))
        (landings h (askedQuestions input) (given (.object answers response)) ⟨list, []⟩) →
      ∀ text ∈ (given (.object answers response)).map (fun entry => trim entry.2),
        ∃ item ∈ after.list, item.answer = some text := by
    intro after stands text mem
    obtain ⟨entry, memEntry, rfl⟩ := mem_map.mp mem
    exact (stand_answers stands).1 entry memEntry
  by_cases blank : trimmed response = []
  · rw [if_pos blank] at whole
    refine ⟨?_, whole ▸ numbered, ?_⟩
    · rw [texts, blank, whole]
      intro text mem
      rcases mem_append.mp mem with key | none_
      · exact fromKeys stand text key
      · exact absurd none_ not_mem_nil
    · rw [whole, added, if_pos (.inl blank)]
      exact lengths
  · rw [if_neg blank] at whole
    have settled : ∃ place, Settled s (applyAnswers h list input (.object answers response)) place
          (trimmed response) ∧
        place ∉ landings h (askedQuestions input) (given (.object answers response)) ⟨list, []⟩ ∧
        Numbered list (applyAnswers h list input (.object answers response)) ∧
        max s.list.length (place + 1) = list.length + added h list input (.object answers response) := by
      cases found : pending h (askedQuestions input) s.list with
      | some place =>
        rw [found] at whole pending_
        obtain ⟨small, open_⟩ := pending_spec found
        refine ⟨place, whole ▸ record_settled small _, ?_, whole ▸ numbered_record numbered _ _, ?_⟩
        · intro mem
          rw [((stand_answers stand).2 place mem).2] at open_
          cases open_
        · rw [added, if_pos (.inr (pending_.mp rfl)), ← Nat.add_assoc, ← lengths]
          exact Nat.max_eq_left small
      | none =>
        rw [found] at whole pending_
        refine ⟨s.list.length, whole ▸ append_settled s none freeForm _, ?_,
          whole ▸ numbered_append numbered none freeForm _, ?_⟩
        · intro mem
          exact Nat.lt_irrefl _ ((stand_answers stand).2 _ mem).1
        · have closed : ¬ (trimmed response = [] ∨ leftOpen h list input
              ((given (.object answers response)).map Prod.fst) = true) := by
            rintro (none_ | open_)
            · exact blank none_
            · have bad := pending_.mpr open_
              cases bad
          rw [added, if_neg closed, ← Nat.add_assoc, ← lengths]
          exact Nat.max_eq_right (Nat.le_succ _)
    obtain ⟨place, settled, away, numbered', count⟩ := settled
    refine ⟨?_, numbered', settled.length.trans count⟩
    rw [texts, filter_cons_of_pos (by simpa using blank), filter_nil]
    intro text mem
    rcases mem_append.mp mem with key | own
    · exact fromKeys (stand.keep settled away) text key
    · rw [mem_singleton.mp own]
      exact settled.answer

theorem left_of_apart (lower : ∀ t, h.toLowerCase (trim t) = trim (h.toLowerCase t))
    (response : Response)
    (apart : (given response).Pairwise fun entry other => ¬ Clash h list entry.1 other.1) :
    Left h list input response := by
  cases response with
  | absent => exact ⟨fun _ mem => absurd mem not_mem_nil, numbered_start list, rfl⟩
  | text response => exact left_text response
  | object answers response => exact left_object lower answers response apart

variable (h list input) in
/-- Every answer stays, in its own item, and added items have ids of their own, exactly when no
two keys are taken for one item and the list has none of the ids that are to be given. -/
theorem answers_land_iff (lower : ∀ t, h.toLowerCase (trim t) = trim (h.toLowerCase t))
    (response : Response) :
    AllLand h list input response ↔ ToldApart h list input response := by
  have nodup := (@landings_nodup h list (askedQuestions input) lower (given response) given_some).1
  constructor
  · rintro ⟨-, apart, ids⟩
    have keys := nodup.mp apart
    have left := @left_of_apart h list input lower response keys
    refine ⟨keys, ?_⟩
    have free := left.numbered.apart_iff.mp ids
    rwa [left.length, Nat.add_sub_cancel_left] at free
  · rintro ⟨keys, free⟩
    have left := @left_of_apart h list input lower response keys
    refine ⟨left.answers, nodup.mpr keys, left.numbered.apart_iff.mpr ?_⟩
    rwa [left.length, Nat.add_sub_cancel_left]

end Whole

def asciiHost : Host := ⟨fun t => t.map foldCase, rfl⟩

theorem isSpace_foldCase (u : UInt16) : isSpace (foldCase u) = isSpace u := by
  unfold foldCase
  split
  · next upper =>
    simp only [isUpperLetter, Bool.and_eq_true, decide_eq_true_eq, UInt16.le_iff_toNat_le] at upper
    simp only [UInt16.reduceToNat] at upper
    have sum : (u + 0x20).toNat = u.toNat + 0x20 := by
      rw [UInt16.toNat_add]
      simp only [UInt16.reduceToNat]
      omega
    rw [isSpace_graphic (by omega) (by omega), isSpace_graphic (by omega) (by omega)]
  · rfl

theorem asciiHost_trim (t : Text) :
    asciiHost.toLowerCase (trim t) = trim (asciiHost.toLowerCase t) := by
  have comp : isSpace ∘ foldCase = isSpace := funext isSpace_foldCase
  show (trim t).map foldCase = trim (t.map foldCase)
  rw [trim, trim, List.rdropWhile, List.rdropWhile, dropWhile_map, comp, ← map_reverse,
    dropWhile_map, comp, ← map_reverse]

def clarification (id question : String) : Clarification :=
  ⟨js id, js question, js "Scope", js "why", [], none, false, none, none, none⟩

def database : List Clarification := [clarification "q1" "Which database should we use?"]

def twoKeys : Response :=
  .object [(js "Which database", js "Postgres"), (js "database", js "MySQL")] none

theorem answers_land_iff_database :
    AllLand asciiHost database [] (.object [(js "Which database", js "Postgres")] none) ↔
      ToldApart asciiHost database [] (.object [(js "Which database", js "Postgres")] none) :=
  answers_land_iff asciiHost database [] asciiHost_trim _

/-- Both keys are contained in the one question: only the second answer is left. And an added item
has the id of the one there was. -/
theorem second_key_overwrites :
    ¬ AllLand asciiHost database [] twoKeys ∧
      (applyAnswers asciiHost database [] twoKeys).list.map Clarification.answer = [some (js "MySQL")] ∧
      (applyAnswers asciiHost [clarification "q2" "Which color?"] []
        (.object [(js "Deadline", js "Friday")] none)).list.map Clarification.id = [js "q2", js "q2"] := by
  refine ⟨?_, by decide +kernel, by decide +kernel⟩
  intro land
  have clash : ¬ (landings asciiHost [] (given twoKeys) ⟨database, []⟩).Nodup := by decide +kernel
  exact clash land.apart

end Ultrathink.Guarantees.AnswersLand
