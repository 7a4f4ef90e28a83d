import Mathlib.Data.List.Nodup
import Ultrathink.Library.JsNumber
import Ultrathink.Source.Hitl.Pipeline

/-!
# The questions of a clarify pass

For every reply of the clarifier, every set of documents and whatever the checks find, the
questions keep to their caps, are numbered in order and are asked once; the second pass
keeps each open question of the first in its place and asks a rejected claim again while
there is room.
-/

namespace Ultrathink.Source.Hitl.Pipeline

open List Library JsText Format

variable {ν : Type} {h : Host} {max : Nat} {docs : List Text}

def openOf (list : List Clarification) : List Clarification := list.filter fun c => !isSettled c

def settledOf (list : List Clarification) : List Clarification := list.filter isSettled

def keyOf (h : Host) (c : Clarification) : Text := normalizeQuestion h c.question

structure WellFormed (h : Host) (max : Nat) (docs : List Text) (list : List Clarification) :
    Prop where
  order : list = openOf list ++ settledOf list
  openCount : (openOf list).length ≤ max
  settledCount : (settledOf list).length ≤ MAX_SETTLED
  openIds : (openOf list).map (·.id) = (List.range (openOf list).length).map (numbered "q")
  settledIds : (settledOf list).map (·.id) =
    (List.range (settledOf list).length).map (numbered "k")
  ids : (list.map (·.id)).Nodup
  keys : (list.map (keyOf h)).Nodup
  settled : ∀ c ∈ list, isSettled c = true →
    c.blocking = false ∧ ∃ doc ∈ docSet docs, c.evidence = some doc

theorem numbered_injective {letter : String} {m n : Nat}
    (same : numbered letter m = numbered letter n) : m = n := by
  have digits := JsNumber.ofNat_injective (append_cancel_left same)
  omega

theorem head?_numbered_q (n : Nat) : (numbered "q" n).head? = some 0x71 := rfl

theorem head?_numbered_k (n : Nat) : (numbered "k" n).head? = some 0x6B := rfl

theorem nodup_numbered (letter : String) (n : Nat) :
    ((List.range n).map (numbered letter)).Nodup :=
  List.Nodup.map (fun _ _ same => numbered_injective same) nodup_range

theorem nodup_ids {asked settled : List Clarification} {m n : Nat}
    (askedIds : asked.map (·.id) = (List.range m).map (numbered "q"))
    (settledIds : settled.map (·.id) = (List.range n).map (numbered "k")) :
    ((asked ++ settled).map (·.id)).Nodup := by
  rw [map_append, askedIds, settledIds]
  refine nodup_append.mpr ⟨nodup_numbered _ _, nodup_numbered _ _, ?_⟩
  intro id mem other mem' same
  obtain ⟨i, -, rfl⟩ := mem_map.mp mem
  obtain ⟨j, -, rfl⟩ := mem_map.mp mem'
  have first := head?_numbered_q i
  rw [same, head?_numbered_k] at first
  cases first

theorem range_snoc {letter : String} {list : List Clarification} {c : Clarification}
    (ids : list.map (·.id) = (List.range list.length).map (numbered letter))
    (next : c.id = numbered letter list.length) :
    (list ++ [c]).map (·.id) = (List.range (list ++ [c]).length).map (numbered letter) := by
  rw [map_append, ids, length_append, length_singleton, range_succ,
    map_append, map_singleton, map_singleton, next]

theorem normalizeItem_some {raw : Json ν} {index : Nat} {claimed : Option Text} {c : Clarification}
    (made : normalizeItem h raw index claimed = some c) :
    c.id = numbered "q" index ∧ isSettled c = false ∧
      ∃ obj, asObject raw = some obj ∧ c.question = normalizeQuestionText (get obj "question") := by
  unfold normalizeItem at made
  cases object : asObject raw with
  | none => simp [object] at made
  | some obj =>
    simp only [object] at made
    split at made
    · cases made
    · split at made
      · cases made
      · cases made
        exact ⟨rfl, rfl, obj, rfl, rfl⟩

theorem normalizeItem_claimed {raw : Json ν} {obj : Json.Record ν} (object : asObject raw = some obj)
    (question : normalizeQuestionText (get obj "question") ≠ []) (index : Nat) (claimed : Text) :
    ∃ c, normalizeItem h raw index (some claimed) = some c := by
  unfold normalizeItem
  simp only [object, if_neg question]
  by_cases few : (normalizeOptions h (get obj "options")).length < MIN_OPTIONS
  · simp only [if_pos few, Option.map_some]
    exact ⟨_, rfl⟩
  · simp only [if_neg few]
    exact ⟨_, rfl⟩

theorem normalizeSettledItem_some {obj : Json.Record ν} {index : Nat} {claim : Claim}
    {c : Clarification} (made : normalizeSettledItem h obj index claim = some c) :
    c.id = numbered "k" index ∧ isSettled c = true ∧ c.blocking = false ∧
      c.evidence = some claim.source ∧ normalizeQuestionText (get obj "question") ≠ [] ∧
      c.question = normalizeQuestionText (get obj "question") := by
  unfold normalizeSettledItem at made
  simp only at made
  split at made
  · cases made
  next question =>
    cases made
    exact ⟨rfl, rfl, rfl, rfl, question, rfl⟩

theorem knowledgeClaim_some {knowledge : Json.Record ν} {claim : Claim}
    (found : knowledgeClaim knowledge docs = some claim) : claim.source ∈ docs := by
  unfold knowledgeClaim at found
  simp only at found
  split at found
  · cases found
  · split at found
    · cases found
    next read =>
      cases found
      simp only [not_or, not_not] at read
      exact read.2

/-- The item has a claim that the first pass settles and the second asks again. -/
def Claimable (h : Host) (docs : List Text) (key : Text) (item : Json ν) : Prop :=
  ∃ obj knowledge, asObject item = some obj ∧ (get obj "knowledge").bind asObject = some knowledge ∧
    isTrue (get obj "blocking") = false ∧ knowledgeClaim knowledge docs ≠ none ∧
    normalizeQuestion h (normalizeQuestionText (get obj "question")) = key

theorem claimOf_some {item : Json ν} {n : Nat} {claim : Claim}
    (found : claimOf docs item n = some claim) :
    n < MAX_SETTLED ∧ claim.source ∈ docs ∧ ∃ obj knowledge, asObject item = some obj ∧
      (get obj "knowledge").bind asObject = some knowledge ∧
      isTrue (get obj "blocking") = false ∧ knowledgeClaim knowledge docs = some claim := by
  unfold claimOf knowledgeOf at found
  by_cases none_ : docs = []
  · simp [none_] at found
  · simp only [if_neg none_] at found
    cases object : asObject item with
    | none => simp [object] at found
    | some obj =>
      simp only [object, Option.bind_some] at found
      cases known : (get obj "knowledge").bind asObject with
      | none => simp [known] at found
      | some knowledge =>
        simp only [known] at found
        split at found
        · cases found
        next calm =>
          split at found
          next room =>
            exact ⟨room, knowledgeClaim_some found, obj, knowledge, rfl, known,
              by simpa using calm, found⟩
          next => cases found

/-- What both passes keep of their open and settled questions. -/
structure Good (h : Host) (max : Nat) (docs : List Text) (asked settled : List Clarification) :
    Prop where
  askedSource : ∀ c ∈ asked, isSettled c = false
  settledSource : ∀ c ∈ settled, isSettled c = true
  askedCount : asked.length ≤ max
  settledCount : settled.length ≤ MAX_SETTLED
  askedIds : asked.map (·.id) = (List.range asked.length).map (numbered "q")
  settledIds : settled.map (·.id) = (List.range settled.length).map (numbered "k")
  keys : ((asked ++ settled).map (keyOf h)).Nodup
  cites : ∀ c ∈ settled, c.blocking = false ∧ ∃ doc ∈ docs, c.evidence = some doc

theorem openOf_good {asked settled : List Clarification} (good : Good h max docs asked settled) :
    openOf (asked ++ settled) = asked ∧ settledOf (asked ++ settled) = settled := by
  have first : asked.filter (fun c => !isSettled c) = asked :=
    filter_eq_self.mpr fun c mem => by simp [good.askedSource c mem]
  have second : settled.filter (fun c => !isSettled c) = [] :=
    filter_eq_nil_iff.mpr fun c mem => by simp [good.settledSource c mem]
  have third : asked.filter isSettled = [] :=
    filter_eq_nil_iff.mpr fun c mem => by simp [good.askedSource c mem]
  have fourth : settled.filter isSettled = settled :=
    filter_eq_self.mpr fun c mem => good.settledSource c mem
  constructor
  · rw [openOf, filter_append, first, second, append_nil]
  · rw [settledOf, filter_append, third, fourth, nil_append]

theorem wellFormed_of_good {asked settled : List Clarification}
    (good : Good h max (docSet docs) asked settled) : WellFormed h max docs (asked ++ settled) := by
  obtain ⟨askedPart, settledPart⟩ := openOf_good good
  refine ⟨?_, ?_, ?_, ?_, ?_, nodup_ids good.askedIds good.settledIds, good.keys, ?_⟩
  · rw [askedPart, settledPart]
  · rw [askedPart]
    exact good.askedCount
  · rw [settledPart]
    exact good.settledCount
  · rw [askedPart]
    exact good.askedIds
  · rw [settledPart]
    exact good.settledIds
  · intro c mem source
    rcases mem_append.mp mem with asked | settled
    · rw [good.askedSource c asked] at source
      cases source
    · exact good.cites c settled

/-- The loop of the first pass, over the items it has read. -/
structure Sorting (h : Host) (max : Nat) (docs : List Text) (items : List (Json ν)) (s : Sorted) :
    Prop where
  good : Good h max docs s.asked s.settled
  seen : ∀ c ∈ s.asked ++ s.settled, keyOf h c ∈ s.seen
  claims : ∀ c ∈ s.settled, keyOf h c ≠ [] ∧ ∃ item ∈ items, Claimable h docs (keyOf h c) item

theorem nodup_keys_asked {asked settled : List Clarification} {c : Clarification}
    (keys : ((asked ++ settled).map (keyOf h)).Nodup)
    (new : ∀ d ∈ asked ++ settled, keyOf h d ≠ keyOf h c) :
    ((asked ++ [c] ++ settled).map (keyOf h)).Nodup := by
  have moved : (asked ++ [c] ++ settled).Perm (c :: (asked ++ settled)) := by
    rw [append_assoc]
    exact perm_middle
  refine (moved.map _).nodup_iff.mpr (nodup_cons.mpr ⟨fun mem => ?_, keys⟩)
  obtain ⟨d, mem, same⟩ := mem_map.mp mem
  exact new d mem same

theorem nodup_keys_settled {asked settled : List Clarification} {c : Clarification}
    (keys : ((asked ++ settled).map (keyOf h)).Nodup)
    (new : ∀ d ∈ asked ++ settled, keyOf h d ≠ keyOf h c) :
    ((asked ++ (settled ++ [c])).map (keyOf h)).Nodup := by
  rw [← append_assoc, map_append, map_singleton]
  refine nodup_append.mpr ⟨keys, by simp, fun key old key' last same => ?_⟩
  obtain ⟨d, mem, made⟩ := mem_map.mp old
  rw [mem_singleton.mp last, ← made] at same
  exact new d mem same

theorem sorting_sortItem {items : List (Json ν)} {s : Sorted} (sorting : Sorting h max docs items s)
    {item : Json ν} (mem : item ∈ items) : Sorting h max docs items (sortItem h max docs s item) := by
  obtain ⟨good, seen, claims⟩ := sorting
  have isNew : ∀ c : Clarification, keyOf h c ∉ s.seen →
      ∀ d ∈ s.asked ++ s.settled, keyOf h d ≠ keyOf h c := by
    intro c unseen d there same
    exact unseen (same ▸ seen d there)
  unfold sortItem
  cases found : claimOf docs item s.settled.length with
  | some claim =>
    obtain ⟨room, read, obj, knowledge, object, known, calm, valid⟩ := claimOf_some found
    simp only [object]
    cases made : normalizeSettledItem h obj s.settled.length claim with
    | none => exact ⟨good, seen, claims⟩
    | some c =>
      obtain ⟨id, source, blocking, evidence, some_, question⟩ := normalizeSettledItem_some made
      simp only
      split
      · exact ⟨good, seen, claims⟩
      next unseen =>
        simp only [not_or] at unseen
        refine ⟨⟨good.askedSource, ?_, good.askedCount, ?_, good.askedIds, ?_, ?_, ?_⟩, ?_, ?_⟩
        · intro d there
          rcases mem_append.mp there with old | new
          · exact good.settledSource d old
          · rw [mem_singleton.mp new]
            exact source
        · rw [length_append, length_singleton]
          exact room
        · exact range_snoc good.settledIds id
        · exact nodup_keys_settled good.keys (isNew c unseen.2)
        · intro d there
          rcases mem_append.mp there with old | new
          · exact good.cites d old
          · rw [mem_singleton.mp new]
            exact ⟨blocking, claim.source, read, evidence⟩
        · intro d there
          rw [← append_assoc] at there
          rcases mem_append.mp there with old | new
          · exact mem_cons_of_mem _ (seen d old)
          · rw [mem_singleton.mp new]
            exact mem_cons_self ..
        · intro d there
          rcases mem_append.mp there with old | new
          · exact claims d old
          · rw [mem_singleton.mp new]
            refine ⟨unseen.1, item, mem, obj, knowledge, object, known, calm, by simp [valid], ?_⟩
            rw [keyOf, question]
  | none =>
    by_cases room : s.asked.length < max
    · simp only [if_pos room]
      cases made : normalizeItem h item s.asked.length ((knowledgeOf docs item).map claimedAnswer) with
      | none => exact ⟨good, seen, claims⟩
      | some c =>
        obtain ⟨id, source, -⟩ := normalizeItem_some made
        simp only
        split
        · exact ⟨good, seen, claims⟩
        next unseen =>
          simp only [not_or] at unseen
          refine ⟨⟨?_, good.settledSource, ?_, good.settledCount, ?_, good.settledIds, ?_,
            good.cites⟩, ?_, claims⟩
          · intro d there
            rcases mem_append.mp there with old | new
            · exact good.askedSource d old
            · rw [mem_singleton.mp new]
              exact source
          · rw [length_append, length_singleton]
            exact room
          · exact range_snoc good.askedIds id
          · exact nodup_keys_asked good.keys (isNew c unseen.2)
          · intro d there
            rw [append_assoc] at there
            rcases mem_append.mp there with old | new
            · exact mem_cons_of_mem _ (seen d (mem_append_left _ old))
            · rcases mem_append.mp new with new | old
              · rw [mem_singleton.mp new]
                exact mem_cons_self ..
              · exact mem_cons_of_mem _ (seen d (mem_append_right _ old))
    · simp only [if_neg room]
      exact ⟨good, seen, claims⟩

theorem sorting_sortItems {items : List (Json ν)} (rest : List (Json ν)) {s : Sorted}
    (sorting : Sorting h max docs items s) (part : ∀ item ∈ rest, item ∈ items) :
    Sorting h max docs items (sortItems h max docs rest s) := by
  induction rest generalizing s with
  | nil => exact sorting
  | cons item rest ih =>
    rw [sortItems]
    split
    · exact sorting
    · exact ih (sorting_sortItem sorting (part item (by simp)))
        fun other mem => part other (mem_cons_of_mem _ mem)

theorem sorting_sorted (raw : Json ν) :
    Sorting h max (docSet docs) (clarifierItems raw) (sorted h raw max docs) := by
  refine sorting_sortItems _ ⟨⟨?_, ?_, ?_, ?_, rfl, rfl, ?_, ?_⟩, ?_, ?_⟩ fun _ mem => mem <;> simp

theorem normalizeQuestion_nil (h : Host) : normalizeQuestion h [] = [] := by
  rw [normalizeQuestion, h.empty]
  rfl

/-- Open questions while rejected claims are asked again. -/
structure Reopening (h : Host) (max : Nat) (pending : List Text) (asked : List Clarification) :
    Prop where
  source : ∀ c ∈ asked, isSettled c = false
  count : asked.length ≤ max
  ids : asked.map (·.id) = (List.range asked.length).map (numbered "q")
  keys : (asked.map (keyOf h)).Nodup
  apart : ∀ c ∈ asked, keyOf h c ∉ pending

/-- What `reopen` makes of the open questions: they stay, and what it adds was pending. -/
structure Reopened (h : Host) (max : Nat) (pending : List Text) (asked out : List Clarification) :
    Prop where
  kept : asked <+: out
  source : ∀ c ∈ out, isSettled c = false
  count : out.length ≤ max
  ids : out.map (·.id) = (List.range out.length).map (numbered "q")
  keys : (out.map (keyOf h)).Nodup
  added : ∀ c ∈ out, c ∈ asked ∨ keyOf h c ∈ pending

theorem Reopening.done {pending : List Text} {asked : List Clarification}
    (start : Reopening h max pending asked) : Reopened h max pending asked asked :=
  ⟨prefix_refl _, start.source, start.count, start.ids, start.keys, fun _ mem => Or.inl mem⟩

theorem Reopening.add {pending : List Text} {asked : List Clarification} {c : Clarification}
    (start : Reopening h max pending asked) (room : asked.length < max)
    (source : isSettled c = false) (id : c.id = numbered "q" asked.length)
    (pends : keyOf h c ∈ pending) :
    Reopening h max (pending.filter (· ≠ keyOf h c)) (asked ++ [c]) := by
  refine ⟨?_, ?_, range_snoc start.ids id, ?_, ?_⟩
  · intro d there
    rcases mem_append.mp there with old | new
    · exact start.source d old
    · rw [mem_singleton.mp new]
      exact source
  · rw [length_append, length_singleton]
    exact room
  · rw [map_append, map_singleton]
    refine nodup_append.mpr ⟨start.keys, by simp, fun key old key' last same => ?_⟩
    obtain ⟨d, there, made⟩ := mem_map.mp old
    rw [mem_singleton.mp last, ← made] at same
    exact start.apart d there (same ▸ pends)
  · intro d there still
    obtain ⟨pending', other⟩ := mem_filter.mp still
    rcases mem_append.mp there with old | new
    · exact start.apart d old pending'
    · rw [mem_singleton.mp new] at other
      simp at other

theorem Reopened.of_add {pending : List Text} {asked out : List Clarification} {c : Clarification}
    (pends : keyOf h c ∈ pending)
    (later : Reopened h max (pending.filter (· ≠ keyOf h c)) (asked ++ [c]) out) :
    Reopened h max pending asked out := by
  refine ⟨(prefix_append ..).trans later.kept, later.source, later.count, later.ids,
    later.keys, fun d there => ?_⟩
  rcases later.added d there with mem | mem
  · rcases mem_append.mp mem with old | new
    · exact Or.inl old
    · rw [mem_singleton.mp new]
      exact Or.inr pends
  · exact Or.inr (mem_filter.mp mem).1

/-- A step of `reopen`: the item is passed over, or its question is the next open one. -/
theorem reopen_cons {item : Json ν} {rest : List (Json ν)} {pending : List Text}
    {asked : List Clarification} (some_ : [] ∉ pending) (room : asked.length < max)
    (any : pending ≠ []) :
    (reopen h max docs (item :: rest) pending asked = reopen h max docs rest pending asked ∧
      ∀ key ∈ pending, ¬Claimable h docs key item) ∨
    ∃ c, keyOf h c ∈ pending ∧ isSettled c = false ∧ c.id = numbered "q" asked.length ∧
      reopen h max docs (item :: rest) pending asked =
        reopen h max docs rest (pending.filter (· ≠ keyOf h c)) (asked ++ [c]) ∧
      ∀ key ∈ pending, Claimable h docs key item → key = keyOf h c := by
  rw [reopen, if_neg (by simp only [not_or]; exact ⟨Nat.not_le.mpr room, any⟩)]
  cases object : asObject item with
  | none =>
    refine Or.inl ⟨rfl, fun key _ claimable => ?_⟩
    obtain ⟨obj, -, here, -⟩ := claimable
    rw [object] at here
    cases here
  | some obj =>
    simp only
    cases known : (get obj "knowledge").bind asObject with
    | none =>
      refine Or.inl ⟨rfl, fun key _ claimable => ?_⟩
      obtain ⟨obj', knowledge, here, known', -⟩ := claimable
      rw [object] at here
      cases here
      rw [known] at known'
      cases known'
    | some knowledge =>
      simp only
      split
      next over_ =>
        refine Or.inl ⟨rfl, fun key mem claimable => ?_⟩
        obtain ⟨obj', knowledge', here, known', calm, valid, question⟩ := claimable
        rw [object] at here
        cases here
        rw [known] at known'
        cases known'
        rcases over_ with blocking | absent | invalid
        · rw [blocking] at calm
          cases calm
        · exact absent (question ▸ mem)
        · exact valid invalid
      next taken =>
        simp only [not_or, not_not] at taken
        have question : normalizeQuestionText (get obj "question") ≠ [] := by
          intro none_
          have pends := taken.2.1
          rw [none_, normalizeQuestion_nil] at pends
          exact some_ pends
        obtain ⟨c, made⟩ := normalizeItem_claimed (h := h) object question asked.length
          (claimedAnswer knowledge)
        obtain ⟨id, source, obj', here, same⟩ := normalizeItem_some made
        rw [object] at here
        cases here
        have key : keyOf h c = normalizeQuestion h (normalizeQuestionText (get obj "question")) := by
          rw [keyOf, same]
        refine Or.inr ⟨c, key ▸ taken.2.1, source, id, ?_, fun other mem claimable => ?_⟩
        · simp only [made, key]
        · obtain ⟨obj', -, here, -, -, -, question⟩ := claimable
          rw [object] at here
          cases here
          rw [key, question]

theorem reopen_reopened (items : List (Json ν)) {pending : List Text} {asked : List Clarification}
    (start : Reopening h max pending asked) (some_ : [] ∉ pending) :
    Reopened h max pending asked (reopen h max docs items pending asked) ∧
      ∀ key ∈ pending, (∃ item ∈ items, Claimable h docs key item) →
        (∃ c ∈ reopen h max docs items pending asked, keyOf h c = key) ∨
          max ≤ (reopen h max docs items pending asked).length := by
  induction items generalizing pending asked with
  | nil =>
    refine ⟨start.done, fun key _ claimable => ?_⟩
    obtain ⟨item, mem, -⟩ := claimable
    cases mem
  | cons item rest ih =>
    by_cases stop : max ≤ asked.length ∨ pending = []
    · rw [reopen, if_pos stop]
      refine ⟨start.done, fun key mem _ => ?_⟩
      rcases stop with full | none_
      · exact Or.inr full
      · rw [none_] at mem
        cases mem
    · simp only [not_or, Nat.not_le] at stop
      rcases @reopen_cons _ h _ docs item rest _ _ some_ stop.1 stop.2
        with ⟨same, passed⟩ | ⟨c, pends, source, id, same, only⟩
      · rw [same]
        obtain ⟨reopened, found⟩ := ih start some_
        refine ⟨reopened, fun key mem ⟨other, there, claimable⟩ => ?_⟩
        rcases mem_cons.mp there with rfl | later
        · exact absurd claimable (passed key mem)
        · exact found key mem ⟨other, later, claimable⟩
      · rw [same]
        obtain ⟨reopened, found⟩ := ih (start.add stop.1 source id pends)
          fun mem => some_ (mem_filter.mp mem).1
        refine ⟨reopened.of_add pends, fun key mem ⟨other, there, claimable⟩ => ?_⟩
        have asks : ∃ d ∈ reopen h max docs rest (pending.filter (· ≠ keyOf h c)) (asked ++ [c]),
            keyOf h d = keyOf h c :=
          ⟨c, reopened.kept.subset (by simp), rfl⟩
        by_cases here : key = keyOf h c
        · rw [here]
          exact Or.inl asks
        · rcases mem_cons.mp there with rfl | later
          · exact absurd (only key mem claimable) here
          · exact found key (mem_filter.mpr ⟨mem, by simpa using here⟩)
              ⟨other, later, claimable⟩

theorem renumber_length (index : Nat) (list : List Clarification) :
    (renumber index list).length = list.length := by
  induction list generalizing index with
  | nil => rfl
  | cons c rest ih => rw [renumber, length_cons, length_cons, ih]

theorem renumber_ids (index : Nat) (list : List Clarification) :
    (renumber index list).map (·.id) =
      (List.range' index list.length).map (numbered "k") := by
  induction list generalizing index with
  | nil => rfl
  | cons c rest ih =>
    rw [renumber, map_cons, ih, length_cons, range'_succ, map_cons]

theorem renumber_keys (index : Nat) (list : List Clarification) :
    (renumber index list).map (keyOf h) = list.map (keyOf h) := by
  induction list generalizing index with
  | nil => rfl
  | cons c rest ih =>
    rw [renumber, map_cons, map_cons, ih]
    rfl

theorem mem_renumber {index : Nat} {list : List Clarification} {c : Clarification}
    (mem : c ∈ renumber index list) : ∃ d ∈ list, c = { d with id := c.id } := by
  induction list generalizing index with
  | nil => cases mem
  | cons d rest ih =>
    rcases mem_cons.mp mem with rfl | later
    · exact ⟨d, by simp, rfl⟩
    · obtain ⟨e, there, same⟩ := ih later
      exact ⟨e, mem_cons_of_mem _ there, same⟩

theorem good_reopenRejected {parsed : Json ν} {asked settled : List Clarification}
    (good : Good h max (docSet docs) asked settled) {rejected : List Text}
    (some_ : ∀ c ∈ settled, keyOf h c ≠ []) (known : ∀ key ∈ rejected, key ∈ settled.map (keyOf h)) :
    ∃ asked' settled', reopenRejected h parsed (asked ++ settled) rejected max docs =
        asked' ++ settled' ∧
      Good h max (docSet docs) asked' settled' ∧ asked <+: asked' ∧
      ∀ key ∈ rejected, (∃ item ∈ clarifierItems parsed, Claimable h (docSet docs) key item) →
        (∃ c ∈ asked', keyOf h c = key) ∨ max ≤ asked'.length := by
  obtain ⟨askedPart, settledPart⟩ := openOf_good good
  have keys := good.keys
  rw [map_append] at keys
  obtain ⟨askedKeys, settledKeys, disjoint⟩ := nodup_append.mp keys
  have start : Reopening h max rejected asked := by
    refine ⟨good.askedSource, good.askedCount, good.askedIds, askedKeys, fun c mem there => ?_⟩
    exact disjoint _ (mem_map_of_mem mem) _ (known _ there) rfl
  have nonempty : ([] : Text) ∉ rejected := by
    intro mem
    obtain ⟨c, there, none_⟩ := mem_map.mp (known _ mem)
    exact some_ c there none_
  obtain ⟨reopened, found⟩ :=
    @reopen_reopened _ _ _ (docSet docs) (clarifierItems parsed) _ _ start nonempty
  let left := settled.filter fun c => decide (normalizeQuestion h c.question ∉ rejected)
  have leftPart : (asked ++ settled).filter (fun item =>
      isSettled item && decide (normalizeQuestion h item.question ∉ rejected)) = left := by
    have swapped : (fun item : Clarification =>
        isSettled item && decide (normalizeQuestion h item.question ∉ rejected)) =
        fun item => decide (normalizeQuestion h item.question ∉ rejected) && isSettled item := by
      funext item
      exact Bool.and_comm ..
    rw [swapped, ← filter_filter]
    exact congrArg _ settledPart
  have leftMem : ∀ c ∈ left, c ∈ settled ∧ keyOf h c ∉ rejected := by
    intro c mem
    obtain ⟨there, fine⟩ := mem_filter.mp mem
    exact ⟨there, of_decide_eq_true fine⟩
  refine ⟨_, renumber 0 left, ?_, ⟨reopened.source, ?_, reopened.count, ?_, reopened.ids, ?_, ?_,
    ?_⟩, reopened.kept, found⟩
  · rw [reopenRejected, leftPart]
    exact congrArg (fun part => reopen h max (docSet docs) (clarifierItems parsed) rejected part ++
      renumber 0 left) askedPart
  · intro c mem
    obtain ⟨d, there, same⟩ := mem_renumber mem
    rw [same]
    exact good.settledSource d (leftMem d there).1
  · rw [renumber_length]
    exact Nat.le_trans (length_filter_le ..) good.settledCount
  · rw [renumber_ids, renumber_length, range_eq_range']
  · rw [map_append, renumber_keys]
    refine nodup_append.mpr ⟨reopened.keys, ?_, fun key mem key' mem' same => ?_⟩
    · exact settledKeys.sublist (filter_sublist.map _)
    · obtain ⟨c, there, rfl⟩ := mem_map.mp mem
      obtain ⟨d, there', rfl⟩ := mem_map.mp mem'
      obtain ⟨old, calm⟩ := leftMem d there'
      rcases reopened.added c there with asked | pends
      · exact disjoint _ (mem_map_of_mem asked) _ (mem_map_of_mem old) same
      · exact calm (same ▸ pends)
  · intro c mem
    obtain ⟨d, there, same⟩ := mem_renumber mem
    rw [same]
    exact good.cites d (leftMem d there).1

/-- The question, blocking when it was promoted. -/
def Promotes (g : Clarification → Clarification) : Prop :=
  ∀ c, g c = c ∨ isSettled c = false ∧ g c = { c with blocking := true }

theorem promotes_promote (keys : List Text) : Promotes (promote h keys) := by
  intro c
  unfold promote
  split
  next raised =>
    simp only [Bool.and_eq_true, Bool.not_eq_true'] at raised
    exact Or.inr ⟨raised.1.1, rfl⟩
  next => exact Or.inl rfl

theorem Promotes.settled {g : Clarification → Clarification} (promotes : Promotes g)
    {list : List Clarification} (source : ∀ c ∈ list, isSettled c = true) : list.map g = list := by
  refine (map_congr_left fun c mem => ?_).trans (map_id list)
  rcases promotes c with same | ⟨isOpen, -⟩
  · exact same
  · rw [source c mem] at isOpen
    cases isOpen

theorem Promotes.keeps {α : Type} {g : Clarification → Clarification} (promotes : Promotes g)
    (f : Clarification → α) (blind : ∀ c : Clarification, f { c with blocking := true } = f c)
    (list : List Clarification) : (list.map g).map f = list.map f := by
  rw [map_map]
  refine map_congr_left fun c _ => ?_
  rcases promotes c with same | ⟨-, raised⟩
  · exact congrArg f same
  · exact (congrArg f raised).trans (blind c)

theorem good_promoted {g : Clarification → Clarification} (promotes : Promotes g)
    {asked settled : List Clarification} (good : Good h max docs asked settled) :
    (asked ++ settled).map g = asked.map g ++ settled ∧ Good h max docs (asked.map g) settled := by
  refine ⟨by rw [map_append, promotes.settled good.settledSource], ?_, good.settledSource, ?_,
    good.settledCount, ?_, good.settledIds, ?_, good.cites⟩
  · intro c mem
    obtain ⟨d, there, rfl⟩ := mem_map.mp mem
    rcases promotes d with same | ⟨isOpen, raised⟩
    · rw [same]
      exact good.askedSource d there
    · rw [raised]
      exact isOpen
  · rw [length_map]
    exact good.askedCount
  · rw [promotes.keeps _ (fun _ => rfl), length_map]
    exact good.askedIds
  · rw [map_append, promotes.keeps _ (fun _ => rfl), ← map_append]
    exact good.keys

/-- An open question of the first pass and what the second makes of it. -/
def SamePlace (c d : Clarification) : Prop :=
  d = { c with blocking := d.blocking } ∧ (c.blocking = true → d.blocking = true)

theorem samePlace_of_promotes {g : Clarification → Clarification} (promotes : Promotes g)
    (c : Clarification) : SamePlace c (g c) := by
  rcases promotes c with same | ⟨-, raised⟩
  · rw [same]
    exact ⟨rfl, id⟩
  · rw [raised]
    exact ⟨rfl, fun _ => rfl⟩

theorem kept_place {g : Clarification → Clarification} (promotes : Promotes g)
    {asked asked' : List Clarification} (kept : asked <+: asked') {i : Nat} {c : Clarification}
    (here : asked[i]? = some c) : ∃ d, (asked'.map g)[i]? = some d ∧ SamePlace c d := by
  obtain ⟨more, rfl⟩ := kept
  have bound : i < asked.length := (List.getElem?_eq_some_iff.mp here).1
  refine ⟨g c, ?_, samePlace_of_promotes promotes c⟩
  rw [List.getElem?_map, List.getElem?_append_left bound, here, Option.map_some]

/-- For every reply, every set of documents and all findings: both passes keep to the caps,
number in order and ask each question once; settled questions cite a document that was read
and do not block; each open question keeps its place; and a claim that is not supported is
asked again unless no slot is left. -/
theorem clarifications_kept (found : Findings) (parsed : Json ν) (max : Nat) (docs : List Text) :
    let first := normalizeClarifications h parsed max docs
    let second := checkClarifications h found parsed max docs first
    WellFormed h max docs first ∧ WellFormed h max docs second ∧
      (∀ (i : Nat) (c : Clarification), (openOf first)[i]? = some c →
        ∃ d, (openOf second)[i]? = some d ∧ SamePlace c d) ∧
      ∀ claim ∈ first, isSettled claim = true → found.unsupported claim = true →
        (∃ c ∈ openOf second, keyOf h c = keyOf h claim) ∨ (openOf second).length = max := by
  intro first second
  obtain ⟨good, -, claims⟩ := @sorting_sorted _ h max docs parsed
  obtain ⟨askedPart, settledPart⟩ : openOf first = (sorted h parsed max docs).asked ∧
      settledOf first = (sorted h parsed max docs).settled := openOf_good good
  -- the second pass, before anything is promoted
  let rejected := (first.filter fun item => isSettled item && found.unsupported item).map
    fun item => normalizeQuestion h item.question
  have known : ∀ key ∈ rejected, key ∈ (sorted h parsed max docs).settled.map (keyOf h) := by
    intro key mem
    obtain ⟨c, there, made⟩ := mem_map.mp mem
    obtain ⟨inFirst, both⟩ := mem_filter.mp there
    simp only [Bool.and_eq_true] at both
    have inSettled : c ∈ settledOf first := mem_filter.mpr ⟨inFirst, both.1⟩
    rw [settledPart] at inSettled
    exact made ▸ mem_map_of_mem inSettled
  have checked : ∃ asked' settled',
      (if rejected = [] then first else reopenRejected h parsed first rejected max docs) =
        asked' ++ settled' ∧
      Good h max (docSet docs) asked' settled' ∧ (sorted h parsed max docs).asked <+: asked' ∧
      ∀ key ∈ rejected, (∃ c ∈ asked', keyOf h c = key) ∨ max ≤ asked'.length := by
    by_cases none_ : rejected = []
    · rw [if_pos none_]
      refine ⟨_, _, rfl, good, prefix_refl _, fun key mem => ?_⟩
      rw [none_] at mem
      cases mem
    · rw [if_neg none_]
      obtain ⟨asked', settled', same, good', kept, reopened⟩ :=
        @good_reopenRejected _ _ _ _ parsed _ _ good _ (fun c mem => (claims c mem).1) known
      refine ⟨asked', settled', same, good', kept, fun key mem => reopened key mem ?_⟩
      obtain ⟨c, there, made⟩ := mem_map.mp (known key mem)
      exact made ▸ (claims c there).2
  obtain ⟨asked', settled', same, good', kept, reopened⟩ := checked
  obtain ⟨g, promotes, promoted⟩ : ∃ g, Promotes g ∧
      second = ((if rejected = [] then first else
        reopenRejected h parsed first rejected max docs)).map g := by
    exact ⟨_, promotes_promote _, rfl⟩
  rw [same] at promoted
  obtain ⟨split, goodSecond⟩ := good_promoted promotes good'
  rw [split] at promoted
  obtain ⟨askedSecond, -⟩ := openOf_good goodSecond
  refine ⟨wellFormed_of_good good, promoted ▸ wellFormed_of_good goodSecond, ?_, ?_⟩
  · intro i c here
    rw [promoted, askedSecond]
    exact kept_place promotes kept (askedPart ▸ here)
  · intro claim mem source unsupported
    rw [promoted, askedSecond]
    have isRejected : keyOf h claim ∈ rejected :=
      mem_map_of_mem (mem_filter.mpr ⟨mem, by simp [source, unsupported]⟩)
    rcases reopened _ isRejected with ⟨c, there, asks⟩ | full
    · refine Or.inl ⟨g c, mem_map_of_mem there, ?_⟩
      obtain ⟨same, -⟩ := samePlace_of_promotes promotes c
      rw [same]
      exact asks
    · refine Or.inr (Nat.le_antisymm ?_ ?_)
      · exact goodSecond.askedCount
      · rw [length_map]
        exact full

end Ultrathink.Source.Hitl.Pipeline
