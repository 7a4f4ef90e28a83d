import Mathlib.Data.List.Nodup
import Ultrathink.Library.RoundRobin
import Ultrathink.Source.Retention.Listing

/-!
# Bounded prunes reach every session

A bounded run examines whole groups, from the one after its cursor on. When a cursor's
group is gone the next run starts over; that happens only finitely often, since names only
disappear, and from then on the windows move around a ring of groups.
-/

namespace Ultrathink.Retention

open List Library JsText

def allNames (groups : List Group) : List Text := groups.flatMap Group.names

theorem allNames_addNamed (stem name : Text) (groups : List Group) :
    (allNames (addNamed stem name groups)).Perm (name :: allNames groups) := by
  induction groups with
  | nil => exact List.Perm.refl _
  | cons group rest ih =>
    rw [addNamed]
    split
    · simp only [allNames, flatMap_cons, append_assoc, singleton_append]
      exact perm_middle
    · simp only [allNames, flatMap_cons] at ih ⊢
      exact (ih.append_left group.names).trans perm_middle

theorem allNames_addName (groups : List Group) (name : Text) :
    (allNames (addName groups name)).Perm (name :: allNames groups) := by
  unfold addName
  cases sessionStem name with
  | none =>
    simp only [allNames, flatMap_append, flatMap_singleton]
    exact perm_append_singleton ..
  | some stem => exact allNames_addNamed stem name groups

theorem allNames_foldl (names : List Text) (groups : List Group) :
    (allNames (names.foldl addName groups)).Perm (names ++ allNames groups) := by
  induction names generalizing groups with
  | nil => exact List.Perm.refl _
  | cons name rest ih =>
    refine (ih (addName groups name)).trans ?_
    exact ((allNames_addName groups name).append_left rest).trans perm_middle

theorem allNames_groupNames (dir : List Text) : (allNames (groupNames dir)).Perm dir := by
  have folded := allNames_foldl (sortNames dir) []
  rw [show allNames [] = [] from rfl, append_nil] at folded
  exact folded.trans (mergeSort_perm dir _)

/-- Groups hold the names of their stem, and a session has one group. -/
structure Grouped (groups : List Group) : Prop where
  some_ : ∀ group ∈ groups, group.names ≠ []
  own : ∀ group ∈ groups, ∀ name ∈ group.names, sessionStem name = group.stem
  apart : groups.Pairwise fun g g' => g.stem = none ∨ g.stem ≠ g'.stem

variable {name stem : Text} {groups : List Group}

theorem mem_addNamed {group : Group} (mem : group ∈ addNamed stem name groups) :
    group ∈ groups ∨ group.stem = some stem ∧ ∃ old, group.names = old ++ [name] ∧
      (old = [] ∨ ∃ before ∈ groups, before.stem = some stem ∧ before.names = old) := by
  induction groups with
  | nil =>
    rw [addNamed, mem_singleton] at mem
    subst mem
    exact Or.inr ⟨rfl, [], rfl, Or.inl rfl⟩
  | cons first rest ih =>
    rw [addNamed] at mem
    split at mem
    next same =>
      rcases mem_cons.mp mem with rfl | later
      · exact Or.inr ⟨same, first.names, rfl, Or.inr ⟨first, by simp, same, rfl⟩⟩
      · exact Or.inl (mem_cons_of_mem _ later)
    next =>
      rcases mem_cons.mp mem with rfl | later
      · exact Or.inl (by simp)
      · rcases ih later with old | ⟨own, old, names, before⟩
        · exact Or.inl (mem_cons_of_mem _ old)
        · refine Or.inr ⟨own, old, names, before.imp id ?_⟩
          rintro ⟨group', there, facts⟩
          exact ⟨group', mem_cons_of_mem _ there, facts⟩

theorem stems_addNamed {group : Group} (mem : group ∈ addNamed stem name groups) :
    group.stem = some stem ∨ ∃ before ∈ groups, before.stem = group.stem := by
  rcases mem_addNamed mem with old | ⟨own, -⟩
  · exact Or.inr ⟨group, old, rfl⟩
  · exact Or.inl own

theorem apart_addNamed (stem name : Text)
    (apart : groups.Pairwise fun g g' => g.stem = none ∨ g.stem ≠ g'.stem) :
    (addNamed stem name groups).Pairwise fun g g' => g.stem = none ∨ g.stem ≠ g'.stem := by
  induction groups with
  | nil => exact pairwise_singleton ..
  | cons first rest ih =>
    obtain ⟨ahead, later⟩ := pairwise_cons.mp apart
    rw [addNamed]
    split
    · exact pairwise_cons.mpr ⟨ahead, later⟩
    next other =>
      refine pairwise_cons.mpr ⟨fun group mem => ?_, ih later⟩
      rcases stems_addNamed mem with own | ⟨before, there, same⟩
      · rw [own]
        exact Or.inr other
      · rw [← same]
        exact ahead before there

theorem Grouped.addName (grouped : Grouped groups) (name : Text) :
    Grouped (addName groups name) := by
  unfold Retention.addName
  cases stemmed : sessionStem name with
  | none =>
    refine ⟨?_, ?_, ?_⟩
    · intro group mem
      rcases mem_append.mp mem with old | new
      · exact grouped.some_ group old
      · rw [mem_singleton.mp new]
        simp
    · intro group mem other there
      rcases mem_append.mp mem with old | new
      · exact grouped.own group old other there
      · rw [mem_singleton.mp new] at there ⊢
        rw [mem_singleton.mp there]
        exact stemmed
    · refine pairwise_append.mpr ⟨grouped.apart, pairwise_singleton .., ?_⟩
      intro g _ g' new
      rw [mem_singleton.mp new]
      cases g.stem with
      | none => exact Or.inl rfl
      | some stem => exact Or.inr (by simp)
  | some stem =>
    refine ⟨?_, ?_, apart_addNamed stem name grouped.apart⟩
    · intro group mem
      rcases mem_addNamed mem with old | ⟨-, old, names, -⟩
      · exact grouped.some_ group old
      · rw [names]
        simp
    · intro group mem other there
      rcases mem_addNamed mem with old | ⟨own, old, names, before⟩
      · exact grouped.own group old other there
      · rw [names] at there
        rw [own]
        rcases mem_append.mp there with earlier | new
        · rcases before with rfl | ⟨group', inGroups, stem', rfl⟩
          · cases earlier
          · rw [← stem']
            exact grouped.own group' inGroups other earlier
        · rw [mem_singleton.mp new]
          exact stemmed

theorem grouped_groupNames (dir : List Text) : Grouped (groupNames dir) := by
  have folded : ∀ (names : List Text) (groups : List Group), Grouped groups →
      Grouped (names.foldl addName groups) := by
    intro names
    induction names with
    | nil => exact fun groups grouped => grouped
    | cons name rest ih => exact fun groups grouped => ih _ (grouped.addName name)
  exact folded _ [] ⟨by simp, by simp, List.Pairwise.nil⟩

theorem mem_group {dir : List Text} {name : Text} (mem : name ∈ dir) :
    ∃ (j : Nat) (group : Group), (groupNames dir)[j]? = some group ∧ name ∈ group.names := by
  have inAll := (allNames_groupNames dir).mem_iff.mpr mem
  obtain ⟨group, there, inGroup⟩ := mem_flatMap.mp inAll
  obtain ⟨j, found⟩ := mem_iff_getElem?.mp there
  exact ⟨j, group, found, inGroup⟩

theorem group_unique {dir : List Text} (once : dir.Nodup) {j k : Nat} {g g' : Group}
    (first : (groupNames dir)[j]? = some g) (second : (groupNames dir)[k]? = some g')
    (inFirst : name ∈ g.names) (inSecond : name ∈ g'.names) : j = k := by
  have apart : (allNames (groupNames dir)).Nodup :=
    (allNames_groupNames dir).nodup_iff.mpr once
  rw [allNames, nodup_flatMap] at apart
  have distinct : ∀ j k : Nat, ∀ g g' : Group, (groupNames dir)[j]? = some g →
      (groupNames dir)[k]? = some g' → name ∈ g.names → name ∈ g'.names → ¬ j < k := by
    intro j k g g' first second inFirst inSecond before
    obtain ⟨bound, rfl⟩ := List.getElem?_eq_some_iff.mp first
    obtain ⟨bound', rfl⟩ := List.getElem?_eq_some_iff.mp second
    exact (List.pairwise_iff_getElem.mp apart.2 j k bound bound' before) inFirst inSecond
  have one := distinct j k g g' first second inFirst inSecond
  have two := distinct k j g' g second first inSecond inFirst
  omega

/-- The names of `count` groups from the place on, around the ring. -/
def window (groups : List Group) (place : Nat) : Nat → List Text
  | 0 => []
  | count + 1 =>
    ((groups[place % groups.length]?).map Group.names).getD [] ++ window groups (place + 1) count

theorem takeGroups_eq (groups : List Group) (start budget left offset : Nat) (names : List Text) :
    ∃ count, count ≤ left ∧ takeGroups groups start budget left offset names =
        names ++ window groups (start + offset) count ∧
      (names = [] → 0 < budget → 0 < left → 0 < count) := by
  induction left generalizing offset names with
  | zero =>
    exact ⟨0, Nat.le_refl _, by simp [takeGroups, window], fun _ _ bad => absurd bad (by omega)⟩
  | succ left ih =>
    rw [takeGroups]
    split
    next full =>
      refine ⟨0, Nat.zero_le _, by simp [window], fun none_ room _ => ?_⟩
      rw [none_, length_nil] at full
      omega
    next room =>
      cases found : groups[(start + offset) % groups.length]? with
      | none =>
        obtain ⟨count, bound, same, -⟩ := ih (offset + 1) names
        refine ⟨count + 1, by omega, ?_, fun _ _ _ => Nat.succ_pos _⟩
        simp only [same, window, found, Option.map_none, Option.getD_none, nil_append]
        rfl
      | some group =>
        simp only
        split
        next stop =>
          exact ⟨0, Nat.zero_le _, by simp [window], fun none_ => absurd none_ stop.1⟩
        next =>
          obtain ⟨count, bound, same, -⟩ := ih (offset + 1) (names ++ group.names)
          refine ⟨count + 1, by omega, ?_, fun _ _ _ => Nat.succ_pos _⟩
          simp only [same, window, found, Option.map_some, Option.getD_some, append_assoc]
          rfl

theorem mem_window {place count : Nat} :
    name ∈ window groups place count ↔
      ∃ k < count, ∃ group, groups[(place + k) % groups.length]? = some group ∧
        name ∈ group.names := by
  induction count generalizing place with
  | zero => simp [window]
  | succ count ih =>
    rw [window, mem_append, ih]
    constructor
    · rintro (here | ⟨k, bound, group, found, mem⟩)
      · cases found : groups[place % groups.length]? with
        | none => simp [found] at here
        | some group =>
          rw [found] at here
          exact ⟨0, Nat.succ_pos _, group, found, here⟩
      · refine ⟨k + 1, by omega, group, ?_, mem⟩
        rw [← found, show place + (k + 1) = place + 1 + k by omega]
    · rintro ⟨k, bound, group, found, mem⟩
      cases k with
      | zero =>
        rw [Nat.add_zero] at found
        exact Or.inl (by simpa [found] using mem)
      | succ k =>
        refine Or.inr ⟨k, by omega, group, ?_, mem⟩
        rw [← found, show place + 1 + k = place + (k + 1) by omega]

theorem getLast?_window (grouped : Grouped groups) (some_ : groups ≠ []) (place count : Nat) :
    ∃ group last, groups[(place + count) % groups.length]? = some group ∧ last ∈ group.names ∧
      (window groups place (count + 1)).getLast? = some last := by
  have inside : ∀ p, p % groups.length < groups.length :=
    fun p => Nat.mod_lt p (length_pos_iff.mpr some_)
  induction count generalizing place with
  | zero =>
    have found := getElem?_eq_getElem (inside place)
    have names := grouped.some_ _ (getElem_mem (inside place))
    refine ⟨_, _, found, getLast_mem names, ?_⟩
    rw [window, window, found, append_nil, Option.map_some, Option.getD_some,
      getLast?_eq_some_getLast names]
  | succ count ih =>
    obtain ⟨group, last, found, mem, ends⟩ := ih (place + 1)
    refine ⟨group, last, ?_, mem, ?_⟩
    · rw [← found, show place + (count + 1) = place + 1 + count by omega]
    · rw [window, getLast?_append, ends]
      rfl

theorem listed {dir : List Text} (once : dir.Nodup) (some_ : dir ≠ []) (cursor : Option Text)
    {budget : Nat} (room : 0 < budget) :
    ∃ count last, 0 < count ∧
      listSessionEntries dir cursor budget =
        window (groupNames dir) (startOf (groupNames dir) cursor) count ∧
      (listSessionEntries dir cursor budget).getLast? = some last ∧
      startOf (groupNames dir) (some last) =
        (startOf (groupNames dir) cursor + count) % (groupNames dir).length := by
  have groups : groupNames dir ≠ [] := by
    intro none_
    obtain ⟨name, rest, here⟩ := exists_cons_of_ne_nil some_
    obtain ⟨j, group, found, -⟩ := @mem_group dir name (by simp [here])
    rw [none_] at found
    cases found
  have positive : 0 < (groupNames dir).length := length_pos_iff.mpr groups
  obtain ⟨count, bound, same, some'⟩ := takeGroups_eq (groupNames dir)
    (startOf (groupNames dir) cursor) budget (groupNames dir).length 0 []
  have counted := some' rfl room positive
  rw [Nat.add_zero, nil_append] at same
  obtain ⟨before, rfl⟩ : ∃ before, count = before + 1 := ⟨count - 1, by omega⟩
  obtain ⟨group, last, found, mem, ends⟩ := getLast?_window (grouped_groupNames dir) groups
    (startOf (groupNames dir) cursor) before
  refine ⟨before + 1, last, counted, same, (congrArg List.getLast? same).trans ends, ?_⟩
  have inside := Nat.mod_lt (startOf (groupNames dir) cursor + before) positive
  have index : (groupNames dir).findIdx (fun group => decide (last ∈ group.names)) =
      (startOf (groupNames dir) cursor + before) % (groupNames dir).length := by
    obtain ⟨bound', here⟩ := List.getElem?_eq_some_iff.mp found
    have exists_ : (groupNames dir).findIdx (fun group => decide (last ∈ group.names)) <
        (groupNames dir).length :=
      findIdx_lt_length_of_exists ⟨group, mem_of_getElem? found, by simpa using mem⟩
    have at_ := findIdx_getElem (w := exists_)
    exact group_unique once (getElem?_eq_getElem exists_) found (of_decide_eq_true at_) mem
  simp only [startOf]
  rw [index, if_pos inside, Nat.mod_add_mod]
  rfl

namespace BoundedRuns

variable {runs : BoundedRuns}

theorem once (valid : runs.Valid) (i : Nat) : (runs.dir i).Nodup := by
  induction i with
  | zero => exact valid.once
  | succ i ih =>
    rw [valid.shrinks]
    exact ih.filter _

theorem eventually_same (valid : runs.Valid) : ∃ n, ∀ i, runs.dir (n + i) = runs.dir n := by
  obtain ⟨n, still⟩ := RoundRobin.eventually_still (f := fun i => (runs.dir i).length) fun i => by
    simp only [valid.shrinks]
    exact length_filter_le ..
  refine ⟨n, fun i => ?_⟩
  induction i with
  | zero => rfl
  | succ i ih =>
    have lengths : (runs.dir (n + i + 1)).length = (runs.dir (n + i)).length :=
      (still (i + 1)).trans (still i).symm
    rw [valid.shrinks, length_filter_eq_length_iff] at lengths
    rw [← ih, ← Nat.add_assoc, valid.shrinks]
    exact filter_eq_self.mpr lengths

theorem stays_or_examined (valid : runs.Valid) (mem : name ∈ runs.dir 0) (n : Nat) :
    name ∈ runs.dir n ∨ ∃ i, name ∈ runs.names i := by
  induction n with
  | zero => exact Or.inl mem
  | succ n ih =>
    rcases ih with here | done
    · by_cases taken : name ∈ runs.removed n
      · exact Or.inr ⟨n, valid.examined n name taken⟩
      · rw [valid.shrinks]
        exact Or.inl (mem_filter.mpr ⟨here, by simpa using taken⟩)
    · exact Or.inr done

theorem examined_of_same (valid : runs.Valid) (room : ∀ i, runs.stateEntries i < runs.limit)
    {n : Nat} (same : ∀ i, runs.dir (n + i) = runs.dir n) (mem : name ∈ runs.dir n) :
    ∃ i, name ∈ runs.names i := by
  have some_ : runs.dir n ≠ [] := ne_nil_of_mem mem
  have budget : ∀ i, 0 < sessionBudget runs.limit (runs.stateEntries i) := by
    intro i
    have bound := room i
    unfold sessionBudget
    omega
  have each : ∀ i, ∃ count last, 0 < count ∧
      runs.names (n + i) = window (groupNames (runs.dir n))
        (startOf (groupNames (runs.dir n)) (runs.cursor (n + i))) count ∧
      (runs.names (n + i)).getLast? = some last ∧
      startOf (groupNames (runs.dir n)) (some last) =
        (startOf (groupNames (runs.dir n)) (runs.cursor (n + i)) + count) %
          (groupNames (runs.dir n)).length := by
    intro i
    rw [names, same i]
    exact listed (once valid n) some_ _ (budget (n + i))
  choose count last counted windows ends starts using each
  have next : ∀ i, startOf (groupNames (runs.dir n)) (runs.cursor (n + (i + 1))) =
      (startOf (groupNames (runs.dir n)) (runs.cursor (n + i)) + count i) %
        (groupNames (runs.dir n)).length := by
    intro i
    rw [← starts i, ← Nat.add_assoc, valid.resumes, ends i]
    rfl
  obtain ⟨j, group, found, inGroup⟩ := mem_group mem
  obtain ⟨bound, -⟩ := List.getElem?_eq_some_iff.mp found
  obtain ⟨i, k, inWindow, place⟩ := @RoundRobin.eventually_in_window _
    (fun i => startOf (groupNames (runs.dir n)) (runs.cursor (n + i))) count counted next j bound
  refine ⟨n + i, ?_⟩
  rw [windows i]
  exact mem_window.mpr ⟨k, inWindow, group, by rw [place]; exact found, inGroup⟩

theorem together {i : Nat} {name' : Text} (mem : name ∈ runs.names i) (there' : name' ∈ runs.dir i)
    (own : sessionStem name = some stem) (own' : sessionStem name' = some stem) :
    name' ∈ runs.names i := by
  obtain ⟨count, -, same, -⟩ := takeGroups_eq (groupNames (runs.dir i))
    (startOf (groupNames (runs.dir i)) (runs.cursor i))
    (sessionBudget runs.limit (runs.stateEntries i)) (groupNames (runs.dir i)).length 0 []
  rw [Nat.add_zero, nil_append] at same
  rw [names, listSessionEntries, same] at mem ⊢
  obtain ⟨k, bound, group, found, inGroup⟩ := mem_window.mp mem
  obtain ⟨j, group', found', inGroup'⟩ := mem_group there'
  have grouped := grouped_groupNames (runs.dir i)
  have stem' := grouped.own group (mem_of_getElem? found) name inGroup
  have stem'' := grouped.own group' (mem_of_getElem? found') name' inGroup'
  rw [own] at stem'
  rw [own'] at stem''
  obtain ⟨inside, rfl⟩ := List.getElem?_eq_some_iff.mp found
  obtain ⟨inside', rfl⟩ := List.getElem?_eq_some_iff.mp found'
  have equal : (startOf (groupNames (runs.dir i)) (runs.cursor i) + k) %
      (groupNames (runs.dir i)).length = j := by
    by_contra apart
    rcases Nat.lt_or_gt_of_ne apart with before | after
    · rcases List.pairwise_iff_getElem.mp grouped.apart _ _ inside inside' before with bad | bad
      · rw [bad] at stem'
        cases stem'
      · exact bad (stem'.symm.trans stem'')
    · rcases List.pairwise_iff_getElem.mp grouped.apart _ _ inside' inside after with bad | bad
      · rw [bad] at stem''
        cases stem''
      · exact bad (stem''.symm.trans stem')
  refine mem_window.mpr ⟨k, bound, (groupNames (runs.dir i))[j], ?_, inGroup'⟩
  rw [equal]
  exact getElem?_eq_getElem inside'

end BoundedRuns

/-- Where each run's limit is above the number of entries of the state directory, the runs
examine every entry of the directory, whatever they remove; and no run ever examines part of
a session's files. -/
theorem bounded_prunes_progress {runs : BoundedRuns} (valid : runs.Valid) :
    ((∀ i, runs.stateEntries i < runs.limit) → ∀ name ∈ runs.dir 0, ∃ i, name ∈ runs.names i) ∧
      ∀ i, ∀ name ∈ runs.names i, ∀ name' ∈ runs.dir i, ∀ stem,
        sessionStem name = some stem → sessionStem name' = some stem → name' ∈ runs.names i := by
  refine ⟨fun room name mem => ?_, fun i name mem name' there' stem own own' =>
    BoundedRuns.together mem there' own own'⟩
  obtain ⟨n, same⟩ := BoundedRuns.eventually_same valid
  rcases BoundedRuns.stays_or_examined valid mem n with here | done
  · exact BoundedRuns.examined_of_same valid room same here
  · exact done

/-- Two entries of the state directory and a limit of three, over two sessions. -/
def twoSessions : BoundedRuns where
  limit := 3
  stateEntries _ := 2
  dir _ := [js "a.json", js "b.json"]
  removed _ := []
  cursor i := if i = 0 then none else if i % 2 = 1 then some (js "a.json") else some (js "b.json")

theorem sortNames_two : sortNames [js "a.json", js "b.json"] = [js "a.json", js "b.json"] :=
  mergeSort_of_pairwise (by decide)

theorem twoSessions_valid : twoSessions.Valid where
  once := by decide
  examined i name mem := by cases mem
  shrinks i := by simp [twoSessions]
  resumes i := by
    have first : listSessionEntries [js "a.json", js "b.json"] none 1 = [js "a.json"] := by
      rw [listSessionEntries, groupNames, sortNames_two]
      decide
    have afterA : listSessionEntries [js "a.json", js "b.json"] (some (js "a.json")) 1 =
        [js "b.json"] := by
      rw [listSessionEntries, groupNames, sortNames_two]
      decide
    have afterB : listSessionEntries [js "a.json", js "b.json"] (some (js "b.json")) 1 =
        [js "a.json"] := by
      rw [listSessionEntries, groupNames, sortNames_two]
      decide
    change twoSessions.cursor (i + 1) = (listSessionEntries [js "a.json", js "b.json"]
      (twoSessions.cursor i) 1).getLast?.or (twoSessions.cursor i)
    rcases Nat.eq_zero_or_pos i with rfl | later
    · simp [twoSessions, first]
    · rcases Nat.mod_two_eq_zero_or_one i with even | odd
      · simp [twoSessions, even, afterB, later.ne', Nat.add_mod]
      · simp [twoSessions, odd, afterA, later.ne', Nat.add_mod]

theorem bounded_prunes_progress_two :
    ∃ i, js "b.json" ∈ twoSessions.names i :=
  (bounded_prunes_progress twoSessions_valid).1 (fun _ => Nat.lt_succ_self 2) _ (by decide)

/-- One entry in the state directory uses a limit of one up before the sessions. -/
theorem bounded_prunes_starved :
    ∃ runs : BoundedRuns, runs.Valid ∧ 0 < runs.limit ∧
      ∃ name ∈ runs.dir 0, ∀ i, name ∉ runs.names i := by
  have none_ : listSessionEntries [js "a.json"] none 0 = [] := by decide +kernel
  refine ⟨⟨1, fun _ => 1, fun _ => [js "a.json"], fun _ => [], fun _ => none⟩,
    ⟨?_, ?_, ?_, ?_⟩, by decide, js "a.json", mem_singleton_self _, ?_⟩
  · exact nodup_singleton _
  · intro i name mem
    cases mem
  · intro i
    rfl
  · intro i
    simp only [BoundedRuns.names, sessionBudget, Nat.min_self, Nat.sub_self, none_]
    rfl
  · intro i mem
    simp only [BoundedRuns.names, sessionBudget, Nat.min_self, Nat.sub_self, none_] at mem
    cases mem

end Ultrathink.Retention
