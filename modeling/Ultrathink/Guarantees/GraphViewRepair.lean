import Ultrathink.Guarantees.WaveDepth
import Ultrathink.Source.Engine.GraphViews

/-!
# What a graph view repairs

The nodes are named in two passes; each keeps the ids of the named nodes different, and a raw id leads to
the node that owns it. The skeleton then has different ids and names only its own nodes, so it sorts, and
without its back edges it has no circle.
-/

namespace Ultrathink.Guarantees.GraphViewRepair

open List Library JsText Source.Think.Graph Source.Engine.GraphViews WorkflowWaves
open Library.JsNumber (ofNat_eq_digits ofNat_injective digits_length_le)

variable {a b j : Nat} {taken : List Text} {byRaw : OrderedMap Text Text} {node : ThoughtNode}
  {waves : List WorkflowWave} {wave : WorkflowWave}

variable {i : Nat} {id : Text} {ids : List Text}

theorem candidate_injective (same : candidate i a = candidate i b) : a = b := by
  have longer : ∀ n, positionalId (i + 1) ≠ positionalId (i + 1) ++ (js "-" ++ JsText.ofNat (n + 1)) := by
    intro n same
    exact absurd (self_eq_append_right.mp same) (append_ne_nil_of_left_ne_nil (by decide) _)
  unfold candidate at same
  split at same
  · split at same
    · omega
    · exact absurd same (longer b)
  · split at same
    · exact absurd same.symm (longer a)
    · have numbers := ofNat_injective (append_cancel_left (append_cancel_left same))
      omega

theorem freeFrom_taken {turns n : Nat} (used : freeFrom taken i turns n ∈ taken) :
    ∀ j ≤ turns, candidate i (n + j) ∈ taken := by
  induction turns generalizing n with
  | zero =>
    intro j le
    obtain rfl : j = 0 := by omega
    exact used
  | succ turns ih =>
    unfold freeFrom at used
    split at used
    · next first =>
      intro j le
      cases j with
      | zero => exact first
      | succ j =>
        have later := ih used j (by omega)
        rwa [show n + 1 + j = n + (j + 1) by omega] at later
    · next free => exact absurd used free

theorem generatedId_free (taken : List Text) (i : Nat) : generatedId taken i ∉ taken := by
  intro used
  have met := freeFrom_taken used
  have distinct : ((List.range (taken.length + 1)).map fun j => candidate i (0 + j)).Nodup := by
    refine List.Nodup.map (fun a b same => ?_) nodup_range
    have tries := candidate_injective same
    omega
  have subset : ((List.range (taken.length + 1)).map fun j => candidate i (0 + j)) ⊆ taken := by
    intro id mem
    obtain ⟨j, small, rfl⟩ := List.mem_map.mp mem
    exact met j (by have := mem_range.mp small; omega)
  have le := (distinct.subperm subset).length_le
  rw [List.length_map, length_range] at le
  omega

theorem freeFrom_candidate (taken : List Text) (i turns n : Nat) :
    ∃ k ≤ n + turns, freeFrom taken i turns n = candidate i k := by
  induction turns generalizing n with
  | zero => exact ⟨n, Nat.le_refl _, rfl⟩
  | succ turns ih =>
    unfold freeFrom
    split
    · obtain ⟨k, le, same⟩ := ih (n + 1)
      exact ⟨k, by omega, same⟩
    · exact ⟨n, by omega, rfl⟩

theorem ofNat_short {n : Nat} (small : n < 1000) : (JsText.ofNat n).length ≤ 3 := by
  rw [ofNat_eq_digits]
  exact digits_length_le small

theorem generatedId_short (first : i < NODES_READ_MAX) (few : taken.length ≤ NODES_READ_MAX) :
    (generatedId taken i).length ≤ ID_MAX := by
  obtain ⟨k, le, same⟩ := freeFrom_candidate taken i taken.length 0
  have position : NODES_READ_MAX = 256 := rfl
  have own := @ofNat_short (i + 1) (by omega)
  have tries := @ofNat_short (k + 1) (by omega)
  rw [generatedId, same, candidate, positionalId]
  split
  · rw [length_append]
    exact le_trans (Nat.add_le_add_left own _) (by decide)
  · rw [length_append, length_append, length_append]
    exact le_trans (Nat.add_le_add (Nat.add_le_add_left own _) (Nat.add_le_add_left tries _)) (by decide)

theorem generatedId_named (taken : List Text) (i : Nat) : generatedId taken i ≠ [] := by
  obtain ⟨k, -, same⟩ := freeFrom_candidate taken i taken.length 0
  rw [generatedId, same, candidate, positionalId]
  split
  · exact append_ne_nil_of_left_ne_nil (by decide) _
  · exact append_ne_nil_of_left_ne_nil (append_ne_nil_of_left_ne_nil (by decide) _) _

theorem cut_short (text : Text) (max : Nat) : (cut text max).length ≤ max := by
  unfold cut
  split
  · assumption
  · split
    · exact le_trans (length_take_le _ _) (Nat.sub_le _ _)
    · exact length_take_le _ _

theorem bound_short {text : Text} {max : Nat} (some_ : 0 < max) : (bound text max).length ≤ max := by
  unfold bound
  split
  · assumption
  · unfold clip
    rw [if_neg (by assumption), length_append]
    have kept : (trimEnd (cut text (max - 1))).length ≤ max - 1 :=
      le_trans (List.IsPrefix.length_le (List.rdropWhile_prefix _ _)) (cut_short text (max - 1))
    have one : (js "…").length = 1 := by decide +kernel
    omega

theorem foldl_zipIdx {α β : Type} {f : β → α × Nat → β} {P : Nat → β → Prop} (l : List α) (start : Nat) (s : β)
    (first : P start s)
    (step : ∀ k a s, l[k]? = some a → P (start + k) s → P (start + k + 1) (f s (a, start + k))) :
    P (start + l.length) ((l.zipIdx start).foldl f s) := by
  induction l generalizing start s with
  | nil => exact first
  | cons a l ih =>
    rw [zipIdx_cons, foldl_cons, length_cons, show start + (l.length + 1) = start + 1 + l.length by omega]
    refine ih (start + 1) _ (step 0 a s rfl first) fun k b s at_ held => ?_
    have next := step (k + 1) b s at_ (by rwa [show start + (k + 1) = start + 1 + k by omega])
    rwa [show start + (k + 1) = start + 1 + k by omega] at next

theorem filter_set (empty : ids[i]? = some []) (named : id ≠ []) :
    ((ids.set i id).filter (· ≠ [])).Perm (ids.filter (· ≠ []) ++ [id]) := by
  induction ids generalizing i with
  | nil => cases empty
  | cons first rest ih =>
    cases i with
    | zero =>
      obtain rfl : first = [] := Option.some.inj empty
      rw [set_cons_zero, filter_cons_of_pos (by simpa using named), filter_cons_of_neg (by simp)]
      exact (perm_append_singleton id _).symm
    | succ i =>
      have later := ih empty
      rw [set_cons_succ]
      by_cases named_ : first = []
      · rw [filter_cons_of_neg (by simp [named_]), filter_cons_of_neg (by simp [named_])]
        exact later
      · rw [filter_cons_of_pos (by simpa using named_), filter_cons_of_pos (by simpa using named_)]
        exact later.cons first

def Unique (raws : List Text) : Prop :=
  ∀ (i j : Nat) (raw : Text), raws[i]? = some raw → raws[j]? = some raw → raw ≠ [] → i = j

/-- The ids given so far are the taken ones, and a raw id leads to one of them. -/
structure Named (raws : List Text) (s : Naming) : Prop where
  length : s.ids.length = raws.length
  perm : s.taken.Perm (s.ids.filter (· ≠ []))
  distinct : s.taken.Nodup
  fits : ∀ id ∈ s.taken, id ≠ [] ∧ id.length ≤ ID_MAX
  owner : ∀ raw id, s.byRaw.get? raw = some id →
    raw ≠ [] ∧ id ∈ s.taken ∧ ∃ i : Nat, raws[i]? = some raw ∧ s.ids[i]? = some id
  claims : Unique raws → ∀ (i : Nat) (raw id : Text), raws[i]? = some raw → s.ids[i]? = some id →
    id ≠ [] → raw ≠ [] → s.byRaw.get? raw = some id

variable {raws : List Text} {s : Naming}

theorem Named.few (named : Named raws s) : s.taken.length ≤ raws.length := by
  rw [named.perm.length_eq, ← named.length]
  exact length_filter_le _ _

theorem Named.give (named : Named raws s) {raw : Text} (own : raws[i]? = some raw)
    (empty : s.ids[i]? = some []) (free : id ∉ s.taken) (some_ : id ≠ [])
    (short : id.length ≤ ID_MAX) (maps : byRaw = s.byRaw ∨ raw ≠ [] ∧ byRaw = s.byRaw.set raw id)
    (leads : Unique raws → raw ≠ [] → byRaw.get? raw = some id) (truncated : Bool) :
    Named raws ⟨s.taken ++ [id], s.ids.set i id, byRaw, truncated⟩ := by
  have inside : i < s.ids.length := by
    by_contra outside
    rw [getElem?_eq_none (Nat.le_of_not_lt outside)] at empty
    cases empty
  have self : (s.ids.set i id)[i]? = some id := getElem?_set_self inside
  have others : ∀ {j : Nat}, j ≠ i → (s.ids.set i id)[j]? = s.ids[j]? :=
    fun other => getElem?_set_ne (Ne.symm other)
  refine ⟨by rw [length_set]; exact named.length, ?_, ?_, ?_, ?_, ?_⟩
  · exact (named.perm.append_right [id]).trans (filter_set empty some_).symm
  · refine nodup_append.mpr ⟨named.distinct, nodup_singleton id, fun a mem b same => ?_⟩
    rintro rfl
    exact free (mem_singleton.mp same ▸ mem)
  · intro other mem
    rcases mem_append.mp mem with old | last
    · exact named.fits other old
    · rw [mem_singleton.mp last]
      exact ⟨some_, short⟩
  · intro raw' id' held
    have old : s.byRaw.get? raw' = some id' → raw' ≠ [] ∧ id' ∈ s.taken ++ [id] ∧
        ∃ j : Nat, raws[j]? = some raw' ∧ (s.ids.set i id)[j]? = some id' := by
      intro held
      obtain ⟨notEmpty, mem, j, at_, given⟩ := named.owner raw' id' held
      refine ⟨notEmpty, mem_append_left _ mem, j, at_, ?_⟩
      rw [others]
      · exact given
      · rintro rfl
        rw [empty] at given
        exact (named.fits id' mem).1 (Option.some.inj given).symm
    rcases maps with rfl | ⟨notEmpty, rfl⟩
    · exact old held
    · rw [OrderedMap.get?_set] at held
      split at held
      · next same =>
        subst same
        cases held
        exact ⟨notEmpty, mem_append_right _ (mem_singleton_self _), i, own, self⟩
      · exact old held
  · intro unique j raw' id' at_ given notEmpty someRaw
    by_cases same : j = i
    · subst same
      rw [own] at at_
      cases at_
      rw [self] at given
      cases given
      exact leads unique someRaw
    · rw [others same] at given
      have held := named.claims unique j raw' id' at_ given notEmpty someRaw
      rcases maps with rfl | ⟨-, rfl⟩
      · exact held
      · rw [OrderedMap.get?_set_of_ne]
        · exact held
        · rintro rfl
          exact same (unique j i raw' at_ own someRaw)

theorem named_claimed : Named raws (raws.zipIdx.foldl claimId ⟨[], raws.map fun _ => [], .empty, false⟩) := by
  have start : Named raws ⟨[], raws.map fun _ => [], .empty, false⟩ := by
    refine ⟨List.length_map _, ?_, nodup_nil, nofun, nofun, ?_⟩
    · rw [filter_eq_nil_iff.mpr]
      intro id mem
      obtain ⟨-, -, rfl⟩ := List.mem_map.mp mem
      simp
    · intro _ i raw id _ given some_
      obtain ⟨-, -, rfl⟩ := List.mem_map.mp (List.mem_of_getElem? given)
      exact absurd rfl some_
  have all := @foldl_zipIdx Text Naming claimId
    (fun k s => Named raws s ∧ ∀ (j : Nat), k ≤ j → j < raws.length → s.ids[j]? = some [])
    raws 0 ⟨[], raws.map fun _ => [], .empty, false⟩ ⟨start, fun j _ inside => by simp [inside]⟩ ?_
  · exact all.1
  intro k raw s own held
  rw [Nat.zero_add] at held ⊢
  obtain ⟨named, open_⟩ := held
  have skip : ∀ truncated, Named raws { s with truncated := truncated } ∧
      ∀ (j : Nat), k + 1 ≤ j → j < raws.length → s.ids[j]? = some [] :=
    fun truncated => ⟨⟨named.length, named.perm, named.distinct, named.fits, named.owner, named.claims⟩,
      fun j le inside => open_ j (by omega) inside⟩
  unfold claimId
  dsimp only
  split
  · exact skip s.truncated
  next known =>
  split
  · exact skip _
  next fresh =>
  rw [Bool.or_eq_true, decide_eq_true_eq, not_or] at known
  rw [Bool.or_eq_true, decide_eq_true_eq, decide_eq_true_eq, not_or] at fresh
  have inside : k < raws.length := (List.getElem?_eq_some_iff.mp own).1
  refine ⟨named.give own (open_ k (Nat.le_refl _) inside) fresh.2 fresh.1 (bound_short (by decide))
    (.inr ⟨known.1, rfl⟩) (fun _ _ => OrderedMap.get?_set_self _ _ _) _, fun j le small => ?_⟩
  rw [getElem?_set_ne (by omega)]
  exact open_ j (by omega) small

theorem named_nodes (few : raws.length ≤ NODES_READ_MAX) :
    Named raws (nameNodes raws) ∧ ∀ id ∈ (nameNodes raws).ids, id ≠ [] := by
  have all := @foldl_zipIdx Text Naming generateId
    (fun k s => Named raws s ∧ ∀ (j : Nat), j < k → s.ids[j]? ≠ some [])
    raws 0 _ ⟨named_claimed, fun j small => absurd small (Nat.not_lt_zero j)⟩ ?_
  · obtain ⟨named, closed⟩ := all
    refine ⟨named, fun id mem none_ => ?_⟩
    obtain ⟨j, at_⟩ := List.getElem?_of_mem mem
    have inside := (List.getElem?_eq_some_iff.mp at_).1
    rw [none_] at at_
    refine closed j ?_ at_
    rw [Nat.zero_add, ← named.length]
    exact inside
  intro k raw s own held
  rw [Nat.zero_add] at held ⊢
  obtain ⟨named, closed⟩ := held
  have inside : k < raws.length := (List.getElem?_eq_some_iff.mp own).1
  unfold generateId
  dsimp only
  split
  · next given =>
    refine ⟨named, fun j small => ?_⟩
    by_cases last : j = k
    · rwa [last]
    · exact closed j (by omega)
  next empty =>
  rw [not_not] at empty
  have unmapped : Unique raws → raw ≠ [] → s.byRaw.contains raw = false := by
    intro unique some_
    rw [OrderedMap.contains, Option.isSome_eq_false_iff, Option.isNone_iff_eq_none]
    cases held : s.byRaw.get? raw with
    | none => rfl
    | some id =>
      obtain ⟨-, mem, j, at_, given⟩ := named.owner raw id held
      rw [unique j k raw at_ own some_, empty] at given
      exact absurd (Option.some.inj given).symm (named.fits id mem).1
  refine ⟨named.give own empty (generatedId_free _ _) (generatedId_named _ _)
    (generatedId_short (by omega) (le_trans named.few few)) ?_ ?_ _, fun j small => ?_⟩
  · split
    · next fresh =>
      rw [Bool.and_eq_true, decide_eq_true_eq] at fresh
      exact .inr ⟨fresh.1, rfl⟩
    · exact .inl rfl
  · intro unique some_
    rw [if_pos (by rw [unmapped unique some_]; simpa using some_)]
    exact OrderedMap.get?_set_self _ _ _
  · by_cases last : j = k
    · rw [last, getElem?_set_self (by rw [named.length]; exact inside)]
      exact fun none_ => generatedId_named _ _ (Option.some.inj none_)
    · rw [getElem?_set_ne (Ne.symm last)]
      exact closed j (by omega)

/-- An id that the view can use as it stands. -/
def Fits (raw : Text) : Prop := raw ≠ [] ∧ flatText raw = raw ∧ raw.length ≤ ID_MAX

theorem ids_of_fits (distinct : raws.Nodup) (fits : ∀ raw ∈ raws, Fits raw) :
    (nameNodes raws).ids = raws := by
  have first := @foldl_zipIdx Text Naming claimId
    (fun k s => s.ids = raws.take k ++ (raws.drop k).map (fun _ => []) ∧ s.taken = raws.take k ∧
      ∀ raw, s.byRaw.contains raw = true → raw ∈ raws.take k)
    raws 0 ⟨[], raws.map fun _ => [], .empty, false⟩ ⟨by simp, rfl, nofun⟩ ?_
  · rw [Nat.zero_add, take_length, drop_length, map_nil, append_nil] at first
    have second := @foldl_zipIdx Text Naming generateId (fun _ s => s.ids = raws) raws 0 _ first.1 ?_
    · exact second
    · intro k raw s own held
      rw [Nat.zero_add]
      unfold generateId
      rw [if_pos]
      · exact held
      · dsimp only
        rw [held, own]
        exact fun none_ => (fits raw (List.mem_of_getElem? own)).1 (Option.some.inj none_)
  intro k raw s own held
  rw [Nat.zero_add] at held ⊢
  obtain ⟨ids, taken, keys⟩ := held
  obtain ⟨inside, at_⟩ := List.getElem?_eq_some_iff.mp own
  obtain ⟨some_, line, short⟩ := fits raw (List.mem_of_getElem? own)
  have next : raws.take (k + 1) = raws.take k ++ [raw] := by rw [List.take_add_one, own]; rfl
  have new : raw ∉ raws.take k := by
    have both : (raws.take (k + 1)).Nodup := distinct.sublist (take_sublist _ _)
    rw [next, nodup_append] at both
    exact fun mem => both.2.2 raw mem raw (mem_singleton_self _) rfl
  have unmapped : s.byRaw.contains raw = false := by
    cases held : s.byRaw.contains raw with
    | false => rfl
    | true => exact absurd (keys raw held) new
  have whole : bound (flatText raw) ID_MAX = raw := by rw [line, bound, if_pos short]
  unfold claimId
  dsimp only
  rw [if_neg (by simp [some_, unmapped]), whole, if_neg (by simp [some_, taken, new])]
  refine ⟨?_, by rw [taken, next], fun other held => ?_⟩
  · have length : (raws.take k).length = k := length_take_of_le (Nat.le_of_lt inside)
    rw [ids, next, drop_eq_getElem_cons inside, map_cons,
      set_append_right k raw (by omega), length, Nat.sub_self, set_cons_zero, append_assoc]
    rfl
  · rw [next]
    rw [OrderedMap.contains, OrderedMap.get?_set] at held
    split at held
    · next same => exact mem_append_right _ (mem_singleton.mpr same)
    · exact mem_append_left _ (keys other held)

section Skeleton
variable {ν : Type}

/-- The dependencies of a node are those that a raw id leads to, without the node. -/
theorem mem_deps (byRaw : OrderedMap Text Text) (own : Text) (entries : List (Json ν)) (id : Text) :
    id ∈ entries.foldl (addDep byRaw own) [] ↔
      id ≠ own ∧ ∃ entry ∈ entries, byRaw.get? (trim (str (some entry))) = some id := by
  induction entries using List.reverseRecOn with
  | nil => simp
  | append_singleton entries entry ih =>
    rw [foldl_append, foldl_cons, foldl_nil, addDep]
    have earlier : (id ≠ own ∧ ∃ e ∈ entries ++ [entry], byRaw.get? (trim (str (some e))) = some id) ↔
        (id ∈ entries.foldl (addDep byRaw own) [] ∨
          id ≠ own ∧ byRaw.get? (trim (str (some entry))) = some id) := by
      rw [ih, ← and_or_left]
      simp only [mem_append, mem_singleton, or_and_right, exists_or, exists_eq_left]
    rw [earlier]
    split
    · next found read =>
      rw [read]
      split
      · next added =>
        rw [Bool.and_eq_true, decide_eq_true_eq, decide_eq_true_eq] at added
        rw [mem_append, mem_singleton, Option.some.injEq]
        constructor
        · rintro (old | rfl)
          · exact .inl old
          · exact .inr ⟨added.1, rfl⟩
        · rintro (old | ⟨-, rfl⟩)
          · exact .inl old
          · exact .inr rfl
      · next skipped =>
        rw [Bool.and_eq_true, decide_eq_true_eq, decide_eq_true_eq] at skipped
        rw [Option.some.injEq]
        refine ⟨.inl, ?_⟩
        rintro (old | ⟨other, rfl⟩)
        · exact old
        · exact not_not.mp fun absent => skipped ⟨other, absent⟩
    · next unread =>
      rw [unread]
      exact ⟨.inl, fun h => h.resolve_right fun found => by cases found.2⟩

theorem ids_skeleton (byRaw : OrderedMap Text Text) {read : List (Json ν)}
    (same : ids.length = read.length) : (skeleton byRaw read ids).map (·.id) = ids := by
  induction read generalizing ids with
  | nil => rw [eq_nil_of_length_eq_zero same]; rfl
  | cons item read ih =>
    cases ids with
    | nil => cases same
    | cons id ids =>
      rw [skeleton, zipWith_cons_cons, map_cons]
      exact congrArg (id :: ·) (ih (Nat.succ.inj same))

theorem mem_skeleton {read : List (Json ν)} :
    node ∈ skeleton byRaw read ids ↔
      ∃ (i : Nat) (item : Json ν) (id : Text), read[i]? = some item ∧ ids[i]? = some id ∧
        skeletonNode byRaw item id = node := by
  rw [skeleton, mem_iff_getElem?]
  constructor
  · rintro ⟨i, at_⟩
    rw [getElem?_zipWith] at at_
    split at at_
    · next item id left right => exact ⟨i, item, id, left, right, Option.some.inj at_⟩
    · cases at_
  · rintro ⟨i, item, id, left, right, rfl⟩
    refine ⟨i, ?_⟩
    rw [getElem?_zipWith, left, right]

variable {read : List (Json ν)} (few : read.length ≤ NODES_READ_MAX)
include few

theorem naming_spec : Named (read.map rawOf) (nameNodes (read.map rawOf)) ∧
    (nameNodes (read.map rawOf)).ids.length = read.length ∧
    (nameNodes (read.map rawOf)).ids.Nodup ∧
    (∀ id ∈ (nameNodes (read.map rawOf)).ids, id ≠ [] ∧ id.length ≤ ID_MAX) ∧
    ∀ raw id, (nameNodes (read.map rawOf)).byRaw.get? raw = some id →
      id ∈ (nameNodes (read.map rawOf)).ids := by
  obtain ⟨named, all⟩ := @named_nodes (read.map rawOf) (by rwa [List.length_map])
  have whole : (nameNodes (read.map rawOf)).ids.filter (· ≠ []) = (nameNodes (read.map rawOf)).ids :=
    filter_eq_self.mpr fun id mem => decide_eq_true (all id mem)
  have perm := named.perm
  rw [whole] at perm
  refine ⟨named, by rw [named.length, List.length_map], perm.nodup_iff.mp named.distinct,
    fun id mem => named.fits id (perm.mem_iff.mpr mem), fun raw id held => ?_⟩
  exact perm.mem_iff.mp (named.owner raw id held).2.1

theorem closed_skeleton :
    Closed (skeleton (nameNodes (read.map rawOf)).byRaw read (nameNodes (read.map rawOf)).ids) := by
  obtain ⟨-, length, distinct, fits, leads⟩ := naming_spec few
  have ids := ids_skeleton (nameNodes (read.map rawOf)).byRaw length
  refine ⟨by rwa [ids], fun node mem => ?_, fun node mem dep listed => ?_⟩
  · exact (fits _ (ids ▸ mem_map_of_mem mem)).1
  · obtain ⟨i, item, id, -, -, rfl⟩ := mem_skeleton.mp mem
    obtain ⟨-, entry, -, found⟩ := (mem_deps _ _ _ dep).mp listed
    rw [ids]
    exact leads _ dep found

end Skeleton

theorem get?_mapOf {β : Type} {pairs : List (Text × β)} (distinct : (pairs.map Prod.fst).Nodup) (key : Text)
    (value : β) : (mapOf pairs).get? key = some value ↔ (key, value) ∈ pairs := by
  induction pairs using List.reverseRecOn with
  | nil => exact ⟨nofun, nofun⟩
  | append_singleton pairs p ih =>
    rw [map_append, map_singleton, nodup_append] at distinct
    obtain ⟨front, -, apart⟩ := distinct
    have step : mapOf (pairs ++ [p]) = (mapOf pairs).set p.1 p.2 := by rw [mapOf, foldl_append]; rfl
    rw [step, OrderedMap.get?_set, mem_append, mem_singleton]
    split
    · next same =>
      subst same
      constructor
      · rintro found
        exact .inr (Prod.ext rfl (Option.some.inj found).symm)
      · rintro (old | last)
        · exact absurd rfl (apart _ (mem_map_of_mem old) _ (mem_singleton_self _))
        · exact congrArg (fun q => some q.2) last.symm
    · next other =>
      rw [ih front]
      exact ⟨.inl, fun held => held.resolve_right fun same => other (congrArg Prod.fst same)⟩

section Cut
variable {kept : List ThoughtNode} (distinct : (kept.map (·.id)).Nodup)

theorem ids_cutBackEdges : (cutBackEdges kept).map (·.id) = kept.map (·.id) := by
  rw [cutBackEdges, map_map]
  exact ids_zipIdx kept

include distinct

theorem position_spec (dep : Text) (at_ : Nat) :
    (mapOf (kept.zipIdx.map fun entry => (entry.1.id, entry.2))).get? dep = some at_ ↔
      (kept.map (·.id))[at_]? = some dep := by
  rw [get?_mapOf]
  · rw [List.getElem?_map]
    constructor
    · intro mem
      obtain ⟨⟨node, i⟩, held, same⟩ := List.mem_map.mp mem
      obtain ⟨rfl, rfl⟩ := Prod.mk.inj same
      rw [mem_zipIdx_iff_getElem?.mp held]
      rfl
    · intro found
      obtain ⟨node, at', rfl⟩ := Option.map_eq_some_iff.mp found
      exact List.mem_map.mpr ⟨(node, at_), mem_zipIdx_iff_getElem?.mpr at', rfl⟩
  · rw [map_map]
    exact (ids_zipIdx kept).symm ▸ distinct

theorem mem_cutBackEdges (mem : node ∈ cutBackEdges kept) :
    ∃ (i : Nat) (original : ThoughtNode), kept[i]? = some original ∧ node.id = original.id ∧
      ∀ dep, dep ∈ node.dependsOn ↔
        dep ∈ original.dependsOn ∧ ∃ j < i, (kept.map (·.id))[j]? = some dep := by
  obtain ⟨⟨original, i⟩, held, rfl⟩ := List.mem_map.mp mem
  refine ⟨i, original, mem_zipIdx_iff_getElem?.mp held, rfl, fun dep => ?_⟩
  rw [List.mem_filter, Option.any_eq_true]
  simp only [position_spec distinct, decide_eq_true_eq]
  exact and_congr_right fun _ => exists_congr fun j => and_comm

theorem acyclic_cutBackEdges : Acyclic (DependsOn (cutBackEdges kept)) := by
  apply acyclic_of_rank fun id => (kept.map (·.id)).idxOf id
  rintro a dep ⟨node, mem, rfl, listed⟩
  obtain ⟨i, original, at_, same, deps⟩ := mem_cutBackEdges distinct mem
  obtain ⟨-, j, lt, before⟩ := (deps dep).mp listed
  have position : ∀ {k : Nat} {id : Text}, (kept.map (·.id))[k]? = some id →
      (kept.map (·.id)).idxOf id = k := by
    intro k id at_
    obtain ⟨inside, rfl⟩ := List.getElem?_eq_some_iff.mp at_
    exact distinct.idxOf_getElem k inside
  have own : (kept.map (·.id))[i]? = some node.id := by rw [List.getElem?_map, at_, same]; rfl
  rw [position before, position own]
  exact lt

theorem closed_cutBackEdges (named : ∀ node ∈ kept, node.id ≠ []) : Closed (cutBackEdges kept) := by
  refine ⟨by rwa [ids_cutBackEdges], fun node mem => ?_, fun node mem dep listed => ?_⟩
  · obtain ⟨i, original, at_, same, -⟩ := mem_cutBackEdges distinct mem
    rw [same]
    exact named original (List.mem_of_getElem? at_)
  · obtain ⟨i, original, at_, same, deps⟩ := mem_cutBackEdges distinct mem
    obtain ⟨-, j, -, before⟩ := (deps dep).mp listed
    rw [ids_cutBackEdges]
    exact List.mem_of_getElem? before

end Cut

section Plan
variable {ν : Type} {read : List (Json ν)} (few : read.length ≤ NODES_READ_MAX)

/-- The nodes in order, at most as many as are drawn. -/
def keptOf (read : List (Json ν)) : List ThoughtNode :=
  (topoSort (skeleton (nameNodes (read.map rawOf)).byRaw read (nameNodes (read.map rawOf)).ids)).take NODES_MAX

theorem acyclic_planOf : (planOf read).acyclic = cutBackEdges (keptOf read) := rfl

theorem waves_planOf : (planOf read).waves = workflowWaves ⟨[], (planOf read).acyclic⟩ := by rw [planOf]

include few

theorem ids_kept : ((keptOf read).map (·.id)).Nodup ∧
    ∀ id ∈ (keptOf read).map (·.id), id ∈ (nameNodes (read.map rawOf)).ids := by
  obtain ⟨-, length, distinct, -, -⟩ := naming_spec few
  have ids := ids_skeleton (nameNodes (read.map rawOf)).byRaw length
  have sorted := (topoSort_perm (closed_skeleton few)).map (·.id)
  rw [ids] at sorted
  have taken := (take_sublist NODES_MAX (topoSort (skeleton (nameNodes (read.map rawOf)).byRaw read
    (nameNodes (read.map rawOf)).ids))).map (·.id)
  exact ⟨(sorted.nodup_iff.mpr distinct).sublist taken, fun id mem => sorted.mem_iff.mp (taken.subset mem)⟩

theorem ids_fit : ∀ id ∈ (keptOf read).map (·.id), id ≠ [] ∧ id.length ≤ ID_MAX :=
  fun id mem => (naming_spec few).2.2.2.1 id ((ids_kept few).2 id mem)

theorem closed_acyclic : Closed (planOf read).acyclic :=
  closed_cutBackEdges (ids_kept few).1 fun _ mem => (ids_fit few _ (mem_map_of_mem mem)).1

theorem waves_sound : WavesSound (planOf read).acyclic (planOf read).waves := by
  rw [waves_planOf]
  exact (workflowWaves_sound_iff (closed_acyclic few) []).mpr (acyclic_cutBackEdges (ids_kept few).1)

end Plan

section View
variable {ν : Type} (record : Json ν) (goal : Option (Json ν)) (items : List (Json ν))

theorem few_read : (readOf items).length ≤ NODES_READ_MAX := length_take_le _ _

theorem built_spec (id : Text) (mem : id ∈ (planOf (readOf items)).acyclic.map (·.id)) :
    ∃ source, (builtNodes (sourcesOf record (readOf items) (planOf (readOf items)))
      ((planOf (readOf items)).acyclic.map (·.id))).get? id =
        some (viewNode (sourcesOf record (readOf items) (planOf (readOf items))) id source) := by
  have few := few_read items
  obtain ⟨-, length, distinct, -, -⟩ := naming_spec few
  have drawn := (closed_acyclic few).nodup
  have keys : ((nameNodes ((readOf items).map rawOf)).ids.zip (readOf items)).map Prod.fst =
      (nameNodes ((readOf items).map rawOf)).ids := map_fst_zip (by omega)
  have source : ∀ id ∈ (planOf (readOf items)).acyclic.map (·.id), ∃ source,
      (sourcesOf record (readOf items) (planOf (readOf items))).sourceById.get? id = some source := by
    intro id mem
    rw [acyclic_planOf, ids_cutBackEdges] at mem
    rw [← keys] at distinct
    have named := (ids_kept few).2 id mem
    rw [← keys] at named
    obtain ⟨⟨_, item⟩, held, rfl⟩ := List.mem_map.mp named
    exact ⟨item, (get?_mapOf distinct _ _).mpr held⟩
  have all : (((planOf (readOf items)).acyclic.map (·.id)).filterMap fun id =>
      ((sourcesOf record (readOf items) (planOf (readOf items))).sourceById.get? id).map fun source =>
        (id, viewNode (sourcesOf record (readOf items) (planOf (readOf items))) id source)).map Prod.fst =
      (planOf (readOf items)).acyclic.map (·.id) := by
    generalize (planOf (readOf items)).acyclic.map (·.id) = ids at source
    induction ids with
    | nil => rfl
    | cons first rest ih =>
      obtain ⟨item, found⟩ := source first mem_cons_self
      rw [filterMap_cons, found, Option.map_some]
      exact congrArg (first :: ·) (ih fun id mem => source id (mem_cons_of_mem _ mem))
  obtain ⟨item, found⟩ := source id mem
  refine ⟨item, (get?_mapOf (by rw [all]; exact drawn) _ _).mpr (mem_filterMap.mpr ⟨id, mem, ?_⟩)⟩
  rw [found]
  rfl

omit record goal items in
theorem viewNode_id (m : Sources ν) (id : Text) (source : Json ν) : (viewNode m id source).1.id = id := rfl

omit record goal items in
theorem viewNode_dependsOn (m : Sources ν) (id : Text) (source : Json ν) :
    (viewNode m id source).1.dependsOn = (m.dependsById.get? id).getD [] := rfl

omit record goal items in
theorem viewNode_wave (m : Sources ν) (id : Text) (source : Json ν) :
    (viewNode m id source).1.wave = (m.waveOf.get? id).getD 1 := rfl

omit record goal items in
theorem viewNodes_spec {built : OrderedMap Text (GraphViewNode × Bool)}
    {P : Text → GraphViewNode → Prop}
    (all : ∀ id ∈ waves.flatMap (·.ids), ∃ made, built.get? id = some made ∧ P id made.1) :
    ∃ node : Text → GraphViewNode, viewNodes built waves = (waves.flatMap (·.ids)).map node ∧
      ∀ id ∈ waves.flatMap (·.ids), P id (node id) := by
  let node (id : Text) : GraphViewNode :=
    ((built.get? id).map Prod.fst).getD ⟨[], [], [], [], [], 1, [], [], false⟩
  have found : ∀ id ∈ waves.flatMap (·.ids), (built.get? id).map Prod.fst = some (node id) ∧ P id (node id) := by
    intro id mem
    obtain ⟨made, held, good⟩ := all id mem
    simp only [node, held, Option.map_some, Option.getD_some, and_self, good]
  refine ⟨node, ?_, fun id mem => (found id mem).2⟩
  rw [viewNodes, ← filterMap_eq_map]
  exact filterMap_congr fun id mem => (found id mem).1

theorem viewOf_nodes : ∃ node : Text → GraphViewNode,
    (viewOf record goal items).nodes = ((planOf (readOf items)).waves.flatMap (·.ids)).map node ∧
    ∀ id ∈ (planOf (readOf items)).waves.flatMap (·.ids), ∃ source,
      node id = (viewNode (sourcesOf record (readOf items) (planOf (readOf items))) id source).1 := by
  have same : (viewOf record goal items).nodes =
      viewNodes (builtNodes (sourcesOf record (readOf items) (planOf (readOf items)))
        ((planOf (readOf items)).acyclic.map (·.id))) (planOf (readOf items)).waves := by
    rw [viewOf]
  rw [same]
  apply viewNodes_spec (P := fun id made => ∃ source,
    made = (viewNode (sourcesOf record (readOf items) (planOf (readOf items))) id source).1)
  intro id mem
  obtain ⟨source, found⟩ := built_spec record items id ((waves_sound (few_read items)).cover.mem_iff.mp mem)
  exact ⟨_, found, source, rfl⟩

variable {items}

omit goal in
theorem dependsById_spec {n : ThoughtNode} (mem : n ∈ (planOf (readOf items)).acyclic) :
    (sourcesOf record (readOf items) (planOf (readOf items))).dependsById.get? n.id = some n.dependsOn := by
  rw [sourcesOf]
  refine (get?_mapOf ?_ _ _).mpr (List.mem_map.mpr ⟨n, mem, rfl⟩)
  rw [map_map]
  exact (closed_acyclic (few_read items)).nodup

omit record goal items in
theorem get?_waveOf (distinct : (waves.flatMap (·.ids)).Nodup) (mem : wave ∈ waves)
    (inside : id ∈ wave.ids) :
    (mapOf (waves.flatMap fun wave => wave.ids.map fun id => (id, wave.wave))).get? id = some wave.wave := by
  have keys : (waves.flatMap fun wave => wave.ids.map fun id => (id, wave.wave)).map Prod.fst =
      waves.flatMap (·.ids) := by
    rw [map_flatMap]
    refine congrArg (fun f => waves.flatMap f) (funext fun wave => ?_)
    rw [map_map]
    exact map_id _
  rw [get?_mapOf (by rwa [keys])]
  exact mem_flatMap.mpr ⟨wave, mem, List.mem_map.mpr ⟨id, inside, rfl⟩⟩

omit goal in
theorem waveOf_spec (mem : wave ∈ (planOf (readOf items)).waves) (inside : id ∈ wave.ids) :
    (sourcesOf record (readOf items) (planOf (readOf items))).waveOf.get? id = some wave.wave := by
  have map : (sourcesOf record (readOf items) (planOf (readOf items))).waveOf =
      mapOf ((planOf (readOf items)).waves.flatMap fun wave => wave.ids.map fun id => (id, wave.wave)) := by
    rw [sourcesOf]
  rw [map]
  exact get?_waveOf (waves_sound (few_read items)).distinct mem inside

theorem viewOf_node {node : GraphViewNode} (mem : node ∈ (viewOf record goal items).nodes) :
    (∃ n ∈ (planOf (readOf items)).acyclic, n.id = node.id ∧ node.dependsOn = n.dependsOn) ∧
      ∀ wave ∈ (planOf (readOf items)).waves, node.id ∈ wave.ids → node.wave = wave.wave := by
  obtain ⟨make, nodes, sources⟩ := viewOf_nodes record goal items
  rw [nodes] at mem
  obtain ⟨id, memId, rfl⟩ := List.mem_map.mp mem
  obtain ⟨source, made⟩ := sources id memId
  have drawn := (waves_sound (few_read items)).cover.mem_iff.mp memId
  obtain ⟨n, memN, rfl⟩ := List.mem_map.mp drawn
  rw [made]
  refine ⟨⟨n, memN, (viewNode_id ..).symm, ?_⟩, fun wave memWave inside => ?_⟩
  · rw [viewNode_dependsOn, dependsById_spec record memN]
    rfl
  · rw [viewNode_id] at inside
    rw [viewNode_wave, waveOf_spec record memWave inside]
    rfl

theorem viewOf_ids : (viewOf record goal items).nodes.map (·.id) =
    (planOf (readOf items)).waves.flatMap (·.ids) := by
  obtain ⟨make, nodes, sources⟩ := viewOf_nodes record goal items
  rw [nodes, map_map]
  refine (map_congr_left fun id mem => ?_).trans (map_id _)
  obtain ⟨source, made⟩ := sources id mem
  show (make id).id = id
  rw [made, viewNode_id]

variable {goal}

theorem viewOf_waves : (viewOf record goal items).waves = (planOf (readOf items)).waves := by rw [viewOf]

theorem viewOf_counts : (viewOf record goal items).counts = ⟨(viewOf record goal items).nodes.length,
    ((viewOf record goal items).nodes.map fun node => node.dependsOn.length).sum,
    (viewOf record goal items).waves.length,
    ((viewOf record goal items).nodes.map fun node => node.steps.length).sum⟩ := by
  rw [viewOf]

omit record in
theorem plan_numbers : (planOf (readOf items)).waves.map (·.wave) =
    List.range' 1 (planOf (readOf items)).waves.length := by
  rw [waves_planOf, workflowWaves, List.length_map, length_zipIdx, map_map]
  generalize dependencyLevels _ = levels
  rw [← zipIdx_map_snd 1 levels, zipIdx_succ, map_map]
  rfl

theorem viewOf_sound :
    (viewOf record goal items).nodes.length ≤ NODES_MAX ∧
    ((viewOf record goal items).nodes.map (·.id)).Nodup ∧
    (∀ node ∈ (viewOf record goal items).nodes, node.id ≠ [] ∧ node.id.length ≤ ID_MAX) ∧
    (∀ node ∈ (viewOf record goal items).nodes, ∀ dep ∈ node.dependsOn,
      ∃ other ∈ (viewOf record goal items).nodes, other.id = dep ∧ other.wave < node.wave) := by
  have few := few_read items
  have sound := waves_sound few
  have ids := @viewOf_ids ν record goal items
  have cover := sound.cover
  rw [← ids] at cover
  have length := cover.length_eq
  rw [List.length_map, List.length_map, acyclic_planOf, cutBackEdges, List.length_map, length_zipIdx] at length
  refine ⟨?_, by rw [ids]; exact sound.distinct, fun node mem => ?_, fun node mem dep listed => ?_⟩
  · rw [length]
    exact length_take_le _ _
  · have drawn := cover.mem_iff.mp (mem_map_of_mem mem)
    rw [acyclic_planOf, ids_cutBackEdges] at drawn
    exact ids_fit few node.id drawn
  · obtain ⟨⟨n, memN, same, deps⟩, wave⟩ := viewOf_node record goal mem
    rw [deps] at listed
    obtain ⟨first, memFirst, later, memLater, inFirst, inLater, lt⟩ := sound.earlier n memN dep listed
    have known : dep ∈ (viewOf record goal items).nodes.map (·.id) := by
      rw [ids]
      exact mem_flatMap.mpr ⟨first, memFirst, inFirst⟩
    obtain ⟨other, memOther, rfl⟩ := List.mem_map.mp known
    refine ⟨other, memOther, rfl, ?_⟩
    rw [(viewOf_node record goal memOther).2 first memFirst inFirst, wave later memLater (same ▸ inLater)]
    exact lt

/-- An item with the raw id `a` names the raw id `b`. -/
def RawDepends (items : List (Json ν)) (a b : Text) : Prop :=
  b ≠ [] ∧ ∃ item ∈ items, rawOf item = a ∧
    ∃ entry ∈ entriesOf (property item "dependsOn"), trim (str (some entry)) = b

variable (small : items.length ≤ NODES_MAX)
include small

theorem read_all : readOf items = items :=
  take_of_length_le (le_trans small (by decide))

omit record in
theorem few_all : items.length ≤ NODES_READ_MAX := le_trans small (by decide)

omit small record in
theorem acyclic_skeleton (few : items.length ≤ NODES_READ_MAX) (acyclic : Acyclic (RawDepends items)) :
    Acyclic (DependsOn (skeleton (nameNodes (items.map rawOf)).byRaw items
      (nameNodes (items.map rawOf)).ids)) := by
  obtain ⟨named, length, distinct, fits, leads⟩ := naming_spec few
  let ids := (nameNodes (items.map rawOf)).ids
  let raw (id : Text) : Text := (((items.map rawOf))[ids.idxOf id]?).getD []
  have raw_eq : ∀ (i : Nat) (r id : Text), (items.map rawOf)[i]? = some r → ids[i]? = some id → raw id = r := by
    intro i r id at_ given
    obtain ⟨inside, rfl⟩ := List.getElem?_eq_some_iff.mp given
    simp only [raw]
    rw [distinct.idxOf_getElem i inside, at_]
    rfl
  intro a path
  refine acyclic (raw a) (Relation.TransGen.lift raw ?_ _ _ path)
  rintro _ dep ⟨node, mem, rfl, listed⟩
  obtain ⟨i, item, id, at_, given, rfl⟩ := mem_skeleton.mp mem
  obtain ⟨-, entry, memEntry, found⟩ := (mem_deps _ _ _ dep).mp listed
  obtain ⟨some_, -, j, atRaw, givenDep⟩ := named.owner _ dep found
  have own : (items.map rawOf)[i]? = some (rawOf item) := by rw [List.getElem?_map, at_]; rfl
  show RawDepends items (raw id) (raw dep)
  rw [raw_eq j _ dep atRaw givenDep]
  refine ⟨some_, item, List.mem_of_getElem? at_, ?_, entry, memEntry, rfl⟩
  exact (raw_eq i _ id own given).symm

omit small record in
theorem index_unique (distinct : ids.Nodup) (left : ids[i]? = some id) (right : ids[j]? = some id) :
    i = j := by
  obtain ⟨insideI, rfl⟩ := List.getElem?_eq_some_iff.mp left
  obtain ⟨insideJ, same⟩ := List.getElem?_eq_some_iff.mp right
  rw [← distinct.idxOf_getElem i insideI, ← same, distinct.idxOf_getElem j insideJ]

theorem dependency_kept (unique : Unique (items.map rawOf)) (acyclic : Acyclic (RawDepends items))
    {item : Json ν} {own b : Text} (at_ : items[i]? = some item)
    (given : (nameNodes (items.map rawOf)).ids[i]? = some own)
    (depends : ∃ entry ∈ entriesOf (property item "dependsOn"), trim (str (some entry)) = b)
    (known : (items.map rawOf)[j]? = some b) (some_ : b ≠ [])
    (givenDep : (nameNodes (items.map rawOf)).ids[j]? = some id) :
    ∃ n ∈ (planOf items).acyclic, n.id = own ∧ id ∈ n.dependsOn := by
  have few := few_all small
  obtain ⟨named, length, distinct, fits, -⟩ := naming_spec few
  have closed := closed_skeleton few
  have sorted := topoSort_perm closed
  obtain ⟨entry, memEntry, rfl⟩ := depends
  have found := named.claims unique j _ id known givenDep (fits id (List.mem_of_getElem? givenDep)).1 some_
  have apart : id ≠ own := by
    rintro rfl
    rw [index_unique distinct givenDep given, List.getElem?_map, at_] at known
    exact acyclic _ (.single ⟨some_, item, List.mem_of_getElem? at_, Option.some.inj known, entry, memEntry, rfl⟩)
  let node := skeletonNode (nameNodes (items.map rawOf)).byRaw item own
  have listed : id ∈ node.dependsOn := (mem_deps _ _ _ id).mpr ⟨apart, entry, memEntry, found⟩
  have memNode : node ∈ topoSort (skeleton (nameNodes (items.map rawOf)).byRaw items
      (nameNodes (items.map rawOf)).ids) := sorted.mem_iff.mpr (mem_skeleton.mpr ⟨i, item, own, at_, given, rfl⟩)
  obtain ⟨before, after, split⟩ := append_of_mem memNode
  have earlier := topoSort_order closed (acyclic_skeleton few acyclic) before node after split id listed
  have all : keptOf items = before ++ node :: after := by
    rw [keptOf, take_of_length_le, split]
    rw [sorted.length_eq, skeleton, length_zipWith, length, min_self]
    exact small
  rw [acyclic_planOf, all]
  have ids := (ids_kept few).1
  rw [all] at ids
  obtain ⟨k, placed⟩ := List.getElem?_of_mem earlier
  have lt : k < before.length := by
    have inside := (List.getElem?_eq_some_iff.mp placed).1
    rwa [List.length_map] at inside
  refine ⟨_, List.mem_map.mpr ⟨(node, before.length), ?_, rfl⟩, rfl, List.mem_filter.mpr ⟨listed, ?_⟩⟩
  · rw [mem_zipIdx_iff_getElem?, getElem?_append_right (Nat.le_refl _), Nat.sub_self]
    rfl
  · rw [Option.any_eq_true]
    refine ⟨k, (position_spec ids id k).mpr ?_, decide_eq_true lt⟩
    rw [map_append, getElem?_append_left (by rwa [List.length_map])]
    exact placed

end View

/-- A view has at most 24 nodes with different ids of 1 to 40 units, its waves hold each node once, every
dependency stands in an earlier wave, the counts are those of the view, and of a record that has at most 24
nodes, no raw id twice and no circle every dependency on a known node is kept. -/
theorem view_repaired {ν : Type} (record : Json ν) (view : GraphView)
    (built : buildGraphView record = some view) :
    view.nodes.length ≤ 24 ∧ (view.nodes.map (·.id)).Nodup ∧
    (∀ node ∈ view.nodes, node.id ≠ [] ∧ node.id.length ≤ 40) ∧
    view.waves.flatMap (·.ids) = view.nodes.map (·.id) ∧ (∀ wave ∈ view.waves, wave.ids ≠ []) ∧
    view.waves.map (·.wave) = List.range' 1 view.waves.length ∧
    (∀ wave ∈ view.waves, ∀ node ∈ view.nodes, node.id ∈ wave.ids → node.wave = wave.wave) ∧
    (∀ node ∈ view.nodes, ∀ dep ∈ node.dependsOn,
      ∃ other ∈ view.nodes, other.id = dep ∧ other.wave < node.wave) ∧
    view.counts = ⟨view.nodes.length, (view.nodes.map fun node => node.dependsOn.length).sum,
      view.waves.length, (view.nodes.map fun node => node.steps.length).sum⟩ ∧
    ∀ items, itemsOf (property record "graph") = some items → items.length ≤ 24 →
      Unique (items.map rawOf) → Acyclic (RawDepends items) →
      ∃ ids : List Text, ids.length = items.length ∧ (view.nodes.map (·.id)).Perm ids ∧
        ((items.map rawOf).Nodup → (∀ raw ∈ items.map rawOf, Fits raw) → ids = items.map rawOf) ∧
        ∀ (i j : Nat) (item : Json ν) (own id b : Text), items[i]? = some item → ids[i]? = some own →
          (∃ entry ∈ entriesOf (property item "dependsOn"), trim (str (some entry)) = b) →
          (items.map rawOf)[j]? = some b → b ≠ [] → ids[j]? = some id →
          ∃ node ∈ view.nodes, node.id = own ∧ id ∈ node.dependsOn := by
  unfold buildGraphView at built
  dsimp only at built
  split at built
  · cases built
  next items found =>
  split at built
  · cases built
  split at built
  · cases built
  generalize hGoal : ((property record "graph").bind fun graph => property graph "goal") = goal at built
  cases built
  obtain ⟨short, distinct, fits, earlier⟩ := @viewOf_sound ν record goal items
  have sound := waves_sound (few_read items)
  have waves := @viewOf_waves ν record goal items
  have ids := @viewOf_ids ν record goal items
  have counts := @viewOf_counts ν record goal items
  have nodes : ∀ node ∈ (viewOf record goal items).nodes, _ := fun node mem => viewOf_node record goal mem
  generalize viewOf record goal items = view at *
  refine ⟨short, distinct, fits, by rw [waves, ids], by rw [waves]; exact sound.nonempty,
    by rw [waves]; exact plan_numbers, fun wave memWave node memNode inside => ?_, earlier, counts, ?_⟩
  · rw [waves] at memWave
    exact (nodes node memNode).2 wave memWave inside
  intro items' same small unique acyclic
  rw [found] at same
  cases same
  have all := read_all small
  obtain ⟨-, length, -, -, -⟩ := naming_spec (few_all small)
  have cover := sound.cover
  rw [← ids, all] at cover
  have sorted := (topoSort_perm (closed_skeleton (few_all small))).map (·.id)
  rw [ids_skeleton _ length] at sorted
  refine ⟨(nameNodes (items.map rawOf)).ids, length, ?_, ids_of_fits, ?_⟩
  · refine cover.trans ?_
    rw [acyclic_planOf, ids_cutBackEdges, keptOf, take_of_length_le]
    · exact sorted
    · rw [(topoSort_perm (closed_skeleton (few_all small))).length_eq, skeleton, length_zipWith, length,
        min_self]
      exact small
  · intro i j item own id b at_ given depends known some_ givenDep
    obtain ⟨n, memN, rfl, listed⟩ := dependency_kept small unique acyclic at_ given depends known some_ givenDep
    have drawn := cover.mem_iff.mpr (mem_map_of_mem memN)
    obtain ⟨node, memNode, same⟩ := List.mem_map.mp drawn
    refine ⟨node, memNode, same, ?_⟩
    obtain ⟨⟨m, memM, sameM, deps⟩, -⟩ := nodes node memNode
    rw [all] at memM
    have one : m = n := inj_on_of_nodup_map (closed_acyclic (few_all small)).nodup memM memN
      (sameM.trans same)
    rw [deps, one]
    exact listed

/-! A record with an id twice, a circle and an unknown dependency. -/

def tangledNode (id : String) (dependsOn : List String) : Json Unit :=
  .obj [(js "id", .str (js id)), (js "dependsOn", .arr (dependsOn.map fun dep => .str (js dep)))]

def tangled : Json Unit :=
  .obj [(js "graph", .obj [(js "nodes", .arr [tangledNode " a" [], tangledNode "b" ["a", "c", "zz"],
    tangledNode "a" ["b"], tangledNode "c" ["b", "c"]])])]

theorem tangled_drawn : (buildGraphView tangled).isSome = true := by decide +kernel

example : (buildGraphView tangled).map (fun view => view.nodes.map fun node => (node.id, node.dependsOn, node.wave)) =
    some [(js "a", [], 1), (js "b", [js "a"], 2), (js "n3", [js "b"], 3), (js "c", [js "b"], 3)] := by
  decide +kernel

theorem view_repaired_tangled : ((buildGraphView tangled).get tangled_drawn).nodes.length ≤ 24 :=
  (view_repaired tangled _ (Option.some_get tangled_drawn).symm).1

end Ultrathink.Guarantees.GraphViewRepair
