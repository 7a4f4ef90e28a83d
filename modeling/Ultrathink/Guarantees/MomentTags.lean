import Ultrathink.Source.Teach.Mapping

/-!
# Tags of a moment

A tag in one of the mapping's own namespaces keeps the namespace through `sanitizeTag`, and no tag
of the moment's own gets into one. So what is read from the tags is what the base tags say.
-/

namespace Ultrathink.Guarantees.MomentTags

open List Library JsText Source.Teach

theorem isTagChar_range {u : UInt16} (tag : isTagChar u = true) :
    isUpperLetter u = false ∧ u ≠ 0x212A ∧ u ≠ 0x0130 := by
  simp only [isTagChar, isLowerLetter, isDigit, dash, Bool.or_eq_true, Bool.and_eq_true,
    decide_eq_true_eq, UInt16.le_iff_toNat_le, ← UInt16.toNat_inj] at tag
  simp only [isUpperLetter, Bool.and_eq_false_iff, decide_eq_false_iff_not, Ne,
    UInt16.le_iff_toNat_le, ← UInt16.toNat_inj]
  simp only [UInt16.reduceToNat] at tag ⊢
  omega

theorem tagLower_plain {u : UInt16} (tag : isTagChar u = true) : tagLower u = [u] := by
  obtain ⟨lower, kelvin, dotted⟩ := isTagChar_range tag
  rw [tagLower, lower, if_neg Bool.false_ne_true, if_neg kelvin, if_neg dotted]

variable {space tag t : Text}

theorem flatMap_tagLower_plain (plain : ∀ u ∈ t, isTagChar u = true) :
    t.flatMap tagLower = t := by
  induction t with
  | nil => rfl
  | cons u rest ih =>
    rw [flatMap_cons, tagLower_plain (plain u mem_cons_self),
      ih fun v mem => plain v (mem_cons_of_mem _ mem)]
    rfl

theorem dashRuns_plain (plain : ∀ u ∈ t, isTagChar u = true) (rest : Text) :
    dashRuns false (t ++ rest) = t ++ dashRuns false rest := by
  induction t with
  | nil => rfl
  | cons u more ih =>
    rw [cons_append, dashRuns, if_pos (plain u mem_cons_self),
      ih fun v mem => plain v (mem_cons_of_mem _ mem)]
    rfl

theorem rdropWhile_append {α : Type} {p : α → Bool} {s : List α} (solid : ∀ u ∈ s, p u = false)
    (t : List α) : (s ++ t).rdropWhile p = s ++ t.rdropWhile p := by
  induction t using List.reverseRecOn with
  | nil =>
    rw [append_nil, rdropWhile_nil, append_nil, rdropWhile_eq_self_iff]
    intro some_
    rw [solid _ (getLast_mem some_)]
    exact Bool.false_ne_true
  | append_singleton t u ih =>
    rw [← append_assoc, rdropWhile_concat, rdropWhile_concat, ih]
    split
    · rfl
    · rw [append_assoc]

/-- What a tag keeps of the text behind its namespace. -/
def tagTail (used : Nat) (t : Text) : Text :=
  dropDashes ((dropDashes (dashRuns false (t.flatMap tagLower))).take (MAX_TAG_CHARS - used))

structure IsNamespace (space : Text) : Prop where
  units : space.all (fun u => isTagChar u && u ≠ dash) = true
  some_ : space ≠ []
  short : space.length ≤ MAX_TAG_CHARS

theorem IsNamespace.plain (ns : IsNamespace space) : ∀ u ∈ space, isTagChar u = true :=
  fun u mem => (Bool.and_eq_true_iff.mp (all_eq_true.mp ns.units u mem)).1

theorem IsNamespace.solid (ns : IsNamespace space) :
    ∀ u ∈ space, decide (u = dash) = false := by
  intro u mem
  have other := (Bool.and_eq_true_iff.mp (all_eq_true.mp ns.units u mem)).2
  exact decide_eq_false (of_decide_eq_true other)

theorem sanitizeTag_namespace (ns : IsNamespace space) (t : Text) :
    sanitizeTag (space ++ t) = space ++ tagTail space.length t := by
  have solid := ns.solid
  have front : (space ++ dashRuns false (t.flatMap tagLower)).dropWhile (fun u => decide (u = dash)) =
      space ++ dashRuns false (t.flatMap tagLower) := by
    cases same : space with
    | nil => exact absurd same ns.some_
    | cons u rest =>
      rw [cons_append, dropWhile_cons_of_neg]
      rw [solid u (same ▸ mem_cons_self)]
      exact Bool.false_ne_true
  rw [sanitizeTag, flatMap_append, flatMap_tagLower_plain ns.plain, dashRuns_plain ns.plain,
    front, dropDashes, dropDashes, rdropWhile_append solid, take_append,
    take_of_length_le ns.short, rdropWhile_append solid]
  rfl

theorem isNamespace_reserved (reserved : space ∈ RESERVED_PREFIXES) :
    IsNamespace space := by
  simp only [RESERVED_PREFIXES, mem_cons, not_mem_nil, or_false] at reserved
  rcases reserved with rfl | rfl | rfl | rfl
  · exact ⟨by decide, by decide, by decide⟩
  · exact ⟨by decide, by decide, by decide⟩
  · exact ⟨by decide, by decide, by decide⟩
  · exact ⟨by decide, by decide, by decide⟩

/-- The tag that is asked for and the one that is written, of any text in a namespace. -/
def tagOf (space t : Text) : Text := space ++ tagTail space.length t

theorem tagOf_ne (other : space.isPrefixOf tag = false) : tagOf space t ≠ tag := by
  rintro rfl
  rw [tagOf, isPrefixOf_iff_prefix.mpr (prefix_append _ _)] at other
  exact Bool.noConfusion other

section Tags

variable {α : Type} [BEq α] [LawfulBEq α] {p : α → Bool}

theorem find?_eraseDups (items : List α) : items.eraseDups.find? p = items.find? p := by
  induction length : items.length using Nat.strong_induction_on generalizing items with
  | _ n ih =>
    cases items with
    | nil => rfl
    | cons a rest =>
      rw [eraseDups_cons, find?_cons, find?_cons]
      cases here : p a with
      | true => rfl
      | false =>
        have shorter : (rest.filter fun b => !b == a).length < n := by
          rw [← length, length_cons]
          exact Nat.lt_succ_of_le (length_filter_le _ _)
        have skipped : (fun b => decide ((!b == a) = true ∧ p b = true)) = p := by
          funext b
          by_cases same : b = a
          · simp [same, here]
          · simp [same]
        dsimp only
        rw [ih _ shorter _ rfl, find?_filter, skipped]

end Tags

def sanitizedBase (moment : TeachableMoment) : List Text :=
  [js "ultrathink", js "teachable", tagOf (js "project:") moment.project, tagOf (js "host:") moment.host,
    tagOf (js "kind:") moment.kind.text, tagOf (js "status:") moment.status.text]

theorem map_sanitizeTag_base (moment : TeachableMoment) :
    (baseTags moment).map sanitizeTag = sanitizedBase moment := by
  have namespaced (space t : Text) (reserved : space ∈ RESERVED_PREFIXES) :
      sanitizeTag (space ++ t) = tagOf space t := sanitizeTag_namespace (isNamespace_reserved reserved) t
  rw [baseTags, map_cons, map_cons, map_cons, map_cons, map_cons,
    map_cons, map_nil, namespaced _ _ (by decide), namespaced _ _ (by decide),
    namespaced _ _ (by decide), namespaced _ _ (by decide), show sanitizeTag (js "ultrathink") = js "ultrathink" by decide,
    show sanitizeTag (js "teachable") = js "teachable" by decide]
  rfl

theorem ne_nil_of_base {moment : TeachableMoment} (mem : tag ∈ sanitizedBase moment) :
    tag ≠ [] := by
  rintro rfl
  simp only [sanitizedBase, tagOf, mem_cons, not_mem_nil, or_false] at mem
  rcases mem with h | h | h | h | h | h
  · exact absurd h (by decide)
  · exact absurd h (by decide)
  · exact absurd (append_eq_nil_iff.mp h.symm).1 (by decide)
  · exact absurd (append_eq_nil_iff.mp h.symm).1 (by decide)
  · exact absurd (append_eq_nil_iff.mp h.symm).1 (by decide)
  · exact absurd (append_eq_nil_iff.mp h.symm).1 (by decide)

theorem tagsFor_eq (moment : TeachableMoment) :
    tagsFor moment = (sanitizedBase moment ++
      (moment.tags.map sanitizeTag).filter (fun clean => clean ≠ [] ∧ isReserved clean = false)).eraseDups := by
  rw [tagsFor, map_sanitizeTag_base, filter_eq_self.mpr]
  intro tag mem
  exact decide_eq_true (ne_nil_of_base mem)

theorem find?_tagsFor {p : Text → Bool} (reserved : ∀ tag, p tag = true → isReserved tag = true)
    (moment : TeachableMoment) : (tagsFor moment).find? p = (sanitizedBase moment).find? p := by
  have none_ : ((moment.tags.map sanitizeTag).filter
      (fun clean => clean ≠ [] ∧ isReserved clean = false)).find? p = none := by
    rw [find?_eq_none]
    intro tag mem found
    have free := of_decide_eq_true (mem_filter.mp mem).2
    rw [reserved tag found] at free
    exact Bool.noConfusion free.2
  rw [tagsFor_eq, find?_eraseDups, find?_append, none_, Option.or_none]

theorem mem_tagsFor (reserved : isReserved tag = true) (moment : TeachableMoment) :
    tag ∈ tagsFor moment ↔ tag ∈ sanitizedBase moment := by
  rw [tagsFor_eq, mem_eraseDups, mem_append]
  refine or_iff_left ?_
  intro mem
  have free := of_decide_eq_true (mem_filter.mp mem).2
  rw [reserved] at free
  exact Bool.noConfusion free.2

theorem isReserved_of_begins (reserved : space ∈ RESERVED_PREFIXES)
    (begins : space.isPrefixOf tag = true) : isReserved tag = true :=
  any_eq_true.mpr ⟨space, reserved, begins⟩

theorem tagValue_tagsFor (reserved : space ∈ RESERVED_PREFIXES) (moment : TeachableMoment)
    (tags : List Text) :
    tagValue (tagsFor { moment with tags := tags }) space = tagValue (tagsFor moment) space := by
  have own := find?_tagsFor (p := fun tag => space.isPrefixOf tag) fun tag => isReserved_of_begins reserved
  rw [tagValue, tagValue, own, own]
  rfl

theorem lessonFromHit_own (moment : TeachableMoment) (tags : List Text) (hit : RecallHit) :
    lessonFromHit { hit with tags := tagsFor { moment with tags := tags } } =
      lessonFromHit { hit with tags := tagsFor moment } := by
  have superseded : js "status:superseded" ∈ tagsFor { moment with tags := tags } ↔
      js "status:superseded" ∈ tagsFor moment := by
    rw [mem_tagsFor (by decide), mem_tagsFor (by decide)]
    rfl
  unfold lessonFromHit
  simp only [superseded, tagValue_tagsFor (by decide : js "project:" ∈ RESERVED_PREFIXES),
    tagValue_tagsFor (by decide : js "host:" ∈ RESERVED_PREFIXES),
    tagValue_tagsFor (by decide : js "kind:" ∈ RESERVED_PREFIXES)]

theorem superseded_mem (moment : TeachableMoment) :
    js "status:superseded" ∈ tagsFor moment ↔ moment.status = .superseded := by
  rw [mem_tagsFor (by decide)]
  simp only [sanitizedBase, mem_cons, not_mem_nil, or_false]
  constructor
  · rintro (h | h | h | h | h | h)
    · exact absurd h (by decide)
    · exact absurd h (by decide)
    · exact absurd h.symm (tagOf_ne (by decide))
    · exact absurd h.symm (tagOf_ne (by decide))
    · exact absurd h.symm (tagOf_ne (by decide))
    · cases status : moment.status with
      | superseded => rfl
      | candidate => rw [status] at h; exact absurd h (by decide)
      | confirmed => rw [status] at h; exact absurd h (by decide)
      | promoted => rw [status] at h; exact absurd h (by decide)
  · intro status
    rw [status]
    exact .inr (.inr (.inr (.inr (.inr (by decide)))))

/-- A document carries the tag of a project exactly when its own project has the same tag. -/
theorem project_mem (moment : TeachableMoment) (project : Text) :
    tagOf (js "project:") project ∈ tagsFor moment ↔
      tagOf (js "project:") moment.project = tagOf (js "project:") project := by
  have begins : (js "project:").isPrefixOf (tagOf (js "project:") project) = true :=
    isPrefixOf_iff_prefix.mpr (prefix_append _ _)
  rw [mem_tagsFor (isReserved_of_begins (by decide) begins)]
  simp only [sanitizedBase, mem_cons, not_mem_nil, or_false]
  constructor
  · rintro (h | h | h | h | h | h)
    · exact absurd h (tagOf_ne rfl)
    · exact absurd h (tagOf_ne rfl)
    · exact h.symm
    · exact absurd h (tagOf_ne rfl)
    · exact absurd h (tagOf_ne rfl)
    · exact absurd h (tagOf_ne rfl)
  · intro same
    exact .inr (.inr (.inl same.symm))

end Ultrathink.Guarantees.MomentTags
