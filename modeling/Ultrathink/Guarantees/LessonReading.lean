import Ultrathink.Guarantees.MomentTags

/-!
# The lesson of a document

What `lessonFromHit` makes of the document of any moment: a lesson exactly when the moment is current
and has a name, with the texts that `parseContent` finds.
-/

namespace Ultrathink.Guarantees.LessonReading

open List Library JsText JsNumber Source.Teach MomentTags

variable {u : UInt16} {t : Text} {mentionedAt : Option Text} {lesson : RecalledLesson}

theorem joinLineEnds_cons (other : u ≠ 0x0D) (rest : Text) :
    joinLineEnds (u :: rest) = u :: joinLineEnds rest := by
  cases rest with
  | nil => rfl
  | cons v rest => rw [joinLineEnds, if_neg fun both => other both.1]

variable {moment : TeachableMoment}

theorem contentFor_nameless (nameless : moment.name = []) :
    ∃ rest, contentFor moment = 0x23 :: 0x20 :: newline :: rest := by
  obtain ⟨text, same⟩ : ∃ text : Text, js "# " ++ moment.name ++ js "\n\n" ++ moment.description ++
      js "\n\n" ++ moment.body = 0x23 :: 0x20 :: newline :: newline :: text := by
    rw [nameless]
    exact ⟨moment.description ++ (js "\n\n" ++ moment.body), by simp; rfl⟩
  unfold contentFor
  simp only [same, maxContentChars, take_succ_cons]
  split
  · exact ⟨_, rfl⟩
  · split
    · exact ⟨_, rfl⟩
    · exact ⟨_, rfl⟩

theorem parseContent_nameless (nameless : moment.name = []) :
    (parseContent (contentFor moment)).name.getD [] = [] := by
  obtain ⟨rest, content⟩ := contentFor_nameless nameless
  have joined : joinLineEnds (contentFor moment) = 0x23 :: 0x20 :: newline :: joinLineEnds rest := by
    rw [content, joinLineEnds_cons (by decide), joinLineEnds_cons (by decide), joinLineEnds_cons (by decide)]
  have trimmed : trim (joinLineEnds (contentFor moment)) =
      0x23 :: (0x20 :: newline :: joinLineEnds rest).rdropWhile isSpace := by
    rw [joined, trim, dropWhile_cons_of_neg (by decide)]
    exact rdropWhile_append (forall_mem_singleton.mpr (by decide)) _
  have before : (0x20 :: newline :: joinLineEnds rest).rdropWhile isSpace <+:
      0x20 :: newline :: joinLineEnds rest := rdropWhile_prefix ..
  rw [parseContent]
  simp only [trimmed]
  split
  · have line : (List.drop 1 ((0x20 :: newline :: joinLineEnds rest).rdropWhile isSpace)).takeWhile
        (fun u => decide (u ≠ newline)) = [] := by
      have within := before.drop 1
      rw [drop_one, drop_one, tail_cons] at within
      rw [drop_one]
      generalize (List.rdropWhile isSpace (0x20 :: newline :: joinLineEnds rest)).tail = kept at within
      cases kept with
      | nil => rfl
      | cons u more =>
        obtain rfl := (cons_prefix_cons.mp within).1
        rfl
    rw [drop_succ_cons, line]
    split
    · rfl
    · rfl
  · rfl

theorem orElse_some (some_ : t ≠ []) (b : Option Text) : orElse (some t) b = some t := by
  rw [orElse, Option.filter_some, if_pos (decide_eq_true some_)]
  rfl

theorem orElse_nil (b : Option Text) : orElse (some []) b = b := by
  rfl

theorem parseCount_ofNat (n : Nat) : parseCount (JsText.ofNat n) = some n := by
  have all := isDigit_of_mem_digits n
  rw [parseCount, ofNat_eq_digits]
  cases shape : digits n with
  | nil => exact absurd shape (digits_ne_nil n)
  | cons u rest =>
    have digit : isDigit u = true := all u (shape ▸ mem_cons_self)
    have front : (u :: rest).dropWhile isSpace = u :: rest := by
      rw [dropWhile_cons_of_neg]
      rw [isSpace_digit digit]
      exact Bool.false_ne_true
    have unsigned : (u :: rest).head? ≠ some 0x2B := by
      intro plus
      rw [Option.some.inj plus] at digit
      exact absurd digit (by decide)
    have whole : (u :: rest).takeWhile isDigit = u :: rest := by
      rw [← shape]
      exact takeWhile_eq_self_iff.mpr all
    simp only [front, if_neg unsigned, whole, cons_ne_nil, if_false]
    rw [← shape, valueOf_digits]

theorem isoText_ne_nil (t : Nat) : isoText t ≠ [] := by
  intro none_
  have last := (append_eq_nil_iff.mp none_).2
  exact absurd last (by decide)

/-- A text that may be missing, as a lesson shows it. -/
def orUnknown (t : Text) : Text := if t = [] then js "unknown" else t

theorem tagTail_nil (used : Nat) : tagTail used [] = [] := by
  simp [tagTail, dropDashes, dashRuns]

theorem tagValue_project (missing : moment.project = []) :
    tagValue (tagsFor moment) (js "project:") = none := by
  rw [tagValue, find?_tagsFor fun tag => isReserved_of_begins (by decide)]
  have found : (sanitizedBase moment).find? (fun tag => (js "project:").isPrefixOf tag) =
      some (js "project:") := by
    rw [sanitizedBase, missing, tagOf, tagTail_nil, append_nil]
    rfl
  rw [found]
  rfl

theorem tagValue_host (missing : moment.host = []) :
    tagValue (tagsFor moment) (js "host:") = none := by
  rw [tagValue, find?_tagsFor fun tag => isReserved_of_begins (by decide)]
  have found : (sanitizedBase moment).find? (fun tag => (js "host:").isPrefixOf tag) =
      some (js "host:") := by
    rw [sanitizedBase, missing]
    simp only [tagOf, tagTail_nil, append_nil]
    rfl
  rw [found]
  rfl

theorem orElse_unknown {b : Option Text} (alone : t = [] → b = none) :
    (orElse (some t) b).getD (js "unknown") = orUnknown t := by
  by_cases missing : t = []
  · rw [missing, orElse_nil, alone missing, orUnknown, if_pos rfl]
    rfl
  · rw [orElse_some missing, orUnknown, if_neg missing]
    rfl

/-- A document that stands for a lesson. -/
structure Readable (moment : TeachableMoment) : Prop where
  id : isMomentId moment.id = true
  current : moment.status ≠ .superseded
  named : trim moment.name ≠ []

/-- What is read from the document of a moment. -/
def lessonOfDocument (moment : TeachableMoment) : RecalledLesson :=
  { id := moment.id
    name := trim moment.name
    description := (parseContent (contentFor moment)).description
    body := (parseContent (contentFor moment)).body
    kind := moment.kind
    project := orUnknown moment.project
    host := orUnknown moment.host
    occurrences := if 1 ≤ moment.occurrences then moment.occurrences else 1
    createdAt := isoText moment.createdAt
    source := .hindsight }

section Fields

variable (moment : TeachableMoment)

theorem field_id : field (metadataFor moment) (js "tm_id") = some moment.id := rfl

theorem field_name : field (metadataFor moment) (js "name") = some moment.name := rfl

theorem field_kind : field (metadataFor moment) (js "kind") = some moment.kind.text := rfl

theorem field_status : field (metadataFor moment) (js "status") = some moment.status.text := rfl

theorem field_project : field (metadataFor moment) (js "project") = some moment.project := rfl

theorem field_host : field (metadataFor moment) (js "host") = some moment.host := rfl

theorem field_occurrences :
    field (metadataFor moment) (js "occurrences") = some (JsText.ofNat moment.occurrences) := rfl

theorem field_createdAt :
    field (metadataFor moment) (js "created_at") = some (isoText moment.createdAt) := rfl

end Fields

theorem status_text {status : MomentStatus} : status.text = js "superseded" ↔ status = .superseded := by
  cases status <;> decide

theorem name_read (moment : TeachableMoment) :
    trim ((orElse (some moment.name) (parseContent (contentFor moment)).name).getD []) =
      trim moment.name := by
  by_cases nameless : moment.name = []
  · rw [nameless, orElse_nil, parseContent_nameless nameless]
  · rw [orElse_some nameless]
    rfl

theorem lessonFromHit_hitOf (readable : Readable moment) (mentionedAt : Option Text) :
    lessonFromHit (hitOf moment mentionedAt) = some (lessonOfDocument moment) := by
  have idSome : moment.id ≠ [] := by
    intro none_
    have id := readable.id
    rw [none_] at id
    exact absurd id (by decide)
  have current : ¬(js "status:superseded" ∈ tagsFor moment ∨
      some moment.status.text = some (js "superseded")) := by
    rw [superseded_mem, Option.some.injEq, status_text, or_self]
    exact readable.current
  unfold lessonFromHit
  simp only [hitOf, field_id, field_name, field_kind, field_status, field_project, field_host,
    field_occurrences, field_createdAt, orElse_some idSome, name_read, orElse_some (isoText_ne_nil _),
    Option.bind_some, kindOf_text, parseCount_ofNat, Option.some_or, Option.getD_some]
  rw [if_neg (by rw [readable.id]; decide), if_neg current, if_neg readable.named,
    orElse_unknown tagValue_project, orElse_unknown tagValue_host]
  rfl

theorem readable_of_lesson (read : lessonFromHit (hitOf moment mentionedAt) = some lesson) :
    Readable moment := by
  unfold lessonFromHit at read
  simp only [hitOf, field_id, field_name, field_status, name_read] at read
  split at read
  · cases read
  · next id found =>
    have own : isMomentId id = true → id = moment.id := by
      intro valid
      by_cases none_ : moment.id = []
      · rw [none_, orElse_nil] at found
        obtain rfl : [] = id := Option.some.inj found
        exact absurd valid (by decide)
      · rw [orElse_some none_] at found
        exact (Option.some.inj found).symm
    split at read
    · cases read
    · next valid =>
      have valid := (Bool.not_eq_false _).mp valid
      split at read
      · cases read
      · next current =>
        split at read
        · cases read
        · next named =>
          refine ⟨own valid ▸ valid, ?_, named⟩
          intro superseded
          exact current (.inl ((superseded_mem moment).mpr superseded))

theorem lesson_eq (read : lessonFromHit (hitOf moment mentionedAt) = some lesson) :
    lesson = lessonOfDocument moment :=
  (Option.some.inj ((lessonFromHit_hitOf (readable_of_lesson read) mentionedAt).symm.trans read)).symm

end Ultrathink.Guarantees.LessonReading
