import Ultrathink.Guarantees.LessonReading
import Ultrathink.Source.Teach.Moments

/-!
# Lesson documents read back

The document of a stored moment is split at the places where it was joined: the name and the
description are single lines, the body is not empty, none of them begins or ends with white space
and together they stay below the cap. A capture that was refused may have none of that.
-/

namespace Ultrathink.Guarantees.LessonDocuments

open List Library JsText Search Regex Replace Source.Teach MomentTags LessonReading

/-- Something in a text is not white space. -/
def Solid (t : Text) : Prop := ∃ u ∈ t, isSpace u = false

section Solid

variable {s t : Text}

theorem Solid.left (solid : Solid s) (t : Text) : Solid (s ++ t) := by
  obtain ⟨u, mem, seen⟩ := solid
  exact ⟨u, mem_append_left _ mem, seen⟩

theorem Solid.right (solid : Solid t) (s : Text) : Solid (s ++ t) := by
  obtain ⟨u, mem, seen⟩ := solid
  exact ⟨u, mem_append_right _ mem, seen⟩

theorem solid_redacted : Solid REDACTED := ⟨0x5B, by decide, by decide⟩

theorem solid_iff : Solid t ↔ trim t ≠ [] := by
  obtain ⟨lead, trail, split, leadBlank, trailBlank⟩ := trim_decompose t
  constructor
  · rintro ⟨u, mem, seen⟩ none_
    rw [split, none_, append_nil, mem_append] at mem
    rcases mem with inLead | inTrail
    · rw [leadBlank u inLead] at seen
      exact Bool.noConfusion seen
    · rw [trailBlank u inTrail] at seen
      exact Bool.noConfusion seen
  · intro some_
    obtain ⟨u, rest, shape⟩ := exists_cons_of_ne_nil some_
    refine ⟨u, ?_, (trim_ends t).1 u (by rw [shape]; rfl)⟩
    rw [split, shape]
    simp

theorem solid_substitute {e : Expr} {by_ : Match → Text}
    (keeps : ∀ m : Match, Solid m.matched → Solid (by_ m)) (solid : Solid t) :
    Solid (substitute e by_ t) :=
  exists_replaceAll (advancing_results e) keeps solid

theorem solid_redactBearer (m : Match) (solid : Solid m.matched) : Solid (redactBearer m) := by
  unfold redactBearer
  dsimp only
  split
  · exact solid
  · exact solid_redacted.left _

theorem solid_redactAssignment (m : Match) (solid : Solid m.matched) : Solid (redactAssignment m) := by
  unfold redactAssignment
  dsimp only
  split
  · exact solid
  · split
    · exact solid
    · split
      · exact (solid_redacted.right _).left _
      · split
        · exact (solid_redacted.right _).left _
        · split
          · exact solid
          · exact solid_redacted.right _

theorem solid_redactPath (base : Text) (exempt : Option Text) (m : Match) (solid : Solid m.matched) :
    Solid (redactPath base exempt m) := by
  have tilde : Solid (js "~") := ⟨0x7E, by decide, by decide⟩
  have folder : Solid (js "~/") := ⟨0x7E, by decide, by decide⟩
  have home (shown : Text) : Solid (if shown ≠ [] then js "~/" ++ shown else js "~") := by
    split
    · exact folder.left _
    · exact tilde
  unfold redactPath
  dsimp only
  split
  · exact solid
  · exact (home _).left _

theorem advancing_pathMatcher (base : Text) : Advancing (pathMatcher base) :=
  ((advancing_results _).notBefore _).notAfter _

theorem solid_redactPaths (home : Text) (repoRoot : Option Text) (solid : Solid t) :
    Solid (redactPaths t home repoRoot) := by
  unfold redactPaths
  dsimp only
  split
  · exact solid
  · exact exists_replaceAll (advancing_pathMatcher _) (solid_redactPath _ _) solid

theorem solid_tokens (patterns : List Expr) (solid : Solid t) :
    Solid (patterns.foldl (fun out pattern => substitute pattern (fun _ => REDACTED) out) t) := by
  induction patterns generalizing t with
  | nil => exact solid
  | cons e rest ih => exact ih (solid_substitute (fun _ _ => solid_redacted) solid)

theorem solid_redactText (options : RedactOptions) (solid : Solid t) : Solid (redactText t options) := by
  have some_ : t ≠ [] := by
    rintro rfl
    obtain ⟨u, mem, -⟩ := solid
    cases mem
  have all : Solid (substitute ASSIGNMENT redactAssignment (TOKEN_PATTERNS.foldl
      (fun out pattern => substitute pattern (fun _ => REDACTED) out)
      (substitute JWT (fun _ => REDACTED) (substitute BEARER redactBearer
        (substitute AUTH_HEADER (fun m => groupText m 1 ++ REDACTED)
          (substitute COOKIE_HEADER (fun m => groupText m 1 ++ REDACTED)
            (substitute URL_USERINFO (fun m => groupText m 1 ++ REDACTED ++ js "@")
              (substitute PEM_OPEN (fun _ => REDACTED)
                (substitute PEM_BLOCK (fun _ => REDACTED) t))))))))) := by
    apply solid_substitute solid_redactAssignment
    apply solid_tokens
    apply solid_substitute fun _ _ => solid_redacted
    apply solid_substitute solid_redactBearer
    apply solid_substitute fun _ _ => solid_redacted.right _
    apply solid_substitute fun _ _ => solid_redacted.right _
    apply solid_substitute fun _ _ => (solid_redacted.right _).left _
    apply solid_substitute fun _ _ => solid_redacted
    exact solid_substitute (fun _ _ => solid_redacted) solid
  unfold redactText
  rw [if_neg some_]
  dsimp only
  split
  · split
    · exact all
    · exact solid_redactPaths _ _ all
  · exact all

end Solid

def Trimmed (t : Text) : Prop := trim t = t

theorem getLast?_trimEnd (t : Text) : ∀ u ∈ (trimEnd t).getLast?, isSpace u = false := by
  intro u last
  have some_ : trimEnd t ≠ [] := by
    intro none_
    rw [none_] at last
    cases last
  rw [getLast?_eq_getLast_of_ne_nil some_] at last
  rw [← Option.some.inj last]
  exact Bool.eq_false_iff.mpr (rdropWhile_last_not isSpace t some_)

theorem trimEnd_cons {u : UInt16} (seen : isSpace u = false) (t : Text) :
    trimEnd (u :: t) = u :: trimEnd t :=
  rdropWhile_append (s := [u]) (by simp [seen]) t

variable {t : Text} {max : Nat} {moment : TeachableMoment}

theorem cut_trimmed (t : Text) (room : 0 < max) :
    Trimmed (trimEnd ((trim t).take max)) ∧ (trim t ≠ [] → trimEnd ((trim t).take max) ≠ []) ∧
      (trimEnd ((trim t).take max)).length ≤ max ∧ ∀ u ∈ trimEnd ((trim t).take max), u ∈ t := by
  have start := (trim_ends t).1
  obtain ⟨k, rfl⟩ : ∃ k, max = k + 1 := ⟨max - 1, by omega⟩
  have front : ∀ u ∈ (trimEnd ((trim t).take (k + 1))).head?, isSpace u = false := by
    cases shape : trim t with
    | nil => intro u first; cases first
    | cons u rest =>
      rw [shape] at start
      rw [take_succ_cons, trimEnd_cons (start u rfl)]
      intro v first
      rw [← Option.some.inj first]
      exact start u rfl
  refine ⟨trim_eq_self front (getLast?_trimEnd _), ?_, ?_, ?_⟩
  · intro some_
    obtain ⟨u, rest, shape⟩ := exists_cons_of_ne_nil some_
    rw [shape] at start ⊢
    rw [take_succ_cons, trimEnd_cons (start u rfl)]
    exact cons_ne_nil _ _
  · exact ((List.rdropWhile_prefix ..).length_le).trans (length_take_le _ _)
  · intro u mem
    have kept := mem_of_mem_take ((List.rdropWhile_prefix ..).subset mem)
    obtain ⟨lead, trail, split, -, -⟩ := trim_decompose t
    rw [split]
    exact mem_append_left _ (mem_append_right _ kept)

theorem mem_blankRuns {inside : Bool} {u : UInt16} (mem : u ∈ blankRuns isSpace inside t) :
    isSpace u = false ∨ u = 0x20 := by
  induction t generalizing inside with
  | nil => cases mem
  | cons v rest ih =>
    unfold blankRuns at mem
    split at mem
    · split at mem
      · exact ih mem
      · rcases mem_cons.mp mem with rfl | later
        · exact .inr rfl
        · exact ih later
    · next seen =>
      rcases mem_cons.mp mem with rfl | later
      · exact .inl (Bool.not_eq_true _ ▸ seen)
      · exact ih later

theorem solid_blankRuns {inside : Bool} (solid : Solid t) :
    Solid (blankRuns isSpace inside t) := by
  induction t generalizing inside with
  | nil => exact solid
  | cons v rest ih =>
    obtain ⟨u, mem, seen⟩ := solid
    have later {inside : Bool} (blank : isSpace v = true) : Solid (blankRuns isSpace inside rest) := by
      rcases mem_cons.mp mem with rfl | rest
      · rw [blank] at seen
        exact Bool.noConfusion seen
      · exact ih ⟨u, rest, seen⟩
    unfold blankRuns
    split
    · next blank =>
      split
      · exact later blank
      · have solid : Solid (blankRuns isSpace true rest) := later blank
        obtain ⟨w, kept, solid⟩ := solid
        exact ⟨w, mem_cons_of_mem _ kept, solid⟩
    · next shown => exact ⟨v, mem_cons_self, Bool.not_eq_true _ ▸ shown⟩

structure IsLine (t : Text) (max : Nat) : Prop where
  trimmed : Trimmed t
  plain : ∀ u ∈ t, isSpace u = false ∨ u = 0x20
  short : t.length ≤ max

theorem isLine_oneLine (text : Text) (room : 0 < max) : IsLine (oneLine text max) max := by
  obtain ⟨trimmed, -, short, within⟩ := cut_trimmed (blankRuns isSpace false text) room
  exact ⟨trimmed, fun u mem => mem_blankRuns (within u mem), short⟩

theorem oneLine_ne_nil {text : Text} (room : 0 < max) (solid : Solid text) :
    oneLine text max ≠ [] :=
  (cut_trimmed (blankRuns isSpace false text) room).2.1 (solid_iff.mp (solid_blankRuns solid))

theorem carriage_plainLineEnds (t : Text) : (0x0D : UInt16) ∉ plainLineEnds t := by
  fun_induction plainLineEnds t with
  | case1 => exact not_mem_nil
  | case2 => decide
  | case3 u other => simpa using fun same : (0x0D : UInt16) = u => other same.symm
  | case4 rest ih => simpa [newline] using ih
  | case5 v rest other ih => simpa [newline] using ih
  | case6 u v rest other ih =>
    rw [mem_cons, not_or]
    exact ⟨fun same => other same.symm, ih⟩

theorem solid_plainLineEnds (solid : Solid t) : Solid (plainLineEnds t) := by
  obtain ⟨w, mem, seen⟩ := solid
  refine ⟨w, ?_, seen⟩
  have carriage : w ≠ 0x0D := by
    rintro rfl
    exact absurd seen (by decide)
  have lineEnd : w ≠ newline := by
    rintro rfl
    exact absurd seen (by decide)
  fun_induction plainLineEnds t with
  | case1 => exact mem
  | case2 => exact absurd (mem_singleton.mp mem) carriage
  | case3 u other => exact mem
  | case4 rest ih =>
    rw [mem_cons, mem_cons] at mem
    exact mem_cons_of_mem _ (ih ((mem.resolve_left carriage).resolve_left lineEnd))
  | case5 v rest other ih =>
    exact mem_cons_of_mem _ (ih ((mem_cons.mp mem).resolve_left carriage))
  | case6 u v rest other ih =>
    rcases mem_cons.mp mem with rfl | later
    · exact mem_cons_self
    · exact mem_cons_of_mem _ (ih later)

structure Kept (moment : TeachableMoment) : Prop where
  id : isMomentId moment.id = true
  name : IsLine moment.name MAX_NAME_CHARS
  named : moment.name ≠ []
  description : IsLine moment.description MAX_DESCRIPTION_CHARS
  body : Trimmed moment.body
  bodied : moment.body ≠ []
  bodyPlain : (0x0D : UInt16) ∉ moment.body
  bodyShort : moment.body.length ≤ MAX_BODY_CHARS
  project : moment.project ≠ []
  counted : 1 ≤ moment.occurrences

/-- The text that `randomUUID` draws: hexadecimal digits and dashes, 36 in all. -/
def IsUuid (id : Text) : Prop := id.length = 36 ∧ ∀ u ∈ id, Sha256.isHexDigit u = true ∨ u = dash

/-- The moments that captures store: built by the strict form, merged, or written again with what the
store, the server or a promotion notes in them. -/
inductive Stored : TeachableMoment → Prop
  | built {input : CaptureInput} {ctx : CaptureContext} {moment : TeachableMoment}
    (drawn : IsUuid ctx.id) (done : buildMoment input ctx true = .ok moment) : Stored moment
  | merged {old fresh : TeachableMoment} (oldStored : Stored old) (freshStored : Stored fresh) :
    Stored (mergeMoments old fresh)
  | noted {moment : TeachableMoment} (stored : Stored moment) (status : MomentStatus) (recalled : Nat)
    (retained : Option Retained) :
    Stored { moment with status := status, recalled := recalled, retained := retained }

theorem isMomentId_uuid {id : Text} (drawn : IsUuid id) : isMomentId id = true := by
  obtain ⟨length, digits⟩ := drawn
  have some_ : id ≠ [] := by
    rintro rfl
    exact absurd length (by decide)
  have units : ∀ u ∈ id, (isWord u || u = 0x2E || u = dash) = true := by
    intro u mem
    rcases digits u mem with hex | rfl
    · have low : isWord u = true := by
        unfold Sha256.isHexDigit at hex
        unfold isWord isLowerLetter
        rcases Bool.or_eq_true_iff.mp hex with digit | letter
        · simp [digit]
        · rw [Bool.and_eq_true, decide_eq_true_eq, decide_eq_true_eq] at letter
          have high : u ≤ 0x7A := UInt16.le_trans letter.2 (by decide : (0x66 : UInt16) ≤ 0x7A)
          simp [letter.1, high]
      simp [low]
    · decide
  rw [isMomentId, decide_eq_true some_, length, all_eq_true.mpr units]
  rfl

theorem kept_built {input : CaptureInput} {ctx : CaptureContext} (drawn : IsUuid ctx.id)
    (done : buildMoment input ctx true = .ok moment) : Kept moment := by
  unfold buildMoment at done
  rw [if_pos rfl] at done
  split at done
  · cases done
  · next fine =>
    obtain rfl := Except.ok.inj done
    have given : Solid (textOr input.name) ∧ Solid (textOr input.body) := by
      unfold inputError at fine
      split at fine
      · cases fine
      · next nameGiven =>
        split at fine
        · cases fine
        · next bodyGiven => exact ⟨solid_iff.mpr nameGiven, solid_iff.mpr bodyGiven⟩
    have body := solid_plainLineEnds (solid_redactText (redactOptions ctx) given.2)
    obtain ⟨trimmed, some_, short, within⟩ := cut_trimmed
      (plainLineEnds (redactText (textOr input.body) (redactOptions ctx)))
      (by decide : 0 < MAX_BODY_CHARS)
    exact
      { id := isMomentId_uuid drawn
        name := isLine_oneLine _ (by decide)
        named := oneLine_ne_nil (by decide) (solid_redactText _ given.1)
        description := isLine_oneLine _ (by decide)
        body := trimmed
        bodied := some_ (solid_iff.mp body)
        bodyPlain := fun mem => carriage_plainLineEnds _ (within _ mem)
        bodyShort := short
        project := by
          change projectOf ctx ≠ []
          unfold projectOf
          dsimp only
          split
          · decide
          · assumption
        counted := Nat.le_refl 1 }

theorem kept_merged {old fresh : TeachableMoment} (keptOld : Kept old) (keptFresh : Kept fresh) :
    Kept (mergeMoments old fresh) := by
  have body : (mergeMoments old fresh).body = old.body ∨ (mergeMoments old fresh).body = fresh.body := by
    unfold mergeMoments
    dsimp only
    split
    · exact .inr rfl
    · exact .inl rfl
  have description : (mergeMoments old fresh).description = old.description ∨
      (mergeMoments old fresh).description = fresh.description := by
    unfold mergeMoments
    dsimp only
    split
    · exact .inr rfl
    · exact .inl rfl
  exact
    { id := keptOld.id
      name := keptOld.name
      named := keptOld.named
      description := by
        rcases description with same | same
        · rw [same]; exact keptOld.description
        · rw [same]; exact keptFresh.description
      body := by
        rcases body with same | same
        · rw [same]; exact keptOld.body
        · rw [same]; exact keptFresh.body
      bodied := by
        rcases body with same | same
        · rw [same]; exact keptOld.bodied
        · rw [same]; exact keptFresh.bodied
      bodyPlain := by
        rcases body with same | same
        · rw [same]; exact keptOld.bodyPlain
        · rw [same]; exact keptFresh.bodyPlain
      bodyShort := by
        rcases body with same | same
        · rw [same]; exact keptOld.bodyShort
        · rw [same]; exact keptFresh.bodyShort
      project := keptOld.project
      counted := Nat.le_add_left 1 _ }

theorem kept_of_stored (stored : Stored moment) : Kept moment := by
  induction stored with
  | built drawn done => exact kept_built drawn done
  | merged _ _ keptOld keptFresh => exact kept_merged keptOld keptFresh
  | noted _ status recalled retained kept =>
    exact ⟨kept.id, kept.name, kept.named, kept.description, kept.body, kept.bodied, kept.bodyPlain,
      kept.bodyShort, kept.project, kept.counted⟩

section Parsing

variable {name description body : Text}

theorem joinLineEnds_plain (plain : (0x0D : UInt16) ∉ t) : joinLineEnds t = t := by
  induction t with
  | nil => rfl
  | cons u rest ih =>
    rw [mem_cons, not_or] at plain
    rw [joinLineEnds_cons (fun same => plain.1 same.symm), ih plain.2]

theorem no_newline (line : IsLine t max) : ∀ u ∈ t, u ≠ newline := by
  rintro u mem rfl
  rcases line.plain _ mem with seen | same
  · exact absurd seen (by decide)
  · exact absurd same (by decide)

theorem no_carriage (line : IsLine t max) : (0x0D : UInt16) ∉ t := by
  intro mem
  rcases line.plain _ mem with seen | same
  · exact absurd seen (by decide)
  · exact absurd same (by decide)

theorem indexOf_blankLine (line : ∀ u ∈ description, u ≠ newline) (rest : Text) :
    indexOf (js "\n\n") (description ++ newline :: newline :: rest) = some description.length := by
  induction description with
  | nil =>
    rw [nil_append, indexOf]
    exact if_pos rfl
  | cons u more ih =>
    have other : u ≠ newline := line u mem_cons_self
    have here : (js "\n\n").isPrefixOf (u :: (more ++ newline :: newline :: rest)) = false := by
      rw [show js "\n\n" = [newline, newline] from rfl, List.isPrefixOf, beq_eq_false_iff_ne.mpr other.symm,
        Bool.false_and]
    rw [cons_append, indexOf, here, if_neg Bool.false_ne_true,
      ih fun v mem => line v (mem_cons_of_mem _ mem)]
    rfl

theorem parse_document (nameLine : IsLine name MAX_NAME_CHARS)
    (descriptionLine : IsLine description MAX_DESCRIPTION_CHARS) (trimmed : Trimmed body)
    (bodied : body ≠ []) (plain : (0x0D : UInt16) ∉ body) :
    parseContent (js "# " ++ name ++ js "\n\n" ++ description ++ js "\n\n" ++ body) =
      ⟨some name, description, body⟩ := by
  have shape : js "# " ++ name ++ js "\n\n" ++ description ++ js "\n\n" ++ body =
      0x23 :: 0x20 :: (name ++ newline :: newline :: (description ++ newline :: newline :: body)) := by
    simp
    rfl
  have joined : joinLineEnds (js "# " ++ name ++ js "\n\n" ++ description ++ js "\n\n" ++ body) =
      0x23 :: 0x20 :: (name ++ newline :: newline :: (description ++ newline :: newline :: body)) := by
    rw [shape]
    apply joinLineEnds_plain
    simp [no_carriage nameLine, no_carriage descriptionLine, plain, newline]
  have solid : trim (0x23 :: 0x20 :: (name ++ newline :: newline :: (description ++ newline :: newline :: body))) =
      0x23 :: 0x20 :: (name ++ newline :: newline :: (description ++ newline :: newline :: body)) := by
    apply trim_eq_self
    · intro u first
      rw [← Option.some.inj first]
      decide
    · intro u last
      have ends : u ∈ body.getLast? := by
        rw [getLast?_eq_some_getLast bodied]
        have whole : (0x23 :: 0x20 :: (name ++ newline :: newline ::
            (description ++ newline :: newline :: body))).getLast? = some (body.getLast bodied) := by
          rw [show (0x23 :: 0x20 :: (name ++ newline :: newline :: (description ++ newline :: newline :: body))) =
            (0x23 :: 0x20 :: (name ++ newline :: newline :: (description ++ [newline, newline]))) ++ body by simp,
            getLast?_append_of_ne_nil _ bodied, getLast?_eq_some_getLast bodied]
        rw [whole] at last
        exact last
      rw [← trimmed] at ends
      exact (trim_ends body).2 u ends
  have header : (name ++ newline :: newline :: (description ++ newline :: newline :: body)).takeWhile
      (fun u => decide (u ≠ newline)) = name := by
    rw [takeWhile_append_of_pos fun u mem => decide_eq_true (no_newline nameLine u mem)]
    simp
  have rest : (name ++ newline :: newline :: (description ++ newline :: newline :: body)).dropWhile
      (fun u => decide (u ≠ newline)) = newline :: newline :: (description ++ newline :: newline :: body) := by
    rw [dropWhile_append_of_pos fun u mem => decide_eq_true (no_newline nameLine u mem)]
    simp
  have begins : (js "# ").isPrefixOf (0x23 :: 0x20 :: (name ++ newline :: newline ::
      (description ++ newline :: newline :: body))) = true := rfl
  unfold parseContent
  simp only [joined, solid]
  rw [if_pos begins]
  simp only [drop_succ_cons, drop_zero, header, rest, dropHeaderEnd, and_self, if_true,
    indexOf_blankLine (no_newline descriptionLine), take_left']
  have tail : (description ++ newline :: newline :: body).drop (description.length + 2) = body := by
    rw [← drop_drop, drop_left]
    rfl
  have trimmedName : trim name = name := nameLine.trimmed
  have trimmedDescription : trim description = description := descriptionLine.trimmed
  have trimmedBody : trim body = body := trimmed
  rw [tail, trimmedName, trimmedDescription, trimmedBody]

end Parsing

theorem contentFor_kept (kept : Kept moment) :
    contentFor moment = js "# " ++ moment.name ++ js "\n\n" ++ moment.description ++ js "\n\n" ++
      moment.body := by
  have name := kept.name.short
  have description := kept.description.short
  have body := kept.bodyShort
  unfold contentFor
  refine if_pos ?_
  simp only [length_append, show (js "# ").length = 2 from rfl, show (js "\n\n").length = 2 from rfl]
  simp only [MAX_NAME_CHARS, MAX_DESCRIPTION_CHARS, MAX_BODY_CHARS, maxContentChars] at *
  omega

theorem readable_kept (kept : Kept moment) (current : moment.status ≠ .superseded) :
    Readable moment := by
  refine ⟨kept.id, current, ?_⟩
  have trimmed : trim moment.name = moment.name := kept.name.trimmed
  rw [trimmed]
  exact kept.named

/-- The lesson that a document should be read as. -/
def lessonOf (moment : TeachableMoment) : RecalledLesson :=
  { id := moment.id
    name := moment.name
    description := moment.description
    body := moment.body
    kind := moment.kind
    project := moment.project
    host := if moment.host = [] then js "unknown" else moment.host
    occurrences := moment.occurrences
    createdAt := isoText moment.createdAt
    source := .hindsight }

/-- The document of a stored moment is read back as its lesson, that of a superseded one as nothing,
and the moment's own tags change nothing that is read from the tags, whatever stands beside them. -/
theorem document_reads_back {moment : TeachableMoment} (stored : Stored moment) :
    (∀ mentionedAt, lessonFromHit (hitOf moment mentionedAt) =
      if moment.status = .superseded then none else some (lessonOf moment)) ∧
    (∀ (own : List Text) (hit : RecallHit),
      lessonFromHit { hit with tags := tagsFor { moment with tags := own } } =
        lessonFromHit { hit with tags := tagsFor moment }) := by
  have kept := kept_of_stored stored
  refine ⟨?_, fun own hit => lessonFromHit_own moment own hit⟩
  intro mentionedAt
  split
  · next superseded =>
    rw [Option.eq_none_iff_forall_ne_some]
    intro lesson read
    exact (readable_of_lesson read).current superseded
  · next current =>
    have trimmed : trim moment.name = moment.name := kept.name.trimmed
    rw [lessonFromHit_hitOf (readable_kept kept current), lessonOfDocument, contentFor_kept kept,
      parse_document kept.name kept.description kept.body kept.bodied kept.bodyPlain, trimmed,
      orUnknown, if_neg kept.project, if_pos kept.counted]
    rfl

def noteInput : CaptureInput :=
  ⟨some (.str (js "Pin the port")), none, some (.str (js "Port 0 asks the system.")), none, none, none, none,
    none, none, none, none, none⟩

def noteId : Text := js "0b8e1d7e-4c5a-4d0b-9f3a-1c2d3e4f5a6b"

def noteContext (host : Text) : CaptureContext :=
  ⟨⟨id, fun _ => true⟩, host, js "/work/app", none, none, 0, noteId⟩

theorem note_drawn (host : Text) : IsUuid (noteContext host).id :=
  (⟨by decide, forall_units _ (by decide)⟩ : IsUuid noteId)

theorem note_built (host : Text) :
    buildMoment noteInput (noteContext host) true = .ok (momentFrom noteInput (noteContext host)) := by
  have fine : inputError noteInput = none := by decide
  rw [buildMoment, if_pos rfl, fine]

theorem note_reads_back :
    lessonFromHit (hitOf (momentFrom noteInput (noteContext (js "omp"))) none) =
      some (lessonOf (momentFrom noteInput (noteContext (js "omp")))) :=
  (document_reads_back (.built (note_drawn _) (note_built _))).1 none

/-- The lenient form may leave no name to read, and an empty host is read as unknown. -/
theorem lenient_or_hostless :
    (∃ input ctx moment, IsUuid ctx.id ∧ buildMoment input ctx false = .ok moment ∧
      moment.status ≠ .superseded ∧ lessonFromHit (hitOf moment none) = none) ∧
    ∃ input ctx moment lesson, IsUuid ctx.id ∧ buildMoment input ctx true = .ok moment ∧
      moment.status ≠ .superseded ∧ lessonFromHit (hitOf moment none) = some lesson ∧
        lesson.host ≠ moment.host := by
  constructor
  · refine ⟨⟨none, none, none, none, none, none, none, none, none, none, none, none⟩, noteContext (js "omp"),
      _, note_drawn _, rfl, by decide, ?_⟩
    rw [Option.eq_none_iff_forall_ne_some]
    intro lesson read
    exact absurd (readable_of_lesson read).named (by decide)
  · have kept := kept_built (note_drawn []) (note_built [])
    have current : (momentFrom noteInput (noteContext [])).status ≠ .superseded := by decide
    refine ⟨noteInput, noteContext [], _, _, note_drawn [], note_built [], current,
      lessonFromHit_hitOf (readable_kept kept current) none, ?_⟩
    change orUnknown [] ≠ []
    decide

end Ultrathink.Guarantees.LessonDocuments
