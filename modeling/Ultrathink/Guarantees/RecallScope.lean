import Ultrathink.Guarantees.LessonReading
import Ultrathink.Source.Teach.Recall

/-!
# Recall stays in its project

The local store is filtered by the project's name, Hindsight by the tag that `sanitizeTag` makes of
it, and a hit is not checked again. So recall stays in its project exactly when no document that can
be read has another project's name under the same tag.
-/

namespace Ultrathink.Guarantees.RecallScope

open List Library JsText Source.Teach Source.Teach.Recall MomentTags LessonReading

/-- A reply holds documents of moments, each with every tag that was asked for. -/
def Serves (docs : List TeachableMoment) (reply : List Text → Reply) : Prop :=
  ∀ tags hits, reply tags = .hits hits → ∀ hit ∈ hits, ∃ moment ∈ docs, ∃ mentionedAt,
    hit = hitOf moment mentionedAt ∧ ∀ tag ∈ tags, tag ∈ hit.tags

def LessonOf (moment : TeachableMoment) (lesson : RecalledLesson) : Prop :=
  lesson = localLesson moment ∨ ∃ mentionedAt, lessonFromHit (hitOf moment mentionedAt) = some lesson

def storedMoments (store : Option TeachStore) : List TeachableMoment :=
  (store.map TeachStore.list).getD []

/-- Every lesson of every recall for the project is a lesson of a moment of it. -/
def StaysIn (docs : List TeachableMoment) (store : Option TeachStore) (project : Text) : Prop :=
  ∀ h request ctx reply, ctx.store = store → projectFor request ctx = project → Serves docs reply →
    ∀ lesson ∈ (recallLessons h request ctx reply).lessons,
      ∃ moment ∈ storedMoments store ++ docs, LessonOf moment lesson ∧ moment.project = project

/-- Under the tag of the project there is nothing to read but the project. -/
def Separated (docs : List TeachableMoment) (store : Option TeachStore) (project : Text) : Prop :=
  ∀ moment ∈ docs, Readable moment → moment.id ∉ hidden store →
    sanitizeTag (js "project:" ++ moment.project) = sanitizeTag (js "project:" ++ project) →
    moment.project = project

theorem sanitizeTag_project (t : Text) : sanitizeTag (js "project:" ++ t) = tagOf (js "project:") t :=
  sanitizeTag_namespace (isNamespace_reserved (by decide)) t

section Origin

variable {h : Host} {request : RecallRequest} {ctx : Context} {reply : List Text → Reply}
  {lesson : RecalledLesson} {project query : Text} {limit : Nat}

theorem mem_recallLocal {store : TeachStore} (other : project ≠ ALL_PROJECTS)
    (mem : lesson ∈ recallLocal h store project query limit) :
    ∃ moment ∈ store.list, lesson = localLesson moment ∧ moment.project = project := by
  unfold recallLocal at mem
  split at mem
  · cases mem
  · obtain ⟨s, taken, rfl⟩ := mem_map.mp mem
    have listed := mem_mergeSort.mp (mem_of_mem_take taken)
    obtain ⟨moment, stored, score⟩ := mem_filterMap.mp listed
    split at score
    · cases score
    · split at score
      · cases score
      · next same =>
        have same : moment.project = project := by
          by_contra apart
          exact same ⟨other, apart⟩
        dsimp only at score
        split at score
        · obtain rfl := Option.some.inj score
          exact ⟨moment, stored, rfl, same⟩
        · cases score

theorem mem_lessonsOf {hiddenIds seen : List Text} {hits : List RecallHit}
    (mem : lesson ∈ lessonsOf hiddenIds seen hits) :
    lesson.id ∉ hiddenIds ∧ ∃ hit ∈ hits, lessonFromHit hit = some lesson := by
  induction hits generalizing seen with
  | nil => cases mem
  | cons hit hits ih =>
    have later {seen : List Text} (mem : lesson ∈ lessonsOf hiddenIds seen hits) :
        lesson.id ∉ hiddenIds ∧ ∃ d ∈ hit :: hits, lessonFromHit d = some lesson := by
      obtain ⟨shown, d, within, read⟩ := ih mem
      exact ⟨shown, d, mem_cons_of_mem _ within, read⟩
    unfold lessonsOf at mem
    split at mem
    · exact later mem
    · next first read =>
      split at mem
      · exact later mem
      · next new =>
        rcases mem_cons.mp mem with rfl | rest
        · exact ⟨fun held => new (.inr held), hit, mem_cons_self, read⟩
        · exact later rest

theorem lessons_found (mem : lesson ∈ (recallLessons h request ctx reply).lessons) :
    lesson ∈ remoteLessons ctx.store (reply (tagsWanted (projectFor request ctx))) ∨
      ∃ store, ctx.store = some store ∧ lesson ∈ recallLocal h store (projectFor request ctx)
        ((trim request.query).take MAX_QUERY_CHARS) (limitFor request ctx) := by
  have found : lesson ∈ (findLessons h request ctx reply).lessons := by
    unfold recallLessons at mem
    split at mem
    · cases mem
    · split at mem
      · cases mem
      · split at mem
        · cases mem
        · split at mem
          · cases mem
          · dsimp only at mem
            split at mem
            · split at mem
              · cases mem
              · cases mem
            · split at mem
              · cases mem
              · exact mem
  unfold findLessons at found
  dsimp only at found
  split at found
  · exact .inl (mem_of_mem_take found)
  · split at found
    · refine .inr ?_
      cases store : ctx.store with
      | none =>
        rw [store] at found
        cases found
      | some s =>
        rw [store] at found
        exact ⟨s, rfl, found⟩
    · cases found

end Origin

theorem projectTag_wanted {project : Text} (other : project ≠ ALL_PROJECTS) :
    tagsWanted project = [js "ultrathink", js "teachable", tagOf (js "project:") project] := by
  rw [tagsWanted, if_neg other, sanitizeTag_project]
  rfl

theorem base_mem (moment : TeachableMoment) {tag : Text} (mem : tag ∈ sanitizedBase moment) :
    tag ∈ tagsFor moment := by
  rw [tagsFor_eq, mem_eraseDups]
  exact mem_append_left _ mem

/-- A document carries the tags that a project asks for exactly when its project has the same tag. -/
theorem carries_iff {project : Text} (other : project ≠ ALL_PROJECTS) (moment : TeachableMoment) :
    (∀ tag ∈ tagsWanted project, tag ∈ tagsFor moment) ↔
      tagOf (js "project:") moment.project = tagOf (js "project:") project := by
  rw [projectTag_wanted other, ← project_mem]
  constructor
  · intro all
    exact all _ (by simp)
  · intro carried tag mem
    simp only [mem_cons, not_mem_nil, or_false] at mem
    rcases mem with rfl | rfl | rfl
    · exact base_mem moment (by simp [sanitizedBase])
    · exact base_mem moment (by simp [sanitizedBase])
    · exact carried

def plainHost : Host := ⟨⟨id, fun _ => true⟩, fun score _ => score, none⟩

/-- A recall with room for whatever the first lesson takes. -/
def openRequest (lesson : RecalledLesson) : RecallRequest :=
  ⟨js "how", some 1, some (render [entryOf lesson]).length, none⟩

def openContext (store : Option TeachStore) (project : Text) : Context :=
  ⟨true, true, 1, 0, project, store, none⟩

theorem fitLessons_one (lesson : RecalledLesson) :
    (fitLessons [lesson] (render [entryOf lesson]).length).used = [lesson] := by
  unfold fitLessons
  simp [fitCount]

theorem recall_one {moment : TeachableMoment} {store : Option TeachStore} {project : Text}
    {reply : List Text → Reply} (readable : Readable moment) (shown : moment.id ∉ hidden store)
    (answered : reply (tagsWanted project) = .hits [hitOf moment none]) :
    (recallLessons plainHost (openRequest (lessonOfDocument moment)) (openContext store project)
      reply).lessons = [lessonOfDocument moment] := by
  have remote : remoteLessons store (reply (tagsWanted project)) = [lessonOfDocument moment] := by
    rw [answered, remoteLessons, lessonsOf, lessonFromHit_hitOf readable]
    exact if_neg fun held => held.elim (fun seen => by cases seen) shown
  generalize lesson_ : lessonOfDocument moment = lesson at remote ⊢
  have found : findLessons plainHost (openRequest lesson) (openContext store project) reply =
      ⟨[lesson], .hindsight, none⟩ := by
    have one : limitFor (openRequest lesson) (openContext store project) = 1 := rfl
    have own : projectFor (openRequest lesson) (openContext store project) = project := rfl
    unfold findLessons
    simp only [own, one, show (openContext store project).store = store from rfl, remote]
    rfl
  have asked : trim (openRequest lesson).query ≠ [] :=
    (by decide : trim (js "how") ≠ [])
  have room : (openRequest lesson).chars.getD (openContext store project).recallChars =
      ((render [entryOf lesson]).length : ℤ) := rfl
  have on : (openContext store project).enabled = true ∧ (openContext store project).recalls = true ∧
      (openContext store project).failure = none := ⟨rfl, rfl, rfl⟩
  unfold recallLessons
  simp only [on, asked, found, room, fitLessons_one, Bool.true_eq_false, cons_ne_nil, if_false]

theorem unknown_tagged {t : Text}
    (same : tagOf (js "project:") (js "unknown") = tagOf (js "project:") t) : t ≠ [] := by
  rintro rfl
  exact absurd same (by decide)

theorem project_of_shown {a b : Text} (same : tagOf (js "project:") a = tagOf (js "project:") b)
    (shown : orUnknown a = orUnknown b) : a = b := by
  unfold orUnknown at shown
  by_cases noneA : a = []
  · subst noneA
    by_cases noneB : b = []
    · exact noneB.symm
    · rw [if_pos rfl, if_neg noneB] at shown
      exact absurd rfl (unknown_tagged (shown ▸ same.symm))
  · by_cases noneB : b = []
    · subst noneB
      rw [if_neg noneA, if_pos rfl] at shown
      exact absurd rfl (unknown_tagged (shown ▸ same))
    · rwa [if_neg noneA, if_neg noneB] at shown

theorem leaks {docs : List TeachableMoment} {store : Option TeachStore} {project : Text}
    {moment : TeachableMoment} (other : project ≠ ALL_PROJECTS) (mem : moment ∈ docs)
    (readable : Readable moment) (shown : moment.id ∉ hidden store)
    (same : sanitizeTag (js "project:" ++ moment.project) = sanitizeTag (js "project:" ++ project))
    (apart : moment.project ≠ project) : ¬ StaysIn docs store project := by
  intro stays
  rw [sanitizeTag_project, sanitizeTag_project] at same
  have serves : Serves docs fun tags =>
      if tags = tagsWanted project then .hits [hitOf moment none] else .absent := by
    intro tags hits answer hit within
    dsimp only at answer
    split at answer
    · next asked =>
      obtain rfl := Reply.hits.inj answer
      obtain rfl := mem_singleton.mp within
      refine ⟨moment, mem, none, rfl, ?_⟩
      rw [asked, hitOf_tags]
      exact (carries_iff other moment).mpr same
    · cases answer
  have returned := @recall_one moment store project (fun tags =>
    if tags = tagsWanted project then .hits [hitOf moment none] else .absent) readable shown (if_pos rfl)
  obtain ⟨source, -, from_, own⟩ := stays plainHost (openRequest (lessonOfDocument moment))
    (openContext store project) _ rfl rfl serves (lessonOfDocument moment) (by rw [returned]; simp)
  rcases from_ with local_ | ⟨mentionedAt, read⟩
  · exact absurd (congrArg RecalledLesson.source local_) (by simp [lessonOfDocument, localLesson])
  · have shows : orUnknown moment.project = orUnknown source.project :=
      congrArg RecalledLesson.project (lesson_eq read)
    exact apart (project_of_shown same (own ▸ shows))

theorem recall_stays_iff {docs : List TeachableMoment} {store : Option TeachStore} {project : Text}
    (other : project ≠ ALL_PROJECTS) : StaysIn docs store project ↔ Separated docs store project := by
  constructor
  · intro stays moment mem readable shown same
    by_contra apart
    exact leaks other mem readable shown same apart stays
  · intro separated h request ctx reply held asked serves lesson mem
    subst held
    rcases lessons_found mem with remote | ⟨store, held, local_⟩
    · rw [asked] at remote
      cases answer : reply (tagsWanted project) with
      | hits value =>
        rw [answer] at remote
        obtain ⟨shown, hit, within, read⟩ := mem_lessonsOf remote
        obtain ⟨moment, doc, mentionedAt, same, carried⟩ := serves _ _ answer hit within
        rw [same] at read
        rw [same, hitOf_tags] at carried
        have tagged : tagOf (js "project:") moment.project = tagOf (js "project:") project :=
          (carries_iff other moment).mp carried
        rw [← sanitizeTag_project, ← sanitizeTag_project] at tagged
        have id : lesson.id = moment.id := congrArg RecalledLesson.id (lesson_eq read)
        rw [id] at shown
        exact ⟨moment, mem_append_right _ doc, .inr ⟨mentionedAt, read⟩,
          separated moment doc (readable_of_lesson read) shown tagged⟩
      | absent => rw [answer] at remote; cases remote
      | timedOut => rw [answer] at remote; cases remote
      | failed kind message => rw [answer] at remote; cases remote
      | threw message => rw [answer] at remote; cases remote
    · rw [asked] at local_
      obtain ⟨moment, stored, same, own⟩ := mem_recallLocal other local_
      refine ⟨moment, mem_append_left _ ?_, .inl same, own⟩
      rw [storedMoments, held]
      exact stored

/-- A lesson of the project `my-app`. -/
def portLesson : TeachableMoment :=
  { id := js "m1", name := js "Pick a free port", description := [], body := js "Ask the system for one."
    sourcePhase := [], sourceArtifacts := [], createdAt := 0, tags := [], relatedIds := [], kind := .pitfall
    status := .confirmed, origin := .explicit, project := js "my-app", host := js "claude-code"
    confidence := 1, occurrences := 1, lastSeenAt := 0, dedupeKey := [], recalled := 0, supersedes := none
    retained := none }

/-- Documents of one project stay in it. -/
theorem recall_stays_port : StaysIn [portLesson] none (js "my-app") :=
  (recall_stays_iff (by decide)).mpr fun _ mem _ _ _ => by
    rw [mem_singleton.mp mem]
    rfl

/-- The lesson of `my-app` is returned for the project `my app`: the two have one tag. -/
theorem recall_leaves_project :
    ¬ ∀ docs store project, project ≠ ALL_PROJECTS → StaysIn docs store project := by
  intro stays
  have readable : Readable portLesson := ⟨by decide, by decide, by decide⟩
  exact @leaks _ none (js "my app") _ (by decide) (mem_singleton_self portLesson) readable
    (by decide) (by decide) (by decide) (stays _ none _ (by decide))

end Ultrathink.Guarantees.RecallScope
