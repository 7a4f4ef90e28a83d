import Ultrathink.Source.Teach.Effects
import Ultrathink.Library.Processes

/-!
# Forgetting a moment is final

What holds of a moment once `forgetMoment` has reported it removed, in every order of
captures, confirmations, forgets and syncs: it stays out of the store, and a document
that the server still holds has its delete queued. A retain that outlives the forget
breaks both, so the result is about the runs whose steps meet `Met`.
-/

namespace Ultrathink.Guarantees.ForgetFinal

open List Library JsText Runs Source.Teach

def Reported (s : State) (id : Text) : Prop := ∃ remote, .forgot id true remote ∈ s.returned

def Final (s : State) : Prop :=
  ∀ id, Reported s id → s.store.get id = none ∧
    (s.remote (documentIdFor id) ≠ none → Queued s.store (documentIdFor id))

/-- A forget of the moment awaits the delete that it has sent. -/
def Deleting (s : State) (id : Text) : Prop :=
  ∃ p removed served, s.ops p = some (.deleting id removed served)

/-- The server has handled a delete of the document whose answer is still awaited. -/
def Deleted (s : State) (documentId : Text) : Prop :=
  ∃ p place, s.ops p = some place ∧ place.awaits = some (.delete documentId, true)

/-- The server may take a retain of the moment: it is in the store, or a delete of its
document is still to come. -/
def Timely (s : State) (id : Text) : Prop :=
  s.store.get id ≠ none ∨
    ((Queued s.store (documentIdFor id) ∨ Deleting s id) ∧ ¬ Deleted s (documentIdFor id))

/-- No retain outlives the forget of its moment. -/
def Met (x : Step State Input) : Prop :=
  match x.label with
  | .serve p => ∀ moment served,
      (x.before.ops p).bind Place.awaits = some (.retain moment, served) →
      Timely x.before moment.id
  | .serveLate i => ∀ moment, x.before.late[i]? = some (.retain moment) → Timely x.before moment.id
  | .answer p answer t =>
    (∀ moment bank served caller, x.before.ops p = some (.retaining moment bank served caller) →
      answer = .ok → t.aborted = false → x.before.store.get moment.id ≠ none) ∧
    ∀ id removed served, x.before.ops p = some (.deleting id removed served) →
      answer ≠ .ok → t.faults.enqueue (.delete (documentIdFor id)) = true →
      x.before.remote (documentIdFor id) = none
  | .forget _ id t => Untracked x.before.store id t → x.before.remote (documentIdFor id) = none
  | _ => True

/-- The moment is out of the store for good: its identifier is not drawn again. -/
def Gone (s : State) (id : Text) : Prop := s.store.get id = none ∧ id ∈ s.drawn

/-- What holds of an entry that is queued or held by an operation. -/
structure Held (s : State) (name : Text) (op : OutboxOp) : Prop where
  drawn : name ∈ s.drawn
  firm : ∀ entry ∈ s.store.outboxFiles, entry.id = name → entry.op = op
  gone : ∀ id, op = .delete (documentIdFor id) → Gone s id

structure Inv (s : State) : Prop where
  moments : ∀ id, s.store.get id ≠ none → id ∈ s.drawn
  queued : ∀ entry ∈ s.store.outboxFiles, Held s entry.id entry.op
  own : ∀ p place, s.ops p = some place → ∀ entry ∈ place.own,
    Held s entry.id entry.op ∧ ∀ d, entry.op ≠ .delete d
  due : ∀ p place, s.ops p = some place → ∀ entry ∈ place.due, Held s entry.id entry.op
  deleting : ∀ id, Deleting s id → Gone s id ∧ ¬ Reported s id
  single : ∀ p q id removed removed' served served',
    s.ops p = some (.deleting id removed served) → s.ops q = some (.deleting id removed' served') →
    p = q
  reported : ∀ id, Reported s id →
    Gone s id ∧ (s.remote (documentIdFor id) ≠ none → Queued s.store (documentIdFor id))
  deleted : ∀ id, Deleted s (documentIdFor id) → s.remote (documentIdFor id) = none

variable {id : Text} {s' s : State} {place : Place} {served : Bool} {answer : Answer}

theorem Held.moved {name : Text} {op : OutboxOp} (held : Held s name op)
    (store : s'.store = s.store) (drawn : s'.drawn = s.drawn) : Held s' name op := by
  obtain ⟨mine, firm, gone⟩ := held
  refine ⟨drawn ▸ mine, store ▸ firm, fun id isDelete => ?_⟩
  unfold Gone
  rw [store, drawn]
  exact gone id isDelete

theorem Inv.final (inv : Inv s) : Final s :=
  fun id reported => ⟨(inv.reported id reported).1.1, (inv.reported id reported).2⟩

theorem Inv.agree (inv : Inv s) : Agree s.store :=
  fun entry mem other mem' same => (inv.queued other mem').firm entry mem same

theorem held_firm (s : State) : Firm (Held s) s.store := fun _ _ held => held.firm

theorem inv_start (start : Start s) : Inv s := by
  have noOps : ∀ p place, s.ops p ≠ some place := by
    intro p place here
    rw [start.idle] at here
    cases here
  have none : ∀ id, ¬ Reported s id := by
    rintro id ⟨remote, mem⟩
    rw [start.returned] at mem
    cases mem
  refine ⟨fun id there => ?_, fun entry mem => ⟨start.entries entry mem, fun other mem' same => ?_,
    fun id isDelete => ?_⟩, fun p place here => absurd here (noOps p place),
    fun p place here => absurd here (noOps p place),
    fun id ⟨p, removed, served, here⟩ => absurd here (noOps p _),
    fun p q id removed removed' served served' here => absurd here (noOps p _),
    fun id reported => absurd reported (none id),
    fun id ⟨p, place, here, _⟩ => absurd here (noOps p place)⟩
  · obtain ⟨moment, found⟩ := Option.ne_none_iff_exists'.mp there
    have mem := start.moments moment (mem_of_find?_eq_some found)
    rwa [TeachStore.get_id found] at mem
  · rw [start.names other mem' entry mem same]
  · exact (start.deletes entry mem id isDelete).symm

variable {s : State} {p : Nat} {names : List Text} {next : Next} {t : Turn} {w : Wording}
  {fresh lost : Option Text} {op : OutboxOp}

theorem went_ops {q : Nat} (here : (s.went p names next).ops q = some place) :
    (q = p ∧ next.2 = .inl place) ∨ (q ≠ p ∧ s.ops q = some place) := by
  have here : Function.update s.ops p next.2.getLeft? q = some place := here
  rw [Function.update_apply] at here
  split at here
  next same => exact Or.inl ⟨same, Sum.getLeft?_eq_some_iff.mp here⟩
  next other => exact Or.inr ⟨other, here⟩

theorem went_reported (reported : Reported (s.went p names next) id) :
    Reported s id ∨ ∃ remote, next.2 = .inr (.forgot id true remote) := by
  obtain ⟨remote, mem⟩ := reported
  rcases mem_append.mp mem with old | new
  · exact Or.inl ⟨remote, old⟩
  · exact Or.inr ⟨remote, Sum.getRight?_eq_some_iff.mp (Option.mem_toList.mp new)⟩

theorem Gone.went (gone : Gone s id) (new : ∀ id, some id = fresh → id ∉ s.drawn)
    (plain : Plain fresh t.entryId op lost s.store next.1) : Gone (s.went p names next) id :=
  ⟨plain.absent id (fun same => new id same gone.2) gone.1, mem_append_right _ gone.2⟩

theorem Held.went {name : Text} {op' : OutboxOp} (held : Held s name op')
    (unused : t.entryId ∉ s.drawn) (new : ∀ id, some id = fresh → id ∉ s.drawn)
    (plain : Plain fresh t.entryId op lost s.store next.1) :
    Held (s.went p names next) name op' := by
  refine ⟨mem_append_right _ held.drawn, fun entry mem same => ?_,
    fun id isDelete => (held.gone id isDelete).went new plain⟩
  rcases plain.entries entry mem with ⟨old, there, sameId, sameOp⟩ | ⟨isNew, -⟩
  · rw [← sameOp]
    exact held.firm old there (sameId.trans same)
  · exact absurd (isNew ▸ same ▸ held.drawn) unused

theorem held_new (inv : Inv s) (unused : t.entryId ∉ s.drawn) (named : t.entryId ∈ names)
    (plain : Plain fresh t.entryId op lost s.store next.1)
    (queues : ∀ id, op = .delete (documentIdFor id) → next.1.get id = none ∧ id ∈ s.drawn) :
    Held (s.went p names next) t.entryId op := by
  refine ⟨mem_append_left _ named, fun entry mem same => ?_,
    fun id isDelete => ⟨(queues id isDelete).1, mem_append_right _ (queues id isDelete).2⟩⟩
  rcases plain.entries entry mem with ⟨old, there, sameId, -⟩ | ⟨-, isOp⟩
  · have drawn := (inv.queued old there).drawn
    rw [sameId, same] at drawn
    exact absurd drawn unused
  · exact isOp

/-- The invariant after a stretch, from what the stretch did to the store and from where
it left the operation. -/
theorem Inv.went (inv : Inv s) (unused : t.entryId ∉ s.drawn) (named : t.entryId ∈ names)
    (new : ∀ id, some id = fresh → id ∉ s.drawn ∧ id ∈ names)
    (plain : Plain fresh t.entryId op lost s.store next.1)
    (queues : ∀ id, op = .delete (documentIdFor id) → next.1.get id = none ∧ id ∈ s.drawn)
    (settles : ∀ id, some (documentIdFor id) = lost → s.remote (documentIdFor id) = none)
    (own : ∀ place, next.2 = .inl place → ∀ entry ∈ place.own,
      (Held s entry.id entry.op ∨ (entry.id = t.entryId ∧ entry.op = op)) ∧
        ∀ d, entry.op ≠ .delete d)
    (due : ∀ place, next.2 = .inl place → ∀ entry ∈ place.due,
      Held s entry.id entry.op ∨ (entry.id = t.entryId ∧ entry.op = op))
    (unsent : ∀ place, next.2 = .inl place → ∀ d, place.awaits ≠ some (.delete d, true))
    (deletes : ∀ id removed served, next.2 = .inl (.deleting id removed served) →
      (next.1.get id = none ∧ id ∈ s.drawn) ∧ ¬ Reported s id ∧
        ∀ q removed served, s.ops q = some (.deleting id removed served) → q = p)
    (reports : ∀ id remote, next.2 = .inr (.forgot id true remote) →
      (next.1.get id = none ∧ id ∈ s.drawn) ∧
        (s.remote (documentIdFor id) ≠ none → Queued next.1 (documentIdFor id)) ∧
        ∀ q removed served, s.ops q = some (.deleting id removed served) → q = p) :
    Inv (s.went p names next) := by
  have fresh' : ∀ id, some id = fresh → id ∉ s.drawn := fun id same => (new id same).1
  have keep : ∀ {name op'}, Held s name op' → Held (s.went p names next) name op' :=
    fun held => held.went unused fresh' plain
  have either : ∀ {entry : OutboxEntry},
      (Held s entry.id entry.op ∨ (entry.id = t.entryId ∧ entry.op = op)) →
      Held (s.went p names next) entry.id entry.op := by
    rintro entry (old | ⟨isNew, isOp⟩)
    · exact keep old
    · rw [isNew, isOp]
      exact held_new inv unused named plain queues
  refine ⟨fun id there => ?_, fun entry mem => ?_, fun q place here => ?_, fun q place here => ?_,
    ?_, ?_, fun id reported => ?_, ?_⟩
  · by_cases isNew : some id = fresh
    · exact mem_append_left _ (new id isNew).2
    · have before : s.store.get id ≠ none := fun missing =>
        there (plain.absent id isNew missing)
      exact mem_append_right _ (inv.moments id before)
  · rcases plain.entries entry mem with ⟨old, there, sameId, sameOp⟩ | isNew
    · rw [← sameId, ← sameOp]
      exact keep (inv.queued old there)
    · exact either (Or.inr isNew)
  · rcases went_ops here with ⟨-, placed⟩ | ⟨-, before⟩
    · exact fun entry mem => ⟨either (own place placed entry mem).1, (own place placed entry mem).2⟩
    · exact fun entry mem =>
        ⟨keep (inv.own q place before entry mem).1, (inv.own q place before entry mem).2⟩
  · rcases went_ops here with ⟨-, placed⟩ | ⟨-, before⟩
    · exact fun entry mem => either (due place placed entry mem)
    · exact fun entry mem => keep (inv.due q place before entry mem)
  · rintro id ⟨q, removed, served, here⟩
    rcases went_ops here with ⟨-, placed⟩ | ⟨other, before⟩
    · obtain ⟨gone, unreported, -⟩ := deletes id removed served placed
      refine ⟨⟨gone.1, mem_append_right _ gone.2⟩, fun reported => ?_⟩
      rcases went_reported reported with old | ⟨remote, value⟩
      · exact unreported old
      · rw [placed] at value
        cases value
    · obtain ⟨gone, unreported⟩ := inv.deleting id ⟨q, removed, served, before⟩
      refine ⟨gone.went fresh' plain, fun reported => ?_⟩
      rcases went_reported reported with old | ⟨remote, value⟩
      · exact unreported old
      · exact other ((reports id remote value).2.2 q removed served before)
  · intro q r id removed removed' served served' first second
    rcases went_ops first with ⟨rfl, placed⟩ | ⟨other, before⟩ <;>
      rcases went_ops second with ⟨rfl, placed'⟩ | ⟨other', before'⟩
    · rfl
    · exact absurd ((deletes id removed served placed).2.2 r removed' served' before') other'
    · exact absurd ((deletes id removed' served' placed').2.2 q removed served before) other
    · exact inv.single q r id removed removed' served served' before before'
  · rcases went_reported reported with old | ⟨remote, value⟩
    · obtain ⟨gone, queued⟩ := inv.reported id old
      refine ⟨gone.went fresh' plain, fun present => plain.kept _ (fun same => ?_) (queued present)⟩
      exact present (settles id same)
    · obtain ⟨gone, queued, -⟩ := reports id remote value
      exact ⟨⟨gone.1, mem_append_right _ gone.2⟩, queued⟩
  · rintro id ⟨q, place, here, awaits⟩
    rcases went_ops here with ⟨-, placed⟩ | ⟨-, before⟩
    · exact absurd awaits (unsent place placed _)
    · exact inv.deleted id ⟨q, place, before, awaits⟩

theorem Inv.calm (inv : Inv s) (unused : t.entryId ∉ s.drawn) (named : t.entryId ∈ names)
    (new : ∀ id, some id = fresh → id ∉ s.drawn ∧ id ∈ names)
    (settles : ∀ id, some (documentIdFor id) = lost → s.remote (documentIdFor id) = none)
    (calm : Calm fresh t lost (Held s) s.store next) : Inv (s.went p names next) := by
  obtain ⟨op, other, plain, quiet⟩ := calm
  have ready := quiet.place
  refine inv.went unused named new plain (fun id isDelete => absurd isDelete (other _)) settles
    (fun place placed => (ready place placed).own) (fun place placed => (ready place placed).due)
    (fun place placed => (ready place placed).unsent) (fun id removed served placed => ?_)
    (fun id remote value => absurd value (quiet.forgets id remote))
  exact absurd rfl ((ready _ placed).keeps id removed served)

theorem there_unforgotten (inv : Inv s) (there : s.store.get id ≠ none) :
    ¬ Reported s id ∧ ¬ Deleting s id :=
  ⟨fun reported => there (inv.reported id reported).1.1,
    fun deleting => there (inv.deleting id deleting).1.1⟩

theorem forget_inv (inv : Inv s) (unused : t.entryId ∉ s.drawn) (id : Text)
    (met : Untracked s.store id t → s.remote (documentIdFor id) = none) :
    Inv (s.went p [t.entryId] (forgetMoment id t s.store)) := by
  have effect := forgetMoment_effect none none (Held s) inv.agree id (t := t)
  rcases effect with calm | ⟨there, plain, gone, left⟩
  · exact inv.calm unused (by simp) (by simp) (by simp) calm
  have drawn := inv.moments id there
  obtain ⟨unreported, undeleted⟩ := there_unforgotten inv there
  have alone : ∀ q removed served, s.ops q = some (.deleting id removed served) → q = p :=
    fun q removed served here => absurd ⟨q, removed, served, here⟩ undeleted
  have queues : ∀ id', OutboxOp.delete (documentIdFor id) = .delete (documentIdFor id') →
      (forgetMoment id t s.store).1.get id' = none ∧ id' ∈ s.drawn := by
    intro id' same
    rw [← documentIdFor_inj (OutboxOp.delete.inj same)]
    exact ⟨gone, drawn⟩
  rcases left with ⟨removed, placed⟩ | ⟨⟨reported, remote, value⟩, queued⟩
  · refine inv.went unused (by simp) (by simp) plain queues (by simp) ?_ ?_ ?_ ?_ ?_
    · intro place here
      cases placed.symm.trans here
      simp [Place.own]
    · intro place here
      cases placed.symm.trans here
      simp [Place.due]
    · intro place here
      cases placed.symm.trans here
      simp [Place.awaits]
    · intro id' removed' served' here
      cases placed.symm.trans here
      exact ⟨⟨gone, drawn⟩, unreported, alone⟩
    · intro id' remote' here
      cases placed.symm.trans here
  · refine inv.went unused (by simp) (by simp) plain queues (by simp) ?_ ?_ ?_ ?_ ?_
    · intro place here
      cases value.symm.trans here
    · intro place here
      cases value.symm.trans here
    · intro place here
      cases value.symm.trans here
    · intro id' removed' served' here
      cases value.symm.trans here
    · intro id' remote' here
      cases value.symm.trans here
      refine ⟨⟨gone, drawn⟩, fun present => ?_, alone⟩
      rcases queued with queued | untracked
      · exact queued
      · exact absurd (met untracked) present

theorem forgetAnswered_inv (inv : Inv s) (unused : t.entryId ∉ s.drawn) {removed : Bool}
    (here : s.ops p = some (.deleting id removed served)) (sound : answer = .ok → served = true)
    (met : answer ≠ .ok → t.faults.enqueue (.delete (documentIdFor id)) = true →
      s.remote (documentIdFor id) = none) :
    Inv (s.went p [t.entryId] (forgetAnswered w id removed answer t s.store)) := by
  obtain ⟨gone, unreported⟩ := inv.deleting id ⟨p, removed, served, here⟩
  have alone : ∀ q removed served, s.ops q = some (.deleting id removed served) → q = p :=
    fun q removed' served' there => inv.single q p id removed' removed served' served there here
  unfold forgetAnswered
  split
  next done =>
    have ok : answer = .ok := by
      rcases runOp_none done with ok | ⟨documentId, tags, isTags⟩
      · exact ok
      · cases isTags
    have handled : s.remote (documentIdFor id) = none := by
      refine inv.deleted id ⟨p, _, here, ?_⟩
      rw [sound ok]
      rfl
    have still : Plain none t.entryId (.retain []) none s.store s.store := .refl
    refine inv.went unused (by simp) (by simp) still (by simp) (by simp) (by simp) (by simp)
      (by simp) (by simp) ?_
    intro id' remote value
    cases value
    exact ⟨gone, fun present => absurd handled present, alone⟩
  next failure failed =>
    obtain ⟨plain, ⟨reported, remote, value⟩, works⟩ := queueDelete_effect none none id removed
      (s := s.store) (t := t)
    have gone' := plain.absent id (by simp) gone.1
    refine inv.went unused (by simp) (by simp) plain (fun id' same => ?_) (by simp) ?_ ?_ ?_ ?_ ?_
    · rw [← documentIdFor_inj (OutboxOp.delete.inj same)]
      exact ⟨gone', gone.2⟩
    · intro place there
      cases value.symm.trans there
    · intro place there
      cases value.symm.trans there
    · intro place there
      cases value.symm.trans there
    · intro id' removed' served' there
      cases value.symm.trans there
    · intro id' remote' there
      cases value.symm.trans there
      refine ⟨⟨gone', gone.2⟩, fun present => ?_, alone⟩
      cases fails : t.faults.enqueue (.delete (documentIdFor id)) with
      | false => exact works fails
      | true =>
        refine absurd (met (fun ok => ?_) fails) present
        rw [ok] at failed
        cases failed

theorem handle_present {request : Request} {remote : Text → Option Document} {documentId : Text}
    (present : request.handle w remote documentId ≠ none) :
    remote documentId ≠ none ∨
      ∃ moment, request = .retain moment ∧ documentId = documentIdFor moment.id := by
  cases request with
  | retain moment =>
    by_cases same : documentId = documentIdFor moment.id
    · exact Or.inr ⟨moment, rfl, same⟩
    · rw [Request.handle, Function.update_of_ne same] at present
      exact Or.inl present
  | delete gone =>
    rw [Request.handle, Function.update_apply] at present
    split at present
    · exact absurd rfl present
    · exact Or.inl present
  | tags changed value =>
    rw [Request.handle, Function.update_apply] at present
    split at present
    next same =>
      rw [same]
      exact Or.inl fun missing => present (by rw [missing]; rfl)
    · exact Or.inl present

theorem serve_own (place : Place) : place.serve.own = place.own := by cases place <;> rfl

theorem serve_due (place : Place) : place.serve.due = place.due := by cases place <;> rfl

theorem serve_awaits {request : Request} (awaits : place.awaits = some (request, false)) :
    place.serve.awaits = some (request, true) := by
  cases place with
  | retaining moment bank served caller => cases awaits; rfl
  | deleting id removed served => cases awaits; rfl
  | tagging entry served outcome call =>
    obtain ⟨sent, isSent, same⟩ := Option.map_eq_some_iff.mp awaits
    cases same
    rw [Place.serve, Place.awaits, isSent]
    rfl
  | replaying entry served call =>
    obtain ⟨sent, isSent, same⟩ := Option.map_eq_some_iff.mp awaits
    cases same
    rw [Place.serve, Place.awaits, isSent]
    rfl
  | retained sent result caller => cases awaits
  | settled outcome call => cases awaits
  | skipped entry call => cases awaits

theorem serve_deleting {removed : Bool} (here : place.serve = .deleting id removed served) :
    ∃ before, place = .deleting id removed before := by
  cases place with
  | deleting id' removed' served' =>
    cases here
    exact ⟨served', rfl⟩
  | retaining moment bank served caller => cases here
  | tagging entry served outcome call => cases here
  | replaying entry served call => cases here
  | retained sent result caller => cases here
  | settled outcome call => cases here
  | skipped entry call => cases here

theorem awaits_gone (inv : Inv s) (here : s.ops p = some place)
    (awaits : place.awaits = some (.delete (documentIdFor id), served)) : Gone s id := by
  have sends : ∀ op : OutboxOp, (op.request.map fun request => (request, served)) =
      some (.delete (documentIdFor id), served) → op = .delete (documentIdFor id) := by
    intro op same
    cases op with
    | retain momentId => cases same
    | delete documentId => cases same; rfl
    | tags documentId value => cases same
  cases place with
  | deleting id' removed served' =>
    have same := documentIdFor_inj (Request.delete.inj (congrArg Prod.fst (Option.some.inj awaits)))
    exact same ▸ (inv.deleting id' ⟨p, removed, served', here⟩).1
  | replaying entry served' call =>
    have flag : served' = served := by
      obtain ⟨sent, -, same⟩ := Option.map_eq_some_iff.mp awaits
      exact congrArg Prod.snd same
    subst flag
    exact (inv.due p _ here entry (by simp [Place.due])).gone id (sends entry.op awaits)
  | tagging entry served' outcome call =>
    have flag : served' = served := by
      obtain ⟨sent, -, same⟩ := Option.map_eq_some_iff.mp awaits
      exact congrArg Prod.snd same
    subst flag
    exact absurd (sends entry.op awaits) ((inv.own p _ here entry (by simp [Place.own])).2 _)
  | retaining moment bank served' caller => cases awaits
  | retained sent result caller => cases awaits
  | settled outcome call => cases awaits
  | skipped entry call => cases awaits

theorem handle_inv (inv : Inv s) (request : Request) (ops : Nat → Option Place)
    (late : List Request)
    (places : ∀ q place, ops q = some place → ∃ before, s.ops q = some before ∧
      (place = before ∨ (place = before.serve ∧ before.awaits = some (request, false))))
    (timely : ∀ moment, request = .retain moment → Timely s moment.id) :
    Inv { s with remote := request.handle w s.remote, ops := ops, late := late } := by
  have deleting : ∀ q id removed served, ops q = some (.deleting id removed served) →
      ∃ before, s.ops q = some (.deleting id removed before) := by
    intro q id removed served here
    obtain ⟨before, there, same | ⟨same, -⟩⟩ := places q _ here
    · exact ⟨served, same ▸ there⟩
    · obtain ⟨flag, was⟩ := serve_deleting same.symm
      exact ⟨flag, was ▸ there⟩
  refine ⟨inv.moments, fun entry mem => (inv.queued entry mem).moved rfl rfl,
    fun q place here => ?_, fun q place here => ?_, ?_, ?_, fun id reported => ?_, ?_⟩
  · obtain ⟨before, there, same⟩ := places q place here
    have own : place.own = before.own := by
      rcases same with rfl | ⟨rfl, -⟩
      · rfl
      · exact serve_own before
    rw [own]
    exact fun entry mem => ⟨(inv.own q before there entry mem).1.moved rfl rfl,
      (inv.own q before there entry mem).2⟩
  · obtain ⟨before, there, same⟩ := places q place here
    have due : place.due = before.due := by
      rcases same with rfl | ⟨rfl, -⟩
      · rfl
      · exact serve_due before
    rw [due]
    exact fun entry mem => (inv.due q before there entry mem).moved rfl rfl
  · rintro id ⟨q, removed, served, here⟩
    obtain ⟨before, there⟩ := deleting q id removed served here
    exact inv.deleting id ⟨q, removed, before, there⟩
  · intro q r id removed removed' served served' first second
    obtain ⟨before, there⟩ := deleting q id removed served first
    obtain ⟨before', there'⟩ := deleting r id removed' served' second
    exact inv.single q r id removed removed' before before' there there'
  · obtain ⟨gone, queued⟩ := inv.reported id reported
    refine ⟨gone, fun present => ?_⟩
    rcases handle_present present with old | ⟨moment, isRetain, same⟩
    · exact queued old
    · rw [documentIdFor_inj same] at gone reported ⊢
      rcases timely moment isRetain with there | ⟨owed | owed, -⟩
      · exact absurd gone.1 there
      · exact owed
      · exact absurd reported (inv.deleting _ owed).2
  · rintro id ⟨q, place, here, awaits⟩
    by_contra present
    obtain ⟨before, there, same⟩ := places q place here
    have gone : Gone s id := by
      rcases same with rfl | ⟨rfl, sent⟩
      · exact awaits_gone inv there awaits
      · rw [serve_awaits sent] at awaits
        cases awaits
        exact awaits_gone inv there sent
    rcases same with rfl | ⟨rfl, sent⟩
    · rcases handle_present present with old | ⟨moment, isRetain, same⟩
      · exact old (inv.deleted id ⟨q, place, there, awaits⟩)
      · rw [documentIdFor_inj same] at gone awaits
        rcases timely moment isRetain with stored | ⟨-, undone⟩
        · exact stored gone.1
        · exact undone ⟨q, place, there, awaits⟩
    · rw [serve_awaits sent] at awaits
      cases awaits
      exact present (Function.update_self ..)

theorem abandon_inv (inv : Inv s) (place : Place) : Inv (s.abandon place) := by
  unfold State.abandon
  split
  · exact ⟨inv.moments, fun entry mem => (inv.queued entry mem).moved rfl rfl,
      fun q place here entry mem => ⟨(inv.own q place here entry mem).1.moved rfl rfl,
        (inv.own q place here entry mem).2⟩,
      fun q place here entry mem => (inv.due q place here entry mem).moved rfl rfl,
      inv.deleting, inv.single, inv.reported, inv.deleted⟩
  · exact inv

theorem abandon_went (place : Place) :
    (s.abandon place).went p names next = (s.went p names next).abandon place := by
  unfold State.abandon
  split <;> rfl

theorem answer_inv (inv : Inv s) (here : s.ops p = some place)
    (met : Met ⟨s, .answer p answer t, s'⟩) (unused : t.entryId ∉ s.drawn)
    (sound : answer = .ok → place.unserved = false)
    (answered : place.answered w answer t s.store = some next) :
    Inv (s.went p [t.entryId] next) := by
  by_cases forgets : ∃ id removed served, place = .deleting id removed served
  · obtain ⟨id, removed, served, rfl⟩ := forgets
    cases answered
    refine forgetAnswered_inv inv unused here (fun ok => ?_) (met.2 id removed served here)
    have flag := sound ok
    cases served
    · cases flag
    · rfl
  -- Success of a replayed delete settles what is queued for its document.
  have calm : ∀ lost, (∀ entry served call d, place = .replaying entry served call →
      answer = .ok → entry.op = .delete d → some d = lost) →
      Calm none t lost (Held s) s.store next := by
    intro lost deleted
    refine Place.answered_calm answered inv.agree (held_firm s) (inv.own p place here)
      (inv.due p place here) (fun moment bank served caller same => ?_) deleted ?_
    · exact met.1 moment bank served caller (same ▸ here)
    · exact fun id removed served same => forgets ⟨id, removed, served, same⟩
  by_cases settles : ∃ entry served call d, place = .replaying entry served call ∧
      answer = .ok ∧ entry.op = .delete d
  · obtain ⟨entry, served, call, d, rfl, ok, isDelete⟩ := settles
    refine inv.calm unused (by simp) (by simp) (fun id same => ?_) (calm (some d) ?_)
    · cases same
      refine inv.deleted id ⟨p, _, here, ?_⟩
      have flag := sound ok
      simp only [Place.unserved, Place.awaits, isDelete, OutboxOp.request, Option.map_some,
        Option.any_some, Bool.not_eq_eq_eq_not, Bool.not_false] at flag
      rw [Place.awaits, isDelete, flag]
      rfl
    · intro entry' served' call' d' same _ isDelete'
      cases same
      rw [isDelete] at isDelete'
      cases isDelete'
      rfl
  · refine inv.calm unused (by simp) (by simp) (by simp) (calm none ?_)
    exact fun entry served call d same ok isDelete =>
      absurd ⟨entry, served, call, d, same, ok, isDelete⟩ settles

theorem step_inv {i : Input} (inv : Inv s) (met : Met ⟨s, i, s'⟩) (taken : step w s i = some s') :
    Inv s' := by
  cases i with
  | capture p moment t =>
    simp only [step] at taken
    split at taken
    next allowed =>
      obtain ⟨-, -, unused, unused'⟩ := allowed
      cases taken
      refine inv.calm (not_mem_of_not_mem_cons unused') (by simp) (fun id same => ?_) (by simp)
        (captureMoment_calm none inv.agree moment inv.queued)
      cases same
      exact ⟨unused, by simp⟩
    next => cases taken
  | confirm p id t =>
    simp only [step] at taken
    split at taken
    next allowed =>
      cases taken
      exact inv.calm allowed.2 (by simp) (by simp) (by simp)
        (confirmMoment_calm none none id)
    next => cases taken
  | forget p id t =>
    simp only [step] at taken
    split at taken
    next allowed =>
      cases taken
      exact forget_inv inv allowed.2 id met
    next => cases taken
  | sync p t =>
    simp only [step] at taken
    split at taken
    next allowed =>
      cases taken
      exact inv.calm allowed.2 (by simp) (by simp) (by simp)
        (syncOutbox_calm none none inv.queued)
    next => cases taken
  | answer p answer t =>
    simp only [step] at taken
    split at taken
    next => cases taken
    next place here =>
      split at taken
      next => cases taken
      next allowed =>
        obtain ⟨next, answered, rfl⟩ := Option.map_eq_some_iff.mp taken
        obtain ⟨unused, served⟩ := not_or.mp allowed
        rw [abandon_went]
        refine abandon_inv (answer_inv inv here met unused (fun ok => ?_) answered) place
        exact Bool.eq_false_iff.mpr fun flag => served ⟨ok, flag⟩
  | resume p t =>
    simp only [step] at taken
    split at taken
    next => cases taken
    next place here =>
      split at taken
      next => cases taken
      next unused =>
        obtain ⟨next, resumed, rfl⟩ := Option.map_eq_some_iff.mp taken
        exact inv.calm unused (by simp) (by simp) (by simp)
          (Place.resumed_calm none none resumed (held_firm s)
            (inv.own p place here) (inv.due p place here))
  | serve p =>
    simp only [step] at taken
    split at taken
    next => cases taken
    next place here =>
      split at taken
      next request awaits =>
        cases taken
        refine handle_inv inv request _ _ (fun q place' there => ?_) fun moment isRetain => ?_
        · rcases Library.Processes.update_some there with ⟨rfl, rfl⟩ | ⟨-, before⟩
          · exact ⟨place, here, Or.inr ⟨rfl, awaits⟩⟩
          · exact ⟨place', before, Or.inl rfl⟩
        · refine met moment false ?_
          rw [here, Option.bind_some, awaits, isRetain]
      next => cases taken
  | serveLate i =>
    simp only [step] at taken
    split at taken
    next => cases taken
    next request found =>
      cases taken
      exact handle_inv inv request _ _ (fun q place' there => ⟨place', there, Or.inl rfl⟩)
        fun moment isRetain => met moment (isRetain ▸ found)

/-- In every run whose steps all meet the condition, a moment that was reported removed
stays out of the store, and its document has a delete queued when the server holds it. -/
theorem forgetting_is_final (w : Wording) {s s' : State} {steps : List (Step State Input)}
    (start : Start s) (run : (system w).Run s steps s') (met : ∀ x ∈ steps, Met x) : Final s' :=
  Inv.final (run.invariant_of Inv Met (inv_start start)
    (fun _ _ _ taken allowed inv => step_inv inv allowed taken) met)

def lesson : TeachableMoment where
  id := js "0b6a"
  name := js "Use import type"
  description := []
  body := js "tsc rejects value imports of types."
  sourcePhase := []
  sourceArtifacts := []
  createdAt := 1000
  tags := []
  relatedIds := []
  kind := .pitfall
  status := .confirmed
  origin := .explicit
  project := js "app"
  host := js "cli"
  confidence := 1
  occurrences := 1
  lastSeenAt := 1000
  dedupeKey := js "f3"
  recalled := 0
  supersedes := none
  retained := none

def lessonWording : Wording where
  tagsFor moment := [js "ultrathink", js "teachable", js "project:" ++ moment.project,
    js "host:" ++ moment.host, js "kind:pitfall", js "status:confirmed"]
  metadataFor moment := [(js "tm_id", moment.id), (js "schema", js "tm/2")]
  redactLine text := text

def turnAt (now : Nat) (entryId : Text) : Turn :=
  ⟨true, true, now, false, .ok (js "bank"), entryId, noFaults, []⟩

def emptyState : State := ⟨⟨[], []⟩, fun _ => none, [], fun _ => none, [], []⟩

theorem emptyState_start : Start emptyState :=
  ⟨rfl, rfl, rfl, by simp [emptyState], by simp [emptyState], by simp [emptyState],
    by simp [emptyState]⟩

/-- The forget comes while the retain of the capture is on its way. -/
def outlivedInputs : List Input :=
  [.capture 0 lesson (turnAt 1000 (js "a")), .forget 1 lesson.id (turnAt 1001 (js "b")), .serve 0,
    .answer 0 .ok (turnAt 1002 (js "c"))]

theorem outlived_retain : ¬ ∀ (w : Wording) (s s' : State) (steps : List (Step State Input)),
    Start s → (system w).Run s steps s' → Final s' := by
  intro claimed
  have run : (system lessonWording).Run _ _ _ := run_stepped emptyState outlivedInputs
    (by decide +kernel)
  have final := claimed lessonWording _ _ _ emptyState_start run lesson.id
    ⟨.none, by decide +kernel⟩
  exact absurd final.1 (by decide +kernel)

/-- The retain comes back before the forget. -/
def timelyInputs : List Input :=
  [.capture 0 lesson (turnAt 1000 (js "a")), .serve 0, .answer 0 .ok (turnAt 1001 (js "b")),
    .resume 0 (turnAt 1001 (js "c")), .resume 0 (turnAt 1001 (js "d")),
    .forget 1 lesson.id (turnAt 1002 (js "e")), .serve 1, .answer 1 .ok (turnAt 1003 (js "f"))]

/-- The retain that the operation awaits is of a moment in the store. -/
def retainStored (s : State) (p : Nat) : Bool :=
  match (s.ops p).bind Place.awaits with
  | some (.retain moment, _) => (s.store.get moment.id).isSome
  | _ => true

theorem retainStored_there (stored : retainStored s p = true) {moment : TeachableMoment}
    (sent : (s.ops p).bind Place.awaits = some (.retain moment, served)) :
    s.store.get moment.id ≠ none := by
  rw [retainStored, sent] at stored
  exact Option.isSome_iff_ne_none.mp stored

theorem met_serve (stored : retainStored s p = true) : Met ⟨s, .serve p, s'⟩ :=
  fun _ _ sent => Or.inl (retainStored_there stored sent)

theorem met_answer (stored : retainStored s p = true) (works : ∀ op, t.faults.enqueue op = false) :
    Met ⟨s, .answer p answer t, s'⟩ := by
  refine ⟨fun moment bank served caller here _ _ => ?_, fun id removed served _ _ fails => ?_⟩
  · have here : s.ops p = some (.retaining moment bank served caller) := here
    have sent : (s.ops p).bind Place.awaits = some (.retain moment, served) := by
      rw [here]
      rfl
    exact retainStored_there stored sent
  · rw [works] at fails
    cases fails

theorem met_forget (tracked : ((s.store.get id).bind TeachableMoment.retained).isSome = true)
    (works : ∀ op, t.faults.enqueue op = false) : Met ⟨s, .forget p id t, s'⟩ := by
  rintro ⟨moment, found, ⟨unretained, -⟩ | ⟨fails, -⟩⟩
  · have found : s.store.get id = some moment := found
    rw [found, Option.bind_some, unretained] at tracked
    cases tracked
  · rw [works] at fails
    cases fails

theorem timelyInputs_final :
    Reported (runInputs (stepped (step lessonWording)) emptyState timelyInputs) lesson.id ∧
      Final (runInputs (stepped (step lessonWording)) emptyState timelyInputs) := by
  refine ⟨⟨.deleted, by decide +kernel⟩, forgetting_is_final lessonWording emptyState_start
    (run_stepped emptyState timelyInputs (by decide +kernel)) ?_⟩
  simp only [timelyInputs, traceOf, forall_mem_cons]
  exact ⟨trivial, met_serve (by decide +kernel), met_answer (by decide +kernel) (fun _ => rfl),
    trivial, trivial, met_forget (by decide +kernel) (fun _ => rfl), met_serve (by decide +kernel),
    met_answer (by decide +kernel) (fun _ => rfl), by simp⟩

end Ultrathink.Guarantees.ForgetFinal
