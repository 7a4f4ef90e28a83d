import Ultrathink.Source.Teach.Capture

/-!
# Promotion of teachable moments

`markPromoted` and `promoteDue` of `teach/promote.ts` and `promote` of `teach/cli.ts`, beside
the operations of `capture.ts` in one process. What becomes of a skill draft, and which
candidates Jev keeps, are choices of the surroundings.
-/

namespace Ultrathink.Source.Teach

open Library JsText Runs

structure SkillInfo where
  skill : Text
  target : SkillTarget
  path : Option Text

/-- What the surroundings choose for a stretch that marks moments: whether the store can be
opened and teaching is on, the clock, the name drawn for the entry of each moment and the
writes that fail. -/
structure MarkTurn where
  opened : Bool
  enabled : Bool
  now : Nat
  entryIds : Text → Text
  faults : Faults

def promotedAs (info : SkillInfo) (now : Nat) (moment : TeachableMoment) : TeachableMoment :=
  { moment with
    status := .promoted
    promoted := some ⟨now, info.skill, info.target, info.path⟩ }

/-- One round of the loop of `markPromoted`; false when a write throws. -/
def markOne (w : Wording) (info : SkillInfo) (t : MarkTurn) (id : Text) (s : TeachStore) :
    TeachStore × Bool :=
  match s.get id with
  | none => (s, true)
  | some moment =>
    let next := promotedAs info t.now moment
    match s.put t.faults next with
    | none => (s, false)
    | some s =>
      if moment.retained.isNone then (s, true)
      else
        match s.enqueue t.faults (.tags (documentIdFor id) (w.tagsFor next)) t.now
            (t.entryIds id) with
        | none => (s, false)
        | some (_, s) => (s, true)

/-- A write that throws ends the loop. -/
def markPromoted (w : Wording) (info : SkillInfo) (t : MarkTurn) :
    List Text → TeachStore → TeachStore
  | [], s => s
  | id :: rest, s =>
    match markOne w info t id s with
    | (s, true) => markPromoted w info t rest s
    | (s, false) => s

def isTokenHead (u : UInt16) : Bool := isWord u || u = 0x2D

/-- `ID_TOKEN` of the command line. -/
def isToken (token : Text) : Bool :=
  match token with
  | [] => false
  | u :: rest => isTokenHead u && rest.all (fun v => isTokenHead v || v = 0x2E) && rest.length ≤ 79

def ID_PREFIX_MIN : Nat := 4

/-- None where the command ends: the token is no id, or not one moment has it. -/
def findMoment (s : TeachStore) (token : Text) : Option TeachableMoment :=
  if !isToken token then none
  else
    match s.get token with
    | some exact => some exact
    | none =>
      if token.length < ID_PREFIX_MIN then none
      else
        match s.list.filter fun moment => token.isPrefixOf moment.id with
        | [moment] => some moment
        | _ => none

/-- `promote` with `--mark-promoted`, or with `--install` and the skill that was created or
updated; none when no skill was. -/
def promote (w : Wording) (tokens : List Text) (info : Option SkillInfo) (t : MarkTurn)
    (s : TeachStore) : TeachStore :=
  if !t.enabled || !t.opened then s
  else
    match tokens.mapM (findMoment s), info with
    | some moments, some info => markPromoted w info t (moments.map TeachableMoment.id) s
    | _, _ => s

structure PromoteConfig where
  autoPromote : Bool
  enabled : Bool
  killed : Bool
  promoteAfter : Nat

def isCandidate (after : Nat) (moment : TeachableMoment) : Bool :=
  moment.status = .confirmed && moment.promoted.isNone &&
    (after ≤ moment.occurrences || moment.kind = .playbook)

/-- In the order of the store; the one that the source sorts them in is left to the run. -/
def promotionCandidates (after : Nat) (s : TeachStore) : List TeachableMoment :=
  s.list.filter (isCandidate after)

/-- A call of `promoteDue` that awaits `filterSkillworthy`. -/
structure Due where
  candidates : List TeachableMoment
  target : SkillTarget

/-- `promoteDue` up to its await; none when it returns. -/
def promoteDue (config : PromoteConfig) (target : SkillTarget) (opened : Bool) (s : TeachStore) :
    Option Due :=
  if !config.autoPromote || !config.enabled || config.killed || !opened then none
  else some ⟨promotionCandidates config.promoteAfter s, target⟩

/-- The loop over the moments that were kept. `installed` is the skill of a moment whose draft
was installed, with its path. -/
def promoteKept (w : Wording) (target : SkillTarget) (installed : Text → Option (Text × Text))
    (t : MarkTurn) : List TeachableMoment → TeachStore → TeachStore
  | [], s => s
  | moment :: rest, s =>
    if target = .hermes ∨ target = .drafts then promoteKept w target installed t rest s
    else
      match installed moment.id with
      | none => promoteKept w target installed t rest s
      | some (skill, path) =>
        promoteKept w target installed t rest
          (markPromoted w ⟨skill, target, some path⟩ t [moment.id] s)

/-- The process with its promotions: `judging` are the calls of `promoteDue` that await. -/
structure Lessons where
  main : State
  judging : Nat → Option Due

inductive LessonInput where
  | main (i : Input)
  | promote (tokens : List Text) (info : Option SkillInfo) (t : MarkTurn)
  | promoteDue (p : Nat) (config : PromoteConfig) (target : SkillTarget) (opened : Bool)
  | judged (p : Nat) (kept : List TeachableMoment) (installed : Text → Option (Text × Text))
      (t : MarkTurn)

/-- The names that a stretch which marks moments may draw. -/
def MarkTurn.names (t : MarkTurn) (s : TeachStore) : List Text :=
  s.momentFiles.map fun moment => t.entryIds moment.id

/-- They are new and each is drawn once. -/
def MarkTurn.draws (t : MarkTurn) (s : State) : Prop :=
  (t.names s.store).Nodup ∧ ∀ name ∈ t.names s.store, name ∉ s.drawn

instance (t : MarkTurn) (s : State) : Decidable (t.draws s) := by
  unfold MarkTurn.draws
  infer_instance

def State.marked (s : State) (t : MarkTurn) (store : TeachStore) : State :=
  { s with store, drawn := t.names s.store ++ s.drawn }

/-- An identifier that is drawn for a moment names no file. -/
def unnamed (s : TeachStore) : Input → Bool
  | .capture _ moment _ => (s.get moment.id).isNone
  | _ => true

def lessonStep (w : Wording) (s : Lessons) : LessonInput → Option Lessons
  | .main i =>
    if unnamed s.main.store i then (step w s.main i).map fun main => { s with main } else none
  | .promote tokens info t =>
    if t.draws s.main then
      some { s with main := s.main.marked t (promote w tokens info t s.main.store) }
    else none
  | .promoteDue p config target opened =>
    if (s.judging p).isSome then none
    else
      some { s with
        judging := Function.update s.judging p (promoteDue config target opened s.main.store) }
  | .judged p kept installed t =>
    match s.judging p with
    | none => none
    | some due =>
      if t.draws s.main ∧ kept ⊆ due.candidates then
        some {
          main := s.main.marked t (promoteKept w due.target installed t kept s.main.store)
          judging := Function.update s.judging p none }
      else none

/-- A file is named by its moment, so no two files are of one moment. -/
structure LessonStart (s : Lessons) : Prop where
  main : Start s.main
  files : (s.main.store.momentFiles.map TeachableMoment.id).Nodup
  idle : s.judging = fun _ => none

def lessonSystem (w : Wording) : System Lessons LessonInput := System.ofStep LessonStart (lessonStep w)

end Ultrathink.Source.Teach
