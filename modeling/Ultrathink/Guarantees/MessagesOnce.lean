import Ultrathink.Source.TokenOpt.Messages

/-!
# A message is charged once and whole

Cost and tokens go into the ledger by two operations, and the message is marked as seen after the
second.
-/

namespace Ultrathink.Guarantees.MessagesOnce

open List Library JsText Runs Source.TokenOpt.Messages
open Source.TokenOpt (maxSafe isValidSessionId)

/-- The dollars of a session as they are remembered, else as its snapshot has them. -/
def remembered (s : State) (id : Text) : ℚ :=
  (costOf s.sessionCosts id).getD (((s.ledger.memory id).map costIn).getD 0)

/-- The running total is that of the session that is active. -/
def Own (s : State) : Prop :=
  ∀ id, s.ledger.activeId = some id → s.sessionCostUsd = remembered s id

/-- The delivery has marked its message. -/
def charges (key : Key) (x : Step State Input) : Bool :=
  match x.label with
  | .messageEnd m _ _ => m.key = key ∧ key ∉ x.before.seenMessages ∧ key ∈ x.after.seenMessages
  | _ => false

/-- Both amounts of the message go to the session, and nothing to another one. -/
def Charged (m : Message) (s t : State) : Prop :=
  ∃ id dollars tokens, s.ledger.activeId = some id ∧ chargeOf m = some (dollars, tokens) ∧
    t.sessionCostUsd = s.sessionCostUsd + dollars.getD 0 ∧
    t.ledger.usage =
      Function.update s.ledger.usage id (some (((s.ledger.usage id).getD .zero).add tokens))

def Uncharged (s t : State) : Prop :=
  t.sessionCostUsd = s.sessionCostUsd ∧ t.ledger.usage = s.ledger.usage

/-- Nothing of a session that is not active has changed. -/
structure Apart (s t : State) : Prop where
  activeId : t.ledger.activeId = s.ledger.activeId
  memory : ∀ other, s.ledger.activeId ≠ some other → t.ledger.memory other = s.ledger.memory other
  costs : ∀ entry ∈ t.sessionCosts, s.ledger.activeId ≠ some entry.1 → entry ∈ s.sessionCosts

def Whole (x : Step State Input) : Prop :=
  match x.label with
  | .messageEnd m _ _ =>
    Apart x.before x.after ∧
      if charges m.key x then Charged m x.before x.after else Uncharged x.before x.after
  | _ =>
    x.after.sessionCosts = x.before.sessionCosts ∧
      ∀ id row, x.before.ledger.usage id = some row → x.after.ledger.usage id = some row

def Free (dollars : Option ℚ) : Prop := dollars.getD 0 = 0

/-- The cost is left out: the cents would not be an exact integer. -/
def TooDear (dollars : Option ℚ) (s : State) : Prop :=
  maxSafe < centsOf (s.sessionCostUsd + dollars.getD 0)

/-- A write that the timing of the message needs, and that fails. -/
def Stopped (m : Message) (now : Nat) (d : Disk) (s : State) : Prop :=
  m.key ∉ s.seenTiming ∧ ((lastTurnMs m now s).isSome ∨ (safeDuration m.ttft).isSome) ∧
    d.commitThrows = true

/-- The write of a cost that is not left out fails. -/
def Unpaid (dollars : Option ℚ) (d : Disk) (s : State) : Prop :=
  dollars.isSome ∧ ¬TooDear dollars s ∧ d.commitThrows = true

/-- Both amounts can go through, or neither is taken. -/
def Balanced (dollars : Option ℚ) (tokens : Totals) (d : Disk) (s : State) (id : Text) : Prop :=
  if (((s.ledger.usage id).getD .zero).add tokens).isSafe then
    d.commitThrows = false ∧ (Free dollars ∨ ¬TooDear dollars s)
  else Free dollars ∨ TooDear dollars s

def LoadFails (id : Text) (d : Disk) : Prop := isValidSessionId id = false ∨ d.loadThrows = true

def Met (x : Step State Input) : Prop :=
  match x.label with
  | .beginSession id own fallback => ¬LoadFails id own ∨ ¬LoadFails (js "default") fallback
  | .turnStart _ => True
  | .messageEnd m now d =>
    ∃ id, x.before.ledger.activeId = some id ∧
      ∀ dollars tokens, m.assistant → m.key ∉ x.before.seenMessages →
        chargeOf m = some (dollars, tokens) → ¬Stopped m now d.timing x.before →
        ¬Unpaid dollars d.cost x.before → Balanced dollars tokens d.usage x.before id
  | .noteOther d => x.before.ledger.activeId = none → d.found.costCents.getD 0 = 0

section Ledger

variable {l : Ledger} {id : Text} {snap : Snapshot} {d : Disk}

theorem activeId_of_current (active : current l = some (id, snap)) : l.activeId = some id := by
  obtain ⟨found, named, rest⟩ := Option.bind_eq_some_iff.mp active
  obtain ⟨value, -, same⟩ := Option.map_eq_some_iff.mp rest
  cases same
  exact named

theorem memory_of_current (active : current l = some (id, snap)) : l.memory id = some snap := by
  obtain ⟨found, named, rest⟩ := Option.bind_eq_some_iff.mp active
  obtain ⟨value, holds, same⟩ := Option.map_eq_some_iff.mp rest
  cases same
  exact holds

theorem current_of (named : l.activeId = some id) (holds : l.memory id = some snap) :
    current l = some (id, snap) := by
  simp [current, named, holds]

theorem activeSession_of (named : l.activeId = some id) (holds : (l.memory id).isSome) :
    activeSession l = id := by
  obtain ⟨snap, value⟩ := Option.isSome_iff_exists.mp holds
  simp [activeSession, current_of named value]

theorem requireActive_of (active : current l = some (id, snap)) :
    requireActive d l = (l, some (id, snap)) := by
  simp [requireActive, active]

theorem notePerf_of (active : current l = some (id, snap)) (fields : Snapshot → Snapshot) :
    notePerf fields d l =
      if d.commitThrows then (l, false)
      else ({ l with memory := Function.update l.memory id (some (fields snap)) }, true) := by
  simp only [notePerf, requireActive_of active]

theorem addProviderUsage_of (active : current l = some (id, snap)) (tokens : Totals) :
    (addProviderUsage tokens d l).1.usage =
        (if (((l.usage id).getD .zero).add tokens).isSafe then
          Function.update l.usage id (some (((l.usage id).getD .zero).add tokens)) else l.usage) ∧
      (addProviderUsage tokens d l).2 =
        ((((l.usage id).getD .zero).add tokens).isSafe && !d.commitThrows) ∧
      (addProviderUsage tokens d l).1.activeId = l.activeId ∧
      (∀ other, other ≠ id → (addProviderUsage tokens d l).1.memory other = l.memory other) ∧
      ∃ after, (addProviderUsage tokens d l).1.memory id = some after ∧
        after.costCents = snap.costCents := by
  have holds := memory_of_current active
  simp only [addProviderUsage, requireActive_of active]
  cases safe : (((l.usage id).getD .zero).add tokens).isSafe with
  | false => simp [holds]
  | true =>
    have still : current { l with
        usage := Function.update l.usage id (some (((l.usage id).getD .zero).add tokens)) } =
        some (id, snap) := active
    simp only [Bool.not_true, Bool.false_eq_true, if_false, if_true, notePerf_of still]
    cases d.commitThrows with
    | true => simp [holds]
    | false =>
      refine ⟨rfl, rfl, rfl, fun other ne => ?_, ?_⟩
      · simp [Function.update_of_ne ne]
      · simp

end Ledger

theorem costOf_setCost (id : Text) (total : ℚ) (costs : List (Text × ℚ)) :
    costOf (setCost id total costs) id = some total := by
  have last : ∀ kept : List (Text × ℚ), (∀ entry ∈ kept, entry.1 ≠ id) →
      costOf (kept ++ [(id, total)]) id = some total := by
    intro kept others
    have none_ : kept.find? (fun entry => decide (entry.1 = id)) = none := by
      apply find?_eq_none.mpr
      simpa using others
    simp [costOf, find?_append, none_]
  have others : ∀ entry ∈ costs.filter (fun entry => entry.1 ≠ id), entry.1 ≠ id := by simp
  simp only [setCost]
  split
  · next full =>
    cases kept : costs.filter (fun entry => entry.1 ≠ id) with
    | nil =>
      rw [kept] at full
      simp [sessionCostsMax] at full
    | cons first rest =>
      rw [kept] at others
      exact last rest fun entry mem => others entry (mem_cons_of_mem _ mem)
  · exact last _ others

theorem mem_setCost {id : Text} {total : ℚ} {costs : List (Text × ℚ)} {entry : Text × ℚ}
    (mem : entry ∈ setCost id total costs) (ne : entry.1 ≠ id) : entry ∈ costs := by
  have old : entry ∈ costs.filter (fun entry => entry.1 ≠ id) ++ [(id, total)] := by
    simp only [setCost] at mem
    split at mem
    · exact mem_of_mem_tail mem
    · exact mem
  rcases mem_append.mp old with kept | new
  · exact mem_of_mem_filter kept
  · rw [mem_singleton.mp new] at ne
    exact absurd rfl ne

/-- A session is active, and its snapshot in memory. -/
def Loaded (s : State) : Prop := ∀ id, s.ledger.activeId = some id → (s.ledger.memory id).isSome

/-- The running total grows by the amount, and no row and no other session changes. -/
structure Moved (amount : ℚ) (s t : State) : Prop where
  apart : Apart s t
  cost : t.sessionCostUsd = s.sessionCostUsd + amount
  usage : t.ledger.usage = s.ledger.usage
  seen : t.seenMessages = s.seenMessages
  loaded : Loaded s → Loaded t
  own : Own s → Own t

theorem Apart.refl (s : State) : Apart s s := ⟨rfl, fun _ _ => rfl, fun _ mem _ => mem⟩

theorem Apart.trans {r s t : State} (first : Apart r s) (second : Apart s t) : Apart r t where
  activeId := second.activeId.trans first.activeId
  memory other ne := by
    rw [second.memory other (first.activeId ▸ ne), first.memory other ne]
  costs entry mem ne := first.costs entry (second.costs entry mem (first.activeId ▸ ne)) ne

theorem Moved.refl (s : State) : Moved 0 s s where
  apart := .refl s
  cost := (add_zero _).symm
  usage := rfl
  seen := rfl
  loaded := id
  own := id

theorem Moved.trans {a b : ℚ} {r s t : State} (first : Moved a r s) (second : Moved b s t) :
    Moved (a + b) r t where
  apart := first.apart.trans second.apart
  cost := by rw [second.cost, first.cost, add_assoc]
  usage := second.usage.trans first.usage
  seen := second.seen.trans first.seen
  loaded := second.loaded ∘ first.loaded
  own := second.own ∘ first.own

theorem Moved.uncharged {s t : State} (moved : Moved 0 s t) : Uncharged s t :=
  ⟨moved.cost.trans (add_zero _), moved.usage⟩

section Delivery

variable {s : State} {id : Text} {snap : Snapshot}

theorem current_of_loaded (loaded : Loaded s) (named : s.ledger.activeId = some id) :
    ∃ snap, current s.ledger = some (id, snap) := by
  obtain ⟨snap, holds⟩ := Option.isSome_iff_exists.mp (loaded id named)
  exact ⟨snap, current_of named holds⟩

/-- A snapshot of the active session with the cost that goes with the running total. -/
theorem moved_of_commit (active : current s.ledger = some (id, snap)) (next : Snapshot)
    (t : State) (amount : ℚ)
    (ledger : t.ledger = { s.ledger with
      memory := Function.update s.ledger.memory id (some next) })
    (cost : t.sessionCostUsd = s.sessionCostUsd + amount)
    (seen : t.seenMessages = s.seenMessages)
    (costs : t.sessionCosts = s.sessionCosts ∧ amount = 0 ∧ next.costCents = snap.costCents ∨
      t.sessionCosts = setCost id t.sessionCostUsd s.sessionCosts) : Moved amount s t where
  apart := by
    have named := activeId_of_current active
    refine ⟨by rw [ledger], fun other ne => ?_, fun entry mem ne => ?_⟩
    · have differs : other ≠ id := fun same => ne (same ▸ named)
      simp [ledger, Function.update_of_ne differs]
    · have differs : entry.1 ≠ id := fun same => ne (same ▸ named)
      rcases costs with ⟨same, -, -⟩ | changed
      · rwa [same] at mem
      · rw [changed] at mem
        exact mem_setCost mem differs
  cost := cost
  usage := by rw [ledger]
  seen := seen
  loaded := by
    intro _ other named
    rw [ledger] at named ⊢
    cases (activeId_of_current active).symm.trans named
    simp
  own := by
    intro own other named
    rw [ledger] at named
    cases (activeId_of_current active).symm.trans named
    rcases costs with ⟨same, none_, kept⟩ | changed
    · have before := own id (activeId_of_current active)
      simp only [remembered, memory_of_current active, Option.map_some, Option.getD_some] at before
      simp [remembered, ledger, same, costIn, kept, cost, none_, before]
    · simp [remembered, changed, costOf_setCost]

theorem noteTiming_moved (active : current s.ledger = some (id, snap)) (m : Message) (now : Nat)
    (d : Disk) : Moved 0 s (noteTiming m now d s).1 := by
  have quiet : ∀ seen, Moved 0 s { s with seenTiming := seen } := fun seen =>
    ⟨⟨rfl, fun _ _ => rfl, fun _ mem _ => mem⟩, (add_zero _).symm, rfl, rfl,
      fun loaded => loaded, fun own => own⟩
  simp only [noteTiming, notePerf_of active]
  split
  · exact .refl s
  split
  · exact quiet _
  cases d.commitThrows with
  | true => exact .refl s
  | false => exact moved_of_commit active snap _ 0 rfl (add_zero _).symm rfl (.inl ⟨rfl, rfl, rfl⟩)

theorem noteTiming_stopped (active : current s.ledger = some (id, snap)) {m : Message} {now : Nat}
    {d : Disk} : (noteTiming m now d s).2 = true ↔ ¬Stopped m now d s := by
  simp only [noteTiming, notePerf_of active, Stopped]
  by_cases old : m.key ∈ s.seenTiming
  · simp [old]
  · cases last : lastTurnMs m now s <;> cases ttft : safeDuration m.ttft <;>
      cases d.commitThrows <;> simp [old]

/-- What the cost adds to the running total. -/
def added (dollars : Option ℚ) (s : State) : ℚ :=
  if maxSafe < centsOf (s.sessionCostUsd + dollars.getD 0) then 0 else dollars.getD 0

theorem noteCost_moved (active : current s.ledger = some (id, snap)) (dollars : Option ℚ)
    (d : Disk) :
    (noteCost dollars d s).2 = true ∧ Moved (added dollars s) s (noteCost dollars d s).1 ∧
        ¬Unpaid dollars d s ∨
      (noteCost dollars d s).2 = false ∧ Moved 0 s (noteCost dollars d s).1 := by
  cases dollars with
  | none => simp [noteCost, added, Unpaid, Moved.refl]
  | some amount =>
    simp only [noteCost, notePerf_of active, added, Option.getD_some]
    by_cases dear : maxSafe < centsOf (s.sessionCostUsd + amount)
    · simp [dear, Nat.not_le.mpr dear, Unpaid, TooDear, Moved.refl]
    · have safe : centsOf (s.sessionCostUsd + amount) ≤ maxSafe := Nat.le_of_not_lt dear
      rw [if_pos safe, if_neg dear]
      cases throws_ : d.commitThrows with
      | true => exact .inr ⟨rfl, .refl s⟩
      | false =>
        refine .inl ⟨rfl, moved_of_commit active _ _ amount rfl rfl rfl (.inr ?_), by
          simp [Unpaid, throws_]⟩
        have named : ∀ next, activeSession { s.ledger with
            memory := Function.update s.ledger.memory id (some next) } = id := by
          intro next
          have now : s.ledger.activeId = some id := activeId_of_current active
          exact activeSession_of now (by simp)
        simp only [Bool.false_eq_true, if_false, named]

/-- The last operation charges the tokens and marks the message, or does neither, or fails
between the two. -/
theorem noteUsage_cases (active : current s.ledger = some (id, snap)) (key : Key)
    (tokens : Totals) (d : Disk) (t : State) (result : t = noteUsage key tokens d s) :
    Apart s t ∧ (Loaded s → Loaded t) ∧ (Own s → Own t) ∧ t.sessionCostUsd = s.sessionCostUsd ∧
      t.ledger.usage = (if (((s.ledger.usage id).getD .zero).add tokens).isSafe then
        Function.update s.ledger.usage id (some (((s.ledger.usage id).getD .zero).add tokens))
        else s.ledger.usage) ∧
      t.seenMessages = (if (((s.ledger.usage id).getD .zero).add tokens).isSafe ∧
        d.commitThrows = false then key :: s.seenMessages else s.seenMessages) := by
  obtain ⟨usage, returns, activeId, others, after, holds, cents⟩ :=
    addProviderUsage_of (d := d) active tokens
  have named := activeId_of_current active
  have shape : t.ledger = (addProviderUsage tokens d s.ledger).1 ∧
      t.sessionCostUsd = s.sessionCostUsd ∧ t.sessionCosts = s.sessionCosts ∧
      t.seenMessages = if (addProviderUsage tokens d s.ledger).2 then key :: s.seenMessages
        else s.seenMessages := by
    rw [result, noteUsage]
    split
    · next failed => simp [failed]
    · next returned => simp [returned]
  obtain ⟨ledger, cost, costs, seen⟩ := shape
  refine ⟨⟨by rw [ledger, activeId], ?_, ?_⟩, ?_, ?_, cost, by rw [ledger, usage], ?_⟩
  · intro other ne
    rw [ledger, others other fun same => ne (same ▸ named)]
  · intro entry mem _
    rwa [costs] at mem
  · intro _ other now
    rw [ledger, activeId] at now
    cases named.symm.trans now
    simp [ledger, holds]
  · intro own other now
    rw [ledger, activeId] at now
    cases named.symm.trans now
    have before := own id named
    simp only [remembered, memory_of_current active, Option.map_some, Option.getD_some] at before
    simp [remembered, ledger, holds, costIn, cents, costs, cost, before]
  · rw [seen, returns]
    simp [Bool.and_eq_true]

theorem messageEnd_whole {m : Message} {now : Nat} {d : Disks} {t : State}
    (active : current s.ledger = some (id, snap)) (result : t = messageEnd m now d s)
    (met : Met ⟨s, .messageEnd m now d, t⟩) :
    Whole ⟨s, .messageEnd m now d, t⟩ ∧ (Loaded s → Loaded t) ∧ (Own s → Own t) := by
  obtain ⟨other, named, balanced⟩ := met
  cases (activeId_of_current active).symm.trans named
  -- what leaves the message unmarked moves nothing
  have unmarked : ∀ u, Moved 0 s u → t = u →
      Whole ⟨s, .messageEnd m now d, t⟩ ∧ (Loaded s → Loaded t) ∧ (Own s → Own t) := by
    rintro u moved rfl
    refine ⟨⟨moved.apart, ?_⟩, moved.loaded, moved.own⟩
    have none_ : charges m.key ⟨s, .messageEnd m now d, t⟩ = false := by
      simp [charges, moved.seen]
    rw [none_]
    exact moved.uncharged
  rw [messageEnd] at result
  split at result
  · exact unmarked _ (.refl s) result
  next fresh =>
  have assistant : m.assistant = true ∧ m.key ∉ s.seenMessages := by simpa using fresh
  have timed := noteTiming_moved active m now d.timing
  split at result
  · next after first =>
    rw [first] at timed
    exact unmarked _ timed result
  next after first =>
  have passed := (noteTiming_stopped active).mp (congrArg Prod.snd first)
  rw [first] at timed
  obtain ⟨snap', still⟩ : ∃ snap', current after.ledger = some (id, snap') := by
    refine current_of_loaded (timed.loaded fun other now_ => ?_) (timed.apart.activeId.trans named)
    cases named.symm.trans now_
    simp [memory_of_current active]
  split at result
  · exact unmarked _ timed result
  next dollars tokens charge =>
  have same : after.sessionCostUsd = s.sessionCostUsd := timed.uncharged.1
  rcases noteCost_moved still dollars d.cost with ⟨goes, costed, paid⟩ | ⟨stops, moved⟩
  swap
  · split at result
    · next last value =>
      rw [value] at moved
      exact unmarked _ (by simpa using timed.trans moved) result
    · next last value =>
      rw [value] at stops
      cases stops
  split at result
  · next last value =>
    rw [value] at goes
    cases goes
  next last value =>
  rw [value] at costed
  have moved : Moved (added dollars s) s last := by
    simpa [added, same] using timed.trans costed
  have unpaid : ¬Unpaid dollars d.cost s := by simpa [Unpaid, TooDear, same] using paid
  obtain ⟨snap'', ready⟩ := current_of_loaded (costed.loaded fun other now_ => by
    cases (activeId_of_current still).symm.trans now_
    simp [memory_of_current still]) (costed.apart.activeId.trans (activeId_of_current still))
  obtain ⟨apart, loaded, own, cost, usage, seen⟩ := noteUsage_cases ready m.key tokens d.usage t result
  rw [moved.usage] at usage seen
  have both := balanced dollars tokens assistant.1 assistant.2 charge passed unpaid
  rw [Balanced] at both
  refine ⟨⟨moved.apart.trans apart, ?_⟩, loaded ∘ moved.loaded, own ∘ moved.own⟩
  cases safe : (((s.ledger.usage id).getD .zero).add tokens).isSafe with
  | true =>
    simp only [safe, if_true, true_and] at both usage seen
    have all : added dollars s = dollars.getD 0 := by
      simp only [added]
      rcases both.2 with free | cheap
      · simp [show dollars.getD 0 = 0 from free]
      · exact if_neg cheap
    have marks : charges m.key ⟨s, .messageEnd m now d, t⟩ = true := by
      simp [charges, assistant.2, seen, both.1]
    rw [marks]
    exact ⟨id, dollars, tokens, named, charge, by rw [cost, moved.cost, all], usage⟩
  | false =>
    simp only [safe, Bool.false_eq_true, if_false, false_and] at both usage seen
    have none_ : added dollars s = 0 := by
      simp only [added]
      rcases both with free | dear
      · simp [show dollars.getD 0 = 0 from free]
      · exact if_pos dear
    have leaves : charges m.key ⟨s, .messageEnd m now d, t⟩ = false := by
      simp [charges, seen, moved.seen]
    rw [leaves]
    exact ⟨by rw [cost, moved.cost, none_, add_zero], usage⟩

end Delivery

def RowsKept (l m : Ledger) : Prop := ∀ id row, l.usage id = some row → m.usage id = some row

theorem RowsKept.trans {l m n : Ledger} (first : RowsKept l m) (second : RowsKept m n) :
    RowsKept l n :=
  fun id row holds => second id row (first id row holds)

theorem adoptUsage_rows (id : Text) (found : Snapshot) (l : Ledger) :
    RowsKept l (adoptUsage id found l) := by
  intro other row holds
  cases value : l.usage id with
  | some _ => simpa [adoptUsage, value] using holds
  | none =>
    have ne : other ≠ id := fun same => by simp [← same, holds] at value
    simpa [adoptUsage, value, Function.update_of_ne ne] using holds

theorem adoptUsage_memory (id : Text) (found : Snapshot) (l : Ledger) :
    (adoptUsage id found l).memory = l.memory := by
  simp only [adoptUsage]
  split <;> rfl

theorem load_rows (id : Text) (found : Snapshot) (throws_ : Bool) (l : Ledger) :
    RowsKept l (load id found throws_ l).1 := by
  simp only [load]
  split
  · exact fun _ _ holds => holds
  · exact adoptUsage_rows id found { l with memory := Function.update l.memory id (some found) }

theorem load_valid {id : Text} (valid : isValidSessionId id = true) (found : Snapshot)
    (throws_ : Bool) (l : Ledger) :
    current (load id found throws_ l).1 = some (id, found) ∧
      (load id found throws_ l).2 = !throws_ := by
  simp [load, valid, current, adoptUsage_memory]

theorem load_returns {id : Text} {d : Disk} (l : Ledger) :
    (load id d.found d.loadThrows l).2 = true ↔ ¬LoadFails id d := by
  cases valid : isValidSessionId id with
  | false => simp [load, LoadFails, valid]
  | true => simp [load_valid valid, LoadFails, valid]

/-- A ledger operation that comes before any session loads the session `default`. -/
structure Idle (s : State) : Prop where
  cost : s.sessionCostUsd = 0
  costs : s.sessionCosts = []

structure Inv (s : State) : Prop where
  loaded : Loaded s
  own : Own s
  idle : s.ledger.activeId = none → Idle s

theorem inv_of_current {s : State} {id : Text} {snap : Snapshot}
    (active : current s.ledger = some (id, snap))
    (cost : s.sessionCostUsd = (costOf s.sessionCosts id).getD (costIn snap)) :
    Inv s where
  loaded other named := by
    cases (activeId_of_current active).symm.trans named
    simp [memory_of_current active]
  own other named := by
    cases (activeId_of_current active).symm.trans named
    simp [remembered, memory_of_current active, cost]
  idle none_ := by
    rw [activeId_of_current active] at none_
    cases none_

theorem loadSnapshot_keeps (id : Text) (found : Snapshot) (throws_ : Bool) (s : State) :
    (loadSnapshot id found throws_ s).1.sessionCosts = s.sessionCosts ∧
      (loadSnapshot id found throws_ s).1.seenMessages = s.seenMessages ∧
      RowsKept s.ledger (loadSnapshot id found throws_ s).1.ledger := by
  have rows := load_rows id found throws_ s.ledger
  simp only [loadSnapshot]
  split
  · exact ⟨rfl, rfl, rows⟩
  · exact ⟨rfl, rfl, rows⟩

theorem loadSnapshot_inv (id : Text) (d : Disk) (s : State) :
    ((loadSnapshot id d.found d.loadThrows s).2 = true ↔ ¬LoadFails id d) ∧
      ((loadSnapshot id d.found d.loadThrows s).2 = true →
        Inv (loadSnapshot id d.found d.loadThrows s).1) := by
  have returns := @load_returns id d s.ledger
  simp only [loadSnapshot]
  split
  · next returned =>
    refine ⟨by simpa [returned] using returns, fun _ => ?_⟩
    have valid : isValidSessionId id = true := by
      simpa using fun invalid => returns.mp returned (.inl invalid)
    exact inv_of_current (load_valid valid d.found d.loadThrows s.ledger).1 rfl
  · next failed =>
    refine ⟨by simpa [failed] using returns, fun bad => ?_⟩
    cases bad

theorem beginSession_keeps (id : Text) (own fallback : Disk) (s : State) :
    (beginSession id own fallback s).sessionCosts = s.sessionCosts ∧
      (beginSession id own fallback s).seenMessages = s.seenMessages ∧
      RowsKept s.ledger (beginSession id own fallback s).ledger := by
  have first := loadSnapshot_keeps id own.found own.loadThrows { s with turnStartedAt := none }
  simp only [beginSession]
  split
  · exact first
  · have second := loadSnapshot_keeps (js "default") fallback.found fallback.loadThrows
      (loadSnapshot id own.found own.loadThrows { s with turnStartedAt := none }).1
    exact ⟨second.1.trans first.1, second.2.1.trans first.2.1, first.2.2.trans second.2.2⟩

theorem beginSession_inv {id : Text} {own fallback : Disk}
    (works : ¬LoadFails id own ∨ ¬LoadFails (js "default") fallback) (s : State) :
    Inv (beginSession id own fallback s) := by
  have first := loadSnapshot_inv id own { s with turnStartedAt := none }
  simp only [beginSession]
  split
  · next returned => exact first.2 returned
  · next failed =>
    have second := loadSnapshot_inv (js "default") fallback
      (loadSnapshot id own.found own.loadThrows { s with turnStartedAt := none }).1
    apply second.2
    apply second.1.mpr
    rcases works with here | there
    · exact absurd (first.1.mpr here) failed
    · exact there

theorem noteOther_inv {s : State} (inv : Inv s) (d : Disk)
    (fresh : s.ledger.activeId = none → d.found.costCents.getD 0 = 0) :
    Inv { s with ledger := (notePerf id d s.ledger).1 } ∧
      RowsKept s.ledger (notePerf id d s.ledger).1 := by
  -- noting changes nothing once a session is active
  have settled : ∀ (l : Ledger) (name : Text) (snap : Snapshot),
      current l = some (name, snap) → (notePerf id d l).1 = l := by
    intro l name snap active
    rw [notePerf_of active]
    split
    · rfl
    · have same : Function.update l.memory name (some snap) = l.memory :=
        (memory_of_current active) ▸ Function.update_eq_self name l.memory
      simp [same]
  cases active : s.ledger.activeId with
  | some name =>
    obtain ⟨snap, now⟩ := current_of_loaded inv.loaded active
    rw [settled _ name snap now]
    exact ⟨inv, fun _ _ holds => holds⟩
  | none =>
    have idle := inv.idle active
    have nothing : current s.ledger = none := by simp [current, active]
    obtain ⟨begun, returns⟩ := @load_valid (js "default") rfl d.found d.loadThrows s.ledger
    have rows := load_rows (js "default") d.found d.loadThrows s.ledger
    have result : (notePerf id d s.ledger).1 =
        (load (js "default") d.found d.loadThrows s.ledger).1 := by
      have found := settled _ _ _ begun
      simp only [notePerf, requireActive, begun] at found
      simp only [notePerf, requireActive, nothing, returns, begun]
      cases throws_ : d.loadThrows with
      | true => simp
      | false => simpa [throws_] using found
    rw [result]
    refine ⟨inv_of_current begun ?_, rows⟩
    simp [idle.cost, idle.costs, costOf, costIn, fresh active]

theorem inv_start {s : State} (first : system.start s) : Inv s where
  loaded id named := by
    rw [first.activeId] at named
    cases named
  own id named := by
    rw [first.activeId] at named
    cases named
  idle _ := ⟨first.sessionCostUsd, first.sessionCosts⟩

theorem step_whole {s t : State} {i : Input} (moves : system.step s i t) (met : Met ⟨s, i, t⟩)
    (inv : Inv s) : Inv t ∧ Whole ⟨s, i, t⟩ := by
  obtain rfl : t = step s i := moves
  cases i with
  | beginSession id own fallback =>
    have keeps := beginSession_keeps id own fallback s
    exact ⟨beginSession_inv met s, keeps.1, keeps.2.2⟩
  | turnStart now =>
    have idle : s.ledger.activeId = none → Idle (step s (.turnStart now)) := fun none_ =>
      ⟨(inv.idle none_).cost, (inv.idle none_).costs⟩
    exact ⟨⟨inv.loaded, inv.own, idle⟩, rfl, fun _ _ holds => holds⟩
  | messageEnd m now d =>
    have begun := met
    obtain ⟨id, named, -⟩ := begun
    obtain ⟨snap, active⟩ := current_of_loaded inv.loaded named
    obtain ⟨whole, loaded, own⟩ := messageEnd_whole active rfl met
    refine ⟨⟨loaded inv.loaded, own inv.own, fun none_ => ?_⟩, whole⟩
    have still : (messageEnd m now d s).ledger.activeId = some id := whole.1.activeId.trans named
    cases still.symm.trans none_
  | noteOther d =>
    have kept := noteOther_inv inv d met
    exact ⟨kept.1, rfl, kept.2⟩

theorem noteTiming_seen (m : Message) (now : Nat) (d : Disk) (s : State) :
    (noteTiming m now d s).1.seenMessages = s.seenMessages := by
  simp only [noteTiming]
  split
  · rfl
  split
  · rfl
  split <;> rfl

theorem noteCost_seen (dollars : Option ℚ) (d : Disk) (s : State) :
    (noteCost dollars d s).1.seenMessages = s.seenMessages := by
  cases dollars with
  | none => rfl
  | some amount =>
    simp only [noteCost]
    split
    · split <;> rfl
    · rfl

theorem noteUsage_seen (key other : Key) (tokens : Totals) (d : Disk) {s : State}
    (seen : other ∈ s.seenMessages) : other ∈ (noteUsage key tokens d s).seenMessages := by
  simp only [noteUsage]
  split
  · exact seen
  · exact mem_cons_of_mem _ seen

theorem step_seen {s t : State} {i : Input} (moves : system.step s i t) {key : Key}
    (seen : key ∈ s.seenMessages) : key ∈ t.seenMessages := by
  obtain rfl : t = step s i := moves
  cases i with
  | beginSession id own fallback =>
    simpa [step, (beginSession_keeps id own fallback s).2.1] using seen
  | turnStart now => exact seen
  | noteOther d => exact seen
  | messageEnd m now d =>
    rw [step, messageEnd]
    split
    · exact seen
    have timed := noteTiming_seen m now d.timing s
    split
    · next value =>
      rw [value] at timed
      rwa [timed]
    next after value =>
    rw [value] at timed
    split
    · rwa [timed]
    next dollars tokens charge =>
    have paid := noteCost_seen dollars d.cost after
    split
    · next last =>
      rw [last] at paid
      rwa [paid, timed]
    · next last =>
      rw [last] at paid
      exact noteUsage_seen m.key key tokens d.usage (by rwa [paid, timed])

theorem charged_once {s t : State} {steps : List (Step State Input)} (run : system.Run s steps t)
    (key : Key) : steps.countP (charges key) ≤ 1 := by
  have grown := run.countP_le (fun u => if key ∈ u.seenMessages then 1 else 0) (charges key) (by
    intro m i n moves
    by_cases before : key ∈ m.seenMessages
    · have after := step_seen moves before
      cases i <;> simp [charges, before, after]
    · by_cases after : key ∈ n.seenMessages
      · simp only [before, after, if_false, if_true]
        split <;> omega
      · cases i <;> simp [charges, before, after])
  have most : (if key ∈ t.seenMessages then 1 else 0) ≤ 1 := by split <;> omega
  omega

/-- As long as every step meets the condition, each message charges the session once and whole. -/
theorem messages_once_whole {s t : State} {steps : List (Step State Input)}
    (first : system.start s) (run : system.Run s steps t) (met : ∀ x ∈ steps, Met x) :
    (∀ key, steps.countP (charges key) ≤ 1) ∧ (∀ x ∈ steps, Whole x) ∧ Own t := by
  refine ⟨charged_once run, ?_, ?_⟩
  · exact run.steps_of Inv Met Whole (inv_start first)
      (fun m i n moves here inv => (step_whole moves here inv).1)
      (fun m i n moves here inv => (step_whole moves here inv).2) met
  · have last := run.invariant_of Inv Met (inv_start first)
      (fun m i n moves here inv => (step_whole moves here inv).1) met
    exact last.own

def atRest : State := ⟨⟨fun _ => none, fun _ => none, none⟩, 0, [], none, [], []⟩

theorem atRest_start : system.start atRest := ⟨rfl, rfl, rfl, rfl, rfl, rfl, rfl⟩

def emptyDisk : Disk := ⟨⟨none, none, none, none, none⟩, false, false⟩

def fullDisk : Disk := { emptyDisk with commitThrows := true }

def dollarMessage : Message :=
  ⟨true, .response [114], .absent, .absent,
    some ⟨.number 1, .absent, .number 10, .absent, .absent, .absent⟩⟩

def delivered (usage : Disk) : Input := .messageEnd dollarMessage 0 ⟨emptyDisk, emptyDisk, usage⟩

def begun : Input := .beginSession [97] emptyDisk emptyDisk

def once : List Input := [begun, delivered emptyDisk, delivered emptyDisk]

theorem begun_met (s : State) : Met ⟨s, begun, step s begun⟩ := by
  apply Or.inl
  rintro (invalid | throws_)
  · exact absurd invalid (by decide)
  · cases throws_

theorem delivered_met {s : State} (named : s.ledger.activeId = some [97]) {d : Disk}
    (fits : dollarMessage.key ∉ s.seenMessages →
      Balanced (some 1) ⟨10, 0, 0, 0⟩ d s [97]) :
    Met ⟨s, delivered d, step s (delivered d)⟩ := by
  refine ⟨[97], named, fun dollars tokens _ fresh charge _ _ => ?_⟩
  have amounts : chargeOf dollarMessage = some (some 1, ⟨10, 0, 0, 0⟩) := by decide
  cases amounts.symm.trans charge
  exact fits fresh

theorem messages_once_whole_delivered :
    ∃ t, system.Run atRest (traceOf step atRest once) t ∧
      (∀ x ∈ traceOf step atRest once, Met x) ∧ t.sessionCostUsd = 1 ∧
      ((∀ key, (traceOf step atRest once).countP (charges key) ≤ 1) ∧
        (∀ x ∈ traceOf step atRest once, Whole x) ∧ Own t) := by
  have run := run_traceOf (M := system) (fun _ _ => rfl) atRest once
  have met : ∀ x ∈ traceOf step atRest once, Met x := by
    simp only [once, traceOf, forall_mem_cons, not_mem_nil, false_implies, implies_true,
      and_true]
    refine ⟨begun_met _, delivered_met rfl fun _ => ?_, delivered_met ?_ fun fresh => ?_⟩
    · unfold Balanced
      rw [if_pos (by decide)]
      exact ⟨rfl, .inr (by unfold TooDear; decide +kernel)⟩
    · decide +kernel
    · exact absurd fresh (by decide +kernel)
  exact ⟨_, run, met, by decide +kernel, messages_once_whole atRest_start run met⟩

/-- The write of the tokens fails once: both deliveries charge the dollar and the tokens. -/
theorem message_charged_twice :
    ∃ inputs t, system.start atRest ∧ system.Run atRest (traceOf step atRest inputs) t ∧
      inputs = [begun, delivered fullDisk, delivered emptyDisk] ∧
      t.sessionCostUsd = 2 ∧ t.ledger.usage [97] = some ⟨20, 0, 0, 0⟩ ∧
      ¬∀ x ∈ traceOf step atRest inputs, Whole x := by
  refine ⟨_, _, atRest_start, run_traceOf (M := system) (fun _ _ => rfl) atRest _, rfl,
    by decide +kernel, by decide +kernel, fun whole => ?_⟩
  have second := whole _ (mem_cons_of_mem _ (mem_cons_self ..))
  have unmarked : charges dollarMessage.key ⟨step atRest begun, delivered fullDisk,
      step (step atRest begun) (delivered fullDisk)⟩ = false := by decide +kernel
  have uncharged := second.2
  rw [if_neg (by simpa using unmarked)] at uncharged
  exact absurd uncharged.1 (by decide +kernel)

end Ultrathink.Guarantees.MessagesOnce
