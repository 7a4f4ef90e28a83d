import Ultrathink.Source.Auth.Penalty

/-!
# What a penalty answer depends on

With a clock that does not run backwards, and room in the table for every key that fails, the
answers of a key are those it would have got alone, up to the level that a failure without a
block reports; and they are exactly those where no key fails again after it lost a positive
level to pruning.
-/

namespace Ultrathink.Guarantees.PenaltyIndependence

open List Library JsText Runs Source.Auth.Penalty

variable {o : PenaltyOptions}

/-- The clock does not run backwards, and counts from the epoch. -/
def Clocked (calls : List Call) : Prop :=
  (∀ c ∈ calls, 0 ≤ c.at_) ∧ calls.Pairwise fun c d => c.at_ ≤ d.at_

/-- The table had room whenever a key failed. -/
def Tracked (o : PenaltyOptions) (calls : List Call) : Prop :=
  ∀ x ∈ traceOf (step o) OrderedMap.empty calls, x.label.method = .fail →
    (fail o x.label.key x.label.at_ x.before).2.tracked = true

def own (key : Text) (calls : List Call) : List Call := calls.filter fun c => c.key = key

/-- Each answer is the one that the key would have got with its own calls alone. -/
def Independent (o : PenaltyOptions) (calls : List Call) : Prop :=
  ∀ first c rest, calls = first ++ c :: rest →
    answer o first c = answer o (own c.key first) c

/-- No key fails again after pruning dropped its entry at a positive level. -/
def Unforgotten (o : PenaltyOptions) (calls : List Call) : Prop :=
  ∀ first c rest, calls = first ++ c :: rest → ∀ key e, (after o first).get? key = some e →
    0 < e.level → (after o (first ++ [c])).get? key = none →
    ∀ d ∈ rest, d.key = key → d.method ≠ .fail

/-- The answers agree, but for the level of a failure that neither meets a block nor begins one. -/
def Alike : Answer → Answer → Prop
  | .failed a, .failed b => a.blockedSec = b.blockedSec ∧ a.escalated = b.escalated ∧
      a.tracked = b.tracked ∧ (a.blockedSec ≠ 0 ∨ a.escalated = true → a.level = b.level)
  | .blocked a, .blocked b => a = b
  | _, _ => False

variable {t s : ℚ} {e : Entry} {c : Call} {alone entry : Option Entry}
  {calls rest first : List Call} {key : Text}

theorem windowOf_mono (le : s ≤ t) : windowOf o s ≤ windowOf o t :=
  Int.floor_le_floor (by gcongr; exact o.windowPos.le)

/-- Nothing of the entry is alive at `t` or later, but perhaps its level is written still. -/
structure Dead (o : PenaltyOptions) (e : Entry) (t : ℚ) : Prop where
  unblocked : e.blockedUntil ≤ t
  decayed : 0 < e.level → o.decayMs < t - e.blockedUntil
  past : e.window < windowOf o t

theorem Dead.later (dead : Dead o e s) (le : s ≤ t) : Dead o e t where
  unblocked := dead.unblocked.trans le
  decayed := fun positive => by linarith [dead.decayed positive]
  past := dead.past.trans_le (windowOf_mono le)

/-- What holds of every entry that stands at `t`. -/
structure Sound (o : PenaltyOptions) (e : Entry) (t : ℚ) : Prop where
  window : e.window ≤ windowOf o t
  fresh : e.level = 0 → e.blockedUntil = 0

theorem Sound.later (sound : Sound o e s) (le : s ≤ t) : Sound o e t :=
  ⟨sound.window.trans (windowOf_mono le), sound.fresh⟩

theorem dead_of_isDead (sound : Sound o e t) (dead : isDead o t e = true) :
    Dead o e t := by
  unfold isDead at dead
  simp only [Bool.and_eq_true, Bool.not_eq_true', decide_eq_false_iff_not, Bool.and_eq_false_iff,
    not_lt, not_le, decide_eq_true_eq] at dead
  obtain ⟨⟨unblocked, level⟩, past⟩ := dead
  refine ⟨unblocked, fun positive => ?_, lt_of_le_of_ne sound.window past⟩
  rcases level with none_ | over_
  · omega
  · exact over_

theorem sound_newEntry : Sound o (newEntry o t) t := ⟨le_rfl, fun _ => rfl⟩

theorem counted_fields (t : ℚ) (e : Entry) :
    (counted o t e).window = windowOf o t ∧ (counted o t e).level = e.level ∧
      (counted o t e).blockedUntil = e.blockedUntil := by
  unfold counted
  split
  · exact ⟨rfl, rfl, rfl⟩
  · next same => exact ⟨not_not.mp same, rfl, rfl⟩

theorem escalate_level_pos (t : ℚ) (e : Entry) : 0 < (escalate o t e).level := by
  unfold escalate
  dsimp only
  split <;> omega

theorem sound_failEntry (sound : Sound o e t) :
    Sound o (failEntry o t e).1 t := by
  obtain ⟨window, level, blockedUntil⟩ := counted_fields (o := o) t e
  unfold failEntry
  dsimp only
  split
  · refine ⟨window.le, fun none_ => ?_⟩
    rw [blockedUntil]
    exact sound.fresh (level.symm.trans none_)
  · exact ⟨window.le, fun none_ => absurd none_ (escalate_level_pos t (counted o t e)).ne'⟩

theorem failEntry_of_past (past : e.window < windowOf o t) :
    failEntry o t e =
      ({ e with window := windowOf o t, count := 1 }, ⟨0, false, e.level, true⟩) := by
  have first : counted o t e = { e with window := windowOf o t, count := 1 } := if_pos past.ne
  rw [failEntry, first, if_pos o.failuresPos]

theorem failEntry_newEntry (t : ℚ) :
    failEntry o t (newEntry o t) = (⟨windowOf o t, 1, 0, 0⟩, ⟨0, false, 0, true⟩) := by
  have first : counted o t (newEntry o t) = ⟨windowOf o t, 1, 0, 0⟩ :=
    if_neg fun other => other rfl
  rw [failEntry, first, if_pos o.failuresPos]

/-- The entry as it is written anew after the table forgot its level. -/
def forgotten (e : Entry) : Entry := { e with level := 0, blockedUntil := 0 }

/-- At `t` a key has these entries in the table and alone. -/
inductive Seen (o : PenaltyOptions) (t : ℚ) : Option Entry → Option Entry → Prop
  | same (entry : Option Entry) (sound : ∀ e ∈ entry, Sound o e t) : Seen o t entry entry
  | pruned (e : Entry) (dead : Dead o e t) (sound : Sound o e t) : Seen o t none (some e)
  | forgot (e : Entry) (positive : 0 < e.level) (decayed : o.decayMs < t - e.blockedUntil)
      (window : e.window ≤ windowOf o t) : Seen o t (some (forgotten e)) (some e)

theorem Seen.later {s t : ℚ} {entry alone : Option Entry} (seen : Seen o s entry alone)
    (le : s ≤ t) : Seen o t entry alone := by
  cases seen with
  | same _ sound => exact .same entry fun e mem => (sound e mem).later le
  | pruned e dead sound => exact .pruned e (dead.later le) (sound.later le)
  | forgot e positive decayed window =>
    exact .forgot e positive (by linarith) (window.trans (windowOf_mono le))

/-- The table lost a level that is written still. -/
def Lost (entry alone : Option Entry) : Prop :=
  entry = none ∧ ∃ e, alone = some e ∧ 0 < e.level

theorem alike_refl (answer : Answer) : Alike answer answer := by
  cases answer with
  | failed => exact ⟨rfl, rfl, rfl, fun _ => rfl⟩
  | blocked => rfl

/-- A failure of the key, seen in the table and alone. -/
structure FailsAlike (o : PenaltyOptions) (t : ℚ) (entry alone : Option Entry) : Prop where
  seen : Seen o t (some (failKey o t entry).1) (some (failKey o t alone).1)
  alike : Alike (.failed (failKey o t entry).2) (.failed (failKey o t alone).2)
  lost : Lost entry alone → (failKey o t entry).2 ≠ (failKey o t alone).2

theorem sound_failKey (sound : ∀ e ∈ entry, Sound o e t) :
    Sound o (failKey o t entry).1 t := by
  cases entry with
  | none => exact sound_failEntry sound_newEntry
  | some e =>
    dsimp only [failKey]
    split
    · exact sound e rfl
    · exact sound_failEntry (sound e rfl)

theorem fails_same (sound : ∀ e ∈ entry, Sound o e t) :
    FailsAlike o t entry entry where
  seen := by
    refine .same _ fun e mem => ?_
    obtain rfl := Option.mem_some_iff.mp mem
    exact sound_failKey sound
  alike := alike_refl _
  lost := by
    rintro ⟨rfl, e, found, -⟩
    cases found

theorem fails_pruned (dead : Dead o e t) (sound : Sound o e t) :
    FailsAlike o t none (some e) := by
  have table : failKey o t none = (⟨windowOf o t, 1, 0, 0⟩, ⟨0, false, 0, true⟩) :=
    failEntry_newEntry t
  have alone : failKey o t (some e) =
      ({ e with window := windowOf o t, count := 1 }, ⟨0, false, e.level, true⟩) := by
    rw [failKey, if_neg (not_lt.mpr dead.unblocked), failEntry_of_past dead.past]
  constructor
  · rw [table, alone]
    rcases Nat.eq_zero_or_pos e.level with none_ | positive
    · rw [none_, sound.fresh none_]
      refine .same _ fun d mem => ?_
      obtain rfl := Option.mem_some_iff.mp mem
      exact ⟨le_rfl, fun _ => rfl⟩
    · exact .forgot { e with window := windowOf o t, count := 1 } positive (dead.decayed positive)
        le_rfl
  · rw [table, alone]
    exact ⟨rfl, rfl, rfl, by simp⟩
  · rintro ⟨-, d, found, positive⟩ same
    obtain rfl := Option.some.inj found
    rw [table, alone] at same
    have level := congrArg Failed.level same
    simp only at level
    omega

theorem counted_forgotten (t : ℚ) (e : Entry) :
    counted o t (forgotten e) = forgotten (counted o t e) := by
  unfold counted forgotten
  split <;> rfl

theorem escalate_forgotten (decayed : o.decayMs < t - e.blockedUntil) :
    escalate o t (forgotten e) = escalate o t e := by
  have table : isQuiet o t (forgotten e) = true := by simp [isQuiet, forgotten]
  have alone : isQuiet o t e = true := by simp [isQuiet, decayed]
  unfold escalate
  rw [table, alone]
  rfl

theorem fails_forgot (nonneg : 0 ≤ t) (positive : 0 < e.level)
    (decayed : o.decayMs < t - e.blockedUntil) :
    FailsAlike o t (some (forgotten e)) (some e) := by
  have decay := o.decayPos
  obtain ⟨window, level, blockedUntil⟩ := counted_fields (o := o) t e
  have table : failKey o t (some (forgotten e)) = failEntry o t (forgotten e) :=
    if_neg (not_lt.mpr nonneg)
  have alone : failKey o t (some e) = failEntry o t e := if_neg (by linarith)
  have stillDecayed : o.decayMs < t - (counted o t e).blockedUntil := by rwa [blockedUntil]
  constructor
  · rw [table, alone, failEntry, failEntry, counted_forgotten]
    dsimp only
    by_cases few : (counted o t e).count ≤ o.failuresPerWindow
    · rw [if_pos few, if_pos (show (forgotten (counted o t e)).count ≤ _ from few)]
      exact .forgot _ (level ▸ positive) stillDecayed window.le
    · rw [if_neg few, if_neg (show ¬(forgotten (counted o t e)).count ≤ _ from few),
        escalate_forgotten stillDecayed]
      refine .same _ fun d mem => ?_
      obtain rfl := Option.mem_some_iff.mp mem
      exact ⟨window.le, fun none_ => absurd none_ (escalate_level_pos t (counted o t e)).ne'⟩
  · rw [table, alone, failEntry, failEntry, counted_forgotten]
    dsimp only
    by_cases few : (counted o t e).count ≤ o.failuresPerWindow
    · rw [if_pos few, if_pos (show (forgotten (counted o t e)).count ≤ _ from few)]
      exact ⟨rfl, rfl, rfl, by simp⟩
    · rw [if_neg few, if_neg (show ¬(forgotten (counted o t e)).count ≤ _ from few),
        escalate_forgotten stillDecayed]
      exact alike_refl _
  · rintro ⟨none_, -⟩
    cases none_

theorem failsAlike (nonneg : 0 ≤ t) (seen : Seen o t entry alone) : FailsAlike o t entry alone := by
  cases seen with
  | same _ sound => exact fails_same sound
  | pruned e dead sound => exact fails_pruned dead sound
  | forgot e positive decayed _ => exact fails_forgot nonneg positive decayed

theorem blockedKey_alike (nonneg : 0 ≤ t) (seen : Seen o t entry alone) :
    blockedKey t entry = blockedKey t alone := by
  cases seen with
  | same => rfl
  | pruned e dead => exact (if_neg (not_lt.mpr dead.unblocked)).symm
  | forgot e _ decayed _ =>
    have decay := o.decayPos
    have table : blockedKey t (some (forgotten e)) = 0 := if_neg (not_lt.mpr nonneg)
    have alone : blockedKey t (some e) = 0 := if_neg (by linarith)
    rw [table, alone]

theorem Seen.prune (seen : Seen o t (some e) alone) (dead : isDead o t e = true) :
    Seen o t none alone := by
  cases seen with
  | same _ sound => exact .pruned e (dead_of_isDead (sound e rfl) dead) (sound e rfl)
  | forgot d positive decayed window =>
    have decay := o.decayPos
    have past : d.window ≠ windowOf o t := by
      unfold isDead at dead
      simp only [Bool.and_eq_true] at dead
      exact of_decide_eq_true dead.2
    refine .pruned d ⟨by linarith, fun _ => decayed, lt_of_le_of_ne window past⟩
      ⟨window, fun none_ => ?_⟩
    omega

theorem after_snoc (o : PenaltyOptions) (calls : List Call) (c : Call) :
    after o (calls ++ [c]) = (call o (after o calls) c).1 := runInputs_append _ _ _ _

theorem call_get? (entries : Entries) (c : Call) (key : Text)
    (tracked : c.method = .fail → (fail o c.key c.at_ entries).2.tracked = true) :
    (c.key = key ∧ c.method = .fail ∧
        (call o entries c).1.get? key = some (failKey o c.at_ (entries.get? key)).1) ∨
      (¬(c.key = key ∧ c.method = .fail) ∧ (call o entries c).1.get? key = entries.get? key) ∨
      (c.key ≠ key ∧ ∃ e, entries.get? key = some e ∧ isDead o c.at_ e = true ∧
        (call o entries c).1.get? key = none) := by
  cases method : c.method with
  | blockedSec =>
    refine .inr (.inl ⟨by simp, ?_⟩)
    simp only [call, method]
  | fail =>
    simp only [call, method]
    by_cases same : c.key = key
    · left
      obtain ⟨here, -⟩ := fail_own (tracked method)
      rw [same] at here
      exact ⟨same, trivial, by rw [same]; exact here⟩
    · right
      rcases fail_other (o := o) (fun eq => same eq.symm : key ≠ c.key) c.at_ entries with
        kept | dropped
      · exact .inl ⟨fun both => same both.1, kept⟩
      · exact .inr ⟨same, dropped⟩

theorem Clocked.init (clocked : Clocked (calls ++ [c])) :
    Clocked calls ∧ 0 ≤ c.at_ ∧ ∀ d ∈ calls, d.at_ ≤ c.at_ := by
  obtain ⟨nonneg, order⟩ := clocked
  obtain ⟨before, -, last⟩ := pairwise_append.mp order
  exact ⟨⟨fun d mem => nonneg d (mem_append_left _ mem), before⟩, nonneg c (by simp),
    fun d mem => last d mem c (mem_singleton_self c)⟩

theorem Tracked.front (tracked : Tracked o (first ++ rest)) :
    Tracked o first := by
  intro x mem
  apply tracked x
  rw [traceOf_append]
  exact mem_append_left _ mem

theorem Tracked.init (tracked : Tracked o (calls ++ [c])) :
    Tracked o calls ∧
      (c.method = .fail → (fail o c.key c.at_ (after o calls)).2.tracked = true) := by
  refine ⟨tracked.front, tracked ⟨after o calls, c, step o (after o calls) c⟩ ?_⟩
  rw [traceOf_append]
  exact mem_append_right _ mem_cons_self

theorem own_snoc_mine (mine : c.key = key) :
    own key (calls ++ [c]) = own key calls ++ [c] := by
  simp [own, mine]

theorem own_snoc_other (other : c.key ≠ key) :
    own key (calls ++ [c]) = own key calls := by
  simp [own, other]

theorem own_tracked (key : Text) (calls : List Call) (t : ℚ) :
    (fail o key t (after o (own key calls))).2.tracked = true := by
  have others : ∀ k, k ≠ key → (after o (own key calls)).get? k = none := by
    induction calls using List.reverseRecOn with
    | nil => exact fun k _ => rfl
    | append_singleton calls c ih =>
      intro k other
      by_cases mine : c.key = key
      · rw [own_snoc_mine mine, after_snoc, call]
        split
        · rcases fail_other (o := o) (mine ▸ other : k ≠ c.key) c.at_ (after o (own key calls))
            with kept | ⟨e, found, -, -⟩
          · exact kept.trans (ih k other)
          · rw [ih k other] at found
            cases found
        · exact ih k other
      · rw [own_snoc_other mine]
        exact ih k other
  unfold fail
  cases found : (after o (own key calls)).get? key with
  | some e =>
    dsimp only
    split
    · rfl
    · exact failEntry_tracked t e
  | none =>
    have empty : (after o (own key calls)).size = 0 := by
      rw [OrderedMap.size, length_eq_zero_iff]
      apply eq_nil_iff_forall_not_mem.mpr
      rintro ⟨k, e⟩ mem
      have there := (OrderedMap.get?_eq_some_iff _ k e).mpr mem
      by_cases mine : k = key
      · rw [mine, found] at there
        cases there
      · rw [others k mine] at there
        cases there
    have pos := o.keysPos
    have room : ¬o.maxKeys ≤ (after o (own key calls)).size := by omega
    dsimp only
    rw [makeRoom, if_neg room, if_neg room]
    exact failEntry_tracked t _

theorem own_get? (calls : List Call) (c : Call) (key : Text) :
    (after o (own key (calls ++ [c]))).get? key =
      if c.key = key ∧ c.method = .fail then
        some (failKey o c.at_ ((after o (own key calls)).get? key)).1
      else (after o (own key calls)).get? key := by
  by_cases mine : c.key = key
  · rw [own_snoc_mine mine, after_snoc]
    rcases call_get? (o := o) (after o (own key calls)) c key
      (fun _ => mine ▸ own_tracked c.key calls c.at_) with
      ⟨_, method, wrote⟩ | ⟨other, kept⟩ | ⟨other, -⟩
    · rw [if_pos ⟨mine, method⟩, wrote]
    · rw [if_neg other, kept]
    · exact absurd mine other
  · rw [own_snoc_other mine, if_neg fun both => mine both.1]

theorem seen_after (clocked : Clocked calls) (tracked : Tracked o calls) (key : Text)
    (now : ∀ c ∈ calls, c.at_ ≤ t) :
    Seen o t ((after o calls).get? key) ((after o (own key calls)).get? key) := by
  induction calls using List.reverseRecOn generalizing t with
  | nil => exact .same none fun e mem => absurd mem (Option.not_mem_none e)
  | append_singleton calls c ih =>
    obtain ⟨clockedBefore, nonneg, earlier⟩ := clocked.init
    obtain ⟨trackedBefore, trackedNow⟩ := tracked.init
    have seen := ih clockedBefore trackedBefore earlier
    have le : c.at_ ≤ t := now c (by simp)
    refine Seen.later ?_ le
    rw [own_get?, after_snoc]
    rcases call_get? (after o calls) c key trackedNow with
      ⟨mine, method, wrote⟩ | ⟨other, kept⟩ | ⟨other, e, found, dead, dropped⟩
    · rw [if_pos ⟨mine, method⟩, wrote]
      exact (failsAlike nonneg seen).seen
    · rw [if_neg other, kept]
      exact seen
    · rw [if_neg fun both => other both.1, dropped]
      rw [found] at seen
      exact seen.prune dead

theorem Clocked.front (clocked : Clocked (first ++ rest)) :
    Clocked first :=
  ⟨fun c mem => clocked.1 c (mem_append_left _ mem), (pairwise_append.mp clocked.2).1⟩

theorem answer_failed {before : List Call} (method : c.method = .fail)
    (tracked : (fail o c.key c.at_ (after o before)).2.tracked = true) :
    answer o before c = .failed (failKey o c.at_ ((after o before).get? c.key)).2 := by
  simp only [answer, call, method]
  rw [(fail_own tracked).2]

theorem answer_blocked {before : List Call} (method : c.method = .blockedSec) :
    answer o before c = .blocked (blockedKey c.at_ ((after o before).get? c.key)) := by
  simp only [answer, call, method, blockedSec_own]

theorem answers_at (clocked : Clocked (first ++ c :: rest))
    (tracked : Tracked o (first ++ c :: rest)) :
    Alike (answer o first c) (answer o (own c.key first) c) ∧
      (answer o first c ≠ answer o (own c.key first) c ↔
        c.method = .fail ∧ (failKey o c.at_ ((after o first).get? c.key)).2 ≠
          (failKey o c.at_ ((after o (own c.key first)).get? c.key)).2) := by
  have whole : first ++ c :: rest = (first ++ [c]) ++ rest := by simp
  rw [whole] at clocked tracked
  obtain ⟨clockedBefore, nonneg, earlier⟩ := clocked.front.init
  obtain ⟨trackedBefore, trackedNow⟩ := tracked.front.init
  have seen := seen_after clockedBefore trackedBefore c.key earlier
  cases method : c.method with
  | fail =>
    rw [answer_failed method (trackedNow method), answer_failed method (own_tracked _ _ _)]
    exact ⟨(failsAlike nonneg seen).alike, by simp⟩
  | blockedSec =>
    rw [answer_blocked method, answer_blocked method, blockedKey_alike nonneg seen]
    exact ⟨rfl, by simp⟩

theorem failKey_of_unleveled (dead : Dead o e t) (sound : Sound o e t) (none_ : e.level = 0) :
    failKey o t none = failKey o t (some e) := by
  have table : failKey o t none = (⟨windowOf o t, 1, 0, 0⟩, ⟨0, false, 0, true⟩) :=
    failEntry_newEntry t
  rw [table, failKey, if_neg (not_lt.mpr dead.unblocked), failEntry_of_past dead.past, none_,
    sound.fresh none_]

/-- The entries are the same, or what pruning dropped will not be missed. -/
inductive Matched (o : PenaltyOptions) (t : ℚ) (rest : List Call) (key : Text) :
    Option Entry → Option Entry → Prop
  | same (entry : Option Entry) (sound : ∀ e ∈ entry, Sound o e t) : Matched o t rest key entry entry
  | dropped (e : Entry) (dead : Dead o e t) (sound : Sound o e t)
      (missed : e.level = 0 ∨ ∀ d ∈ rest, d.key = key → d.method ≠ .fail) :
      Matched o t rest key none (some e)

theorem Matched.later {s t : ℚ} {rest : List Call} {key : Text} {entry alone : Option Entry}
    (matched : Matched o s rest key entry alone) (le : s ≤ t) :
    Matched o t rest key entry alone := by
  cases matched with
  | same _ sound => exact .same entry fun e mem => (sound e mem).later le
  | dropped e dead sound missed => exact .dropped e (dead.later le) (sound.later le) missed

theorem Matched.tail {t : ℚ} {c : Call} {rest : List Call} {key : Text}
    {entry alone : Option Entry} (matched : Matched o t (c :: rest) key entry alone) :
    Matched o t rest key entry alone := by
  cases matched with
  | same _ sound => exact .same entry sound
  | dropped e dead sound missed =>
    exact .dropped e dead sound
      (missed.imp_right fun never d mem => never d (mem_cons_of_mem _ mem))

theorem Matched.fails (matched : Matched o t (c :: rest) c.key entry alone)
    (method : c.method = .fail) :
    failKey o t entry = failKey o t alone := by
  cases matched with
  | same => rfl
  | dropped e dead sound missed =>
    rcases missed with none_ | never
    · exact failKey_of_unleveled dead sound none_
    · exact absurd method (never c mem_cons_self rfl)

theorem Matched.sound (matched : Matched o t rest key entry alone) : ∀ e ∈ alone, Sound o e t := by
  cases matched with
  | same _ sound => exact sound
  | dropped e _ sound =>
    intro d mem
    obtain rfl := Option.mem_some_iff.mp mem
    exact sound

theorem Matched.prune (matched : Matched o t (c :: rest) key (some e) alone)
    (dead : isDead o t e = true) (missed : 0 < e.level → ∀ d ∈ rest, d.key = key →
      d.method ≠ .fail) : Matched o t rest key none alone := by
  cases matched with
  | same _ sound =>
    refine .dropped e (dead_of_isDead (sound e rfl) dead) (sound e rfl) ?_
    exact (Nat.eq_zero_or_pos e.level).imp_right missed

theorem matched_after (clocked : Clocked calls) (tracked : Tracked o calls)
    (unforgotten : Unforgotten o calls) (first rest : List Call) (whole : calls = first ++ rest)
    (key : Text) (now : ∀ c ∈ first, c.at_ ≤ t) :
    Matched o t rest key ((after o first).get? key) ((after o (own key first)).get? key) := by
  induction first using List.reverseRecOn generalizing t rest with
  | nil => exact .same none fun e mem => absurd mem (Option.not_mem_none e)
  | append_singleton first c ih =>
    have split : calls = first ++ c :: rest := by rw [whole, append_assoc]; rfl
    rw [whole] at clocked tracked
    obtain ⟨-, nonneg, earlier⟩ := clocked.front.init
    obtain ⟨-, trackedNow⟩ := tracked.front.init
    have le : c.at_ ≤ t := now c (by simp)
    have before := ih (c :: rest) split earlier
    rw [own_get?]
    have dropped := unforgotten first c rest split key
    rw [after_snoc] at dropped ⊢
    rcases call_get? (after o first) c key trackedNow with
      ⟨rfl, method, wrote⟩ | ⟨other, kept⟩ | ⟨other, e, found, dead, gone⟩
    · rw [if_pos ⟨rfl, method⟩, wrote, before.fails method]
      refine .same _ fun e mem => ?_
      obtain rfl := Option.mem_some_iff.mp mem
      exact (sound_failKey before.sound).later le
    · rw [if_neg other, kept]
      exact before.tail.later le
    · rw [if_neg fun both => other both.1, gone]
      have here := before
      rw [found] at here
      have pruned := here.prune dead fun positive => dropped e found positive gone
      exact pruned.later le

theorem lost_answers (clocked : Clocked calls) (tracked : Tracked o calls) (first rest : List Call)
    (whole : calls = first ++ rest)
    (lost : Lost ((after o first).get? key) ((after o (own key first)).get? key)) {d : Call}
    (mem : d ∈ rest) (mine : d.key = key) (fails : d.method = .fail) :
    ∃ before c later, calls = before ++ c :: later ∧
      answer o before c ≠ answer o (own c.key before) c := by
  induction rest generalizing first with
  | nil => cases mem
  | cons c rest ih =>
    rw [whole] at clocked tracked
    by_cases own_ : c.key = key ∧ c.method = .fail
    · obtain ⟨rfl, method⟩ := own_
      refine ⟨first, c, rest, whole, (answers_at clocked tracked).2.mpr ⟨method, ?_⟩⟩
      have split : first ++ c :: rest = (first ++ [c]) ++ rest := by simp
      rw [split] at clocked tracked
      obtain ⟨clockedBefore, nonneg, earlier⟩ := clocked.front.init
      have seen := seen_after clockedBefore tracked.front.init.1 c.key earlier
      exact (failsAlike nonneg seen).lost lost
    · have split : first ++ c :: rest = (first ++ [c]) ++ rest := by simp
      have later : d ∈ rest := by
        rcases mem_cons.mp mem with rfl | later
        · exact absurd ⟨mine, fails⟩ own_
        · exact later
      refine ih (first ++ [c]) (whole.trans split) ?_ later
      rw [own_get?, if_neg own_]
      refine ⟨?_, lost.2⟩
      rw [split] at tracked
      rw [after_snoc]
      rcases call_get? (after o first) c key tracked.front.init.2 with
        ⟨same, method, -⟩ | ⟨-, kept⟩ | ⟨-, e, found, -⟩
      · exact absurd ⟨same, method⟩ own_
      · exact kept.trans lost.1
      · rw [lost.1] at found
        cases found

theorem Seen.of_level (seen : Seen o t (some e) alone) (positive : 0 < e.level) :
    alone = some e := by
  cases seen with
  | same => rfl
  | forgot => exact absurd positive (Nat.lt_irrefl 0)

/-- With room in the table, answers agree with those of the key alone up to the level of a failure
without a block, and wholly so exactly where no key fails again after pruning took its level. -/
theorem answers_independent (o : PenaltyOptions) (calls : List Call) (clocked : Clocked calls)
    (tracked : Tracked o calls) :
    (Independent o calls ↔ Unforgotten o calls) ∧
      ∀ first c rest, calls = first ++ c :: rest →
        Alike (answer o first c) (answer o (own c.key first) c) := by
  refine ⟨⟨?_, ?_⟩, ?_⟩
  · intro independent first c rest whole key e found positive gone d mem mine fails
    have split : calls = (first ++ [c]) ++ rest := by rw [whole]; simp
    have clockedFront := (split ▸ clocked : Clocked ((first ++ [c]) ++ rest)).front.init
    have trackedFront := (split ▸ tracked : Tracked o ((first ++ [c]) ++ rest)).front.init
    have seen := seen_after clockedFront.1 trackedFront.1 key clockedFront.2.2
    rw [found] at seen
    have alone := seen.of_level positive
    have other : ¬(c.key = key ∧ c.method = .fail) := by
      intro both
      rw [after_snoc] at gone
      rcases call_get? (after o first) c key trackedFront.2 with
        ⟨-, -, wrote⟩ | ⟨other, -⟩ | ⟨other, -⟩
      · rw [wrote] at gone
        cases gone
      · exact other both
      · exact other both.1
    have lost : Lost ((after o (first ++ [c])).get? key)
        ((after o (own key (first ++ [c]))).get? key) := by
      rw [own_get?, if_neg other]
      exact ⟨gone, e, alone, positive⟩
    obtain ⟨before, c', later, at_, differs⟩ :=
      lost_answers clocked tracked (first ++ [c]) rest split lost mem mine fails
    exact differs (independent before c' later at_)
  · intro unforgotten first c rest whole
    have split : calls = (first ++ [c]) ++ rest := by rw [whole]; simp
    have clockedFront := (split ▸ clocked : Clocked ((first ++ [c]) ++ rest)).front.init
    have matched := matched_after clocked tracked unforgotten first (c :: rest) whole c.key
      clockedFront.2.2
    by_contra differs
    rw [whole] at clocked tracked
    obtain ⟨method, other⟩ := (answers_at clocked tracked).2.mp differs
    exact other (congrArg Prod.snd (matched.fails method))
  · intro first c rest whole
    rw [whole] at clocked tracked
    exact (answers_at clocked tracked).1

def twoKeys : PenaltyOptions where
  windowMs := 60000
  failuresPerWindow := 1
  baseSec := 60
  maxSec := 3600
  decayMs := 3600000
  maxKeys := 2
  windowPos := by decide
  failuresPos := by decide
  basePos := by decide
  decayPos := by decide
  keysPos := by decide
  baseLe := by decide

def failAt (key : String) (at_ : ℚ) : Call := ⟨js key, .fail, at_⟩

/-- The first address is blocked once; a third one comes when its decay period is over. -/
def threeAddresses : List Call :=
  [failAt "10.0.0.1" 0, failAt "10.0.0.1" 0, failAt "10.0.0.2" 0, failAt "10.0.0.3" 4000000]

def backAgain : Call := failAt "10.0.0.1" 4000000

theorem clocked_backAgain : Clocked (threeAddresses ++ [backAgain]) := by
  unfold Clocked
  decide +kernel

theorem tracked_backAgain : Tracked twoKeys (threeAddresses ++ [backAgain]) := by
  unfold Tracked
  decide +kernel

theorem answers_independent_backAgain :
    (Independent twoKeys (threeAddresses ++ [backAgain]) ↔
      Unforgotten twoKeys (threeAddresses ++ [backAgain])) ∧
    Alike (answer twoKeys threeAddresses backAgain)
      (answer twoKeys (own backAgain.key threeAddresses) backAgain) := by
  have holds := answers_independent twoKeys _ clocked_backAgain tracked_backAgain
  exact ⟨holds.1, holds.2 threeAddresses backAgain [] rfl⟩

/-- The next failure of the first address reports the level zero, and alone it reports one. -/
theorem level_pruned :
    Clocked (threeAddresses ++ [backAgain]) ∧
      Tracked twoKeys (threeAddresses ++ [backAgain]) ∧
      answer twoKeys threeAddresses backAgain = .failed ⟨0, false, 0, true⟩ ∧
      answer twoKeys (own backAgain.key threeAddresses) backAgain =
        .failed ⟨0, false, 1, true⟩ ∧
      ¬Independent twoKeys (threeAddresses ++ [backAgain]) := by
  have table : answer twoKeys threeAddresses backAgain = .failed ⟨0, false, 0, true⟩ := by
    decide +kernel
  have alone : answer twoKeys (own backAgain.key threeAddresses) backAgain =
      .failed ⟨0, false, 1, true⟩ := by
    decide +kernel
  refine ⟨clocked_backAgain, tracked_backAgain, table, alone, fun independent => ?_⟩
  have same := independent threeAddresses backAgain [] rfl
  rw [table] at same
  cases same.trans alone

/-- No call within a block, of any key, ends or extends it. -/
theorem call_keeps {entries : Entries} (stands : entries.get? key = some e)
    (running : c.at_ < e.blockedUntil) : (call o entries c).1.get? key = some e := by
  unfold call
  split
  · by_cases same : key = c.key
    · subst same
      simp [fail, stands, running]
    · rcases fail_other (o := o) same c.at_ entries with kept | ⟨d, found, dead, -⟩
      · exact kept.trans stands
      · cases stands.symm.trans found
        simp [isDead, running] at dead
  · exact stands

theorem block_lasts (held : (after o first).get? key = some e)
    (early : ∀ c ∈ rest, c.at_ < e.blockedUntil) (now : t < e.blockedUntil) :
    answer o (first ++ rest) ⟨key, .blockedSec, t⟩ = .blocked (secondsUntil e.blockedUntil t) ∧
      answer o (first ++ rest) ⟨key, .fail, t⟩ =
        .failed ⟨secondsUntil e.blockedUntil t, false, e.level, true⟩ := by
  have kept : (after o (first ++ rest)).get? key = some e := by
    induction rest using List.reverseRecOn with
    | nil => rwa [append_nil]
    | append_singleton rest c ih =>
      rw [← append_assoc, after_snoc]
      exact call_keeps (ih fun d mem => early d (mem_append_left _ mem)) (early c (by simp))
  simp [answer, call, fail, blockedSec, kept, now]

theorem block_lasts_full :
    answer twoKeys (threeAddresses.take 3 ++ [failAt "10.0.0.3" 50000])
      ⟨js "10.0.0.1", .blockedSec, 59000⟩ = .blocked (secondsUntil 60000 59000) :=
  (block_lasts (e := ⟨0, 0, 1, 60000⟩) (by decide +kernel) (by decide) (by decide)).1

theorem fail_size {m : Entries} (within : m.size ≤ o.maxKeys) :
    (fail o key t m).1.size ≤ o.maxKeys ∧
      ((fail o key t m).2.tracked = false → (fail o key t m).1.size = o.maxKeys) := by
  unfold fail
  split
  · next found =>
    split
    · exact ⟨within, nofun⟩
    · simp [failEntry_tracked, OrderedMap.size_set_of_present _ _ found, within]
  · have room : (makeRoom o t m).size ≤ o.maxKeys := by
      unfold makeRoom
      split
      · exact (OrderedMap.size_filter_le _ _).trans within
      · exact within
    dsimp only
    split
    · next full => exact ⟨room, fun _ => room.antisymm full⟩
    · next free =>
      exact ⟨(OrderedMap.size_set_le _ _ _).trans (not_le.mp free), by simp [failEntry_tracked]⟩

/-- The table keeps its bound, and is full after a failure that goes untracked. -/
theorem table_bounded (calls : List Call) : (after o calls).size ≤ o.maxKeys ∧
    ((fail o key t (after o calls)).2.tracked = false →
      (after o (calls ++ [⟨key, .fail, t⟩])).size = o.maxKeys) := by
  have within : (after o calls).size ≤ o.maxKeys := by
    refine runInputs_invariant (step o) (·.size ≤ o.maxKeys) (fun m c within => ?_)
      _ (Nat.zero_le _) calls
    unfold step call
    split
    · exact (fail_size within).1
    · exact within
  rw [after_snoc]
  exact ⟨within, (fail_size within).2⟩

end Ultrathink.Guarantees.PenaltyIndependence
