import Ultrathink.Source.Obs.Anomaly
import Mathlib.Data.List.Dedup

/-!
# Anomaly rules count exactly

The detector keeps for each key the last `count` readings and one reading until which it is
quiet. Both are what the whole history says, as long as no key has been evicted.
-/

namespace Ultrathink.Guarantees.AnomalyCounts

open List Library JsText JsonText Window Source.Obs.Anomaly

def keyIn (rule : AnomalyRule) (e : Event) : Option Text := keyOf rule e.name e.fields

/-- The keys that a history mentions. -/
def keysOf (rule : AnomalyRule) (events : List Event) : List Text := events.filterMap (keyIn rule)

/-- The readings of the events that count for a key. -/
def timesOf (rule : AnomalyRule) (key : Text) (events : List Event) : List ℤ :=
  (events.filter fun e => keyIn rule e = some key).map Event.at_

def detectorAfter (rules : List AnomalyRule) (events : List Event) : Detector :=
  events.foldl (fun d e => (observe d e).1) (createAnomalyDetector rules)

/-- Each event with what was answered to it. -/
def answers (rules : List AnomalyRule) : List Event → List Event → List (Event × List AnomalyAlert)
  | _, [] => []
  | before, e :: more =>
    (e, (observe (detectorAfter rules before) e).2) :: answers rules (before ++ [e]) more

def answersTo (rules : List AnomalyRule) (events : List Event) : List (Event × List AnomalyAlert) :=
  answers rules [] events

/-- No alert was returned for the key in the window that ends at the reading. -/
def Unalerted (rules : List AnomalyRule) (rule : AnomalyRule) (key : Text) (events : List Event)
    (now : ℤ) : Prop :=
  ∀ x ∈ answersTo rules events, alertOf rule key ∈ x.2 → x.1.at_ ≤ now - windowMs rule

structure Sound (rules : List AnomalyRule) : Prop where
  names : (rules.map AnomalyRule.name).Nodup
  counts : ∀ rule ∈ rules, 0 < rule.count
  own : ∀ rule ∈ rules, rule.event ∉ AUDIT_OWN_EVENTS

variable {α : Type} {index : Nat} {names : List Text} {rules : List AnomalyRule} {now : ℤ}
  {a : AnomalyAlert}

theorem bind_ok {β : Type} {x : Except Text α} {f : α → Except Text β} {b : β}
    (done : x >>= f = .ok b) : ∃ a, x = .ok a ∧ f a = .ok b := by
  cases x with
  | error message => cases done
  | ok a => exact ⟨a, rfl, done⟩

theorem require_ok {value : Option α} {message : Text} {a : α} :
    require value message = .ok a ↔ value = some a := by
  cases value with
  | none => simp [require]
  | some b => simp [require]

theorem integerIn_low {low high n : Nat} {value : Option Value} (read : integerIn low high value = some n) :
    low ≤ n := by
  unfold integerIn at read
  split at read
  · split at read
    · next i _ =>
      split at read
      · next between =>
        obtain rfl := Option.some.inj read
        omega
      · cases read
    · cases read
  · cases read

theorem parseRule_ok {raw : Value} {rule : AnomalyRule}
    (done : parseRule raw index names = .ok rule) :
    rule.name ∉ names ∧ 0 < rule.count ∧ rule.event ∉ AUDIT_OWN_EVENTS := by
  obtain ⟨members, -, done⟩ := bind_ok done
  dsimp only at done
  split at done
  · cases done
  · obtain ⟨name, -, done⟩ := bind_ok done
    split at done
    · cases done
    · next fresh =>
      obtain ⟨event, -, done⟩ := bind_ok done
      split at done
      · cases done
      · next other =>
        obtain ⟨count, countIs, done⟩ := bind_ok done
        obtain ⟨windowSec, -, done⟩ := bind_ok done
        obtain ⟨groupBy, -, done⟩ := bind_ok done
        have positive : 0 < count := integerIn_low (require_ok.mp countIs)
        split at done
        · obtain rfl := Except.ok.inj done
          exact ⟨fresh, positive, other⟩
        · obtain ⟨where_, -, done⟩ := bind_ok done
          obtain rfl := Except.ok.inj done
          exact ⟨fresh, positive, other⟩

theorem parseRules_ok {items : List Value} (done : parseRules index names items = .ok rules) :
    Sound rules ∧ ∀ rule ∈ rules, rule.name ∉ names := by
  induction items generalizing index names rules with
  | nil =>
    obtain rfl := Except.ok.inj done
    exact ⟨⟨.nil, by simp, by simp⟩, by simp⟩
  | cons raw more ih =>
    obtain ⟨rule, first, done⟩ := bind_ok done
    obtain ⟨rest, later, done⟩ := bind_ok done
    obtain rfl := Except.ok.inj done
    obtain ⟨fresh, positive, other⟩ := parseRule_ok first
    obtain ⟨sound, apart⟩ := ih later
    refine ⟨⟨?_, ?_, ?_⟩, ?_⟩
    · rw [map_cons, nodup_cons]
      refine ⟨?_, sound.names⟩
      intro mem
      obtain ⟨r, held, same⟩ := mem_map.mp mem
      exact apart r held (same ▸ mem_cons_self)
    · exact forall_mem_cons.mpr ⟨positive, sound.counts⟩
    · exact forall_mem_cons.mpr ⟨other, sound.own⟩
    · refine forall_mem_cons.mpr ⟨fresh, ?_⟩
      intro r mem held
      exact apart r mem (mem_cons_of_mem _ held)

theorem sound_of_parsed {value : Value} (parsed : parseAnomalyRules value = .ok rules) :
    Sound rules := by
  unfold parseAnomalyRules at parsed
  split at parsed
  · exact (parseRules_ok parsed).1
  · cases parsed

def ruleAfter (rule : AnomalyRule) (events : List Event) : RuleState :=
  events.foldl (fun s e => (observeRule e s).1) ⟨rule, .empty⟩

theorem ruleAfter_append (rule : AnomalyRule) (events : List Event) (e : Event) :
    ruleAfter rule (events ++ [e]) = (observeRule e (ruleAfter rule events)).1 :=
  foldl_append

theorem record_rule (s : RuleState) (key : Text) (now : ℤ) : (record s key now).1.rule = s.rule := by
  unfold record
  split
  dsimp only
  split
  · rfl
  · rfl

theorem observeRule_rule (e : Event) (s : RuleState) : (observeRule e s).1.rule = s.rule := by
  unfold observeRule
  split
  · rfl
  · exact record_rule s _ _

theorem ruleAfter_rule (rule : AnomalyRule) (events : List Event) :
    (ruleAfter rule events).rule = rule := by
  induction events using List.reverseRecOn with
  | nil => rfl
  | append_singleton events e ih => rw [ruleAfter_append, observeRule_rule, ih]

/-- What one rule answers to an event after a history. -/
def alertAfter (rule : AnomalyRule) (events : List Event) (e : Event) : Option AnomalyAlert :=
  (observeRule e (ruleAfter rule events)).2

/-- What a rule holds for a key; nothing yet is an empty entry. -/
def held (s : RuleState) (key : Text) : KeyState := (s.keys.get? key).getD ⟨[], none⟩

/-- The window after each alert of the rule for the key is over. -/
def RuleQuiet (rule : AnomalyRule) (key : Text) (events : List Event) (now : ℤ) : Prop :=
  ∀ pre e post, events = pre ++ e :: post → alertAfter rule pre e = some (alertOf rule key) →
    e.at_ + windowMs rule ≤ now

/-- The history is in order and mentions no more keys than are tracked. -/
structure Within (rule : AnomalyRule) (events : List Event) : Prop where
  ordered : (events.map Event.at_).Pairwise (· ≤ ·)
  few : (keysOf rule events).dedup.length ≤ MAX_KEYS_PER_RULE

/-- The state of a rule says what the history says. -/
structure Tracks (rule : AnomalyRule) (events : List Event) (s : RuleState) : Prop where
  rule_ : s.rule = rule
  keys : ∀ key ∈ s.keys.entries.map Prod.fst, key ∈ keysOf rule events
  recent : ∀ key, (held s key).recent = (timesOf rule key events).rtake rule.count
  quiet : ∀ key now, (held s key).suppressedUntil.all (· ≤ now) = true ↔
    RuleQuiet rule key events now

section Rule

variable {rule : AnomalyRule} {events : List Event} {e : Event} {s : RuleState} {key : Text}

theorem ruleQuiet_append (now : ℤ) :
    RuleQuiet rule key (events ++ [e]) now ↔ RuleQuiet rule key events now ∧
      (alertAfter rule events e = some (alertOf rule key) → e.at_ + windowMs rule ≤ now) := by
  constructor
  · intro quiet
    constructor
    · rintro pre d post rfl alert
      exact quiet pre d (post ++ [e]) (by simp) alert
    · exact quiet events e [] rfl
  · rintro ⟨older, last⟩ pre d post split alert
    rcases eq_nil_or_concat' post with rfl | ⟨post, f, rfl⟩
    · obtain ⟨rfl, same⟩ := append_inj' split rfl
      obtain rfl := (List.cons.inj same).1
      exact last alert
    · rw [← cons_append, ← append_assoc] at split
      obtain ⟨rfl, -⟩ := append_inj' split rfl
      exact older pre d post rfl alert

theorem Within.before (within : Within rule (events ++ [e])) : Within rule events := by
  obtain ⟨ordered, few⟩ := within
  rw [map_append, pairwise_append] at ordered
  refine ⟨ordered.1, le_trans ?_ few⟩
  apply (subperm_of_subset (nodup_dedup _) ?_).length_le
  intro k mem
  rw [mem_dedup] at mem ⊢
  rw [keysOf, filterMap_append]
  exact mem_append_left _ mem

theorem Within.le (within : Within rule (events ++ [e])) : ∀ d ∈ events, d.at_ ≤ e.at_ := by
  intro d mem
  have ordered := within.ordered
  rw [map_append, pairwise_append] at ordered
  exact ordered.2.2 d.at_ (mem_map_of_mem mem) e.at_ (by simp)

theorem timesOf_append (rule : AnomalyRule) (key : Text) (events : List Event) (e : Event) :
    timesOf rule key (events ++ [e]) =
      timesOf rule key events ++ if keyIn rule e = some key then [e.at_] else [] := by
  rw [timesOf, filter_append, map_append]
  by_cases counted : keyIn rule e = some key
  · simp [timesOf, counted]
  · simp [timesOf, counted]

theorem timesOf_pairwise (within : Within rule events) (key : Text) :
    (timesOf rule key events).Pairwise (· ≤ ·) :=
  within.ordered.sublist (filter_sublist.map _)

theorem keysOf_append (rule : AnomalyRule) (events : List Event) (e : Event) :
    keysOf rule (events ++ [e]) = keysOf rule events ++ (keyIn rule e).toList := by
  rw [keysOf, filterMap_append, keysOf]
  cases keyIn_ : keyIn rule e with
  | none => simp [keyIn_]
  | some k => simp [keyIn_]

theorem Tracks.idle (tracks : Tracks rule events s) (idle : keyIn rule e = none) :
    keyIn s.rule e = none := by
  rw [tracks.rule_, idle]

theorem entryFor_held (tracks : Tracks rule events s) (within : Within rule (events ++ [e]))
    (counted : keyIn rule e = some key) : entryFor s.keys key = (s.keys, held s key) := by
  unfold entryFor held
  cases found : s.keys.get? key with
  | some entry => rfl
  | none =>
    have absent : key ∉ s.keys.entries.map Prod.fst := by
      intro mem
      obtain ⟨⟨k, v⟩, entry, rfl⟩ := mem_map.mp mem
      rw [(OrderedMap.get?_eq_some_iff _ _ _).mpr entry] at found
      cases found
    have all : (key :: s.keys.entries.map Prod.fst) ⊆ (keysOf rule (events ++ [e])).dedup := by
      intro k mem
      rw [mem_dedup, keysOf_append, mem_append, counted]
      rcases mem_cons.mp mem with rfl | older
      · exact .inr (by simp)
      · exact .inl (tracks.keys k older)
    have distinct : (key :: s.keys.entries.map Prod.fst).Nodup :=
      nodup_cons.mpr ⟨absent, s.keys.nodup⟩
    have fits := (subperm_of_subset distinct all).length_le.trans within.few
    have room : ¬ MAX_KEYS_PER_RULE ≤ s.keys.size := by
      rw [length_cons, length_map] at fits
      rw [OrderedMap.size]
      omega
    rw [makeRoom, if_neg room]
    rfl

theorem record_alert {s : RuleState} {key : Text} (alert : (record s key now).2 = some a) :
    a = alertOf s.rule key := by
  unfold record at alert
  split at alert
  dsimp only at alert
  split at alert
  · exact (Option.some.inj alert).symm
  · cases alert

theorem alertAfter_key (alert : alertAfter rule events e = some a) :
    ∃ key, keyIn rule e = some key ∧ a = alertOf rule key := by
  unfold alertAfter observeRule at alert
  have same := ruleAfter_rule rule events
  split at alert
  · cases alert
  · next key counted =>
    rw [same] at counted
    have named := record_alert alert
    rw [same] at named
    exact ⟨key, counted, named⟩

theorem observeRule_none {s : RuleState} (idle : keyIn s.rule e = none) :
    observeRule e s = (s, none) := by
  unfold observeRule
  rw [show keyOf s.rule e.name e.fields = none from idle]

theorem alertOf_key {k : Text} (same : alertOf rule key = alertOf rule k) : key = k :=
  congrArg AnomalyAlert.key same

theorem observeRule_counted (tracks : Tracks rule events s) (within : Within rule (events ++ [e]))
    (counted : keyIn rule e = some key) :
    let recent := keepLast rule.count (held s key).recent e.at_
    observeRule e s =
      if crosses rule recent (held s key).suppressedUntil e.at_ then
        (⟨rule, s.keys.set key ⟨recent, some (e.at_ + windowMs rule)⟩⟩, some (alertOf rule key))
      else (⟨rule, s.keys.set key ⟨recent, (held s key).suppressedUntil⟩⟩, none) := by
  have counted' : keyOf s.rule e.name e.fields = some key := tracks.rule_ ▸ counted
  have entry := entryFor_held tracks within counted
  obtain ⟨rule', keys⟩ := s
  obtain rfl : rule' = rule := tracks.rule_
  dsimp only at counted' entry ⊢
  unfold observeRule
  dsimp only
  rw [counted']
  dsimp only [record]
  rw [entry]

theorem held_set (keys : OrderedMap Text KeyState) (k : Text) (entry : KeyState) (key : Text) :
    held ⟨rule, keys.set k entry⟩ key = if key = k then entry else held ⟨rule, keys⟩ key := by
  unfold held
  rw [OrderedMap.get?_set]
  split
  · rfl
  · rfl

end Rule

section Tracking

variable {rule : AnomalyRule} {events : List Event} {e : Event} {key : Text}

/-- An event that does not count for the key changes nothing that is held for it. -/
theorem tracks_other (tracks : Tracks rule events (ruleAfter rule events))
    (within : Within rule (events ++ [e])) (other : keyIn rule e ≠ some key) :
    held (ruleAfter rule (events ++ [e])) key = held (ruleAfter rule events) key ∧
      timesOf rule key (events ++ [e]) = timesOf rule key events ∧
      ∀ now, RuleQuiet rule key (events ++ [e]) now ↔ RuleQuiet rule key events now := by
  refine ⟨?_, ?_, ?_⟩
  · rw [ruleAfter_append]
    cases counted : keyIn rule e with
    | none => rw [observeRule_none (tracks.idle counted)]
    | some k =>
      have ne : key ≠ k := by
        rintro rfl
        exact other counted
      have same : (⟨rule, (ruleAfter rule events).keys⟩ : RuleState) = ruleAfter rule events :=
        congrArg (RuleState.mk · _) tracks.rule_.symm
      rw [observeRule_counted tracks within counted]
      split
      · rw [held_set, if_neg ne, same]
      · rw [held_set, if_neg ne, same]
  · rw [timesOf_append, if_neg other, append_nil]
  · intro now
    rw [ruleQuiet_append]
    refine and_iff_left ?_
    intro alert
    obtain ⟨k, counted, same⟩ := alertAfter_key alert
    exact absurd (alertOf_key same ▸ counted) other

theorem tracks_own (positive : 0 < rule.count) (tracks : Tracks rule events (ruleAfter rule events))
    (within : Within rule (events ++ [e])) (counted : keyIn rule e = some key) :
    (held (ruleAfter rule (events ++ [e])) key).recent =
        (timesOf rule key (events ++ [e])).rtake rule.count ∧
      ∀ now, (held (ruleAfter rule (events ++ [e])) key).suppressedUntil.all (· ≤ now) = true ↔
        RuleQuiet rule key (events ++ [e]) now := by
  have recent : keepLast rule.count (held (ruleAfter rule events) key).recent e.at_ =
      (timesOf rule key (events ++ [e])).rtake rule.count := by
    rw [tracks.recent, keepLast_rtake positive, timesOf_append, if_pos counted]
  have step := observeRule_counted tracks within counted
  dsimp only at step
  rw [recent] at step
  have alert : alertAfter rule events e = (observeRule e (ruleAfter rule events)).2 := rfl
  rw [ruleAfter_append]
  rw [step] at alert ⊢
  split at alert
  · next past =>
    rw [if_pos past, held_set, if_pos rfl]
    refine ⟨rfl, ?_⟩
    intro now
    rw [ruleQuiet_append, alert]
    simp only [Option.all_some, decide_eq_true_eq, forall_const]
    constructor
    · intro ended
      refine ⟨?_, ended⟩
      rintro pre d post rfl -
      have le := within.le d (by simp)
      omega
    · exact fun both => both.2
  · next quiet =>
    rw [if_neg quiet, held_set, if_pos rfl]
    refine ⟨rfl, ?_⟩
    intro now
    rw [ruleQuiet_append, alert, tracks.quiet]
    simp

theorem tracks_ruleAfter (positive : 0 < rule.count) (events : List Event)
    (within : Within rule events) : Tracks rule events (ruleAfter rule events) := by
  induction events using List.reverseRecOn with
  | nil =>
    refine ⟨rfl, by simp [ruleAfter, OrderedMap.empty], ?_, ?_⟩
    · intro key
      simp [held, ruleAfter, timesOf, List.rtake]
    · intro key now
      simp [RuleQuiet, ruleAfter, held]
  | append_singleton events e ih =>
    have tracks := ih within.before
    refine ⟨ruleAfter_rule _ _, ?_, ?_, ?_⟩
    · intro key mem
      rw [keysOf_append]
      rw [ruleAfter_append] at mem
      cases counted : keyIn rule e with
      | none =>
        rw [observeRule_none (tracks.idle counted)] at mem
        exact mem_append_left _ (tracks.keys key mem)
      | some k =>
        rw [observeRule_counted tracks within counted] at mem
        have known : key = k ∨ key ∈ (ruleAfter rule events).keys.entries.map Prod.fst := by
          split at mem
          · exact (OrderedMap.mem_keys_place _ _ _ _).mp mem
          · exact (OrderedMap.mem_keys_place _ _ _ _).mp mem
        rcases known with rfl | older
        · simp
        · exact mem_append_left _ (tracks.keys key older)
    · intro key
      by_cases counted : keyIn rule e = some key
      · exact (tracks_own positive tracks within counted).1
      · obtain ⟨same, times, -⟩ := tracks_other tracks within counted
        rw [same, times, tracks.recent]
    · intro key now
      by_cases counted : keyIn rule e = some key
      · exact (tracks_own positive tracks within counted).2 now
      · obtain ⟨same, -, quiet⟩ := tracks_other tracks within counted
        rw [same, quiet, tracks.quiet]

theorem alertAfter_counted (tracks : Tracks rule events (ruleAfter rule events))
    (within : Within rule (events ++ [e])) (counted : keyIn rule e = some key) :
    alertAfter rule events e = some (alertOf rule key) ↔
      crosses rule (keepLast rule.count (held (ruleAfter rule events) key).recent e.at_)
        (held (ruleAfter rule events) key).suppressedUntil e.at_ = true := by
  rw [alertAfter, observeRule_counted tracks within counted]
  split
  · next past => exact iff_of_true rfl past
  · next quiet => exact iff_of_false (by simp) quiet

theorem crosses_iff {rule : AnomalyRule} {recent : List ℤ} {until_ : Option ℤ}
    (short : recent.length ≤ rule.count) (positive : 0 < rule.count) :
    crosses rule recent until_ now = true ↔
      (recent.length = rule.count ∧ ∀ oldest ∈ recent.head?, now - windowMs rule < oldest) ∧
        until_.all (· ≤ now) = true := by
  unfold crosses
  split
  · next fewer => exact iff_of_false (by simp) fun both => by omega
  · next enough =>
    have full : recent.length = rule.count := by omega
    cases recent with
    | nil =>
      rw [length_nil] at full
      omega
    | cons oldest later => simp [full, decide_eq_true_eq]

theorem alertAfter_iff (positive : 0 < rule.count) (within : Within rule (events ++ [e])) :
    alertAfter rule events e = some (alertOf rule key) ↔
      keyIn rule e = some key ∧
        rule.count ≤ countAfter (e.at_ - windowMs rule) (timesOf rule key (events ++ [e])) ∧
        RuleQuiet rule key events e.at_ := by
  have tracks := tracks_ruleAfter positive events within.before
  have full (counted : keyIn rule e = some key) :
      alertAfter rule events e = some (alertOf rule key) ↔
        rule.count ≤ countAfter (e.at_ - windowMs rule) (timesOf rule key (events ++ [e])) ∧
          RuleQuiet rule key events e.at_ := by
    have recent : keepLast rule.count (held (ruleAfter rule events) key).recent e.at_ =
        (timesOf rule key (events ++ [e])).rtake rule.count := by
      rw [tracks.recent, keepLast_rtake positive, timesOf_append, if_pos counted]
    have short : ((timesOf rule key (events ++ [e])).rtake rule.count).length ≤ rule.count := by
      rw [List.rtake, length_drop]
      omega
    rw [alertAfter_counted tracks within counted, recent, crosses_iff short positive, tracks.quiet,
      le_countAfter_iff positive _ (timesOf_pairwise within key)]
  constructor
  · intro alert
    obtain ⟨k, counted, same⟩ := alertAfter_key alert
    obtain rfl := alertOf_key same
    exact ⟨counted, (full counted).mp alert⟩
  · rintro ⟨counted, window⟩
    exact (full counted).mpr window

end Tracking

section Detector

variable {rules : List AnomalyRule} {rule : AnomalyRule} {events : List Event} {e : Event}
  {key : Text}

theorem observe_own (d : Detector) (own : e.name ∈ AUDIT_OWN_EVENTS) : observe d e = (d, []) :=
  if_pos own

theorem keyIn_own (sound : Sound rules) (mem : rule ∈ rules) (own : e.name ∈ AUDIT_OWN_EVENTS) :
    keyIn rule e = none := by
  refine if_pos (.inl ?_)
  intro same
  exact sound.own rule mem (same ▸ own)

theorem detectorAfter_eq (sound : Sound rules) (events : List Event) :
    detectorAfter rules events = rules.map fun rule => ruleAfter rule events := by
  induction events using List.reverseRecOn with
  | nil => rfl
  | append_singleton events e ih =>
    rw [show detectorAfter rules (events ++ [e]) = (observe (detectorAfter rules events) e).1 from
      foldl_append, ih]
    by_cases own : e.name ∈ AUDIT_OWN_EVENTS
    · rw [observe_own _ own]
      refine map_congr_left ?_
      intro rule mem
      have idle : keyIn (ruleAfter rule events).rule e = none := by
        rw [ruleAfter_rule]
        exact keyIn_own sound mem own
      rw [ruleAfter_append, observeRule_none idle]
    · rw [observe, if_neg own, map_map]
      refine map_congr_left ?_
      intro rule mem
      exact (ruleAfter_append rule events e).symm

theorem observed_eq (sound : Sound rules) (events : List Event) (e : Event) :
    (observe (detectorAfter rules events) e).2 = rules.filterMap fun rule => alertAfter rule events e := by
  rw [detectorAfter_eq sound]
  by_cases own : e.name ∈ AUDIT_OWN_EVENTS
  · rw [observe_own _ own]
    refine (filterMap_eq_nil_iff.mpr ?_).symm
    intro rule mem
    have idle : keyIn (ruleAfter rule events).rule e = none := by
      rw [ruleAfter_rule]
      exact keyIn_own sound mem own
    rw [alertAfter, observeRule_none idle]
  · rw [observe, if_neg own, filterMap_map]
    rfl

theorem alertOf_mem (sound : Sound rules) (mem : rule ∈ rules) :
    alertOf rule key ∈ (observe (detectorAfter rules events) e).2 ↔
      alertAfter rule events e = some (alertOf rule key) := by
  rw [observed_eq sound, mem_filterMap]
  constructor
  · rintro ⟨other, held, alert⟩
    obtain ⟨k, -, named⟩ := alertAfter_key alert
    obtain rfl : other = rule :=
      inj_on_of_nodup_map sound.names held mem (congrArg AnomalyAlert.rule named).symm
    exact alert
  · intro alert
    exact ⟨rule, mem, alert⟩

theorem mem_answers {x : Event × List AnomalyAlert} (events : List Event) :
    ∀ before : List Event, x ∈ answers rules before events ↔ ∃ pre e post, events = pre ++ e :: post ∧
      x = (e, (observe (detectorAfter rules (before ++ pre)) e).2) := by
  induction events with
  | nil => simp [answers]
  | cons d more ih =>
    intro before
    rw [answers, mem_cons, ih]
    constructor
    · rintro (rfl | ⟨pre, e, post, rfl, rfl⟩)
      · exact ⟨[], d, more, rfl, by rw [append_nil]⟩
      · exact ⟨d :: pre, e, post, rfl, by rw [append_assoc]; rfl⟩
    · rintro ⟨pre, e, post, split, rfl⟩
      cases pre with
      | nil =>
        obtain ⟨rfl, rfl⟩ := List.cons.inj split
        exact .inl (by rw [append_nil])
      | cons c pre =>
        obtain ⟨rfl, rfl⟩ := List.cons.inj split
        exact .inr ⟨pre, e, post, rfl, by rw [append_assoc]; rfl⟩

theorem unalerted_iff (sound : Sound rules) (mem : rule ∈ rules) (now : ℤ) :
    Unalerted rules rule key events now ↔ RuleQuiet rule key events now := by
  unfold Unalerted RuleQuiet answersTo
  constructor
  · rintro quiet pre d post rfl alert
    have earlier := quiet _ ((mem_answers _ []).mpr ⟨pre, d, post, rfl, rfl⟩)
      ((alertOf_mem sound mem).mpr alert)
    dsimp only at earlier
    omega
  · intro quiet x held alert
    obtain ⟨pre, d, post, split, rfl⟩ := (mem_answers _ []).mp held
    have earlier := quiet pre d post split ((alertOf_mem sound mem).mp alert)
    dsimp only
    omega

/-- An alert is returned exactly when the definition of the sliding window asks for it, and events of
the audit trail itself neither count nor alert. -/
theorem alerts_exactly {value : Value} (parsed : parseAnomalyRules value = .ok rules)
    (ordered : ((events ++ [e]).map Event.at_).Pairwise (· ≤ ·))
    (few : ∀ rule ∈ rules, (keysOf rule (events ++ [e])).dedup.length ≤ MAX_KEYS_PER_RULE) :
    (∀ rule ∈ rules, ∀ key, alertOf rule key ∈ (observe (detectorAfter rules events) e).2 ↔
      keyIn rule e = some key ∧
        rule.count ≤ countAfter (e.at_ - windowMs rule) (timesOf rule key (events ++ [e])) ∧
        Unalerted rules rule key events e.at_) ∧
    (∀ a ∈ (observe (detectorAfter rules events) e).2, ∃ rule ∈ rules, ∃ key, a = alertOf rule key) ∧
    (e.name ∈ AUDIT_OWN_EVENTS → observe (detectorAfter rules events) e = (detectorAfter rules events, []) ∧
      ∀ rule ∈ rules, keyIn rule e = none) := by
  have sound := sound_of_parsed parsed
  refine ⟨?_, ?_, ?_⟩
  · intro rule mem key
    rw [alertOf_mem sound mem, alertAfter_iff (sound.counts rule mem) ⟨ordered, few rule mem⟩,
      unalerted_iff sound mem]
  · intro a alert
    rw [observed_eq sound, mem_filterMap] at alert
    obtain ⟨rule, mem, alert⟩ := alert
    obtain ⟨key, -, named⟩ := alertAfter_key alert
    exact ⟨rule, mem, key, named⟩
  · intro own
    exact ⟨observe_own _ own, fun rule mem => keyIn_own sound mem own⟩

end Detector

def burstRules : Value := .arr [.obj [(js "name", .str (js "burst")), (js "event", .str (js "login_failed")),
  (js "count", .num (Library.JsNumber.ofNat 2)), (js "windowSec", .num (Library.JsNumber.ofNat 60)),
  (js "groupBy", .str (js "user"))]]

def burst : AnomalyRule := ⟨js "burst", js "login_failed", 2, 60, some (js "user"), none⟩

def failedLogin (at_ : ℤ) : Event := ⟨js "login_failed", [(js "user", .text (js "ann"))], at_⟩

theorem burstRules_parsed : parseAnomalyRules burstRules = .ok [burst] := by
  decide +kernel

/-- The second failed login of one minute is reported for its user. -/
theorem alerts_exactly_burst : alertOf burst (js "ann") ∈
    (observe (detectorAfter [burst] [failedLogin 1000]) (failedLogin 2000)).2 :=
  ((alerts_exactly burstRules_parsed (by decide) (by decide +kernel)).1 burst (by simp) _).mpr
    ⟨by decide, by decide +kernel, by unfold Unalerted; decide +kernel⟩

end Ultrathink.Guarantees.AnomalyCounts
