import Ultrathink.Source.TokenOpt.Ledger

/-!
# What the operations of the ledger do

A valid snapshot is valid when it is read back; what `load` finds and what `commit`
keeps is valid for its session; a drain writes what the memory holds.
-/

namespace Ultrathink.Source.TokenOpt

open List Library JsText JsNumber WriteBack

variable {doc : Doc} {id name : Text} {n : Nat}

theorem safeNat_ofNat (safe : n ≤ maxSafe) : safeNat (ofNat n) = some n := by
  have fits : n ≤ 2 ^ 53 := le_trans safe (Nat.sub_le _ _)
  rw [safeNat, toInt?_ofNat fits]
  have within : (0 : Int) ≤ n ∧ (n : Int) ≤ maxSafe := by omega
  simp only [if_pos within, Int.toNat_natCast]

theorem field_reread (doc : Doc) (name : Text) :
    Json.field (rereadFields doc) name = (Json.field doc name).map reread := by
  induction doc with
  | nil => rfl
  | cons entry rest ih =>
    obtain ⟨key, value⟩ := entry
    unfold Json.field at ih ⊢
    rw [rereadFields, find?_cons, find?_cons]
    by_cases same : key = name
    · simp [same]
    · simp only [same, decide_false]
      exact ih

theorem nonNegInt_reread {value : Value} (whole : nonNegInt value = some n) :
    nonNegInt (reread value) = some n := by
  cases value with
  | num x =>
    cases x with
    | finite x =>
      rw [reread, rereadNumber]
      by_cases zero : x.units = 0
      · rw [if_pos zero, nonNegInt, safeNat_ofNat (Nat.zero_le _)]
        rw [nonNegInt, safeNat, toInt?] at whole
        simp [zero] at whole
        exact congrArg some whole
      · rw [if_neg zero]
        exact whole
    | nan => cases whole
    | infinity negative => cases whole
  | null => cases whole
  | bool b => cases whole
  | str s => cases whole
  | arr items => cases whole
  | obj fields => cases whole

theorem natField_reread (whole : natField doc name = some n) :
    natField (rereadFields doc) name = some n := by
  obtain ⟨value, there, same⟩ := Option.bind_eq_some_iff.mp whole
  rw [natField, field_reread, there]
  exact nonNegInt_reread same

theorem pointWindow_reread {point : Value} {window : Window}
    (valid : pointWindow point = some window) : pointWindow (reread point) = some window := by
  cases point with
  | obj fields =>
    rw [reread]
    unfold pointWindow at valid ⊢
    dsimp only at valid ⊢
    split at valid
    next stamp baseline current saved source isStamp isBaseline isCurrent isSaved isSource =>
      rw [natField_reread isStamp, natField_reread isBaseline, natField_reread isCurrent,
        natField_reread isSaved, field_reread, isSource]
      exact valid
    next => cases valid
  | null => cases valid
  | bool b => cases valid
  | num n => cases valid
  | str s => cases valid
  | arr items => cases valid

theorem pointsWindow_reread {points : List Value} {window : Window}
    (valid : pointsWindow points = some window) :
    pointsWindow (rereadItems points) = some window := by
  induction points generalizing window with
  | nil => exact valid
  | cons point rest ih =>
    rw [pointsWindow] at valid
    split at valid
    next first sums isFirst isSums =>
      rw [rereadItems, pointsWindow, pointWindow_reread isFirst, ih isSums]
      exact valid
    next => cases valid

theorem length_rereadItems (points : List Value) : (rereadItems points).length = points.length := by
  induction points with
  | nil => rfl
  | cons point rest ih => rw [rereadItems, length_cons, length_cons, ih]

theorem pointsValid_reread {points : List Value} {baseline current saved : Nat}
    (valid : pointsValid points baseline current saved = true) :
    pointsValid (rereadItems points) baseline current saved = true := by
  unfold pointsValid at valid ⊢
  rw [length_rereadItems]
  cases window : pointsWindow points with
  | none => simp [window] at valid
  | some sums =>
    rw [pointsWindow_reread window]
    rw [window] at valid
    exact valid

theorem optionalField_reread {value : Option Value} {max : Option Nat}
    (valid : optionalField value max = true) : optionalField (value.map reread) max = true := by
  cases value with
  | none => rfl
  | some value =>
    rw [optionalField] at valid
    rw [Option.map_some, optionalField]
    cases whole : nonNegInt value with
    | none => simp [whole] at valid
    | some n =>
      rw [nonNegInt_reread whole]
      rw [whole] at valid
      exact valid

theorem isValidDoc_reread (valid : isValidDoc doc id = true) :
    isValidDoc (rereadFields doc) id = true := by
  unfold isValidDoc at valid ⊢
  simp only [Bool.and_eq_true, decide_eq_true_eq] at valid ⊢
  obtain ⟨⟨⟨⟨⟨version, session⟩, named⟩, updated⟩, totals⟩, perf⟩ := valid
  refine ⟨⟨⟨⟨⟨natField_reread version, session⟩, ?_⟩, ?_⟩, ?_⟩, ?_⟩
  · rw [field_reread]
    split at named
    next sessionId isId =>
      rw [isId]
      exact named
    next => cases named
  · obtain ⟨n, whole⟩ := Option.isSome_iff_exists.mp updated
    rw [natField_reread whole]
    rfl
  · split at totals
    next baseline current saved points isBaseline isCurrent isSaved isPoints =>
      rw [natField_reread isBaseline, natField_reread isCurrent, natField_reread isSaved,
        field_reread, isPoints, Option.map_some, reread]
      rw [Bool.and_eq_true] at totals ⊢
      exact ⟨totals.1, pointsValid_reread totals.2⟩
    next => cases totals
  · rw [all_eq_true] at perf ⊢
    intro field mem
    rw [field_reread]
    exact optionalField_reread (perf field mem)

theorem sessionIdOf_valid (valid : isValidDoc doc id = true) :
    sessionIdOf doc = id := by
  unfold isValidDoc at valid
  simp only [Bool.and_eq_true] at valid
  obtain ⟨⟨⟨⟨-, named⟩, -⟩, -⟩, -⟩ := valid
  unfold sessionIdOf
  split at named
  next => exact of_decide_eq_true named
  next => cases named

theorem isValidDoc_id {other : Text} (valid : isValidDoc doc id = true)
    (valid' : isValidDoc doc other = true) : id = other :=
  (sessionIdOf_valid valid).symm.trans (sessionIdOf_valid valid')

theorem freshSnapshot_names (id : Text) (now : Time) :
    (freshSnapshot id now).map Prod.fst = [js "v", js "sessionId", js "updatedAt",
      js "baselineTokens", js "currentTokens", js "savedTokens", js "points"] := rfl

theorem field_none (absent : name ∉ doc.map Prod.fst) :
    Json.field doc name = none := by
  rw [Json.field, Option.map_eq_none_iff, find?_eq_none]
  intro entry mem same
  exact absent (of_decide_eq_true same ▸ mem_map_of_mem mem)

theorem field_mem {value : Value} (nodup : (doc.map Prod.fst).Nodup) (mem : (name, value) ∈ doc) :
    Json.field doc name = some value := by
  induction doc with
  | nil => cases mem
  | cons entry rest ih =>
    rw [map_cons, nodup_cons] at nodup
    unfold Json.field at ih ⊢
    rw [find?_cons]
    rcases mem_cons.mp mem with same | later
    · simp [← same]
    · have other : entry.1 ≠ name := by
        rintro rfl
        exact nodup.1 (mem_map.mpr ⟨_, later, rfl⟩)
      simp only [other, decide_false]
      exact ih nodup.2 later

theorem freshSnapshot_valid (named : isValidSessionId id = true) (now : Time) :
    isValidDoc (freshSnapshot id now) id = true := by
  have nodup : ((freshSnapshot id now).map Prod.fst).Nodup := by
    rw [freshSnapshot_names]
    decide
  have nat : ∀ (name : Text) (n : Nat), n ≤ maxSafe →
      (name, .num (JsNumber.ofNat n)) ∈ freshSnapshot id now →
      natField (freshSnapshot id now) name = some n := by
    intro name n safe mem
    rw [natField, field_mem nodup mem, Option.bind_some, nonNegInt]
    exact safeNat_ofNat safe
  have zero : (0 : Nat) ≤ maxSafe := Nat.zero_le _
  have small : (1 : Nat) ≤ maxSafe := by decide
  have clock : now.val ≤ maxSafe := Nat.le_sub_one_of_lt now.isLt
  have version := nat (js "v") 1 small (.head _)
  have session : Json.field (freshSnapshot id now) (js "sessionId") = some (.str id) :=
    field_mem nodup (.tail _ (.head _))
  have updated := nat (js "updatedAt") now clock (.tail _ (.tail _ (.head _)))
  have baseline := nat (js "baselineTokens") 0 zero (.tail _ (.tail _ (.tail _ (.head _))))
  have current := nat (js "currentTokens") 0 zero
    (.tail _ (.tail _ (.tail _ (.tail _ (.head _)))))
  have saved := nat (js "savedTokens") 0 zero
    (.tail _ (.tail _ (.tail _ (.tail _ (.tail _ (.head _))))))
  have points : Json.field (freshSnapshot id now) (js "points") = some (.arr []) :=
    field_mem nodup (.tail _ (.tail _ (.tail _ (.tail _ (.tail _ (.tail _ (.head _)))))))
  have perf : ∀ field ∈ perfFields, Json.field (freshSnapshot id now) field.1 = none := by
    intro field mem
    apply field_none
    rw [freshSnapshot_names]
    exact (show ∀ field ∈ perfFields, field.1 ∉ [js "v", js "sessionId", js "updatedAt",
      js "baselineTokens", js "currentTokens", js "savedTokens", js "points"] by decide)
      field mem
  unfold isValidDoc
  rw [version, session, updated, baseline, current, saved, points, named]
  simp only [decide_true, Bool.and_self, Option.isSome_some, Nat.add_zero, Bool.and_eq_true,
    true_and, all_eq_true]
  refine ⟨by decide, fun field mem => ?_⟩
  rw [perf field mem]
  rfl

theorem validSnapshot_some {value : Option Value} (valid : validSnapshot id value = some doc) :
    value = some (.obj doc) ∧ isValidDoc doc id = true := by
  unfold validSnapshot at valid
  split at valid
  next doc' =>
    split at valid
    next allowed =>
      cases valid
      exact ⟨rfl, allowed⟩
    next => cases valid
  next => cases valid

theorem found_valid (named : isValidSessionId id = true) (now : Time) (disk : Disk) :
    isValidDoc (found id now disk) id = true := by
  unfold found
  cases both : (validSnapshot id (readJson (disk.file id))).or
      (validSnapshot id (readJson disk.latest)) with
  | none => exact freshSnapshot_valid named now
  | some doc =>
    rcases Option.or_eq_some_iff.mp both with own | ⟨-, live⟩
    · exact (validSnapshot_some own).2
    · exact (validSnapshot_some live).2

/-- What the memory owes to the files. -/
def bodies (memory : Text → Option Doc) (id : Text) : Option File := (memory id).map .written

/-- The memory holds valid snapshots of their sessions. -/
def Valid (memory : Text → Option Doc) : Prop :=
  ∀ id doc, memory id = some doc → isValidDoc doc id = true

theorem drainAll_eq (ids : List Text) {l : Ledger} (valid : Valid l.memory) :
    ∃ completed, ids.foldl (fun l id => match l.memory id with
      | none => l
      | some doc => writeSnapshot doc l) l =
        { l with completed := completed, disk := drain (bodies l.memory) ids l.disk } := by
  induction ids generalizing l with
  | nil => exact ⟨l.completed, rfl⟩
  | cons id rest ih =>
    rw [foldl_cons]
    cases here : l.memory id with
    | none =>
      obtain ⟨completed, same⟩ := ih valid
      refine ⟨completed, same.trans ?_⟩
      simp [drain, bodies, here]
    | some doc =>
      obtain ⟨completed, same⟩ := @ih (writeSnapshot doc l) valid
      refine ⟨completed, same.trans ?_⟩
      simp [drain, bodies, here, writeSnapshot, sessionIdOf_valid (valid id doc here)]

theorem drainDirty_eq {l : Ledger} (valid : Valid l.memory) :
    ∃ completed, drainDirty l = { l with
      dirty := [], flushTimer := false, completed := completed
      disk := drain (bodies l.memory) l.dirty l.disk } :=
  drainAll_eq l.dirty (l := { l with dirty := [], flushTimer := false }) valid

/-- The totals once the snapshot of a session was found. -/
def adopted (usage : Text → Option ProviderTotals) (id : Text) (doc : Doc) :
    Text → Option ProviderTotals :=
  (adoptUsage id doc ⟨fun _ => none, usage, [], false, 0, 0, none, ⟨fun _ => none, none⟩⟩).usage

theorem adoptUsage_eq (id : Text) (doc : Doc) (l : Ledger) :
    adoptUsage id doc l = { l with usage := adopted l.usage id doc } := by
  unfold adopted adoptUsage
  dsimp only
  split <;> rfl

end Ultrathink.Source.TokenOpt
