import Ultrathink.Library.TextOrder
import Ultrathink.Source.Store.Snapshots

/-!
# What the retention plan keeps

The plan sorts the parsed names and elects, in one pass, the newest entry that is not in the
future and the newest of each bucket in the thinned band. The election is characterised as a
maximum; the plan, and the plan made again on what it keeps, are read off that.
-/

namespace Ultrathink.Guarantees.SnapshotPlan

open List Library JsText Source.Store.Snapshots

variable {entry a b : Entry} {entries : List Entry}

theorem notNewer_iff :
    notNewer a b = true ↔ a.ms < b.ms ∨ (a.ms = b.ms ∧ le a.name b.name = true) := by
  simp [notNewer]

theorem notNewer_refl (a : Entry) : notNewer a a = true :=
  notNewer_iff.mpr (.inr ⟨rfl, le_refl a.name⟩)

theorem notNewer_total (a b : Entry) : notNewer a b = true ∨ notNewer b a = true := by
  rw [notNewer_iff, notNewer_iff]
  rcases Int.lt_trichotomy a.ms b.ms with less | same | more
  · exact .inl (.inl less)
  · rcases le_total a.name b.name with front | back
    · exact .inl (.inr ⟨same, front⟩)
    · exact .inr (.inr ⟨same.symm, back⟩)
  · exact .inr (.inl more)

theorem notNewer_trans {c : Entry} (left : notNewer a b = true) (right : notNewer b c = true) :
    notNewer a c = true := by
  rw [notNewer_iff] at left right ⊢
  rcases left with less | ⟨same, front⟩
  · rcases right with more | ⟨same', -⟩
    · exact .inl (by omega)
    · exact .inl (by omega)
  · rcases right with more | ⟨same', back⟩
    · exact .inl (by omega)
    · exact .inr ⟨by omega, le_trans front back⟩

theorem notNewer_antisymm (left : notNewer a b = true) (right : notNewer b a = true) : a = b := by
  obtain ⟨name, ms⟩ := a
  obtain ⟨name', ms'⟩ := b
  rw [notNewer_iff] at left right
  dsimp only at left right
  rcases left with less | ⟨rfl, front⟩
  · omega
  · rcases right with more | ⟨-, back⟩
    · omega
    · rw [le_antisymm front back]

theorem notNewer_of_isNewer (newer : isNewer a b = true) : notNewer b a = true := by
  rcases notNewer_total a b with other | done
  · rw [isNewer, other] at newer
    cases newer
  · exact done

theorem notNewer_of_not_isNewer (older : ¬ isNewer a b = true) :
    notNewer a b = true := by
  simpa [isNewer] using older

/-- The newest entry of those that `among` holds of. -/
def Newest (entries : List Entry) (among : Entry → Prop) (winner : Option Entry) : Prop :=
  match winner with
  | none => ∀ entry ∈ entries, ¬ among entry
  | some best => best ∈ entries ∧ among best ∧ ∀ entry ∈ entries, among entry → notNewer entry best = true

theorem Newest.skip {entries : List Entry} {among : Entry → Prop} {winner : Option Entry}
    (newest : Newest entries among winner) {entry : Entry} (out : ¬ among entry) :
    Newest (entries ++ [entry]) among winner := by
  have last : ∀ other ∈ entries ++ [entry], other ∈ entries ∨ ¬ among other := by
    intro other mem
    rcases mem_append.mp mem with old | new
    · exact .inl old
    · rw [mem_singleton.mp new]
      exact .inr out
  cases winner with
  | none =>
    intro other mem
    rcases last other mem with old | out
    · exact newest other old
    · exact out
  | some best =>
    obtain ⟨held, isAmong, most⟩ := newest
    refine ⟨mem_append_left _ held, isAmong, ?_⟩
    intro other mem inside
    rcases last other mem with old | out
    · exact most other old inside
    · exact absurd inside out

theorem Newest.add {among : Entry → Prop} {winner : Option Entry}
    (newest : Newest entries among winner) (inside : among entry) :
    Newest (entries ++ [entry]) among (if newer entry winner then some entry else winner) := by
  have self : entry ∈ entries ++ [entry] := mem_append_right _ (mem_singleton.mpr rfl)
  cases winner with
  | none =>
    refine ⟨self, inside, ?_⟩
    intro other mem isAmong
    rcases mem_append.mp mem with old | new
    · exact absurd isAmong (newest other old)
    · rw [mem_singleton.mp new]
      exact notNewer_refl entry
  | some best =>
    obtain ⟨held, bestAmong, most⟩ := newest
    by_cases isNewest : isNewer entry best = true
    · rw [if_pos (show newer entry (some best) = true from isNewest)]
      refine ⟨self, inside, ?_⟩
      intro other mem isAmong
      rcases mem_append.mp mem with old | new
      · exact notNewer_trans (most other old isAmong) (notNewer_of_isNewer isNewest)
      · rw [mem_singleton.mp new]
        exact notNewer_refl entry
    · rw [if_neg (show ¬ newer entry (some best) = true from isNewest)]
      refine ⟨mem_append_left _ held, bestAmong, ?_⟩
      intro other mem isAmong
      rcases mem_append.mp mem with old | new
      · exact most other old isAmong
      · rw [mem_singleton.mp new]
        exact notNewer_of_not_isNewer isNewest

section Plan

variable (nowMs : ℚ) (windows : RetentionWindows)

def Past (entry : Entry) : Prop := isFuture nowMs entry = false

/-- In the thinned band, in this bucket. -/
def InBucket (bucket : ℤ) (entry : Entry) : Prop :=
  inBand nowMs windows entry = true ∧ bucketOf windows entry = bucket

theorem past_of_inBand {nowMs : ℚ} {windows : RetentionWindows}
    (band : inBand nowMs windows entry = true) : Past nowMs entry := by
  simp only [inBand, Bool.and_eq_true, Bool.not_eq_true'] at band
  exact band.1.1

structure Elected (entries : List Entry) (s : Winners) : Prop where
  newest : Newest entries (Past nowMs) s.newest
  winners : ∀ bucket, Newest entries (InBucket nowMs windows bucket) (s.winners.get? bucket)

theorem elect_elected {s : Winners} (elected : Elected nowMs windows entries s) (entry : Entry) :
    Elected nowMs windows (entries ++ [entry]) (elect nowMs windows s entry) := by
  unfold elect
  split
  · next future =>
    have notPast : ¬ Past nowMs entry := by
      rw [Past, future]
      exact Bool.noConfusion
    exact ⟨elected.newest.skip notPast,
      fun bucket => (elected.winners bucket).skip fun band => notPast (past_of_inBand band.1)⟩
  · next present =>
    have past : Past nowMs entry := by simpa [Past] using present
    dsimp only
    split
    · next outside =>
      have notBand : ¬ inBand nowMs windows entry = true := by simpa using outside
      exact ⟨elected.newest.add past, fun bucket => (elected.winners bucket).skip fun band => notBand band.1⟩
    · next inside =>
      have band : inBand nowMs windows entry = true := by simpa using inside
      refine ⟨elected.newest.add past, fun bucket => ?_⟩
      by_cases own : bucketOf windows entry = bucket
      · subst own
        have added := (elected.winners (bucketOf windows entry)).add ⟨band, rfl⟩
        split at added
        · next isNewest =>
          rw [if_pos isNewest, OrderedMap.get?_set_self]
          exact added
        · next older =>
          rw [if_neg older]
          exact added
      · have skipped : Newest (entries ++ [entry]) (InBucket nowMs windows bucket)
            (s.winners.get? bucket) := (elected.winners bucket).skip fun band => own band.2
        dsimp only
        split
        · rw [OrderedMap.get?_set_of_ne _ _ (Ne.symm own)]
          exact skipped
        · exact skipped

theorem fold_elected (entries : List Entry) :
    Elected nowMs windows entries (entries.foldl (elect nowMs windows) ⟨none, .empty⟩) := by
  induction entries using List.reverseRecOn with
  | nil =>
    refine ⟨fun entry mem => absurd mem not_mem_nil, fun bucket => ?_⟩
    have none : (OrderedMap.empty : OrderedMap ℤ Entry).get? bucket = none := OrderedMap.get?_empty _
    rw [foldl_nil, none]
    exact fun entry mem => absurd mem not_mem_nil
  | append_singleton entries entry ih =>
    rw [foldl_append]
    exact elect_elected nowMs windows ih entry

variable {nowMs windows}
variable {entries : List Entry} {s : Winners}

theorem past_iff : Past nowMs entry ↔ (entry.ms : ℚ) ≤ nowMs := by
  simp [Past, isFuture]

theorem kept_newest (elected : Elected nowMs windows entries s) (mem : entry ∈ entries)
    (past : Past nowMs entry) :
    ∃ best ∈ entries, Past nowMs best ∧ isKept nowMs windows s best = true ∧
      ∀ other ∈ entries, Past nowMs other → notNewer other best = true := by
  have newest := elected.newest
  cases found : s.newest with
  | none =>
    rw [found] at newest
    exact absurd past (newest entry mem)
  | some best =>
    rw [found] at newest
    obtain ⟨held, bestPast, most⟩ := newest
    refine ⟨best, held, bestPast, ?_, most⟩
    simp [isKept, found]

theorem kept_winner (elected : Elected nowMs windows entries s) (mem : entry ∈ entries)
    (band : inBand nowMs windows entry = true) :
    ∃ best ∈ entries, inBand nowMs windows best = true ∧
      bucketOf windows best = bucketOf windows entry ∧ isKept nowMs windows s best = true ∧
      s.winners.get? (bucketOf windows entry) = some best ∧ notNewer entry best = true := by
  have winner := elected.winners (bucketOf windows entry)
  cases found : s.winners.get? (bucketOf windows entry) with
  | none =>
    rw [found] at winner
    exact absurd ⟨band, rfl⟩ (winner entry mem)
  | some best =>
    rw [found] at winner
    obtain ⟨held, ⟨bestBand, bucket⟩, most⟩ := winner
    refine ⟨best, held, bestBand, bucket, ?_, rfl, most entry mem ⟨band, rfl⟩⟩
    have window : ageOf nowMs best ≤ windows.windowMs := by
      simp only [inBand, Bool.and_eq_true, decide_eq_true_eq] at bestBand
      exact bestBand.2
    simp [isKept, bucket, found, window]

theorem inBand_of_deleted (deleted : isKept nowMs windows s entry = false)
    (window : ageOf nowMs entry ≤ windows.windowMs) : inBand nowMs windows entry = true := by
  simp only [isKept, Bool.or_eq_false_iff, decide_eq_false_iff_not] at deleted
  obtain ⟨⟨⟨present, -⟩, old⟩, -⟩ := deleted
  simp only [inBand, present, Bool.not_false, Bool.true_and, Bool.and_eq_true, decide_eq_true_eq]
  exact ⟨not_le.mp old, window⟩

theorem isKept_cases (kept : isKept nowMs windows s entry = true) :
    isFuture nowMs entry = true ∨ (∃ newest, s.newest = some newest ∧ entry.name = newest.name) ∨
      ageOf nowMs entry ≤ windows.recentMs ∨
      (ageOf nowMs entry ≤ windows.windowMs ∧
        s.winners.get? (bucketOf windows entry) = some entry) := by
  simp only [isKept, Bool.or_eq_true, Bool.and_eq_true, decide_eq_true_eq, Option.any_eq_true] at kept
  rcases kept with ((future | ⟨newest, found, name⟩) | recent) | band
  · exact .inl future
  · exact .inr (.inl ⟨newest, found, name⟩)
  · exact .inr (.inr (.inl recent))
  · exact .inr (.inr (.inr band))

theorem kept_again (elected : Elected nowMs windows entries s) {s' : Winners}
    (elected' : Elected nowMs windows (entries.filter (isKept nowMs windows s)) s')
    (mem : entry ∈ entries.filter (isKept nowMs windows s)) :
    isKept nowMs windows s' entry = true := by
  obtain ⟨held, kept⟩ := mem_filter.mp mem
  rcases isKept_cases kept with future | ⟨newest, found, name⟩ | recent | ⟨window, won⟩
  · simp [isKept, future]
  · -- the newest of all is the newest of what was kept
    have top := elected.newest
    rw [found] at top
    obtain ⟨newestHeld, newestPast, most⟩ := top
    have newestKept : newest ∈ entries.filter (isKept nowMs windows s) :=
      mem_filter.mpr ⟨newestHeld, by simp [isKept, found]⟩
    have top' := elected'.newest
    cases found' : s'.newest with
    | none =>
      rw [found'] at top'
      exact absurd newestPast (top' newest newestKept)
    | some best =>
      rw [found'] at top'
      obtain ⟨bestHeld, bestPast, most'⟩ := top'
      have same := notNewer_antisymm (most best (mem_filter.mp bestHeld).1 bestPast)
        (most' newest newestKept newestPast)
      simp [isKept, found', same, name]
  · simp [isKept, recent]
  · by_cases old : ageOf nowMs entry ≤ windows.recentMs
    · simp [isKept, old]
    have top := elected.winners (bucketOf windows entry)
    rw [won] at top
    obtain ⟨-, inBucket, most⟩ := top
    have top' := elected'.winners (bucketOf windows entry)
    cases found' : s'.winners.get? (bucketOf windows entry) with
    | none =>
      rw [found'] at top'
      exact absurd inBucket (top' entry mem)
    | some best =>
      rw [found'] at top'
      obtain ⟨bestHeld, bestBucket, most'⟩ := top'
      have same := notNewer_antisymm (most best (mem_filter.mp bestHeld).1 bestBucket)
        (most' entry mem inBucket)
      simp [isKept, found', same, window]

end Plan

/-- The entries are parsed names, each once. -/
structure Parsed (entries : List Entry) : Prop where
  distinct : (entries.map Entry.name).Nodup
  times : ∀ entry ∈ entries, parseStamp entry.name = some entry.ms

theorem Parsed.add (parsed : Parsed entries) {name : Text} {ms : ℤ}
    (time : parseStamp name = some ms) (fresh : name ∉ entries.map Entry.name) :
    Parsed (entries ++ [⟨name, ms⟩]) := by
  constructor
  · rw [map_append, nodup_append]
    refine ⟨parsed.distinct, nodup_singleton _, ?_⟩
    intro a front b last same
    rw [same, mem_singleton.mp last] at front
    exact fresh front
  · intro entry mem
    rcases mem_append.mp mem with old | new
    · exact parsed.times entry old
    · rw [mem_singleton.mp new]
      exact time

theorem any_name {name : Text} :
    entries.any (·.name = name) = true ↔ name ∈ entries.map Entry.name := by
  rw [any_eq_true, mem_map]
  simp only [decide_eq_true_eq]

theorem parsedEntries_snoc (names : List Text) (name : Text) :
    parsedEntries (names ++ [name]) =
      match parseStamp name with
      | none => parsedEntries names
      | some ms => if (parsedEntries names).any (·.name = name) then parsedEntries names
        else parsedEntries names ++ [⟨name, ms⟩] := by
  rw [parsedEntries, foldl_append]
  rfl

theorem parsedEntries_spec (names : List Text) :
    Parsed (parsedEntries names) ∧
      ∀ name ms, (⟨name, ms⟩ : Entry) ∈ parsedEntries names ↔
        name ∈ names ∧ parseStamp name = some ms := by
  induction names using List.reverseRecOn with
  | nil =>
    refine ⟨⟨nodup_nil, fun entry mem => absurd mem not_mem_nil⟩, fun name ms => ?_⟩
    simp [parsedEntries]
  | append_singleton names name ih =>
    obtain ⟨parsed, members⟩ := ih
    have same : ∀ other ms, (name = other → parseStamp other = some ms →
        (⟨other, ms⟩ : Entry) ∈ parsedEntries names) →
        ((⟨other, ms⟩ : Entry) ∈ parsedEntries names ↔
          other ∈ names ++ [name] ∧ parseStamp other = some ms) := by
      intro other ms known
      rw [mem_append, mem_singleton, members]
      constructor
      · exact fun ⟨mem, time⟩ => ⟨.inl mem, time⟩
      · rintro ⟨old | rfl, time⟩
        · exact ⟨old, time⟩
        · exact (members _ ms).mp (known rfl time)
    rw [parsedEntries_snoc]
    cases time : parseStamp name with
    | none =>
      refine ⟨parsed, fun other ms => same other ms ?_⟩
      rintro rfl found
      rw [time] at found
      cases found
    | some ms =>
      dsimp only
      split
      · next known =>
        refine ⟨parsed, fun other ms' => same other ms' ?_⟩
        rintro rfl found
        obtain ⟨entry, mem, rfl⟩ := mem_map.mp (any_name.mp known)
        have own := parsed.times entry mem
        rw [own] at found
        obtain rfl := Option.some.inj found
        exact mem
      · next fresh =>
        have new : name ∉ (parsedEntries names).map Entry.name := fun mem => fresh (any_name.mpr mem)
        refine ⟨parsed.add time new, fun other ms' => ?_⟩
        rw [mem_append, mem_append, mem_singleton, mem_singleton, members,
          Entry.mk.injEq]
        constructor
        · rintro (⟨old, found⟩ | ⟨rfl, rfl⟩)
          · exact ⟨.inl old, found⟩
          · exact ⟨.inr rfl, time⟩
        · rintro ⟨old | rfl, found⟩
          · exact .inl ⟨old, found⟩
          · rw [time] at found
            exact .inr ⟨rfl, (Option.some.inj found).symm⟩

theorem parsedEntries_names (parsed : Parsed entries) :
    parsedEntries (entries.map Entry.name) = entries := by
  induction entries using List.reverseRecOn with
  | nil => rfl
  | append_singleton entries entry ih =>
    have distinct := parsed.distinct
    rw [map_append, nodup_append] at distinct
    obtain ⟨front, -, apart⟩ := distinct
    have before : Parsed entries := ⟨front, fun e mem => parsed.times e (mem_append_left _ mem)⟩
    have time := parsed.times entry (mem_append_right _ (mem_singleton.mpr rfl))
    have fresh : ¬ (entries.any (·.name = entry.name) = true) := by
      intro known
      exact apart _ (any_name.mp known) _ (mem_singleton.mpr rfl) rfl
    rw [map_append, map_singleton, parsedEntries_snoc, ih before, time]
    dsimp only
    rw [if_neg fresh]

theorem Parsed.perm {sorted : List Entry} (parsed : Parsed entries) (perm : sorted.Perm entries) :
    Parsed sorted :=
  ⟨(perm.map Entry.name).nodup_iff.mpr parsed.distinct,
    fun entry mem => parsed.times entry (perm.subset mem)⟩

theorem Parsed.filter (parsed : Parsed entries) (p : Entry → Bool) :
    Parsed (entries.filter p) :=
  ⟨parsed.distinct.sublist (filter_sublist.map _),
    fun entry mem => parsed.times entry (mem_filter.mp mem).1⟩

def sortedEntries (names : List Text) : List Entry :=
  (parsedEntries names).insertionSort fun a b => notNewer a b

theorem sorted_pairwise (names : List Text) :
    (sortedEntries names).Pairwise fun a b => notNewer a b = true := by
  have total : Std.Total (fun a b : Entry => notNewer a b = true) := ⟨notNewer_total⟩
  have trans : IsTrans Entry (fun a b => notNewer a b = true) := ⟨fun _ _ _ => notNewer_trans⟩
  exact pairwise_insertionSort _ _

theorem sortedEntries_spec (names : List Text) :
    Parsed (sortedEntries names) ∧ ∀ entry, entry ∈ sortedEntries names ↔
      entry.name ∈ names ∧ parseStamp entry.name = some entry.ms := by
  obtain ⟨parsed, members⟩ := parsedEntries_spec names
  have perm : (sortedEntries names).Perm (parsedEntries names) := perm_insertionSort _ _
  refine ⟨parsed.perm perm, fun entry => ?_⟩
  rw [perm.mem_iff]
  exact members entry.name entry.ms

/-- What the plan promises about the names. -/
structure GoodPlan (names : List Text) (nowMs : ℚ) (windows : RetentionWindows)
    (plan : RetentionPlan) : Prop where
  distinct : (plan.keep ++ plan.delete).Nodup
  whole : ∀ name, name ∈ plan.keep ++ plan.delete ↔ name ∈ names ∧ (parseStamp name).isSome
  /-- The newest name that is not in the future is kept. -/
  newest : ∀ name ∈ names, ∀ ms, parseStamp name = some ms → (ms : ℚ) ≤ nowMs →
    ∃ best ∈ plan.keep, ∃ bestMs, parseStamp best = some bestMs ∧ (bestMs : ℚ) ≤ nowMs ∧
      ∀ other ∈ names, ∀ otherMs, parseStamp other = some otherMs → (otherMs : ℚ) ≤ nowMs →
        notNewer ⟨other, otherMs⟩ ⟨best, bestMs⟩ = true
  /-- A deleted name inside the window has a newer kept name in its bucket. -/
  covered : ∀ name ∈ plan.delete, ∀ ms, parseStamp name = some ms →
    nowMs - ms ≤ windows.windowMs →
      ∃ kept ∈ plan.keep, ∃ keptMs, parseStamp kept = some keptMs ∧
        isNewer ⟨kept, keptMs⟩ ⟨name, ms⟩ = true ∧
        ⌊(keptMs : ℚ) / windows.thinMs⌋ = ⌊(ms : ℚ) / windows.thinMs⌋
  again : retentionPlan plan.keep nowMs windows = some ⟨plan.keep, []⟩

/-- Every plan is a partition of the parsed names that keeps the newest, deletes inside the
window only what a newer kept name stands for, and deletes nothing when it is made again. -/
theorem retention_plan (names : List Text) (nowMs : ℚ) (windows : RetentionWindows)
    (plan : RetentionPlan) (planned : retentionPlan names nowMs windows = some plan) :
    GoodPlan names nowMs windows plan := by
  have valid : ¬ (windows.recentMs < 0 ∨ windows.windowMs < 0 ∨ windows.thinMs ≤ 0) := by
    intro bad
    rw [retentionPlan, if_pos bad] at planned
    cases planned
  rw [retentionPlan, if_neg valid] at planned
  obtain rfl := Option.some.inj planned
  obtain ⟨parsed, members⟩ := sortedEntries_spec names
  have elected := fold_elected nowMs windows (sortedEntries names)
  let s := (sortedEntries names).foldl (elect nowMs windows) ⟨none, .empty⟩
  let kept := (sortedEntries names).filter (isKept nowMs windows s)
  let gone := (sortedEntries names).filter fun entry => !isKept nowMs windows s entry
  have parts : (kept ++ gone).Perm (sortedEntries names) := filter_append_perm _ _
  have whole : (kept.map Entry.name ++ gone.map Entry.name).Perm
      ((sortedEntries names).map Entry.name) := by
    rw [← map_append]
    exact parts.map _
  refine ⟨whole.nodup_iff.mpr parsed.distinct, fun name => ?_, ?_, ?_, ?_⟩
  · change name ∈ kept.map Entry.name ++ gone.map Entry.name ↔ _
    rw [whole.mem_iff, mem_map]
    constructor
    · rintro ⟨entry, mem, rfl⟩
      obtain ⟨listed, time⟩ := (members entry).mp mem
      exact ⟨listed, by rw [time]; rfl⟩
    · rintro ⟨listed, time⟩
      obtain ⟨ms, time⟩ := Option.isSome_iff_exists.mp time
      exact ⟨⟨name, ms⟩, (members ⟨name, ms⟩).mpr ⟨listed, time⟩, rfl⟩
  · intro name listed ms time past
    have mem := (members ⟨name, ms⟩).mpr ⟨listed, time⟩
    obtain ⟨best, bestMem, bestPast, bestKept, most⟩ := kept_newest elected mem (past_iff.mpr past)
    refine ⟨best.name, mem_map_of_mem (mem_filter.mpr ⟨bestMem, bestKept⟩), best.ms,
      parsed.times best bestMem, past_iff.mp bestPast, ?_⟩
    intro other otherListed otherMs otherTime otherPast
    exact most ⟨other, otherMs⟩ ((members _).mpr ⟨otherListed, otherTime⟩) (past_iff.mpr otherPast)
  · intro name deleted ms time window
    obtain ⟨entry, mem, rfl⟩ := mem_map.mp deleted
    obtain ⟨held, out⟩ := mem_filter.mp mem
    obtain rfl : entry.ms = ms := Option.some.inj ((parsed.times entry held).symm.trans time)
    have dropped : isKept nowMs windows s entry = false := by
      rw [Bool.not_eq_true'] at out
      exact out
    have band := inBand_of_deleted dropped window
    obtain ⟨best, bestMem, -, bucket, bestKept, -, older⟩ := kept_winner elected held band
    refine ⟨best.name, mem_map_of_mem (mem_filter.mpr ⟨bestMem, bestKept⟩), best.ms,
      parsed.times best bestMem, ?_, bucket⟩
    by_contra notNewer_
    have same := notNewer_antisymm older (notNewer_of_not_isNewer notNewer_)
    rw [same, bestKept] at dropped
    cases dropped
  · have again : parsedEntries (kept.map Entry.name) = kept :=
      parsedEntries_names (parsed.filter _)
    have ordered : kept.insertionSort (fun a b => notNewer a b) = kept :=
      List.Pairwise.insertionSort_eq ((sorted_pairwise names).sublist filter_sublist)
    have elected' := fold_elected nowMs windows kept
    have all : ∀ entry ∈ kept,
        isKept nowMs windows (kept.foldl (elect nowMs windows) ⟨none, .empty⟩) entry = true :=
      fun entry mem => kept_again elected elected' mem
    change retentionPlan (kept.map Entry.name) nowMs windows = some ⟨kept.map Entry.name, []⟩
    rw [retentionPlan, if_neg valid, again, ordered, planOf]
    have none_ : (kept.filter fun entry =>
        !isKept nowMs windows (kept.foldl (elect nowMs windows) ⟨none, .empty⟩) entry) = [] := by
      rw [filter_eq_nil_iff]
      intro entry mem
      rw [all entry mem]
      exact Bool.noConfusion
    rw [filter_eq_self.mpr all, none_]
    rfl

def ringNames : List Text :=
  [js "ultrathink-20260101T000000Z.sqlite", js "ultrathink-20260101T000000500Z", js "notes.txt"]

def ringWindows : RetentionWindows := ⟨1000, 3600000, 86400000⟩

def ringPlan : RetentionPlan :=
  ⟨[js "ultrathink-20260101T000000500Z"], [js "ultrathink-20260101T000000Z.sqlite"]⟩

theorem ring_planned : retentionPlan ringNames 1767229200000 ringWindows = some ringPlan := by
  decide +kernel

theorem retention_plan_ring : GoodPlan ringNames 1767229200000 ringWindows ringPlan :=
  retention_plan ringNames _ ringWindows ringPlan ring_planned

end Ultrathink.Guarantees.SnapshotPlan
