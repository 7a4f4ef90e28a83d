import Ultrathink.Source.Obs.AuditWatch

/-!
# What the audit watch owes and what it alerts

A full scan that falls due is a debt: it is in flight, owed, or judged. The debt is
kept in a book beside the watch, written from the events alone.
-/

namespace Ultrathink.Guarantees.AuditWatch

open List Library JsText Runs
open Source.Obs.AuditWatch

/-- The ticks whose full scan has not been judged, and the tick that started the scan
in flight. -/
structure Book where
  dues : List Nat
  began : Nat
  deriving DecidableEq

/-- A verdict on the state that a full scan saw settles every full scan that was due
when it began. A missing file is decided by the tick that finds it missing. -/
def note (every : Nat) (b : Book) (x : Step Watching Label) : Book :=
  let w := x.before.watch
  match x.label with
  | .tick current _ _ =>
    ⟨if isFullScan every w && current.isSome then b.dues ++ [w.ticks + 1] else b.dues,
      if w.scanning = none then w.ticks + 1 else b.began⟩
  | .settle (.outcome _) _ =>
    if w.scanning.any (fun scan => scan.full && scan.started = w.epoch) then
      { b with dues := b.dues.filter (fun due => b.began < due) }
    else b
  | .settle _ _ => b
  | .land => b

/-- The scan in flight will be judged as a full scan. -/
def fullInFlight (w : Watch) : Prop :=
  ∃ scan, w.scanning = some scan ∧ scan.full ∧ scan.settled = false

/-- Every due full scan that was not judged is covered by the scan in flight or owed. -/
def Accounted (w : Watch) (b : Book) : Prop :=
  ∀ due ∈ b.dues, (fullInFlight w ∧ due ≤ b.began) ∨ w.fullScanOwed

/-- A full scan's reply arrives after the file went missing, and no full scan is owed
by then. -/
def staleFullReply (x : Step Watching Label) : Bool :=
  match x.label with
  | .settle _ _ =>
    x.before.watch.scanning.any (fun scan => scan.full && scan.started ≠ x.before.watch.epoch) &&
      !x.before.watch.fullScanOwed
  | _ => false

structure BookInv (w : Watch) (b : Book) : Prop where
  accounted : Accounted w b
  past : ∀ due ∈ b.dues, due ≤ w.ticks

variable {every : Nat} {w w' : Watch} {s t : Watching} {current : Option Fingerprint}
  {ack : Acknowledged} {b : Book} {throws : Bool} {call : Option HookCall} {label : Label}

theorem dues_tick_of_missing (missing : current = none) :
    (note every b ⟨s, .tick current ack throws, t⟩).dues = b.dues := by
  simp [note, missing]

theorem tick_inv (effect : TickEffect every current ack s.watch t.watch call)
    (inv : BookInv s.watch b) :
    BookInv t.watch (note every b ⟨s, .tick current ack throws, t⟩) := by
  obtain ⟨accounted, past⟩ := inv
  -- A tick that finds no file adds no due scan and leaves the one in flight.
  have missingCase : current = none → t.watch.scanning = s.watch.scanning →
      t.watch.fullScanOwed = s.watch.fullScanOwed → t.watch.ticks = s.watch.ticks + 1 →
      BookInv t.watch (note every b ⟨s, .tick current ack throws, t⟩) := by
    intro missing scanning owed ticks
    refine ⟨fun due mem => ?_, fun due mem => ?_⟩
    · rw [dues_tick_of_missing missing] at mem
      rcases accounted due mem with ⟨⟨scan, flying, full, pending⟩, covered⟩ | debt
      · refine Or.inl ⟨⟨scan, scanning.trans flying, full, pending⟩, ?_⟩
        simpa [note, flying] using covered
      · exact Or.inr (owed ▸ debt)
    · rw [dues_tick_of_missing missing] at mem
      have earlier := past due mem
      omega
  generalize after : t.watch = w' at effect missingCase ⊢
  cases effect with
  | alerts missing acknowledged =>
    obtain ⟨scanning, -, ticks, owed⟩ := apply_active (some (missingFile ack))
      { s.watch with ticks := s.watch.ticks + 1, decided := none, epoch := s.watch.epoch + 1 }
    exact missingCase missing scanning owed ticks
  | clears missing empty full =>
    obtain ⟨scanning, -, ticks, owed⟩ := apply_active none
      { s.watch with ticks := s.watch.ticks + 1, decided := none, epoch := s.watch.epoch + 1 }
    exact missingCase missing scanning owed ticks
  | passes missing => exact missingCase missing rfl rfl rfl
  | waits present flying =>
    have some_ : current.isSome := Option.isSome_iff_ne_none.mpr present
    have began : (note every b ⟨s, .tick current ack throws, t⟩).began = b.began := by
      simp [note, flying]
    refine ⟨fun due mem => ?_, fun due mem => ?_⟩
    · simp only [note, some_, Bool.and_true] at mem
      cases cadence : isFullScan every s.watch with
      | true => exact Or.inr (by simp)
      | false =>
        simp only [cadence, Bool.false_eq_true, if_false] at mem
        rcases accounted due mem with ⟨⟨scan, held, full, pending⟩, covered⟩ | debt
        · exact Or.inl ⟨⟨scan, held, full, pending⟩, began ▸ covered⟩
        · exact Or.inr (by simp [debt])
    · simp only [note, some_, Bool.and_true] at mem
      split at mem
      · rcases mem_append.mp mem with old | new
        · have earlier := past due old
          exact Nat.le_succ_of_le earlier
        · exact le_of_eq (mem_singleton.mp new)
      · exact Nat.le_succ_of_le (past due mem)
  | same present decided resting cadence paid =>
    refine ⟨fun due mem => ?_, fun due mem => ?_⟩
    · simp only [note, cadence, Bool.false_and, Bool.false_eq_true, if_false] at mem
      rcases accounted due mem with ⟨⟨scan, held, -, -⟩, -⟩ | debt
      · rw [resting] at held
        cases held
      · rw [paid] at debt
        cases debt
    · simp only [note, cadence, Bool.false_and, Bool.false_eq_true, if_false] at mem
      exact Nat.le_succ_of_le (past due mem)
  | starts present resting =>
    have some_ : current.isSome := Option.isSome_iff_ne_none.mpr present
    have all : ∀ due ∈ (note every b ⟨s, .tick current ack throws, t⟩).dues,
        due ≤ s.watch.ticks + 1 := by
      intro due mem
      simp only [note, some_, Bool.and_true] at mem
      split at mem
      · rcases mem_append.mp mem with old | new
        · exact Nat.le_succ_of_le (past due old)
        · exact le_of_eq (mem_singleton.mp new)
      · exact Nat.le_succ_of_le (past due mem)
    have began : (note every b ⟨s, .tick current ack throws, t⟩).began = s.watch.ticks + 1 := by
      simp [note, resting]
    refine ⟨fun due mem => Or.inl ⟨⟨_, rfl, ?_, rfl⟩, began ▸ all due mem⟩, all⟩
    -- With nothing in flight, a due scan is the cadence's or an owed one.
    simp only [note, some_, Bool.and_true] at mem
    cases cadence : isFullScan every s.watch with
    | true => rfl
    | false =>
      simp only [cadence, Bool.false_eq_true, if_false] at mem
      rcases accounted due mem with ⟨⟨scan, held, -, -⟩, -⟩ | debt
      · rw [resting] at held
        cases held
      · simpa using debt

theorem settle_inv {reply : ScanReply} {scan : Scan} (flying : s.watch.scanning = some scan)
    (after : t.watch = (settle scan reply s.watch).1)
    (fresh : scan.full → scan.started ≠ s.watch.epoch → s.watch.fullScanOwed)
    (inv : BookInv s.watch b) : BookInv t.watch (note every b ⟨s, .settle reply throws, t⟩) := by
  obtain ⟨accounted, past⟩ := inv
  have owedOf : ∀ due ∈ b.dues, scan.full = false → s.watch.fullScanOwed := by
    intro due mem tail
    rcases accounted due mem with ⟨⟨other, held, full, -⟩, -⟩ | debt
    · rw [flying] at held
      cases held
      rw [tail] at full
      cases full
    · exact debt
  have ticks : t.watch.ticks = s.watch.ticks := by
    rw [after]
    unfold settle
    dsimp only
    split
    · rfl
    · split
      · rfl
      · exact (apply_active _ _).2.2.1
      · exact (apply_active _ _).2.2.1
  have dues : ∀ due ∈ (note every b ⟨s, .settle reply throws, t⟩).dues, due ∈ b.dues := by
    intro due mem
    unfold note at mem
    dsimp only at mem
    cases reply with
    | outcome outcome =>
      dsimp only at mem
      split at mem
      · exact (mem_filter.mp mem).1
      · exact mem
    | raced => exact mem
    | failed message => exact mem
  refine ⟨fun due mem => ?_, fun due mem => ticks ▸ past due (dues due mem)⟩
  right
  have held := dues due mem
  rw [after]
  unfold settle
  dsimp only
  split
  next stale =>
    cases full : scan.full with
    | true => exact fresh full stale
    | false => exact owedOf due held full
  next current =>
    have current : scan.started = s.watch.epoch := by simpa using current
    cases reply with
    | raced =>
      cases full : scan.full with
      | true => simp [owedAgain, full]
      | false => simp [owedAgain, owedOf due held full]
    | failed message =>
      obtain ⟨-, -, -, owed⟩ := apply_active
        (some ⟨.chainBroken, js "verifier failed: " ++ message⟩)
        (owedAgain scan { s.watch with scanning := some { scan with settled := true } })
      dsimp only
      rw [owed]
      cases full : scan.full with
      | true => simp [owedAgain, full]
      | false => simp [owedAgain, owedOf due held full]
    | outcome outcome =>
      obtain ⟨-, -, -, owed⟩ := apply_active (judge outcome scan.ack)
        { s.watch with scanning := some { scan with settled := true } }
      dsimp only
      rw [owed]
      cases full : scan.full with
      | true =>
        -- What is left in the book fell due after the judged scan began.
        simp only [note, flying, Option.any_some, full, current, decide_true, Bool.and_true,
          if_true, mem_filter, decide_eq_true_eq] at mem
        rcases accounted due mem.1 with ⟨-, covered⟩ | debt
        · have later := mem.2
          omega
        · exact debt
      | false => exact owedOf due held full

theorem step_inv (step : (watching every).step s label t)
    (fresh : staleFullReply ⟨s, label, t⟩ = false) (inv : BookInv s.watch b) :
    BookInv t.watch (note every b ⟨s, label, t⟩) := by
  obtain ⟨⟨w, shown⟩, taken, rfl⟩ := Option.map_eq_some_iff.mp step
  cases label with
  | tick current ack throws =>
    have effect := tick_effect every current ack s.watch
    cases taken
    exact tick_inv effect inv
  | settle reply throws =>
    simp only [Source.Obs.AuditWatch.next] at taken
    split at taken
    next scan flying =>
      split at taken
      · cases taken
      · have owed : scan.full → scan.started ≠ s.watch.epoch → s.watch.fullScanOwed := by
          intro full stale
          simpa [staleFullReply, flying, full, stale] using fresh
        cases taken
        exact settle_inv flying rfl owed inv
    · cases taken
  | land =>
    simp only [Source.Obs.AuditWatch.next] at taken
    split at taken
    next scan flying =>
      split at taken
      next settled =>
        cases taken
        refine ⟨fun due mem => ?_, inv.past⟩
        rcases inv.accounted due mem with ⟨⟨other, held, -, pending⟩, -⟩ | debt
        · rw [flying] at held
          cases held
          rw [settled] at pending
          cases pending
        · exact Or.inr debt
      · cases taken
    · cases taken

/-- As long as no full scan's reply is dropped for its age, every full scan that fell
due has been judged, is in flight or is owed. -/
theorem full_scans_accounted (every : Nat) {s t : Watching} {steps : List (Step Watching Label)}
    (start : (watching every).start s) (run : (watching every).Run s steps t)
    (fresh : ∀ x ∈ steps, staleFullReply x = false) :
    Accounted t.watch (steps.foldl (note every) ⟨[], 0⟩) := by
  obtain ⟨-, rfl⟩ := start
  have empty : BookInv createAuditWatch ⟨[], 0⟩ := ⟨by simp [Accounted], by simp⟩
  have inv := run.fold_invariant (note every) ⟨[], 0⟩ (fun s b => BookInv s.watch b)
    (fun x => staleFullReply x = false) empty (fun m b i n step met inv => step_inv step met inv)
    fresh
  exact inv.accounted

def sampleFile : Fingerprint := ⟨10, 1, 1⟩

def sampleHead : Acknowledged := ⟨some sampleFile, 1, js "h"⟩

def sampleOutcome : ScanReply := .outcome (.intact 1 (js "h"))

def after (every : Nat) (labels : List Label) : Watching :=
  runInputs (stepped (advance every)) ⟨createAuditWatch, []⟩ labels

def stepsOf (every : Nat) (labels : List Label) : List (Step Watching Label) :=
  traceOf (stepped (advance every)) ⟨createAuditWatch, []⟩ labels

/-- The full scan of the second tick comes back raced and runs again on the third. -/
def racedEvents : List Label :=
  [.tick (some sampleFile) sampleHead false, .tick (some sampleFile) sampleHead false,
    .settle .raced false, .land, .tick (some sampleFile) sampleHead false]

theorem full_scans_accounted_raced :
    Accounted (after 2 racedEvents).watch ((stepsOf 2 racedEvents).foldl (note 2) ⟨[], 0⟩) :=
  full_scans_accounted 2 ⟨by decide, rfl⟩ (run_stepped _ _ (by decide)) (by decide)

/-- The file is missing for one tick while the full scan of the second tick runs. -/
def lostEvents : List Label :=
  [.tick (some sampleFile) sampleHead false, .tick (some sampleFile) sampleHead false,
    .tick none sampleHead false, .settle sampleOutcome false, .land]

theorem full_scan_lost_to_missing_file :
    ¬∀ (every : Nat) {s t : Watching} {steps : List (Step Watching Label)},
      (watching every).start s → (watching every).Run s steps t →
        Accounted t.watch (steps.foldl (note every) ⟨[], 0⟩) := by
  intro all
  have accounted : Accounted (after 2 lostEvents).watch ((stepsOf 2 lostEvents).foldl (note 2) ⟨[], 0⟩) :=
    all 2 ⟨by decide, rfl⟩ (run_stepped _ lostEvents (by decide))
  have due : 2 ∈ ((stepsOf 2 lostEvents).foldl (note 2) ⟨[], 0⟩).dues := by decide
  have resting : (after 2 lostEvents).watch.scanning = none := by decide
  have paid : (after 2 lostEvents).watch.fullScanOwed = false := by decide
  rcases accounted 2 due with ⟨⟨scan, held, -⟩, -⟩ | debt
  · rw [resting] at held
    cases held
  · rw [paid] at debt
    cases debt

/-- Each alert has another reason than the one that stands, and a recovery ends an
alert. -/
def Follows : Option WatchAlert → List HookCall → Prop
  | _, [] => True
  | standing, .alert alert :: rest =>
    standing.map (·.reason) ≠ some alert.reason ∧ Follows (some alert) rest
  | standing, .recover :: rest => standing ≠ none ∧ Follows none rest

/-- The alert that stands after the calls. -/
def standing : Option WatchAlert → List HookCall → Option WatchAlert
  | now, [] => now
  | _, .alert alert :: rest => standing (some alert) rest
  | _, .recover :: rest => standing none rest

theorem standing_append (now : Option WatchAlert) (calls more : List HookCall) :
    standing now (calls ++ more) = standing (standing now calls) more := by
  induction calls generalizing now with
  | nil => rfl
  | cons call rest ih =>
    cases call with
    | alert alert => exact ih (some alert)
    | recover => exact ih none

theorem follows_append {now : Option WatchAlert} {calls more : List HookCall}
    (first : Follows now calls) (later : Follows (standing now calls) more) :
    Follows now (calls ++ more) := by
  induction calls generalizing now with
  | nil => exact later
  | cons call rest ih =>
    cases call with
    | alert alert => exact ⟨first.1, ih first.2 later⟩
    | recover => exact ⟨first.1, ih first.2 later⟩

theorem apply_follows (condition : Option WatchAlert) (w : Watch) {now : Option WatchAlert}
    (held : w.active = now) :
    Follows now (apply condition w).2.toList ∧
      (apply condition w).1.active = standing now (apply condition w).2.toList := by
  subst held
  unfold apply
  split
  · split
    · exact ⟨trivial, rfl⟩
    next raised => exact ⟨⟨raised, trivial⟩, rfl⟩
  · split
    · exact ⟨trivial, rfl⟩
    next other => exact ⟨⟨other, trivial⟩, rfl⟩

theorem tick_follows (effect : TickEffect every current ack w w' call) :
    Follows w.active call.toList ∧ w'.active = standing w.active call.toList := by
  cases effect with
  | alerts missing acknowledged => exact apply_follows _ _ rfl
  | clears missing empty full => exact apply_follows _ _ rfl
  | passes missing => exact ⟨trivial, rfl⟩
  | waits present flying => exact ⟨trivial, rfl⟩
  | same present decided resting cadence paid => exact ⟨trivial, rfl⟩
  | starts present resting => exact ⟨trivial, rfl⟩

theorem next_follows {shown : Shown} (taken : next every w label = some (w', shown)) :
    Follows w.active shown.call.toList ∧ w'.active = standing w.active shown.call.toList := by
  cases label with
  | tick current ack throws =>
    have effect := tick_effect every current ack w
    cases taken
    exact tick_follows effect
  | settle reply throws =>
    simp only [Source.Obs.AuditWatch.next] at taken
    split at taken
    next scan flying =>
      split at taken
      · cases taken
      · cases taken
        unfold settle
        dsimp only
        split
        · exact ⟨trivial, rfl⟩
        · split
          · exact ⟨trivial, rfl⟩
          · exact apply_follows _ _ rfl
          · exact apply_follows _ _ rfl
    · cases taken
  | land =>
    simp only [Source.Obs.AuditWatch.next] at taken
    split at taken
    · split at taken
      · cases taken
        exact ⟨trivial, rfl⟩
      · cases taken
    · cases taken

/-- A scan of this epoch is judged healthy, or a full tick finds no file and no record
was ever acknowledged. -/
def JudgedHealthy (every : Nat) (w : Watch) : Label → Prop
  | .settle (.outcome outcome) _ =>
    ∃ scan, w.scanning = some scan ∧ scan.started = w.epoch ∧ judge outcome scan.ack = none
  | .tick current ack _ => current = none ∧ ack.seq = 0 ∧ isFullScan every w
  | _ => False

theorem apply_clears {condition : Option WatchAlert} (cleared : (apply condition w).1.active = none)
    (raised : w.active ≠ none) :
    condition = none := by
  unfold apply at cleared
  split at cleared
  · rfl
  · split at cleared
    · exact absurd cleared raised
    · cases cleared

theorem tick_clears (effect : TickEffect every current ack w w' call) (raised : w.active ≠ none)
    (cleared : w'.active = none) :
    current = none ∧ ack.seq = 0 ∧ isFullScan every w := by
  cases effect with
  | alerts missing acknowledged => cases apply_clears cleared raised
  | clears missing empty full => exact ⟨missing, empty, full⟩
  | passes missing => exact absurd cleared raised
  | waits present flying => exact absurd cleared raised
  | same present decided resting cadence paid => exact absurd cleared raised
  | starts present resting => exact absurd cleared raised

theorem next_clears {shown : Shown} (taken : next every w label = some (w', shown))
    (raised : w.active ≠ none) (cleared : w'.active = none) : JudgedHealthy every w label := by
  cases label with
  | tick current ack throws =>
    have effect := tick_effect every current ack w
    cases taken
    exact tick_clears effect raised cleared
  | settle reply throws =>
    simp only [Source.Obs.AuditWatch.next] at taken
    split at taken
    next scan flying =>
      split at taken
      · cases taken
      · cases taken
        unfold settle at cleared
        dsimp only at cleared
        split at cleared
        · exact absurd cleared raised
        next current =>
          have current : scan.started = w.epoch := by simpa using current
          split at cleared
          · exact absurd cleared raised
          next outcome =>
            have healthy := apply_clears cleared raised
            exact ⟨scan, flying, current, healthy⟩
          next message =>
            have cond := apply_clears cleared raised
            cases cond
    · cases taken
  | land =>
    simp only [Source.Obs.AuditWatch.next] at taken
    split at taken
    · split at taken
      · cases taken
        exact absurd cleared raised
      · cases taken
    · cases taken

/-- A hook that throws while a reply is judged: the error goes to `onError`, none
leaves the watch, and the watch goes on as if nothing had been thrown. -/
def ThrowIsCaught (every : Nat) (w : Watch) (reply : ScanReply) : Prop :=
  ∀ w' shown, next every w (.settle reply true) = some (w', shown) →
    shown.escaped = false ∧ (shown.call ≠ none → shown.reported) ∧
      ∃ quiet, next every w (.settle reply false) = some (w', quiet) ∧ quiet.call = shown.call

theorem settle_throw_caught (every : Nat) (w : Watch) (reply : ScanReply) :
    ThrowIsCaught every w reply := by
  intro w' shown taken
  unfold Source.Obs.AuditWatch.next at taken ⊢
  dsimp only at taken ⊢
  split at taken
  next scan flying =>
    split at taken
    · cases taken
    next pending =>
      cases taken
      rw [if_neg pending]
      refine ⟨rfl, fun called => ?_, _, rfl, rfl⟩
      simpa using Option.isSome_iff_ne_none.mpr called
  · cases taken

/-- The alerts and recoveries of every run: an alert follows one of another reason or a
recovery, a recovery ends an alert, and only a state judged healthy clears one. -/
theorem watch_alerts (every : Nat) {s t : Watching} {steps : List (Step Watching Label)}
    (start : (watching every).start s) (run : (watching every).Run s steps t) :
    Follows none t.calls ∧
      (∀ x ∈ steps, x.before.watch.active ≠ none → x.after.watch.active = none →
        JudgedHealthy every x.before.watch x.label) ∧
      ∀ x ∈ steps, ∀ reply, ThrowIsCaught every x.before.watch reply := by
  obtain ⟨-, rfl⟩ := start
  refine ⟨?_, fun x mem raised cleared => ?_, fun x mem reply => settle_throw_caught every _ reply⟩
  · have inv := run.invariant
      (fun s => Follows none s.calls ∧ s.watch.active = standing none s.calls) ⟨trivial, rfl⟩
      (fun m label n step held => by
        obtain ⟨⟨w, shown⟩, taken, rfl⟩ := Option.map_eq_some_iff.mp step
        obtain ⟨follows, active⟩ := next_follows taken
        refine ⟨follows_append held.1 (held.2 ▸ follows), ?_⟩
        rw [standing_append, ← held.2]
        exact active)
    exact inv.1
  · obtain ⟨⟨w, shown⟩, taken, same⟩ := Option.map_eq_some_iff.mp (run.mem_step x mem)
    rw [← same] at cleared
    exact next_clears taken raised cleared

/-- The chain breaks, and breaks again in another place. -/
def brokenTwiceEvents : List Label :=
  [.tick (some ⟨11, 2, 1⟩) sampleHead false,
    .settle (.outcome (.broken 0 1 (js "not valid JSON"))) false, .land,
    .tick (some ⟨12, 3, 1⟩) sampleHead false,
    .settle (.outcome (.broken 1 2 (js "not valid JSON"))) false]

/-- Alert, recovery, alert and so on. -/
def alternates : Bool → List HookCall → Bool
  | _, [] => true
  | raised, .alert _ :: rest => !raised && alternates true rest
  | raised, .recover :: rest => raised && alternates false rest

theorem alerts_twice_without_recovery :
    ¬∀ (every : Nat) {s t : Watching} {steps : List (Step Watching Label)},
      (watching every).start s → (watching every).Run s steps t → alternates false t.calls := by
  intro all
  have alternate := all 60 ⟨by decide, rfl⟩ (run_stepped _ brokenTwiceEvents (by decide))
  revert alternate
  decide

theorem watch_alerts_broken_twice :
    Follows none (after 60 brokenTwiceEvents).calls :=
  (watch_alerts 60 ⟨by decide, rfl⟩ (run_stepped _ _ (by decide))).1

end Ultrathink.Guarantees.AuditWatch
