import Ultrathink.Library.Runs
import Ultrathink.Library.JsText

/-!
# Audit tamper watch

`createAuditWatch` of `obs/audit-watch.ts`. A scan runs off the tick that started
it: its reply is judged when it settles, and it stops being in flight one turn of
the event loop later. `watching` is the watch in any surroundings; the hooks it
calls may throw.
-/

namespace Ultrathink.Source.Obs.AuditWatch

open Library JsText Runs

/-- Identity of the audit file as `stat` sees it. -/
structure Fingerprint where
  size : Nat
  mtimeMs : Int
  ino : Nat
  deriving DecidableEq

inductive ScanOutcome where
  | intact (records : Nat) (lastHash : Text)
  | broken (records brokenAt : Nat) (reason : Text)
  deriving DecidableEq

/-- `raced` when the chain changed under the scan, `failed` when the scan rejected. -/
inductive ScanReply where
  | outcome (outcome : ScanOutcome)
  | raced
  | failed (message : Text)
  deriving DecidableEq

inductive AlertKind where
  | chainBroken
  | headMismatch
  deriving DecidableEq

structure WatchAlert where
  kind : AlertKind
  reason : Text
  deriving DecidableEq

/-- The head the log has acknowledged. -/
structure Acknowledged where
  fingerprint : Option Fingerprint
  seq : Nat
  hash : Text
  deriving DecidableEq

/-- The scan in flight: the epoch it started in, the head it is judged against, and
whether its reply has been taken. -/
structure Scan where
  started : Nat
  ack : Acknowledged
  full : Bool
  settled : Bool
  deriving DecidableEq

structure Watch where
  ticks : Nat
  decided : Option Fingerprint
  active : Option WatchAlert
  scanning : Option Scan
  epoch : Nat
  fullScanOwed : Bool
  deriving DecidableEq

def createAuditWatch : Watch := ⟨0, none, none, none, 0, false⟩

/-- A call of a hook. -/
inductive HookCall where
  | alert (alert : WatchAlert)
  | recover
  deriving DecidableEq

def sameFingerprint (a b : Option Fingerprint) : Bool := a.isSome && a = b

def judge (outcome : ScanOutcome) (ack : Acknowledged) : Option WatchAlert :=
  match outcome with
  | .broken _ brokenAt reason =>
    some ⟨.chainBroken, js "chain broken at record " ++ ofNat brokenAt ++ js ": " ++ reason⟩
  | .intact _ lastHash =>
    if lastHash ≠ ack.hash then
      some ⟨.headMismatch,
        js "last record on disk is not the acknowledged head, record " ++ ofNat ack.seq⟩
    else none

/-- Alerts once for each distinct reason; a cleared condition recovers once. The state
is written before the hook runs. -/
def apply (condition : Option WatchAlert) (w : Watch) : Watch × Option HookCall :=
  match condition with
  | none =>
    if w.active = none then (w, none) else ({ w with active := none }, some .recover)
  | some alert =>
    if w.active.map (·.reason) = some alert.reason then (w, none)
    else ({ w with active := some alert }, some (.alert alert))

def missingFile (ack : Acknowledged) : WatchAlert :=
  ⟨.headMismatch, js "audit file is missing; acknowledged head is record " ++ ofNat ack.seq⟩

def isFullScan (every : Nat) (w : Watch) : Bool := (w.ticks + 1) % every = 0

def startScan (ack : Acknowledged) (full : Bool) (w : Watch) : Watch :=
  { w with scanning := some ⟨w.epoch, ack, full, false⟩ }

/-- One tick, with what `stat` and `acknowledged` answer. -/
def tick (every : Nat) (current : Option Fingerprint) (ack : Acknowledged) (w : Watch) :
    Watch × Option HookCall :=
  let fullScan := isFullScan every w
  let w := { w with ticks := w.ticks + 1 }
  match current with
  | none =>
    let w := { w with decided := none, epoch := w.epoch + 1 }
    -- Clearing a standing alert is a full-scan decision.
    if 0 < ack.seq then apply (some (missingFile ack)) w
    else if fullScan then apply none w
    else (w, none)
  | some file =>
    if w.scanning ≠ none then
      (if fullScan then { w with fullScanOwed := true } else w, none)
    else
      let due := fullScan || w.fullScanOwed
      if !due && sameFingerprint (some file) ack.fingerprint then
        ({ w with decided := some file }, none)
      else if !due && sameFingerprint (some file) w.decided then (w, none)
      else (startScan ack due { w with fullScanOwed := false, decided := some file }, none)

def owedAgain (scan : Scan) (w : Watch) : Watch :=
  { w with decided := none, fullScanOwed := w.fullScanOwed || scan.full }

/-- The reply of the scan in flight is taken. -/
def settle (scan : Scan) (reply : ScanReply) (w : Watch) : Watch × Option HookCall :=
  let w := { w with scanning := some { scan with settled := true } }
  if scan.started ≠ w.epoch then (w, none)
  else
    match reply with
    | .raced => (owedAgain scan w, none)
    | .outcome outcome => apply (judge outcome scan.ack) w
    | .failed message =>
      apply (some ⟨.chainBroken, js "verifier failed: " ++ message⟩) (owedAgain scan w)

/-- What happens to the watch; `throws` tells whether the hook throws when it is
called. -/
inductive Label where
  | tick (current : Option Fingerprint) (ack : Acknowledged) (throws : Bool)
  | settle (reply : ScanReply) (throws : Bool)
  | land

/-- What an event shows: the hook it called, an error that left `tick`, and an error
that was handed to `onError`. -/
structure Shown where
  call : Option HookCall
  escaped : Bool
  reported : Bool
  deriving DecidableEq

/-- One event. A hook that throws inside a tick throws out of it; one that throws
while a reply is judged is caught. -/
def next (every : Nat) (w : Watch) : Label → Option (Watch × Shown)
  | .tick current ack throws =>
    let (w, call) := tick every current ack w
    some (w, ⟨call, call.isSome && throws, false⟩)
  | .settle reply throws =>
    match w.scanning with
    | some scan =>
      if scan.settled then none
      else
        let (w, call) := settle scan reply w
        some (w, ⟨call, false, call.isSome && throws⟩)
    | none => none
  | .land =>
    match w.scanning with
    | some scan => if scan.settled then some ({ w with scanning := none }, ⟨none, false, false⟩) else none
    | none => none

/-- The watch and the hooks it has called, oldest first. -/
structure Watching where
  watch : Watch
  calls : List HookCall
  deriving DecidableEq

def advance (every : Nat) (s : Watching) (label : Label) : Option Watching :=
  (next every s.watch label).map fun (w, shown) => ⟨w, s.calls ++ shown.call.toList⟩

/-- `fullScanEveryTicks` is checked to be at least one. -/
def watching (every : Nat) : System Watching Label :=
  .ofStep (fun s => 0 < every ∧ s = ⟨createAuditWatch, []⟩) (advance every)

theorem apply_active (condition : Option WatchAlert) (w : Watch) :
    (apply condition w).1.scanning = w.scanning ∧ (apply condition w).1.epoch = w.epoch ∧
      (apply condition w).1.ticks = w.ticks ∧
      (apply condition w).1.fullScanOwed = w.fullScanOwed := by
  unfold apply
  split
  · split <;> exact ⟨rfl, rfl, rfl, rfl⟩
  · split <;> exact ⟨rfl, rfl, rfl, rfl⟩

/-- The ways a tick can go. -/
inductive TickEffect (every : Nat) (current : Option Fingerprint) (ack : Acknowledged) (w : Watch) :
    Watch → Option HookCall → Prop
  | alerts (missing : current = none) (acknowledged : 0 < ack.seq) :
    TickEffect every current ack w
      (apply (some (missingFile ack))
        { w with ticks := w.ticks + 1, decided := none, epoch := w.epoch + 1 }).1
      (apply (some (missingFile ack))
        { w with ticks := w.ticks + 1, decided := none, epoch := w.epoch + 1 }).2
  | clears (missing : current = none) (empty : ack.seq = 0) (full : isFullScan every w) :
    TickEffect every current ack w
      (apply none { w with ticks := w.ticks + 1, decided := none, epoch := w.epoch + 1 }).1
      (apply none { w with ticks := w.ticks + 1, decided := none, epoch := w.epoch + 1 }).2
  | passes (missing : current = none) :
    TickEffect every current ack w
      { w with ticks := w.ticks + 1, decided := none, epoch := w.epoch + 1 } none
  | waits (present : current ≠ none) (flying : w.scanning ≠ none) :
    TickEffect every current ack w
      { w with ticks := w.ticks + 1, fullScanOwed := w.fullScanOwed || isFullScan every w } none
  | same (present : current ≠ none) (decided : Option Fingerprint) (resting : w.scanning = none)
      (cadence : isFullScan every w = false) (paid : w.fullScanOwed = false) :
    TickEffect every current ack w { w with ticks := w.ticks + 1, decided := decided } none
  | starts (present : current ≠ none) (resting : w.scanning = none) :
    TickEffect every current ack w
      { w with
        ticks := w.ticks + 1
        decided := current
        fullScanOwed := false
        scanning := some ⟨w.epoch, ack, isFullScan every w || w.fullScanOwed, false⟩ } none

theorem tick_effect (every : Nat) (current : Option Fingerprint) (ack : Acknowledged) (w : Watch) :
    TickEffect every current ack w (tick every current ack w).1 (tick every current ack w).2 := by
  unfold tick
  dsimp only
  split
  next =>
    split
    next acknowledged => exact .alerts rfl acknowledged
    next none_ =>
      split
      next full => exact .clears rfl (by omega) full
      next => exact .passes rfl
  next file =>
    split
    next flying =>
      have present : (some file : Option Fingerprint) ≠ none := by simp
      have waits := @TickEffect.waits every _ ack w present flying
      cases full : isFullScan every w with
      | true =>
        rw [full, Bool.or_true] at waits
        exact waits
      | false =>
        rw [full, Bool.or_false] at waits
        exact waits
    next resting =>
      have resting : w.scanning = none := by simpa using resting
      split
      next quiet =>
        simp only [Bool.and_eq_true, Bool.not_eq_true', Bool.or_eq_false_iff] at quiet
        exact .same (by simp) (some file) resting quiet.1.1 quiet.1.2
      next =>
        split
        next quiet =>
          simp only [Bool.and_eq_true, Bool.not_eq_true', Bool.or_eq_false_iff] at quiet
          exact .same (by simp) w.decided resting quiet.1.1 quiet.1.2
        next => exact .starts (by simp) resting

end Ultrathink.Source.Obs.AuditWatch
