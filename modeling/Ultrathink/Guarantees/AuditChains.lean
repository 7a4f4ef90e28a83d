import Ultrathink.Source.Obs.AuditChain
import Ultrathink.Guarantees.CanonicalLines
import Ultrathink.Guarantees.MerkleFrontier
import Ultrathink.Library.Framing

/-!
# Chains that are accepted

A scan that accepts its files has taken every line that they hold, each joined at the place that
the lines before it led to. A place is the part of a scan's state that the next line is checked
against.
-/

namespace Ultrathink.Guarantees.AuditChains

open List Library JsText JsNumber JsonText JsonWrite
open Library.Framing Source.Obs Source.Obs.AuditLine Source.Obs.AuditMerkle Source.Obs.AuditChain
open CanonicalLines (bind_ok fileOf IsLine eachLine_lines foldlM_lines_cons)

def isEnd (b : UInt8) : Bool := b = 0x0A

/-- The bytes of a file that are read. -/
def fileBytes (fs : AuditFs) (limit : Option Nat) (file : Text) : List UInt8 :=
  match fs.openSync file with
  | .ok opened => (readUpTo limit opened.reads).flatten
  | .error _ => []

def fileLines (fs : AuditFs) (limit : Option Nat) (file : Text) : List (List UInt8) :=
  (cut isEnd (fileBytes fs limit file)).1

def linesOf (path : Text) (fs : AuditFs) (options : ScanOptions) (files : List Text) :
    List (List UInt8) :=
  files.flatMap fun file => fileLines fs (limitOf (pinOf path options) file) file

/-- The lines of a chain, over its files in order. -/
def heldLines (path : Text) (fs : AuditFs) (options : ScanOptions) : List (List UInt8) :=
  linesOf path fs options (chainFiles path fs options)

variable {s s' : Scan} {file : Text} {line : List UInt8}

variable {pending : List UInt8} {lines : List (List UInt8)} {placed : Finite × Text × Text}
  {f : MerkleFrontier} {value : Option Value} {head : Head} {seeded : Seeded} {files : List Text}
  {records : Nat} {lastHash : Text}

section Lines

variable {σ : Type} {onLine : σ → Text → Option Text × σ}

/-- The same callback, without the state under a rejected line. -/
def strict (onLine : σ → Text → Option Text × σ) (s : σ) (line : Text) : Except Text σ :=
  match onLine s line with
  | (none, s) => .ok s
  | (some reason, _) => .error reason

theorem strict_ok {s s' : σ} {line : Text} : strict onLine s line = .ok s' ↔ onLine s line = (none, s') := by
  unfold strict
  split
  · next t taken => simp [taken]
  · next reason t rejected => simp [rejected]

theorem scanRead_ok {tail read behind : List UInt8} {s s' : σ}
    (done : scanRead onLine pending tail read s = (.ok behind, s')) :
    scanChunk (strict onLine) pending tail read s = .ok (behind, s') := by
  induction read generalizing pending tail s with
  | nil =>
    unfold scanRead at done
    unfold scanChunk
    split at done
    · cases done
    · next fits =>
      obtain ⟨pieces, rfl⟩ := Prod.mk.inj done
      obtain rfl := Except.ok.inj pieces
      rw [if_neg fits]
  | cons b rest ih =>
    unfold scanRead at done
    unfold scanChunk
    split at done
    · next other =>
      rw [if_pos other]
      exact ih done
    · next isEnd =>
      split at done
      · cases done
      · next fits =>
        rw [if_neg isEnd, if_neg fits]
        split at done
        · cases done
        · next t taken =>
          rw [CanonicalLines.ok_bind (strict_ok.mpr taken)]
          exact ih done

theorem scanReads_ok {failure : Option Text} {reads : List (List UInt8)} {s s' : σ}
    (done : scanReads onLine failure pending reads s = (.ok, s')) :
    AuditLine.eachLine (strict onLine) pending reads s = .ok s' := by
  induction reads generalizing pending s with
  | nil =>
    unfold scanReads at done
    unfold AuditLine.eachLine
    split at done
    · cases done
    · split at done
      · next empty =>
        obtain ⟨-, rfl⟩ := Prod.mk.inj done
        rw [if_pos empty]
      · cases done
  | cons read more ih =>
    unfold scanReads at done
    unfold AuditLine.eachLine
    split at done
    · cases done
    · next behind t scanned =>
      rw [CanonicalLines.ok_bind (scanRead_ok scanned)]
      exact ih done

theorem cut_fileOf (each : ∀ line ∈ lines, IsLine line) :
    cut isEnd (fileOf lines []) = (lines, []) := by
  induction lines with
  | nil => rfl
  | cons line more ih =>
    have free : ∀ u ∈ line, isEnd u = false := by
      intro u mem
      apply decide_eq_false
      rintro rfl
      exact (each line mem_cons_self).1 mem
    have file : fileOf (line :: more) [] = line ++ 0x0A :: fileOf more [] := by
      simp [fileOf]
    rw [file, cut_line free rfl, ih fun l mem => each l (mem_cons_of_mem _ mem)]

theorem eachLine_ok {fs : AuditFs} {limit : Option Nat} {s s' : σ}
    (done : AuditChain.eachLine onLine fs file limit s = (.ok, s')) :
    (fileLines fs limit file).foldlM (fun s line => strict onLine s (ofUtf8 line)) s = .ok s' := by
  unfold AuditChain.eachLine at done
  split at done
  · cases done
  · next opened is =>
    obtain ⟨lines, each, content, run⟩ := eachLine_lines (by simp) (scanReads_ok done)
    have bytes : fileBytes fs limit file = fileOf lines [] := by
      rw [← content, fileBytes, is]
      rfl
    rw [fileLines, bytes, cut_fileOf each]
    exact run

end Lines

structure Place where
  lastSeq : Finite
  prev : Text
  frontier : MerkleFrontier

def place (s : Scan) : Place := ⟨s.lastSeq, s.prev, s.frontier⟩

def genesisPlace : Place := place .initial

def pushed (frontier : MerkleFrontier) (hash : Text) : MerkleFrontier :=
  (frontier.push (some hash)).toOption.getD frontier

structure Entry where
  line : List UInt8
  checked : CheckedLine

def Place.after (p : Place) (e : Entry) : Place :=
  ⟨next p.lastSeq, e.checked.hash, pushed p.frontier e.checked.hash⟩

structure Joins (p : Place) (e : Entry) : Prop where
  accepted : checkLine (ofUtf8 e.line) (next p.lastSeq) p.prev = .ok e.checked
  through : e.checked.event = ANCHOR_EVENT →
    isSeq p.lastSeq (fieldOf e.checked.fields (js "through")) = true
  root : e.checked.event = ANCHOR_EVENT →
    isText p.frontier.root.1 (fieldOf e.checked.fields (js "root")) = true

inductive Chain : Place → List Entry → Place → Prop
  | nil (p : Place) : Chain p [] p
  | cons {p q : Place} {e : Entry} {more : List Entry} (joins : Joins p e)
      (rest : Chain (p.after e) more q) : Chain p (e :: more) q

variable {p q : Place}

theorem Chain.append {r : Place} {front back : List Entry} (first : Chain p front q)
    (second : Chain q back r) : Chain p (front ++ back) r := by
  induction first with
  | nil p => exact second
  | cons joins rest ih => exact .cons joins (ih second)

/-- Whether a first line makes a chain go on over a pruned prefix. -/
def isPruned (line : List UInt8) : Bool :=
  (peekHead (ofUtf8 line)).any fun head =>
    !decide (head.seq.negative ∨ head.seq.units ≤ JsNumber.one)

/-- The place that a chain of these lines may begin at. -/
structure Begins (lines : List (List UInt8)) (p : Place) : Prop where
  genesis : (∀ line ∈ lines.head?, isPruned line = false) → p = genesisPlace
  shaped : p.frontier.Shaped
  size : isNumber p.lastSeq (JsNumber.ofNat p.frontier.size) = true

section Scan

variable {path : Text} {fs : AuditFs} {options : ScanOptions}

theorem placeLine_ok (done : placeLine path file (ofUtf8 line) s = (.ok placed, s')) :
    ∃ checked, Joins (place s) ⟨line, checked⟩ ∧ place s' = (place s).after ⟨line, checked⟩ ∧
      s'.started = s.started := by
  unfold placeLine at done
  split at done
  · cases done
  · next checked accepted =>
    split at done
    · cases done
    · next held =>
      obtain ⟨-, rfl⟩ := Prod.mk.inj done
      have anchored (event : checked.event = ANCHOR_EVENT) : anchorHolds s checked = true := by
        by_contra fails
        exact held ⟨event, fails⟩
      refine ⟨checked, ⟨accepted, ?_, ?_⟩, rfl, rfl⟩
      · intro event
        exact (Bool.and_eq_true_iff.mp (anchored event)).1
      · intro event
        exact (Bool.and_eq_true_iff.mp (anchored event)).2

theorem genesis_size : isNumber zero (JsNumber.ofNat 0) = true := by
  have value : JsNumber.ofNat 0 = .finite zero := ofDecimal_zero
  rw [value]
  simp [isNumber, sameNumber]

theorem begins_genesis (lines : List (List UInt8)) : Begins lines genesisPlace :=
  ⟨fun _ => rfl, Library.Merkle.empty_shaped, genesis_size⟩

theorem shaped_of_seed {state : Option StateInput} (seeded : seedFrontier state = .ok f) :
    f.Shaped := by
  cases state with
  | none => cases seeded
  | some state =>
    have r := MerkleFrontier.seedFrontier_ok.mp seeded
    have heights := MerkleFrontier.eq_peakHeightsOf r.descending r.setBits
    rw [map_reverse, peakHeightsOf, reverse_inj] at heights
    exact heights

theorem decodeFrontier_shaped {text : Text} (decoded : decodeFrontier value = some (f, text)) :
    f.Shaped := by
  unfold decodeFrontier at decoded
  obtain ⟨t, -, decoded⟩ := Option.bind_eq_some_iff.mp decoded
  obtain ⟨state, -, decoded⟩ := Option.bind_eq_some_iff.mp decoded
  split at decoded
  · next g seeded =>
    obtain ⟨rfl, -⟩ := Prod.mk.inj (Option.some.inj decoded)
    exact shaped_of_seed seeded
  · cases decoded

theorem seedPrefix_ok {carried : Option RecordFields}
    (done : seedPrefix head value carried = .ok seeded) :
    seeded.frontier.Shaped ∧
      isNumber (prior head.seq) (JsNumber.ofNat seeded.frontier.size) = true := by
  unfold seedPrefix at done
  split at done
  · cases done
  · next f text decoded =>
    split at done
    · next size =>
      obtain rfl := Except.ok.inj done
      exact ⟨decodeFrontier_shaped decoded, size⟩
    · cases done

theorem resolvePrunedPrefix_ok {pin : Option ReadPin} {carried : List RecordFields}
    (done : resolvePrunedPrefix fs pin carried files head = .ok seeded) :
    seeded.frontier.Shaped ∧
      isNumber (prior head.seq) (JsNumber.ofNat seeded.frontier.size) = true := by
  unfold resolvePrunedPrefix at done
  split at done
  · exact seedPrefix_ok done
  · split at done
    · exact seedPrefix_ok done
    · split at done
      · cases done
      · cases done

theorem start_ok (more : List (List UInt8))
    (done : start path fs options file (ofUtf8 line) s = (none, s')) :
    s'.started = true ∧ (place s = genesisPlace → Begins (line :: more) (place s')) := by
  unfold start at done
  dsimp only at done
  split at done
  · obtain ⟨-, rfl⟩ := Prod.mk.inj done
    exact ⟨rfl, fun genesis => genesis ▸ begins_genesis _⟩
  · next head peeked =>
    split at done
    · obtain ⟨-, rfl⟩ := Prod.mk.inj done
      exact ⟨rfl, fun genesis => genesis ▸ begins_genesis _⟩
    · next past =>
      have pruned : isPruned line = true := by
        rw [isPruned, peeked]
        simpa using past
      split at done
      · cases done
      · next seeded resolved =>
        obtain ⟨shaped, size⟩ := resolvePrunedPrefix_ok resolved
        have begins (p : Place) (seq : p.lastSeq = prior head.seq)
            (frontier : p.frontier = seeded.frontier) : Begins (line :: more) p := by
          refine ⟨?_, frontier ▸ shaped, by rw [seq, frontier]; exact size⟩
          intro unpruned
          rw [unpruned line rfl] at pruned
          cases pruned
        split at done
        · obtain ⟨-, rfl⟩ := Prod.mk.inj done
          exact ⟨rfl, fun _ => begins _ rfl rfl⟩
        · obtain ⟨-, rfl⟩ := Prod.mk.inj done
          exact ⟨rfl, fun _ => begins _ rfl rfl⟩

/-- What a scan makes of lines that it takes, from one state to another. -/
structure Takes (s : Scan) (lines : List (List UInt8)) (s' : Scan) (p : Place)
    (entries : List Entry) : Prop where
  chain : Chain p entries (place s')
  all : entries.map Entry.line = lines
  entered : s.started = true → p = place s
  begun : s.started = false → place s = genesisPlace → Begins lines p
  started : s'.started = (s.started || lines ≠ [])
  idle : lines = [] → place s' = place s

theorem Takes.append {t u : Scan} {front back : List (List UInt8)} {first second : List Entry}
    (takes : Takes s front t p first) (then_ : Takes t back u q second) :
    ∃ r, Takes s (front ++ back) u r (first ++ second) := by
  have all : (first ++ second).map Entry.line = front ++ back := by
    rw [map_append, takes.all, then_.all]
  by_cases empty : front = []
  · subst empty
    obtain rfl := map_eq_nil_iff.mp takes.all
    have same := takes.idle rfl
    have flag : t.started = s.started := by simpa using takes.started
    refine ⟨q, then_.chain, all, ?_, ?_, ?_, ?_⟩
    · intro started
      rw [← same]
      exact then_.entered (flag.trans started)
    · intro unstarted genesis
      exact then_.begun (flag.trans unstarted) (same.trans genesis)
    · rw [then_.started, flag]
      rfl
    · intro none_
      exact (then_.idle none_).trans same
  · have started : t.started = true := by simp [takes.started, empty]
    obtain rfl := then_.entered started
    refine ⟨p, takes.chain.append then_.chain, all, takes.entered, ?_, ?_, ?_⟩
    · intro unstarted genesis
      have begins := takes.begun unstarted genesis
      refine ⟨?_, begins.shaped, begins.size⟩
      intro unpruned
      apply begins.genesis
      rwa [head?_append_of_ne_nil _ empty] at unpruned
    · rw [then_.started, started]
      simp [empty]
    · intro none_
      exact absurd (append_eq_nil_iff.mp none_).1 empty

theorem takes_line (done : acceptLine path fs options file (ofUtf8 line) s = (.ok placed, s')) :
    ∃ p e, Takes s [line] s' p [e] := by
  unfold acceptLine at done
  split at done
  · next started =>
    obtain ⟨checked, joins, after, flag⟩ := placeLine_ok done
    refine ⟨place s, ⟨line, checked⟩, .cons joins (after ▸ .nil _), rfl, fun _ => rfl, ?_, ?_, ?_⟩
    · intro unstarted
      rw [unstarted] at started
      cases started
    · rw [flag, started]
      rfl
    · intro none_
      cases none_
  · next unstarted =>
    split at done
    · cases done
    · next t opened =>
      obtain ⟨begun, begins⟩ := start_ok [] opened
      obtain ⟨checked, joins, after, flag⟩ := placeLine_ok done
      refine ⟨place t, ⟨line, checked⟩, .cons joins (after ▸ .nil _), rfl, ?_, fun _ => begins, ?_, ?_⟩
      · intro started
        exact absurd started unstarted
      · rw [flag, begun]
        simp
      · intro none_
        cases none_

theorem takes_nil (s : Scan) : Takes s [] s (place s) [] :=
  ⟨.nil _, rfl, fun _ => rfl, fun _ genesis => genesis ▸ begins_genesis _, by simp, fun _ => rfl⟩

theorem takes_lines {held held' : FileState}
    (done : lines.foldlM (fun s line => strict (onFileLine path fs options file) s (ofUtf8 line))
      (held, s) = .ok (held', s')) : ∃ p entries, Takes s lines s' p entries := by
  induction lines generalizing held s with
  | nil =>
    obtain ⟨-, rfl⟩ := Prod.mk.inj (Except.ok.inj done)
    exact ⟨_, _, takes_nil s⟩
  | cons line more ih =>
    rw [foldlM_lines_cons] at done
    obtain ⟨⟨held₁, t⟩, taken, done⟩ := bind_ok done
    have one := strict_ok.mp taken
    unfold onFileLine at one
    split at one
    · cases one
    · next accepted =>
      obtain ⟨-, states⟩ := Prod.mk.inj one
      obtain ⟨-, rfl⟩ := Prod.mk.inj states
      obtain ⟨p, e, first⟩ := takes_line accepted
      obtain ⟨q, entries, rest⟩ := ih done
      obtain ⟨r, whole⟩ := first.append rest
      exact ⟨r, _, whole⟩

theorem scanFile_ok (done : scanFile path fs options file s = (.ok, s')) :
    ∃ p entries,
      Takes s (fileLines fs (limitOf (pinOf path options) file) file) s' p entries := by
  unfold scanFile at done
  split at done
  · next held t read =>
    obtain ⟨p, entries, takes⟩ := takes_lines (eachLine_ok read)
    split at done
    · obtain ⟨-, rfl⟩ := Prod.mk.inj done
      exact ⟨p, entries, takes⟩
    · obtain ⟨-, rfl⟩ := Prod.mk.inj done
      exact ⟨p, entries, takes.chain, takes.all, takes.entered, takes.begun, takes.started,
        takes.idle⟩
  · next step _ _ other _ =>
    obtain ⟨rfl, -⟩ := Prod.mk.inj done
    exact (other rfl).elim

theorem scanFiles_ok
    (done : (scanFiles path fs options files s).verification = .ok records lastHash) :
    ∃ s' p entries, Takes s (linesOf path fs options files) s' p entries ∧ s'.prev = lastHash := by
  induction files generalizing s with
  | nil =>
    unfold scanFiles at done
    split at done
    · cases done
    · obtain ⟨-, prev⟩ := Verification.ok.inj done
      exact ⟨s, _, _, takes_nil s, prev⟩
  | cons file more ih =>
    unfold scanFiles at done
    split at done
    next step t scanned =>
      split at done
      · cases done
      · cases done
      · cases done
      · obtain ⟨p, entries, first⟩ := scanFile_ok scanned
        obtain ⟨u, q, rest, second, prev⟩ := ih done
        obtain ⟨r, whole⟩ := first.append second
        exact ⟨u, r, _, whole, prev⟩

/-- An accepted scan has joined all the lines that are held, one after the other. -/
theorem scanChain_ok (done : (scanChain path fs options).verification = .ok records lastHash) :
    ∃ p entries q, Begins (heldLines path fs options) p ∧ Chain p entries q ∧
      entries.map Entry.line = heldLines path fs options ∧ q.prev = lastHash := by
  obtain ⟨s, p, entries, takes, prev⟩ := scanFiles_ok done
  exact ⟨p, entries, place s, takes.begun rfl rfl, takes.chain, takes.all, prev⟩

end Scan

end Ultrathink.Guarantees.AuditChains
