import Ultrathink.Source.Obs.AuditLine
import Ultrathink.Source.Obs.AuditMerkle
import Ultrathink.Library.Search

/-!
# The audit chain

`scanChain` of `obs/audit.ts` over the files that `obs/audit-segments.ts` lists: sealed segments
in the order of their first seq, then the active file. A scan keeps its state when a line is
rejected, since the verdict names the place.
-/

namespace Ultrathink.Source.Obs.AuditChain

open Library JsText JsNumber JsonText JsonWrite
open AuditLine AuditMerkle

/-- What `readSync` gives in turn, and the message when one fails; a read of no bytes is the end. -/
structure FileReads where
  reads : List (List UInt8)
  failure : Option Text
  some_ : ∀ read ∈ reads, read ≠ []

/-- `node:fs` around one active file: the names in its directory, unless it cannot be read, and
what opening a path gives. `join` puts the directory in front of a name. -/
structure AuditFs where
  readdirSync : Option (List Text)
  join : Text → Text
  existsSync : Text → Bool
  openSync : Text → Except Text FileReads

structure SealedSegment where
  name : Text
  path : Text
  first : Nat
  last : Nat

/-- `[1-9][0-9]*` at the front of a text. -/
def readSeq (t : Text) : Option (Nat × Text) :=
  match readDigits t with
  | (whole, rest) => if whole = [] ∨ whole.head? = some 0x30 then none else some (valueOf whole, rest)

/-- `SEALED`, with the two numbers. -/
def sealedRange (name : Text) : Option (Nat × Nat) := do
  let (first, rest) ← (name.dropPrefix? (js "audit-")).bind readSeq
  let (last, rest) ← (rest.dropPrefix? (js "-")).bind readSeq
  if rest = js ".jsonl" then some (first, last) else none

def sealedName (first last : Nat) : Text :=
  js "audit-" ++ digits first ++ js "-" ++ digits last ++ js ".jsonl"

def sealedSegment (fs : AuditFs) (name : Text) : Option SealedSegment := do
  let (first, last) ← sealedRange name
  if maxSafeInteger < first ∨ maxSafeInteger < last ∨ last < first ∨ sealedName first last ≠ name then
    none
  else some ⟨name, fs.join name, first, last⟩

def listSegments (fs : AuditFs) : List SealedSegment :=
  match fs.readdirSync with
  | none => []
  | some names =>
    (names.filterMap (sealedSegment fs)).insertionSort fun a b => a.first ≤ b.first

inductive ScanStep where
  | ok
  | broken (reason : Text)
  | io (reason : Text)

/-- The reads under a limit. -/
def readUpTo : Option Nat → List (List UInt8) → List (List UInt8)
  | none, reads => reads
  | some _, [] => []
  | some remaining, read :: more =>
    if remaining = 0 then []
    else read.take remaining :: readUpTo (some (remaining - read.length)) more

/-- The failure, unless the limit ends the reading first. -/
def failureWithin (limit : Option Nat) (file : FileReads) : Option Text :=
  match limit with
  | none => file.failure
  | some limit => if limit ≤ file.reads.flatten.length then none else file.failure

section Lines

variable {σ : Type} (onLine : σ → Text → Option Text × σ)

/-- One read, from behind `tail`: the bytes that are pending after it. -/
def scanRead (pending tail : List UInt8) : List UInt8 → σ → Except Text (List UInt8) × σ
  | [], s =>
    if tail ≠ [] ∧ MAX_LINE_BYTES < pending.length + tail.length then
      (.error (js "record exceeds the maximum line length"), s)
    else (.ok (pending ++ tail), s)
  | b :: rest, s =>
    if b ≠ 0x0A then scanRead pending (tail ++ [b]) rest s
    else if MAX_LINE_BYTES < pending.length + tail.length then
      (.error (js "record exceeds the maximum line length"), s)
    else
      match onLine s (ofUtf8 (pending ++ tail)) with
      | (some reason, s) => (.error reason, s)
      | (none, s) => scanRead [] [] rest s

def scanReads (failure : Option Text) (pending : List UInt8) :
    List (List UInt8) → σ → ScanStep × σ
  | [], s =>
    match failure with
    | some message => (.io (js "cannot read: " ++ message), s)
    | none =>
      if pending = [] then (.ok, s)
      else (.broken (js "truncated last record (no trailing newline)"), s)
  | read :: more, s =>
    match scanRead onLine pending [] read s with
    | (.error reason, s) => (.broken reason, s)
    | (.ok pending, s) => scanReads failure pending more s

def eachLine (fs : AuditFs) (file : Text) (limit : Option Nat) (s : σ) : ScanStep × σ :=
  match fs.openSync file with
  | .error message => (.io (js "cannot open: " ++ message), s)
  | .ok opened => scanReads onLine (failureWithin limit opened) [] (readUpTo limit opened.reads) s

end Lines

def finiteOr (x : Finite) : Number → Finite
  | .finite y => y
  | _ => x

/-- `x + 1`, which is finite with `x`; no sequence number is negative. -/
def next (x : Finite) : Finite := finiteOr x (ofFraction false (x.units + JsNumber.one) 1)

/-- `x - 1`, for `x` above one. -/
def prior (x : Finite) : Finite := finiteOr x (ofFraction false (x.units - JsNumber.one) 1)

def isNumber (x : Finite) : Number → Bool
  | .finite y => sameNumber y x
  | _ => false

abbrev RecordFields := List (Text × Primitive)

def fieldOf (fields : RecordFields) (name : Text) : Option Primitive :=
  (fields.find? fun f => f.1 = name).map Prod.snd

def isText (t : Text) : Option Primitive → Bool
  | some (.text s) => s = t
  | _ => false

def isSeq (x : Finite) : Option Primitive → Bool
  | some (.number y) => sameNumber y x
  | _ => false

def ANCHOR_EVENT : Text := js "audit_anchor"

def RETENTION_EVENT : Text := js "audit_retention_pruned"

def GENESIS_HASH : Text := List.replicate 64 0x30

structure Head where
  seq : Finite
  prev : Text

/-- The seq and prev of a line that parses as a record, without checking anything else. -/
def peekHead (line : Text) : Option Head := do
  let parsed ← (parse line).bind isPlainObject
  let seq ← integerOf (Json.field parsed (js "seq"))
  let prev ← stringOf (Json.field parsed (js "prev"))
  return ⟨seq, prev⟩

structure Break where
  records : Nat
  brokenAt : Finite
  reason : Text
  deriving DecidableEq

inductive Verification where
  | ok (records : Nat) (lastHash : Text)
  | broken (verdict : Break)
  deriving DecidableEq

/-- Reads of the active file stop at `bytes`. Sealed segments are read whole. -/
structure ReadPin where
  path : Text
  bytes : Nat

def limitOf (pin : Option ReadPin) (file : Text) : Option Nat :=
  match pin with
  | some pin => if pin.path = file then some pin.bytes else none
  | none => none

/-- The fields of a retention record that names the boundary. -/
def boundaryFields (throughSeq : Finite) (throughHash line : Text) : Option (List (Text × Value)) := do
  let parsed ← (parse line).bind isPlainObject
  let event ← stringOf (Json.field parsed (js "event"))
  let fields ← (Json.field parsed (js "fields")).bind isPlainObject
  let seq ← Json.field fields (js "throughSeq")
  let hash ← stringOf (Json.field fields (js "throughHash"))
  match seq with
  | .num n => if event = RETENTION_EVENT ∧ isNumber throughSeq n ∧ hash = throughHash then some fields else none
  | _ => none

def noteBoundary (throughSeq : Finite) (throughHash : Text)
    (found : Option (List (Text × Value))) (line : Text) :
    Option Text × Option (List (Text × Value)) :=
  match found with
  | some fields => (none, some fields)
  | none =>
    if Search.includes line RETENTION_EVENT then (none, boundaryFields throughSeq throughHash line)
    else (none, none)

/-- Over the files in turn, with the first failure that was met. -/
def findBoundaryRecord (fs : AuditFs) (pin : Option ReadPin) (throughSeq : Finite)
    (throughHash : Text) : List Text → Option (List (Text × Value)) → Option Text →
    Option (List (Text × Value)) × Option Text
  | [], some fields, _ => (some fields, none)
  | [], none, failure => (none, failure)
  | file :: more, found, failure =>
    match eachLine (noteBoundary throughSeq throughHash) fs file (limitOf pin file) found with
    | (.ok, found) => findBoundaryRecord fs pin throughSeq throughHash more found failure
    | (.broken reason, found) | (.io reason, found) =>
      findBoundaryRecord fs pin throughSeq throughHash more found (failure <|> some reason)

def intOf : Option Value → Option ℤ
  | some (.num n) => toInt? n
  | _ => none

/-- A value as `seedFrontier` takes a peak: an array is an object without the two names. -/
def peakOf : Value → Option PeakInput
  | .obj m => some ⟨intOf (Json.field m (js "height")), stringOf (Json.field m (js "hash"))⟩
  | .arr _ => some ⟨none, none⟩
  | _ => none

def itemsOf : Option Value → Option (List Value)
  | some (.arr items) => some items
  | _ => none

def stateOf : Value → Option StateInput
  | .obj m =>
    some ⟨intOf (Json.field m (js "leafCount")), (itemsOf (Json.field m (js "peaks"))).map (·.map peakOf)⟩
  | .arr _ => some ⟨none, none⟩
  | _ => none

/-- The frontier that a `frontier` field carries, with its text. -/
def decodeFrontier (value : Option Value) : Option (MerkleFrontier × Text) := do
  let text ← stringOf value
  let state ← parse text
  match seedFrontier (stateOf state) with
  | .ok frontier => some (frontier, text)
  | .error _ => none

structure Seeded where
  frontier : MerkleFrontier
  text : Text
  carried : Option RecordFields

def namesBoundary (throughSeq : Finite) (throughHash : Text) (fields : RecordFields) : Bool :=
  isSeq throughSeq (fieldOf fields (js "throughSeq")) &&
    isText throughHash (fieldOf fields (js "throughHash"))

def seqOne : Finite := next zero

/-- The frontier under the first retained record, from the fields that name its boundary. -/
def seedPrefix (head : Head) (value : Option Value) (carried : Option RecordFields) :
    Except Break Seeded :=
  match decodeFrontier value with
  | none =>
    .error ⟨0, zero, js "the audit_retention_pruned record for seq " ++
      numberText (.finite (prior head.seq)) ++ js " has no valid frontier; the records before seq " ++
      numberText (.finite head.seq) ++ js " cannot be verified"⟩
  | some (frontier, text) =>
    if isNumber (prior head.seq) (JsNumber.ofNat frontier.size) then .ok ⟨frontier, text, carried⟩
    else
      .error ⟨0, zero, js "the audit_retention_pruned record for seq " ++
        numberText (.finite (prior head.seq)) ++ js " carries a frontier over " ++
        digits frontier.size ++ js " records; the records before seq " ++
        numberText (.finite head.seq) ++ js " cannot be verified"⟩

def resolvePrunedPrefix (fs : AuditFs) (pin : Option ReadPin) (carried : List RecordFields)
    (files : List Text) (head : Head) : Except Break Seeded :=
  match findBoundaryRecord fs pin (prior head.seq) head.prev files none none with
  | (some fields, _) => seedPrefix head (Json.field fields (js "frontier")) none
  | (none, failure) =>
    match carried.find? (namesBoundary (prior head.seq) head.prev) with
    | some fields =>
      seedPrefix head ((fieldOf fields (js "frontier")).map Primitive.value) (some fields)
    | none =>
      match failure with
      | some reason =>
        .error ⟨0, zero, js "cannot verify the records before seq " ++
          numberText (.finite head.seq) ++ js ": " ++ reason⟩
      | none =>
        .error ⟨0, seqOne, js "seq " ++ numberText (.finite head.seq) ++ js " where 1 was expected"⟩

structure ScanOptions where
  sealedOnly : Bool
  activeBytes : Option Nat
  carried : List RecordFields

structure ScannedFile where
  path : Text
  firstSeq : Finite
  lastSeq : Finite
  lastTs : Text
  lastHash : Text
  frontier : StateInput

structure Boundary where
  throughSeq : Finite
  throughHash : Text
  frontier : Text
  file : Text

/-- The variables of a scan; `seen` is what `onRecord` was called with. -/
structure Scan where
  frontier : MerkleFrontier
  files : List ScannedFile
  count : Nat
  lastSeq : Finite
  prev : Text
  sinceAnchor : Nat
  started : Bool
  boundary : Option Boundary
  halt : Option Break
  retentions : List RecordFields
  carriedUsed : Option RecordFields
  seen : List (Finite × Text)

def Scan.initial : Scan :=
  { frontier := createFrontier, files := [], count := 0, lastSeq := zero, prev := GENESIS_HASH
    sinceAnchor := 0, started := false, boundary := none, halt := none, retentions := []
    carriedUsed := none, seen := [] }

structure ChainScan where
  verification : Verification
  lastSeq : Finite
  lastHash : Text
  frontier : MerkleFrontier
  sinceAnchor : Nat
  activeFirst : Finite
  brokenIn : Text
  files : List ScannedFile
  retentions : List RecordFields
  carriedUsed : Option RecordFields
  seen : List (Finite × Text)

def pinOf (path : Text) (options : ScanOptions) : Option ReadPin :=
  options.activeBytes.map fun bytes => ⟨path, bytes⟩

def chainFiles (path : Text) (fs : AuditFs) (options : ScanOptions) : List Text :=
  (listSegments fs).map SealedSegment.path ++
    if !options.sealedOnly && fs.existsSync path then [path] else []

section Scan

variable (path : Text) (fs : AuditFs) (options : ScanOptions)

/-- The first line of the chain: from a record past the first, the chain goes on over a pruned
prefix. -/
def start (file line : Text) (s : Scan) : Option Text × Scan :=
  let s := { s with started := true }
  match peekHead line with
  | none => (none, s)
  | some head =>
    if head.seq.negative ∨ head.seq.units ≤ JsNumber.one then (none, s)
    else
      match resolvePrunedPrefix fs (pinOf path options) options.carried
          (chainFiles path fs options) head with
      | .error verdict => (some verdict.reason, { s with halt := some verdict })
      | .ok seeded =>
        let s := { s with lastSeq := prior head.seq, prev := head.prev, frontier := seeded.frontier }
        match seeded.carried with
        | none => (none, { s with boundary := some ⟨s.lastSeq, s.prev, seeded.text, file⟩ })
        | some fields => (none, { s with carriedUsed := some fields })

/-- An anchor commits to every record before it. -/
def anchorHolds (s : Scan) (checked : CheckedLine) : Bool :=
  isSeq s.lastSeq (fieldOf checked.fields (js "through")) &&
    isText s.frontier.root.1 (fieldOf checked.fields (js "root"))

def Boundary.named (b : Boundary) (checked : CheckedLine) : Bool :=
  checked.event = RETENTION_EVENT && namesBoundary b.throughSeq b.throughHash checked.fields &&
    isText b.frontier (fieldOf checked.fields (js "frontier"))

/-- A checked line that is in its place joins the chain. Its hash has the form that `push` asks
for. -/
def advance (file : Text) (checked : CheckedLine) (s : Scan) : Scan :=
  { s with
    sinceAnchor := if checked.event = ANCHOR_EVENT then 0 else s.sinceAnchor + 1
    boundary := s.boundary.filter fun b => !b.named checked
    retentions :=
      if file = path ∧ checked.event = RETENTION_EVENT then s.retentions ++ [checked.fields]
      else s.retentions
    frontier := (s.frontier.push (some checked.hash)).toOption.getD s.frontier
    lastSeq := next s.lastSeq
    count := s.count + 1
    prev := checked.hash
    seen := s.seen ++ [(next s.lastSeq, checked.hash)] }

/-- The line at its place in the chain: the reason that it fails, or its seq, timestamp and hash. -/
def placeLine (file line : Text) (s : Scan) : Except Text (Finite × Text × Text) × Scan :=
  match checkLine line (next s.lastSeq) s.prev with
  | .error reason => (.error reason, s)
  | .ok checked =>
    if checked.event = ANCHOR_EVENT ∧ ¬ anchorHolds s checked then
      (.error (js "anchor root does not match records through " ++ numberText (.finite s.lastSeq)), s)
    else
      let s := advance path file checked s
      (.ok (s.lastSeq, checked.ts, checked.hash), s)

def acceptLine (file line : Text) (s : Scan) : Except Text (Finite × Text × Text) × Scan :=
  if s.started then placeLine path file line s
  else
    match start path fs options file line s with
    | (some reason, s) => (.error reason, s)
    | (none, s) => placeLine path file line s

/-- The records of one file so far. -/
structure FileState where
  firstSeq : Finite
  fileLastSeq : Finite
  fileLastTs : Text
  fileLastHash : Text

def FileState.initial : FileState := ⟨zero, zero, [], GENESIS_HASH⟩

def onFileLine (file : Text) (s : FileState × Scan) (line : Text) : Option Text × FileState × Scan :=
  match acceptLine path fs options file line s.2 with
  | (.error reason, scan) => (some reason, s.1, scan)
  | (.ok (seq, ts, hash), scan) =>
    (none, ⟨if s.1.firstSeq.units = 0 then seq else s.1.firstSeq, seq, ts, hash⟩, scan)

def scanFile (file : Text) (s : Scan) : ScanStep × Scan :=
  match eachLine (onFileLine path fs options file) fs file (limitOf (pinOf path options) file)
      (FileState.initial, s) with
  | (.ok, held, s) =>
    if held.firstSeq.units = 0 then (.ok, s)
    else
      (.ok, { s with files := s.files ++ [⟨file, held.firstSeq, held.fileLastSeq, held.fileLastTs,
        held.fileLastHash, s.frontier.snapshot⟩] })
  | (step, _, s) => (step, s)

def finish (verification : Verification) (brokenIn : Text) (s : Scan) : ChainScan :=
  { verification, brokenIn
    lastSeq := s.lastSeq
    lastHash := s.prev
    frontier := s.frontier
    sinceAnchor := s.sinceAnchor
    activeFirst := ((s.files.find? fun f => f.path = path).map ScannedFile.firstSeq).getD (next s.lastSeq)
    files := s.files
    retentions := s.retentions
    carriedUsed := s.carriedUsed
    seen := s.seen }

def scanFiles : List Text → Scan → ChainScan
  | [], s =>
    match s.boundary with
    | some b =>
      finish path (.broken ⟨0, seqOne, js "seq " ++ numberText (.finite (next b.throughSeq)) ++
        js " where 1 was expected"⟩) b.file s
    | none => finish path (.ok s.count s.prev) path s
  | file :: more, s =>
    match scanFile path fs options file s with
    | (step, s) =>
      match s.halt, step with
      | some verdict, _ => finish path (.broken verdict) file s
      | none, .io reason => finish path (.broken ⟨s.count, zero, reason⟩) file s
      | none, .broken reason => finish path (.broken ⟨s.count, next s.lastSeq, reason⟩) file s
      | none, .ok => scanFiles more s

def scanChain : ChainScan := scanFiles path fs options (chainFiles path fs options) .initial

end Scan

/-- `verifyAuditFile`. -/
def verifyAuditFile (path : Text) (fs : AuditFs) (activeBytes : Option Nat) : Verification :=
  (scanChain path fs ⟨false, activeBytes, []⟩).verification

end Ultrathink.Source.Obs.AuditChain
