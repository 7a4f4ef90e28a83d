import Ultrathink.Guarantees.AuditChains

/-!
# Audit lines are told from the bytes

However a file comes in reads, `eachLine` offers the lines of its bytes in order and ends as
the first line that is too long, the first rejection or what stands behind the last line end says.
-/

namespace Ultrathink.Guarantees.AuditReads

open List Library JsText Framing Source.Obs.AuditChain
open Source.Obs.AuditLine hiding eachLine
open AuditChains (isEnd)

variable {σ : Type} (onLine : σ → Text → Option Text × σ)

/-- The lines offered in turn, then the verdict on what is left behind them. -/
def offered (failure : Option Text) (left : List UInt8) : List (List UInt8) → σ → ScanStep × σ
  | [], s =>
    if MAX_LINE_BYTES < left.length then
      (.broken (js "record exceeds the maximum line length"), s)
    else
      match failure with
      | some message => (.io (js "cannot read: " ++ message), s)
      | none =>
        if left = [] then (.ok, s)
        else (.broken (js "truncated last record (no trailing newline)"), s)
  | line :: more, s =>
    if MAX_LINE_BYTES < line.length then
      (.broken (js "record exceeds the maximum line length"), s)
    else
      match onLine s (ofUtf8 line) with
      | (some reason, s) => (.broken reason, s)
      | (none, s) => offered failure left more s

/-- The lines that the bytes hold and what is left of them, offered. -/
def told (failure : Option Text) (bytes : List UInt8) (s : σ) : ScanStep × σ :=
  offered onLine failure (cut isEnd bytes).2 (cut isEnd bytes).1 s

/-- What the bytes of a file say under a limit, which may end the reading before a failure. -/
def toldWithin (failure : Option Text) (limit : Option Nat) (bytes : List UInt8) (s : σ) :
    ScanStep × σ :=
  told onLine (if limit.any fun limit => limit ≤ bytes.length then none else failure)
    (limit.elim bytes bytes.take) s

variable {onLine} {failure : Option Text} {s : σ} {pending tail : List UInt8}

theorem readUpTo_flatten (limit : Option Nat) (reads : List (List UInt8)) :
    (readUpTo limit reads).flatten = limit.elim reads.flatten reads.flatten.take := by
  cases limit with
  | none =>
    rw [readUpTo]
    rfl
  | some remaining =>
    induction reads generalizing remaining with
    | nil => simp [readUpTo]
    | cons read more ih =>
      unfold readUpTo
      split
      · next spent => simp [spent]
      · have rest := ih (remaining - read.length)
        simp only [Option.elim_some] at rest ⊢
        rw [flatten_cons, flatten_cons, rest, take_append]

theorem failureWithin_eq (limit : Option Nat) (file : FileReads) :
    failureWithin limit file =
      if limit.any fun limit => limit ≤ file.reads.flatten.length then none else file.failure := by
  cases limit with
  | none => rfl
  | some limit => simp [failureWithin]

theorem free_iff : (∀ u ∈ tail, isEnd u = false) ↔ (0x0A : UInt8) ∉ tail := by
  constructor
  · intro free held
    exact absurd (free _ held) (by decide)
  · intro free u mem
    refine decide_eq_false fun same => free (same ▸ mem)

/-- A line that is too long already is too long wherever it ends. -/
theorem told_long (free : (0x0A : UInt8) ∉ tail) (long : MAX_LINE_BYTES < tail.length)
    (rest : List UInt8) :
    told onLine failure (tail ++ rest) s =
      (.broken (js "record exceeds the maximum line length"), s) := by
  have longer : ∀ more, MAX_LINE_BYTES < (tail ++ more).length := by
    intro more
    rw [length_append]
    omega
  rw [told, cut_free_append (free_iff.mpr free)]
  cases (cut isEnd rest).1 with
  | nil => exact if_pos (longer _)
  | cons line more => exact if_pos (longer _)

theorem told_line (free : (0x0A : UInt8) ∉ tail) (rest : List UInt8) :
    told onLine failure (tail ++ 0x0A :: rest) s =
      if MAX_LINE_BYTES < tail.length then
        (.broken (js "record exceeds the maximum line length"), s)
      else
        match onLine s (ofUtf8 tail) with
        | (some reason, s) => (.broken reason, s)
        | (none, s) => told onLine failure rest s := by
  rw [told, cut_line (free_iff.mpr free) rfl, offered]
  rfl

/-- What is pending is the start of a line that may still be short enough. -/
structure Started (pending : List UInt8) : Prop where
  free : (0x0A : UInt8) ∉ pending
  short : ¬ MAX_LINE_BYTES < pending.length

theorem started_nil : Started [] := ⟨by simp, by simp⟩

/-- What a read leaves, told on with the bytes behind it. -/
def toldOn (failure : Option Text) (rest : List UInt8) :
    Except Text (List UInt8) × σ → ScanStep × σ
  | (.error reason, s) => (.broken reason, s)
  | (.ok pending, s) => told onLine failure (pending ++ rest) s

theorem scanRead_told {read : List UInt8} (started : Started pending)
    (free : (0x0A : UInt8) ∉ pending ++ tail) (rest : List UInt8) :
    @toldOn σ onLine failure rest (scanRead onLine pending tail read s) =
        told onLine failure (pending ++ tail ++ (read ++ rest)) s ∧
      ∀ left, (scanRead onLine pending tail read s).1 = .ok left → Started left := by
  induction read generalizing pending tail s with
  | nil =>
    unfold scanRead
    split
    next long =>
      rw [← length_append] at long
      exact ⟨(told_long free long.2 rest).symm, fun _ same => by cases same⟩
    next fits =>
      refine ⟨rfl, fun left same => ?_⟩
      obtain rfl := Except.ok.inj same
      refine ⟨free, fun long => ?_⟩
      by_cases none : tail = []
      · rw [none, append_nil] at long
        exact started.short long
      · rw [length_append] at long
        exact fits ⟨none, long⟩
  | cons b more ih =>
    unfold scanRead
    split
    next other =>
      have free' : (0x0A : UInt8) ∉ pending ++ (tail ++ [b]) := by
        rw [← append_assoc, mem_append, mem_singleton]
        exact fun mem => mem.elim free fun same => other same.symm
      have later := ih started free' (s := s)
      simp only [append_assoc, cons_append, nil_append] at later ⊢
      exact later
    next isEnd_ =>
      rw [not_not] at isEnd_
      rw [isEnd_, cons_append, told_line free, length_append]
      split
      · exact ⟨rfl, fun _ same => by cases same⟩
      · rcases onLine s (ofUtf8 (pending ++ tail)) with ⟨_ | reason, s'⟩
        · exact ih started_nil (by simp)
        · exact ⟨rfl, fun _ same => by cases same⟩

theorem scanReads_told {reads : List (List UInt8)} (started : Started pending) :
    scanReads onLine failure pending reads s =
      told onLine failure (pending ++ reads.flatten) s := by
  induction reads generalizing pending s with
  | nil =>
    rw [flatten_nil, append_nil, told, cut_of_free (free_iff.mpr started.free)]
    exact (if_neg started.short).symm
  | cons read more ih =>
    have free : (0x0A : UInt8) ∉ pending ++ [] := by
      rw [append_nil]
      exact started.free
    obtain ⟨same, next⟩ := @scanRead_told σ onLine failure s pending [] read started free more.flatten
    rw [append_nil] at same
    rw [flatten_cons, ← same, scanReads]
    split
    next scanned => rw [scanned]; rfl
    next left t scanned =>
      rw [scanned] at next ⊢
      exact ih (next left rfl)

/-- Two files of the same bytes, however they come in reads, have the same lines offered and
the same verdict, which the bytes and the limit tell. -/
theorem each_line_of_bytes (onLine : σ → Text → Option Text × σ) {fs fs' : AuditFs}
    {file file' : Text} {opened opened' : FileReads} (opens : fs.openSync file = .ok opened)
    (opens' : fs'.openSync file' = .ok opened')
    (bytes : opened.reads.flatten = opened'.reads.flatten)
    (failure : opened.failure = opened'.failure) (limit : Option Nat) (s : σ) :
    eachLine onLine fs file limit s = eachLine onLine fs' file' limit s ∧
      eachLine onLine fs file limit s =
        toldWithin onLine opened.failure limit opened.reads.flatten s := by
  have told : ∀ {fs : AuditFs} {file : Text} {opened : FileReads},
      fs.openSync file = .ok opened → eachLine onLine fs file limit s =
        toldWithin onLine opened.failure limit opened.reads.flatten s := by
    intro fs file opened opens
    rw [eachLine, opens]
    show scanReads onLine _ [] _ s = _
    rw [scanReads_told started_nil, nil_append, readUpTo_flatten, failureWithin_eq]
    rfl
  refine ⟨?_, told opens⟩
  rw [told opens, told opens', bytes, failure]

/-- One line of one character, which takes two bytes. -/
def atOnce : FileReads := ⟨[[0xC3, 0xA9, 0x0A]], none, by decide⟩

/-- The same bytes, with a read that ends inside the character. -/
def inPieces : FileReads := ⟨[[0xC3], [0xA9, 0x0A]], none, by decide⟩

def fsOf (opened : FileReads) : AuditFs := ⟨none, id, fun _ => true, fun _ => .ok opened⟩

def collect (lines : List Text) (line : Text) : Option Text × List Text := (none, lines ++ [line])

theorem each_line_of_pieces :
    (eachLine collect (fsOf inPieces) [] none []).2 = [[0xE9]] ∧
      eachLine collect (fsOf inPieces) [] none [] = eachLine collect (fsOf atOnce) [] none [] := by
  have pieces : (fsOf inPieces).openSync [] = .ok inPieces := rfl
  have whole : (fsOf atOnce).openSync [] = .ok atOnce := rfl
  exact ⟨by decide +kernel, (each_line_of_bytes collect pieces whole rfl rfl none []).1⟩

end Ultrathink.Guarantees.AuditReads
