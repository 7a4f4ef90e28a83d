import Ultrathink.Guarantees.SseChunks
import Ultrathink.Source.Mcp.Stdio

/-!
# Standard input in pieces

What the relay does with the bytes of stdin depends on the bytes alone: they are decoded at
once, cut into lines, and each line is dispatched, or refused when it is longer than the
limit. What is buffered is at most a line within the limit and the text of one chunk, which
is at most one unit longer than the chunk.
-/

namespace Ultrathink.Guarantees.StdioFraming

open List Library JsText Framing Mcp.Stdio
open Mcp.Sse (lines MAX_BODY_BYTES)
open SseChunks (lines_eq)

def acts : Frame UInt16 → List Act
  | .line line => dispatch line
  | .refused => refuseLong

/-- The lines of a text, each given or refused. -/
abbrev framesOf (maxLineChars : Nat) (t : Text) : List (Frame UInt16) :=
  frames (fun u : UInt16 => u = 0x0A) maxLineChars t

abbrev advanceBy (maxLineChars : Nat) (t : Text) (held : Option Text) :
    List (Frame UInt16) × Option Text :=
  advance (fun u : UInt16 => u = 0x0A) maxLineChars t held

/-- What a reader keeps of the line that goes on. -/
def keptBy (r : LineReader) : Option Text := if r.discarding then none else some r.buffer

/-- A reader within its limit, that holds nothing of a line it throws away. -/
structure Tidy (maxLineChars : Nat) (r : LineReader) : Prop where
  short : r.buffer.length ≤ maxLineChars
  empty : r.discarding = true → r.buffer = []

theorem acts_frame (maxLineChars : Nat) (line : Text) :
    acts (frame maxLineChars line) =
      if maxLineChars < line.length then refuseLong else dispatch line := by
  by_cases long : maxLineChars < line.length
  · rw [frame_long long, if_pos long]
    rfl
  · rw [frame_short long, if_neg long]
    rfl

theorem takeLines_taking (maxLineChars : Nat) (ended : List Text) :
    takeLines maxLineChars ended false = ((ended.map (frame maxLineChars)).flatMap acts, false) := by
  induction ended with
  | nil => rfl
  | cons line rest ih =>
    rw [takeLines, ih, map_cons, flatMap_cons, acts_frame]

variable {maxLineChars : Nat}

variable {r : LineReader} {bytes : List UInt8} {done : List Act}

theorem push_taking (taking : r.discarding = false) (chunk : List UInt8) :
    (push maxLineChars r chunk).1 =
      (given (fun u : UInt16 => u = 0x0A) maxLineChars (buffered r chunk)).flatMap acts ∧
    keptBy (push maxLineChars r chunk).2 =
      kept (fun u : UInt16 => u = 0x0A) maxLineChars (buffered r chunk) ∧
    Tidy maxLineChars (push maxLineChars r chunk).2 := by
  rw [given, kept, ← lines_eq]
  simp only [push, taking, takeLines_taking]
  by_cases long : maxLineChars < (lines (buffered r chunk)).2.length
  · simp only [long, early_long, keep_long, if_true, Bool.false_eq_true, if_false]
    refine ⟨?_, rfl, ⟨Nat.zero_le _, fun _ => rfl⟩⟩
    rw [flatMap_append]
    rfl
  · simp only [long, early_short, keep_short, if_false, Bool.false_eq_true, not_false_eq_true]
    refine ⟨?_, rfl, ⟨Nat.not_lt.mp long, fun false => by cases false⟩⟩
    rw [append_nil]

theorem push_discarding (discards : r.discarding = true) (empty : r.buffer = [])
    (chunk : List UInt8) :
    (push maxLineChars r chunk).1 =
      (advanceBy maxLineChars (r.decoder.decode chunk).1 none).1.flatMap acts ∧
    keptBy (push maxLineChars r chunk).2 =
      (advanceBy maxLineChars (r.decoder.decode chunk).1 none).2 ∧
    Tidy maxLineChars (push maxLineChars r chunk).2 := by
  have text : buffered r chunk = (r.decoder.decode chunk).1 := by rw [buffered, empty]; rfl
  rw [advanceBy, advance, ← lines_eq, ← text]
  simp only [push, discards]
  cases ended : (lines (buffered r chunk)).1 with
  | nil => exact ⟨rfl, rfl, ⟨Nat.zero_le _, fun _ => rfl⟩⟩
  | cons line more =>
    rw [takeLines, takeLines_taking]
    by_cases long : maxLineChars < (lines (buffered r chunk)).2.length
    · simp only [long, early_long, keep_long, if_true, Bool.false_eq_true, if_false]
      refine ⟨?_, rfl, ⟨Nat.zero_le _, fun _ => rfl⟩⟩
      rw [flatMap_append]
      rfl
    · simp only [long, early_short, keep_short, if_false, Bool.false_eq_true, not_false_eq_true]
      refine ⟨?_, rfl, ⟨Nat.not_lt.mp long, fun false => by cases false⟩⟩
      rw [append_nil]

theorem push_advance (tidy : Tidy maxLineChars r) (chunk : List UInt8) :
    (push maxLineChars r chunk).1 =
      (advanceBy maxLineChars (r.decoder.decode chunk).1 (keptBy r)).1.flatMap acts ∧
    keptBy (push maxLineChars r chunk).2 =
      (advanceBy maxLineChars (r.decoder.decode chunk).1 (keptBy r)).2 ∧
    Tidy maxLineChars (push maxLineChars r chunk).2 := by
  cases discarding : r.discarding with
  | true =>
    have nothing : keptBy r = none := by rw [keptBy, discarding]; rfl
    rw [nothing]
    exact push_discarding discarding (tidy.empty discarding) chunk
  | false =>
    have held : keptBy r = some r.buffer := by rw [keptBy, discarding]; rfl
    rw [held]
    exact push_taking discarding chunk

theorem push_decoder (r : LineReader) (chunk : List UInt8) :
    (push maxLineChars r chunk).2.decoder = (r.decoder.decode chunk).2 := by
  simp only [push]
  split
  · rfl
  · split <;> rfl

/-- What has been done, and the reader, when bytes have come. -/
structure After (maxLineChars : Nat) (bytes : List UInt8) (done : List Act) (r : LineReader) : Prop where
  decoder : r.decoder = (TextDecoder.new.decode bytes).2
  done : done =
    (given (fun u : UInt16 => u = 0x0A) maxLineChars (TextDecoder.new.decode bytes).1).flatMap acts
  keeps : keptBy r =
    kept (fun u : UInt16 => u = 0x0A) maxLineChars (TextDecoder.new.decode bytes).1
  tidy : Tidy maxLineChars r

theorem after_new : After maxLineChars [] [] .new where
  decoder := rfl
  done := rfl
  keeps := rfl
  tidy := ⟨Nat.zero_le _, fun _ => rfl⟩

theorem after_push (after : After maxLineChars bytes done r) (chunk : List UInt8) :
    After maxLineChars (bytes ++ chunk) (done ++ (push maxLineChars r chunk).1)
      (push maxLineChars r chunk).2 := by
  have ⟨pushed, keeps, tidy⟩ := push_advance after.tidy chunk
  have grown := @given_append _ (fun u : UInt16 => u = 0x0A) maxLineChars
    (TextDecoder.new.decode bytes).1 (r.decoder.decode chunk).1
  have whole := TextDecoder.decode_append .new bytes chunk
  rw [← after.decoder] at whole
  have ⟨gives, holds⟩ := Prod.mk.inj grown
  constructor
  · rw [push_decoder, whole]
  · rw [whole, gives, flatMap_append, ← after.done, pushed, after.keeps]
  · rw [whole, holds, keeps, after.keeps]
  · exact tidy

theorem after_pushAll (chunks : List (List UInt8)) (after : After maxLineChars bytes done r) :
    After maxLineChars (bytes ++ chunks.flatten) (done ++ (pushAll maxLineChars chunks r).1)
      (pushAll maxLineChars chunks r).2 := by
  induction chunks generalizing bytes done r with
  | nil => simpa [pushAll] using after
  | cons chunk rest ih =>
    have all := ih (after_push after chunk)
    rw [flatten_cons, ← append_assoc, pushAll, ← append_assoc]
    exact all

theorem after_chunks (maxLineChars : Nat) (chunks : List (List UInt8)) :
    After maxLineChars chunks.flatten (pushAll maxLineChars chunks .new).1
      (pushAll maxLineChars chunks .new).2 :=
  after_pushAll chunks after_new

theorem finish_frames (after : After maxLineChars bytes done r) :
    done ++ finish maxLineChars r =
      (framesOf maxLineChars (withoutMark (ofUtf8 bytes))).flatMap acts := by
  have free : ∀ u ∈ r.decoder.finish, decide (u = (0x0A : UInt16)) = false := by
    rcases r.decoder.finish_eq_nil_or with none | one
    · simp [none]
    · rw [one]
      exact forall_mem_singleton.mpr (by decide)
  rw [← TextDecoder.decode_finish, ← after.decoder, framesOf, frames_append free,
    flatMap_append, ← after.done, ← after.keeps, keptBy, finish]
  cases r.discarding with
  | true => rfl
  | false =>
    simp only [Bool.false_eq_true, if_false, flatMap_cons, acts_frame, flatMap_nil,
      append_nil]

/-- The reader when chunks have come. -/
def readerAfter (maxLineChars : Nat) (chunks : List (List UInt8)) : LineReader :=
  (pushAll maxLineChars chunks .new).2

theorem buffered_length (chunks : List (List UInt8)) (chunk : List UInt8) :
    (buffered (readerAfter maxLineChars chunks) chunk).length ≤
      maxLineChars + ((readerAfter maxLineChars chunks).decoder.decode chunk).1.length := by
  rw [buffered, length_append]
  exact Nat.add_le_add_right (after_chunks maxLineChars chunks).tidy.short _

/-- Whatever the chunks, every line of the decoded bytes is dispatched or refused once, in
order; and what is buffered is within the limit but for the text of the last chunk, which
has at most one unit more than the chunk has bytes. -/
theorem stdio_framing (option : Option Nat) (input : List (List UInt8)) :
    let maxLineChars := option.getD MAX_BODY_BYTES
    runStdioRelay option input =
      (framesOf maxLineChars (withoutMark (ofUtf8 input.flatten))).flatMap acts ∧
    (∀ other : List (List UInt8), other.flatten = input.flatten →
      runStdioRelay option other = runStdioRelay option input) ∧
    ∀ before chunk after, input = before ++ chunk :: after →
      (readerAfter maxLineChars before).buffer.length ≤ maxLineChars ∧
      (buffered (readerAfter maxLineChars before) chunk).length ≤
        maxLineChars + ((readerAfter maxLineChars before).decoder.decode chunk).1.length ∧
      ((readerAfter maxLineChars before).decoder.decode chunk).1.length ≤ chunk.length + 1 := by
  intro maxLineChars
  have whole : ∀ chunks : List (List UInt8), runStdioRelay option chunks =
      (framesOf maxLineChars (withoutMark (ofUtf8 chunks.flatten))).flatMap acts :=
    fun chunks => finish_frames (after_chunks maxLineChars chunks)
  refine ⟨whole input, ?_, ?_⟩
  · intro other same
    rw [whole other, whole input, same]
  · intro before chunk after _
    exact ⟨(after_chunks maxLineChars before).tidy.short, buffered_length before chunk,
      TextDecoder.decode_length _ chunk⟩

/-- A sequence that is broken by the next chunk counts there: with the limit 1, the bytes of
`a` and the start of a three-byte sequence and then one more `a` fill the buffer with three
units. -/
theorem broken_sequence_buffered :
    ¬ ∀ (maxLineChars : Nat) (before : List (List UInt8)) (chunk : List UInt8),
      (buffered (readerAfter maxLineChars before) chunk).length ≤ maxLineChars + chunk.length := by
  intro bound
  exact absurd (bound 1 [[0x61, 0xE2]] [0x61]) (by decide)

end Ultrathink.Guarantees.StdioFraming
