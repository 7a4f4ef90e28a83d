import Ultrathink.Library.Framing
import Ultrathink.Source.Service.Stdio

/-!
# The transport's lines in pieces

The program that the transport runs depends on the bytes of its input alone: it goes through
their lines in order, refuses each that is longer than the limit once, and hands on every
other one with the protocol version that the lines before it settled on.
-/

namespace Ultrathink.Guarantees.StdioServer

open List Library JsText JsonWrite Framing Interaction
open Service.Validate Service.Mcp Service.Stdio

abbrev isNewline (u : UInt8) : Bool := u = NEWLINE

variable (handler : Handler) (maxLine : Nat)

/-- One line, with the protocol version before it and after it. -/
def serveFrame : Frame UInt8 → Option Text → M (Option Text)
  | .line bytes, version => handleLine handler bytes version
  | .refused, version => do
    refuseOversized
    return version

def serveFrames : List (Frame UInt8) → Option Text → M (Option Text)
  | [], version => return version
  | frame :: rest, version => do
    let version ← serveFrame handler frame version
    serveFrames rest version

theorem serveFrames_append (xs ys : List (Frame UInt8)) (version : Option Text) :
    serveFrames handler (xs ++ ys) version =
      serveFrames handler xs version >>= serveFrames handler ys := by
  induction xs generalizing version with
  | nil => rfl
  | cons x rest ih =>
    simp only [cons_append, serveFrames, ih]
    exact (Prog.bind_assoc _ _ _).symm

theorem serveFrames_one (x : Frame UInt8) (version : Option Text) :
    serveFrames handler [x] version = serveFrame handler x version := Prog.bind_done _

theorem segments_eq (bytes : List UInt8) : segments bytes = cut isNewline bytes := by
  induction bytes with
  | nil => rfl
  | cons u rest ih =>
    by_cases isEnd : u = NEWLINE
    · have ends : isNewline u = true := by simpa using isEnd
      rw [segments, if_pos isEnd, cut_end ends, ih]
    · have inside : isNewline u = false := by simpa using isEnd
      rw [segments, if_neg isEnd, cut_cons inside, ih]
      cases (cut isNewline rest).1 <;> rfl

/-- The state that keeps `held` of the line that goes on, none when it is thrown away. -/
def stateOf (version : Option Text) (held : Option (List UInt8)) : State :=
  ⟨version, held.getD [], held.isNone⟩

theorem feedLine_held (segment left : List UInt8) (version : Option Text) :
    feedLine handler maxLine segment (stateOf version (some left)) =
      serveFrame handler (frame maxLine (left ++ segment)) version >>=
        fun version => return stateOf version (some []) := by
  rw [feedLine]
  by_cases long : maxLine < (left ++ segment).length
  · rw [frame_long long, length_append] at *
    simp only [stateOf, Option.isNone_some, Bool.false_eq_true, if_false, Option.getD_some, long, if_true]
    rfl
  · rw [frame_short long]
    rw [length_append] at long
    simp only [stateOf, Option.isNone_some, Bool.false_eq_true, if_false, Option.getD_some, long]
    rfl

theorem feedLines_held (lines : List (List UInt8)) (version : Option Text) :
    feedLines handler maxLine lines (stateOf version (some [])) =
      serveFrames handler (lines.map (frame maxLine)) version >>=
        fun version => return stateOf version (some []) := by
  induction lines generalizing version with
  | nil => rfl
  | cons line rest ih =>
    rw [feedLines, feedLine_held, nil_append, map_cons, serveFrames, Prog.bind_assoc,
      Prog.bind_assoc]
    exact congrArg _ (funext fun version => ih version)

variable {t : History Call Answer} {left : List UInt8} {before after : Option Text}

theorem feedRest_held (short : left.length ≤ maxLine) (segment : List UInt8)
    (version : Option Text) :
    feedRest maxLine segment (stateOf version (some left)) =
      serveFrames handler (early maxLine (left ++ segment)) version >>=
        fun version => return stateOf version (keep maxLine (left ++ segment)) := by
  rw [feedRest]
  by_cases nothing : segment = []
  · subst nothing
    simp only [append_nil, early_short (Nat.not_lt.mpr short), keep_short (Nat.not_lt.mpr short),
      if_true]
    rfl
  · rw [if_neg nothing]
    by_cases long : maxLine < (left ++ segment).length
    · rw [early_long long, keep_long long, serveFrames_one]
      rw [length_append] at long
      simp only [stateOf, Option.isNone_some, Bool.false_eq_true, if_false, Option.getD_some, long, if_true]
      rfl
    · rw [early_short long, keep_short long]
      rw [length_append] at long
      simp only [stateOf, Option.isNone_some, Bool.false_eq_true, if_false, Option.getD_some, long]
      rfl

/-- The state when `t` has come. -/
def stateAfter (t : List UInt8) (version : Option Text) : State :=
  stateOf version (kept isNewline maxLine t)

theorem feed_held (free : ∀ u ∈ left, isNewline u = false) (short : left.length ≤ maxLine)
    (chunk : List UInt8) (version : Option Text) :
    feed handler maxLine chunk (stateOf version (some left)) =
      serveFrames handler (given isNewline maxLine (left ++ chunk)) version >>=
        fun version => return stateOf version (kept isNewline maxLine (left ++ chunk)) := by
  rw [feed, segments_eq, given, kept, cut_free_append free]
  cases ended : (cut isNewline chunk).1 with
  | nil =>
    simp only [map_nil, nil_append]
    exact feedRest_held handler maxLine short _ version
  | cons line more =>
    simp only [map_cons, cons_append]
    rw [feedLines, feedLine_held, serveFrames]
    simp only [Prog.bind_assoc, serveFrames_append]
    congr 1
    funext version
    simp only [Prog.pure_eq, Prog.done_bind, feedLines_held, Prog.bind_assoc]
    congr 1
    funext version
    exact feedRest_held handler maxLine (Nat.zero_le _) _ version

theorem feed_none (chunk : List UInt8) (version : Option Text) :
    feed handler maxLine chunk (stateOf version none) =
      serveFrames handler (advance isNewline maxLine chunk none).1 version >>=
        fun version => return stateOf version (advance isNewline maxLine chunk none).2 := by
  rw [feed, segments_eq, advance]
  cases ended : (cut isNewline chunk).1 with
  | nil =>
    simp only [feedLines, feedRest]
    split <;> rfl
  | cons line more =>
    simp only [serveFrames_append]
    have starts : feedLine handler maxLine line (stateOf version none) =
        return stateOf version (some []) := rfl
    simp only [feedLines, starts, Prog.pure_eq, Prog.done_bind, feedLines_held, Prog.bind_assoc]
    congr 1
    funext version
    exact feedRest_held handler maxLine (Nat.zero_le _) _ version

theorem feed_after (t chunk : List UInt8) (version : Option Text) :
    feed handler maxLine chunk (stateAfter maxLine t version) =
      serveFrames handler (advance isNewline maxLine chunk (kept isNewline maxLine t)).1 version >>=
        fun version => return stateAfter maxLine (t ++ chunk) version := by
  have grown := congrArg Prod.snd (@given_append _ isNewline maxLine t chunk)
  dsimp only at grown
  simp only [stateAfter, grown]
  by_cases long : maxLine < (cut isNewline t).2.length
  · have none_ : kept isNewline maxLine t = none := keep_long long
    rw [none_]
    exact feed_none handler maxLine chunk version
  · have some_ : kept isNewline maxLine t = some (cut isNewline t).2 := keep_short long
    rw [some_]
    exact feed_held handler maxLine (left_free t) (Nat.not_lt.mp long) chunk version

def bytesOf (input : List Chunk) : List UInt8 := (input.map toBytes).flatten

theorem feedAll_after (input : List Chunk) (t : List UInt8) :
    (serveFrames handler (given isNewline maxLine t) none >>= fun version =>
        feedAll handler maxLine input (stateAfter maxLine t version)) =
      serveFrames handler (given isNewline maxLine (t ++ bytesOf input)) none >>=
        fun version => return stateAfter maxLine (t ++ bytesOf input) version := by
  induction input generalizing t with
  | nil => simp only [feedAll, bytesOf, map_nil, flatten_nil, append_nil]
  | cons chunk rest ih =>
    have grown := congrArg Prod.fst (@given_append _ isNewline maxLine t (toBytes chunk))
    dsimp only at grown
    have whole : t ++ bytesOf (chunk :: rest) = t ++ toBytes chunk ++ bytesOf rest := by
      simp [bytesOf]
    rw [whole, ← ih, grown, serveFrames_append]
    simp only [feedAll, feed_after, Prog.bind_assoc, Prog.pure_eq, Prog.done_bind]

theorem finish_after (t : List UInt8) (version : Option Text) :
    finish handler (stateAfter maxLine t version) =
      serveFrames handler (match kept isNewline maxLine t with
        | some left => [frame maxLine (left ++ [])]
        | none => []) version >>= fun _ => return () := by
  rw [finish]
  by_cases long : maxLine < (cut isNewline t).2.length
  · have none_ : kept isNewline maxLine t = none := keep_long long
    simp only [stateAfter, none_]
    rfl
  · have some_ : kept isNewline maxLine t = some (cut isNewline t).2 := keep_short long
    simp only [stateAfter, some_, append_nil, frame_short long, serveFrames_one]
    cases left : (cut isNewline t).2 with
    | nil => rfl
    | cons u more => rfl

theorem serveWith_frames (maxLineBytes : Option Nat) (input : List Chunk) :
    serveWith handler maxLineBytes input =
      serveFrames handler (frames isNewline (maxLineBytes.getD MAX_LINE_BYTES) (bytesOf input)) none >>=
        fun _ => return () := by
  have all := feedAll_after handler (maxLineBytes.getD MAX_LINE_BYTES) input []
  have start : stateAfter (maxLineBytes.getD MAX_LINE_BYTES) [] none = .initial := rfl
  have nothing : given isNewline (maxLineBytes.getD MAX_LINE_BYTES) [] = [] := rfl
  simp only [nothing, serveFrames, Prog.pure_eq, Prog.done_bind, start, nil_append] at all
  have ended := @frames_append _ isNewline [] (by simp) (maxLineBytes.getD MAX_LINE_BYTES) (bytesOf input)
  rw [append_nil] at ended
  rw [serveWith, all, ended, serveFrames_append]
  simp only [Prog.bind_assoc, Prog.done_bind, finish_after, Prog.pure_eq]
  cases kept isNewline (maxLineBytes.getD MAX_LINE_BYTES) (bytesOf input) <;> rfl

variable (h : McpToolHost) (c : Content)

def written (line : Text) : Event Call Answer := ⟨.write line, ()⟩

/-- What is done for a line under the protocol version `before`, and the version `after` it. -/
def Answered (frame : Frame UInt8) (before after : Option Text) (t : History Call Answer) : Prop :=
  match frame with
  | .refused =>
    after = before ∧ t = [written (errorLine .null INVALID_REQUEST (js "invalid request: line too long"))]
  | .line bytes =>
    if trim (decoded (withoutReturn bytes)) = [] then after = before ∧ t = []
    else
      match JsonText.parse (decoded (withoutReturn bytes)) with
      | none => after = before ∧ t = [written (errorLine .null PARSE_ERROR (js "parse error"))]
      | some payload =>
        ∃ asked reply, Emits (handleMcpPayload h c payload before) asked (some reply) ∧
          match reply with
          | none => after = before ∧ t = asked
          | some reply =>
            after = (negotiatedVersion payload reply.body.value).or before ∧
              t = asked ++ [written (stringify reply.body.value)]

/-- The lines are answered one after the other. -/
inductive Served : List (Frame UInt8) → Option Text → History Call Answer → Prop
  | done (version : Option Text) : Served [] version []
  | line {frame : Frame UInt8} {rest : List (Frame UInt8)} {before after : Option Text}
      {t later : History Call Answer} (answered : Answered h c frame before after t)
      (served : Served rest after later) : Served (frame :: rest) before (t ++ later)

theorem emits_write {line : Text} {o : Unit} (emits : Emits (Service.Stdio.write line) t (some o)) :
    t = [written line] := by
  cases emits with
  | ask rest =>
    cases rest
    rfl

theorem emits_mcpHandler {payload : Value} {version : Option Text} {o : Option (Option McpReply)}
    (emits : Emits (mcpHandler h c payload version) t (some o)) :
    ∃ reply, o = some reply ∧ Emits (handleMcpPayload h c payload version) t (some reply) := by
  obtain ⟨first, reply, later, rfl, handled, ended⟩ := Emits.bind_some emits
  cases ended
  rw [append_nil]
  exact ⟨reply, rfl, handled⟩

theorem serveFrame_answered {frame : Frame UInt8}
    (emits : Emits (serveFrame (mcpHandler h c) frame before) t (some after)) :
    Answered h c frame before after t := by
  cases frame with
  | refused =>
    obtain ⟨first, _, later, rfl, refused, ended⟩ := Emits.bind_some emits
    cases ended
    rw [emits_write refused]
    exact ⟨rfl, rfl⟩
  | line bytes =>
    rw [serveFrame, handleLine] at emits
    rw [Answered]
    by_cases blank : trim (decoded (withoutReturn bytes)) = []
    · rw [if_pos blank] at emits ⊢
      cases emits
      exact ⟨rfl, rfl⟩
    · rw [if_neg blank] at emits ⊢
      cases parsed : JsonText.parse (decoded (withoutReturn bytes)) with
      | none =>
        simp only [parsed] at emits
        obtain ⟨first, _, later, rfl, refused, ended⟩ := Emits.bind_some emits
        cases ended
        rw [emits_write refused]
        exact ⟨rfl, rfl⟩
      | some payload =>
        simp only [parsed] at emits
        obtain ⟨asked, answer, later, rfl, handled, ended⟩ := Emits.bind_some emits
        obtain ⟨reply, same, replied⟩ := emits_mcpHandler h c handled
        subst same
        refine ⟨asked, reply, replied, ?_⟩
        cases reply with
        | none =>
          cases ended
          exact ⟨rfl, append_nil _⟩
        | some reply =>
          obtain ⟨line, _, last, rfl, wrote, ended⟩ := Emits.bind_some ended
          cases ended
          rw [emits_write wrote]
          exact ⟨rfl, rfl⟩

theorem serveFrames_served {lines : List (Frame UInt8)}
    (emits : Emits (serveFrames (mcpHandler h c) lines before) t (some after)) :
    Served h c lines before t := by
  induction lines generalizing before t with
  | nil =>
    cases emits
    exact .done _
  | cons line rest ih =>
    obtain ⟨first, version, later, rfl, answered, others⟩ := Emits.bind_some emits
    exact .line (serveFrame_answered h c answered) (ih others)

/-- However the bytes come, the program is the same, and it answers the lines of the bytes in
their order: a line that is too long with a refusal, and each other one, the unfinished one at
the end too, with what the handler replies. -/
theorem stdio_lines (maxLineBytes : Option Nat) (input : List Chunk) :
    (∀ other, bytesOf other = bytesOf input →
      serveStdio h c maxLineBytes other = serveStdio h c maxLineBytes input) ∧
    ∀ t, Emits (serveStdio h c maxLineBytes input) t (some ()) →
      Served h c (frames isNewline (maxLineBytes.getD MAX_LINE_BYTES) (bytesOf input)) none t := by
  constructor
  · intro other same
    rw [serveStdio, serveStdio, serveWith_frames, serveWith_frames, same]
  · intro t emits
    rw [serveStdio, serveWith_frames] at emits
    obtain ⟨first, version, later, rfl, served, ended⟩ := Emits.bind_some emits
    cases ended
    rw [append_nil]
    exact serveFrames_served h c served

end Ultrathink.Guarantees.StdioServer
