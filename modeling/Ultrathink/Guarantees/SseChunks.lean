import Mathlib.Data.List.Infix
import Ultrathink.Library.Framing
import Ultrathink.Source.Mcp.Sse

/-!
# Server-sent events in pieces

The messages and the error of a stream are those of its lines, however it is cut into
chunks, up to the first chunk that ends in more of an unfinished line than the limit: there
the parser stops with what the finished lines gave. Where no line is longer than the limit
no chunk ends so.
-/

namespace Ultrathink.Guarantees.SseChunks

open List Library JsText Mcp.Sse

/-- The messages delivered, and the error. -/
structure Outcome where
  payloads : List Text
  thrown : Option Text
  deriving DecidableEq

def outcome (p : Pushed) : Outcome := ⟨p.payloads, p.thrown⟩

/-- After messages that were delivered before. -/
def Outcome.behind (payloads : List Text) (o : Outcome) : Outcome :=
  { o with payloads := payloads ++ o.payloads }

/-- The end of the stream, when nothing was thrown before. -/
def close (maxLineChars : Nat) (pushed : Pushed) : Outcome :=
  match pushed.thrown with
  | some _ => outcome pushed
  | none => (outcome (finish maxLineChars pushed.parser)).behind pushed.payloads

def deliver (maxLineChars : Nat) (chunks : List Text) (p : Parser) : Outcome :=
  close maxLineChars (pushAll maxLineChars chunks p)

theorem lines_eq (t : Text) : lines t = Framing.cut (· = 0x0A) t := by
  induction t with
  | nil => rfl
  | cons u rest ih =>
    by_cases isEnd : u = 0x0A
    · subst isEnd
      rw [Framing.cut_end (by decide), ← ih]
      rfl
    · rw [Framing.cut_cons (by simpa using isEnd), ← ih, lines]
      simp only [isEnd, if_false]
      cases (lines rest).1 <;> rfl

/-- What the finished lines of a text give. -/
def read (maxLineChars : Nat) (t : Text) : Pushed :=
  let pushed := processLines maxLineChars (lines t).1 .empty
  { pushed with parser := { pushed.parser with buffer := (lines t).2 } }

/-- The unfinished line at the end of a text. -/
def rest (t : Text) : Text := (lines t).2

/-- A text read line by line to its end. -/
def whole (maxLineChars : Nat) (t : Text) : Outcome := close maxLineChars (read maxLineChars t)

/-- A text that ends in too much of an unfinished line. -/
def stopped (maxLineChars : Nat) (t : Text) : Outcome :=
  let pushed := read maxLineChars t
  ⟨pushed.payloads, some (pushed.thrown.getD (js "SSE line too long"))⟩

variable {maxLineChars : Nat}

variable {t e : Text} {p : Parser}

variable {xs chunks : List Text} {chunk : Text}

theorem processLines_thrown (thrown : (processLines maxLineChars xs p).thrown = some e)
    (ys : List Text) :
    processLines maxLineChars (xs ++ ys) p = processLines maxLineChars xs p := by
  induction xs generalizing p with
  | nil => cases thrown
  | cons line xs ih =>
    simp only [cons_append, processLines] at thrown ⊢
    cases first : (processLine maxLineChars p line).thrown with
    | some e' => rfl
    | none =>
      simp only [first] at thrown ⊢
      rw [ih thrown]

theorem processLines_append (clean : (processLines maxLineChars xs p).thrown = none)
    (ys : List Text) :
    processLines maxLineChars (xs ++ ys) p =
      { processLines maxLineChars ys (processLines maxLineChars xs p).parser with
        payloads := (processLines maxLineChars xs p).payloads ++
          (processLines maxLineChars ys (processLines maxLineChars xs p).parser).payloads } := by
  induction xs generalizing p with
  | nil => rfl
  | cons line xs ih =>
    simp only [cons_append, processLines] at clean ⊢
    cases first : (processLine maxLineChars p line).thrown with
    | some e' =>
      simp only [first] at clean
      cases clean
    | none =>
      simp only [first] at clean ⊢
      rw [ih clean, append_assoc]

theorem processLine_buffer (raw : Text) (p : Parser) (buffer : Text) :
    processLine maxLineChars { p with buffer := buffer } raw =
      { processLine maxLineChars p raw with
        parser := { (processLine maxLineChars p raw).parser with buffer := buffer } } := by
  unfold processLine dispatch
  simp only
  split_ifs <;> rfl

theorem processLines_buffer (ls : List Text) (p : Parser) (buffer : Text) :
    processLines maxLineChars ls { p with buffer := buffer } =
      { processLines maxLineChars ls p with
        parser := { (processLines maxLineChars ls p).parser with buffer := buffer } } := by
  induction ls generalizing p with
  | nil => rfl
  | cons line ls ih =>
    simp only [processLines, processLine_buffer]
    cases first : (processLine maxLineChars p line).thrown with
    | some e => simp only [first]
    | none =>
      simp only
      rw [ih]

theorem lines_append (s t : Text) :
    lines (s ++ t) = ((lines s).1 ++ (lines (rest s ++ t)).1, (lines (rest s ++ t)).2) := by
  simp only [rest, lines_eq]
  exact Framing.cut_append s t

theorem rest_append (s t : Text) : rest (s ++ t) = (lines (rest s ++ t)).2 := by
  rw [rest, lines_append]

theorem read_thrown (thrown : (read maxLineChars t).thrown = some e) (u : Text) :
    outcome (read maxLineChars (t ++ u)) = outcome (read maxLineChars t) := by
  have shared : processLines maxLineChars ((lines t).1 ++ (lines (rest t ++ u)).1) .empty =
      processLines maxLineChars (lines t).1 .empty := processLines_thrown thrown _
  simp only [read, outcome, lines_append t u, shared]

theorem push_read (t chunk : Text) :
    push maxLineChars (read maxLineChars t).parser chunk =
      let lined := processLines maxLineChars (lines (rest t ++ chunk)).1 (read maxLineChars t).parser
      match lined.thrown with
      | some _ => lined
      | none =>
        { lined with
          parser := { lined.parser with buffer := rest (t ++ chunk) }
          thrown :=
            if maxLineChars < (rest (t ++ chunk)).length then some (js "SSE line too long") else none } := by
  rw [rest_append]
  rfl

theorem read_append (clean : (read maxLineChars t).thrown = none) (u : Text) :
    read maxLineChars (t ++ u) =
      let lined := processLines maxLineChars (lines (rest t ++ u)).1 (read maxLineChars t).parser
      { lined with
        parser := { lined.parser with buffer := rest (t ++ u) }
        payloads := (read maxLineChars t).payloads ++ lined.payloads } := by
  have joined := processLines_append clean (lines (rest t ++ u)).1
  have parser : (read maxLineChars t).parser =
      { (processLines maxLineChars (lines t).1 .empty).parser with buffer := rest t } := rfl
  rw [parser]
  simp only [processLines_buffer]
  unfold read
  simp only [lines_append t u, joined, rest_append]

/-- Behind the text `t`: the text as a whole, or stopped at the first chunk that ends in too
much of an unfinished line. -/
def outcomeOf (maxLineChars : Nat) (t : Text) (chunks : List Text) : Outcome :=
  match chunks.inits.find? fun before => maxLineChars < (rest (t ++ before.flatten)).length with
  | none => whole maxLineChars (t ++ chunks.flatten)
  | some before => stopped maxLineChars (t ++ before.flatten)

theorem outcomeOf_nil (short : (rest t).length ≤ maxLineChars) :
    outcomeOf maxLineChars t [] = whole maxLineChars t := by
  simp [outcomeOf, Nat.not_lt.mpr short]

theorem outcomeOf_long (long : maxLineChars < (rest t).length) (chunks : List Text) :
    outcomeOf maxLineChars t chunks = stopped maxLineChars t := by
  cases chunks <;> simp [outcomeOf, long]

theorem outcomeOf_cons (short : (rest t).length ≤ maxLineChars) (chunk : Text)
    (chunks : List Text) :
    outcomeOf maxLineChars t (chunk :: chunks) = outcomeOf maxLineChars (t ++ chunk) chunks := by
  have first : ¬ maxLineChars < (rest (t ++ ([] : List Text).flatten)).length := by
    simpa using short
  simp only [outcomeOf, inits_cons, find?_cons, first, decide_false, find?_map]
  have same : ((fun before : List Text =>
      decide (maxLineChars < (rest (t ++ before.flatten)).length)) ∘ fun before => chunk :: before) =
      fun before => decide (maxLineChars < (rest (t ++ chunk ++ before.flatten)).length) := by
    funext before
    simp
  rw [same]
  cases chunks.inits.find? fun before =>
      decide (maxLineChars < (rest (t ++ chunk ++ before.flatten)).length) <;> simp

theorem whole_thrown (thrown : (read maxLineChars t).thrown = some e) :
    whole maxLineChars t = outcome (read maxLineChars t) := by
  simp only [whole, close, thrown]

theorem stopped_thrown (thrown : (read maxLineChars t).thrown = some e) :
    stopped maxLineChars t = outcome (read maxLineChars t) := by
  simp only [stopped, outcome, thrown, Option.getD_some]

theorem outcomeOf_thrown (thrown : (read maxLineChars t).thrown = some e) (chunks : List Text) :
    outcomeOf maxLineChars t chunks = outcome (read maxLineChars t) := by
  have later : ∀ u, (read maxLineChars (t ++ u)).thrown = some e := fun u =>
    (congrArg Outcome.thrown (read_thrown thrown u)).trans thrown
  unfold outcomeOf
  split
  · rw [whole_thrown (later _), read_thrown thrown]
  · rw [stopped_thrown (later _), read_thrown thrown]

theorem behind_behind (first later : List Text) (o : Outcome) :
    (o.behind later).behind first = o.behind (first ++ later) := by
  simp only [Outcome.behind, append_assoc]

theorem deliver_thrown (thrown : (push maxLineChars p chunk).thrown = some e) (chunks : List Text) :
    deliver maxLineChars (chunk :: chunks) p = outcome (push maxLineChars p chunk) := by
  simp only [deliver, pushAll, thrown, close]

theorem deliver_cons (clean : (push maxLineChars p chunk).thrown = none) (chunks : List Text) :
    deliver maxLineChars (chunk :: chunks) p =
      (deliver maxLineChars chunks (push maxLineChars p chunk).parser).behind
        (push maxLineChars p chunk).payloads := by
  simp only [deliver, pushAll, clean, close]
  split <;> simp_all [outcome, Outcome.behind]

theorem deliver_read (clean : (read maxLineChars t).thrown = none)
    (short : (rest t).length ≤ maxLineChars) (chunks : List Text) :
    (deliver maxLineChars chunks (read maxLineChars t).parser).behind (read maxLineChars t).payloads =
      outcomeOf maxLineChars t chunks := by
  induction chunks generalizing t with
  | nil =>
    rw [outcomeOf_nil short, whole, close, clean]
    rfl
  | cons chunk chunks ih =>
    rw [outcomeOf_cons short]
    have pushed := @push_read maxLineChars t chunk
    have grown := read_append clean chunk
    cases lined : (processLines maxLineChars (lines (rest t ++ chunk)).1
        (read maxLineChars t).parser).thrown with
    | some e =>
      simp only [lined] at pushed
      have thrown : (read maxLineChars (t ++ chunk)).thrown = some e := by rw [grown]; exact lined
      rw [deliver_thrown (by rw [pushed]; exact lined), outcomeOf_thrown thrown, pushed, grown]
      rfl
    | none =>
      simp only [lined] at pushed
      have clean' : (read maxLineChars (t ++ chunk)).thrown = none := by rw [grown]; exact lined
      by_cases long : maxLineChars < (rest (t ++ chunk)).length
      · rw [outcomeOf_long long, deliver_thrown (by rw [pushed, if_pos long]), pushed]
        simp only [stopped, clean', Option.getD_none, if_pos long]
        rw [grown]
        rfl
      · rw [← ih clean' (Nat.not_lt.mp long), deliver_cons (by rw [pushed, if_neg long]),
          behind_behind, pushed, grown]

/-- Every line of the text, the unfinished one as well, is within the limit. -/
def ShortLines (maxLineChars : Nat) (t : Text) : Prop :=
  ∀ line ∈ (lines t).1 ++ [rest t], line.length ≤ maxLineChars

theorem rest_short {s : Text} (short : ShortLines maxLineChars (s ++ t)) :
    (rest s).length ≤ maxLineChars := by
  obtain ⟨line, mem, starts⟩ := @Framing.left_within _ (fun u : UInt16 => u = 0x0A) s t
  rw [← lines_eq] at mem starts
  exact Nat.le_trans starts.length_le (short line mem)

/-- A chunking that never ends in too much of an unfinished line. -/
def ShortEnds (maxLineChars : Nat) (chunks : List Text) : Prop :=
  ∀ before ∈ chunks.inits, (rest before.flatten).length ≤ maxLineChars

theorem shortEnds_of_lines (short : ShortLines maxLineChars chunks.flatten) :
    ShortEnds maxLineChars chunks := by
  intro before mem
  obtain ⟨after, rfl⟩ := (mem_inits before chunks).mp mem
  rw [flatten_append] at short
  exact rest_short short

theorem outcomeOf_short (short : ShortEnds maxLineChars chunks) :
    outcomeOf maxLineChars [] chunks = whole maxLineChars chunks.flatten := by
  have none_ : (chunks.inits.find? fun before =>
      decide (maxLineChars < (rest ([] ++ before.flatten)).length)) = none := by
    rw [find?_eq_none]
    intro before mem
    simpa using short before mem
  rw [outcomeOf, none_]
  rfl

theorem before_close (pushed : Pushed) : pushed.payloads <+: (close maxLineChars pushed).payloads := by
  unfold close
  split
  · exact prefix_rfl
  · exact prefix_append _ _

theorem stopped_prefix (t u : Text) :
    (stopped maxLineChars t).payloads <+: (whole maxLineChars (t ++ u)).payloads := by
  apply List.IsPrefix.trans _ (before_close _)
  cases thrown : (read maxLineChars t).thrown with
  | some e =>
    have same : (read maxLineChars (t ++ u)).payloads = (read maxLineChars t).payloads :=
      congrArg Outcome.payloads (read_thrown thrown u)
    rw [same]
    exact prefix_rfl
  | none =>
    rw [read_append thrown u]
    exact prefix_append _ _

theorem outcomeOf_prefix (chunks : List Text) :
    (outcomeOf maxLineChars [] chunks).payloads <+: (whole maxLineChars chunks.flatten).payloads := by
  unfold outcomeOf
  split
  · exact prefix_rfl
  · rename_i before found
    obtain ⟨after, rfl⟩ := (mem_inits before chunks).mp (mem_of_find?_eq_some found)
    rw [flatten_append]
    exact stopped_prefix _ _

theorem deliver_eq (chunks : List Text) :
    deliver maxLineChars chunks .empty = outcomeOf maxLineChars [] chunks :=
  deliver_read (t := []) rfl (Nat.zero_le _) chunks

/-- A stream gives what its text gives as a whole, unless a chunk ends in too much of an
unfinished line; it then stops there. It never ends so when all lines are within the limit,
and what it has delivered is a beginning of what the text gives in any case. -/
theorem sse_chunking (maxLineChars : Nat) (chunks : List Text) :
    deliver maxLineChars chunks .empty = outcomeOf maxLineChars [] chunks ∧
      (ShortEnds maxLineChars chunks →
        deliver maxLineChars chunks .empty = whole maxLineChars chunks.flatten) ∧
      (ShortLines maxLineChars chunks.flatten → ShortEnds maxLineChars chunks) ∧
      (deliver maxLineChars chunks .empty).payloads <+:
        (whole maxLineChars chunks.flatten).payloads := by
  rw [deliver_eq]
  exact ⟨rfl, outcomeOf_short, shortEnds_of_lines, outcomeOf_prefix chunks⟩

/-- A comment of six characters under a limit of four: in one piece it is skipped, in two
it is refused. -/
theorem long_line_in_pieces :
    deliver 4 [js ": long\n"] .empty = ⟨[], none⟩ ∧
      deliver 4 [js ": lon", js "g\n"] .empty = ⟨[], some (js "SSE line too long")⟩ := by
  decide

end Ultrathink.Guarantees.SseChunks
