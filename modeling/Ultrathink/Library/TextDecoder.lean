import Ultrathink.Library.JsText

/-!
# Decoding a stream as UTF-8

A decoder of a stream is given the bytes in pieces and keeps what it has read of a sequence
that has not ended. What it gives over all the pieces, with the replacement character for a
sequence that the stream leaves unfinished, is the text of all the bytes, less a byte order
mark in front.
-/

namespace Ultrathink.Library.JsText

open List

def leadsTwo (b : UInt8) : Bool := 0xC2 ≤ b && b ≤ 0xDF

def leadsThree (b : UInt8) : Bool := 0xE0 ≤ b && b ≤ 0xEF

def leadsFour (b : UInt8) : Bool := 0xF0 ≤ b && b ≤ 0xF4

theorem ofUtf8_cons (b : UInt8) (rest : List UInt8) :
    ofUtf8 (b :: rest) =
      if b < 0x80 then b.toUInt16 :: ofUtf8 rest
      else if leadsTwo b then
        match rest with
        | c :: rest' =>
          if isContinuation c then (b.toNat % 32 * 64 + low6 c).toUInt16 :: ofUtf8 rest'
          else replacement :: ofUtf8 (c :: rest')
        | [] => [replacement]
      else if leadsThree b then
        match rest with
        | c :: d :: rest' =>
          if secondOfThree b c then
            if isContinuation d then
              (b.toNat % 16 * 4096 + low6 c * 64 + low6 d).toUInt16 :: ofUtf8 rest'
            else replacement :: ofUtf8 (d :: rest')
          else replacement :: ofUtf8 (c :: d :: rest')
        | [c] => if secondOfThree b c then [replacement] else replacement :: ofUtf8 [c]
        | [] => [replacement]
      else if leadsFour b then
        match rest with
        | c :: d :: e :: rest' =>
          if secondOfFour b c then
            if isContinuation d then
              if isContinuation e then
                unitsOf (b.toNat % 8 * 262144 + low6 c * 4096 + low6 d * 64 + low6 e) ++ ofUtf8 rest'
              else replacement :: ofUtf8 (e :: rest')
            else replacement :: ofUtf8 (d :: e :: rest')
          else replacement :: ofUtf8 (c :: d :: e :: rest')
        | [c, d] =>
          if secondOfFour b c then
            if isContinuation d then [replacement] else replacement :: ofUtf8 [d]
          else replacement :: ofUtf8 [c, d]
        | [c] => if secondOfFour b c then [replacement] else replacement :: ofUtf8 [c]
        | [] => [replacement]
      else replacement :: ofUtf8 rest :=
  ofUtf8.eq_def (b :: rest)

/-- What has been read of a sequence that has not ended: nothing, or bytes that begin one. -/
inductive Pending where
  | start
  | two (a : UInt8) (lead : leadsTwo a)
  | three (a : UInt8) (lead : leadsThree a)
  | threeMore (a b : UInt8) (lead : leadsThree a) (second : secondOfThree a b)
  | four (a : UInt8) (lead : leadsFour a)
  | fourMore (a b : UInt8) (lead : leadsFour a) (second : secondOfFour a b)
  | fourLast (a b c : UInt8) (lead : leadsFour a) (second : secondOfFour a b)
      (third : isContinuation c)

variable {b a : UInt8}

namespace Pending

def bytes : Pending → List UInt8
  | .start => []
  | .two a _ | .three a _ | .four a _ => [a]
  | .threeMore a b _ _ | .fourMore a b _ _ => [a, b]
  | .fourLast a b c _ _ _ => [a, b, c]

/-- A byte that no sequence is open at. -/
def begin (b : UInt8) : Text × Pending :=
  if b < 0x80 then ([b.toUInt16], .start)
  else if lead : leadsTwo b then ([], .two b lead)
  else if lead : leadsThree b then ([], .three b lead)
  else if lead : leadsFour b then ([], .four b lead)
  else ([replacement], .start)

/-- A byte that does not go on with the open sequence. -/
def broken (b : UInt8) : Text × Pending := (replacement :: (begin b).1, (begin b).2)

def step (x : UInt8) : Pending → Text × Pending
  | .start => begin x
  | .two a _ =>
    if isContinuation x then ([(a.toNat % 32 * 64 + low6 x).toUInt16], .start) else broken x
  | .three a lead =>
    if second : secondOfThree a x then ([], .threeMore a x lead second) else broken x
  | .threeMore a b _ _ =>
    if isContinuation x then
      ([(a.toNat % 16 * 4096 + low6 b * 64 + low6 x).toUInt16], .start)
    else broken x
  | .four a lead =>
    if second : secondOfFour a x then ([], .fourMore a x lead second) else broken x
  | .fourMore a b lead second =>
    if third : isContinuation x then ([], .fourLast a b x lead second third) else broken x
  | .fourLast a b c _ _ _ =>
    if isContinuation x then
      (unitsOf (a.toNat % 8 * 262144 + low6 b * 4096 + low6 c * 64 + low6 x), .start)
    else broken x

def run : List UInt8 → Pending → Text × Pending
  | [], p => ([], p)
  | x :: rest, p => ((p.step x).1 ++ (run rest (p.step x).2).1, (run rest (p.step x).2).2)

def flush : Pending → Text
  | .start => []
  | _ => [replacement]

theorem run_append (xs ys : List UInt8) (p : Pending) :
    run (xs ++ ys) p = ((run xs p).1 ++ (run ys (run xs p).2).1, (run ys (run xs p).2).2) := by
  induction xs generalizing p with
  | nil => rfl
  | cons x rest ih =>
    rw [cons_append, run, ih]
    simp only [run, append_assoc]

theorem small_of_leads (lead : leadsTwo b ∨ leadsThree b ∨ leadsFour b) : ¬ b < 0x80 := by
  simp only [leadsTwo, leadsThree, leadsFour, Bool.and_eq_true, decide_eq_true_eq] at lead
  grind

theorem two_of_three (lead : leadsThree b ∨ leadsFour b) : ¬ leadsTwo b := by
  simp only [leadsTwo, leadsThree, leadsFour, Bool.and_eq_true, decide_eq_true_eq] at lead ⊢
  grind

theorem three_of_four (lead : leadsFour b) : ¬ leadsThree b := by
  simp only [leadsThree, leadsFour, Bool.and_eq_true, decide_eq_true_eq] at lead ⊢
  grind

theorem ofUtf8_leadsTwo (lead : leadsTwo a) (x : UInt8) (rest : List UInt8) :
    ofUtf8 (a :: x :: rest) =
      if isContinuation x then (a.toNat % 32 * 64 + low6 x).toUInt16 :: ofUtf8 rest
      else replacement :: ofUtf8 (x :: rest) := by
  rw [ofUtf8_cons]
  dsimp only
  rw [if_neg (small_of_leads (.inl lead)), if_pos lead]

theorem ofUtf8_leadsThree (lead : leadsThree a) (x : UInt8) (rest : List UInt8)
    (wrong : ¬ secondOfThree a x) :
    ofUtf8 (a :: x :: rest) = replacement :: ofUtf8 (x :: rest) := by
  rw [ofUtf8_cons]
  dsimp only
  rw [if_neg (small_of_leads (.inr (.inl lead))), if_neg (two_of_three (.inl lead)), if_pos lead]
  cases rest <;> simp [wrong]

theorem ofUtf8_threeMore (lead : leadsThree a) (second : secondOfThree a b) (x : UInt8)
    (rest : List UInt8) :
    ofUtf8 (a :: b :: x :: rest) =
      if isContinuation x then
        (a.toNat % 16 * 4096 + low6 b * 64 + low6 x).toUInt16 :: ofUtf8 rest
      else replacement :: ofUtf8 (x :: rest) := by
  rw [ofUtf8_cons]
  dsimp only
  rw [if_neg (small_of_leads (.inr (.inl lead))), if_neg (two_of_three (.inl lead)), if_pos lead,
    if_pos second]

theorem ofUtf8_leadsFour (lead : leadsFour a) (x : UInt8) (rest : List UInt8)
    (wrong : ¬ secondOfFour a x) :
    ofUtf8 (a :: x :: rest) = replacement :: ofUtf8 (x :: rest) := by
  rw [ofUtf8_cons]
  dsimp only
  rw [if_neg (small_of_leads (.inr (.inr lead))), if_neg (two_of_three (.inr lead)),
    if_neg (three_of_four lead), if_pos lead]
  rcases rest with _ | ⟨y, _ | ⟨z, more⟩⟩ <;> simp [wrong]

theorem ofUtf8_fourMore (lead : leadsFour a) (second : secondOfFour a b) (x : UInt8)
    (rest : List UInt8) (wrong : ¬ isContinuation x) :
    ofUtf8 (a :: b :: x :: rest) = replacement :: ofUtf8 (x :: rest) := by
  rw [ofUtf8_cons]
  dsimp only
  rw [if_neg (small_of_leads (.inr (.inr lead))), if_neg (two_of_three (.inr lead)),
    if_neg (three_of_four lead), if_pos lead]
  cases rest <;> simp [second, wrong]

theorem ofUtf8_fourLast {c : UInt8} (lead : leadsFour a) (second : secondOfFour a b)
    (third : isContinuation c) (x : UInt8) (rest : List UInt8) :
    ofUtf8 (a :: b :: c :: x :: rest) =
      if isContinuation x then
        unitsOf (a.toNat % 8 * 262144 + low6 b * 4096 + low6 c * 64 + low6 x) ++ ofUtf8 rest
      else replacement :: ofUtf8 (x :: rest) := by
  rw [ofUtf8_cons]
  dsimp only
  rw [if_neg (small_of_leads (.inr (.inr lead))), if_neg (two_of_three (.inr lead)),
    if_neg (three_of_four lead), if_pos lead, if_pos second, if_pos third]

theorem begin_reads (x : UInt8) (rest : List UInt8) :
    ofUtf8 (x :: rest) = (begin x).1 ++ ofUtf8 ((begin x).2.bytes ++ rest) := by
  unfold begin
  split
  next small =>
    rw [ofUtf8_cons]
    dsimp only
    rw [if_pos small]
    rfl
  next notOne =>
    split
    · rfl
    split
    · rfl
    split
    · rfl
    next notTwo notThree notFour =>
      rw [ofUtf8_cons]
      dsimp only
      rw [if_neg notOne, if_neg notTwo, if_neg notThree, if_neg notFour]
      rfl

theorem broken_reads (x : UInt8) (rest : List UInt8) :
    replacement :: ofUtf8 (x :: rest) = (broken x).1 ++ ofUtf8 ((broken x).2.bytes ++ rest) := by
  rw [begin_reads]
  rfl

theorem step_reads (p : Pending) (x : UInt8) (rest : List UInt8) :
    ofUtf8 (p.bytes ++ x :: rest) = (p.step x).1 ++ ofUtf8 ((p.step x).2.bytes ++ rest) := by
  cases p with
  | start => exact begin_reads x rest
  | two a lead =>
    rw [bytes, singleton_append, ofUtf8_leadsTwo lead, step]
    split
    · rfl
    · exact broken_reads x rest
  | three a lead =>
    rw [step]
    split
    · rfl
    next wrong =>
      rw [bytes, singleton_append, ofUtf8_leadsThree lead x rest wrong]
      exact broken_reads x rest
  | threeMore a b lead second =>
    rw [bytes, cons_append, singleton_append, ofUtf8_threeMore lead second, step]
    split
    · rfl
    · exact broken_reads x rest
  | four a lead =>
    rw [step]
    split
    · rfl
    next wrong =>
      rw [bytes, singleton_append, ofUtf8_leadsFour lead x rest wrong]
      exact broken_reads x rest
  | fourMore a b lead second =>
    rw [step]
    split
    · rfl
    next wrong =>
      rw [bytes, cons_append, singleton_append, ofUtf8_fourMore lead second x rest wrong]
      exact broken_reads x rest
  | fourLast a b c lead second third =>
    rw [bytes, cons_append, cons_append, singleton_append,
      ofUtf8_fourLast lead second third, step]
    split
    · rfl
    · exact broken_reads x rest

theorem run_reads (xs : List UInt8) (p : Pending) (rest : List UInt8) :
    ofUtf8 (p.bytes ++ (xs ++ rest)) = (run xs p).1 ++ ofUtf8 ((run xs p).2.bytes ++ rest) := by
  induction xs generalizing p with
  | nil => rfl
  | cons x more ih => rw [cons_append, step_reads, ih, run, append_assoc]

theorem flush_reads (p : Pending) : ofUtf8 p.bytes = p.flush := by
  cases p with
  | start => rfl
  | two a lead =>
    rw [bytes, ofUtf8_cons]
    dsimp only
    rw [if_neg (small_of_leads (.inl lead)), if_pos lead]
    rfl
  | three a lead =>
    rw [bytes, ofUtf8_cons]
    dsimp only
    rw [if_neg (small_of_leads (.inr (.inl lead))), if_neg (two_of_three (.inl lead)), if_pos lead]
    rfl
  | threeMore a b lead second =>
    rw [bytes, ofUtf8_cons]
    dsimp only
    rw [if_neg (small_of_leads (.inr (.inl lead))), if_neg (two_of_three (.inl lead)), if_pos lead,
      if_pos second]
    rfl
  | four a lead =>
    rw [bytes, ofUtf8_cons]
    dsimp only
    rw [if_neg (small_of_leads (.inr (.inr lead))), if_neg (two_of_three (.inr lead)),
      if_neg (three_of_four lead), if_pos lead]
    rfl
  | fourMore a b lead second =>
    rw [bytes, ofUtf8_cons]
    dsimp only
    rw [if_neg (small_of_leads (.inr (.inr lead))), if_neg (two_of_three (.inr lead)),
      if_neg (three_of_four lead), if_pos lead, if_pos second]
    rfl
  | fourLast a b c lead second third =>
    rw [bytes, ofUtf8_cons]
    dsimp only
    rw [if_neg (small_of_leads (.inr (.inr lead))), if_neg (two_of_three (.inr lead)),
      if_neg (three_of_four lead), if_pos lead, if_pos second, if_pos third]
    rfl

theorem run_flush (xs : List UInt8) : ofUtf8 xs = (run xs .start).1 ++ (run xs .start).2.flush := by
  have read := run_reads xs .start []
  rwa [append_nil, append_nil, flush_reads] at read

/-- An open sequence owes one unit more than its next byte. -/
def owed : Pending → Nat
  | .start => 0
  | _ => 1

theorem begin_length (x : UInt8) : (begin x).1.length + (begin x).2.owed ≤ 1 := by
  unfold begin
  split
  · rfl
  split
  · rfl
  split
  · rfl
  split <;> rfl

theorem broken_length (x : UInt8) : (broken x).1.length + (broken x).2.owed ≤ 2 := by
  have first := begin_length x
  simp only [broken, length_cons]
  omega

theorem unitsOf_length (n : Nat) : (unitsOf n).length ≤ 2 := by
  rw [unitsOf]
  split <;> simp

theorem step_length (p : Pending) (x : UInt8) :
    (p.step x).1.length + (p.step x).2.owed ≤ p.owed + 1 := by
  cases p with
  | start => exact begin_length x
  | two | three | threeMore | four | fourMore =>
    rw [step]
    split
    · simp [owed]
    · exact broken_length x
  | fourLast =>
    rw [step]
    split
    · dsimp only
      rw [owed, Nat.add_zero]
      exact unitsOf_length _
    · exact broken_length x

theorem run_length (xs : List UInt8) (p : Pending) :
    (run xs p).1.length + (run xs p).2.owed ≤ xs.length + p.owed := by
  induction xs generalizing p with
  | nil => simp [run]
  | cons x rest ih =>
    have first := step_length p x
    have others := ih (p.step x).2
    simp only [run, length_append, length_cons]
    omega

theorem owed_le (p : Pending) : p.owed ≤ 1 := by
  cases p <;> simp [owed]

end Pending

def byteOrderMark : UInt16 := 0xFEFF

/-- What is given of a text, where the mark may still be in front, and whether it no longer
may. -/
def unmark (seen : Bool) (t : Text) : Text × Bool :=
  if seen then (t, true)
  else
    match t with
    | [] => ([], false)
    | u :: rest => (if u = byteOrderMark then rest else u :: rest, true)

theorem unmark_append (seen : Bool) (s t : Text) :
    unmark seen (s ++ t) =
      ((unmark seen s).1 ++ (unmark (unmark seen s).2 t).1, (unmark (unmark seen s).2 t).2) := by
  cases seen with
  | true => rfl
  | false =>
    cases s with
    | nil => rfl
    | cons u rest =>
      by_cases mark : u = byteOrderMark <;> simp [unmark, mark]

theorem unmark_length (seen : Bool) (t : Text) : (unmark seen t).1.length ≤ t.length := by
  unfold unmark
  split
  · exact Nat.le_refl _
  split
  · exact Nat.le_refl _
  split <;> simp

/-- A whole text, less a byte order mark in front. -/
def withoutMark (t : Text) : Text := (unmark false t).1

/-- `new TextDecoder()` -/
structure TextDecoder where
  pending : Pending
  bomSeen : Bool

namespace TextDecoder

def new : TextDecoder := ⟨.start, false⟩

/-- `decoder.decode(chunk, { stream: true })` -/
def decode (d : TextDecoder) (chunk : List UInt8) : Text × TextDecoder :=
  ((unmark d.bomSeen (d.pending.run chunk).1).1,
    ⟨(d.pending.run chunk).2, (unmark d.bomSeen (d.pending.run chunk).1).2⟩)

/-- `decoder.decode()` -/
def finish (d : TextDecoder) : Text := (unmark d.bomSeen d.pending.flush).1

theorem decode_append (d : TextDecoder) (xs ys : List UInt8) :
    d.decode (xs ++ ys) =
      ((d.decode xs).1 ++ ((d.decode xs).2.decode ys).1, ((d.decode xs).2.decode ys).2) := by
  simp only [decode, Pending.run_append, unmark_append]

theorem decode_finish (bytes : List UInt8) :
    (new.decode bytes).1 ++ (new.decode bytes).2.finish = withoutMark (ofUtf8 bytes) := by
  rw [Pending.run_flush, withoutMark, unmark_append]
  rfl

theorem decode_length (d : TextDecoder) (chunk : List UInt8) :
    (d.decode chunk).1.length ≤ chunk.length + 1 := by
  have marked := unmark_length d.bomSeen (d.pending.run chunk).1
  have read := Pending.run_length chunk d.pending
  have owed := d.pending.owed_le
  simp only [decode]
  omega

theorem finish_eq_nil_or (d : TextDecoder) : d.finish = [] ∨ d.finish = [replacement] := by
  rcases d with ⟨pending, seen⟩
  cases pending <;> cases seen <;> first | exact .inl rfl | exact .inr rfl

end TextDecoder

end Ultrathink.Library.JsText
