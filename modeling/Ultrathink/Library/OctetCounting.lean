import Ultrathink.Library.JsNumber

/-!
# Octet-counted frames

A message behind its length in decimal digits and a blank. A decoder that reads a length first gets
the messages back from their frames one behind the other, and a beginning of such a stream is some whole
frames and at most one frame that is cut off.
-/

namespace Ultrathink.Library.OctetCounting

open List JsText JsNumber

def blank : UInt8 := 0x20

/-- The length of a message as bytes. -/
def decimal (n : Nat) : List UInt8 := toUtf8 (digits n)

def frame (message : List UInt8) : List UInt8 := decimal message.length ++ blank :: message

def isDigitByte (b : UInt8) : Bool := 0x30 ≤ b && b ≤ 0x39

/-- The first message of a stream and what is behind it; a length has no zero in front. -/
def decodeOne (bytes : List UInt8) : Option (List UInt8 × List UInt8) :=
  let length := bytes.takeWhile isDigitByte
  match bytes.dropWhile isDigitByte with
  | [] => none
  | b :: rest =>
    if b ≠ blank ∨ length.head?.all (· = 0x30) then none
    else
      let n := valueOf (ofUtf8 length)
      if rest.length < n then none else some (rest.take n, rest.drop n)

/-- Each round takes a message off, so the length of the stream bounds the rounds. -/
def decodeFrom : Nat → List UInt8 → Option (List (List UInt8))
  | _, [] => some []
  | 0, _ :: _ => none
  | fuel + 1, b :: bytes => do
    let (message, rest) ← decodeOne (b :: bytes)
    let messages ← decodeFrom fuel rest
    return message :: messages

def decode (bytes : List UInt8) : Option (List (List UInt8)) := decodeFrom bytes.length bytes

theorem digit_bounds {u : UInt16} (digit : isDigit u = true) : 0x30 ≤ u.toNat ∧ u.toNat ≤ 0x39 := by
  simp only [isDigit, Bool.and_eq_true, decide_eq_true_eq, UInt16.le_iff_toNat_le] at digit
  exact digit

theorem isDigitByte_digit {u : UInt16} (digit : isDigit u = true) :
    isDigitByte u.toNat.toUInt8 = true ∧ (u.toNat.toUInt8 = 0x30 → u = 0x30) := by
  obtain ⟨low, high⟩ := digit_bounds digit
  have byte : u.toNat.toUInt8.toNat = u.toNat := by
    simp
    omega
  constructor
  · simp only [isDigitByte, Bool.and_eq_true, decide_eq_true_eq, UInt8.le_iff_toNat_le, byte]
    exact ⟨low, high⟩
  · intro zero
    rw [zero] at byte
    exact UInt16.toNat_inj.mp byte.symm

theorem toUtf8_digits {ds : Text} (all : ∀ u ∈ ds, isDigit u = true) :
    toUtf8 ds = ds.map fun u => u.toNat.toUInt8 := by
  induction ds with
  | nil => rfl
  | cons u rest ih =>
    obtain ⟨low, high⟩ := digit_bounds (all u mem_cons_self)
    have notHigh : ¬ isHighSurrogate u := by
      rw [isHighSurrogate_iff]
      omega
    have notLow : ¬ isLowSurrogate u := by
      rw [isLowSurrogate_iff]
      omega
    rw [toUtf8_scalar notHigh notLow, ih fun v mem => all v (mem_cons_of_mem _ mem), utf8Of,
      if_pos (by omega)]
    rfl

theorem paired_digits {ds : Text} (all : ∀ u ∈ ds, isDigit u = true) : paired ds = true := by
  apply paired_of_small
  intro u mem
  obtain ⟨-, high⟩ := digit_bounds (all u mem)
  rw [UInt16.lt_iff_toNat_lt]
  exact lt_of_le_of_lt high (by decide)

theorem decimal_digits (n : Nat) : ∀ b ∈ decimal n, isDigitByte b = true := by
  intro b mem
  rw [decimal, toUtf8_digits (isDigit_of_mem_digits n)] at mem
  obtain ⟨u, held, rfl⟩ := mem_map.mp mem
  exact (isDigitByte_digit (isDigit_of_mem_digits n u held)).1

theorem decimal_head {n : Nat} (positive : 0 < n) : (decimal n).head?.all (· = 0x30) = false := by
  obtain ⟨u, rest, shape, zero⟩ := head_digits positive
  have digit := isDigit_of_mem_digits n u (by rw [shape]; exact mem_cons_self)
  rw [decimal, toUtf8_digits (isDigit_of_mem_digits n), shape]
  simp only [map_cons, head?_cons, Option.all_some, decide_eq_false_iff_not]
  exact fun same => zero ((isDigitByte_digit digit).2 same)

theorem valueOf_decimal (n : Nat) : valueOf (ofUtf8 (decimal n)) = n := by
  rw [decimal, ofUtf8_toUtf8 (paired_digits (isDigit_of_mem_digits n)), valueOf_digits]

theorem decodeOne_frame {message : List UInt8} (some_ : message ≠ []) (rest : List UInt8) :
    decodeOne (frame message ++ rest) = some (message, rest) := by
  have stream : frame message ++ rest = decimal message.length ++ blank :: (message ++ rest) := by
    rw [frame, append_assoc, cons_append]
  have length : (decimal message.length ++ blank :: (message ++ rest)).takeWhile isDigitByte =
      decimal message.length := by
    rw [takeWhile_append_of_pos (decimal_digits _)]
    exact append_nil _
  have behind : (decimal message.length ++ blank :: (message ++ rest)).dropWhile isDigitByte =
      blank :: (message ++ rest) := by
    rw [dropWhile_append_of_pos (decimal_digits _)]
    rfl
  rw [stream, decodeOne]
  simp only [length, behind]
  rw [decimal_head (length_pos_iff.mpr some_), if_neg (by simp), valueOf_decimal,
    if_neg (by rw [length_append]; omega), take_left, drop_left]

theorem frame_ne_nil (message : List UInt8) : frame message ≠ [] := by
  rw [frame]
  exact append_ne_nil_of_right_ne_nil _ (cons_ne_nil _ _)

theorem decodeFrom_frames {messages : List (List UInt8)} (some_ : ∀ m ∈ messages, m ≠ []) {fuel : Nat}
    (enough : messages.length ≤ fuel) : decodeFrom fuel (messages.flatMap frame) = some messages := by
  induction messages generalizing fuel with
  | nil => cases fuel <;> rfl
  | cons m rest ih =>
    obtain ⟨fuel, rfl⟩ : ∃ k, fuel = k + 1 := ⟨fuel - 1, by rw [length_cons] at enough; omega⟩
    obtain ⟨b, bytes, stream⟩ := exists_cons_of_ne_nil
      (append_ne_nil_of_left_ne_nil (frame_ne_nil m) (rest.flatMap frame))
    rw [flatMap_cons, stream, decodeFrom, ← stream, decodeOne_frame (some_ m mem_cons_self)]
    rw [length_cons] at enough
    have later : decodeFrom fuel (rest.flatMap frame) = some rest :=
      ih (fun n mem => some_ n (mem_cons_of_mem _ mem)) (by omega)
    simp only [Option.bind_eq_bind, Option.bind_some, later]
    rfl

theorem length_le_frames (messages : List (List UInt8)) :
    messages.length ≤ (messages.flatMap frame).length := by
  induction messages with
  | nil => exact Nat.le_refl _
  | cons m rest ih =>
    have one := length_pos_iff.mpr (frame_ne_nil m)
    rw [flatMap_cons, length_append, length_cons]
    omega

theorem decode_frames {messages : List (List UInt8)} (some_ : ∀ m ∈ messages, m ≠ []) :
    decode (messages.flatMap frame) = some messages :=
  decodeFrom_frames some_ (length_le_frames messages)

/-- A beginning of a frame that is not the whole frame. -/
def CutOff (part whole : List UInt8) : Prop := part <+: whole ∧ part ≠ whole

/-- Whatever is taken of some pieces one behind the other is some of them whole and at most one cut off. -/
theorem prefix_pieces {pieces : List (List UInt8)} {taken : List UInt8} (begins : taken <+: pieces.flatten) :
    ∃ n part, taken = (pieces.take n).flatten ++ part ∧
      (part = [] ∨ ∃ piece ∈ pieces, CutOff part piece) := by
  induction pieces generalizing taken with
  | nil => exact ⟨0, [], by simpa using begins, .inl rfl⟩
  | cons piece rest ih =>
    rw [flatten_cons] at begins
    by_cases short : taken.length < piece.length
    · refine ⟨0, taken, by simp, .inr ⟨piece, mem_cons_self, ?_, ?_⟩⟩
      · exact prefix_of_prefix_length_le begins (prefix_append _ _) (Nat.le_of_lt short)
      · rintro rfl
        omega
    · have whole : piece <+: taken :=
        prefix_of_prefix_length_le (prefix_append _ _) begins (Nat.le_of_not_lt short)
      obtain ⟨more, rfl⟩ := whole
      obtain ⟨n, part, same, kind⟩ := ih ((prefix_append_right_inj _).mp begins)
      refine ⟨n + 1, part, ?_, ?_⟩
      · rw [take_succ_cons, flatten_cons, append_assoc, ← same]
      · rcases kind with none_ | ⟨p, held, cut⟩
        · exact .inl none_
        · exact .inr ⟨p, mem_cons_of_mem _ held, cut⟩

end Ultrathink.Library.OctetCounting
