import Ultrathink.Source.Ship.Assess

/-!
# What a ship assessment rests on

The scan of `parseJudge` closes a JSON object exactly where the object ends, so the verdict is
that of the first substring, by opening brace, that is an object with a boolean `done`; and what
stands inside a string is no such substring.
-/

namespace Ultrathink.Guarantees.ShipAssessment

open List Library JsText JsNumber JsonText Source.Ship.Assess

/-- Outside of strings the scan passes over the text and stands as before. -/
def Balanced (c : Text) : Prop :=
  ∀ (depth : Int) (tail : Text), 0 < depth →
    objectEnd depth false (c ++ tail) = (objectEnd depth false tail).map (· + c.length)

/-- Inside of a string the scan passes over the text and has left the string. -/
def Ends (c : Text) : Prop :=
  ∀ (depth : Int) (tail : Text),
    objectEnd depth true (c ++ tail) = (objectEnd depth false tail).map (· + c.length)

/-- The rest of an object: it takes the scan one level up. -/
def Closes (c : Text) : Prop :=
  ∀ (depth : Int) (tail : Text), 0 ≤ depth →
    objectEnd (depth + 1) false (c ++ tail) =
      if depth = 0 then some c.length else (objectEnd depth false tail).map (· + c.length)

def Plain (u : UInt16) : Prop := u ≠ quote ∧ u ≠ openBrace ∧ u ≠ closeBrace

theorem map_map_add (n : Option Nat) (a b c : Nat) (sum : a + b = c) :
    (n.map (· + a)).map (· + b) = n.map (· + c) := by
  cases n with
  | none => rfl
  | some n =>
    simp only [Option.map_some, Option.some.injEq]
    omega

theorem objectEnd_outside (depth : Int) (ch : UInt16) (rest : Text) :
    objectEnd depth false (ch :: rest) =
      if ch = quote then (objectEnd depth true rest).map (· + 1)
      else if ch = openBrace then (objectEnd (depth + 1) false rest).map (· + 1)
      else if ch = closeBrace then
        if depth - 1 = 0 then some 1 else (objectEnd (depth - 1) false rest).map (· + 1)
      else (objectEnd depth false rest).map (· + 1) := by
  rw [objectEnd.eq_def]
  simp only [Bool.false_eq_true, if_false]

theorem objectEnd_inside (depth : Int) {ch : UInt16} (plain : ch ≠ backslash) (rest : Text) :
    objectEnd depth true (ch :: rest) = (objectEnd depth (ch ≠ quote) rest).map (· + 1) := by
  rw [objectEnd.eq_def]
  simp only [if_true, plain, if_false]

theorem objectEnd_escape (depth : Int) (ch : UInt16) (rest : Text) :
    objectEnd depth true (backslash :: ch :: rest) = (objectEnd depth true rest).map (· + 2) := by
  rw [objectEnd.eq_def]
  simp only [if_true]

theorem balanced_nil : Balanced [] := by
  intro depth tail _
  simp

variable {t rest c d : Text} {v : Value} {u : UInt16} {fuel n : Nat}

theorem Balanced.append (first : Balanced c) (second : Balanced d) :
    Balanced (c ++ d) := by
  intro depth tail positive
  rw [append_assoc, first depth _ positive, second depth _ positive]
  apply map_map_add
  rw [length_append, Nat.add_comm]

theorem balanced_unit (plain : Plain u) : Balanced [u] := by
  intro depth tail _
  simp [objectEnd_outside, plain.1, plain.2.1, plain.2.2]

theorem balanced_plain (plain : ∀ u ∈ c, Plain u) : Balanced c := by
  induction c with
  | nil => exact balanced_nil
  | cons u rest ih =>
    have first := balanced_unit (plain u (mem_cons_self ..))
    exact first.append (ih fun v mem => plain v (mem_cons_of_mem _ mem))

theorem balanced_string (ends : Ends c) : Balanced (quote :: c) := by
  intro depth tail _
  rw [cons_append, objectEnd_outside, if_pos rfl, ends depth tail]
  exact map_map_add _ _ _ _ rfl

theorem Closes.balanced (closes : Closes c) : Balanced (openBrace :: c) := by
  intro depth tail positive
  have deeper := closes depth tail (by omega)
  rw [if_neg (by omega)] at deeper
  have other : openBrace ≠ quote := by decide
  rw [cons_append, objectEnd_outside, if_neg other, if_pos rfl, deeper]
  exact map_map_add _ _ _ _ rfl

theorem Balanced.closes (balanced : Balanced c) (closes : Closes d) :
    Closes (c ++ d) := by
  intro depth tail least
  rw [append_assoc, balanced _ _ (by omega), closes depth tail least]
  split
  · simp [Nat.add_comm]
  · apply map_map_add
    rw [length_append, Nat.add_comm]

theorem closes_brace : Closes [closeBrace] := by
  intro depth tail least
  have first : closeBrace ≠ quote := by decide
  have second : closeBrace ≠ openBrace := by decide
  rw [singleton_append, objectEnd_outside, if_neg first, if_neg second, if_pos rfl,
    Int.add_sub_cancel]
  rfl

theorem plain_of_ws (ws : isWs u = true) : Plain u := by
  have cases_ : u = 0x20 ∨ u = 0x09 ∨ u = 0x0A ∨ u = 0x0D := by simpa [isWs, or_assoc] using ws
  rcases cases_ with rfl | rfl | rfl | rfl <;> exact ⟨by decide, by decide, by decide⟩

theorem skipWs_split (t : Text) : ∃ w, t = w ++ skipWs t ∧ ∀ u ∈ w, isWs u = true :=
  ⟨t.takeWhile isWs, (takeWhile_append_dropWhile ..).symm, fun _ mem =>
    mem_takeWhile_imp mem⟩

variable {w s slice : Text} {fields : List (Text × Value)}

theorem balanced_ws (ws : ∀ u ∈ w, isWs u = true) : Balanced w :=
  balanced_plain fun u mem => plain_of_ws (ws u mem)

theorem Ends.unit (ends : Ends c) (other : u ≠ quote) (plain : u ≠ backslash) : Ends (u :: c) := by
  intro depth tail
  rw [cons_append, objectEnd_inside depth plain, decide_eq_true other, ends depth tail]
  exact map_map_add _ _ _ _ rfl

theorem Ends.escape (ends : Ends c) : Ends (backslash :: u :: c) := by
  intro depth tail
  rw [cons_append, cons_append, objectEnd_escape, ends depth tail]
  exact map_map_add _ _ _ _ rfl

theorem ends_quote : Ends [quote] := by
  intro depth tail
  have other : quote ≠ backslash := by decide
  rw [singleton_append, objectEnd_inside depth other]
  simp

theorem hex_plain (hex : hexValue u = some n) :
    u ≠ quote ∧ u ≠ backslash := by
  constructor
  · rintro rfl
    revert hex
    decide +revert
  · rintro rfl
    revert hex
    decide +revert

theorem unitOfHex_plain {a b c d w : UInt16} (hex : unitOfHex a b c d = some w) :
    ∀ u ∈ [a, b, c, d], u ≠ quote ∧ u ≠ backslash := by
  unfold unitOfHex at hex
  split at hex
  · next first second third fourth =>
    intro u mem
    simp only [mem_cons, not_mem_nil, or_false] at mem
    rcases mem with rfl | rfl | rfl | rfl
    · exact hex_plain first
    · exact hex_plain second
    · exact hex_plain third
    · exact hex_plain fourth
  · cases hex

theorem readString_continues {w : UInt16}
    (reads : (readString t).map (fun (s, rest) => (w :: s, rest)) = some (s, rest)) :
    ∃ s', readString t = some (s', rest) := by
  obtain ⟨⟨s', rest'⟩, value, same⟩ := Option.map_eq_some_iff.mp reads
  cases same
  exact ⟨s', value⟩

theorem readString_ends (reads : readString t = some (s, rest)) :
    ∃ c, t = c ++ rest ∧ Ends c := by
  fun_induction readString t generalizing s with
  | case2 =>
    cases reads
    exact ⟨[quote], rfl, ends_quote⟩
  | case4 a b c d _ _ hex _ ih =>
    obtain ⟨s', later⟩ := readString_continues reads
    obtain ⟨front, rfl, ends⟩ := ih later
    have plain := unitOfHex_plain hex
    refine ⟨backslash :: 0x75 :: a :: b :: c :: d :: front, rfl, Ends.escape ?_⟩
    exact (((ends.unit (plain d (by simp)).1 (plain d (by simp)).2).unit (plain c (by simp)).1
      (plain c (by simp)).2).unit (plain b (by simp)).1 (plain b (by simp)).2).unit
        (plain a (by simp)).1 (plain a (by simp)).2
  | case7 v _ _ _ _ _ ih =>
    obtain ⟨s', later⟩ := readString_continues reads
    obtain ⟨front, rfl, ends⟩ := ih later
    exact ⟨backslash :: v :: front, rfl, ends.escape⟩
  | case10 u _ other plain _ ih =>
    obtain ⟨s', later⟩ := readString_continues reads
    obtain ⟨front, rfl, ends⟩ := ih later
    exact ⟨u :: front, rfl, ends.unit other plain⟩
  | _ => cases reads

/-- The reader has read plain units only. -/
def PlainFront (t rest : Text) : Prop := ∃ c, t = c ++ rest ∧ ∀ u ∈ c, Plain u

theorem PlainFront.refl (t : Text) : PlainFront t t := ⟨[], rfl, by simp⟩

theorem PlainFront.trans {u v : Text} (first : PlainFront t u) (second : PlainFront u v) :
    PlainFront t v := by
  obtain ⟨c, rfl, plain⟩ := first
  obtain ⟨d, rfl, more⟩ := second
  refine ⟨c ++ d, (append_assoc ..).symm, fun u mem => ?_⟩
  rcases mem_append.mp mem with old | new
  · exact plain u old
  · exact more u new

theorem PlainFront.cons {u : UInt16} {t rest : Text} (plain : Plain u)
    (front : PlainFront t rest) : PlainFront (u :: t) rest := by
  obtain ⟨c, rfl, all⟩ := front
  refine ⟨u :: c, rfl, fun v mem => ?_⟩
  rcases mem_cons.mp mem with rfl | later
  · exact plain
  · exact all v later

theorem plain_of_digit (digit : isDigit u = true) : Plain u := by
  refine ⟨?_, ?_, ?_⟩ <;>
    · rintro rfl
      exact absurd digit (by decide)

theorem readDigits_front (t : Text) : PlainFront t (readDigits t).2 :=
  ⟨t.takeWhile isDigit, (takeWhile_append_dropWhile ..).symm, fun _ mem =>
    plain_of_digit (mem_takeWhile_imp mem)⟩

theorem readFraction_front (reads : readFraction t = some (d, rest)) :
    PlainFront t rest := by
  unfold readFraction at reads
  split at reads
  · next tail =>
    dsimp only at reads
    split at reads
    · cases reads
    · cases reads
      exact (readDigits_front tail).cons ⟨by decide, by decide, by decide⟩
  · cases reads
    exact .refl t

theorem readSign_front (t : Text) : PlainFront t (readSign t).2 := by
  unfold readSign
  split
  · exact (PlainFront.refl _).cons ⟨by decide, by decide, by decide⟩
  · exact (PlainFront.refl _).cons ⟨by decide, by decide, by decide⟩
  · exact .refl _

theorem readExponent_front {e : Int} (reads : readExponent t = some (e, rest)) :
    PlainFront t rest := by
  unfold readExponent at reads
  split at reads
  · cases reads
    exact .refl _
  · next u tail =>
    split at reads
    · next letter =>
      have plain : Plain u := by
        rcases letter with rfl | rfl <;> exact ⟨by decide, by decide, by decide⟩
      have digits := (readSign_front tail).trans (readDigits_front _)
      dsimp only at reads
      split at reads
      · cases reads
      · cases reads
        exact digits.cons plain
    · cases reads
      exact .refl _

theorem readMagnitude_front {negative : Bool} {n : Number}
    (reads : readMagnitude negative t = some (n, rest)) : PlainFront t rest := by
  unfold readMagnitude at reads
  dsimp only at reads
  split at reads
  · cases reads
  · obtain ⟨⟨fraction, second⟩, first, later⟩ := Option.bind_eq_some_iff.mp reads
    obtain ⟨⟨exponent, third⟩, value, same⟩ := Option.map_eq_some_iff.mp later
    cases same
    exact ((readDigits_front t).trans (readFraction_front first)).trans (readExponent_front value)

theorem readNumber_front {n : Number} (reads : readNumber t = some (n, rest)) :
    PlainFront t rest := by
  unfold readNumber at reads
  split at reads
  · exact (readMagnitude_front reads).cons ⟨by decide, by decide, by decide⟩
  · exact readMagnitude_front reads

theorem readWord_front {word : Text} {value : Value}
    (reads : readWord word value t = some (v, rest)) (plain : ∀ u ∈ word, Plain u) :
    PlainFront t rest := by
  unfold readWord at reads
  split at reads
  · next here =>
    cases reads
    obtain ⟨tail, rfl⟩ := isPrefixOf_iff_prefix.mp here
    exact ⟨word, by simp, plain⟩
  · cases reads

instance (u : UInt16) : Decidable (Plain u) := inferInstanceAs (Decidable (_ ∧ _))

theorem readScalar_front (reads : readScalar t = some (v, rest)) :
    PlainFront t rest := by
  unfold readScalar at reads
  rcases Option.or_eq_some_iff.mp reads with word | ⟨-, reads⟩
  · exact readWord_front word (forall_units Plain (by decide))
  rcases Option.or_eq_some_iff.mp reads with word | ⟨-, reads⟩
  · exact readWord_front word (forall_units Plain (by decide))
  rcases Option.or_eq_some_iff.mp reads with word | ⟨-, reads⟩
  · exact readWord_front word (forall_units Plain (by decide))
  obtain ⟨⟨n, tail⟩, value, same⟩ := Option.map_eq_some_iff.mp reads
  cases same
  exact readNumber_front value

/-- What one fuel gives for the three readers of a nest. -/
structure Scanned (fuel : Nat) : Prop where
  value : ∀ {t rest v}, readValue fuel t = some (v, rest) → ∃ c, t = c ++ rest ∧ Balanced c
  members : ∀ {fields t rest v}, readMembers fuel fields t = some (v, rest) →
    ∃ c, t = c ++ rest ∧ Closes c
  items : ∀ {items t rest v}, readItems fuel items t = some (v, rest) →
    ∃ c, t = c ++ rest ∧ Balanced c

theorem object_closes (scanned : Scanned fuel)
    (reads : readValue (fuel + 1) (openBrace :: t) = some (v, rest)) :
    ∃ c, t = c ++ rest ∧ Closes c := by
  have solid : skipWs (openBrace :: t) = openBrace :: t := by
    rw [skipWs, dropWhile_cons_of_neg (by decide)]
  obtain ⟨w, split_, ws⟩ := skipWs_split t
  rw [readValue, solid] at reads
  simp only [if_true] at reads
  split at reads
  · cases reads
  next u tail head =>
  rw [head] at split_
  split at reads
  · next brace =>
    cases reads
    refine ⟨w ++ [closeBrace], ?_, (balanced_ws ws).closes closes_brace⟩
    rw [split_, brace, append_assoc]
    rfl
  · obtain ⟨c, same, closes⟩ := scanned.members reads
    exact ⟨w ++ c, by rw [split_, same, append_assoc], (balanced_ws ws).closes closes⟩

theorem scanned_zero : Scanned 0 where
  value reads := by cases reads
  members reads := by cases reads
  items reads := by cases reads

theorem value_scanned (scanned : Scanned fuel) (reads : readValue (fuel + 1) t = some (v, rest)) :
    ∃ c, t = c ++ rest ∧ Balanced c := by
  obtain ⟨w, split_, ws⟩ := skipWs_split t
  have first := reads
  rw [readValue] at reads
  split at reads
  · cases reads
  next u tail head =>
  rw [head] at split_
  -- what the value reads after the white space
  suffices inner : ∃ c, u :: tail = c ++ rest ∧ Balanced c by
    obtain ⟨c, same, balanced⟩ := inner
    exact ⟨w ++ c, by rw [split_, same, append_assoc], (balanced_ws ws).append balanced⟩
  split at reads
  · next brace =>
    subst brace
    have here : readValue (fuel + 1) (openBrace :: tail) = some (v, rest) := by
      have solid : skipWs (openBrace :: tail) = openBrace :: tail := by
        rw [skipWs, dropWhile_cons_of_neg (by decide)]
      rw [readValue] at first ⊢
      rw [head] at first
      rw [solid]
      exact first
    obtain ⟨c, same, closes⟩ := object_closes scanned here
    exact ⟨openBrace :: c, by rw [same]; rfl, closes.balanced⟩
  split at reads
  · next bracket =>
    have plain : Plain u := by
      rw [bracket]
      exact ⟨by decide, by decide, by decide⟩
    obtain ⟨x, divided, blank⟩ := skipWs_split tail
    split at reads
    · cases reads
    next y after at_ =>
    rw [at_] at divided
    have opened := (balanced_unit plain).append (balanced_ws blank)
    split at reads
    · next close =>
      cases reads
      refine ⟨[u] ++ x ++ [y], by rw [divided]; simp, opened.append (balanced_unit ?_)⟩
      rw [close]
      exact ⟨by decide, by decide, by decide⟩
    · obtain ⟨c, same, balanced⟩ := scanned.items reads
      exact ⟨[u] ++ x ++ c, by rw [divided, same]; simp, opened.append balanced⟩
  split at reads
  · next opening =>
    obtain ⟨⟨s, after⟩, string, same⟩ := Option.map_eq_some_iff.mp reads
    cases same
    obtain ⟨c, rfl, ends⟩ := readString_ends string
    exact ⟨quote :: c, by rw [opening]; rfl, balanced_string ends⟩
  · obtain ⟨c, same, plain⟩ := readScalar_front reads
    exact ⟨c, same, balanced_plain plain⟩

theorem items_scanned (scanned : Scanned fuel) {items : List Value}
    (reads : readItems (fuel + 1) items t = some (v, rest)) :
    ∃ c, t = c ++ rest ∧ Balanced c := by
  rw [readItems] at reads
  split at reads
  · cases reads
  next value after first =>
  obtain ⟨c, same, balanced⟩ := scanned.value first
  obtain ⟨w, split_, ws⟩ := skipWs_split after
  split at reads
  · cases reads
  next u tail head =>
  rw [head] at split_
  have front := balanced.append (balanced_ws ws)
  split at reads
  · next comma =>
    obtain ⟨d, later, more⟩ := scanned.items reads
    have plain : Plain u := by
      rw [comma]
      exact ⟨by decide, by decide, by decide⟩
    exact ⟨c ++ w ++ ([u] ++ d), by rw [same, split_, later]; simp,
      front.append ((balanced_unit plain).append more)⟩
  split at reads
  · next close =>
    cases reads
    have plain : Plain u := by
      rw [close]
      exact ⟨by decide, by decide, by decide⟩
    exact ⟨c ++ w ++ [u], by rw [same, split_]; simp, front.append (balanced_unit plain)⟩
  · cases reads

theorem members_scanned (scanned : Scanned fuel)
    (reads : readMembers (fuel + 1) fields t = some (v, rest)) :
    ∃ c, t = c ++ rest ∧ Closes c := by
  obtain ⟨w, split_, ws⟩ := skipWs_split t
  rw [readMembers] at reads
  split at reads
  · cases reads
  next u tail head =>
  rw [head] at split_
  split at reads
  swap
  · cases reads
  next opening =>
  split at reads
  · cases reads
  next name named string =>
  obtain ⟨key, rfl, ends⟩ := readString_ends string
  obtain ⟨x, divided, blank⟩ := skipWs_split named
  split at reads
  · cases reads
  next colon after at_ =>
  rw [at_] at divided
  split at reads
  swap
  · cases reads
  next isColon =>
  split at reads
  · cases reads
  next value behind given =>
  obtain ⟨c, same, balanced⟩ := scanned.value given
  obtain ⟨y, parted, space⟩ := skipWs_split behind
  split at reads
  · cases reads
  next last left end_ =>
  rw [end_] at parted
  have colonPlain : Plain colon := by
    rw [isColon]
    exact ⟨by decide, by decide, by decide⟩
  have front : Balanced (w ++ (quote :: key) ++ x ++ [colon] ++ c ++ y) :=
    (((((balanced_ws ws).append (balanced_string ends)).append (balanced_ws blank)).append
      (balanced_unit colonPlain)).append balanced).append (balanced_ws space)
  have text : t = (w ++ (quote :: key) ++ x ++ [colon] ++ c ++ y) ++ (last :: left) := by
    rw [split_, opening, divided, same, parted]
    simp
  split at reads
  · next comma =>
    obtain ⟨d, later, closes⟩ := scanned.members reads
    have plain : Plain last := by
      rw [comma]
      exact ⟨by decide, by decide, by decide⟩
    refine ⟨_, ?_, front.closes ((balanced_unit plain).closes closes)⟩
    rw [text, later]
    simp
  split at reads
  · next close =>
    cases reads
    refine ⟨_, ?_, front.closes closes_brace⟩
    rw [text, close]
    simp
  · cases reads

theorem scanned (fuel : Nat) : Scanned fuel := by
  induction fuel with
  | zero => exact scanned_zero
  | succ fuel ih => exact ⟨value_scanned ih, members_scanned ih, items_scanned ih⟩

/-- The text of a JSON object with a boolean `done`, and the verdict in it. -/
def IsVerdict (slice : Text) (v : JudgeVerdict) : Prop :=
  ∃ fields, parse slice = some (.obj fields) ∧ slice.head? = some openBrace ∧
    slice.getLast? = some closeBrace ∧ verdictOf fields = some v

theorem parse_reads (parsed : parse t = some v) :
    ∃ rest, readValue (t.length + 1) t = some (v, rest) ∧ ∀ u ∈ rest, isWs u = true := by
  unfold parse at parsed
  split at parsed
  · next value rest reads =>
    split at parsed
    · next empty =>
      cases parsed
      exact ⟨rest, reads, dropWhile_eq_nil_iff.mp empty⟩
    · cases parsed
  · cases parsed

theorem parse_closes (parsed : parse slice = some v) (head : slice.head? = some openBrace)
    (last : slice.getLast? = some closeBrace) :
    ∃ c, slice = openBrace :: c ∧ Closes c := by
  obtain ⟨t, rfl⟩ := head?_eq_some_iff.mp head
  obtain ⟨rest, reads, blank⟩ := parse_reads parsed
  obtain ⟨c, rfl, closes⟩ := object_closes (scanned _) reads
  refine ⟨c, ?_, closes⟩
  -- a closing brace is no white space, so nothing is left after the object
  rcases eq_nil_or_concat rest with rfl | ⟨front, u, rfl⟩
  · simp
  · have end_ : u = closeBrace := by
      have whole : openBrace :: (c ++ (front ++ [u])) = (openBrace :: (c ++ front)) ++ [u] := by simp
      rw [concat_eq_append, whole, getLast?_concat] at last
      exact Option.some.inj last
    have space := blank u (by simp)
    rw [end_] at space
    exact absurd space (by decide)

theorem objectEnd_last {depth : Int} {inString : Bool}
    (ends : objectEnd depth inString t = some n) :
    ∃ front rest, t = front ++ closeBrace :: rest ∧ n = front.length + 1 := by
  have step : ∀ {d b} {u : UInt16} {tail : Text} {n : Nat},
      (∀ {m}, objectEnd d b tail = some m →
        ∃ front rest, tail = front ++ closeBrace :: rest ∧ m = front.length + 1) →
      (objectEnd d b tail).map (· + 1) = some n →
      ∃ front rest, u :: tail = front ++ closeBrace :: rest ∧ n = front.length + 1 := by
    intro d b u tail n ih later
    obtain ⟨m, value, rfl⟩ := Option.map_eq_some_iff.mp later
    obtain ⟨front, rest, rfl, rfl⟩ := ih value
    exact ⟨u :: front, rest, rfl, rfl⟩
  fun_induction objectEnd depth inString t generalizing n with
  | case1 => cases ends
  | case2 => cases ends
  | case3 _ u _ ih =>
    obtain ⟨m, value, rfl⟩ := Option.map_eq_some_iff.mp ends
    obtain ⟨front, rest, rfl, rfl⟩ := ih value
    exact ⟨backslash :: u :: front, rest, rfl, rfl⟩
  | case7 =>
    cases ends
    exact ⟨[], _, rfl, rfl⟩
  | case4 _ _ _ _ ih => exact step ih ends
  | case5 _ _ _ _ ih => exact step ih ends
  | case6 _ _ _ _ _ ih => exact step ih ends
  | case8 _ _ _ _ _ _ _ ih => exact step ih ends
  | case9 _ _ _ _ _ _ _ _ ih => exact step ih ends

theorem verdictHere_iff (head : t.head? = some openBrace) (v : JudgeVerdict) :
    verdictHere t = some v ↔ ∃ n, IsVerdict (t.take n) v := by
  constructor
  · intro here
    obtain ⟨n, ends, read⟩ := Option.bind_eq_some_iff.mp here
    obtain ⟨front, rest, same, rfl⟩ := objectEnd_last ends
    have slice : t.take (front.length + 1) = front ++ [closeBrace] := by
      rw [same, take_append]
      simp
    refine ⟨front.length + 1, ?_⟩
    unfold readVerdict at read
    split at read
    · next fields parsed =>
      refine ⟨fields, parsed, ?_, ?_, read⟩
      · rwa [head?_take, if_neg (by omega)]
      · rw [slice, getLast?_concat]
    · cases read
  · rintro ⟨n, fields, parsed, first, last, verdict⟩
    obtain ⟨c, slice, closes⟩ := parse_closes parsed first last
    have whole : t = openBrace :: (c ++ t.drop n) := by
      rw [← cons_append, ← slice, take_append_drop]
    have ends : objectEnd 0 false t = some (openBrace :: c).length := by
      have inner := closes 0 (t.drop n) (le_refl 0)
      rw [if_pos rfl] at inner
      have other : openBrace ≠ quote := by decide
      rw [whole, objectEnd_outside, if_neg other, if_pos rfl, inner]
      rfl
    have taken : t.take (openBrace :: c).length = openBrace :: c := by
      rw [whole, ← cons_append, take_left]
    rw [verdictHere, ends, Option.bind_some, taken, readVerdict, ← slice, parsed]
    exact verdict

theorem parseJudge_iff (t : Text) (v : JudgeVerdict) :
    parseJudge t = some v ↔
      ∃ i, (∃ n, IsVerdict ((t.drop i).take n) v) ∧
        ∀ k < i, ∀ n w, ¬IsVerdict ((t.drop k).take n) w := by
  induction t with
  | nil =>
    constructor
    · intro taken
      cases taken
    · rintro ⟨i, ⟨n, fields, -, head, -⟩, -⟩
      simp at head
  | cons u rest ih =>
    let first : Option JudgeVerdict := if u = openBrace then verdictHere (u :: rest) else none
    have here : ∀ w, first = some w ↔ ∃ n, IsVerdict ((u :: rest).take n) w := by
      intro w
      by_cases brace : u = openBrace
      · simp only [first, if_pos brace]
        exact verdictHere_iff (by rw [brace]; rfl) w
      · simp only [first, if_neg brace]
        constructor
        · intro bad
          cases bad
        · rintro ⟨n, fields, -, head, -⟩
          cases n with
          | zero => simp at head
          | succ n => exact absurd (Option.some.inj head) brace
    have unfolded : parseJudge (u :: rest) = first.or (parseJudge rest) := by
      rw [parseJudge]
      by_cases brace : u = openBrace
      · simp [first, brace]
      · simp [first, brace]
    rw [unfolded, Option.or_eq_some_iff]
    constructor
    · rintro (now | ⟨none_, later⟩)
      · exact ⟨0, (here v).mp now, by simp⟩
      · obtain ⟨i, found, before⟩ := ih.mp later
        refine ⟨i + 1, found, fun k less n w => ?_⟩
        cases k with
        | zero =>
          intro bad
          rw [(here w).mpr ⟨n, bad⟩] at none_
          cases none_
        | succ k => exact before k (by omega) n w
    · rintro ⟨i, found, before⟩
      cases i with
      | zero => exact .inl ((here v).mpr found)
      | succ i =>
        refine .inr ⟨?_, ih.mpr ⟨i, found, fun k less => before (k + 1) (by omega)⟩⟩
        cases value : first with
        | none => rfl
        | some w =>
          obtain ⟨n, bad⟩ := (here w).mp value
          exact absurd bad (before 0 (by omega) n w)

example : (parseJudge (js "so \x7b \x7d \x7b\"done\": 1\x7d \x7b\"gaps\": [\"a\x7d\"], \"done\": true\x7d \x7b\"done\": false\x7d")).map
    (fun v => (v.done, v.gaps)) = some (true, [js "a\x7d"]) := by
  decide +kernel

inductive Place where
  | outside | inside | escaped
  deriving DecidableEq

def Place.after : Place → UInt16 → Place
  | .outside, u => if u = quote then .inside else .outside
  | .inside, u => if u = backslash then .escaped else if u = quote then .outside else .inside
  | .escaped, _ => .inside

/-- Where the JSON text that begins with these units goes on. -/
def placeOf (t : Text) : Place := t.foldl Place.after .outside

/-- All the way from its first unit to its last the slice is inside a string of the text. -/
def Quoted (t : Text) (i n : Nat) : Prop := ∀ k ≤ n, placeOf (t.take (i + k)) ≠ .outside

theorem inside_of_ws (ws : ∀ u ∈ w, isWs u = true) :
    w.foldl Place.after .inside = .inside := by
  induction w with
  | nil => rfl
  | cons u rest ih =>
    have plain : u ≠ backslash := by
      rintro rfl
      exact absurd (ws _ (mem_cons_self ..)) (by decide)
    have other : u ≠ quote := (plain_of_ws (ws u (mem_cons_self ..))).1
    rw [foldl_cons, Place.after, if_neg plain, if_neg other]
    exact ih fun v mem => ws v (mem_cons_of_mem _ mem)

theorem object_quote (parsed : parse slice = some (.obj fields)) (some_ : fields ≠ [])
    (head : slice.head? = some openBrace) :
    ∃ w rest, slice = openBrace :: (w ++ quote :: rest) ∧ ∀ u ∈ w, isWs u = true := by
  obtain ⟨t, rfl⟩ := head?_eq_some_iff.mp head
  obtain ⟨left, reads, -⟩ := parse_reads parsed
  have solid : skipWs (openBrace :: t) = openBrace :: t := by
    rw [skipWs, dropWhile_cons_of_neg (by decide)]
  obtain ⟨w, split_, ws⟩ := skipWs_split t
  rw [readValue, solid] at reads
  simp only [if_true, length_cons] at reads
  split at reads
  · cases reads
  next u tail at_ =>
  rw [at_] at split_
  split at reads
  · cases reads
    exact absurd rfl some_
  · obtain ⟨x, divided, blank⟩ := skipWs_split (u :: tail)
    rw [readMembers] at reads
    split at reads
    · cases reads
    next y after found =>
    rw [found] at divided
    split at reads
    · next opening =>
      refine ⟨w ++ x, after, by rw [split_, divided, opening, append_assoc], fun z mem => ?_⟩
      rcases mem_append.mp mem with old | new
      · exact ws z old
      · exact blank z new
    · cases reads

theorem verdict_not_quoted {i : Nat} {v : JudgeVerdict}
    (verdict : IsVerdict ((t.drop i).take n) v) : ¬Quoted t i n := by
  intro quoted
  obtain ⟨fields, parsed, head, -, found⟩ := verdict
  have some_ : fields ≠ [] := by
    rintro rfl
    cases found
  obtain ⟨w, rest, slice, ws⟩ := object_quote parsed some_ head
  have within : (openBrace :: (w ++ [quote])).length ≤ n := by
    have long := congrArg List.length slice
    rw [length_take] at long
    simp only [length_cons, length_append, length_nil] at long ⊢
    omega
  have shape : t.take (i + (openBrace :: (w ++ [quote])).length) =
      t.take i ++ openBrace :: (w ++ [quote]) := by
    rw [take_add]
    congr 1
    have longer := congrArg (List.take (openBrace :: (w ++ [quote])).length) slice
    rw [take_take, Nat.min_eq_left within] at longer
    rw [longer]
    have whole : openBrace :: (w ++ quote :: rest) = (openBrace :: (w ++ [quote])) ++ rest := by simp
    rw [whole, take_left]
  have start := quoted 0 (Nat.zero_le n)
  have end_ := quoted _ within
  rw [Nat.add_zero, placeOf] at start
  rw [shape, placeOf, foldl_append, foldl_cons, foldl_append] at end_
  have first : Place.after ((t.take i).foldl Place.after .outside) openBrace = .inside := by
    cases place : (t.take i).foldl Place.after .outside with
    | outside => exact absurd place start
    | inside => rfl
    | escaped => rfl
  rw [first, inside_of_ws ws] at end_
  exact end_ rfl

section Gating

variable {ρ : Type} {format : Format} {input : AssessInput ρ}

/-- The reply of the judge has a verdict. -/
def Usable (input : AssessInput ρ) (v : JudgeVerdict) : Prop :=
  ∃ t, input.complete = some (.text t) ∧ parseJudge t = some v

/-- Jev decides alone, and its probability reaches the threshold. -/
def Approved (input : AssessInput ρ) : Prop :=
  ∃ decisions p record, input.decisions = some decisions ∧ decisions.active = true ∧
    decisions.outcome = .ok p record ∧ atMost decisions.shipApproveAt p = true

/-- Jev was sent the whole patch, without the lockfiles. -/
def Untruncated (input : AssessInput ρ) : Prop :=
  input.patchTruncated = false ∧
    (buildShipState (input.patch.getD []) input.patchTruncated).1 =
      withoutLockfiles (input.patch.getD [])

structure Gated (format : Format) (input : AssessInput ρ) (a : Assessment ρ) : Prop where
  rules : a.done = true → ruleGaps input.signals = []
  rests : input.mode.getD .gate = .gate → a.done = true →
    (∃ v, Usable input v ∧ v.done = true ∧ atMost minConfidence v.confidence = true) ∨
      input.complete = none ∨
        (input.autoMerge.getD false = false ∧ (∀ v, ¬Usable input v) ∧ Approved input)
  notDone : input.mode.getD .gate = .gate → ∀ v, Usable input v → v.done = false →
    a.done = false
  veto : ∀ record, a.decision = some record →
    record.action = .veto ∨ record.action = .adviseVeto → Untruncated input
  overturned : input.mode.getD .gate = .gate → ruleGaps input.signals = [] →
    ∀ v, Usable input v → confident v = true → a.done = false → Untruncated input
  merge : input.mode.getD .gate = .gate → input.autoMerge.getD false = true → a.done = true →
    (judgeGate format input).assessment.done = true

theorem verdictFrom_ok {reply : Reply} {v : JudgeVerdict} :
    verdictFrom reply = .ok v ↔ ∃ t, reply = .text t ∧ parseJudge t = some v := by
  cases reply with
  | throws reason => simp [verdictFrom]
  | text t =>
    cases parsed : parseJudge t with
    | none => simp [verdictFrom, parsed]
    | some w => simp [verdictFrom, parsed]

theorem usable_unique {v w : JudgeVerdict} (first : Usable input v) (second : Usable input w) :
    v = w := by
  obtain ⟨t, reply, parsed⟩ := first
  obtain ⟨t', reply', parsed'⟩ := second
  rw [reply] at reply'
  cases reply'
  exact Option.some.inj (parsed.symm.trans parsed')

theorem judgeGate_cases (format : Format) (input : AssessInput ρ) :
    (judgeGate format input).assessment.decision = none ∧
      ((input.complete = none ∧ (judgeGate format input).verdict = none ∧
          (judgeGate format input).assessment.done = true) ∨
        (∃ v, Usable input v ∧ (judgeGate format input).verdict = some v ∧
          (judgeGate format input).assessment.done = confident v) ∨
        ((∀ v, ¬Usable input v) ∧ (judgeGate format input).verdict = none ∧
          (judgeGate format input).assessment.done = false)) := by
  unfold judgeGate
  split
  · next none_ => exact ⟨rfl, .inl ⟨none_, rfl, rfl⟩⟩
  · next reply given =>
    split
    · next verdict ok =>
      obtain ⟨t, rfl, parsed⟩ := verdictFrom_ok.mp ok
      exact ⟨rfl, .inr (.inl ⟨verdict, ⟨t, given, parsed⟩, rfl, rfl⟩)⟩
    · next reason failed =>
      refine ⟨rfl, .inr (.inr ⟨fun v usable => ?_, rfl, rfl⟩)⟩
      obtain ⟨t, reply', parsed⟩ := usable
      rw [given] at reply'
      cases reply'
      rw [verdictFrom_ok.mpr ⟨t, rfl, parsed⟩] at failed
      cases failed

theorem untruncated_of_start {jev : ShipDecision ρ} (started : startShipDecision input = some jev)
    (whole : jev.truncated = false) : Untruncated input := by
  obtain ⟨decisions, given, rest⟩ := Option.bind_eq_some_iff.mp started
  split at rest
  · cases rest
    have both := whole
    simp only [buildShipState, Bool.or_eq_false_iff, decide_eq_false_iff_not] at both
    exact ⟨both.1, by simp [buildShipState, both.2]⟩
  · cases rest

theorem approved_of_start {jev : ShipDecision ρ} (started : startShipDecision input = some jev)
    {p : Number} {record : DecisionRecord ρ} (outcome : jev.outcome = .ok p record)
    (reaches : atMost jev.approve p = true) : Approved input := by
  obtain ⟨decisions, given, rest⟩ := Option.bind_eq_some_iff.mp started
  split at rest
  · next active =>
    cases rest
    exact ⟨decisions, p, record, given, active, outcome, reaches⟩
  · cases rest

theorem harmless_decided {given : Option (DecisionRecord ρ)} {record : DecisionRecord ρ}
    {action : DecisionAction} {threshold : Number}
    (same : given = some (decided record action threshold))
    (other : action ≠ .veto ∧ action ≠ .adviseVeto) :
    ∀ r, given = some r → r.action ≠ .veto ∧ r.action ≠ .adviseVeto := by
  intro r found
  rw [same] at found
  cases found
  exact other

theorem gateWithJev_cases {judged : GateJudgement ρ} {jev : ShipDecision ρ} {autoMerge : Bool}
    {a : Assessment ρ} (result : gateWithJev format judged jev autoMerge = some a)
    (plain : judged.assessment.decision = none) :
    (a.done = judged.assessment.done ∧
        ∀ record, a.decision = some record → record.action ≠ .veto ∧ record.action ≠ .adviseVeto) ∨
      (judged.verdict.isSome ∧ judged.assessment.done = true ∧ a.done = false ∧
        jev.truncated = false) ∨
      (judged.verdict = none ∧ autoMerge = false ∧
        (∀ record, a.decision = some record →
          record.action ≠ .veto ∧ record.action ≠ .adviseVeto) ∧
        (a.done = true → ∃ p record, jev.outcome = .ok p record ∧ atMost jev.approve p = true)) := by
  unfold gateWithJev at result
  dsimp only at result
  split at result
  · cases result
  · cases result
    exact .inl ⟨rfl, fun record bad => by rw [plain] at bad; cases bad⟩
  · cases result
    exact .inl ⟨rfl, harmless_decided rfl ⟨by decide, by decide⟩⟩
  next p record outcome =>
  split at result
  · split at result
    · next verdict given =>
      split at result
      · next overrules =>
        cases result
        simp only [Bool.and_eq_true, Bool.not_eq_true'] at overrules
        exact .inr (.inl ⟨by rw [given]; rfl, overrules.1.1, rfl, overrules.2⟩)
      · cases result
        exact .inl ⟨rfl, harmless_decided rfl ⟨by decide, by decide⟩⟩
    · cases result
      exact .inl ⟨rfl, harmless_decided rfl ⟨by decide, by decide⟩⟩
  · next alone =>
    simp only [Bool.or_eq_true, not_or, Bool.not_eq_true, Option.isSome_eq_false_iff,
      Option.isNone_iff_eq_none] at alone
    split at result
    · next reaches =>
      cases result
      exact .inr (.inr ⟨alone.1, alone.2, harmless_decided rfl ⟨by decide, by decide⟩,
        fun _ => ⟨p, record, outcome, reaches⟩⟩)
    · cases result
      exact .inr (.inr ⟨alone.1, alone.2, harmless_decided rfl ⟨by decide, by decide⟩,
        fun bad => by cases bad⟩)

theorem adviseWithJev_cases {assessment a : Assessment ρ} {jev : ShipDecision ρ}
    (result : adviseWithJev assessment jev = some a) (plain : assessment.decision = none) :
    ∀ record, a.decision = some record →
      record.action = .veto ∨ record.action = .adviseVeto → jev.truncated = false := by
  unfold adviseWithJev at result
  split at result
  · cases result
  · cases result
    intro record bad
    rw [plain] at bad
    cases bad
  · cases result
    intro record same action
    cases same
    rcases action with bad | bad <;> cases bad
  · cases result
    intro record same action
    cases same
    simp only [decided] at action
    split at action
    · next applies =>
      simp only [Bool.and_eq_true, Bool.not_eq_true'] at applies
      exact applies.2
    · rcases action with bad | bad <;> cases bad

theorem assessAdvisory_decision (input : AssessInput ρ) :
    (assessAdvisory input).decision = none := by
  unfold assessAdvisory
  dsimp only
  split
  · rfl
  · split <;> rfl

theorem not_done_of_not_confident {v : JudgeVerdict} (not_ : v.done = false) :
    confident v = false := by
  simp [confident, not_]

theorem gated_of_judge {a : Assessment ρ} (rules : ruleGaps input.signals = [])
    (result : (match startShipDecision input with
      | some jev => gateWithJev format (judgeGate format input) jev (input.autoMerge.getD false)
      | none => some (judgeGate format input).assessment) = some a) : Gated format input a := by
  obtain ⟨plain, ways⟩ := judgeGate_cases format input
  -- a done that is the judge's own
  have own : a.done = (judgeGate format input).assessment.done →
      (∀ record, a.decision = some record → record.action ≠ .veto ∧ record.action ≠ .adviseVeto) →
      Gated format input a := by
    intro same harmless
    refine ⟨fun _ => rules, fun _ done => ?_, fun _ v usable not_ => ?_, fun record given action => ?_,
      fun _ _ v usable sure not_ => ?_, fun _ _ done => same.symm.trans done⟩
    · rcases ways with ⟨none_, -, -⟩ | ⟨v, usable, -, judged⟩ | ⟨-, -, judged⟩
      · exact .inr (.inl none_)
      · have sure : confident v = true := judged.symm.trans (same.symm.trans done)
        rw [confident, Bool.and_eq_true] at sure
        exact .inl ⟨v, usable, sure⟩
      · rw [same, judged] at done
        cases done
    · rcases ways with ⟨none_, -, -⟩ | ⟨w, usable', -, judged⟩ | ⟨no, -, -⟩
      · obtain ⟨t, reply, -⟩ := usable
        rw [none_] at reply
        cases reply
      · rw [same, judged, usable_unique usable' usable]
        exact not_done_of_not_confident not_
      · exact absurd usable (no v)
    · rcases action with bad | bad
      · exact absurd bad (harmless record given).1
      · exact absurd bad (harmless record given).2
    · rcases ways with ⟨none_, -, -⟩ | ⟨w, usable', -, judged⟩ | ⟨no, -, -⟩
      · obtain ⟨t, reply, -⟩ := usable
        rw [none_] at reply
        cases reply
      · rw [same, judged, usable_unique usable' usable, sure] at not_
        cases not_
      · exact absurd usable (no v)
  split at result
  · next jev started =>
    rcases gateWithJev_cases result plain with ⟨same, harmless⟩ | ⟨some_, judged, not_, whole⟩ |
      ⟨none_, alone, harmless, approved⟩
    · exact own same harmless
    · have untruncated := untruncated_of_start started whole
      refine ⟨fun _ => rules, fun _ done => ?_, fun _ _ _ _ => not_, fun _ _ _ => untruncated,
        fun _ _ _ _ _ _ => untruncated, fun _ _ done => ?_⟩
      · rw [not_] at done
        cases done
      · exact judged
    · have unusable : ∀ v, ¬Usable input v := by
        intro v usable
        rcases ways with ⟨none', -, -⟩ | ⟨w, -, given, -⟩ | ⟨no, -, -⟩
        · obtain ⟨t, reply, -⟩ := usable
          rw [none'] at reply
          cases reply
        · rw [none_] at given
          cases given
        · exact no v usable
      refine ⟨fun _ => rules, fun _ done => ?_, fun _ v usable => absurd usable (unusable v),
        fun record given action => ?_, fun _ _ v usable => absurd usable (unusable v),
        fun _ merge => ?_⟩
      · obtain ⟨p, record, outcome, reaches⟩ := approved done
        exact .inr (.inr ⟨alone, unusable, approved_of_start started outcome reaches⟩)
      · rcases action with bad | bad
        · exact absurd bad (harmless record given).1
        · exact absurd bad (harmless record given).2
      · rw [alone] at merge
        cases merge
  · cases result
    exact own rfl fun record bad => by rw [plain] at bad; cases bad

theorem assessDone_gated {a : Assessment ρ} (result : assessDone format input = some a) :
    Gated format input a := by
  unfold assessDone at result
  dsimp only at result
  split at result
  · next gap gaps blocked =>
    cases result
    refine ⟨fun bad => ?_, fun _ bad => ?_, fun _ _ _ _ => rfl, fun _ bad => ?_, fun _ rules => ?_,
      fun _ _ bad => ?_⟩
    · cases bad
    · cases bad
    · cases bad
    · rw [blocked] at rules
      cases rules
    · cases bad
  next rules =>
  split at result
  · next advisory =>
    have other : input.mode.getD .gate ≠ .gate := by rw [advisory]; decide
    refine ⟨fun _ => rules, fun gate => absurd gate other, fun gate => absurd gate other,
      fun record given action => ?_, fun gate => absurd gate other, fun gate => absurd gate other⟩
    split at result
    · next jev started =>
      exact untruncated_of_start started
        (adviseWithJev_cases result (assessAdvisory_decision input) record given action)
    · cases result
      rw [assessAdvisory_decision] at given
      cases given
  · exact gated_of_judge rules result

end Gating

/-- What a `done` rests on, for every input; which substring of a reply the verdict is that of;
and that no such substring stands in a string. -/
theorem ship_assessment_gated :
    (∀ {ρ : Type} (format : Format) (input : AssessInput ρ) (a : Assessment ρ),
      assessDone format input = some a → Gated format input a) ∧
    (∀ t v, parseJudge t = some v ↔
      ∃ i, (∃ n, IsVerdict ((t.drop i).take n) v) ∧
        ∀ k < i, ∀ n w, ¬IsVerdict ((t.drop k).take n) w) ∧
    ∀ t i n v, IsVerdict ((t.drop i).take n) v → ¬Quoted t i n :=
  ⟨fun _ _ _ result => assessDone_gated result, parseJudge_iff,
    fun _ _ _ _ verdict => verdict_not_quoted verdict⟩

end Ultrathink.Guarantees.ShipAssessment
