import Ultrathink.Source.Auth.LimiterKey

/-!
# Limiter keys follow the `/64`

`limiterKey` fills the `::` of an address by counting pieces between colons. A dotted tail is
one piece for two groups and the colons of a zone make pieces too, so the fill is right only
where the groups that move read the same; and only `::ffff:` before a dotted address is taken
for an IPv4-mapped one.
-/

namespace Ultrathink.Guarantees.LimiterKeys

open List Library JsText JsNumber Source.Auth.LimiterKey
open Library.JsonText (hexValue)

/-- The pieces of a text that goes on with a text of the pieces `more`. -/
def extend : List Text → List Text → List Text
  | [], more => more
  | [last], first :: more => (last ++ first) :: more
  | [last], [] => [last]
  | part :: rest, more => part :: extend rest more

theorem modifyHead_extend (u : UInt16) (parts more : List Text) (some_ : parts ≠ []) :
    (extend parts more).modifyHead (List.cons u) = extend (parts.modifyHead (List.cons u)) more := by
  cases parts with
  | nil => exact absurd rfl some_
  | cons part rest =>
    cases rest with
    | nil =>
      cases more with
      | nil => rfl
      | cons first more => rfl
    | cons next rest => rfl

theorem splitOn_append (a : UInt16) (s t : Text) :
    (s ++ t).splitOn a = extend (s.splitOn a) (t.splitOn a) := by
  induction s with
  | nil =>
    cases parts : t.splitOn a with
    | nil => exact absurd parts (splitOn_ne_nil a t)
    | cons first more =>
      rw [nil_append, parts]
      rfl
  | cons u s ih =>
    rw [cons_append, splitOn_cons_eq_if_modifyHead, splitOn_cons_eq_if_modifyHead, ih]
    split
    · cases parts : s.splitOn a with
      | nil => exact absurd parts (splitOn_ne_nil a s)
      | cons first more => rfl
    · exact modifyHead_extend u _ _ (splitOn_ne_nil a s)

variable {t s y z : Text} {values : List Nat} {u : UInt16} {parts : List Text}

theorem cutDouble_append {h : Text} (cut : cutDouble s = some (h, t)) (z : Text) :
    cutDouble (s ++ z) = some (h, t ++ z) := by
  induction s generalizing h t with
  | nil => cases cut
  | cons u s ih =>
    cases s with
    | nil => cases cut
    | cons v after =>
      rw [cons_append, cons_append]
      unfold cutDouble at cut ⊢
      simp only at cut ⊢
      split at cut
      · next both =>
        obtain ⟨rfl, rfl⟩ := Prod.mk.inj (Option.some.inj cut)
        rw [if_pos both]
      · next notBoth =>
        obtain ⟨⟨h', t'⟩, value, same⟩ := Option.map_eq_some_iff.mp cut
        obtain ⟨rfl, rfl⟩ := Prod.mk.inj same
        rw [if_neg notBoth, ← cons_append, ih value]
        rfl

theorem cutDouble_append_zone (uncut : cutDouble s = none) (z : Text) :
    cutDouble (s ++ percent :: z) =
      (cutDouble z).map fun (before, after) => (s ++ percent :: before, after) := by
  induction s with
  | nil =>
    rw [nil_append]
    cases z with
    | nil => rfl
    | cons v after =>
      conv_lhs => unfold cutDouble
      simp [percent, colon]
  | cons u s ih =>
    have rest : cutDouble s = none ∧ ¬ (u = colon ∧ s.head? = some colon) := by
      cases s with
      | nil => exact ⟨rfl, by simp⟩
      | cons v after =>
        unfold cutDouble at uncut
        simp only at uncut
        split at uncut
        · cases uncut
        · next notBoth =>
          exact ⟨Option.map_eq_none_iff.mp uncut, by simpa using notBoth⟩
    have later := ih rest.1
    cases s with
    | nil =>
      rw [cons_append]
      conv_lhs => unfold cutDouble
      simp only [nil_append] at later ⊢
      rw [if_neg (by simp [percent, colon]), later, Option.map_map]
      rfl
    | cons v after =>
      rw [cons_append, cons_append]
      rw [cons_append] at later
      conv_lhs => unfold cutDouble
      simp only
      rw [if_neg (by simpa using rest.2), later, Option.map_map]
      rfl

theorem takeWhile_hex (all : t.all isHexDigit = true)
    (stops : y.head?.all (fun u => !isHexDigit u) = true) : (t ++ y).takeWhile isHexDigit = t := by
  rw [takeWhile_append_of_pos (fun u mem => all_eq_true.mp all u mem)]
  cases y with
  | nil => simp
  | cons v y =>
    have stop : isHexDigit v = false := by simpa using stops
    simp [stop]

theorem isHexDigit_bounds (hex : isHexDigit u = true) :
    (0x30 ≤ u ∧ u ≤ 0x39) ∨ (0x41 ≤ u ∧ u ≤ 0x46) ∨ (0x61 ≤ u ∧ u ≤ 0x66) := by
  unfold isHexDigit hexValue at hex
  split at hex
  · next h => exact .inl h
  · split at hex
    · next h => exact .inr (.inl h)
    · split at hex
      · next h => exact .inr (.inr h)
      · cases hex

theorem not_space_of_hex (hex : isHexDigit u = true) : isSpace u = false := by
  have bounds := isHexDigit_bounds hex
  simp only [UInt16.le_iff_toNat_le, UInt16.reduceToNat] at bounds
  exact isSpace_graphic (by omega) (by omega)

variable {v : UInt16} {tail head rest : Text} {back front : List Nat} {n : Nat}

theorem ne_of_hex (hex : isHexDigit u = true) (other : isHexDigit v = false) :
    u ≠ v := by
  rintro rfl
  rw [hex] at other
  cases other

/-- Nothing, or a `%` and what follows. -/
def ZoneStart (y : Text) : Prop := y = [] ∨ y.head? = some percent

theorem ZoneStart.stops (zone : ZoneStart y) :
    y.head?.all (fun u => !isHexDigit u) = true := by
  rcases zone with rfl | percent_
  · rfl
  · rw [percent_]
    decide

theorem parseInt16_of_hex (some_ : t ≠ []) (all : t.all isHexDigit = true) (zone : ZoneStart y) :
    parseInt16 (t ++ y) = some (hexNumber t : ℤ) := by
  cases t with
  | nil => exact absurd rfl some_
  | cons u t =>
    have hex : isHexDigit u = true := all_eq_true.mp all u mem_cons_self
    have front : (u :: (t ++ y)).dropWhile isSpace = u :: (t ++ y) := by
      rw [dropWhile_cons, not_space_of_hex hex]
      rfl
    have digits := takeWhile_hex all zone.stops
    rw [cons_append] at digits
    have minus : u ≠ 0x2D := ne_of_hex hex (by decide)
    have plus : u ≠ 0x2B := ne_of_hex hex (by decide)
    have next (v : UInt16) (other : isHexDigit v = false) (notPercent : v ≠ percent) :
        (t ++ y)[0]? ≠ some v := by
      cases t with
      | nil =>
        rw [nil_append, ← head?_eq_getElem?]
        rcases zone with rfl | percent_
        · simp
        · rw [percent_]
          exact fun same => notPercent (Option.some.inj same).symm
      | cons w t =>
        have hexW : isHexDigit w = true :=
          all_eq_true.mp all w (mem_cons_of_mem u mem_cons_self)
        exact fun same => ne_of_hex hexW other (Option.some.inj same)
    have lower := next 0x78 (by decide) (by decide)
    have upper := next 0x58 (by decide) (by decide)
    rw [cons_append]
    unfold parseInt16
    simp only [front, head?_cons, Option.some.injEq, minus, plus, or_self, if_false,
      getElem?_cons_succ, lower, upper, and_false, digits, if_neg some_]

theorem parseInt16_group (group : isGroup t = true) (zone : ZoneStart y) :
    parseInt16 (t ++ y) = some (hexNumber t : ℤ) := by
  unfold isGroup at group
  simp only [Bool.and_eq_true, decide_eq_true_eq] at group
  exact parseInt16_of_hex (length_pos_iff.mp group.1.1) group.2 zone

def asNumber (n : Nat) : Option ℤ := some n

/-- What the pieces read as at a place. -/
def readAt (parts : List Text) (i : Nat) : Option (Option ℤ) := (parts[i]?).map parseInt16

def valueAt (values : List Nat) (i : Nat) : Option (Option ℤ) := (values[i]?).map asNumber

/-- What the pieces of a tail read as, when a zone's pieces follow: the first `k` read as the
groups they are, and at most a dotted pair stands behind them. -/
structure Reads (parts : List Text) (values : List Nat) (k : Nat) : Prop where
  groups : k ≤ values.length
  dotted : values.length ≤ k + 2
  counted : k ≤ parts.length
  pair : values.length ≤ parts.length + 1
  read : ∀ j < k, readAt parts j = valueAt values j

theorem length_dottedGroups (ipv4 : isIPv4 t = true) : (dottedGroups t).length = 2 := by
  unfold isIPv4 at ipv4
  simp only [Bool.and_eq_true, decide_eq_true_eq] at ipv4
  unfold dottedGroups
  obtain ⟨four, -⟩ := ipv4
  match parts : t.splitOn dot with
  | [a, b, c, d] => rfl
  | [] | [_] | [_, _] | [_, _, _] | _ :: _ :: _ :: _ :: _ :: _ =>
    rw [parts] at four
    simp at four

theorem reads_extend (parsed : groupsOf parts = some values) {first : Text} (zone : ZoneStart first)
    (more : List Text) (some_ : parts ≠ []) :
    ∃ k, Reads (extend parts (first :: more)) values k := by
  induction parts generalizing values with
  | nil => exact absurd rfl some_
  | cons part rest ih =>
    cases rest with
    | nil =>
      unfold groupsOf at parsed
      simp only at parsed
      split at parsed
      · next group =>
        obtain rfl := Option.some.inj parsed
        refine ⟨1, by simp, by simp, by simp [extend], by simp, fun j h => ?_⟩
        obtain rfl : j = 0 := by omega
        simp [extend, readAt, valueAt, asNumber, parseInt16_group group zone]
      · split at parsed
        · next ipv4 =>
          obtain rfl := Option.some.inj parsed
          have two := length_dottedGroups ipv4
          exact ⟨0, by simp, by omega, by simp, by simp [extend]; omega, fun j h => absurd h (by omega)⟩
        · cases parsed
    | cons next rest =>
      unfold groupsOf at parsed
      simp only at parsed
      split at parsed
      · next group =>
        obtain ⟨tail, value, rfl⟩ := Option.map_eq_some_iff.mp parsed
        obtain ⟨k, reads⟩ := ih value (by simp)
        refine ⟨k + 1, ?_, ?_, ?_, ?_, fun j h => ?_⟩
        · have := reads.groups
          simpa using this
        · have := reads.dotted
          simp only [length_cons]
          omega
        · have := reads.counted
          simpa [extend] using this
        · have := reads.pair
          simp only [extend, length_cons] at this ⊢
          omega
        · cases j with
          | zero =>
            have plain := parseInt16_group group (y := []) (.inl rfl)
            rw [append_nil] at plain
            simp [extend, readAt, valueAt, asNumber, plain]
          | succ j => exact reads.read j (by omega)
      · cases parsed

theorem take_eq_iff :
    (parts.take 4).map parseInt16 = (values.take 4).map asNumber ↔
      ∀ i < 4, readAt parts i = valueAt values i := by
  constructor
  · intro same i less
    have here := congrArg (fun l => l[i]?) same
    simpa [readAt, valueAt, getElem?_take, less] using here
  · intro each
    apply ext_getElem?
    intro i
    by_cases less : i < 4
    · simpa [readAt, valueAt, getElem?_take, less] using each i less
    · simp [less]

/-- The groups before `::`, as many zeros as are missing, and the groups after it. -/
def spread {α : Type} (front : List α) (zero : α) (back : List α) : List α :=
  front ++ List.replicate (8 - front.length - back.length) zero ++ back

theorem getElem?_spread {α : Type} (front : List α) (zero : α) (back : List α) (i : Nat) :
    (spread front zero back)[i]? =
      if i < front.length then front[i]?
      else if i < max front.length (8 - back.length) then some zero
      else back[i - max front.length (8 - back.length)]? := by
  have start : front.length + (8 - front.length - back.length) =
      max front.length (8 - back.length) := by omega
  unfold spread
  rw [getElem?_append, getElem?_append, length_append, length_replicate, start]
  split
  · next inside =>
    split
    · rfl
    · rw [getElem?_replicate, if_pos (by omega)]
  · next outside => rw [if_neg (by omega)]

/-- Where the pieces after `::` miscount the groups, the groups that this misplaces agree
with what stands there: with a dotted tail, which is one piece for two groups, the
groups of the tail in the top half are zero; with colons in the zone, the pieces that are
taken for groups of the top half read as those. -/
def Agrees (parts : List Text) (front back values : List Nat) : Prop :=
  (parts.length < back.length → ∀ i < 4, front.length ≤ i → values[i]? = some 0) ∧
    (back.length < parts.length → ∀ i < 4, max front.length (8 - parts.length) ≤ i →
      readAt parts (i - max front.length (8 - parts.length)) = valueAt values i)

section Spread
variable {head parts : List Text} {front back : List Nat} {k : Nat}

theorem valueAt_spread (room : front.length + back.length ≤ 7) (i : Nat) (past : front.length ≤ i) :
    valueAt (spread front 0 back) i =
      if i < 8 - back.length then some (some 0) else valueAt back (i - (8 - back.length)) := by
  have start : max front.length (8 - back.length) = 8 - back.length := by omega
  unfold valueAt
  rw [getElem?_spread, if_neg (by omega), start]
  split
  · rfl
  · rfl

theorem parseInt16_zero : parseInt16 [0x30] = some 0 := by decide

theorem readAt_spread (same : head.length = front.length) (i : Nat) (past : front.length ≤ i) :
    readAt (spread head [0x30] parts) i =
      if i < max front.length (8 - parts.length) then some (some 0)
      else readAt parts (i - max front.length (8 - parts.length)) := by
  unfold readAt
  rw [getElem?_spread, if_neg (by omega), same]
  split
  · rw [Option.map_some, parseInt16_zero]
  · rfl

theorem spread_iff (reads : Reads parts back k) (room : front.length + back.length ≤ 7)
    (same : head.length = front.length) (headReads : ∀ i < front.length,
      readAt head i = valueAt front i) :
    (∀ i < 4, readAt (spread head [0x30] parts) i = valueAt (spread front 0 back) i) ↔
      Agrees parts front back (spread front 0 back) := by
  have dotted := reads.dotted
  have pair := reads.pair
  have read (j : Nat) (h : j < k) : readAt parts j = valueAt back j := reads.read j h
  have early (i : Nat) (less : i < front.length) :
      readAt (spread head [0x30] parts) i = valueAt (spread front 0 back) i := by
    have here := headReads i less
    unfold readAt valueAt at here ⊢
    rw [getElem?_spread, getElem?_spread, if_pos (by omega), if_pos less]
    exact here
  have zero (i : Nat) : valueAt (spread front 0 back) i = some (some 0) ↔
      (spread front 0 back)[i]? = some 0 := by
    unfold valueAt
    cases (spread front 0 back)[i]? with
    | none => simp
    | some n => simp [asNumber]
  constructor
  · intro each
    constructor
    · intro fewer i less past
      rw [← zero]
      induction i using Nat.strongRecOn with
      | ind i ih =>
        have code := each i less
        rw [readAt_spread same i past, valueAt_spread room i past] at code
        rw [valueAt_spread room i past]
        split
        · rfl
        · next late =>
          rw [if_neg late] at code
          split at code
          · exact code.symm
          · next later =>
            have before := ih (i - 1) (by omega) (by omega) (by omega)
            rw [valueAt_spread room (i - 1) (by omega), if_neg (by omega)] at before
            rw [read _ (by omega)] at code
            rw [← code, ← before]
            congr 1
            omega
    · intro more i less past
      have code := each i less
      rwa [readAt_spread same i (by omega), if_neg (by omega)] at code
  · rintro ⟨fewer, more⟩ i less
    by_cases past : front.length ≤ i
    · rw [readAt_spread same i past]
      rcases Nat.lt_trichotomy parts.length back.length with fewer_ | equal | more_
      · have here := (zero i).mpr (fewer fewer_ i less past)
        rw [here]
        split
        · rfl
        · have before := (zero (i - 1)).mpr (fewer fewer_ (i - 1) (by omega) (by omega))
          rw [valueAt_spread room (i - 1) (by omega), if_neg (by omega)] at before
          rw [read _ (by omega), ← before]
          congr 1
          omega
      · rw [valueAt_spread room i past]
        have start : max front.length (8 - parts.length) = 8 - back.length := by omega
        rw [start]
        split
        · rfl
        · exact read _ (by omega)
      · split
        · rw [valueAt_spread room i past, if_pos (by omega)]
        · exact more more_ i less (by omega)
    · exact early i (by omega)

end Spread

theorem cutDouble_eq {p q : Text} (cut : cutDouble s = some (p, q)) :
    s = p ++ colon :: colon :: q := by
  induction s generalizing p q with
  | nil => cases cut
  | cons u s ih =>
    cases s with
    | nil => cases cut
    | cons v after =>
      unfold cutDouble at cut
      simp only at cut
      split at cut
      · next both =>
        obtain ⟨rfl, rfl⟩ := Prod.mk.inj (Option.some.inj cut)
        rw [both.1, both.2]
        rfl
      · obtain ⟨⟨p', q'⟩, value, same⟩ := Option.map_eq_some_iff.mp cut
        obtain ⟨rfl, rfl⟩ := Prod.mk.inj same
        rw [ih value]
        rfl

theorem ne_nil_of_groupsOf (parsed : groupsOf parts = some values) : ∀ part ∈ parts, part ≠ [] := by
  induction parts generalizing values with
  | nil => exact fun part mem => absurd mem not_mem_nil
  | cons part rest ih =>
    have here : isGroup part = true ∨ isIPv4 part = true := by
      unfold groupsOf at parsed
      split at parsed
      · split at parsed
        · next group => exact .inl group
        · split at parsed
          · next ipv4 => exact .inr ipv4
          · cases parsed
      · split at parsed
        · next group => exact .inl group
        · cases parsed
    have notEmpty : part ≠ [] := by
      rintro rfl
      rcases here with group | ipv4
      · cases group
      · cases ipv4
    cases rest with
    | nil =>
      intro other mem
      rw [mem_singleton.mp mem]
      exact notEmpty
    | cons next rest =>
      unfold groupsOf at parsed
      simp only at parsed
      split at parsed
      · obtain ⟨tail, value, -⟩ := Option.map_eq_some_iff.mp parsed
        exact forall_mem_cons.mpr ⟨notEmpty, ih value⟩
      · cases parsed

theorem uncut_of_groupsOf (parsed : groupsOf (s.splitOn colon) = some values) :
    cutDouble s = none := by
  rw [Option.eq_none_iff_forall_ne_some]
  rintro ⟨p, q⟩ cut
  have whole := cutDouble_eq cut
  have inside : ([] : Text) ∈ s.splitOn colon := by
    rw [whole, splitOn_append_cons_self]
    apply mem_append_right
    rw [splitOn_cons_eq_if_modifyHead, if_pos (by simp)]
    exact mem_cons_self
  exact ne_nil_of_groupsOf parsed [] inside rfl

theorem splitOn_zoneStart (zone : ZoneStart z) :
    ∃ first more, z.splitOn colon = first :: more ∧ ZoneStart first := by
  rcases zone with rfl | percent_
  · exact ⟨[], [], rfl, .inl rfl⟩
  · cases z with
    | nil => cases percent_
    | cons u z =>
      obtain rfl := Option.some.inj percent_
      rw [splitOn_cons_eq_if_modifyHead, if_neg (by decide)]
      cases parts : z.splitOn colon with
      | nil => exact absurd parts (splitOn_ne_nil colon z)
      | cons first more => exact ⟨percent :: first, more, rfl, .inr rfl⟩

theorem zoneOf_cases (t : Text) : zoneOf t = [] ∨ ∃ name, zoneOf t = percent :: name := by
  unfold zoneOf
  cases rest : t.dropWhile (· ≠ percent) with
  | nil => exact .inl rfl
  | cons u name =>
    have stops := head_dropWhile_not (fun u => decide (u ≠ percent)) (l := t)
      (by rw [rest]; exact cons_ne_nil u name)
    simp only [rest, head_cons, decide_eq_false_iff_not, not_not] at stops
    exact .inr ⟨name, by rw [stops]⟩

theorem beforeZone_append (t : Text) : beforeZone t ++ zoneOf t = t := takeWhile_append_dropWhile

/-- A text without `::` that a zone follows is cut inside the zone or not at all. -/
theorem uncut_zone (uncut : cutDouble s = none) (zone : z = [] ∨ ∃ name, z = percent :: name) :
    ∃ z', ZoneStart z' ∧ ((cutDouble (s ++ z) = none ∧ z' = z) ∨
      ∃ rest, cutDouble (s ++ z) = some (s ++ z', rest)) := by
  rcases zone with rfl | ⟨name, rfl⟩
  · exact ⟨[], .inl rfl, .inl ⟨by rwa [append_nil], rfl⟩⟩
  · rw [cutDouble_append_zone uncut]
    cases cutDouble name with
    | none => exact ⟨percent :: name, .inr rfl, .inl ⟨rfl, rfl⟩⟩
    | some cut => exact ⟨percent :: cut.1, .inr rfl, .inr ⟨cut.2, rfl⟩⟩

theorem reads_tail (parsed : groupsOf (pieces tail) = some back) (zone : ZoneStart z) :
    ∃ k, Reads (pieces (tail ++ z)) back k := by
  by_cases empty : tail = []
  · subst empty
    obtain rfl := Option.some.inj parsed
    exact ⟨0, by simp, by simp, by simp, by simp, fun j h => absurd h (by omega)⟩
  · obtain ⟨first, more, split, start⟩ := splitOn_zoneStart zone
    unfold pieces at parsed ⊢
    rw [if_neg empty] at parsed
    rw [if_neg (by simp [empty]), splitOn_append, split]
    exact reads_extend parsed start more (splitOn_ne_nil colon tail)

theorem reads_head (parsed : hexGroups (pieces head) = some front) :
    (pieces head).length = front.length ∧
      ∀ i < front.length, readAt (pieces head) i = valueAt front i := by
  unfold hexGroups at parsed
  split at parsed
  · next all =>
    obtain rfl := Option.some.inj parsed
    refine ⟨(length_map _).symm, fun i less => ?_⟩
    rw [length_map] at less
    have plain := parseInt16_group (all_eq_true.mp all _ (getElem_mem less)) (y := [])
      (.inl rfl)
    rw [append_nil] at plain
    simp [readAt, valueAt, asNumber, less, plain]
  · cases parsed

/-- The pieces that are counted after `::` agree with the groups that stand there. -/
def Spaced (t : Text) (values : List Nat) : Prop :=
  ∀ head tail front back, cutDouble (beforeZone t) = some (head, tail) →
    hexGroups (pieces head) = some front → groupsOf (pieces tail) = some back →
      Agrees (tailGroups t) front back values

theorem readAt_append {more : List Text} {i : Nat} (less : i < parts.length) :
    readAt (parts ++ more) i = readAt parts i := by
  unfold readAt
  rw [getElem?_append_left less]

theorem reads_whole (uncut : cutDouble (beforeZone t) = none)
    (parsed : groupsOf ((beforeZone t).splitOn colon) = some values) (eight : values.length = 8) :
    ∀ i < 4, readAt (groups t) i = valueAt values i := by
  obtain ⟨z', zone, cut⟩ := uncut_zone uncut (zoneOf_cases t)
  rw [beforeZone_append] at cut
  obtain ⟨first, more, split, start⟩ := splitOn_zoneStart zone
  obtain ⟨k, reads⟩ := reads_extend parsed start more (splitOn_ne_nil colon _)
  rw [← split, ← splitOn_append] at reads
  have dotted := reads.dotted
  have counted := reads.counted
  have some_ : beforeZone t ++ z' ≠ [] := by
    intro empty
    rw [empty] at counted
    simp at counted
    omega
  have whole : ∃ rest, groups t = (beforeZone t ++ z').splitOn colon ++ rest := by
    unfold groups splitTwo
    rcases cut with ⟨none_, rfl⟩ | ⟨rest, some_'⟩
    · rw [none_]
      rw [beforeZone_append] at some_ ⊢
      exact ⟨[], by simp [pieces, some_]⟩
    · rw [some_']
      simp only [Option.isSome_some, if_true]
      rw [show pieces (beforeZone t ++ z') = (beforeZone t ++ z').splitOn colon from if_neg some_,
        append_assoc]
      exact ⟨_, rfl⟩
  obtain ⟨rest, same⟩ := whole
  intro i less
  rw [same, readAt_append (by omega)]
  exact reads.read i (by omega)

theorem reads_cut (cut : cutDouble (beforeZone t) = some (head, tail))
    (parsedHead : hexGroups (pieces head) = some front)
    (parsedTail : groupsOf (pieces tail) = some back) (room : front.length + back.length ≤ 7) :
    (∀ i < 4, readAt (groups t) i = valueAt (spread front 0 back) i) ↔
      Agrees (tailGroups t) front back (spread front 0 back) := by
  have uncut : cutDouble tail = none := by
    by_cases empty : tail = []
    · rw [empty]
      rfl
    · unfold pieces at parsedTail
      rw [if_neg empty] at parsedTail
      exact uncut_of_groupsOf parsedTail
  have here := cutDouble_append cut (zoneOf t)
  rw [beforeZone_append] at here
  obtain ⟨z', zone, inTail⟩ := uncut_zone uncut (zoneOf_cases t)
  have two : splitTwo t = (head, tail ++ z') := by
    unfold splitTwo
    rw [here]
    rcases inTail with ⟨none_, rfl⟩ | ⟨rest, some_⟩
    · simp only [none_, Option.elim_none]
    · simp only [some_, Option.elim_some]
  have counted : tailGroups t = pieces (tail ++ z') := by
    unfold tailGroups
    rw [here, two]
    rfl
  have spaced : groups t = spread (pieces head) [0x30] (tailGroups t) := by
    unfold groups
    rw [here, two]
    rfl
  obtain ⟨k, reads⟩ := reads_tail parsedTail zone
  obtain ⟨same, headReads⟩ := reads_head parsedHead
  rw [← counted] at reads
  rw [spaced]
  exact spread_iff reads room same headReads

theorem readings_iff (accepted : ipv6Groups t = some values) :
    ((groups t).take 4).map parseInt16 = (values.take 4).map asNumber ↔ Spaced t values := by
  rw [take_eq_iff]
  unfold ipv6Groups addressGroups at accepted
  split at accepted
  · split at accepted
    · next uncut =>
      obtain ⟨parsed, eight⟩ := Option.filter_eq_some_iff.mp accepted
      constructor
      · rintro - head tail front back cut
        rw [uncut] at cut
        cases cut
      · exact fun _ => reads_whole uncut parsed (of_decide_eq_true eight)
    · next head tail cut =>
      split at accepted
      · next front back parsedHead parsedTail =>
        split at accepted
        · next room =>
          obtain rfl := Option.some.inj accepted
          have agrees := reads_cut cut parsedHead parsedTail room
          constructor
          · rintro each head' tail' front' back' cut' parsedHead' parsedTail'
            obtain ⟨rfl, rfl⟩ := Prod.mk.inj (Option.some.inj (cut.symm.trans cut'))
            obtain rfl := Option.some.inj (parsedHead.symm.trans parsedHead')
            obtain rfl := Option.some.inj (parsedTail.symm.trans parsedTail')
            exact agrees.mp each
          · intro spaced
            exact agrees.mpr (spaced head tail front back cut parsedHead parsedTail)
        · cases accepted
      · cases accepted
  · cases accepted

theorem hexUnit_value : ∀ n < 16, hexValue ((Nat.digitChar n).toNat.toUInt16) = some n := by decide

theorem hexText_eq (n : Nat) : hexText n =
    if n < 16 then [(Nat.digitChar n).toNat.toUInt16]
    else hexText (n / 16) ++ [(Nat.digitChar (n % 16)).toNat.toUInt16] := by
  rw [hexText, Nat.toDigits_eq_if (by decide)]
  split
  · rfl
  · rw [map_append]
    rfl

theorem hexText_ne_nil (n : Nat) : hexText n ≠ [] := by
  rw [hexText_eq]
  split
  · simp
  · simp

theorem hexText_hex (n : Nat) : (hexText n).all isHexDigit = true := by
  induction n using Nat.strongRecOn with
  | ind n ih =>
    rw [hexText_eq]
    split
    · next small => simp [isHexDigit, hexUnit_value n small]
    · next large =>
      rw [all_append, ih (n / 16) (by omega)]
      simp [isHexDigit, hexUnit_value (n % 16) (by omega)]

theorem hexNumber_hexText (n : Nat) : hexNumber (hexText n) = n := by
  induction n using Nat.strongRecOn with
  | ind n ih =>
    rw [hexText_eq]
    split
    · next small => simp [hexNumber, hexUnit_value n small]
    · next large =>
      have earlier := ih (n / 16) (by omega)
      unfold hexNumber at earlier ⊢
      rw [foldl_append, earlier]
      simp only [foldl_cons, foldl_nil, hexUnit_value (n % 16) (by omega),
        Option.getD_some]
      omega

theorem not_mem_of_hex (all : t.all isHexDigit = true) (other : isHexDigit u = false) : u ∉ t :=
  fun mem => by
    rw [all_eq_true.mp all u mem] at other
    cases other

theorem colon_not_mem_toString16 (n : Option ℤ) : colon ∉ toString16 n := by
  cases n with
  | none => decide
  | some n =>
    intro mem
    rcases mem_append.mp mem with sign | digit
    · split at sign
      · exact absurd (mem_singleton.mp sign) (by decide)
      · cases sign
    · exact not_mem_of_hex (hexText_hex n.natAbs) (by decide) digit

theorem head_toString16 (n : ℤ) : (toString16 (some n)).head? ≠ (toString16 none).head? := by
  have letter : (toString16 none).head? = some 0x4E := by decide
  rw [letter]
  change ((if n < 0 then [0x2D] else []) ++ hexText n.natAbs).head? ≠ some 0x4E
  split
  · simp
  · intro same
    have mem : (0x4E : UInt16) ∈ hexText n.natAbs := mem_of_mem_head? same
    exact not_mem_of_hex (hexText_hex n.natAbs) (by decide) mem

theorem toString16_injective {m n : Option ℤ} (same : toString16 m = toString16 n) : m = n := by
  cases m with
  | none =>
    cases n with
    | none => rfl
    | some n => exact absurd (congrArg List.head? same).symm (head_toString16 n)
  | some m =>
    cases n with
    | none => exact absurd (congrArg List.head? same) (head_toString16 m)
    | some n =>
      have minus (k : Nat) : (0x2D : UInt16) ∉ hexText k := not_mem_of_hex (hexText_hex k) (by decide)
      unfold toString16 at same
      simp only at same
      split at same
      · next negative =>
        split at same
        · have equal := congrArg hexNumber (append_cancel_left same)
          rw [hexNumber_hexText, hexNumber_hexText] at equal
          rw [Option.some.injEq]
          omega
        · have mem : (0x2D : UInt16) ∈ hexText n.natAbs := by
            rw [← nil_append (hexText n.natAbs), ← same]
            exact mem_cons_self
          exact absurd mem (minus _)
      · split at same
        · have mem : (0x2D : UInt16) ∈ hexText m.natAbs := by
            rw [← nil_append (hexText m.natAbs), same]
            exact mem_cons_self
          exact absurd mem (minus _)
        · have equal := congrArg hexNumber (append_cancel_left same)
          rw [hexNumber_hexText, hexNumber_hexText] at equal
          rw [Option.some.injEq]
          omega

theorem join_eq_intercalate (sep : Text) (parts : List Text) : join sep parts = sep.intercalate parts := by
  induction parts with
  | nil => rfl
  | cons part rest ih =>
    cases rest with
    | nil => simp [join]
    | cons next rest =>
      change part ++ sep ++ join sep (next :: rest) = _
      rw [ih, intercalate_cons_of_ne_nil (cons_ne_nil next rest)]

theorem prefixKey_injective {m n : List (Option ℤ)} (someM : m ≠ []) (someN : n ≠ [])
    (same : prefixKey m = prefixKey n) : m = n := by
  have free (l : List (Option ℤ)) : ∀ part ∈ l.map toString16, colon ∉ part := by
    intro part mem
    obtain ⟨v, -, rfl⟩ := mem_map.mp mem
    exact colon_not_mem_toString16 v
  have joined := append_cancel_right same
  rw [join_eq_intercalate, join_eq_intercalate] at joined
  have parts := congrArg (List.splitOn colon) joined
  rw [splitOn_intercalate colon (free m) (by simpa using someM),
    splitOn_intercalate colon (free n) (by simpa using someN)] at parts
  exact map_injective_iff.mpr (fun _ _ => toString16_injective) parts

theorem eq_digit (isDigit_ : isDigit u = true) : ∃ n < 10, u = digit n := by
  unfold isDigit at isDigit_
  simp only [Bool.and_eq_true, decide_eq_true_eq, UInt16.le_iff_toNat_le] at isDigit_
  refine ⟨u.toNat - 0x30, ?_, ?_⟩
  · have top := isDigit_.2
    simp at top
    omega
  · have low := isDigit_.1
    have top := isDigit_.2
    simp at low top
    rw [← UInt16.toNat_inj]
    unfold digit
    simp
    omega

/-- An octet is below 256 and written as its digits: tested on one text. -/
def octetReads (t : Text) : Bool :=
  !isOctet t || (decide (valueOf t < 256) && decide (digits (valueOf t) = t))

theorem octetReads_digits : ∀ i < 10, ∀ j < 10, ∀ k < 10, (octetReads [digit i] &&
    octetReads [digit i, digit j] && octetReads [digit i, digit j, digit k]) = true := by
  decide +kernel

theorem octetReads_spec (reads : octetReads t = true) (octet : isOctet t = true) :
    valueOf t < 256 ∧ digits (valueOf t) = t := by
  unfold octetReads at reads
  rw [octet] at reads
  simpa using reads

theorem octet_spec (octet : isOctet t = true) : valueOf t < 256 ∧ digits (valueOf t) = t := by
  match t with
  | [a] =>
    obtain ⟨i, lessI, rfl⟩ := eq_digit octet
    have reads := octetReads_digits i lessI 0 (by omega) 0 (by omega)
    simp only [Bool.and_eq_true] at reads
    exact octetReads_spec reads.1.1 octet
  | [a, b] =>
    have parts := octet
    simp only [isOctet, Bool.and_eq_true] at parts
    obtain ⟨i, lessI, rfl⟩ := eq_digit parts.1.2
    obtain ⟨j, lessJ, rfl⟩ := eq_digit parts.2
    have reads := octetReads_digits i lessI j lessJ 0 (by omega)
    simp only [Bool.and_eq_true] at reads
    exact octetReads_spec reads.1.2 octet
  | [a, b, c] =>
    have parts := octet
    simp only [isOctet, Bool.and_eq_true, Bool.or_eq_true, decide_eq_true_eq] at parts
    have digitA : isDigit a = true := by
      rcases parts with ⟨⟨rfl, -⟩, -⟩ | ⟨rfl, -⟩
      · decide
      · decide
    have digitB : isDigit b = true := by
      rcases parts with ⟨⟨-, h⟩, -⟩ | ⟨-, ⟨⟨-, h⟩, -⟩ | ⟨⟨rfl, -⟩, -⟩⟩
      · exact h
      · exact h
      · decide
    have digitC : isDigit c = true := by
      rcases parts with ⟨-, h⟩ | ⟨-, ⟨-, h⟩ | ⟨-, h⟩⟩
      · exact h
      · exact h
      · exact h
    obtain ⟨i, lessI, rfl⟩ := eq_digit digitA
    obtain ⟨j, lessJ, rfl⟩ := eq_digit digitB
    obtain ⟨k, lessK, rfl⟩ := eq_digit digitC
    have reads := octetReads_digits i lessI j lessJ k lessK
    simp only [Bool.and_eq_true] at reads
    exact octetReads_spec reads.2 octet
  | [] => cases octet
  | _ :: _ :: _ :: _ :: _ => cases octet

/-- The first six groups of an IPv4-mapped address. -/
def mappedPrefix : List Nat := [0, 0, 0, 0, 0, 0xFFFF]

/-- The IPv4 address in the last two groups. -/
def ipv4Text (values : List Nat) : Text :=
  let high := (values[6]?).getD 0
  let low := (values[7]?).getD 0
  join [dot] ([high / 256, high % 256, low / 256, low % 256].map digits)

theorem pair_octets {m n : Nat} (below : n < 256) :
    (m * 256 + n) / 256 = m ∧ (m * 256 + n) % 256 = n := by omega

theorem ipv4Text_dottedGroups (ipv4 : isIPv4 t = true) :
    ipv4Text (mappedPrefix ++ dottedGroups t) = t := by
  unfold isIPv4 at ipv4
  simp only [Bool.and_eq_true, decide_eq_true_eq] at ipv4
  obtain ⟨four, octets⟩ := ipv4
  have whole : List.intercalate [dot] (t.splitOn dot) = t := intercalate_splitOn dot
  unfold dottedGroups
  match parts : t.splitOn dot with
  | [a, b, c, d] =>
    rw [parts] at octets whole
    simp only [all_cons, all_nil, Bool.and_true, Bool.and_eq_true] at octets
    obtain ⟨octetA, octetB, octetC, octetD⟩ := octets
    obtain ⟨-, writtenA⟩ := octet_spec octetA
    obtain ⟨belowB, writtenB⟩ := octet_spec octetB
    obtain ⟨-, writtenC⟩ := octet_spec octetC
    obtain ⟨belowD, writtenD⟩ := octet_spec octetD
    have high := @pair_octets (valueOf a) (valueOf b) belowB
    have low := @pair_octets (valueOf c) (valueOf d) belowD
    rw [← join_eq_intercalate] at whole
    simp only [map_cons, map_nil]
    unfold ipv4Text
    change join [dot] ([(valueOf a * 256 + valueOf b) / 256, (valueOf a * 256 + valueOf b) % 256,
      (valueOf c * 256 + valueOf d) / 256, (valueOf c * 256 + valueOf d) % 256].map digits) = t
    rw [high.1, high.2, low.1, low.2]
    simp only [map_cons, map_nil, writtenA, writtenB, writtenC, writtenD]
    exact whole
  | [] | [_] | [_, _] | [_, _, _] | _ :: _ :: _ :: _ :: _ :: _ =>
    rw [parts] at four
    simp at four

theorem mem_join {sep : UInt16} (mem : u ∈ join [sep] parts) :
    u = sep ∨ ∃ part ∈ parts, u ∈ part := by
  induction parts with
  | nil => cases mem
  | cons part rest ih =>
    cases rest with
    | nil => exact .inr ⟨part, mem_cons_self, mem⟩
    | cons next rest =>
      rcases mem_append.mp mem with front | later
      · rcases mem_append.mp front with here | between
        · exact .inr ⟨part, mem_cons_self, here⟩
        · exact .inl (mem_singleton.mp between)
      · rcases ih later with same | ⟨other, inRest, inside⟩
        · exact .inl same
        · exact .inr ⟨other, mem_cons_of_mem part inRest, inside⟩

theorem digit_or_dot (all : ∀ part ∈ parts, part.all isDigit = true) (mem : u ∈ join [dot] parts) :
    u = dot ∨ isDigit u = true := by
  rcases mem_join mem with same | ⟨part, inParts, inside⟩
  · exact .inl same
  · exact .inr (all_eq_true.mp (all part inParts) u inside)

theorem colon_not_mem_ipv4Text (values : List Nat) : colon ∉ ipv4Text values := by
  intro mem
  have all : ∀ part ∈ [(values[6]?).getD 0 / 256, (values[6]?).getD 0 % 256,
      (values[7]?).getD 0 / 256, (values[7]?).getD 0 % 256].map digits, part.all isDigit = true := by
    intro part inParts
    obtain ⟨n, -, rfl⟩ := mem_map.mp inParts
    exact all_eq_true.mpr (isDigit_of_mem_digits n)
  rcases digit_or_dot all mem with same | isDigit_
  · exact absurd same (by decide)
  · exact absurd isDigit_ (by decide)

theorem colon_mem_prefixKey (values : List (Option ℤ)) : colon ∈ prefixKey values :=
  mem_append_right _ (by decide)

theorem foldCase_eq (same : foldCase u = v) :
    u = v ∨ (isUpperLetter u = true ∧ v = u + 0x20) := by
  unfold foldCase at same
  split at same
  · next upper => exact .inr ⟨upper, same.symm⟩
  · exact .inl same

theorem upper_bounds (upper : isUpperLetter u = true) :
    0x41 ≤ u.toNat ∧ u.toNat ≤ 0x5A := by
  unfold isUpperLetter at upper
  simpa [UInt16.le_iff_toNat_le] using upper

theorem foldCase_colon (same : foldCase u = 0x3A) : u = colon := by
  rcases foldCase_eq same with same | ⟨upper, same⟩
  · exact same
  · have bounds := upper_bounds upper
    have values := congrArg UInt16.toNat same
    rw [UInt16.toNat_add] at values
    simp at values
    omega

theorem foldCase_f (same : foldCase u = 0x66) : u = 0x66 ∨ u = 0x46 := by
  rcases foldCase_eq same with same | ⟨upper, same⟩
  · exact .inl same
  · have bounds := upper_bounds upper
    have values := congrArg UInt16.toNat same
    rw [UInt16.toNat_add] at values
    simp at values
    right
    rw [← UInt16.toNat_inj]
    simp
    omega

theorem mapped_spec (found : mapped t = some rest) :
    (∃ four : Text, four.length = 4 ∧ (∀ u ∈ four, u = 0x66 ∨ u = 0x46) ∧
      t = colon :: colon :: (four ++ colon :: rest)) ∧
      ∀ part ∈ rest.splitOn dot, part.all isDigit = true := by
  unfold mapped at found
  simp only at found
  split at found
  · next conditions =>
    obtain ⟨front, -, digits_⟩ := conditions
    obtain rfl := Option.some.inj found
    constructor
    · have literal : (js "::ffff:").map foldCase = [0x3A, 0x3A, 0x66, 0x66, 0x66, 0x66, 0x3A] := by
        decide
      unfold startsFolded at front
      rw [decide_eq_true_eq, literal] at front
      have seven : (js "::ffff:").length = 7 := by decide
      rw [seven] at front
      match t, front with
      | a :: b :: c :: d :: e :: f :: g :: rest, front =>
        simp only [take_succ_cons, take_zero, map_cons, map_nil,
          List.cons.injEq, and_true] at front
        obtain ⟨h1, h2, h3, h4, h5, h6, h7⟩ := front
        refine ⟨[c, d, e, f], rfl, ?_, ?_⟩
        · simp only [forall_mem_cons]
          exact ⟨foldCase_f h3, foldCase_f h4, foldCase_f h5, foldCase_f h6, by simp⟩
        · rw [foldCase_colon h1, foldCase_colon h2, foldCase_colon h7]
          rfl
    · intro part mem
      have both := all_eq_true.mp digits_ part mem
      rw [Bool.and_eq_true] at both
      exact both.2
  · cases found

theorem mem_join_splitOn (sep : UInt16) (t : Text) : join [sep] (t.splitOn sep) = t := by
  rw [join_eq_intercalate]
  exact intercalate_splitOn sep

theorem groupsOf_dotted (ipv4 : isIPv4 t = true) :
    groupsOf [t] = some (dottedGroups t) := by
  have four : (t.splitOn dot).length = 4 := by
    unfold isIPv4 at ipv4
    simp only [Bool.and_eq_true, decide_eq_true_eq] at ipv4
    exact ipv4.1
  have notGroup : ¬ isGroup t = true := by
    intro group
    unfold isGroup at group
    rw [Bool.and_eq_true] at group
    rw [splitOn_eq_singleton (not_mem_of_hex group.2 (by decide))] at four
    cases four
  unfold groupsOf
  simp only
  rw [if_neg notGroup, if_pos ipv4]

theorem ipv6Groups_mapped (found : mapped t = some rest) (ipv4 : isIPv4 rest = true) :
    ipv6Groups t = some (mappedPrefix ++ dottedGroups rest) := by
  obtain ⟨⟨four, length, letters, rfl⟩, digits_⟩ := mapped_spec found
  have units (u : UInt16) (mem : u ∈ rest) : u = dot ∨ isDigit u = true := by
    rw [← mem_join_splitOn dot rest] at mem
    exact digit_or_dot digits_ mem
  have free (u : UInt16) (notDot : u ≠ dot) (notDigit : isDigit u = false) : u ∉ rest := by
    intro mem
    rcases units u mem with same | isDigit_
    · exact notDot same
    · rw [notDigit] at isDigit_
      cases isDigit_
  have noColon : colon ∉ rest := free colon (by decide) (by decide)
  have noPercent : percent ∉ rest := free percent (by decide) (by decide)
  have fourFree (u : UInt16) (notLower : u ≠ 0x66) (notUpper : u ≠ 0x46) : u ∉ four := by
    intro mem
    rcases letters u mem with same | same
    · exact notLower same
    · exact notUpper same
  have unzoned : ∀ u ∈ colon :: colon :: (four ++ colon :: rest), decide (u ≠ percent) = true := by
    intro u mem
    rw [decide_eq_true_eq]
    rintro rfl
    simp only [mem_cons, mem_append] at mem
    rcases mem with same | same | inFour | same | inRest
    · exact absurd same (by decide)
    · exact absurd same (by decide)
    · exact fourFree percent (by decide) (by decide) inFour
    · exact absurd same (by decide)
    · exact noPercent inRest
  have address : beforeZone (colon :: colon :: (four ++ colon :: rest)) =
      colon :: colon :: (four ++ colon :: rest) := takeWhile_eq_self_iff.mpr unzoned
  have zone : zoneOf (colon :: colon :: (four ++ colon :: rest)) = [] :=
    dropWhile_eq_nil_iff.mpr unzoned
  have cut : cutDouble (colon :: colon :: (four ++ colon :: rest)) =
      some ([], four ++ colon :: rest) := by
    unfold cutDouble
    simp
  have split : pieces (four ++ colon :: rest) = [four, rest] := by
    unfold pieces
    rw [if_neg (by simp), splitOn_append_cons_self_of_not_mem
      (fourFree colon (by decide) (by decide)), splitOn_eq_singleton noColon]
  have hex : isGroup four = true ∧ hexNumber four = 0xFFFF := by
    match four, length, letters with
    | [a, b, c, d], _, letters =>
      simp only [forall_mem_cons] at letters
      obtain ⟨rfl | rfl, rfl | rfl, rfl | rfl, rfl | rfl, -⟩ := letters
      all_goals decide
  have parsed : groupsOf [four, rest] = some (0xFFFF :: dottedGroups rest) := by
    unfold groupsOf
    simp only
    rw [if_pos hex.1, groupsOf_dotted ipv4, hex.2]
    rfl
  have two := length_dottedGroups ipv4
  unfold ipv6Groups
  rw [zone, if_pos (show isZone [] = true from rfl), address]
  unfold addressGroups
  rw [cut]
  simp only [split, parsed]
  have head : hexGroups (pieces []) = some [] := rfl
  rw [head]
  simp only [length_nil, length_cons, two]
  rfl

def IsMapped (values : List Nat) : Prop := values.take 6 = mappedPrefix

instance (values : List Nat) : Decidable (IsMapped values) :=
  inferInstanceAs (Decidable (_ = mappedPrefix))

/-- The key that the address should get: its IPv4 address when it is mapped, else its `/64`. -/
def clientKey (values : List Nat) : Text :=
  if IsMapped values then ipv4Text values else prefixKey ((values.take 4).map asNumber)

/-- The spelling that the expression for mapped addresses recognises. -/
def Dotted (t : Text) : Prop := ∃ rest, mapped t = some rest ∧ isIPv4 rest = true

/-- A mapped address is spelled `::ffff:` and its IPv4 address, without a zone; in any other
address the pieces counted after `::` agree with the groups that stand there. -/
def WellSpelled (t : Text) (values : List Nat) : Prop :=
  if IsMapped values then Dotted t else Spaced t values

theorem isIP_four_iff (t : Text) : isIP t = 4 ↔ isIPv4 t = true := by
  unfold isIP
  split
  · next ipv4 => simp [ipv4]
  · next other =>
    split
    · simp [other]
    · simp [other]

theorem limiterKey_cases (accepted : isIP t = 6) :
    (∃ rest, mapped t = some rest ∧ isIPv4 rest = true ∧ limiterKey t = rest) ∨
      (¬ Dotted t ∧ limiterKey t = prefixKey (((groups t).take 4).map parseInt16)) := by
  unfold limiterKey
  rw [if_neg (by simp [accepted])]
  cases found : mapped t with
  | none => exact .inr ⟨fun ⟨_, same, _⟩ => (by cases found.symm.trans same), rfl⟩
  | some rest =>
    by_cases ipv4 : isIPv4 rest = true
    · refine .inl ⟨rest, rfl, ipv4, ?_⟩
      simp [Option.filter, (isIP_four_iff rest).mpr ipv4]
    · refine .inr ⟨?_, ?_⟩
      · rintro ⟨other, same, isFour⟩
        obtain rfl := Option.some.inj (found.symm.trans same)
        exact ipv4 isFour
      · have notFour : isIP rest ≠ 4 := fun h => ipv4 ((isIP_four_iff rest).mp h)
        simp [Option.filter, notFour]

theorem length_ipv6Groups (accepted : ipv6Groups t = some values) :
    values.length = 8 := by
  unfold ipv6Groups addressGroups at accepted
  split at accepted
  · split at accepted
    · exact of_decide_eq_true (Option.filter_eq_some_iff.mp accepted).2
    · split at accepted
      · split at accepted
        · obtain rfl := Option.some.inj accepted
          simp only [length_append, length_replicate]
          omega
        · cases accepted
      · cases accepted
  · cases accepted

theorem topValues_ne_nil (accepted : ipv6Groups t = some values) :
    (values.take 4).map asNumber ≠ [] := by
  have eight := length_ipv6Groups accepted
  cases values with
  | nil => cases eight
  | cons n values => exact cons_ne_nil _ _

theorem groups_ne_nil (some_ : t ≠ []) : groups t ≠ [] := by
  unfold groups splitTwo
  cases cut : cutDouble t with
  | none =>
    simp only [Option.isSome_none, Bool.false_eq_true, if_false]
    rw [pieces, if_neg some_]
    exact splitOn_ne_nil colon t
  | some halves =>
    simp only [Option.isSome_some, if_true]
    intro empty
    have lengths := congrArg List.length empty
    simp only [length_append, length_replicate, length_nil] at lengths
    omega

theorem readings_ne_nil (some_ : t ≠ []) :
    ((groups t).take 4).map parseInt16 ≠ [] := by
  cases parts : groups t with
  | nil => exact absurd parts (groups_ne_nil some_)
  | cons part rest => exact cons_ne_nil _ _

theorem limiterKey_iff (isSix : isIP t = 6) (accepted : ipv6Groups t = some values) :
    limiterKey t = clientKey values ↔ WellSpelled t values := by
  unfold clientKey WellSpelled
  rcases limiterKey_cases isSix with ⟨rest, found, ipv4, key⟩ | ⟨other, key⟩
  · have same := Option.some.inj ((ipv6Groups_mapped found ipv4).symm.trans accepted)
    have isMapped : IsMapped values := by
      rw [← same]
      rfl
    rw [if_pos isMapped, if_pos isMapped, key, ← same, ipv4Text_dottedGroups ipv4]
    exact ⟨fun _ => ⟨rest, found, ipv4⟩, fun _ => rfl⟩
  · rw [key]
    split
    · constructor
      · intro same
        have mem := colon_mem_prefixKey (((groups t).take 4).map parseInt16)
        rw [same] at mem
        exact absurd mem (colon_not_mem_ipv4Text values)
      · exact fun dotted => absurd dotted other
    · rw [← readings_iff accepted]
      constructor
      · intro same
        apply prefixKey_injective (readings_ne_nil _) (topValues_ne_nil accepted) same
        rintro rfl
        cases isSix
      · intro same
        rw [same]

theorem hexNumber_lt : hexNumber t < 16 ^ t.length := by
  induction t using List.reverseRecOn with
  | nil => decide
  | append_singleton t u ih =>
    have digit_ : (hexValue u).getD 0 < 16 := by
      unfold hexValue
      split
      · next h =>
        have bounds := h
        simp only [UInt16.le_iff_toNat_le] at bounds
        simp at bounds ⊢
        omega
      · split
        · next h =>
          have bounds := h
          simp only [UInt16.le_iff_toNat_le] at bounds
          simp at bounds ⊢
          omega
        · split
          · next h =>
            have bounds := h
            simp only [UInt16.le_iff_toNat_le] at bounds
            simp at bounds ⊢
            omega
          · decide
    unfold hexNumber at ih ⊢
    rw [foldl_append, length_append, length_singleton, Nat.pow_succ]
    simp only [foldl_cons, foldl_nil]
    omega

theorem hexNumber_group (group : isGroup t = true) : hexNumber t < 65536 := by
  unfold isGroup at group
  simp only [Bool.and_eq_true, decide_eq_true_eq] at group
  have below : 16 ^ t.length ≤ 16 ^ 4 := Nat.pow_le_pow_right (by decide) group.1.2
  exact Nat.lt_of_lt_of_le hexNumber_lt below

theorem dottedGroups_lt (ipv4 : isIPv4 t = true) : ∀ n ∈ dottedGroups t, n < 65536 := by
  unfold isIPv4 at ipv4
  simp only [Bool.and_eq_true, decide_eq_true_eq] at ipv4
  obtain ⟨-, octets⟩ := ipv4
  unfold dottedGroups
  split
  · next a b c d parts =>
    have below : ∀ n ∈ [a, b, c, d], n < 256 := by
      rw [← parts]
      intro n mem
      obtain ⟨part, inParts, rfl⟩ := mem_map.mp mem
      exact (octet_spec (all_eq_true.mp octets part inParts)).1
    simp only [forall_mem_cons] at below ⊢
    refine ⟨?_, ?_, by simp⟩
    · omega
    · omega
  · simp

theorem groupsOf_lt (parsed : groupsOf parts = some values) :
    ∀ n ∈ values, n < 65536 := by
  induction parts generalizing values with
  | nil =>
    obtain rfl := Option.some.inj parsed
    simp
  | cons part rest ih =>
    unfold groupsOf at parsed
    split at parsed
    · split at parsed
      · next group =>
        obtain rfl := Option.some.inj parsed
        simpa using hexNumber_group group
      · split at parsed
        · next ipv4 =>
          obtain rfl := Option.some.inj parsed
          exact dottedGroups_lt ipv4
        · cases parsed
    · split at parsed
      · next group =>
        obtain ⟨tail, value, rfl⟩ := Option.map_eq_some_iff.mp parsed
        exact forall_mem_cons.mpr ⟨hexNumber_group group, ih value⟩
      · cases parsed

theorem ipv6Groups_lt (accepted : ipv6Groups t = some values) :
    ∀ n ∈ values, n < 65536 := by
  unfold ipv6Groups addressGroups at accepted
  split at accepted
  · split at accepted
    · exact groupsOf_lt (Option.filter_eq_some_iff.mp accepted).1
    · split at accepted
      · next front back parsedHead parsedTail =>
        split at accepted
        · obtain rfl := Option.some.inj accepted
          have inFront : ∀ n ∈ front, n < 65536 := by
            unfold hexGroups at parsedHead
            split at parsedHead
            · next all =>
              obtain rfl := Option.some.inj parsedHead
              intro n mem
              obtain ⟨part, inParts, rfl⟩ := mem_map.mp mem
              exact hexNumber_group (all_eq_true.mp all part inParts)
            · cases parsedHead
          intro n mem
          rcases mem_append.mp mem with before | inBack
          · rcases mem_append.mp before with here | zero
            · exact inFront n here
            · rw [(mem_replicate.mp zero).2]
              decide
          · exact groupsOf_lt parsedTail n inBack
        · cases accepted
      · cases accepted
  · cases accepted

/-- All eight groups, without `::` and without a zone. -/
def plainText (values : List Nat) : Text := join [colon] (values.map hexText)

theorem length_hexText_le (below : n < 65536) : (hexText n).length ≤ 4 := by
  unfold hexText
  rw [length_map, Nat.length_toDigits_le_iff (by decide) (by decide)]
  exact below

theorem isGroup_hexText (below : n < 65536) : isGroup (hexText n) = true := by
  have short := length_hexText_le below
  have some_ := length_pos_iff.mpr (hexText_ne_nil n)
  unfold isGroup
  simp only [Bool.and_eq_true, decide_eq_true_eq]
  exact ⟨⟨some_, short⟩, hexText_hex n⟩

theorem groupsOf_hexText (below : ∀ n ∈ values, n < 65536) :
    groupsOf (values.map hexText) = some values := by
  induction values with
  | nil => rfl
  | cons n values ih =>
    obtain ⟨here, later⟩ := forall_mem_cons.mp below
    have tail := ih later
    rw [map_cons]
    unfold groupsOf
    split
    · next none_ =>
      rw [map_eq_nil_iff.mp none_, if_pos (isGroup_hexText here), hexNumber_hexText]
    · rw [if_pos (isGroup_hexText here), hexNumber_hexText, tail]
      rfl

theorem plainText_spec (eight : values.length = 8) (below : ∀ n ∈ values, n < 65536) :
    isIP (plainText values) = 6 ∧ ipv6Groups (plainText values) = some values ∧
      cutDouble (beforeZone (plainText values)) = none := by
  have some_ : values.map hexText ≠ [] := by
    intro none_
    rw [map_eq_nil_iff.mp none_] at eight
    cases eight
  have free (u : UInt16) (notHex : isHexDigit u = false) :
      ∀ part ∈ values.map hexText, u ∉ part := by
    intro part mem
    obtain ⟨n, -, rfl⟩ := mem_map.mp mem
    exact not_mem_of_hex (hexText_hex n) notHex
  have split : (plainText values).splitOn colon = values.map hexText := by
    rw [plainText, join_eq_intercalate]
    exact splitOn_intercalate colon (free colon (by decide)) some_
  have parsed := groupsOf_hexText below
  rw [← split] at parsed
  have uncut := uncut_of_groupsOf parsed
  have absent (u : UInt16) (notHex : isHexDigit u = false) (notColon : u ≠ colon) :
      u ∉ plainText values := by
    intro mem
    rcases mem_join mem with same | ⟨part, inParts, inside⟩
    · exact notColon same
    · exact free u notHex part inParts inside
  have unzoned : ∀ u ∈ plainText values, decide (u ≠ percent) = true := by
    intro u mem
    rw [decide_eq_true_eq]
    rintro rfl
    exact absent percent (by decide) (by decide) mem
  have address : beforeZone (plainText values) = plainText values :=
    takeWhile_eq_self_iff.mpr unzoned
  have zone : zoneOf (plainText values) = [] := dropWhile_eq_nil_iff.mpr unzoned
  have accepted : ipv6Groups (plainText values) = some values := by
    unfold ipv6Groups
    rw [zone, if_pos (show isZone [] = true from rfl), address]
    unfold addressGroups
    rw [uncut]
    simp only [parsed]
    simp [Option.filter, eight]
  have notFour : isIPv4 (plainText values) = false := by
    unfold isIPv4
    rw [splitOn_eq_singleton (absent dot (by decide) (by decide))]
    rfl
  refine ⟨?_, accepted, by rwa [address]⟩
  unfold isIP
  rw [notFour, accepted]
  rfl

/-- The spelling gets the IPv4 address of a mapped address as its key, and for any other
address the key of a well-spelled address exactly when the top 64 bits are shared. -/
def FollowsClient (t : Text) (values : List Nat) : Prop :=
  if IsMapped values then limiterKey t = ipv4Text values
  else ∀ s others, isIP s = 6 → ipv6Groups s = some others → ¬ IsMapped others →
    WellSpelled s others → (limiterKey t = limiterKey s ↔ values.take 4 = others.take 4)

theorem asNumber_injective : Function.Injective asNumber := by
  intro m n same
  unfold asNumber at same
  exact Int.ofNat.inj (Option.some.inj same)

theorem followsClient_iff (isSix : isIP t = 6) (accepted : ipv6Groups t = some values) :
    FollowsClient t values ↔ WellSpelled t values := by
  have key := limiterKey_iff isSix accepted
  unfold clientKey at key
  unfold FollowsClient
  split
  · next mapped_ =>
    rw [if_pos mapped_] at key
    exact key
  · next unmapped =>
    rw [if_neg unmapped] at key
    have wellKey (s : Text) (others : List Nat) (isSix' : isIP s = 6)
        (accepted' : ipv6Groups s = some others) (unmapped' : ¬ IsMapped others)
        (well : WellSpelled s others) : limiterKey s = prefixKey ((others.take 4).map asNumber) := by
      have own := (limiterKey_iff isSix' accepted').mpr well
      rwa [clientKey, if_neg unmapped'] at own
    constructor
    · intro follows
      obtain ⟨plainSix, plain, uncut⟩ := plainText_spec (length_ipv6Groups accepted)
        (ipv6Groups_lt accepted)
      have well : WellSpelled (plainText values) values := by
        unfold WellSpelled
        rw [if_neg unmapped]
        intro head tail front back cut
        rw [uncut] at cut
        cases cut
      have same := (follows _ values plainSix plain unmapped well).mpr rfl
      rw [wellKey _ values plainSix plain unmapped well] at same
      exact key.mp same
    · intro well s others isSix' accepted' unmapped' well'
      rw [wellKey t values isSix accepted unmapped well,
        wellKey s others isSix' accepted' unmapped' well']
      constructor
      · intro same
        have numbers := prefixKey_injective (topValues_ne_nil accepted)
          (topValues_ne_nil accepted') same
        exact map_injective_iff.mpr asNumber_injective numbers
      · intro same
        rw [same]

/-- A spelling that `isIP` accepts gets the key of its client exactly when it is well
spelled, and exactly then its key tells it apart from other addresses by its top 64 bits. -/
theorem limiter_keys (t : Text) (isSix : isIP t = 6) :
    ∃ values, ipv6Groups t = some values ∧
      (limiterKey t = clientKey values ↔ WellSpelled t values) ∧
      (FollowsClient t values ↔ WellSpelled t values) := by
  have accepted : (ipv6Groups t).isSome = true := by
    unfold isIP at isSix
    split at isSix
    · cases isSix
    · split at isSix
      · next some_ => exact some_
      · cases isSix
  obtain ⟨values, parsed⟩ := Option.isSome_iff_exists.mp accepted
  exact ⟨values, parsed, limiterKey_iff isSix parsed, followsClient_iff isSix parsed⟩

theorem limiter_keys_sample : isIP (js "2001:DB8:0:7::1") = 6 ∧
    ∃ values, ipv6Groups (js "2001:DB8:0:7::1") = some values ∧
      (limiterKey (js "2001:DB8:0:7::1") = clientKey values ↔
        WellSpelled (js "2001:DB8:0:7::1") values) ∧
      (FollowsClient (js "2001:DB8:0:7::1") values ↔ WellSpelled (js "2001:DB8:0:7::1") values) :=
  ⟨by decide, limiter_keys _ (by decide)⟩

/-- One address in two spellings gets two keys, two `/64` share one, and an IPv4-mapped
address in hexadecimal groups is keyed as a `/64`. -/
theorem spellings_miskeyed :
    (ipv6Groups (js "::1:2:3:4:1.2.3.4") = ipv6Groups (js "0:0:1:2:3:4:102:304") ∧
      isIP (js "::1:2:3:4:1.2.3.4") = 6 ∧
      limiterKey (js "::1:2:3:4:1.2.3.4") ≠ limiterKey (js "0:0:1:2:3:4:102:304")) ∧
    (isIP (js "::ffff:c0a8:101") = 6 ∧
      ipv6Groups (js "::ffff:c0a8:101") = some [0, 0, 0, 0, 0, 0xFFFF, 0xC0A8, 0x101] ∧
      limiterKey (js "::ffff:c0a8:101") ≠ js "192.168.1.1") := by
  decide

end Ultrathink.Guarantees.LimiterKeys
