import Ultrathink.Library.Utf8

/-!
# Escaping and unescaping

An escaper replaces units one by one; a reader goes over a text token by token, and says
for the unit it stands at what the token means and how many units more it takes. A
text that is escaped unit by unit is read back unit by unit.
-/

namespace Ultrathink.Library.JsText

open List

/-- `replace` with one global one-unit pattern after the other. -/
def replaceAll (pairs : List (UInt16 × Text)) (t : Text) : Text :=
  pairs.foldl (fun t pair => replaceUnit pair.1 pair.2 t) t

theorem replaceAll_cons (u : UInt16) (by_ : Text) (pairs : List (UInt16 × Text)) (t : Text) :
    replaceAll ((u, by_) :: pairs) t = replaceAll pairs (replaceUnit u by_ t) := rfl

theorem replaceAll_pairs (pairs more : List (UInt16 × Text)) (t : Text) :
    replaceAll (pairs ++ more) t = replaceAll more (replaceAll pairs t) := foldl_append

theorem replaceAll_append (pairs : List (UInt16 × Text)) (s t : Text) :
    replaceAll pairs (s ++ t) = replaceAll pairs s ++ replaceAll pairs t := by
  induction pairs generalizing s t with
  | nil => rfl
  | cons pair pairs ih =>
    obtain ⟨u, by_⟩ := pair
    rw [replaceAll_cons, replaceAll_cons, replaceAll_cons, replaceUnit, flatMap_append]
    exact ih _ _

@[simp] theorem replaceAll_nil (pairs : List (UInt16 × Text)) : replaceAll pairs [] = [] := by
  induction pairs with
  | nil => rfl
  | cons pair pairs ih => exact ih

theorem replaceAll_unit (pairs : List (UInt16 × Text)) (u : UInt16) (t : Text) :
    replaceAll pairs (u :: t) = replaceAll pairs [u] ++ replaceAll pairs t :=
  replaceAll_append pairs [u] t

variable {u : UInt16} {units rest t : Text} {pairs : List (UInt16 × Text)}

theorem replaceAll_other (other : u ∉ pairs.map Prod.fst) : replaceAll pairs [u] = [u] := by
  induction pairs with
  | nil => rfl
  | cons pair pairs ih =>
    obtain ⟨v, by_⟩ := pair
    simp only [map_cons, mem_cons, not_or] at other
    rw [replaceAll_cons, replaceUnit, flatMap_singleton, if_neg other.1]
    exact ih other.2

/-- The first unit stays, or gives way to the unit that every replacement starts with. -/
theorem head?_replaceAll {b : UInt16}
    (escapes : ∀ u ∈ pairs.map Prod.fst, (replaceAll pairs [u]).head? = some b) (u : UInt16)
    (t : Text) :
    (replaceAll pairs (u :: t)).head? = some (if u ∈ pairs.map Prod.fst then b else u) := by
  rw [replaceAll_unit]
  split
  · next known =>
    obtain ⟨rest, form⟩ := head?_eq_some_iff.mp (escapes u known)
    rw [form]
    rfl
  · next other =>
    rw [replaceAll_other other]
    rfl

/-- What the token at a unit means and how many units it takes behind that one. -/
abbrev Reader := UInt16 → Text → Option (Text × Nat)

/-- The meaning of a text, past its first `skip` units. -/
def readFrom (reader : Reader) : Nat → Text → Option Text
  | _, [] => some []
  | skip + 1, _ :: rest => readFrom reader skip rest
  | 0, u :: rest =>
    match reader u rest with
    | none => none
    | some (units, skip) => (readFrom reader skip rest).map (units ++ ·)

def unescape (reader : Reader) (t : Text) : Option Text := readFrom reader 0 t

variable {reader : Reader}

@[simp] theorem unescape_nil : unescape reader [] = some [] := rfl

theorem readFrom_append (token rest : Text) :
    readFrom reader token.length (token ++ rest) = unescape reader rest := by
  induction token with
  | nil => rfl
  | cons u token ih => exact ih

theorem unescape_token {u : UInt16} {token rest units : Text}
    (read : reader u (token ++ rest) = some (units, token.length)) :
    unescape reader (u :: (token ++ rest)) = (unescape reader rest).map (units ++ ·) := by
  rw [unescape, readFrom, read]
  simp only [readFrom_append]

theorem unescape_unit (read : reader u rest = some (units, 0)) :
    unescape reader (u :: rest) = (unescape reader rest).map (units ++ ·) :=
  @unescape_token reader u [] rest units read

theorem unescape_stuck (read : reader u rest = none) :
    unescape reader (u :: rest) = none := by
  rw [unescape, readFrom, read]

theorem unescape_head {v : UInt16} {whole : Text} {skip : Nat}
    (read : reader u rest = some (v :: units, skip))
    (all : unescape reader (u :: rest) = some whole) : whole.head? = some v := by
  rw [unescape, readFrom, read] at all
  obtain ⟨later, -, rfl⟩ := Option.map_eq_some_iff.mp all
  rfl

theorem unescape_ne {v w : UInt16} {skip : Nat} (read : reader u rest = some (v :: units, skip))
    (other : v ≠ w) :
    unescape reader (u :: rest) ≠ some (w :: t) := by
  intro all
  have head := unescape_head read all
  exact other (Option.some.inj head).symm

theorem unescape_forall (P : UInt16 → Prop)
    (each : ∀ u rest units skip, reader u rest = some (units, skip) → ∀ v ∈ units, P v) {s : Text}
    (all : unescape reader t = some s) : ∀ v ∈ s, P v := by
  have from_ : ∀ (t : Text) (skip : Nat) (s : Text), readFrom reader skip t = some s →
      ∀ v ∈ s, P v := by
    intro t
    induction t with
    | nil =>
      intro skip s all
      rw [readFrom] at all
      cases all
      exact fun v mem => absurd mem not_mem_nil
    | cons u rest ih =>
      intro skip s all
      cases skip with
      | succ skip => exact ih skip s all
      | zero =>
        rw [readFrom] at all
        split at all
        · cases all
        · rename_i units skip read
          obtain ⟨later, read', rfl⟩ := Option.map_eq_some_iff.mp all
          intro v mem
          rcases mem_append.mp mem with first | last
          · exact each u rest units skip read v first
          · exact ih skip later read' v last
  exact from_ t 0 s all

/-- A token that means `units` wherever it stands. -/
def Reads (reader : Reader) (token units : Text) : Prop :=
  ∀ rest, unescape reader (token ++ rest) = (unescape reader rest).map (units ++ ·)

theorem reads_token {token : Text}
    (read : ∀ rest, reader u (token ++ rest) = some (units, token.length)) :
    Reads reader (u :: token) units := fun rest => unescape_token (read rest)

theorem reads_unit (read : ∀ rest, reader u rest = some (units, 0)) :
    Reads reader [u] units := fun rest => unescape_unit (read rest)

theorem Reads.eq_iff {token : Text} (reads : Reads reader token [u]) (rest t : Text) :
    unescape reader (token ++ rest) = some (u :: t) ↔ unescape reader rest = some t := by
  rw [reads rest]
  simp [Option.map_eq_some_iff]

theorem unescape_flatMap {f : UInt16 → Text} {meaning : UInt16 → Text}
    (each : ∀ u ∈ t, Reads reader (f u) (meaning u)) :
    unescape reader (t.flatMap f) = some (t.flatMap meaning) := by
  induction t with
  | nil => rfl
  | cons u t ih =>
    have later := ih fun v mem => each v (mem_cons_of_mem u mem)
    rw [flatMap_cons, each u mem_cons_self, later]
    rfl

theorem replaceAll_eq_flatMap (pairs : List (UInt16 × Text)) (t : Text) :
    replaceAll pairs t = t.flatMap fun u => replaceAll pairs [u] := by
  induction t with
  | nil => rw [replaceAll_nil, flatMap_nil]
  | cons u t ih => rw [replaceAll_unit, ih, flatMap_cons]

/-- An escaped text is read back when every replacement is a token for its unit and every
other unit of the text stands for itself. -/
theorem unescape_replaceAll
    (replaced : ∀ u ∈ pairs.map Prod.fst, Reads reader (replaceAll pairs [u]) [u])
    (other : ∀ u ∈ t, u ∉ pairs.map Prod.fst → Reads reader [u] [u]) :
    unescape reader (replaceAll pairs t) = some t := by
  have each : ∀ u ∈ t, Reads reader (replaceAll pairs [u]) [u] := by
    intro u mem
    by_cases known : u ∈ pairs.map Prod.fst
    · exact replaced u known
    · rw [replaceAll_other known]
      exact other u mem known
  rw [replaceAll_eq_flatMap, unescape_flatMap each, flatMap_singleton']

/-- What `encodeURIComponent` leaves as it is. -/
def isUnreserved (u : UInt16) : Bool :=
  isUpperLetter u || isLowerLetter u || isDigit u || (js "-_.!~*'()").contains u

def upperHexDigit (n : Nat) : UInt16 := if n < 10 then (0x30 + n).toUInt16 else (0x37 + n).toUInt16

/-- A lone surrogate is a `URIError`. -/
def encodeURIComponent (t : Text) : Except Text Text :=
  if paired t then
    .ok ((toUtf8 t).flatMap fun b =>
      if isUnreserved b.toUInt16 then [b.toUInt16]
      else [0x25, upperHexDigit (b.toNat / 16), upperHexDigit (b.toNat % 16)])
  else .error (js "URI malformed")

end Ultrathink.Library.JsText
