import Ultrathink.Library.JsonText

/-!
# Limiter keys

`limiterKey` of `auth/auth.ts`. The platform's `isIP` is written out from its documented
grammar: an IPv4 address is four decimal octets without leading zeros; an IPv6 address has
eight groups of up to four hexadecimal digits, of which the last two may be an IPv4 address
and one run may be written as `::`; a zone of letters, digits and `-.:` may follow a `%`.
The same reader gives the groups that an address stands for.
-/

namespace Ultrathink.Source.Auth.LimiterKey

open Library JsText JsNumber
open Library.JsonText (hexValue)

def colon : UInt16 := 0x3A

def dot : UInt16 := 0x2E

def percent : UInt16 := 0x25

def isHexDigit (u : UInt16) : Bool := (hexValue u).isSome

def hexNumber (t : Text) : Nat := t.foldl (fun acc u => acc * 16 + (hexValue u).getD 0) 0

/-- The text before the first `::` and what follows that. -/
def cutDouble : Text → Option (Text × Text)
  | [] => none
  | u :: rest =>
    match rest with
    | [] => none
    | v :: after =>
      if u = colon ∧ v = colon then some ([], after)
      else (cutDouble rest).map fun (before, after) => (u :: before, after)

/-- The pieces between colons; an empty text has none. -/
def pieces (t : Text) : List Text := if t = [] then [] else t.splitOn colon

/-- 0 to 255 without leading zeros. -/
def isOctet : Text → Bool
  | [a] => isDigit a
  | [a, b] => a ≠ 0x30 && isDigit a && isDigit b
  | [a, b, c] =>
    (a = 0x31 && isDigit b && isDigit c) ||
      (a = 0x32 && ((b < 0x35 && isDigit b && isDigit c) || (b = 0x35 && c < 0x36 && isDigit c)))
  | _ => false

def isIPv4 (t : Text) : Bool := (t.splitOn dot).length = 4 && (t.splitOn dot).all isOctet

/-- The two groups that an IPv4 address stands for. -/
def dottedGroups (t : Text) : List Nat :=
  match (t.splitOn dot).map valueOf with
  | [a, b, c, d] => [a * 256 + b, c * 256 + d]
  | _ => []

def isGroup (t : Text) : Bool := 1 ≤ t.length && t.length ≤ 4 && t.all isHexDigit

/-- Groups without a dotted part. -/
def hexGroups (parts : List Text) : Option (List Nat) :=
  if parts.all isGroup then some (parts.map hexNumber) else none

/-- Groups whose last two may be dotted. -/
def groupsOf : List Text → Option (List Nat)
  | [] => some []
  | part :: rest =>
    match rest with
    | [] =>
      if isGroup part then some [hexNumber part]
      else if isIPv4 part then some (dottedGroups part)
      else none
    | _ :: _ => if isGroup part then (groupsOf rest).map (hexNumber part :: ·) else none

/-- The eight groups of an IPv6 address without a zone; `::` stands for one group at least. -/
def addressGroups (t : Text) : Option (List Nat) :=
  match cutDouble t with
  | none => (groupsOf (t.splitOn colon)).filter fun groups => groups.length = 8
  | some (head, tail) =>
    match hexGroups (pieces head), groupsOf (pieces tail) with
    | some front, some back =>
      if front.length + back.length ≤ 7 then
        some (front ++ List.replicate (8 - front.length - back.length) 0 ++ back)
      else none
    | _, _ => none

def isZoneUnit (u : UInt16) : Bool :=
  isDigit u || isUpperLetter u || isLowerLetter u || u = 0x2D || u = dot || u = colon

/-- Empty, or a `%` with at least one unit after it. -/
def isZone (t : Text) : Bool :=
  match t with
  | [] => true
  | _ :: name => name ≠ [] && name.all isZoneUnit

def beforeZone (t : Text) : Text := t.takeWhile (· ≠ percent)

def zoneOf (t : Text) : Text := t.dropWhile (· ≠ percent)

/-- The groups of an IPv6 address, none for any other text. -/
def ipv6Groups (t : Text) : Option (List Nat) :=
  if isZone (zoneOf t) then addressGroups (beforeZone t) else none

def isIP (t : Text) : Nat :=
  if isIPv4 t then 4 else if (ipv6Groups t).isSome then 6 else 0

/-- Group 1 of `/^::ffff:(\d+\.\d+\.\d+\.\d+)$/i`. -/
def mapped (address : Text) : Option Text :=
  let rest := address.drop 7
  if startsFolded (js "::ffff:") address ∧ (rest.splitOn dot).length = 4 ∧
      (rest.splitOn dot).all (fun part => part ≠ [] && part.all isDigit) then some rest
  else none

/-- `Number.parseInt(t, 16)`, none for `NaN`. The platform rounds an integer from 2^53 on,
which is no group either way. -/
def parseInt16 (t : Text) : Option ℤ :=
  let t := t.dropWhile isSpace
  let negative := t.head? = some 0x2D
  let t := if t.head? = some 0x2D ∨ t.head? = some 0x2B then t.drop 1 else t
  let t := if t.head? = some 0x30 ∧ (t[1]? = some 0x78 ∨ t[1]? = some 0x58) then t.drop 2 else t
  let digits := t.takeWhile isHexDigit
  if digits = [] then none
  else some (if negative then -(hexNumber digits : ℤ) else hexNumber digits)

def hexText (n : Nat) : Text := (Nat.toDigits 16 n).map fun c => c.toNat.toUInt16

/-- `n.toString(16)` -/
def toString16 : Option ℤ → Text
  | none => js "NaN"
  | some n => (if n < 0 then [0x2D] else []) ++ hexText n.natAbs

/-- `address.split("::", 2)`, an absent part read as empty. -/
def splitTwo (address : Text) : Text × Text :=
  match cutDouble address with
  | none => (address, [])
  | some (head, rest) => (head, (cutDouble rest).elim rest Prod.fst)

def tailGroups (address : Text) : List Text :=
  if (cutDouble address).isSome then pieces (splitTwo address).2 else []

def groups (address : Text) : List Text :=
  let head := pieces (splitTwo address).1
  if (cutDouble address).isSome then
    head ++ List.replicate (8 - head.length - (tailGroups address).length) [0x30] ++
      tailGroups address
  else head

/-- The text of a `/64`. -/
def prefixKey (values : List (Option ℤ)) : Text :=
  join [colon] (values.map toString16) ++ js "::/64"

def limiterKey (address : Text) : Text :=
  if isIP address ≠ 6 then address
  else match (mapped address).filter fun rest => isIP rest = 4 with
    | some rest => rest
    | none => prefixKey (((groups address).take 4).map parseInt16)

end Ultrathink.Source.Auth.LimiterKey
