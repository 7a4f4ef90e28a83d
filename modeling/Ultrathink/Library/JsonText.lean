import Ultrathink.Library.Json
import Ultrathink.Library.JsNumber

/-!
# JSON texts

`JSON.parse` on UTF-16 text. A reader takes what it reads off the front of a text and gives
the rest.
-/

namespace Ultrathink.Library.JsonText

open JsText JsNumber

abbrev Value := Json Number

def quote : UInt16 := 0x22

def backslash : UInt16 := 0x5C

def openBrace : UInt16 := 0x7B

def closeBrace : UInt16 := 0x7D

def isWs (u : UInt16) : Bool := u = 0x20 || u = 0x09 || u = 0x0A || u = 0x0D

def skipWs (t : Text) : Text := t.dropWhile isWs

def hexValue (u : UInt16) : Option Nat :=
  if 0x30 ≤ u ∧ u ≤ 0x39 then some (u.toNat - 0x30)
  else if 0x41 ≤ u ∧ u ≤ 0x46 then some (u.toNat - 0x37)
  else if 0x61 ≤ u ∧ u ≤ 0x66 then some (u.toNat - 0x57)
  else none

def unitOfHex (a b c d : UInt16) : Option UInt16 :=
  match hexValue a, hexValue b, hexValue c, hexValue d with
  | some a, some b, some c, some d => some (((a * 16 + b) * 16 + c) * 16 + d).toUInt16
  | _, _, _, _ => none

/-- The unit that a one-letter escape stands for. -/
def unitOfEscape (u : UInt16) : Option UInt16 :=
  if u = quote ∨ u = backslash ∨ u = 0x2F then some u
  else if u = 0x62 then some 0x08
  else if u = 0x66 then some 0x0C
  else if u = 0x6E then some 0x0A
  else if u = 0x72 then some 0x0D
  else if u = 0x74 then some 0x09
  else none

/-- A string, after its opening quote. -/
def readString : Text → Option (Text × Text)
  | [] => none
  | u :: rest =>
    if u = quote then some ([], rest)
    else if u = backslash then
      match rest with
      | [] => none
      | v :: rest =>
        if v = 0x75 then
          match rest with
          | a :: b :: c :: d :: rest =>
            match unitOfHex a b c d with
            | some w => (readString rest).map fun (s, rest) => (w :: s, rest)
            | none => none
          | _ => none
        else
          match unitOfEscape v with
          | some w => (readString rest).map fun (s, rest) => (w :: s, rest)
          | none => none
    else if u < 0x20 then none
    else (readString rest).map fun (s, rest) => (u :: s, rest)

def readDigits (t : Text) : Text × Text := (t.takeWhile isDigit, t.dropWhile isDigit)

/-- The digits after the point, none when there is no point. -/
def readFraction : Text → Option (Text × Text)
  | 0x2E :: rest =>
    let (digits, rest) := readDigits rest
    if digits = [] then none else some (digits, rest)
  | t => some ([], t)

def readSign : Text → Bool × Text
  | 0x2D :: rest => (true, rest)
  | 0x2B :: rest => (false, rest)
  | t => (false, t)

def readExponent : Text → Option (Int × Text)
  | [] => some (0, [])
  | u :: rest =>
    if u = 0x65 ∨ u = 0x45 then
      let (negative, rest) := readSign rest
      let (digits, rest) := readDigits rest
      if digits = [] then none
      else some (if negative then -(valueOf digits : Int) else valueOf digits, rest)
    else some (0, u :: rest)

def readMagnitude (negative : Bool) (t : Text) : Option (Number × Text) :=
  let (whole, rest) := readDigits t
  -- no leading zero
  if whole = [] ∨ (whole.head? = some 0x30 ∧ 1 < whole.length) then none
  else
    (readFraction rest).bind fun (fraction, rest) =>
      (readExponent rest).map fun (exponent, rest) =>
        (ofDecimal negative (valueOf (whole ++ fraction)) (exponent - fraction.length), rest)

def readNumber : Text → Option (Number × Text)
  | 0x2D :: rest => readMagnitude true rest
  | t => readMagnitude false t

def readWord (word : Text) (value : Value) (t : Text) : Option (Value × Text) :=
  if word.isPrefixOf t then some (value, t.drop word.length) else none

def readScalar (t : Text) : Option (Value × Text) :=
  (readWord (js "true") (.bool true) t).or <|
    (readWord (js "false") (.bool false) t).or <|
      (readWord (js "null") .null t).or <| (readNumber t).map fun (n, rest) => (.num n, rest)

/-- A name that stands twice keeps its place and has the later value. -/
def put (name : Text) (value : Value) (fields : List (Text × Value)) : List (Text × Value) :=
  if fields.any (·.1 = name) then
    fields.map fun field => if field.1 = name then (name, value) else field
  else fields ++ [(name, value)]

mutual

def readValue : Nat → Text → Option (Value × Text)
  | 0, _ => none
  | fuel + 1, t =>
    match skipWs t with
    | [] => none
    | u :: rest =>
      if u = openBrace then
        match skipWs rest with
        | [] => none
        | v :: rest' =>
          if v = closeBrace then some (.obj [], rest') else readMembers fuel [] (v :: rest')
      else if u = 0x5B then
        match skipWs rest with
        | [] => none
        | v :: rest' =>
          if v = 0x5D then some (.arr [], rest') else readItems fuel [] (v :: rest')
      else if u = quote then (readString rest).map fun (s, rest) => (.str s, rest)
      else readScalar (u :: rest)

/-- The members of an object, from the name of the first that is left. -/
def readMembers : Nat → List (Text × Value) → Text → Option (Value × Text)
  | 0, _, _ => none
  | fuel + 1, fields, t =>
    match skipWs t with
    | [] => none
    | u :: rest =>
      if u = quote then
        match readString rest with
        | none => none
        | some (name, rest) =>
          match skipWs rest with
          | [] => none
          | v :: rest =>
            if v = 0x3A then
              match readValue fuel rest with
              | none => none
              | some (value, rest) =>
                match skipWs rest with
                | [] => none
                | w :: rest =>
                  if w = 0x2C then readMembers fuel (put name value fields) rest
                  else if w = closeBrace then some (.obj (put name value fields), rest)
                  else none
            else none
      else none

def readItems : Nat → List Value → Text → Option (Value × Text)
  | 0, _, _ => none
  | fuel + 1, items, t =>
    match readValue fuel t with
    | none => none
    | some (value, rest) =>
      match skipWs rest with
      | [] => none
      | u :: rest =>
        if u = 0x2C then readItems fuel (items ++ [value]) rest
        else if u = 0x5D then some (.arr (items ++ [value]), rest)
        else none

end

/-- `JSON.parse`, absent where it throws. -/
def parse (t : Text) : Option Value :=
  match readValue (t.length + 1) t with
  | some (value, rest) => if skipWs rest = [] then some value else none
  | none => none

end Ultrathink.Library.JsonText
