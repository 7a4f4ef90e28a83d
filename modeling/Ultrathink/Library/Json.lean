import Ultrathink.Library.JsText

/-!
# JSON values

A JSON value as JavaScript holds it after `JSON.parse`, over any type of
numbers. The fields of an object stand in insertion order; a parsed object has
each name once.
-/

namespace Ultrathink.Library

open JsText

inductive Json (ν : Type) where
  | null
  | bool (b : Bool)
  | num (n : ν)
  | str (s : Text)
  | arr (items : List (Json ν))
  | obj (fields : List (Text × Json ν))

namespace Json

variable {ν : Type}

/-- The fields of an object, by name. -/
abbrev Record (ν : Type) := List (Text × Json ν)

def field (record : Record ν) (name : Text) : Option (Json ν) :=
  (record.find? (fun f => f.1 = name)).map Prod.snd

end Json

end Ultrathink.Library
