import Ultrathink.Library.JsText

/-!
# What a bounded prune examines (`src/retention/prune.ts`)

`listSessionEntries`, with its grouping, its cursor and its budget, and how a bounded run
moves the cursor on. A directory is the list of its names, each once.
-/

namespace Ultrathink.Retention

open Library.JsText

def endsWith (suffix t : Text) : Bool := suffix.reverse.isPrefixOf t.reverse

/-- The `.json`/`.xml` stem of a session entry, none for anything else. -/
def sessionStem (name : Text) : Option Text :=
  let extension : Option Text :=
    if endsWith (js ".json") name then some (js ".json")
    else if endsWith (js ".xml") name then some (js ".xml")
    else none
  match extension with
  | none => none
  | some extension =>
    let stem := name.take (name.length - extension.length)
    if stem = [] then none else some stem

/-- A group with the stem of its session, none for an entry of no session. -/
structure Group where
  stem : Option Text
  names : List Text

/-- Adds the name to the first group of its session, or as a new group. -/
def addNamed (stem name : Text) : List Group → List Group
  | [] => [⟨some stem, [name]⟩]
  | group :: rest =>
    if group.stem = some stem then { group with names := group.names ++ [name] } :: rest
    else group :: addNamed stem name rest

def addName (groups : List Group) (name : Text) : List Group :=
  match sessionStem name with
  | none => groups ++ [⟨none, [name]⟩]
  | some stem => addNamed stem name groups

/-- `readdirSync(dir).sort()` -/
def sortNames (dir : List Text) : List Text := dir.mergeSort fun s t => le s t

def groupNames (dir : List Text) : List Group := (sortNames dir).foldl addName []

/-- The group after the one that holds the cursor; the first when none does. -/
def startOf (groups : List Group) (cursor : Option Text) : Nat :=
  match cursor with
  | none => 0
  | some cursor =>
    let at_ := groups.findIdx fun group => cursor ∈ group.names
    if at_ < groups.length then (at_ + 1) % groups.length else 0

/-- The loop over `offset`: whole groups, while the budget has room; the first one is always
taken while any budget remains. -/
def takeGroups (groups : List Group) (start budget : Nat) : Nat → Nat → List Text → List Text
  | 0, _, names => names
  | left + 1, offset, names =>
    if budget ≤ names.length then names
    else
      match groups[(start + offset) % groups.length]? with
      | none => takeGroups groups start budget left (offset + 1) names
      | some group =>
        if names ≠ [] ∧ budget < names.length + group.names.length then names
        else takeGroups groups start budget left (offset + 1) (names ++ group.names)

def listSessionEntries (dir : List Text) (cursor : Option Text) (budget : Nat) : List Text :=
  let groups := groupNames dir
  takeGroups groups (startOf groups cursor) budget groups.length 0 []

/-- What is left of the limit for the sessions: the entries of the state directory are
listed first, and count. -/
def sessionBudget (limit stateEntries : Nat) : Nat := limit - min limit stateEntries

/-- Bounded runs one after the other. Nothing but a run takes names away, and only names
that it examined; each leaves its last name as the cursor of the next. -/
structure BoundedRuns where
  limit : Nat
  /-- The entries of the state directory when each run starts. -/
  stateEntries : Nat → Nat
  dir : Nat → List Text
  removed : Nat → List Text
  cursor : Nat → Option Text

namespace BoundedRuns

def names (runs : BoundedRuns) (i : Nat) : List Text :=
  listSessionEntries (runs.dir i) (runs.cursor i)
    (sessionBudget runs.limit (runs.stateEntries i))

structure Valid (runs : BoundedRuns) : Prop where
  once : (runs.dir 0).Nodup
  examined : ∀ i, ∀ name ∈ runs.removed i, name ∈ runs.names i
  shrinks : ∀ i, runs.dir (i + 1) = (runs.dir i).filter (· ∉ runs.removed i)
  resumes : ∀ i, runs.cursor (i + 1) = ((runs.names i).getLast?).or (runs.cursor i)

end BoundedRuns

end Ultrathink.Retention
