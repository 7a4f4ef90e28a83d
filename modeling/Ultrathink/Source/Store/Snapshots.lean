import Mathlib.Data.List.Sort
import Mathlib.Data.Rat.Floor
import Ultrathink.Library.JsNumber
import Ultrathink.Library.OrderedMap
import Ultrathink.Library.UtcDate

/-!
# The snapshot ring

`store/snapshots.ts`: the names of point-in-time snapshots, the stamp of the next one and the
plan of which to keep. Times are whole milliseconds. A range error is an absent value.
-/

namespace Ultrathink.Source.Store.Snapshots

open Library JsText JsNumber UtcDate

/-- `String(value).padStart(width, "0")` -/
def pad (value : Nat) (width : Nat) : Text :=
  zeros (width - (digits value).length) ++ digits value

def takeDigits (count : Nat) (t : Text) : Option (Text × Text) :=
  if (t.take count).length = count ∧ (t.take count).all isDigit then
    some (t.take count, t.drop count)
  else none

def expect (literal t : Text) : Option Text :=
  if literal.isPrefixOf t then some (t.drop literal.length) else none

/-- The groups of `NAME_PATTERN`. -/
structure NameParts where
  year : Text
  month : Text
  day : Text
  hour : Text
  minute : Text
  second : Text
  ms : Option Text

def nameStart : Text := js "ultrathink-"

/-- What may follow the stamp. -/
def SUFFIXES : List Text := [[], js ".sqlite", js ".tar.gz", js ".tar.gz.age"]

/-- `NAME_PATTERN.exec(name)`. Three digits before the `Z` are the milliseconds. -/
def matchName (name : Text) : Option NameParts := do
  let t ← expect nameStart name
  let (year, t) ← takeDigits 4 t
  let (month, t) ← takeDigits 2 t
  let (day, t) ← takeDigits 2 t
  let t ← expect (js "T") t
  let (hour, t) ← takeDigits 2 t
  let (minute, t) ← takeDigits 2 t
  let (second, t) ← takeDigits 2 t
  let (ms, t) := match takeDigits 3 t with
    | some (ms, t) => (some ms, t)
    | none => (none, t)
  let t ← expect (js "Z") t
  if t ∈ SUFFIXES then some ⟨year, month, day, hour, minute, second, ms⟩ else none

/-- The time of the parts; a field that rolls over is refused. -/
def timeOf (parts : NameParts) : Option ℤ :=
  let year : ℤ := valueOf parts.year
  let month : ℤ := valueOf parts.month
  let day : ℤ := valueOf parts.day
  let hour : ℤ := valueOf parts.hour
  let minute : ℤ := valueOf parts.minute
  let second : ℤ := valueOf parts.second
  let millisecond : ℤ := (parts.ms.map valueOf).getD 0
  let date := makeTime year (month - 1) day hour minute second millisecond
  if getUTCFullYear date ≠ year ∨ getUTCMonth date ≠ month - 1 ∨ getUTCDate date ≠ day ∨
      getUTCHours date ≠ hour ∨ getUTCMinutes date ≠ minute ∨ getUTCSeconds date ≠ second ∨
      getUTCMilliseconds date ≠ millisecond then none
  else some date

def parseStamp (name : Text) : Option ℤ := (matchName name).bind timeOf

structure RetentionWindows where
  /-- Every snapshot at most this old is kept. -/
  recentMs : ℚ
  /-- Bucket width for the thinned band. -/
  thinMs : ℚ
  /-- Snapshots older than this are deleted. -/
  windowMs : ℚ

structure RetentionPlan where
  keep : List Text
  delete : List Text
  deriving DecidableEq

structure Entry where
  name : Text
  ms : ℤ
  deriving DecidableEq

/-- `compareEntries(a, b) <= 0` -/
def notNewer (a b : Entry) : Bool := a.ms < b.ms || (a.ms = b.ms && le a.name b.name)

/-- `compareEntries(a, b) > 0` -/
def isNewer (a b : Entry) : Bool := !notNewer a b

/-- The parsed names, each once. -/
def parsedEntries (names : List Text) : List Entry :=
  names.foldl (fun entries name =>
    match parseStamp name with
    | none => entries
    | some ms => if entries.any (·.name = name) then entries else entries ++ [⟨name, ms⟩]) []

section Plan

variable (nowMs : ℚ) (windows : RetentionWindows)

def ageOf (entry : Entry) : ℚ := nowMs - entry.ms

def isFuture (entry : Entry) : Bool := nowMs < entry.ms

/-- Older than recent and inside the window. -/
def inBand (entry : Entry) : Bool :=
  !isFuture nowMs entry && windows.recentMs < ageOf nowMs entry && ageOf nowMs entry ≤ windows.windowMs

def bucketOf (entry : Entry) : ℤ := ⌊(entry.ms : ℚ) / windows.thinMs⌋

/-- The newest entry that is not in the future, and the newest of each bucket. -/
structure Winners where
  newest : Option Entry
  winners : OrderedMap ℤ Entry

def newer (entry : Entry) (current : Option Entry) : Bool := current.all (isNewer entry)

/-- One turn of the first loop. -/
def elect (s : Winners) (entry : Entry) : Winners :=
  if isFuture nowMs entry then s
  else
    let newest := if newer entry s.newest then some entry else s.newest
    if !inBand nowMs windows entry then { s with newest }
    else
      let bucket := bucketOf windows entry
      { newest
        winners := if newer entry (s.winners.get? bucket) then s.winners.set bucket entry
          else s.winners }

/-- The decision of the second loop. -/
def isKept (s : Winners) (entry : Entry) : Bool :=
  isFuture nowMs entry || s.newest.any (fun newest => entry.name = newest.name) ||
    ageOf nowMs entry ≤ windows.recentMs ||
      (ageOf nowMs entry ≤ windows.windowMs && s.winners.get? (bucketOf windows entry) = some entry)

def planOf (entries : List Entry) : RetentionPlan :=
  let s := entries.foldl (elect nowMs windows) ⟨none, .empty⟩
  { keep := (entries.filter (isKept nowMs windows s)).map Entry.name
    delete := (entries.filter fun entry => !isKept nowMs windows s entry).map Entry.name }

end Plan

def retentionPlan (names : List Text) (nowMs : ℚ) (windows : RetentionWindows) :
    Option RetentionPlan :=
  if windows.recentMs < 0 ∨ windows.windowMs < 0 ∨ windows.thinMs ≤ 0 then none
  else some (planOf nowMs windows ((parsedEntries names).insertionSort fun a b => notNewer a b))

end Ultrathink.Source.Store.Snapshots
