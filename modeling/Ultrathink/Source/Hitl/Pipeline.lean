import Ultrathink.Library.Json
import Ultrathink.Source.Hitl.Format

/-!
# Clarifying questions (`src/hitl/pipeline.ts`)

`normalizeClarifications` turns the clarifier's reply into open questions and questions
that a knowledge-base document settled; `reopenRejected` asks the settled ones that a check
rejected. A reply is JSON over any numbers, since none is read. What the checks find is an
input. The prompts and the completer are left out.
-/

namespace Ultrathink.Source.Hitl.Pipeline

open Library JsText Format

variable {ν : Type}

abbrev Value (ν : Type) := Json ν

/-- `String.prototype.toLowerCase`, with the tables of Unicode. -/
structure Host where
  toLowerCase : Text → Text
  empty : toLowerCase [] = []

def MAX_HEADER_CHARS : Nat := 12
def MAX_SETTLED : Nat := 4
def MIN_OPTIONS : Nat := 2
def MAX_OPTIONS : Nat := 4
def MAX_KNOWLEDGE_ANSWER_CHARS : Nat := 500
def MAX_CLAIMED_DESCRIPTION_CHARS : Nat := 200

/-- `.replace(/\s+/g, " ")`; `inside` a run whose blank was written. -/
def spaced (inside : Bool) : Text → Text
  | [] => []
  | u :: rest =>
    if isSpace u then (if inside then [] else [0x20]) ++ spaced true rest
    else u :: spaced false rest

/-- An object that is no null; an array has none of the fields that are read. -/
def asObject : Value ν → Option (Json.Record ν)
  | .obj fields => some fields
  | .arr _ => some []
  | _ => none

def get (record : Json.Record ν) (name : String) : Option (Value ν) := Json.field record (js name)

def asString : Option (Value ν) → Text
  | some (.str s) => trim s
  | _ => []

def isTrue : Option (Value ν) → Bool
  | some (.bool true) => true
  | _ => false

/-- `[?.!:;,\s]` -/
def isClosing (u : UInt16) : Bool :=
  isSpace u || u = 0x3F || u = 0x2E || u = 0x21 || u = 0x3A || u = 0x3B || u = 0x2C

/-- `[.!:;,]` -/
def isPoint (u : UInt16) : Bool := u = 0x2E || u = 0x21 || u = 0x3A || u = 0x3B || u = 0x2C

def normalizeQuestion (h : Host) (question : Text) : Text :=
  (trim (spaced false (h.toLowerCase question))).rdropWhile isClosing

def normalizeQuestionText (raw : Option (Value ν)) : Text :=
  let question := spaced false (asString raw)
  if question = [] then []
  else if question.getLast? = some 0x3F then question
  else question.rdropWhile isPoint ++ js "?"

def normalizeHeader (raw : Option (Value ν)) (fallback : Text) : Text :=
  let header := trim ((spaced false (asString raw)).take MAX_HEADER_CHARS)
  if header = [] then fallback else header

/-- `a || b` -/
def orElse (a b : Text) : Text := if a = [] then b else a

def normalizeOption : Value ν → Option ClarificationOption
  | .str s => if trim s = [] then none else some ⟨trim s, none⟩
  | raw =>
    match asObject raw with
    | none => none
    | some obj =>
      let label := orElse (asString (get obj "label"))
        (orElse (asString (get obj "name")) (asString (get obj "value")))
      let description := asString (get obj "description")
      if label = [] then none
      else some ⟨label, if description = [] then none else some description⟩

def collectOptions (h : Host) :
    List (Value ν) → List Text → List ClarificationOption → List ClarificationOption
  | [], _, options => options
  | item :: rest, seen, options =>
    match normalizeOption item with
    | none => collectOptions h rest seen options
    | some option =>
      let key := h.toLowerCase option.label
      if key ∈ seen then collectOptions h rest seen options
      else if options.length + 1 = MAX_OPTIONS then options ++ [option]
      else collectOptions h rest (seen ++ [key]) (options ++ [option])

def normalizeOptions (h : Host) : Option (Value ν) → List ClarificationOption
  | some (.arr items) => collectOptions h items [] []
  | _ => []

/-- Options for a question whose knowledge claim was rejected and that came without two
options of its own. -/
def claimedOptions (claimed : Text) : List ClarificationOption :=
  [if claimed = [] then ⟨js "Proceed with the default", none⟩
    else ⟨js "As stated", some claimed⟩,
    ⟨js "Something else", none⟩]

/-- `options.find((option) => option.label.toLowerCase() === wanted)`, when one is wanted. -/
def wantedOption (h : Host) (options : List ClarificationOption) (wanted : Text) :
    Option ClarificationOption :=
  if wanted = [] then none else options.find? fun option => h.toLowerCase option.label = wanted

def numbered (letter : String) (index : Nat) : Text := js letter ++ ofNat (index + 1)

/-- An open question, or none when it has no question text or fewer than two options;
`claimed` is the answer of a rejected knowledge claim. -/
def normalizeItem (h : Host) (raw : Value ν) (index : Nat) (claimed : Option Text) :
    Option Clarification :=
  match asObject raw with
  | none => none
  | some obj =>
    let question := normalizeQuestionText (get obj "question")
    if question = [] then none
    else
      let own := normalizeOptions h (get obj "options")
      let chosen : Option (List ClarificationOption × Text) :=
        if own.length < MIN_OPTIONS then claimed.map fun claimed => (claimedOptions claimed, [])
        else some (own, h.toLowerCase (asString (get obj "default")))
      match chosen with
      | none => none
      | some (options, wanted) =>
        some
          { id := numbered "q" index
            question
            header := normalizeHeader (get obj "header") (numbered "Q" index)
            why := spaced false (asString (get obj "why"))
            options
            default := ((wantedOption h options wanted).or options.head?).map (·.label)
            blocking := isTrue (get obj "blocking")
            answer := none
            source := none
            evidence := none }

structure Claim where
  answer : Text
  source : Text

/-- The verified claim of an item's knowledge object, or none when it is invalid or cites a
document that was not read. -/
def knowledgeClaim (knowledge : Json.Record ν) (docs : List Text) : Option Claim :=
  let answer := spaced false (asString (get knowledge "answer"))
  let source := asString (get knowledge "source")
  if answer = [] ∨ MAX_KNOWLEDGE_ANSWER_CHARS < answer.length then none
  else if source = [] ∨ source ∉ docs then none
  else some ⟨answer, source⟩

def claimedAnswer (knowledge : Json.Record ν) : Text :=
  trim ((spaced false (asString (get knowledge "answer"))).take MAX_CLAIMED_DESCRIPTION_CHARS)

/-- A bare array or the `questions` array of an object. -/
def clarifierItems : Value ν → List (Value ν)
  | .arr items => items
  | .obj fields =>
    match get fields "questions" with
    | some (.arr items) => items
    | _ => []
  | _ => []

def normalizeSettledItem (h : Host) (raw : Json.Record ν) (index : Nat) (claim : Claim) :
    Option Clarification :=
  let question := normalizeQuestionText (get raw "question")
  if question = [] then none
  else
    let options := normalizeOptions h (get raw "options")
    let wanted := h.toLowerCase (asString (get raw "default"))
    some
      { id := numbered "k" index
        question
        header := normalizeHeader (get raw "header") (js "KB")
        why := spaced false (asString (get raw "why"))
        options
        default := (wantedOption h options wanted).map (·.label)
        blocking := false
        answer := some claim.answer
        source := some .knowledge
        evidence := some claim.source }

/-- `new Set(docs.map((path) => path.trim()).filter(Boolean))` -/
def docSet (docs : List Text) : List Text := (docs.map trim).filter (· ≠ [])

/-- The loop's variables. -/
structure Sorted where
  seen : List Text
  asked : List Clarification
  settled : List Clarification

/-- The item's knowledge object, where documents were read. -/
def knowledgeOf (docs : List Text) (item : Value ν) : Option (Json.Record ν) :=
  if docs = [] then none
  else ((asObject item).bind fun obj => get obj "knowledge").bind asObject

/-- The claim that settles the item when it is reached. -/
def claimOf (docs : List Text) (item : Value ν) (settled : Nat) : Option Claim :=
  match knowledgeOf docs item with
  | none => none
  | some knowledge =>
    if isTrue ((asObject item).bind fun obj => get obj "blocking") then none
    else if settled < MAX_SETTLED then knowledgeClaim knowledge docs
    else none

def sortItem (h : Host) (max : Nat) (docs : List Text) (s : Sorted) (item : Value ν) : Sorted :=
  let claim := claimOf docs item s.settled.length
  let clarification :=
    match claim, asObject item with
    | some claim, some obj => normalizeSettledItem h obj s.settled.length claim
    | _, _ =>
      if s.asked.length < max then
        normalizeItem h item s.asked.length ((knowledgeOf docs item).map claimedAnswer)
      else none
  match clarification with
  | none => s
  | some clarification =>
    let key := normalizeQuestion h clarification.question
    if key = [] ∨ key ∈ s.seen then s
    else
      match claim with
      | some _ => { s with seen := key :: s.seen, settled := s.settled ++ [clarification] }
      | none => { s with seen := key :: s.seen, asked := s.asked ++ [clarification] }

/-- No more questions are taken. -/
def Sorted.full (max : Nat) (docs : List Text) (s : Sorted) : Bool :=
  max ≤ s.asked.length && (docs = [] || MAX_SETTLED ≤ s.settled.length)

def sortItems (h : Host) (max : Nat) (docs : List Text) : List (Value ν) → Sorted → Sorted
  | [], s => s
  | item :: rest, s =>
    if s.full max docs then s else sortItems h max docs rest (sortItem h max docs s item)

def sorted (h : Host) (raw : Value ν) (max : Nat) (docs : List Text) : Sorted :=
  sortItems h max (docSet docs) (clarifierItems raw) ⟨[], [], []⟩

/-- Open questions, then those a document settled. -/
def normalizeClarifications (h : Host) (raw : Value ν) (max : Nat) (docs : List Text) :
    List Clarification :=
  (sorted h raw max docs).asked ++ (sorted h raw max docs).settled

def isSettled (item : Clarification) : Bool := item.source = some .knowledge

/-- `settled.map((item, index) => ({ ...item, id: "k" + (index + 1) }))` -/
def renumber : Nat → List Clarification → List Clarification
  | _, [] => []
  | index, item :: rest => { item with id := numbered "k" index } :: renumber (index + 1) rest

/-- Asks the pending claims again in the clarifier's order, while questions may be added. -/
def reopen (h : Host) (max : Nat) (docs : List Text) :
    List (Value ν) → List Text → List Clarification → List Clarification
  | [], _, asked => asked
  | item :: rest, pending, asked =>
    if max ≤ asked.length ∨ pending = [] then asked
    else
      match asObject item with
      | none => reopen h max docs rest pending asked
      | some obj =>
        let key := normalizeQuestion h (normalizeQuestionText (get obj "question"))
        match (get obj "knowledge").bind asObject with
        | none => reopen h max docs rest pending asked
        | some knowledge =>
          if isTrue (get obj "blocking") ∨ key ∉ pending ∨ knowledgeClaim knowledge docs = none then
            reopen h max docs rest pending asked
          else
            match normalizeItem h item asked.length (some (claimedAnswer knowledge)) with
            | none => reopen h max docs rest (pending.filter (· ≠ key)) asked
            | some reopened =>
              reopen h max docs rest (pending.filter (· ≠ key)) (asked ++ [reopened])

/-- Every question of the first pass keeps its place; a rejected claim is appended while
fewer than `max` questions are open. -/
def reopenRejected (h : Host) (parsed : Value ν) (list : List Clarification)
    (rejected : List Text) (max : Nat) (docs : List Text) : List Clarification :=
  let asked := list.filter (fun item => !isSettled item)
  let settled := list.filter fun item =>
    isSettled item && normalizeQuestion h item.question ∉ rejected
  reopen h max (docSet docs) (clarifierItems parsed) rejected asked ++ renumber 0 settled

/-- What the checks find: the claims that a document does not support, and the defaults that
are risky, in the first and in the second round. -/
structure Findings where
  unsupported : Clarification → Bool
  risky : Clarification → Bool
  riskySecond : Clarification → Bool

def promote (h : Host) (keys : List Text) (item : Clarification) : Clarification :=
  if !isSettled item && !item.blocking && normalizeQuestion h item.question ∈ keys then
    { item with blocking := true }
  else item

/-- `checkClarifications` with both checks active; nothing is demoted. -/
def checkClarifications (h : Host) (found : Findings) (parsed : Value ν) (max : Nat)
    (docs : List Text) (list : List Clarification) : List Clarification :=
  let rejected := (list.filter fun item => isSettled item && found.unsupported item).map
    fun item => normalizeQuestion h item.question
  let checked := if rejected = [] then list else reopenRejected h parsed list rejected max docs
  let risky := (list.filter fun item => !isSettled item && !item.blocking && found.risky item).map
    fun item => normalizeQuestion h item.question
  let second := (checked.filter fun item => !isSettled item && !item.blocking &&
    normalizeQuestion h item.question ∈ rejected && found.riskySecond item).map
    fun item => normalizeQuestion h item.question
  checked.map (promote h (risky ++ second))

end Ultrathink.Source.Hitl.Pipeline
