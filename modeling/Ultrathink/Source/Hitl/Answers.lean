import Ultrathink.Library.JsNumber
import Ultrathink.Library.Search
import Ultrathink.Source.Hitl.Pipeline

/-!
# Answers to clarifying questions

`applyAnswers` of `hitl/answers.ts` and `recordAnswers` of `host/grokbot-hitl.ts`, on the list
of clarifications. A matched item is named by its place in the list, and `answeredAt` is left
out. The entries of an answers object come in the order of the list.
-/

namespace Ultrathink.Source.Hitl.Answers

open Library JsText JsNumber Search Format Pipeline

structure RawOption where
  label : Option Text
  description : Option Text

structure RawQuestion where
  question : Option Text
  header : Option Text
  options : List RawOption

structure AskedQuestion where
  question : Text
  header : Text
  options : List ClarificationOption

/-- The answers that are texts, and the free-form response. -/
inductive Response where
  | absent
  | text (response : Text)
  | object (answers : List (Text × Text)) (response : Option Text)

def trimmed (t : Option Text) : Text := trim (t.getD [])

def askedOption (raw : RawOption) : Option ClarificationOption :=
  let label := trimmed raw.label
  if label = [] then none
  else
    let description := trimmed raw.description
    some ⟨label, if description = [] then none else some description⟩

def askedQuestions (input : List RawQuestion) : List AskedQuestion :=
  input.filterMap fun raw =>
    let question := trimmed raw.question
    if question = [] then none
    else some ⟨question, orElse (trimmed raw.header) (js "Asked"), raw.options.filterMap askedOption⟩

section

variable (h : Host)

/-- The place of the question that the key is taken for. -/
def findMatch (list : List Clarification) (key : Text) : Option Nat :=
  let wanted := normalizeQuestion h key
  if wanted = [] then none
  else
    (list.findIdx? fun item => normalizeQuestion h item.question = wanted).or
      (list.findIdx? fun item =>
        let have_ := normalizeQuestion h item.question
        have_ ≠ [] && (includes have_ wanted || includes wanted have_))

def newClarification (id : Text) (asked : Option AskedQuestion) (question answer : Text) :
    Clarification where
  id
  question
  header := (asked.map AskedQuestion.header).getD (js "Asked")
  why := js "Asked by the agent during execution"
  options := (asked.map AskedQuestion.options).getD []
  default := none
  blocking := false
  answer := some answer
  source := some .user
  evidence := none

/-- The list, and the places of the items that this call answered. -/
structure Folded where
  list : List Clarification
  matched : List Nat

def answered (answer : Text) (item : Clarification) : Clarification :=
  { item with answer := some answer, source := some .user, evidence := none }

def record (target : Nat) (answer : Text) (s : Folded) : Folded :=
  ⟨s.list.modify target (answered answer),
    if target ∈ s.matched then s.matched else s.matched ++ [target]⟩

def append (asked : Option AskedQuestion) (question answer : Text) (s : Folded) : Folded :=
  ⟨s.list ++ [newClarification (js "q" ++ digits (s.list.length + 1)) asked question answer],
    s.matched ++ [s.list.length]⟩

def settle (asked : List AskedQuestion) (key answer : Text) (s : Folded) : Folded :=
  let text := trim answer
  if text = [] then s
  else
    match findMatch h s.list key with
    | some target => record target text s
    | none =>
      let item := asked.find? fun item =>
        normalizeQuestion h item.question = normalizeQuestion h key
      append item ((item.map AskedQuestion.question).getD (trim key)) text s

def isOpenAt (list : List Clarification) (place : Nat) : Bool :=
  (list[place]?.bind Clarification.answer).isNone

def freeForm : Text := js "Free-form response"

def applyAnswers (list : List Clarification) (input : List RawQuestion) (response : Response) :
    Folded :=
  let asked := askedQuestions input
  match response with
  | .absent => ⟨list, []⟩
  | .text response =>
    let text := trim response
    if text = [] then ⟨list, []⟩
    else
      match asked.filter fun item => (findMatch h list item.question).all (isOpenAt list) with
      | [item] => settle h asked item.question text ⟨list, []⟩
      | _ => append none freeForm text ⟨list, []⟩
  | .object answers response =>
    let s := answers.foldl (fun s (key, value) => settle h asked key value s) ⟨list, []⟩
    let text := trimmed response
    if text = [] then s
    else
      let pending := (asked.filterMap fun item => findMatch h s.list item.question).find?
        (isOpenAt s.list)
      match pending with
      | some target => record target text s
      | none => append none freeForm text s

end

/-- `/^q\d+$/` -/
def isQuestionId (key : Text) : Bool :=
  match key with
  | 0x71 :: rest => rest ≠ [] && rest.all isDigit
  | _ => false

/-- An assignment to a property: a name that stands keeps its place. -/
def assign (name value : Text) (entries : List (Text × Text)) : List (Text × Text) :=
  if entries.any (·.1 = name) then
    entries.map fun entry => if entry.1 = name then (name, value) else entry
  else entries ++ [(name, value)]

/-- The answers by question, and the ids that no question has. -/
def resolveIds (existing : List Clarification) (answers : List (Text × Text)) :
    List (Text × Text) × List Text :=
  answers.foldl (fun (byQuestion, unknownIds) (key, value) =>
    match existing.find? fun c => c.id = key with
    | some item => (assign item.question value byQuestion, unknownIds)
    | none =>
      if isQuestionId key then (byQuestion, unknownIds ++ [key])
      else (assign key value byQuestion, unknownIds)) ([], [])

def recordAnswers (h : Host) (existing : List Clarification) (answers : List (Text × Text))
    (response : Option Text) : Folded × List Text :=
  match resolveIds existing answers with
  | (byQuestion, []) => (applyAnswers h existing [] (.object byQuestion response), [])
  | (_, unknownIds) => (⟨existing, []⟩, unknownIds)

end Ultrathink.Source.Hitl.Answers
