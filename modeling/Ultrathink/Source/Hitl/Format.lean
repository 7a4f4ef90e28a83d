import Ultrathink.Source.Uplift.Xml

/-!
# Clarifications in the spec

`hitl/format.ts`: `clarificationsToXml` and `injectClarificationsXml`, over the
fields of a clarification that they read. The prompt addendum and the echo of
the same file are not modelled.
-/

namespace Ultrathink.Source.Hitl.Format

open Library JsText Regex Uplift.Xml

structure ClarificationOption where
  label : Text
  description : Option Text

inductive AnswerSource where
  | user | assumed | knowledge
deriving DecidableEq

def AnswerSource.text : AnswerSource → Text
  | .user => js "user"
  | .assumed => js "assumed"
  | .knowledge => js "knowledge"

structure Clarification where
  id : Text
  question : Text
  header : Text
  why : Text
  options : List ClarificationOption
  default : Option Text
  blocking : Bool
  answer : Option Text
  source : Option AnswerSource
  evidence : Option Text

/-- An absent or empty description leaves the label alone. -/
def optionText (option : ClarificationOption) : Text :=
  match option.description with
  | some (unit :: more) => option.label ++ js " — " ++ (unit :: more)
  | _ => option.label

def optionXml (item : Clarification) (option : ClarificationOption) : Text :=
  let recommended := if item.default = some option.label then js " recommended=\"true\"" else []
  js "\t\t\t<OPTION" ++ recommended ++ js ">" ++ escapeXml (optionText option) ++ js "</OPTION>"

def answerXml (item : Clarification) (answer : Text) : Text :=
  let evidence := match item.source, item.evidence with
    | some .knowledge, some evidence => js " evidence=\"" ++ escapeXml evidence ++ js "\""
    | _, _ => []
  js "\t\t<ANSWER source=\"" ++ (item.source.getD .user).text ++ js "\"" ++ evidence ++ js ">" ++
    escapeXml answer ++ js "</ANSWER>"

def clarificationXml (item : Clarification) : Text :=
  let lines := [
      js "\t<CLARIFICATION id=\"" ++ escapeXml item.id ++ js "\" header=\"" ++
        escapeXml item.header ++ js "\" blocking=\"" ++ ofBool item.blocking ++ js "\">",
      js "\t\t<QUESTION>" ++ escapeXml item.question ++ js "</QUESTION>",
      js "\t\t<WHY>" ++ escapeXml item.why ++ js "</WHY>",
      js "\t\t<OPTIONS>"] ++ item.options.map (optionXml item) ++ [js "\t\t</OPTIONS>"]
  let answered := match item.answer with
    | some answer => [answerXml item answer]
    | none => []
  join (js "\n") (lines ++ answered ++ [js "\t</CLARIFICATION>"])

def isBlank (u : UInt16) : Bool := u = 0x20 || u = 0x09

end Ultrathink.Source.Hitl.Format
