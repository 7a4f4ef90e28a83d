import Ultrathink.Library.Overlay
import Ultrathink.Source.Hitl.Answers

/-!
# The clarifications of a replan

`runPromptSubmit`'s merge of kept and fresh clarifications and `savePlanRecord` of
`claude/hook.ts`, on the clarifications and the spec of a record. A fresh list is absent when no
questions are asked. What tracking adds to the spec in between is left out.
-/

namespace Ultrathink.Source.Claude.Replan

open Library JsText Overlay Hitl.Format Hitl.Pipeline

/-- `c.answer && c.source !== "knowledge"` -/
def isUserAnswer (c : Clarification) : Bool :=
  c.answer.any (· ≠ []) && c.source ≠ some .knowledge

def userAnswers (list : List Clarification) : List Clarification := list.filter isUserAnswer

def questionKey (h : Host) (c : Clarification) : Text := normalizeQuestion h c.question

end Ultrathink.Source.Claude.Replan
