import Ultrathink.Library.Regex
import Mathlib.Data.List.Forall2

/-!
# Spec XML: escaping and inserting blocks

`uplift/xml.ts` (`escapeXml`, `ROOT_OPEN_RE`) and the insertion that `injectGraphXml`
(`think/graph.ts`) and `injectClarificationsXml` (`hitl/format.ts`) write out alike.
-/

namespace Ultrathink.Source.Uplift.Xml

open List Library JsText Regex

def escapeXml (value : Text) : Text :=
  let value := replaceUnit 0x26 (js "&amp;") value
  let value := replaceUnit 0x3C (js "&lt;") value
  let value := replaceUnit 0x3E (js "&gt;") value
  replaceUnit 0x22 (js "&quot;") value

def anyUnit : UInt16 → Bool := fun _ => true

/-- `[A-Za-z_]` -/
def isNameStart (u : UInt16) : Bool := isUpperLetter u || isLowerLetter u || u = 0x5F

/-- `[\w.-]` -/
def isNameUnit (u : UInt16) : Bool := isWord u || u = 0x2E || u = 0x2D

/-- `<TAG\b[\s\S]*?<\/TAG>` under the `i` flag. -/
def blockRe (tag : Text) : Expr :=
  .seq (literal true (js "<" ++ tag))
    (.seq .wordEdge
      (.seq (.many false (.one anyUnit)) (literal true (js "</" ++ tag ++ js ">"))))

/-- `^<([A-Za-z_][\w.-]*)\b([^>]*)>` -/
def rootOpenRe : Expr :=
  .seq .atStart
    (.seq (.one fun u => u = 0x3C)
      (.seq (.group 1 (.seq (.one isNameStart) (.many true (.one isNameUnit))))
        (.seq .wordEdge
          (.seq (.group 2 (.many true (.one fun u => u ≠ 0x3E))) (.one fun u => u = 0x3E)))))

/-- One unit of a tag name as the pattern text it becomes: a `.` of the name
stands for any unit of a line. -/
def tagAtom (u : UInt16) : UInt16 → Bool :=
  if u = 0x2E then fun v => !isLineEnd v else fun v => foldCase v = foldCase u

/-- ``new RegExp(`</${tag}\\s*>\\s*$`, "i")`` -/
def closeRe (tag : Text) : Expr :=
  .seq (literal true (js "</"))
    (.seq (units (tag.map tagAtom))
      (.seq (.many true (.one isSpace))
        (.seq (.one fun u => u = 0x3E) (.seq (.many true (.one isSpace)) .atEnd))))

/-- The tail of both injections, on a trimmed spec without the block: before the
root's closing tag, or after the whole text when there is none. -/
def insertBlock (trimmed block : Text) : Text :=
  match exec rootOpenRe trimmed with
  | none => if trimmed = [] then block else trimmed ++ js "\n" ++ block
  | some openTag =>
    let tag := (openTag.group 1).getD []
    if test (closeRe tag) trimmed then
      replaceFirst (closeRe tag) trimmed (js "\n" ++ block ++ js "\n</" ++ tag ++ js ">")
    else trimmed ++ js "\n" ++ block

variable {tag subject part text : Text} {m : Match}

end Ultrathink.Source.Uplift.Xml
