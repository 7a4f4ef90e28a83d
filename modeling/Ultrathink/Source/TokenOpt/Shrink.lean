import Ultrathink.Library.JsText
import Ultrathink.Library.Search

/-!
# Shorter tool results

`estimate.ts`, `compress.ts`, `skim.ts` and `budget.ts` of `omp-token-opt`: what a tool
result is shortened to, and by how many tokens. Caps are those of `capFor`, for which
`cap * 0.6` is a whole number.
-/

namespace Ultrathink.Source.TokenOpt.Shrink

open Library JsText Search

def newline : UInt16 := 0x0A

/-- `text.split("\n")` -/
def lines (text : Text) : List Text := text.splitOn newline

def unlines (ls : List Text) : Text := join [newline] ls

def trimStart (text : Text) : Text := text.dropWhile isSpace

def estimateTokens (text : Text) : Nat := (text.length + 3) / 4

def noopUnder : Nat := 4000

def defaultCap : Nat := 6000

structure ShrinkResult where
  text : Text
  baseline : Nat
  current : Nat
  saved : Int
  deriving DecidableEq

def unchanged (text : Text) : ShrinkResult :=
  ⟨text, estimateTokens text, estimateTokens text, 0⟩

/-- A diff, or a text whose first line opens with a bracketed `#`; `skipBody` of `skim.ts`
is the same test. -/
def looksLikeEditableSource (text : Text) : Bool :=
  let start := trimStart text
  let afterDiff := start.drop 4
  ((js "diff").isPrefixOf start &&
      ((afterDiff.head?.map isSpace).getD false || (js "--git").isPrefixOf afterDiff)) ||
    ((js "--- ").isPrefixOf start && includes text (js "\n+++ ")) ||
    ((js "[").isPrefixOf start &&
      ((start.takeWhile (· ≠ newline)).dropWhile (· ≠ 0x23)).contains 0x5D)

/-- Equal lines that follow each other, with their number. -/
def runs : List Text → List (Text × Nat)
  | [] => []
  | line :: rest =>
    match runs rest with
    | [] => [(line, 1)]
    | (next, count) :: more =>
      if next = line then (line, count + 1) :: more else (line, 1) :: (next, count) :: more

def collapseDuplicateLines (text : Text) : Text :=
  unlines ((runs (lines text)).map fun run =>
    if 1 < run.2 then run.1 ++ js " ×" ++ ofNat run.2 else run.1)

def headTail (text : Text) (cap : Nat) : Text :=
  let headLen := cap * 6 / 10
  let tailLen := cap - headLen
  if text.length ≤ headLen + tailLen then text
  else
    text.take headLen ++ js "\n… omitted " ++ ofNat (text.length - headLen - tailLen) ++
      js " chars …\n" ++ text.drop (text.length - tailLen)

/-- The text without its duplicate lines, cut down to the limit. -/
def capped (text : Text) (limit : Nat) : Text :=
  let collapsed := collapseDuplicateLines text
  if limit < collapsed.length then headTail collapsed limit else collapsed

def limitFor (cap : Nat) : Nat := if 0 < cap then cap else defaultCap

def shrinkToolText (text : Text) (cap : Nat) : ShrinkResult :=
  let limit := limitFor cap
  if text = [] then unchanged []
  else if text.length < min noopUnder limit || looksLikeEditableSource text then unchanged text
  else
    let next := capped text limit
    let baseline := estimateTokens text
    let current := estimateTokens next
    let saved : Int := baseline - current
    if saved ≤ 0 || next = text then unchanged text else ⟨next, baseline, current, saved⟩

def skimMinChars : Nat := 12000

def skimMaxLines : Nat := 80

def skimArchiveCap : Nat := 8

def sourceExtensions : List Text :=
  [js ".ts", js ".tsx", js ".js", js ".jsx", js ".py", js ".go", js ".rs"]

/-- A word and the white space after it. -/
def startsWithWord (word line : Text) : Bool :=
  word.isPrefixOf line && ((line.drop word.length).head?.map isSpace).getD false

def skimWords : List Text :=
  [js "export", js "function", js "class", js "def", js "type", js "interface"]

/-- `SKIM_LINE` -/
def isDeclaration (line : Text) : Bool :=
  skimWords.any (startsWithWord · line) ||
    (startsWithWord (js "async") line &&
      startsWithWord (js "function") (trimStart (line.drop (js "async").length)))

def skimSource (text path : Text) : Text :=
  if path = [] then text
  else if !sourceExtensions.any (·.isSuffixOf path) || path.contains 0x3A then text
  else if text.length ≤ skimMinChars || looksLikeEditableSource text then text
  else
    let kept := ((lines text).filter isDeclaration).take skimMaxLines
    if kept = [] then text
    else
      let selected := unlines kept
      if text.length < selected.length then text
      else
        let skimmed := selected ++ js "\ntoken-opt: skimmed " ++
          ofNat (text.length - selected.length) ++ js " chars"
        if text.length ≤ skimmed.length then text else skimmed

/-- The bodies that were skimmed, the oldest first. -/
def rememberSkim (path original : Text) (archive : List (Text × Text)) : List (Text × Text) :=
  if path = [] then archive
  else
    let next := archive.filter (·.1 ≠ path) ++ [(path, original)]
    next.drop (next.length - skimArchiveCap)

inductive Tier where
  | normal
  | tight
  | minimal
  deriving DecidableEq

/-- The limit and what was spent of it. -/
structure Budget where
  limit : Nat
  used : Nat
  deriving DecidableEq

def tierFor (used limit : Nat) : Tier :=
  if limit ≤ used then .minimal else if limit * 4 ≤ used * 5 then .tight else .normal

def minCap : Nat := 200

def capFor (tier : Tier) (baseCap : Nat) : Nat :=
  match tier with
  | .normal => baseCap
  | .tight => max minCap (baseCap / 2)
  | .minimal => max minCap (baseCap / 5)

def Budget.tier (b : Budget) : Tier := tierFor b.used b.limit

def Budget.spend (b : Budget) (tokens : Nat) : Budget := { b with used := b.used + tokens }

theorem saved_shrink (text : Text) (cap : Nat) :
    (shrinkToolText text cap).saved =
      (shrinkToolText text cap).baseline - (shrinkToolText text cap).current := by
  have same : ∀ text, (unchanged text).saved = (unchanged text).baseline - (unchanged text).current :=
    fun _ => (Int.sub_self _).symm
  unfold shrinkToolText
  dsimp only
  split
  · exact same _
  · split
    · exact same _
    · split
      · exact same _
      · rfl

end Ultrathink.Source.TokenOpt.Shrink
