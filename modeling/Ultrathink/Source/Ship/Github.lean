import Ultrathink.Library.Interaction
import Ultrathink.Library.Regex
import Ultrathink.Source.Ship.Types

/-!
# GitHub as the ship commands read it

`ship/github.ts`: what the answers of `gh` are parsed to, the paged scan of
review threads and the merge call. A program asks its environment for every
process it runs, every clock reading and every access to the session file; what
the commands take as dependencies (assessing, reviewing, git) is one call each,
with any answer of its type.
-/

namespace Ultrathink.Source.Ship

open Library JsText Interaction Source.Config

/-- A finished process. -/
structure Exec where
  exitCode : ℤ
  stdout : Text
  stderr : Text

structure GitSignals where
  branch : Option Text
  base : Option Text
  onBase : Bool
  dirty : List Text
  repo : Option Text

/-- What the stopped comment is rendered from. -/
structure StoppedComment where
  reason : Text
  score : Option ℚ
  failedRounds : Nat
  findings : List ReviewComment
  attempts : List ShipAttempt

structure ReviewInput where
  repo : Text
  base : Text
  prNumber : Nat
  headSha : Text
  staleReviewIds : List Text
  restart : Bool

inductive Call where
  | loadConfig
  | now
  | sleep (ms : ℚ)
  | readShip
  | write (w : Write)
  | signals (ignoreGsd : Bool)
  | assess (signals : GitSignals) (autoMerge : Bool) (mode : JudgeMode)
  | localHead
  | review (input : ReviewInput)
  | repoView (timeoutMs : Option ℚ)
  | prView (number : Nat)
  | prMerge (number : Nat) (method : MergeMethod) (headSha : Text)
  | threadsPage (owner name : Text) (number : Nat) (after : Option Text) (timeoutMs : Option ℚ)
  | repoMethods
  | push (branch : Text)
  | findOpenPr (head : Text)
  | createPr (base head : Text)
  | comment (number : Nat) (body : StoppedComment)
  | deleteRemoteBranch (branch : Text)
  | syncBase (base branch headSha : Text)

/-- A session record: its ship, if it has one. -/
abbrev SessionShip := Option ShipState

@[reducible] def Answer : Call → Type
  | .loadConfig => ShipConfig
  | .now => ℚ
  | .sleep _ => Unit
  | .readShip => Option SessionShip
  | .write _ => Option ShipState
  | .signals _ => GitSignals
  | .assess _ _ _ => Assessment
  | .localHead => Exec
  | .review _ => ReviewResult
  | .repoView _ => Exec
  | .prView _ => Exec
  | .prMerge _ _ _ => Exec
  | .threadsPage _ _ _ _ _ => Exec
  | .repoMethods => Exec
  | .push _ => Option Text
  | .findOpenPr _ => Option PrRef
  | .createPr _ _ => Except Text PrRef
  | .comment _ _ => Bool
  | .deleteRemoteBranch _ => Option Text
  | .syncBase _ _ _ => Option Text

abbrev M := Prog Call Answer

def ask (c : Call) : M (Answer c) := Prog.call c

def now : M ℚ := ask .now

abbrev Value := Json ℚ

def obj : Option Value → Option (Json.Record ℚ)
  | some (.obj fields) => some fields
  | _ => none

/-- A nonempty string. -/
def str : Option Value → Option Text
  | some (.str s) => if s = [] then none else some s
  | _ => none

def get (record : Option (Json.Record ℚ)) (name : String) : Option Value :=
  record.bind fun fields => Json.field fields (js name)

def elements : Option Value → Option (List Value)
  | some (.arr items) => some items
  | _ => none

def boolean : Option Value → Option Bool
  | some (.bool b) => some b
  | _ => none

/-- `(stderr.trim() || stdout.trim()).split("\n")[0].slice(0, 300) || "exit <code>"` -/
def errorOf (p : Platform) (r : Exec) : Text :=
  let text := if trim r.stderr = [] then trim r.stdout else trim r.stderr
  let first := (text.takeWhile (· ≠ 0x0A)).take 300
  if first = [] then js "exit " ++ p.showNumber r.exitCode else first

def failedConclusions : List Text :=
  [js "FAILURE", js "CANCELLED", js "TIMED_OUT", js "ACTION_REQUIRED", js "STARTUP_FAILURE"]

def failedStates : List Text := [js "FAILURE", js "ERROR"]

def doneStatuses : List Text := [js "COMPLETED", js "SUCCESS"]

/-- An upper-case field of a check. -/
def checkField (p : Platform) (entry : Value) (name : String) : Option Text :=
  (str (get (obj (some entry)) name)).map p.toUpperCase

def checkFailed (p : Platform) (entry : Value) : Bool :=
  (checkField p entry "conclusion").any (· ∈ failedConclusions) ||
    (checkField p entry "state").any (· ∈ failedStates)

/-- A check run carries `status`, a status context `state`. -/
def checkPending (p : Platform) (entry : Value) : Bool :=
  ((checkField p entry "status").or (checkField p entry "state")).any (· ∉ doneStatuses)

def classifyChecks (p : Platform) (rollup : Option Value) : Checks :=
  match elements rollup with
  | none | some [] => .noChecks
  | some entries =>
    if entries.any (checkFailed p) then .failing
    else if entries.any (checkPending p) then .pending
    else .passing

def parseState (text : Option Text) : Option PrState :=
  if text = some (js "OPEN") then some .openPr
  else if text = some (js "MERGED") then some .merged
  else if text = some (js "CLOSED") then some .closed
  else none

def parseMergeable (text : Option Text) : Mergeable :=
  if text = some (js "MERGEABLE") then .mergeable
  else if text = some (js "CONFLICTING") then .conflicting
  else .unknown

def parsePrStatus (p : Platform) (r : Exec) : Option PrStatus :=
  if r.exitCode ≠ 0 then none
  else
    let o := obj (p.parseJson r.stdout)
    match parseState (str (get o "state")), str (get o "headRefOid"), str (get o "url") with
    | some state, some headSha, some url =>
      some ⟨state, headSha, parseMergeable (str (get o "mergeable")),
        classifyChecks p (get o "statusCheckRollup"), url⟩
    | _, _, _ => none

def prStatus (p : Platform) (number : Nat) : M (Option PrStatus) := do
  let r ← ask (.prView number)
  return parsePrStatus p r

structure ReviewThread where
  id : Text
  isResolved : Bool
  isOutdated : Bool
  author : Text
  path : Option Text
  line : Option ℚ
  body : Text

/-- A page: its Greptile threads and the cursor of the next one. -/
abbrev ThreadsPage := Except Text (List ReviewThread × Option Text)

def paginationStalled : Text := js "review threads pagination did not advance"

def deadlineExceeded : Text := js "review threads scan exceeded its deadline"

def malformedThread : Text := js "malformed review thread"

def greptilePrefix : Text := js "greptile"

def number : Option Value → Option ℚ
  | some (.num n) => some n
  | _ => none

/-- One node: `none` for a thread that is not Greptile's. -/
def parseThread (p : Platform) (node : Value) : Except Text (Option ReviewThread) :=
  let thread := obj (some node)
  let comments := elements (get (obj (get thread "comments")) "nodes")
  let first := obj (comments.bind (·.head?))
  match thread, str (get thread "id"), first with
  | some _, some id, some _ =>
    -- a null author is how GitHub shows a deleted account
    match get first "author" with
    | some .null => .ok none
    | author =>
      match str (get (obj author) "login") with
      | none => .error malformedThread
      | some author =>
        if !greptilePrefix.isPrefixOf (p.toLowerCase author) then .ok none
        else match str (get first "body"), boolean (get thread "isResolved"),
            boolean (get thread "isOutdated") with
          | some body, some isResolved, some isOutdated =>
            .ok (some ⟨id, isResolved, isOutdated, author, str (get first "path"),
              (number (get first "line")).or (number (get first "originalLine")), body⟩)
          | _, _, _ => .error malformedThread
  | _, _, _ => .error malformedThread

def parseThreads (p : Platform) : List Value → Except Text (List ReviewThread)
  | [] => .ok []
  | node :: rest => do
    let thread ← parseThread p node
    let threads ← parseThreads p rest
    return thread.toList ++ threads

def graphqlError (errors : List Value) : Text :=
  match errors with
  | [] => []
  | first :: _ =>
    match str (get (obj (some first)) "message") with
    | some message => message.take 300
    | none => js "graphql error"

def parseThreadsPage (p : Platform) (stdout : Text) : ThreadsPage :=
  match obj (p.parseJson stdout) with
  | none => .error (js "unparseable review threads response")
  | some root =>
    match elements (get (some root) "errors") with
    | some (first :: rest) => .error (graphqlError (first :: rest))
    | _ =>
      let data := obj (get (some root) "data")
      let pullRequest := obj (get (obj (get data "repository")) "pullRequest")
      let threads := obj (get pullRequest "reviewThreads")
      let pageInfo := obj (get threads "pageInfo")
      match elements (get threads "nodes") with
      | none => .error (js "pull request review threads missing")
      | some nodes =>
        match boolean (get pageInfo "hasNextPage") with
        | none => .error (js "malformed review threads pageInfo")
        | some hasNextPage =>
          let next := if hasNextPage then str (get pageInfo "endCursor") else none
          if hasNextPage ∧ next = none then .error paginationStalled
          else do
            let parsed ← parseThreads p nodes
            return (parsed, next)

def maxThreadPages : Nat := 20

def parseRepo (p : Platform) (r : Exec) : Option (Text × Text) :=
  if r.exitCode ≠ 0 then none
  else
    let o := obj (p.parseJson r.stdout)
    match str (get o "nameWithOwner"), str (get (obj (get o "defaultBranchRef")) "name") with
    | some name, some defaultBranch => some (name, defaultBranch)
    | _, _ => none

/-- What is left until the deadline, when there is one. -/
def remaining : Option ℚ → M (Option ℚ)
  | none => return none
  | some deadlineMs => do
    let t ← now
    return some (deadlineMs - t)

/-- `remaining !== undefined && remaining <= 0` -/
def spent (left : Option ℚ) : Bool := left.any (· ≤ 0)

/-- The page loop; `pages` are left to read, `seen` the cursors followed so far. -/
def scanPages (p : Platform) (owner name : Text) (number : Nat) (deadlineMs : Option ℚ)
    (pages : Nat) (after : Option Text) (seen : List Text) (threads : List ReviewThread) :
    M (Except Text (List ReviewThread)) :=
  match pages with
  | 0 => return .error (js "more than " ++ ofNat (maxThreadPages * 100) ++ js " review threads")
  | pages + 1 => do
    let left ← remaining deadlineMs
    if spent left then return .error deadlineExceeded
    let r ← ask (.threadsPage owner name number after left)
    let left ← remaining deadlineMs
    if spent left then return .error deadlineExceeded
    if r.exitCode ≠ 0 then return .error (errorOf p r)
    match parseThreadsPage p r.stdout with
    | .error error => return .error error
    | .ok (page, none) => return .ok (threads ++ page)
    | .ok (page, some next) =>
      if next ∈ seen then return .error paginationStalled
      scanPages p owner name number deadlineMs pages (some next) (next :: seen) (threads ++ page)

/-- The pull request's Greptile threads; any doubt is an error. -/
def reviewThreads (p : Platform) (number : Nat) (deadlineMs : Option ℚ) :
    M (Except Text (List ReviewThread)) := do
  let left ← remaining deadlineMs
  if spent left then return .error deadlineExceeded
  let r ← ask (.repoView left)
  let left ← remaining deadlineMs
  if spent left then return .error deadlineExceeded
  match (parseRepo p r).map fun repo => repo.1.splitOn 0x2F with
  | some (owner :: name :: _) =>
    if owner = [] ∨ name = [] then return .error (js "could not resolve GitHub repo")
    scanPages p owner name number deadlineMs maxThreadPages none [] []
  | _ => return .error (js "could not resolve GitHub repo")

/-- `<img alt="P1" ...>`, how Greptile shows a priority. -/
def badgePattern : Regex.Expr :=
  let spaces : Regex.Expr := .many true (.one isSpace)
  let priority : Regex.Expr :=
    .group 1 (.seq (Regex.literal true (js "P")) (.one fun u => 0x30 ≤ u && u ≤ 0x33))
  let value : Regex.Expr :=
    .seq (.alt (.one fun u => u = 0x22 || u = 0x27) .empty) (.seq priority .wordEdge)
  let alt : Regex.Expr :=
    .seq .wordEdge (.seq (Regex.literal true (js "alt"))
      (.seq spaces (.seq (.one (· = 0x3D)) (.seq spaces value))))
  .seq (Regex.literal true (js "<img"))
    (.seq .wordEdge (.seq (.many true (.one (· ≠ 0x3E))) alt))

def mapThread (p : Platform) (thread : ReviewThread) : ReviewComment :=
  let badge := (Regex.exec badgePattern thread.body).bind (·.group 1)
  ⟨thread.path, thread.line, thread.body, badge.map p.toUpperCase, none, some thread.id⟩

/-- Neither resolved nor outdated. -/
def ReviewThread.isOpen (thread : ReviewThread) : Bool := !thread.isResolved && !thread.isOutdated

/-- The open findings of a scan. -/
def openThreadComments (p : Platform) (threads : List ReviewThread) : List ReviewComment :=
  (threads.filter (·.isOpen)).map (mapThread p)

theorem openThreadComments_eq_nil {p : Platform} {threads : List ReviewThread} :
    openThreadComments p threads = [] ↔ ∀ thread ∈ threads, thread.isOpen = false := by
  simp [openThreadComments, List.filter_eq_nil_iff]

def parseMethods (p : Platform) (r : Exec) : List MergeMethod :=
  if r.exitCode ≠ 0 then []
  else
    let o := obj (p.parseJson r.stdout)
    let allowed (name : String) (method : MergeMethod) : List MergeMethod :=
      if boolean (get o name) = some true then [method] else []
    allowed "squashMergeAllowed" .squash ++ allowed "mergeCommitAllowed" .merge ++
      allowed "rebaseMergeAllowed" .rebase

def mergeMethods (p : Platform) : M (List MergeMethod) := do
  let r ← ask .repoMethods
  return parseMethods p r

def shownState : Option PrState → Text
  | some .openPr => js "OPEN"
  | some .merged => js "MERGED"
  | some .closed => js "CLOSED"
  | none => js "unknown"

/-- `gh pr merge`; done only once the pull request reads back as merged, else the
error. -/
def merge (p : Platform) (number : Nat) (method : MergeMethod) (headSha : Text) :
    M (Option Text) := do
  let r ← ask (.prMerge number method headSha)
  let status ← prStatus p number
  let state := status.map PrStatus.state
  if state = some .merged then return none
  else if r.exitCode ≠ 0 then return some (errorOf p r)
  else return some (js "PR is " ++ shownState state ++ js " after merge")

end Ultrathink.Source.Ship
