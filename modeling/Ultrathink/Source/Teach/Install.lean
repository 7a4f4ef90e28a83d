import Ultrathink.Library.Regex
import Ultrathink.Library.Runs

/-!
# Installing a skill for a host (`teach/promote.ts`)

`installSkill` for a target with a directory of skills, one file-system call at a time: `slotOf`
looks, `writeHostSkill` writes, and anybody may change the same names between two calls.
-/

namespace Ultrathink.Source.Teach.Install

open Library JsText Regex Runs

structure SkillDraft where
  name : Text
  content : Text
  sourceIds : List Text

/-- What stands at a path. A text is what `readFileSync` gives, through a link too. -/
inductive Node where
  | file (ino : Nat) (text : Option Text)
  | directory
  | symlink (text : Option Text)
  | special
  deriving DecidableEq

/-- The skill's directory, the `SKILL.md` in it, and the next number of a file. -/
structure Disk where
  dir : Option Node
  skill : Option Node
  inodes : Nat
  deriving DecidableEq

inductive Outcome where
  | created
  | updated
  | refused (reason : Text)
  | threw
  deriving DecidableEq

/-- The call of the file system that comes next. -/
inductive Stand where
  | statDir
  | statFile
  | reading
  | making
  | staging (replace : Bool)
  | claiming (tmp : Nat)
  | replacing (tmp : Nat) (placeholder : Option Nat)
  | removingTmp (placeholder : Option Nat) (outcome : Outcome)
  | removingPlaceholder (placeholder : Nat) (outcome : Outcome)
  | ended (outcome : Outcome)
  deriving DecidableEq

/-- An error of the file system: whether its code is `EEXIST`, and `failure(error)`. -/
structure Failure where
  exists_ : Bool
  text : Text

def markerId (id : Text) : Text :=
  id.filter fun u => isWord u || u = 0x2E || u = 0x3A || u = 0x2D

def MARKER_RE : Expr :=
  .seq .atStart <| .seq (literal false (js "<!--")) <| .seq spaces <|
    .seq (literal false (js "ultrathink:teach")) <|
    .seq (.alt (.seq (.one isSpace) (.seq spaces (.seq (literal false (js "ids="))
      (.group 1 (.many true (.one fun u => !isSpace u && u ≠ 0x3E)))))) .empty) <|
    .seq spaces <| .seq (literal false (js "-->")) .atEnd
where
  spaces : Expr := .many true (.one isSpace)

/-- The ids of the generated marker, in the last line; none without a marker. -/
def generatedIds (text : Text) : Option (List Text) :=
  let trimmed := text.rdropWhile isSpace
  (exec MARKER_RE (trim (trimmed.rtakeWhile (· ≠ 0x0A)))).map fun marker =>
    (((marker.group 1).getD []).splitOn 0x2C).map trim |>.filter (· ≠ [])

/-- Made from lessons of this install alone. -/
def isOurs (ids : List Text) (text : Text) : Bool :=
  (generatedIds text).any fun held => !held.isEmpty && held.all (ids.contains ·)

def theirs : Text := js "name taken by a skill made from other lessons"

/-- The end of `slotOf` on the text that was read, none where reading threw. -/
def judge (ids : List Text) : Option Text → Stand
  | none => .ended (.refused theirs)
  | some text =>
    if (generatedIds text).isNone then
      .ended (.refused (js "a skill with this name exists and was not written by ultrathink"))
    else if isOurs ids text then .staging true
    else .ended (.refused theirs)

def textAt : Option Node → Option Text
  | some (.file _ text) | some (.symlink text) => text
  | _ => none

/-- The `catch` of `writeHostSkill`. -/
def caught (error : Failure) : Outcome :=
  .refused (if error.exists_ then js "a skill with this name appeared meanwhile" else error.text)

def claimed : Failure := ⟨true, []⟩

def finished (outcome : Outcome) : Option Nat → Stand
  | none => .ended outcome
  | some placeholder => .removingPlaceholder placeholder outcome

/-- One call, which the file system may refuse. It does not answer against what stands there. -/
def step (draft : SkillDraft) (fails : Option Failure) (d : Disk) :
    Stand → Option (Disk × Stand)
  | .statDir =>
    some (d, match fails, d.dir with
      | some error, _ => .ended (.refused error.text)
      | none, none => .making
      | none, some (.symlink _) => .ended (.refused (js "skill directory is a symlink"))
      | none, some .directory => .statFile
      | none, some _ => .ended (.refused (js "skill path is not a directory")))
  | .statFile =>
    some (d, match fails, d.skill with
      | some error, _ => .ended (.refused error.text)
      | none, none => .making
      | none, some (.symlink _) => .ended (.refused (js "SKILL.md is a symlink"))
      | none, some (.file _ _) => .reading
      | none, some _ => .ended (.refused (js "SKILL.md is not a regular file")))
  | .reading =>
    some (d, judge (draft.sourceIds.map markerId) (if fails.isSome then none else textAt d.skill))
  | .making =>
    match fails, d.dir with
    | some error, _ => some (d, .ended (caught error))
    | none, none => some ({ d with dir := some .directory }, .staging false)
    | none, some .directory | none, some (.symlink _) => some (d, .staging false)
    | none, some _ => some (d, .ended (caught claimed))
  | .staging replace =>
    match fails with
    | some error => some (d, .ended (caught error))
    | none =>
      some ({ d with inodes := d.inodes + 1 },
        if replace then .replacing d.inodes none else .claiming d.inodes)
  | .claiming tmp =>
    match fails, d.skill with
    | some error, _ => some (d, .removingTmp none (caught error))
    | none, some _ => some (d, .removingTmp none (caught claimed))
    | none, none =>
      some ({ d with skill := some (.file d.inodes (some [])), inodes := d.inodes + 1 },
        .replacing tmp (some d.inodes))
  | .replacing tmp placeholder =>
    match fails, d.skill with
    | some error, _ => some (d, .removingTmp placeholder (caught error))
    | none, some .directory => none
    | none, _ =>
      some ({ d with skill := some (.file tmp (some draft.content)) },
        .ended (if placeholder.isNone then .updated else .created))
  | .removingTmp placeholder outcome =>
    some (d, if fails.isSome then .ended .threw else finished outcome placeholder)
  | .removingPlaceholder _ outcome =>
    match fails, d.skill with
    | some _, _ => some (d, .ended .threw)
    | none, some .directory => none
    | none, _ => some ({ d with skill := none }, .ended outcome)
  | .ended _ => none

structure State where
  disk : Disk
  stand : Stand
  deriving DecidableEq

inductive Label where
  | call (fails : Option Failure)
  /-- Anybody else leaves the names as given. -/
  | other (dir skill : Option Node) (inodes : Nat)

def next (draft : SkillDraft) (s : State) : Label → Option State
  | .call fails => (step draft fails s.disk s.stand).map fun (disk, stand) => ⟨disk, stand⟩
  | .other dir skill inodes =>
    if s.disk.inodes ≤ inodes then some { s with disk := ⟨dir, skill, inodes⟩ } else none

/-- `SKILL_NAME_RE` -/
def isSkillName : Text → Bool
  | [] => false
  | u :: rest => first u && rest.length ≤ 63 && rest.all fun v => first v || v = 0x2D
where
  first (u : UInt16) : Bool := isLowerLetter u || isDigit u

def CONTENT_MAX_BYTES : Nat := 60000

/-- Where a call starts. -/
def installSkill (draft : SkillDraft) : Stand :=
  if !isSkillName draft.name || trim draft.content = [] then
    .ended (.refused (js "invalid skill draft"))
  else if CONTENT_MAX_BYTES < (toUtf8 draft.content).length then
    .ended (.refused (js "skill draft is too large"))
  else .statDir

def installing (draft : SkillDraft) : System State Label :=
  System.ofStep (fun s => s.stand = installSkill draft) (next draft)

end Ultrathink.Source.Teach.Install
