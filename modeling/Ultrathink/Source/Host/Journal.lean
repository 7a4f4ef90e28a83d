import Ultrathink.Library.JsText

/-!
# The Decisions fetch journal (`src/host/grokbot.ts`)

`installDecisionsJournal`: wrappers around the global fetch that may be installed and
restored in any order. A function is the fetch that was there before (or any other that no
journal made) or the wrapper of a journal, numbered in the order they were made. The time
stamp of a saved response is left out, since nothing reads it.
-/

namespace Ultrathink.Host.Journal

open Library.JsText

inductive Fetch where
  | outside (k : Nat)
  | wrapper (journal : Nat)
  deriving DecidableEq

/-- `InstalledJournal`; `wrapped` is the wrapper of `journal`. -/
structure Entry where
  journal : Nat
  original : Fetch
  deriving DecidableEq

def Entry.wrapped (entry : Entry) : Fetch := .wrapper entry.journal

/-- What the wrapper of a journal was made with. -/
structure Made where
  journal : Nat
  dir : Text
  base : Fetch

structure Process where
  /-- `globalThis.fetch` -/
  global : Fetch
  /-- `installedJournals`, outermost first. -/
  installed : List Entry
  /-- Every wrapper so far, newest first. -/
  made : List Made

/-- The default of `base`: the fetch beneath every installed wrapper. -/
def defaultBase (p : Process) : Fetch := (p.installed.head?.map Entry.original).getD p.global

def install (dir : Text) (base : Option Fetch) (p : Process) : Process :=
  let base := base.getD (defaultBase p)
  let entry : Entry := ⟨p.made.length, p.global⟩
  { global := entry.wrapped
    installed := p.installed ++ [entry]
    made := ⟨entry.journal, dir, base⟩ :: p.made }

/-- A wrapper installed over this one now sits directly on what this one replaced. -/
def relink (entry : Entry) : List Entry → List Entry
  | [] => []
  | inner :: rest =>
    (if inner.original = entry.wrapped then { inner with original := entry.original } else inner) ::
      rest

/-- The entry taken out of the installed ones, none when it is not among them. -/
def spliceOut (journal : Nat) : List Entry → Option (Entry × List Entry)
  | [] => none
  | entry :: rest =>
    if entry.journal = journal then some (entry, relink entry rest)
    else (spliceOut journal rest).map fun (found, left) => (found, entry :: left)

/-- The function that `install` returned for the journal. -/
def restore (journal : Nat) (p : Process) : Process :=
  match spliceOut journal p.installed with
  | none => p
  | some (entry, left) =>
    { p with
      installed := left
      global := if p.global = entry.wrapped then entry.original else p.global }

inductive Event where
  | install (dir : Text) (base : Option Fetch)
  | restore (journal : Nat)

def step (p : Process) : Event → Process
  | .install dir base => install dir base p
  | .restore journal => restore journal p

/-- A process whose fetch no journal made. -/
def initial (real : Nat) : Process := ⟨.outside real, [], []⟩

def run (real : Nat) (events : List Event) : Process := events.foldl step (initial real)

structure Response where
  status : Nat
  contentType : Option Text
  body : Text

def Response.ok (response : Response) : Bool := 200 ≤ response.status && response.status ≤ 299

structure Saved where
  status : Nat
  body : Text

/-- The saved responses, by directory and key. -/
abbrev Files := Text → Text → Option Saved

def save (files : Files) (dir key : Text) (saved : Saved) : Files :=
  fun d k => if d = dir ∧ k = key then some saved else files d k

/-- What the wrappers read of a call, and what the other functions answer it. -/
structure Platform (ρ : Type) where
  /-- The key of a POST with a text body to a Decisions URL, none for any other call. -/
  decisionKey : ρ → Option Text
  answer : Nat → ρ → Response

/-- What a call gave: the response, the files after it and the journals that recorded it. -/
structure Called where
  response : Response
  files : Files
  records : List (Nat × Text)

def json : Text := js "application/json"

/-- A call through `f`; none when no journal made it. -/
def call {ρ : Type} (h : Platform ρ) : List Made → Fetch → ρ → Files → Option Called
  | _, .outside k, input, files => some ⟨h.answer k input, files, []⟩
  | [], .wrapper _, _, _ => none
  | made :: older, .wrapper journal, input, files =>
    if made.journal = journal then
      match h.decisionKey input with
      | none => call h older made.base input files
      | some key =>
        match files made.dir key with
        | some saved => some ⟨⟨saved.status, some json, saved.body⟩, files, []⟩
        | none =>
          (call h older made.base input files).map fun called =>
            let response :=
              { called.response with contentType := some (called.response.contentType.getD json) }
            if called.response.ok then
              ⟨response, save called.files made.dir key ⟨response.status, response.body⟩,
                called.records ++ [(journal, key)]⟩
            else ⟨response, called.files, called.records⟩
    else call h older (.wrapper journal) input files

end Ultrathink.Host.Journal
