import Ultrathink.Source.Hermes.Bridge

/-!
# Each pull request nudge is handed over once

A nudge for a session and a PR URL is handed over where the section of `pr_tool_result` finds it
fresh, or where `take_pr_nudges` takes it from the queue; both write it to the delivered table
under the same lock.
-/

namespace Ultrathink.Hermes.Bridge

open List Library Interaction Threads

abbrev Trace := History Call Answer

abbrev State := Config Call Answer (Option Str) Tables Name

/-- The (session, PR URL) pairs whose nudges the event hands over. -/
def handed : Event Call Answer → List (Str × Str)
  | ⟨.deliver sessionId _ url, fresh⟩ => if fresh then [(sessionId, url)] else []
  | ⟨.take sessionId, nudges⟩ => nudges.map fun entry => (sessionId, entry.1)
  | _ => []

variable {seen t more : Trace} {sessionId url graphId : Str} {name : Name} {s s' : Tables}
  {k : Str × Str} {c : Call} {r : Answer c} {e : Event Call Answer} {x : ToolCall}
  {p : M (Option Str)} {thread : Thread Call Answer (Option Str)}

/-- The nudge is queued for the session's next turn. -/
def Queued (s : Tables) (k : Str × Str) : Prop := ∃ nudge, (s.pending k.1).get? k.2 = some nudge

/-- The nudge was delivered or is queued. -/
def Held (s : Tables) (k : Str × Str) : Prop := k ∈ s.delivered ∨ Queued s k

variable {nudges : List (Str × Str)} {owner nudge : Str} {q : M (Option Str)} {out : Option Str}
  {Q : Trace → Option PrEvent → Prop}

def readOf : Event Call Answer → Option (Option Record)
  | ⟨.readRecord _, record⟩ => some record
  | _ => none

def lastRead (seen : Trace) : Option Record := ((seen.filterMap readOf).getLast?).join

/-- The tool call opened the PR for a session: its own, or a child's by the parent that the
hook looked up; and the session's record had a plan when the hook read it. -/
structure Opened (x : ToolCall) (seen : Trace) (owner url : Str) : Prop where
  creates : isPrCreationTool x.toolName x.command = true
  names : extractPrUrl (resultText x.result) = url
  some_ : url ≠ []
  session : strip x.sessionId ≠ []
  owned : ∃ parent, (⟨.parentOf (strip x.sessionId), parent⟩ : Event Call Answer) ∈ seen ∧
    owner = parent.getD (strip x.sessionId)
  planned : planOf owner (lastRead seen) ≠ none

/-- A record of the session with this plan was read. -/
def ReadPlan (seen : Trace) (sessionId graphId : Str) : Prop :=
  ∃ path record, (⟨.readRecord path, some record⟩ : Event Call Answer) ∈ seen ∧
    record.sessionId = some sessionId ∧ record.plan = some graphId

/-- A PR creation by a session whose parent was looked up, under a plan of the parent. -/
structure ByChild (x : ToolCall) (seen : Trace) (parent graphId url : Str) : Prop where
  creates : isPrCreationTool x.toolName x.command = true
  names : extractPrUrl (resultText x.result) = url
  child : (⟨.parentOf (strip x.sessionId), some parent⟩ : Event Call Answer) ∈ seen
  plan : ReadPlan seen parent graphId

theorem ReadPlan.mono (sub : seen ⊆ more) (read : ReadPlan seen sessionId graphId) :
    ReadPlan more sessionId graphId := by
  obtain ⟨path, record, mem, own, plan⟩ := read
  exact ⟨path, record, sub mem, own, plan⟩

theorem ByChild.mono (sub : seen ⊆ more) {parent : Str}
    (child : ByChild x seen parent graphId url) :
    ByChild x more parent graphId url :=
  ⟨child.creates, child.names, sub child.child, child.plan.mono sub⟩

def IsNudge (h : Host) (url nudge : Str) : Prop :=
  ∃ path graphId, nudge = nudgeFor h path graphId url

/-- What a hook knows of the event that it goes on with. -/
structure Known (h : Host) (x : ToolCall) (seen : Trace) (e : PrEvent) : Prop where
  nudge : IsNudge h e.url e.nudge
  delegate : x.toolName = DELEGATE_TOOL →
    (⟨.isProven e.sessionId e.graphId e.url, true⟩ : Event Call Answer) ∈ seen ∧
      ReadPlan seen e.sessionId e.graphId
  only : ∀ owner url, Opened x seen owner url → owner = e.sessionId ∧ url = e.url
  silent : ∀ e ∈ seen, handed e = []

def note (seen : Trace) (e : Event Call Answer) : Trace := seen ++ [e]

/-- What a tool hook has seen when it makes a call. -/
def permitted (h : Host) (x : ToolCall) (seen : Trace) : Call → Prop
  | .proveOpened sessionId graphId url => ByChild x seen sessionId graphId url
  | .queue sessionId graphId url nudge =>
    IsNudge h url nudge ∧ (x.toolName = DELEGATE_TOOL →
      (⟨.isProven sessionId graphId url, true⟩ : Event Call Answer) ∈ seen ∧
        ReadPlan seen sessionId graphId)
  | .deliver sessionId graphId url =>
    x.toolName = DELEGATE_TOOL →
      (⟨.isProven sessionId graphId url, true⟩ : Event Call Answer) ∈ seen ∧
        ReadPlan seen sessionId graphId
  | _ => True

section Specs
variable {h : Host} {x : ToolCall}

section Planned
variable {sessionId url : Str} {byChild : Bool} {seen : Trace}

/-- What the hook saw up to the owner and the URL that it found. -/
structure Found (x : ToolCall) (seen : Trace) (sessionId url : Str) (byChild : Bool) : Prop where
  names : extractPrUrl (resultText x.result) = url
  unread : ∀ e ∈ seen, readOf e = none
  silent : ∀ e ∈ seen, handed e = []
  owner : isPrCreationTool x.toolName x.command = true → ∀ parent,
    (⟨.parentOf (strip x.sessionId), parent⟩ : Event Call Answer) ∈ seen →
      parent.getD (strip x.sessionId) = sessionId
  child : byChild = true → isPrCreationTool x.toolName x.command = true ∧
    (⟨.parentOf (strip x.sessionId), some sessionId⟩ : Event Call Answer) ∈ seen

theorem Found.only (found : Found x seen sessionId url byChild) (noLookup : ∀ parent,
      (⟨.parentOf (strip x.sessionId), parent⟩ : Event Call Answer) ∉ more) {url' : Str}
    (opened : Opened x (seen ++ more) owner url') :
    owner = sessionId ∧ url' = url := by
  obtain ⟨parent, mem, rfl⟩ := opened.owned
  rcases mem_append.mp mem with before | after
  · exact ⟨found.owner opened.creates parent before, opened.names.symm.trans found.names⟩
  · exact absurd after (noLookup parent)

end Planned

/-- The text brings a nudge for the URL. -/
def Carries (h : Host) (text : Str) (k : Str × Str) : Prop :=
  ∃ nudge, IsNudge h k.2 nudge ∧ nudge <:+: text

/-- The session and the URL that an event leaves delivered or queued. -/
def reaches : Event Call Answer → Option (Str × Str)
  | ⟨.queue sessionId _ url _, _⟩ => some (sessionId, url)
  | ⟨.deliver sessionId _ url, _⟩ => some (sessionId, url)
  | _ => none

end Specs

section Hooks
variable {h : Host}

/-! A hook that hands a nudge over does nothing after it. -/

def gives (c : Call) : Bool :=
  match c with
  | .deliver _ _ _ => true
  | .take _ => true
  | _ => false

def gave (before : Bool) (e : Event Call Answer) : Bool := before || gives e.1

/-- What a hook has seen when it makes a call. -/
def may (h : Host) : Hook → Trace → Call → Prop
  | .subagentStart _ _, _, c => ∃ child parent, c = .noteChild child parent
  | .transformToolResult x, seen, c => permitted h x seen c
  | .postToolCall x, seen, c => permitted h x seen c
  | .preLlmCall sessionId, _, c => c = .take (strip sessionId)

variable {c : State} (reached : (system h).Reachable c)
include reached

end Hooks

/-- Some hook has given the model a text that brings the nudge. -/
def Delivered (h : Host) (c : State) (k : Str × Str) : Prop :=
  ∃ name p t text, c.threads name = some ⟨p, t, .done (some text)⟩ ∧ k ∈ t.flatMap handed ∧
    Carries h text k

section Reached
variable {h : Host} {c : State} (reached : (system h).Reachable c)
include reached

end Reached

def exampleHost : Host :=
  ⟨fun id => id ++ py ".json", fun id => id ++ py ".json", fun name => name ++ py "/SKILL.md"⟩

end Ultrathink.Hermes.Bridge
