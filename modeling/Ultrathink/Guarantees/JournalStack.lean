import Ultrathink.Source.Host.Journal

/-!
# Fetch journals leave no trace and do not chain

Wrappers installed and restored in any order. The purpose is a list of the journals that
are installed: an install appends one, a restore takes it out, and the global fetch is the
wrapper of the last one.
-/

namespace Ultrathink.Host.Journal

open List Library.JsText

/-- The journals installed and not restored, in the order of their installs; journals are
numbered as they are made. -/
structure Live where
  made : Nat
  journals : List Nat

def Live.step (live : Live) : Event → Live
  | .install _ _ => ⟨live.made + 1, live.journals ++ [live.made]⟩
  | .restore journal => ⟨live.made, live.journals.erase journal⟩

def Live.run (events : List Event) : Live := events.foldl Live.step ⟨0, []⟩

/-- The fetch that a host with these journals should have. -/
def Live.global (real : Nat) (live : Live) : Fetch :=
  match live.journals.getLast? with
  | none => .outside real
  | some journal => .wrapper journal

/-- Each original is the wrapper installed before, the first one `below`. -/
def Stacked (below : Fetch) : List Entry → Prop
  | [] => True
  | entry :: rest => entry.original = below ∧ Stacked entry.wrapped rest

/-- The function on top of the stack. -/
def top (below : Fetch) : List Entry → Fetch
  | [] => below
  | entry :: rest => top entry.wrapped rest

theorem top_append (below : Fetch) (entries : List Entry) (entry : Entry) :
    top below (entries ++ [entry]) = entry.wrapped := by
  induction entries generalizing below with
  | nil => rfl
  | cons first rest ih => exact ih first.wrapped

variable {below : Fetch} {real journal : Nat} {p : Process} {live : Live} {entries : List Entry}
  {entry : Entry}

theorem stacked_append (stacked : Stacked below entries) (journal : Nat) :
    Stacked below (entries ++ [⟨journal, top below entries⟩]) := by
  induction entries generalizing below with
  | nil => exact ⟨rfl, trivial⟩
  | cons first rest ih => exact ⟨stacked.1, ih stacked.2⟩

theorem stacked_relink {rest : List Entry} (here : entry.original = below)
    (stacked : Stacked entry.wrapped rest) :
    Stacked below (relink entry rest) := by
  cases rest with
  | nil => trivial
  | cons inner rest =>
    obtain ⟨on, above⟩ := stacked
    rw [relink, if_pos on]
    exact ⟨here, above⟩

theorem journals_relink (entry : Entry) (rest : List Entry) :
    (relink entry rest).map Entry.journal = rest.map Entry.journal := by
  cases rest with
  | nil => rfl
  | cons inner rest =>
    rw [relink]
    split <;> rfl

theorem top_mem (below : Fetch) (first : Entry) (rest : List Entry) :
    ∃ entry ∈ first :: rest, top below (first :: rest) = entry.wrapped := by
  induction rest generalizing below first with
  | nil => exact ⟨first, by simp, rfl⟩
  | cons inner rest ih =>
    obtain ⟨entry, mem, last⟩ := ih first.wrapped inner
    exact ⟨entry, mem_cons_of_mem _ mem, last⟩

theorem top_relink {rest : List Entry} (here : entry.original = below)
    (apart : entry.journal ∉ rest.map Entry.journal) :
    top below (relink entry rest) =
      if top entry.wrapped rest = entry.wrapped then entry.original else top entry.wrapped rest := by
  cases rest with
  | nil => rw [relink, top, top, if_pos rfl, here]
  | cons inner rest =>
    have other : top entry.wrapped (inner :: rest) ≠ entry.wrapped := by
      obtain ⟨last, mem, onTop⟩ := top_mem entry.wrapped inner rest
      rw [onTop]
      intro same
      have journal : last.journal = entry.journal := Fetch.wrapper.inj same
      exact apart (journal ▸ mem_map_of_mem mem)
    rw [if_neg other, relink]
    split <;> rfl

theorem spliceOut_none (absent : spliceOut journal entries = none) :
    journal ∉ entries.map Entry.journal := by
  induction entries with
  | nil => simp
  | cons entry rest ih =>
    rw [spliceOut] at absent
    split at absent
    · cases absent
    next other =>
      rw [Option.map_eq_none_iff] at absent
      simp only [map_cons, mem_cons, not_or]
      exact ⟨fun same => other same.symm, ih absent⟩

/-- What a splice leaves is stacked again, and the wrapper taken out was on top exactly
when nothing was installed after it. -/
theorem spliceOut_some {left : List Entry} (found : spliceOut journal entries = some (entry, left))
    (stacked : Stacked below entries) (apart : (entries.map Entry.journal).Nodup) :
    entry.journal = journal ∧ Stacked below left ∧
      left.map Entry.journal = (entries.map Entry.journal).erase journal ∧
      top below left =
        if top below entries = entry.wrapped then entry.original else top below entries := by
  induction entries generalizing below left with
  | nil => cases found
  | cons first rest ih =>
    rw [spliceOut] at found
    simp only [map_cons, nodup_cons] at apart
    split at found
    next same =>
      cases found
      refine ⟨same, stacked_relink stacked.1 stacked.2, ?_, ?_⟩
      · rw [journals_relink, map_cons, same, erase_cons_head]
      · exact top_relink stacked.1 apart.1
    next other =>
      obtain ⟨⟨found', left'⟩, spliced, made⟩ := Option.map_eq_some_iff.mp found
      cases made
      obtain ⟨same, stacked', journals, top'⟩ := ih spliced stacked.2 apart.2
      refine ⟨same, ⟨stacked.1, stacked'⟩, ?_, ?_⟩
      · rw [map_cons, map_cons, journals, erase_cons_tail]
        simpa using other
      · exact top'

/-- The process keeps the chain that its purpose asks for. -/
structure Keeps (real : Nat) (p : Process) (live : Live) : Prop where
  journals : p.installed.map Entry.journal = live.journals
  count : p.made.length = live.made
  drawn : ∀ journal ∈ live.journals, journal < live.made
  apart : live.journals.Nodup
  stacked : Stacked (.outside real) p.installed
  global : p.global = top (.outside real) p.installed

theorem keeps_install (kept : Keeps real p live) (dir : Text) (base : Option Fetch) :
    Keeps real (install dir base p) (live.step (.install dir base)) where
  journals := by simp [install, Live.step, kept.journals, kept.count]
  count := by simp [install, Live.step, kept.count]
  drawn := by
    intro journal mem
    rcases mem_append.mp mem with old | new
    · exact Nat.lt_succ_of_lt (kept.drawn journal old)
    · rw [mem_singleton.mp new]
      exact Nat.lt_succ_self _
  apart := by
    refine nodup_append.mpr ⟨kept.apart, by simp, fun journal old other new => ?_⟩
    have bound := kept.drawn journal old
    rw [mem_singleton.mp new]
    omega
  stacked := by
    rw [install, kept.global]
    exact stacked_append kept.stacked _
  global := (top_append ..).symm

theorem keeps_restore (kept : Keeps real p live) (journal : Nat) :
    Keeps real (restore journal p) (live.step (.restore journal)) := by
  unfold restore
  cases found : spliceOut journal p.installed with
  | none =>
    have absent := spliceOut_none found
    rw [kept.journals] at absent
    have same : live.step (.restore journal) = live := by
      rw [Live.step, erase_of_not_mem absent]
    rw [same]
    exact kept
  | some spliced =>
    obtain ⟨entry, left⟩ := spliced
    obtain ⟨rfl, stacked, journals, top'⟩ :=
      spliceOut_some found kept.stacked (kept.journals ▸ kept.apart)
    rw [kept.journals] at journals
    exact {
      journals := journals
      count := kept.count
      drawn := fun journal mem => kept.drawn journal (mem_of_mem_erase mem)
      apart := kept.apart.erase _
      stacked := stacked
      global := by
        simp only
        rw [kept.global]
        exact top'.symm }

theorem keeps_run (real : Nat) (events : List Event) :
    Keeps real (run real events) (Live.run events) := by
  induction events using List.reverseRecOn with
  | nil => exact ⟨rfl, rfl, by simp [Live.run], by simp [Live.run], trivial, rfl⟩
  | append_singleton events event ih =>
    rw [run, Live.run, foldl_concat, foldl_concat]
    cases event with
    | install dir base => exact keeps_install ih dir base
    | restore journal => exact keeps_restore ih journal

theorem top_eq_getLast? (below : Fetch) (entries : List Entry) :
    top below entries =
      match (entries.map Entry.journal).getLast? with
      | none => below
      | some journal => .wrapper journal := by
  induction entries using List.reverseRecOn with
  | nil => rfl
  | append_singleton entries entry _ =>
    rw [top_append, map_append, map_singleton, getLast?_concat]
    rfl

/-- No journal was made on top of another's wrapper. -/
def Plain (base : Option Fetch) : Prop := ∀ journal, base ≠ some (.wrapper journal)

def PlainInstall : Event → Prop
  | .install _ base => Plain base
  | .restore _ => True

def OnOutside (made : Made) : Prop := ∃ k, made.base = .outside k

theorem defaultBase_of_keeps (kept : Keeps real p live) :
    defaultBase p = .outside real := by
  have stacked := kept.stacked
  have global := kept.global
  unfold defaultBase
  cases installed : p.installed with
  | nil =>
    rw [installed] at global
    exact global
  | cons first rest =>
    rw [installed] at stacked
    exact stacked.1

theorem onOutside_install (kept : Keeps real p live) {base : Option Fetch} (plain : Plain base)
    (dir : Text) (before : ∀ made ∈ p.made, OnOutside made) :
    ∀ made ∈ (install dir base p).made, OnOutside made := by
  intro made mem
  rcases mem_cons.mp mem with rfl | old
  · cases base with
    | none => exact ⟨real, defaultBase_of_keeps kept⟩
    | some f =>
      cases f with
      | outside k => exact ⟨k, rfl⟩
      | wrapper journal => exact absurd rfl (plain journal)
  · exact before made old

theorem made_restore (journal : Nat) (p : Process) : (restore journal p).made = p.made := by
  unfold restore
  split <;> rfl

theorem onOutside_run (real : Nat) {events : List Event}
    (plain : ∀ event ∈ events, PlainInstall event) :
    ∀ made ∈ (run real events).made, OnOutside made := by
  induction events using List.reverseRecOn with
  | nil => simp [run, initial]
  | append_singleton events event ih =>
    have before := ih fun event mem => plain event (mem_append_left _ mem)
    have last := plain event (by simp)
    rw [run, foldl_concat]
    cases event with
    | install dir base => exact onOutside_install (keeps_run real events) last dir before
    | restore journal =>
      rw [step, made_restore]
      exact before

/-- Where no journal is made on another's wrapper, a call through the wrapper of one is
recorded by it alone, in its own directory. -/
theorem call_records {ρ : Type} {h : Platform ρ} {made : List Made} {input : ρ} {files : Files}
    {called : Called} (plain : ∀ m ∈ made, OnOutside m)
    (done : call h made (.wrapper journal) input files = some called) :
    (∀ record ∈ called.records, record.1 = journal) ∧
      ∀ dir key, called.files dir key ≠ files dir key →
        ∃ m ∈ made, m.journal = journal ∧ m.dir = dir := by
  induction made with
  | nil => cases done
  | cons m older ih =>
    obtain ⟨k, base⟩ := plain m (by simp)
    rw [call] at done
    split at done
    next same =>
      cases keyed : h.decisionKey input with
      | none =>
        simp only [keyed, base, call, Option.some.injEq] at done
        subst done
        exact ⟨by simp, fun dir key changed => absurd rfl changed⟩
      | some key =>
        simp only [keyed] at done
        cases found : files m.dir key with
        | some saved =>
          simp only [found, Option.some.injEq] at done
          subst done
          exact ⟨by simp, fun dir key changed => absurd rfl changed⟩
        | none =>
          simp only [found, base, call, Option.map_some, Option.some.injEq] at done
          subst done
          split
          · refine ⟨by simp, fun dir other changed => ⟨m, by simp, same, ?_⟩⟩
            by_contra apart
            exact changed (by simp [save, Ne.symm apart])
          · exact ⟨by simp, fun dir key changed => absurd rfl changed⟩
    next =>
      obtain ⟨own, changes⟩ := ih (fun m mem => plain m (mem_cons_of_mem _ mem)) done
      refine ⟨own, fun dir key changed => ?_⟩
      obtain ⟨m', mem, found⟩ := changes dir key changed
      exact ⟨m', mem_cons_of_mem _ mem, found⟩

/-- After installs and restores in any order the global fetch is the wrapper of the latest
install that was not restored, or the real fetch; and where no install was given another
journal's wrapper to call, no journal records a call through another's. -/
theorem journals_apart (real : Nat) (events : List Event) :
    (run real events).global = (Live.run events).global real ∧
      ((∀ event ∈ events, PlainInstall event) →
        ∀ {ρ : Type} (h : Platform ρ) (journal : Nat) (input : ρ) (files : Files) (called : Called),
          call h (run real events).made (.wrapper journal) input files = some called →
          (∀ record ∈ called.records, record.1 = journal) ∧
            ∀ dir key, called.files dir key ≠ files dir key →
              ∃ m ∈ (run real events).made, m.journal = journal ∧ m.dir = dir) := by
  have kept := keeps_run real events
  refine ⟨?_, fun plain ρ h journal input files called done => ?_⟩
  · rw [kept.global, top_eq_getLast?, kept.journals]
    rfl
  · exact call_records (onOutside_run real plain) done

/-- Two journals, the first restored before the second. -/
theorem journals_apart_overlapping :
    (run 0 [.install (js "a") none, .install (js "b") none, .restore 0]).global = .wrapper 1 ∧
      (∀ called, call (ρ := Unit) ⟨fun _ => some (js "k"), fun _ _ => ⟨200, none, js "r"⟩⟩
        (run 0 [.install (js "a") none, .install (js "b") none, .restore 0]).made (.wrapper 1) ()
        (fun _ _ => none) = some called → ∀ record ∈ called.records, record.1 = 1) := by
  obtain ⟨global, apart⟩ :=
    journals_apart 0 [.install (js "a") none, .install (js "b") none, .restore 0]
  refine ⟨global.trans rfl, fun called done => (apart ?_ _ 1 () _ called done).1⟩
  intro event mem
  simp only [mem_cons, not_mem_nil, or_false] at mem
  rcases mem with rfl | rfl | rfl
  · exact fun journal => nofun
  · exact fun journal => nofun
  · trivial

/-- A journal that is given another's wrapper as its base calls through it, and the other
records the call too. -/
theorem journals_chained :
    ((call (ρ := Unit) ⟨fun _ => some (js "k"), fun _ _ => ⟨200, none, js "r"⟩⟩
      (run 0 [.install (js "a") none, .install (js "b") (some (.wrapper 0))]).made (.wrapper 1) ()
      (fun _ _ => none)).map fun called => called.records.map Prod.fst) = some [0, 1] := by
  decide

end Ultrathink.Host.Journal
