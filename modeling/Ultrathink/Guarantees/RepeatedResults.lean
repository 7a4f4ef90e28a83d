import Ultrathink.Source.TokenOpt.ToolResult

/-!
# An omitted repeat was delivered

A hash that has been seen is of a result that was left in the conversation since the session
last began or was compacted, whole or shortened: the steps after the hash was added leave the
result so, also where they throw.
-/

namespace Ultrathink.Guarantees.RepeatedResults

open Library JsText Source.TokenOpt.Shrink Source.TokenOpt.ToolResult
open List hiding lookup replace

def Delivered (replaced : Option Kind) : Prop :=
  replaced ≠ some .pointer ∧ replaced ≠ some .empty

/-- The point of a replacement; an empty result may be replaced without one. -/
def Recorded (s t : State) (kind : Kind) : Prop :=
  (∃ p : Point, t.points = p :: s.points ∧ p.saved = p.baseline - p.current ∧
      p.current ≤ p.baseline) ∨
    (kind = .empty ∧ t.points = s.points)

/-- Nothing that the pointers rest on has changed. -/
structure Framed (s t : State) : Prop where
  active : t.active = s.active
  seenResults : t.seenResults = s.seenResults
  left : t.left = s.left
  hashed : t.hashed = s.hashed

theorem Framed.refl (s : State) : Framed s s := ⟨rfl, rfl, rfl, rfl⟩

/-- An attempt after which the result is replaced by one of these kinds, if at all. -/
structure Answers (s : State) (kinds : Kind → Prop) (a : Attempt Answer) : Prop where
  framed : Framed s (caught a).1
  replaced : ∀ r, (caught a).2 = some r → kinds r.kind ∧ Recorded s (caught a).1 r.kind

theorem record_cases (x : Throws) (p : Point) (s : State) :
    record x p s = .error s ∨
      (0 ≤ p.saved ∧ record x p s = .ok { s with points := p :: s.points }) := by
  unfold record
  split
  · exact .inl rfl
  next fits =>
    simp only [Bool.or_eq_true, decide_eq_true_eq, not_or] at fits
    exact .inr ⟨Int.not_lt.mp fits.2, rfl⟩

theorem spendBudget_cases (x : Throws) (text : Text) (s : State) :
    spendBudget x text s = .error s ∨
      ∃ budget, spendBudget x text s = .ok { s with budget := budget } := by
  unfold spendBudget
  split
  next none_ => exact .inr ⟨s.budget, rfl⟩
  next b some_ =>
    split
    · exact .inl rfl
    · exact .inr ⟨_, rfl⟩

theorem keep_answers (x : Throws) (joined : Text) (s : State) {kinds : Kind → Prop} :
    Answers s kinds (keep x joined s) := by
  unfold keep
  rcases spendBudget_cases x joined s with thrown | ⟨budget, spent⟩
  · rw [thrown]
    exact ⟨.refl s, fun r bad => by cases bad⟩
  · rw [spent]
    exact ⟨⟨rfl, rfl, rfl, rfl⟩, fun r bad => by cases bad⟩

theorem replace_answers (x : Throws) {p : Point} (saved : p.saved = p.baseline - p.current)
    (kind : Kind) (blocks : List Block) (text : Text) (s : State) {kinds : Kind → Prop}
    (allowed : kinds kind) : Answers s kinds (replace x p kind blocks text s) := by
  unfold replace
  rcases record_cases x p s with thrown | ⟨enough, recorded⟩
  · rw [thrown]
    exact ⟨.refl s, fun r bad => by cases bad⟩
  · rw [recorded]
    dsimp only [bind, Except.bind]
    rcases spendBudget_cases x text { s with points := p :: s.points } with thrown | ⟨budget, spent⟩
    · rw [thrown]
      exact ⟨⟨rfl, rfl, rfl, rfl⟩, fun r bad => by cases bad⟩
    · rw [spent]
      refine ⟨⟨rfl, rfl, rfl, rfl⟩, fun r given => ?_⟩
      cases given
      exact ⟨allowed, .inl ⟨p, rfl, saved, by omega⟩⟩

section Steps
variable (x : Throws) (now : Nat) (blocks : List Block) (joined : Text) (s : State)

theorem emptied_answers (e : ToolResultEvent) :
    Answers s (· = .empty) (emptied x now e blocks joined s) := by
  unfold emptied
  dsimp only
  split
  · exact replace_answers x rfl .empty blocks _ s rfl
  · rcases spendBudget_cases x (js "token-opt: " ++ e.tool ++ js " empty") s with
      thrown | ⟨budget, spent⟩
    · rw [thrown]
      exact ⟨.refl s, fun r bad => by cases bad⟩
    · rw [spent]
      refine ⟨⟨rfl, rfl, rfl, rfl⟩, fun r given => ?_⟩
      cases given
      exact ⟨rfl, .inr ⟨rfl, rfl⟩⟩

theorem repeated_answers (e : ToolResultEvent) :
    Answers s (· = .pointer) (repeated x now e blocks joined s) :=
  replace_answers x rfl .pointer blocks _ s rfl

/-- The kinds that leave the result in the conversation. -/
def Shorter (kind : Kind) : Prop := Delivered (some kind)

theorem shrunk_answers : Answers s Shorter (shrunk x now blocks joined s) := by
  unfold shrunk
  dsimp only
  split
  · exact ⟨.refl s, fun r bad => by cases bad⟩
  · split
    · exact keep_answers x joined s
    · refine replace_answers x ?_ .shrunk blocks _ s ⟨by simp, by simp⟩
      exact saved_shrink joined s.cap

theorem skimmed_answers (path : Text) : Answers s Shorter (skimmed x now blocks joined path s) := by
  unfold skimmed
  dsimp only
  split
  · exact ⟨.refl s, fun r bad => by cases bad⟩
  · -- the archive of skimmed bodies is no part of the frame
    have moved : ∀ {t : State} {a : Attempt Answer}, Framed s t → t.points = s.points →
        Answers t Shorter a → Answers s Shorter a := by
      intro t a framed points answers
      refine ⟨⟨answers.framed.active.trans framed.active,
        answers.framed.seenResults.trans framed.seenResults,
        answers.framed.left.trans framed.left, answers.framed.hashed.trans framed.hashed⟩, ?_⟩
      intro r given
      obtain ⟨kind, recorded⟩ := answers.replaced r given
      rw [Recorded, points] at recorded
      exact ⟨kind, recorded⟩
    generalize (if (skimSource joined path).length < joined.length then
      rememberSkim path joined s.skimArchive else s.skimArchive) = archive
    have framed : Framed s { s with skimArchive := archive } := ⟨rfl, rfl, rfl, rfl⟩
    have shorter : Shorter .skimmed := ⟨by simp, by simp⟩
    split
    · exact moved framed rfl (replace_answers x rfl .skimmed blocks _ _ shorter)
    · exact moved framed rfl (shrunk_answers x now blocks joined _)

theorem shortened_answers (e : ToolResultEvent) :
    Answers s Shorter (shortened x now e blocks joined s) := by
  unfold shortened
  split
  · exact keep_answers x joined s
  · split
    · exact skimmed_answers x now blocks joined s _
    · exact shrunk_answers x now blocks joined s

end Steps

/-- A result that was left whole or shortened, under its hash. -/
def Stands (o : Options) (s : State) (sessionId : Text) (value : Text) : Prop :=
  ∃ l ∈ s.left, l.sessionId = sessionId ∧ Delivered l.replaced ∧
    keyBytes sessionId l.toolName l.text ∈ s.hashed ∧
      value = o.hash (keyBytes sessionId l.toolName l.text)

structure Inv (o : Options) (s : State) : Prop where
  sessions : ∀ sessionId values, s.seenResults sessionId = some values → sessionId = s.active
  stands : ∀ values, s.seenResults s.active = some values →
    ∀ value ∈ values, Stands o s s.active value

/-- What a handler does to the seen results, with the result that it leaves. -/
structure Seen (o : Options) (s t : State) (toolName joined : Text) (replaced : Option Kind) :
    Prop where
  active : t.active = s.active
  left : t.left = s.left
  sessions : ∀ sessionId, sessionId ≠ s.active → t.seenResults sessionId = s.seenResults sessionId
  hashed : ∀ key ∈ s.hashed, key ∈ t.hashed
  values : ∀ values, t.seenResults s.active = some values → ∀ value ∈ values,
    (∃ old, s.seenResults s.active = some old ∧ value ∈ old) ∨
      (Delivered replaced ∧ keyBytes s.active toolName joined ∈ t.hashed ∧
        value = o.hash (keyBytes s.active toolName joined))

variable {o : Options} {s t : State} {value : Text}

theorem Framed.seen (framed : Framed s t) (toolName joined : Text) (replaced : Option Kind) :
    Seen o s t toolName joined replaced where
  active := framed.active
  left := framed.left
  sessions := fun _ _ => by rw [framed.seenResults]
  hashed := fun key mem => framed.hashed ▸ mem
  values := by
    intro values given value mem
    rw [framed.seenResults] at given
    exact .inl ⟨values, given, mem⟩

theorem mem_add {bounded : Bool} {other : Text} {values : DedupeSet}
    (mem : other ∈ DedupeSet.add bounded value values) : other ∈ values ∨ other = value := by
  unfold DedupeSet.add at mem
  have grown : ∀ {l : List Text}, (∀ v ∈ l, v ∈ values) → other ∈ l ++ [value] →
      other ∈ values ∨ other = value := by
    intro l sub within
    rcases mem_append.mp within with old | new
    · exact .inl (sub other old)
    · exact .inr (mem_singleton.mp new)
  split at mem
  · have sub : ∀ v ∈ List.filter (fun u => decide (u ≠ value)) values, v ∈ values :=
      fun v within => (mem_filter.mp within).1
    dsimp only at mem
    split at mem
    · exact grown sub (mem_of_mem_tail mem)
    · exact grown sub mem
  · split at mem
    · exact .inl mem
    · exact grown (fun _ within => within) mem

theorem has_cases {bounded : Bool} {values looked : DedupeSet} {found : Bool}
    (same : DedupeSet.has bounded value values = (looked, found)) :
    (found = true → value ∈ values) ∧ ∀ other ∈ looked, other ∈ values := by
  unfold DedupeSet.has at same
  split at same
  next there =>
    obtain ⟨rfl, rfl⟩ := Prod.mk.inj same
    have mem : value ∈ values := contains_iff_mem.mp there
    refine ⟨fun _ => mem, fun other within => ?_⟩
    split at within
    · rcases mem_append.mp within with old | new
      · exact (mem_filter.mp old).1
      · exact mem_singleton.mp new ▸ mem
    · exact within
  · obtain ⟨rfl, rfl⟩ := Prod.mk.inj same
    exact ⟨(fun bad => by cases bad), fun _ within => within⟩

theorem lookup_cases (o : Options) (x : Throws) (e : ToolResultEvent) (joined : Text) (s : State) :
    ∃ t, (t.active = s.active ∧ t.left = s.left ∧ t.points = s.points ∧
        (∀ sessionId, sessionId ≠ s.active → t.seenResults sessionId = s.seenResults sessionId)) ∧
      ((lookup o x e joined s = .error t ∧ t.hashed = s.hashed ∧
          t.seenResults s.active = some ((s.seenResults s.active).getD [])) ∨
        ∃ found values, lookup o x e joined s = .ok (t, found) ∧
          t.hashed = keyBytes s.active e.tool joined :: s.hashed ∧
          t.seenResults s.active = some values ∧
          (found = true → o.hash (keyBytes s.active e.tool joined) ∈
            (s.seenResults s.active).getD []) ∧
          ∀ value ∈ values, value ∈ (s.seenResults s.active).getD [] ∨
            (found = false ∧ value = o.hash (keyBytes s.active e.tool joined))) := by
  unfold lookup
  dsimp only
  split
  · refine ⟨_, ?_, .inl ⟨rfl, rfl, Function.update_self _ _ _⟩⟩
    exact ⟨rfl, rfl, rfl, fun sessionId other => Function.update_of_ne other _ _⟩
  · cases same : DedupeSet.has o.boundedDedupe (o.hash (keyBytes s.active e.tool joined))
        ((s.seenResults s.active).getD []) with
    | mk looked found =>
      obtain ⟨there, old⟩ := has_cases same
      refine ⟨_, ?_, .inr ⟨found, _, rfl, rfl, Function.update_self _ _ _, there, ?_⟩⟩
      · exact ⟨rfl, rfl, rfl, fun sessionId other => Function.update_of_ne other _ _⟩
      · intro value mem
        cases found with
        | true => exact .inl (old value mem)
        | false =>
          rcases mem_add mem with looked | new
          · exact .inl (old value looked)
          · exact .inr ⟨rfl, new⟩

theorem Seen.framed {m : State} {toolName joined : Text} {replaced : Option Kind}
    (seen : Seen o s m toolName joined replaced) (framed : Framed m t) :
    Seen o s t toolName joined replaced where
  active := framed.active.trans seen.active
  left := framed.left.trans seen.left
  sessions := fun sessionId other => by rw [framed.seenResults, seen.sessions sessionId other]
  hashed := fun key mem => framed.hashed ▸ seen.hashed key mem
  values := by
    intro values given value mem
    rw [framed.seenResults] at given
    rw [framed.hashed]
    exact seen.values values given value mem

/-- The whole of the handler: what it leaves seen, and when it answers with a pointer. -/
theorem answered_seen (o : Options) (x : Throws) (now : Nat) (e : ToolResultEvent)
    (blocks : List Block) (joined : Text) (s : State) :
    let answer := caught (answered o x now e blocks joined s)
    Seen o s answer.1 e.tool joined (answer.2.map Replacement.kind) ∧
      ∀ r, answer.2 = some r → Recorded s answer.1 r.kind ∧
        (r.kind = .pointer → keyBytes s.active e.tool joined ∈ answer.1.hashed ∧
          o.hash (keyBytes s.active e.tool joined) ∈ (s.seenResults s.active).getD []) := by
  intro answer
  have plain : ∀ {kinds : Kind → Prop} {a : Attempt Answer}, Answers s kinds a →
      (∀ kind, kinds kind → kind ≠ .pointer) →
      Seen o s (caught a).1 e.tool joined ((caught a).2.map Replacement.kind) ∧
        ∀ r, (caught a).2 = some r → Recorded s (caught a).1 r.kind ∧
          (r.kind = .pointer → keyBytes s.active e.tool joined ∈ (caught a).1.hashed ∧
            o.hash (keyBytes s.active e.tool joined) ∈ (s.seenResults s.active).getD []) := by
    intro kinds a answers other
    refine ⟨answers.framed.seen _ _ _, fun r given => ?_⟩
    obtain ⟨kind, recorded⟩ := answers.replaced r given
    exact ⟨recorded, fun pointer => absurd pointer (other _ kind)⟩
  have shorter : ∀ kind, Shorter kind → kind ≠ .pointer := by
    rintro kind ⟨notPointer, -⟩ rfl
    exact notPointer rfl
  simp only [answer, answered]
  split
  · exact plain (emptied_answers x now blocks joined s e) (by rintro kind rfl; simp)
  · split
    · exact plain (shortened_answers x now blocks joined s e) shorter
    · obtain ⟨t, ⟨active, left, points, sessions⟩, thrown | found⟩ := lookup_cases o x e joined s
      · -- the set may have been opened, with nothing in it
        obtain ⟨thrown, hashed, opened⟩ := thrown
        rw [thrown]
        refine ⟨⟨active, left, sessions, fun key mem => hashed ▸ mem, ?_⟩, fun r bad => by cases bad⟩
        intro values given value mem
        simp only [bind, Except.bind, caught] at given
        rw [opened, Option.some.injEq] at given
        subst given
        cases old : s.seenResults s.active with
        | none => simp [old] at mem
        | some olds => exact .inl ⟨olds, rfl, by simpa [old] using mem⟩
      · obtain ⟨found, values, ok, hashed, now_, there, each⟩ := found
        rw [ok]
        dsimp only [bind, Except.bind]
        have older : ∀ value, value ∈ (s.seenResults s.active).getD [] →
            ∃ old, s.seenResults s.active = some old ∧ value ∈ old := by
          intro value mem
          cases old : s.seenResults s.active with
          | none => simp [old] at mem
          | some olds => exact ⟨olds, rfl, by simpa [old] using mem⟩
        have key : keyBytes s.active e.tool joined ∈ t.hashed := by
          rw [hashed]
          exact mem_cons_self
        have seen : ∀ replaced : Option Kind, (found = false → Delivered replaced) →
            Seen o s t e.tool joined replaced := by
          intro replaced delivered
          refine ⟨active, left, sessions, fun k mem => ?_, fun vs given value mem => ?_⟩
          · rw [hashed]
            exact mem_cons_of_mem _ mem
          · rw [now_, Option.some.injEq] at given
            subst given
            rcases each value mem with old | ⟨fresh, same⟩
            · exact .inl (older value old)
            · exact .inr ⟨delivered fresh, key, same⟩
        cases found with
        | true =>
          simp only [if_true]
          have answers := repeated_answers x now blocks joined t e
          refine ⟨(seen _ (fun bad => by cases bad)).framed answers.framed, fun r given => ?_⟩
          obtain ⟨kind, recorded⟩ := answers.replaced r given
          rw [Recorded, points] at recorded
          refine ⟨recorded, fun _ => ⟨?_, there rfl⟩⟩
          rw [answers.framed.hashed]
          exact key
        | false =>
          simp only [Bool.false_eq_true, if_false]
          have answers := shortened_answers x now blocks joined t e
          have delivered : Delivered ((caught (shortened x now e blocks joined t)).2.map
              Replacement.kind) := by
            cases given : (caught (shortened x now e blocks joined t)).2 with
            | none => exact ⟨(fun bad => by cases bad), (fun bad => by cases bad)⟩
            | some r => exact (answers.replaced r given).1
          refine ⟨(seen _ fun _ => delivered).framed answers.framed, fun r given => ?_⟩
          obtain ⟨kind, recorded⟩ := answers.replaced r given
          rw [Recorded, points] at recorded
          exact ⟨recorded, fun pointer => absurd pointer (shorter _ kind)⟩

theorem Stands.grown {sessionId : Text} (stands : Stands o s sessionId value)
    (left : ∀ l ∈ s.left, l ∈ t.left) (hashed : ∀ key ∈ s.hashed, key ∈ t.hashed) :
    Stands o t sessionId value := by
  obtain ⟨l, mem, session, delivered, key, same⟩ := stands
  exact ⟨l, left l mem, session, delivered, hashed _ key, same⟩

theorem toolResult_cases (o : Options) (x : Throws) (now : Nat) (e : ToolResultEvent) (s : State) :
    toolResult o x now e s = (s, none) ∨
      ∃ blocks, e.content = some blocks ∧
        let answer := caught (answered o x now e blocks (unlinesOf blocks) s)
        toolResult o x now e s = ({ answer.1 with
          left := ⟨answer.1.active, e.tool, unlinesOf blocks,
            answer.2.map Replacement.kind⟩ :: answer.1.left }, answer.2) := by
  unfold toolResult
  split
  · exact .inl rfl
  · split
    · exact .inl rfl
    next blocks some_ =>
      split
      · exact .inl rfl
      · exact .inr ⟨blocks, some_, rfl⟩

theorem inv_start (first : Start o s) : Inv o s where
  sessions := by simp [first.seenResults]
  stands := by simp [first.seenResults]

theorem toolResult_inv (inv : Inv o s) (x : Throws) (now : Nat) (e : ToolResultEvent) :
    Inv o (toolResult o x now e s).1 := by
  rcases toolResult_cases o x now e s with same | ⟨blocks, -, same⟩
  · rw [same]
    exact inv
  · rw [same]
    obtain ⟨seen, -⟩ := answered_seen o x now e blocks (unlinesOf blocks) s
    constructor
    · intro sessionId values given
      by_contra other
      rw [seen.active] at other
      rw [seen.sessions sessionId other] at given
      exact other (inv.sessions sessionId values given)
    · intro values given value mem
      dsimp only at given ⊢
      rw [seen.active] at given ⊢
      rcases seen.values values given value mem with ⟨old, there, within⟩ | ⟨delivered, key, hash⟩
      · refine (inv.stands old there value within).grown (fun l before => ?_) seen.hashed
        rw [seen.left]
        exact mem_cons_of_mem _ before
      · exact ⟨_, mem_cons_self, rfl, delivered, key, hash⟩

theorem inv_of_reachable (reached : (system o).Reachable s) : Inv o s := by
  refine reached.invariant (Inv o) (fun _ => inv_start) fun m i n taken inv => ?_
  cases taken
  cases i with
  | beginSession active => exact ⟨by simp [step], by simp [step]⟩
  | compact => exact ⟨by simp [step], by simp [step]⟩
  | toolResult throws_ now event => exact toolResult_inv inv throws_ now event

def nothingThrows : Throws := ⟨false, false, false, false, false⟩

/-- SHA-256 on runs that hash a single byte string, of which this is the digest. -/
def digesting (digest : Text) : Options := ⟨fun _ => digest, false, none⟩

def fresh : State := ⟨js "default", fun _ => none, none, [], [], [], []⟩

def bash (text : Text) : ToolResultEvent :=
  ⟨some (js "bash"), false, some [.text (some text)], .absent, .absent⟩

def long (u : UInt16) : Text := u :: List.replicate 200 0x61

def once (o : Options) (u : UInt16) : State :=
  (toolResult o nothingThrows 1 (bash (long u)) fresh).1

def twice : Options := digesting (js "1cf90821b14c2539093cadee20b9e4ef186809babbb65aaa737a2b2c6b58ef69")

end Ultrathink.Guarantees.RepeatedResults
