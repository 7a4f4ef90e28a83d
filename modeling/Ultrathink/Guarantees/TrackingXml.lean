import Ultrathink.Library.JsNumber
import Ultrathink.Library.Search
import Ultrathink.Source.Track.Render

/-!
# Tracking markup

`injectTrackingXml` and `stripTrackingXml` undo each other on a specification with a graph and
without tracking markup, as long as nothing in the specification is taken for such markup.
-/

namespace Ultrathink.Guarantees.TrackingXml

open Library JsText Occurrences Source.Track Source.Track.Render
open List hiding lookup

theorem escapeXml_units (value : Text) : ∀ v ∈ escapeXml value, v ≠ 0x3C ∧ v ≠ 0x3E ∧ v ≠ 0x22 := by
  unfold escapeXml
  rw [replaceAll_eq_flatMap]
  intro v mem
  obtain ⟨u, -, inside⟩ := mem_flatMap.mp mem
  by_cases known : u ∈ ([0x26, 0x3C, 0x3E, 0x22] : Text)
  · have texts : ∀ u ∈ ([0x26, 0x3C, 0x3E, 0x22] : Text), ∀ v ∈ replaceAll
        [(0x26, js "&amp;"), (0x3C, js "&lt;"), (0x3E, js "&gt;"), (0x22, js "&quot;")] [u],
        v ≠ 0x3C ∧ v ≠ 0x3E ∧ v ≠ 0x22 := by
      simp only [forall_mem_cons]
      refine ⟨?_, ?_, ?_, ?_, by simp⟩ <;>
        exact forall_units (fun v => v ≠ 0x3C ∧ v ≠ 0x3E ∧ v ≠ 0x22) (by decide)
    exact texts u known v inside
  · rw [replaceAll_other known, mem_singleton] at inside
    subst inside
    simp only [mem_cons, not_or] at known
    exact ⟨known.2.1, known.2.2.1, known.2.2.2.1⟩

/-- Tracking attributes one after the other. -/
inductive TrackAttrs : Text → Prop where
  | nil : TrackAttrs []
  | cons {name value rest : Text} (named : name ∈ trackNames)
      (plain : ∀ v ∈ value, v ≠ 0x3C ∧ v ≠ 0x3E ∧ v ≠ 0x22) (later : TrackAttrs rest) :
      TrackAttrs (0x20 :: (name ++ (value ++ 0x22 :: rest)))

variable {t attrs close e before after s name id a p block : Text} {tracking : TrackingRefs}
  {extra : Text → Option Text} {plan : TrackPlan} {u : UInt16}

theorem TrackAttrs.append (first : TrackAttrs s) (second : TrackAttrs t) :
    TrackAttrs (s ++ t) := by
  induction first with
  | nil => exact second
  | cons named plain later ih =>
    have joined := TrackAttrs.cons named plain ih
    simpa using joined

theorem trackNames_units : ∀ name ∈ trackNames, ∀ v ∈ name, v ≠ 0x20 ∧ v ≠ 0x3C ∧ v ≠ 0x3E := by
  simp only [trackNames, forall_mem_cons]
  refine ⟨?_, ?_, ?_, by simp⟩ <;>
    exact forall_units (fun v => v ≠ 0x20 ∧ v ≠ 0x3C ∧ v ≠ 0x3E) (by decide)

theorem TrackAttrs.units (attrs : TrackAttrs e) : ∀ v ∈ e, v ≠ 0x3C ∧ v ≠ 0x3E := by
  induction attrs with
  | nil => exact fun v mem => absurd mem not_mem_nil
  | cons named plain later ih =>
    intro v mem
    simp only [mem_cons, mem_append] at mem
    rcases mem with rfl | mem | mem | rfl | mem
    · decide
    · exact (trackNames_units _ named v mem).2
    · exact ⟨(plain v mem).1, (plain v mem).2.1⟩
    · decide
    · exact ih v mem

theorem TrackAttrs.head (attrs : TrackAttrs e) (solid : e ≠ []) :
    ∃ c rest, e = 0x20 :: c :: rest ∧ (c = 0x69 ∨ c = 0x6E) := by
  cases attrs with
  | nil => exact absurd rfl solid
  | cons named plain later =>
    simp only [trackNames, mem_cons, not_mem_nil, or_false] at named
    rcases named with rfl | rfl | rfl
    · exact ⟨_, _, rfl, .inl rfl⟩
    · exact ⟨_, _, rfl, .inl rfl⟩
    · exact ⟨_, _, rfl, .inr rfl⟩

theorem TrackAttrs.last (attrs : TrackAttrs e) (solid : e ≠ []) :
    e.getLast? = some 0x22 := by
  induction attrs with
  | nil => exact absurd rfl solid
  | @cons name value rest named plain later ih =>
    by_cases empty : rest = []
    · subst empty
      rw [← cons_append, ← append_assoc, getLast?_concat]
    · have last := ih empty
      rw [← cons_append, ← append_assoc]
      simp [getLast?_append, getLast?_cons, last]

theorem attr_trackAttrs (named : name ++ js "=\"" ∈ trackNames) (value : Option Text) :
    TrackAttrs (attr name value) := by
  unfold attr
  split
  · exact .nil
  · split
    · exact .nil
    · next value _ =>
      have one := TrackAttrs.cons named (escapeXml_units value) .nil
      have shape : js " " ++ name ++ js "=\"" ++ escapeXml value ++ js "\"" =
          0x20 :: (name ++ js "=\"" ++ (escapeXml value ++ 0x22 :: [])) := by
        rw [show js " " = [0x20] from rfl, show js "\"" = [0x22] from rfl]
        simp
      rw [shape]
      exact one

theorem urlAttr_trackAttrs {looked : Looked Text} {text : Text}
    (found : urlAttr (js "notionUrl") looked = some text) : TrackAttrs text := by
  have named : js "notionUrl" ++ js "=\"" ∈ trackNames := by decide
  cases looked with
  | absent =>
    cases found
    exact attr_trackAttrs named none
  | own url =>
    cases found
    exact attr_trackAttrs named (some url)
  | inherited => cases found

theorem extraOf_trackAttrs (found : extraOf tracking id = some e) : TrackAttrs e := by
  obtain ⟨notion, read, rfl⟩ := Option.map_eq_some_iff.mp found
  have issue : TrackAttrs (attr (js "issue") (lookup tracking.refs.linearNodes id).identifier) :=
    attr_trackAttrs (by decide) _
  have issueUrl : TrackAttrs (attr (js "issueUrl") (lookup tracking.refs.linearNodes id).url) :=
    attr_trackAttrs (by decide) _
  exact (issue.append issueUrl).append (urlAttr_trackAttrs read)

/-- A tracking attribute opens here, whether or not it closes. -/
def trackOpener : Text → Bool
  | [] => false
  | u :: rest => isSpace u && trackNames.any (·.isPrefixOf rest)

def NoOpener (attrs : Text) : Prop := ∀ s, s <:+ attrs → trackOpener s = false

theorem throughQuote_append {value : Text} (plain : ∀ v ∈ value, v ≠ 0x22) (rest : Text) :
    throughQuote (value ++ 0x22 :: rest) = some rest := by
  induction value with
  | nil => simp [throughQuote]
  | cons v value ih =>
    have notQuote := plain v mem_cons_self
    have later := ih fun w mem => plain w (mem_cons_of_mem v mem)
    rw [← later]
    unfold throughQuote
    simp [notQuote]

theorem find?_trackNames (named : name ∈ trackNames) (rest : Text) :
    trackNames.find? (·.isPrefixOf (name ++ rest)) = some name := by
  simp only [trackNames, mem_cons, not_mem_nil, or_false] at named
  rcases named with rfl | rfl | rfl <;> rfl

theorem TrackAttrs.erase_eq (attrs : TrackAttrs e) : erase trackFound e = [] := by
  induction attrs with
  | nil => rfl
  | @cons name value rest named plain later ih =>
    have whole : 0x20 :: (name ++ (value ++ 0x22 :: rest)) =
        (0x20 :: (name ++ (value ++ [0x22]))) ++ rest := by simp
    have length : trackFound (0x20 :: (name ++ (value ++ 0x22 :: rest))) =
        (0x20 :: (name ++ (value ++ [0x22]))).length := by
      rw [trackFound, if_pos (by decide), find?_trackNames named]
      simp only [drop_left, throughQuote_append fun v mem => (plain v mem).2.2]
      simp
      omega
    rw [whole] at length ⊢
    rw [erase_match (cons_ne_nil _ _) length, ih]

theorem missesBefore_attrs (none_ : NoOpener attrs) (added : TrackAttrs e) :
    MissesBefore trackFound attrs e := by
  intro s suffix solid
  cases s with
  | nil => exact absurd rfl solid
  | cons u r =>
    have closed := none_ (u :: r) suffix
    rw [cons_append, trackFound]
    split
    · next space =>
      have away : ∀ name ∈ trackNames, ¬ name.isPrefixOf (r ++ e) = true := by
        intro name named here
        rw [List.isPrefixOf_iff_prefix] at here
        have inside : name <+: r := by
          by_cases empty : e = []
          · rwa [empty, append_nil] at here
          · obtain ⟨c, rest, rfl, -⟩ := added.head empty
            exact prefix_of_free (fun mem => (trackNames_units name named _ mem).1 rfl) here
        have opens : trackOpener (u :: r) = true := by
          simp only [trackOpener, space, Bool.true_and, any_eq_true]
          exact ⟨name, named, isPrefixOf_iff_prefix.mpr inside⟩
        rw [closed] at opens
        cases opens
      rw [find?_eq_none.mpr away]
    · rfl

theorem erase_added (clean : Misses trackFound attrs) (added : TrackAttrs e)
    (fits : e = [] ∨ NoOpener attrs) : erase trackFound (attrs ++ e) = attrs := by
  rcases fits with rfl | none_
  · rw [append_nil]
    exact erase_misses clean
  · rw [erase_append (missesBefore_attrs none_ added), added.erase_eq, append_nil]

theorem quote_of_idOf (found : idOf attrs = some id) : 0x22 ∈ attrs.drop 5 := by
  induction attrs with
  | nil => cases found
  | cons u rest ih =>
    rw [idOf] at found
    split at found
    · next here => exact here.2.2
    · have later := ih found
      have more : rest.drop 5 <:+ (u :: rest).drop 5 := by
        rw [drop_succ_cons, show 5 = 4 + 1 from rfl, ← drop_drop]
        exact drop_suffix 1 _
      exact more.subset later

theorem idOf_append (found : idOf attrs = some id) (e : Text) :
    idOf (attrs ++ e) = some id := by
  induction attrs with
  | nil => cases found
  | cons u rest ih =>
    have reach := quote_of_idOf found
    rw [drop_succ_cons] at reach
    have long : 4 < rest.length := by
      have some_ : 0 < (rest.drop 4).length := length_pos_of_mem reach
      rw [length_drop] at some_
      omega
    have opener : js "id=\"" <+: rest ++ e ↔ js "id=\"" <+: rest := by
      constructor
      · intro here
        exact prefix_of_prefix_length_le here (prefix_append rest e)
          (by rw [show (js "id=\"").length = 4 from rfl]; omega)
      · exact fun here => here.trans (prefix_append rest e)
    have value : (rest ++ e).drop 4 = rest.drop 4 ++ e := drop_append_of_le_length (by omega)
    rw [cons_append, idOf, value]
    rw [idOf] at found
    split at found
    · next here =>
      have still : isSpace u = true ∧ (js "id=\"").isPrefixOf (rest ++ e) = true ∧
          0x22 ∈ rest.drop 4 ++ e := by
        refine ⟨here.1, ?_, mem_append_left e here.2.2⟩
        rw [List.isPrefixOf_iff_prefix, opener, ← isPrefixOf_iff_prefix]
        exact here.2.1
      rw [if_pos still, ← found]
      rw [takeWhile_append_of_mem here.2.2]
    · next away =>
      have still : ¬ (isSpace u = true ∧ (js "id=\"").isPrefixOf (rest ++ e) = true ∧
          0x22 ∈ rest.drop 4 ++ e) := by
        rintro ⟨space, here, -⟩
        rw [List.isPrefixOf_iff_prefix, opener, ← isPrefixOf_iff_prefix] at here
        exact away ⟨space, here, reach⟩
      rw [if_neg still]
      exact ih found

/-- `\s*\/?` -/
def IsClose (close : Text) : Prop :=
  ∃ space : Text, (∀ u ∈ space, isSpace u = true) ∧ (close = space ∨ close = space ++ [0x2F])

theorem attrsOf_close (content : Text) :
    ∃ close, content = attrsOf content ++ close ∧ IsClose close := by
  unfold attrsOf
  split
  · next slash =>
    obtain ⟨body, rfl⟩ := getLast?_eq_some_iff.mp slash
    rw [dropLast_concat]
    refine ⟨body.rtakeWhile isSpace ++ [0x2F], ?_, body.rtakeWhile isSpace, ?_, .inr rfl⟩
    · rw [← append_assoc, rdropWhile_append_rtakeWhile]
    · exact fun u mem => mem_rtakeWhile_imp mem
  · refine ⟨content.rtakeWhile isSpace, ?_, content.rtakeWhile isSpace, ?_, .inl rfl⟩
    · rw [rdropWhile_append_rtakeWhile]
    · exact fun u mem => mem_rtakeWhile_imp mem

theorem rdropWhile_space {space : Text} (last : a.getLast? = some 0x22)
    (spaces : ∀ u ∈ space, isSpace u = true) : (a ++ space).rdropWhile isSpace = a := by
  induction space using List.reverseRecOn with
  | nil =>
    obtain ⟨body, rfl⟩ := getLast?_eq_some_iff.mp last
    rw [append_nil]
    exact rdropWhile_concat_neg _ _ _ (by decide)
  | append_singleton space u ih =>
    have one := spaces u (by simp)
    rw [← append_assoc, rdropWhile_concat_pos _ _ _ one]
    exact ih fun v mem => spaces v (mem_append_left _ mem)

theorem attrsOf_append (last : a.getLast? = some 0x22) (shape : IsClose close) :
    attrsOf (a ++ close) = a := by
  obtain ⟨space, spaces, rfl | rfl⟩ := shape
  · have notSlash : (a ++ close).getLast? ≠ some 0x2F := by
      intro slash
      rcases eq_nil_or_concat close with rfl | ⟨front, u, rfl⟩
      · rw [append_nil, last] at slash
        exact absurd slash (by decide)
      · rw [concat_eq_append, ← append_assoc, getLast?_concat] at slash
        have space := spaces u (by simp)
        rw [Option.some.inj slash] at space
        exact absurd space (by decide)
    rw [attrsOf, if_neg notSlash]
    exact rdropWhile_space last spaces
  · have slash : (a ++ (space ++ [0x2F])).getLast? = some 0x2F := by
      rw [← append_assoc, getLast?_concat]
    rw [attrsOf, if_pos slash, ← append_assoc, dropLast_concat]
    exact rdropWhile_space last spaces

/-- A tag of a node: where it opens, its attributes and its close. -/
structure IsTag (attrs close : Text) : Prop where
  edge : (attrs ++ (close ++ [0x3E])).head?.any isWord = false
  inner : 0x3E ∉ attrs ++ close
  shape : IsClose close
  cut : attrsOf (attrs ++ close) = attrs

/-- The text of a tag and what follows. -/
def tagThen (attrs close after : Text) : Text := nodeOpen ++ (attrs ++ (close ++ 0x3E :: after))

theorem head?_append_cons (a b : Text) (u : UInt16) :
    (a ++ u :: b).head? = (a ++ [u]).head? := by
  cases a <;> rfl

theorem nodeTag_tagThen (tag : IsTag attrs close) (after : Text) :
    nodeTag (tagThen attrs close after) = some (attrs, close) := by
  have drop : (tagThen attrs close after).drop nodeOpen.length =
      (attrs ++ close) ++ 0x3E :: after := by
    rw [tagThen, drop_left, append_assoc]
  have opens : nodeOpen.isPrefixOf (tagThen attrs close after) = true := by
    rw [List.isPrefixOf_iff_prefix]
    exact prefix_append _ _
  have edge : ((attrs ++ close) ++ 0x3E :: after).head?.any isWord = false := by
    rw [head?_append_cons, append_assoc]
    exact tag.edge
  have content : ((attrs ++ close) ++ 0x3E :: after).takeWhile (· ≠ 0x3E) = attrs ++ close := by
    rw [takeWhile_append_of_pos]
    · simp
    · intro u mem
      have other : u ≠ 0x3E := by
        rintro rfl
        exact tag.inner mem
      simpa using other
  rw [nodeTag, if_pos opens]
  simp only [drop, edge, content, tag.cut]
  simp

theorem nodeTag_eq_some (found : nodeTag t = some (attrs, close)) :
    IsTag attrs close ∧ ∃ after, t = tagThen attrs close after := by
  unfold nodeTag at found
  split at found
  · next opens =>
    rw [List.isPrefixOf_iff_prefix] at opens
    obtain ⟨rest, rfl⟩ := opens
    simp only [drop_left] at found
    split at found
    · cases found
    · next edge =>
      split at found
      · next closes =>
        simp only [Option.some.injEq, Prod.mk.injEq] at found
        obtain ⟨rfl, rfl⟩ := found
        obtain ⟨close, content, shape⟩ := attrsOf_close (rest.takeWhile (· ≠ 0x3E))
        have drop : (rest.takeWhile (· ≠ 0x3E)).drop
            (attrsOf (rest.takeWhile (· ≠ 0x3E))).length = close := by
          have cut := congrArg (List.drop (attrsOf (rest.takeWhile (· ≠ 0x3E))).length) content
          rwa [drop_left] at cut
        rw [drop]
        obtain ⟨after, whole⟩ := takeWhile_cut closes
        have inner := not_mem_takeWhile 0x3E rest
        refine ⟨⟨?_, ?_, shape, ?_⟩, after, ?_⟩
        · rw [Bool.not_eq_true] at edge
          rw [whole, head?_append_cons, content, append_assoc] at edge
          exact edge
        · rw [← content]
          exact inner
        · rw [← content]
        · rw [tagThen, ← append_assoc _ close, ← content, ← whole]
      · cases found
  · cases found

def tagText (extra : Text → Option Text) (attrs close : Text) : Option Text :=
  match idOf attrs with
  | none => some (tagThen attrs close [])
  | some id => (extra id).map fun added => tagThen (erase trackFound attrs ++ added) close []

theorem tagThen_append (attrs close after : Text) :
    tagThen attrs close after = tagThen attrs close [] ++ after := by
  simp [tagThen]

theorem tagThen_close (attrs close after more : Text) :
    tagThen attrs close after ++ more = tagThen attrs close (after ++ more) := by
  simp [tagThen]

theorem nodeOpen_eq : nodeOpen = 0x3C :: js "NODE" := rfl

theorem unescape_tagThen (extra : Text → Option Text) (tag : IsTag attrs close) (after : Text) :
    unescape (nodeReader extra) (tagThen attrs close after) =
      (tagText extra attrs close).bind fun units =>
        (unescape (nodeReader extra) after).map (units ++ ·) := by
  have front : tagThen attrs close after =
      0x3C :: ((js "NODE" ++ (attrs ++ (close ++ [0x3E]))) ++ after) := by
    simp [tagThen, nodeOpen_eq]
  have whole : nodeOpen ++ attrs ++ close ++ js ">" = tagThen attrs close [] := by
    simp [tagThen, show js ">" = [0x3E] from rfl]
  have length : (tagThen attrs close []).length - 1 =
      (js "NODE" ++ (attrs ++ (close ++ [0x3E]))).length := by
    simp [tagThen, nodeOpen_eq]
  have read : nodeReader extra 0x3C ((js "NODE" ++ (attrs ++ (close ++ [0x3E]))) ++ after) =
      (tagText extra attrs close).map fun units =>
        (units, (js "NODE" ++ (attrs ++ (close ++ [0x3E]))).length) := by
    unfold nodeReader
    rw [← front, nodeTag_tagThen tag]
    simp only [whole, length]
    unfold tagText
    cases idOf attrs with
    | none => rfl
    | some id =>
      simp only [Option.map_map]
      congr 1
      funext added
      simp [tagThen, show js ">" = [0x3E] from rfl]
  rw [front]
  cases made : tagText extra attrs close with
  | none =>
    rw [made] at read
    rw [unescape_stuck read]
    rfl
  | some units =>
    rw [made] at read
    rw [unescape_token read]
    rfl

theorem unescape_plain (extra : Text → Option Text) {rest : Text}
    (none_ : nodeTag (u :: rest) = none) : unescape (nodeReader extra) (u :: rest) =
      (unescape (nodeReader extra) rest).map ([u] ++ ·) := by
  apply unescape_unit
  rw [nodeReader, none_]

/-- The tags that are scanned: their attributes and what follows them, past `skip` units. -/
def nodeTagsFrom : Nat → Text → List (Text × Text)
  | _, [] => []
  | skip + 1, _ :: rest => nodeTagsFrom skip rest
  | 0, u :: rest =>
    match nodeTag (u :: rest) with
    | none => nodeTagsFrom 0 rest
    | some (attrs, close) =>
      let skip := (js "NODE" ++ attrs ++ close ++ js ">").length
      (attrs, rest.drop skip) :: nodeTagsFrom skip rest

def nodeTags (t : Text) : List (Text × Text) := nodeTagsFrom 0 t

theorem nodeTagsFrom_length (m rest : Text) :
    nodeTagsFrom m.length (m ++ rest) = nodeTags rest := by
  induction m with
  | nil => rfl
  | cons u m ih => exact ih

theorem nodeTags_plain {rest : Text} (none_ : nodeTag (u :: rest) = none) :
    nodeTags (u :: rest) = nodeTags rest := by
  rw [nodeTags, nodeTagsFrom, none_]
  rfl

theorem nodeTags_tagThen (tag : IsTag attrs close) (after : Text) :
    nodeTags (tagThen attrs close after) = (attrs, after) :: nodeTags after := by
  have front : tagThen attrs close after =
      0x3C :: ((js "NODE" ++ attrs ++ close ++ js ">") ++ after) := by
    simp [tagThen, nodeOpen_eq, show js ">" = [0x3E] from rfl]
  have found := nodeTag_tagThen tag after
  rw [front] at found ⊢
  rw [nodeTags, nodeTagsFrom, found]
  simp only [drop_left, nodeTagsFrom_length]

/-- The same units up to the next `<`, in both. -/
def SameLead (s t : Text) : Prop :=
  ∃ lead s' t', 0x3C ∉ lead ∧ s = lead ++ 0x3C :: s' ∧ t = lead ++ 0x3C :: t'

theorem SameLead.cons {s t : Text} (same : SameLead s t) (u : UInt16) :
    SameLead (u :: s) (u :: t) := by
  obtain ⟨lead, s', t', free, rfl, rfl⟩ := same
  by_cases opens : u = 0x3C
  · subst opens
    exact ⟨[], _, _, not_mem_nil, rfl, rfl⟩
  · refine ⟨u :: lead, s', t', ?_, rfl, rfl⟩
    simp [free, Ne.symm opens]

theorem nodeTag_none_of_sameLead (same : SameLead s t) (closes : 0x3E ∈ s)
    (none_ : nodeTag (u :: s) = none) : nodeTag (u :: t) = none := by
  obtain ⟨lead, s', t', free, rfl, rfl⟩ := same
  by_contra other
  obtain ⟨⟨attrs, close⟩, found⟩ := Option.ne_none_iff_exists'.mp other
  unfold nodeTag at found
  split at found
  · next opens =>
    rw [List.isPrefixOf_iff_prefix, nodeOpen_eq, cons_prefix_cons] at opens
    obtain ⟨rfl, inside⟩ := opens
    obtain ⟨rest, rfl⟩ := prefix_of_free (show 0x3C ∉ js "NODE" by decide) inside
    have drop : ∀ x : Text, (0x3C :: (js "NODE" ++ rest ++ 0x3C :: x)).drop nodeOpen.length =
        rest ++ 0x3C :: x := fun x => by
      rw [append_assoc]
      rfl
    have opens' : nodeOpen.isPrefixOf (0x3C :: (js "NODE" ++ rest ++ 0x3C :: s')) = true := by
      rw [List.isPrefixOf_iff_prefix, nodeOpen_eq, append_assoc]
      exact ⟨rest ++ 0x3C :: s', rfl⟩
    have edge : (rest ++ 0x3C :: t').head? = (rest ++ 0x3C :: s').head? := by
      rw [head?_append_cons, head?_append_cons rest s']
    have closes' : 0x3E ∈ rest ++ 0x3C :: s' := by
      rw [append_assoc] at closes
      exact (mem_append.mp closes).resolve_left (by decide)
    rw [nodeTag, if_pos opens'] at none_
    simp only [drop, edge] at found none_
    split at found
    · cases found
    · next word =>
      rw [if_neg word, if_pos closes'] at none_
      cases none_
  · cases found

/-- No tracking attribute continues what is before a blank of the pattern. -/
def quietFrom : Text → Bool
  | [] => true
  | u :: rest => (u ≠ 0x20 || rest.head?.any fun c => c ≠ 0x69 && c ≠ 0x6E) && quietFrom rest

theorem quietFrom_append {r : Text} (quiet : quietFrom (s ++ 0x20 :: r) = true) :
    r.head?.any (fun c => c ≠ 0x69 && c ≠ 0x6E) = true := by
  induction s with
  | nil =>
    simp only [nil_append, quietFrom, Bool.and_eq_true] at quiet
    simpa using quiet.1
  | cons u s ih =>
    simp only [cons_append, quietFrom, Bool.and_eq_true] at quiet
    exact ih quiet.2

/-- A pattern that starts with `<` and that added attributes do not complete. -/
structure Quiet (p : Text) : Prop where
  opens : p.head? = some 0x3C
  free : 0x3E ∉ p
  quiet : quietFrom p = true

theorem Quiet.added (quiet : Quiet p) (added : TrackAttrs e) (solid : e ≠ []) (plain : 0x3C ∉ close)
    (inside : p <:+: a ++ (e ++ close)) : p <:+: a := by
  obtain ⟨q, rfl⟩ := head?_eq_some_iff.mp quiet.opens
  have closed : 0x3C ∉ e ++ close := by
    simp only [mem_append, not_or]
    exact ⟨fun mem => (added.units _ mem).1 rfl, plain⟩
  rcases infix_append inside with first | second | ⟨s, suffix, some_, short, across⟩
  · exact first
  · exact absurd (second.subset mem_cons_self) closed
  · exfalso
    obtain ⟨r, whole⟩ : s <+: 0x3C :: q :=
      prefix_of_prefix_length_le (prefix_append s _) across (by omega)
    rw [← whole] at across
    have behind : r <+: e ++ close := (prefix_append_right_inj s).mp across
    obtain ⟨c, rest, rfl, kind⟩ := added.head solid
    have quiet' := quiet.quiet
    rw [← whole] at quiet' short
    cases r with
    | nil => simp at short
    | cons d r =>
      rw [cons_append, cons_prefix_cons] at behind
      obtain ⟨rfl, behind⟩ := behind
      have next := quietFrom_append quiet'
      cases r with
      | nil => cases next
      | cons d' r =>
        rw [cons_append, cons_prefix_cons] at behind
        obtain ⟨rfl, -⟩ := behind
        rcases kind with rfl | rfl <;> simp at next

/-- No tag of the graph has a tracking attribute. -/
def CleanTags (graph : Text) : Prop := ∀ tag ∈ nodeTags graph, Misses trackFound tag.1

/-- Every tag with an id gets its attributes, and where it gets some, no tracking attribute
opens in the tag and the tag does not run over the end of the graph. -/
def Fits (extra : Text → Option Text) (graph : Text) : Prop :=
  ∀ tag ∈ nodeTags graph, ∀ id, idOf tag.1 = some id →
    ∃ added, extra id = some added ∧ (added = [] ∨ (NoOpener tag.1 ∧ tag.2 ≠ []))

/-- The graph `before ++ GRAPH_CLOSE` becomes `after ++ GRAPH_CLOSE`. -/
structure Rewritten (extra : Text → Option Text) (before after : Text) : Prop where
  read : unescape (nodeReader extra) (before ++ GRAPH_CLOSE) = some (after ++ GRAPH_CLOSE)
  again : ∀ other, unescape (nodeReader other) (after ++ GRAPH_CLOSE) =
    unescape (nodeReader other) (before ++ GRAPH_CLOSE)
  lead : SameLead (before ++ GRAPH_CLOSE) (after ++ GRAPH_CLOSE)
  places : ∀ p, Quiet p → ∀ left, p <:+: left ++ (after ++ GRAPH_CLOSE) →
    p <:+: left ++ (before ++ GRAPH_CLOSE)

theorem GRAPH_CLOSE_eq : GRAPH_CLOSE = 0x3C :: js "/GRAPH_OF_THOUGHT>" := rfl

theorem mem_close (before : Text) : 0x3E ∈ before ++ GRAPH_CLOSE :=
  mem_append_right before (by decide)

theorem sameLead_refl (inside : 0x3C ∈ t) : SameLead t t := by
  obtain ⟨after, whole⟩ := takeWhile_cut inside
  exact ⟨t.takeWhile (· ≠ 0x3C), after, after, not_mem_takeWhile 0x3C t, whole, whole⟩

theorem Rewritten.same
    (read : unescape (nodeReader extra) (before ++ GRAPH_CLOSE) = some (before ++ GRAPH_CLOSE)) :
    Rewritten extra before before where
  read := read
  again := fun _ => rfl
  lead := sameLead_refl (mem_append_right before (by decide))
  places := fun _ _ _ inside => inside

theorem nodeReader_close (extra : Text → Option Text) :
    unescape (nodeReader extra) GRAPH_CLOSE = some GRAPH_CLOSE := rfl

theorem Rewritten.plain (later : Rewritten extra before after)
    (none_ : nodeTag (u :: (before ++ GRAPH_CLOSE)) = none) :
    Rewritten extra (u :: before) (u :: after) where
  read := by
    rw [cons_append, unescape_plain extra none_, later.read]
    rfl
  again := by
    intro other
    have still := nodeTag_none_of_sameLead later.lead (mem_close before) none_
    rw [cons_append, cons_append, unescape_plain other still, unescape_plain other none_,
      later.again other]
  lead := later.lead.cons u
  places := by
    intro p quiet left inside
    have shifted := later.places p quiet (left ++ [u])
    simp only [append_assoc, singleton_append] at shifted
    exact shifted inside

theorem isTag_added (tag : IsTag attrs close) (added : TrackAttrs e) (some_ : e ≠ [] → attrs ≠ []) :
    IsTag (attrs ++ e) close := by
  by_cases empty : e = []
  · rwa [empty, append_nil]
  have solid := some_ empty
  refine ⟨?_, ?_, tag.shape, ?_⟩
  · have edge := tag.edge
    cases attrs with
    | nil => exact absurd rfl solid
    | cons u attrs => exact edge
  · have inner := tag.inner
    simp only [mem_append, not_or] at inner ⊢
    exact ⟨⟨inner.1, fun mem => (added.units _ mem).2 rfl⟩, inner.2⟩
  · apply attrsOf_append _ tag.shape
    rw [getLast?_append, added.last empty]
    rfl

theorem not_mem_close (shape : IsClose close) : 0x3C ∉ close := by
  obtain ⟨space, spaces, rfl | rfl⟩ := shape
  · intro mem
    exact absurd (spaces _ mem) (by decide)
  · intro mem
    rcases mem_append.mp mem with mem | mem
    · exact absurd (spaces _ mem) (by decide)
    · exact absurd mem (by decide)

theorem Rewritten.tag (later : Rewritten extra before after) (tag : IsTag attrs close)
    (added : TrackAttrs e)
    (gains : tagText extra attrs close = some (tagThen (attrs ++ e) close []))
    (same : ∀ other, tagText other (attrs ++ e) close = tagText other attrs close)
    (some_ : e ≠ [] → attrs ≠ []) :
    Rewritten extra (tagThen attrs close before) (tagThen (attrs ++ e) close after) := by
  refine ⟨?_, fun other => ?_, ?_, fun p quiet left inside => ?_⟩
  · rw [tagThen_close, tagThen_close, unescape_tagThen extra tag, gains, later.read,
      tagThen_append (attrs ++ e) close (after ++ GRAPH_CLOSE)]
    rfl
  · rw [tagThen_close, tagThen_close, unescape_tagThen other tag,
      unescape_tagThen other (isTag_added tag added some_), same, later.again other]
  · exact ⟨[], _, _, not_mem_nil, rfl, rfl⟩
  · rw [tagThen_close] at inside ⊢
    have front : left ++ tagThen (attrs ++ e) close (after ++ GRAPH_CLOSE) =
        (left ++ (nodeOpen ++ attrs) ++ (e ++ close)) ++ 0x3E :: (after ++ GRAPH_CLOSE) := by
      simp [tagThen]
    have back : left ++ tagThen attrs close (before ++ GRAPH_CLOSE) =
        (left ++ (nodeOpen ++ attrs) ++ close) ++ 0x3E :: (before ++ GRAPH_CLOSE) := by
      simp [tagThen]
    rw [front] at inside
    rw [back]
    rcases Search.infix_or_of_not_mem quiet.free inside with first | second
    · by_cases empty : e = []
      · subst empty
        exact first.trans (prefix_append _ _).isInfix
      · have first := quiet.added added empty (not_mem_close tag.shape) first
        rw [append_assoc]
        exact first.trans (prefix_append _ _).isInfix
    · have rest := later.places p quiet [] second
      rw [nil_append] at rest
      have suffix : before ++ GRAPH_CLOSE <:+ (left ++ (nodeOpen ++ attrs) ++ close) ++
          0x3E :: (before ++ GRAPH_CLOSE) :=
        (suffix_cons 0x3E _).trans (suffix_append _ _)
      exact rest.trans suffix.isInfix

theorem after_tag (whole : before ++ GRAPH_CLOSE = tagThen attrs close after) (solid : after ≠ []) :
    ∃ rest, after = rest ++ GRAPH_CLOSE ∧ before = tagThen attrs close rest := by
  have suffix : after <:+ before ++ GRAPH_CLOSE := by
    rw [whole, tagThen_append]
    exact suffix_append _ _
  by_cases long : GRAPH_CLOSE.length ≤ after.length
  · obtain ⟨rest, rfl⟩ : GRAPH_CLOSE <:+ after :=
      suffix_of_suffix_length_le (suffix_append before GRAPH_CLOSE) suffix long
    refine ⟨rest, rfl, ?_⟩
    rw [← tagThen_close] at whole
    exact append_cancel_right whole
  · exfalso
    have inside : 0x3E :: after <:+ GRAPH_CLOSE := by
      have both : 0x3E :: after <:+ before ++ GRAPH_CLOSE := by
        rw [whole]
        exact ⟨nodeOpen ++ (attrs ++ close), by simp [tagThen]⟩
      exact suffix_of_suffix_length_le both (suffix_append before GRAPH_CLOSE)
        (by simp only [length_cons]; omega)
    obtain ⟨front, form⟩ := inside
    rcases eq_nil_or_concat after with rfl | ⟨body, u, rfl⟩
    · exact solid rfl
    · have dropped := congrArg List.dropLast form
      have once : 0x3E ∈ GRAPH_CLOSE.dropLast := by
        rw [← dropped, concat_eq_append, ← cons_append, ← append_assoc,
          dropLast_concat]
        simp
      exact absurd once (by decide)

theorem tagText_of_erased (clean : Misses trackFound attrs)
    (extraOk : ∀ id, idOf attrs = some id → extra id = some []) :
    tagText extra attrs close = some (tagThen attrs close []) := by
  unfold tagText
  cases found : idOf attrs with
  | none => rfl
  | some id =>
    simp only [extraOk id found, erase_misses clean, append_nil, Option.map_some]

theorem rewritten (attributes : ∀ id e, extra id = some e → TrackAttrs e) (before : Text)
    (clean : CleanTags (before ++ GRAPH_CLOSE)) (fits : Fits extra (before ++ GRAPH_CLOSE)) :
    ∃ after, Rewritten extra before after := by
  induction length : before.length using Nat.strong_induction_on generalizing before with
  | _ n ih =>
  cases before with
  | nil => exact ⟨[], .same (nodeReader_close extra)⟩
  | cons u before =>
    cases found : nodeTag (u :: (before ++ GRAPH_CLOSE)) with
    | none =>
      have tags := nodeTags_plain found
      obtain ⟨after, later⟩ := ih before.length (by simp at length; omega) before
        (by unfold CleanTags at clean ⊢; rwa [cons_append, tags] at clean)
        (by unfold Fits at fits ⊢; rwa [cons_append, tags] at fits) rfl
      exact ⟨u :: after, later.plain found⟩
    | some groups =>
      obtain ⟨attrs, close⟩ := groups
      obtain ⟨tag, after, whole⟩ := nodeTag_eq_some found
      rw [← cons_append] at whole
      have tags : nodeTags (u :: before ++ GRAPH_CLOSE) = (attrs, after) :: nodeTags after := by
        rw [whole, nodeTags_tagThen tag]
      have cleanTag : Misses trackFound attrs := clean (attrs, after) (by rw [tags]; simp)
      have fitsTag := fits (attrs, after) (by rw [tags]; simp)
      by_cases last : after = []
      · -- the tag runs across the end of the graph: it has gained nothing
        have unchanged : tagText extra attrs close = some (tagThen attrs close []) := by
          apply tagText_of_erased cleanTag
          intro id found
          obtain ⟨added, gives, empty | ⟨-, more⟩⟩ := fitsTag id found
          · rw [gives, empty]
          · exact absurd last more
        refine ⟨u :: before, .same ?_⟩
        rw [whole, last, unescape_tagThen extra tag, unchanged]
        simp
      · obtain ⟨rest, rfl, form⟩ := after_tag whole last
        have shorter : rest.length < n := by
          rw [← length, form]
          simp [tagThen]
          omega
        obtain ⟨after, later⟩ := ih rest.length shorter rest
          (fun t mem => clean t (by rw [tags]; exact mem_cons_of_mem _ mem))
          (fun t mem => fits t (by rw [tags]; exact mem_cons_of_mem _ mem)) rfl
        rw [form]
        cases idFound : idOf attrs with
        | none =>
          have gains : tagText extra attrs close = some (tagThen (attrs ++ []) close []) := by
            rw [tagText, idFound, append_nil]
          exact ⟨_, later.tag tag .nil gains (fun other => by rw [append_nil])
            (fun more => absurd rfl more)⟩
        | some id =>
          obtain ⟨e, gives, room⟩ := fitsTag id idFound
          have added := attributes id e gives
          have erased := erase_added cleanTag added (room.imp_right And.left)
          have solid : attrs ≠ [] := by
            rintro rfl
            cases idFound
          have gains : tagText extra attrs close = some (tagThen (attrs ++ e) close []) := by
            rw [tagText, idFound]
            simp only [gives, erase_misses cleanTag, Option.map_some]
          have same : ∀ other, tagText other (attrs ++ e) close = tagText other attrs close := by
            intro other
            rw [tagText, tagText, idOf_append idFound e, idFound]
            simp only [erased, erase_misses cleanTag]
          exact ⟨_, later.tag tag added gains same (fun _ => solid)⟩

theorem unescape_clean (t : Text) (clean : CleanTags t) :
    unescape (nodeReader fun _ => some []) t = some t := by
  induction length : t.length using Nat.strong_induction_on generalizing t with
  | _ n ih =>
  cases t with
  | nil => rfl
  | cons u rest =>
    cases found : nodeTag (u :: rest) with
    | none =>
      have tags := nodeTags_plain found
      have later := ih rest.length (by simp at length; omega) rest
        (fun tag mem => clean tag (by rwa [tags])) rfl
      rw [unescape_plain _ found, later]
      rfl
    | some groups =>
      obtain ⟨attrs, close⟩ := groups
      obtain ⟨tag, after, whole⟩ := nodeTag_eq_some found
      rw [whole] at clean length ⊢
      have tags := nodeTags_tagThen tag after
      have shorter : after.length < n := by
        rw [← length]
        simp [tagThen]
        omega
      have later := ih after.length shorter after
        (fun t mem => clean t (by rw [tags]; exact mem_cons_of_mem _ mem)) rfl
      have cleanTag : Misses trackFound attrs := clean (attrs, after) (by rw [tags]; simp)
      rw [unescape_tagThen _ tag, tagText_of_erased cleanTag (fun _ _ => rfl), later,
        tagThen_append attrs close after]
      rfl

/-- The last graph of a text, without its close, and what is around it. A graph without an
opening tag is its close alone. -/
structure Located (t before graph after : Text) : Prop where
  whole : t = before ++ (graph ++ (GRAPH_CLOSE ++ after))
  last : ¬ GRAPH_CLOSE <:+: js "/GRAPH_OF_THOUGHT>" ++ after
  start : (graph = [] ∧ ∀ j ≤ before.length, ¬ graphOpen <+: t.drop j) ∨
    (graphOpen <+: graph ∧ ¬ graphOpen <:+: graph.tail)

theorem graphOpen_eq : graphOpen = 0x3C :: js "GRAPH_OF_THOUGHT" := rfl

theorem graphOpen_not_close (after : Text) : ¬ graphOpen <+: GRAPH_CLOSE ++ after := by
  intro here
  rw [graphOpen_eq, GRAPH_CLOSE_eq, cons_append, cons_prefix_cons] at here
  have second : js "GRAPH_OF_THOUGHT" = 0x47 :: js "RAPH_OF_THOUGHT" := rfl
  have second' : js "/GRAPH_OF_THOUGHT>" = 0x2F :: js "GRAPH_OF_THOUGHT>" := rfl
  rw [second, second', cons_append, cons_prefix_cons] at here
  exact absurd here.2.1 (by decide)

theorem infix_of_drop {j : Nat} (here : p <+: t.drop j) : p <:+: t :=
  here.isInfix.trans (drop_suffix j t).isInfix

theorem drop_of_infix (inside : p <:+: t) :
    ∃ j, j + p.length ≤ t.length ∧ p <+: t.drop j := by
  obtain ⟨left, right, rfl⟩ := inside
  refine ⟨left.length, by simp, ?_⟩
  rw [append_assoc, drop_left]
  exact prefix_append p right

section

variable {t before graph after : Text}

theorem Located.drop_graph (located : Located t before graph after) (j : Nat) :
    t.drop (before.length + j) = (graph ++ (GRAPH_CLOSE ++ after)).drop j := by
  rw [located.whole, drop_length_add_append]

theorem Located.graphEnd (located : Located t before graph after) :
    lastIndexFrom GRAPH_CLOSE t t.length = some (before.length + graph.length) := by
  rw [lastIndexFrom_eq_some]
  refine ⟨?_, ?_, fun j above below here => ?_⟩
  · rw [located.whole]
    simp
  · rw [located.drop_graph, drop_left]
    exact prefix_append _ _
  · obtain ⟨k, rfl⟩ : ∃ k, j = before.length + (graph.length + (1 + k)) :=
      ⟨j - before.length - graph.length - 1, by omega⟩
    rw [located.drop_graph, drop_length_add_append, GRAPH_CLOSE_eq, cons_append,
      Nat.add_comm 1 k, drop_succ_cons, ← GRAPH_CLOSE_eq] at here
    exact located.last (infix_of_drop here)

theorem Located.graphStart (located : Located t before graph after) :
    graphStart t (before.length + graph.length) = before.length := by
  unfold Render.graphStart
  rcases located.start with ⟨empty, none_⟩ | ⟨opens, once⟩
  · subst empty
    cases found : lastIndexFrom graphOpen t (before.length + ([] : Text).length) with
    | none => rfl
    | some i =>
      obtain ⟨bound, here, -⟩ := lastIndexFrom_eq_some.mp found
      exact absurd here (none_ i bound)
  · have found : lastIndexFrom graphOpen t (before.length + graph.length) = some before.length := by
      rw [lastIndexFrom_eq_some]
      refine ⟨by omega, ?_, fun j above below here => ?_⟩
      · have front := located.drop_graph 0
        rw [Nat.add_zero, drop_zero] at front
        rw [front]
        exact opens.trans (prefix_append _ _)
      · obtain ⟨k, rfl⟩ : ∃ k, j = before.length + (k + 1) := ⟨j - before.length - 1, by omega⟩
        have bound : k + 1 ≤ graph.length := by omega
        rw [located.drop_graph, drop_append_of_le_length bound] at here
        by_cases empty : graph.drop (k + 1) = []
        · rw [empty] at here
          exact graphOpen_not_close after here
        · rw [graphOpen_eq, GRAPH_CLOSE_eq, cons_append] at here
          have inside := prefix_of_seam (show 0x3C ∉ js "GRAPH_OF_THOUGHT" by decide) empty here
          apply once
          rw [graphOpen_eq]
          have suffix : graph.drop (k + 1) = graph.tail.drop k := by
            rw [← drop_one, drop_drop, Nat.add_comm]
          rw [suffix] at inside
          exact infix_of_drop inside
    rw [found]
    rfl

theorem Located.slice (located : Located t before graph after) :
    slice t before.length (before.length + graph.length + GRAPH_CLOSE.length) =
      graph ++ GRAPH_CLOSE := by
  have length : before.length + graph.length + GRAPH_CLOSE.length =
      (before ++ (graph ++ GRAPH_CLOSE)).length := by
    simp
    omega
  have form : t = (before ++ (graph ++ GRAPH_CLOSE)) ++ after := by
    rw [located.whole]
    simp
  rw [Render.slice, length, form, take_left, drop_left]

theorem Located.take_before (located : Located t before graph after) :
    t.take before.length = before := by
  rw [located.whole, take_left]

theorem Located.drop_after (located : Located t before graph after) :
    t.drop (before.length + graph.length + GRAPH_CLOSE.length) = after := by
  rw [Nat.add_assoc, located.drop_graph, drop_length_add_append, drop_left]

end

theorem lastIndexFrom_eq_none {pattern : Text} {position : Nat}
    (none_ : lastIndexFrom pattern t position = none) : ∀ j ≤ position, ¬ pattern <+: t.drop j := by
  induction position with
  | zero =>
    rw [lastIndexFrom] at none_
    split at none_
    · cases none_
    · next away =>
      intro j bound
      rw [Nat.le_zero.mp bound]
      simpa using away
  | succ position ih =>
    rw [lastIndexFrom] at none_
    split at none_
    · cases none_
    · next away =>
      intro j bound
      rcases Nat.lt_or_ge position j with last | earlier
      · have same : j = position + 1 := by omega
        rw [same]
        simpa using away
      · exact ih none_ j earlier

theorem located_of_graphEnd {graphEnd : Nat}
    (found : lastIndexFrom GRAPH_CLOSE t t.length = some graphEnd) :
    ∃ before graph after, Located t before graph after := by
  obtain ⟨bound, ⟨after, closes⟩, later⟩ := lastIndexFrom_eq_some.mp found
  have front : t = t.take graphEnd ++ (GRAPH_CLOSE ++ after) := by
    rw [closes, take_append_drop]
  have last : ¬ GRAPH_CLOSE <:+: js "/GRAPH_OF_THOUGHT>" ++ after := by
    intro inside
    obtain ⟨j, room, here⟩ := drop_of_infix inside
    have tail : t.drop (graphEnd + 1) = js "/GRAPH_OF_THOUGHT>" ++ after := by
      rw [← drop_drop, ← closes, GRAPH_CLOSE_eq]
      rfl
    rw [← tail, drop_drop] at here
    have length := congrArg List.length tail
    rw [length_drop] at length
    rw [← length] at room
    have positive : 0 < GRAPH_CLOSE.length := by decide
    exact later (graphEnd + 1 + j) (by omega) (by omega) here
  cases opens : lastIndexFrom graphOpen t graphEnd with
  | none =>
    refine ⟨t.take graphEnd, [], after, front, last, .inl ⟨rfl, fun j small => ?_⟩⟩
    exact lastIndexFrom_eq_none opens j (small.trans (by simp))
  | some start =>
    obtain ⟨early, here, latest⟩ := lastIndexFrom_eq_some.mp opens
    have room : start ≤ (t.take graphEnd).length := by
      rw [length_take]
      omega
    have split : t.drop start = (t.take graphEnd).drop start ++ (GRAPH_CLOSE ++ after) := by
      nth_rewrite 1 [front]
      exact drop_append_of_le_length room
    have solid : (t.take graphEnd).drop start ≠ [] := by
      intro empty
      rw [split, empty] at here
      exact graphOpen_not_close after here
    refine ⟨t.take start, (t.take graphEnd).drop start, after, ?_, last,
      .inr ⟨?_, fun inside => ?_⟩⟩
    · rw [← split, take_append_drop]
    · rw [split, graphOpen_eq, GRAPH_CLOSE_eq, cons_append] at here
      exact prefix_of_seam (show 0x3C ∉ js "GRAPH_OF_THOUGHT" by decide) solid here
    · obtain ⟨j, bound', there⟩ := drop_of_infix inside
      rw [length_tail, length_drop, length_take] at bound'
      have positive : 0 < graphOpen.length := by decide
      have reach : graphOpen <+: t.drop (start + (j + 1)) := by
        have tail : ((t.take graphEnd).drop start).tail.drop j =
            ((t.take graphEnd).drop start).drop (j + 1) := by
          rw [← drop_one, drop_drop, Nat.add_comm]
        rw [tail] at there
        rw [← drop_drop, split, drop_append_of_le_length]
        · exact there.trans (prefix_append _ _)
        · rw [length_drop, length_take]
          omega
      exact latest (start + (j + 1)) (by omega) (by omega) reach

section

variable {xml t before graph after : Text}

theorem inject_located (erased : erase issuesFound xml = t) (located : Located t before graph after)
    (plan : TrackPlan) (tracking : TrackingRefs) :
    injectTrackingXml xml plan tracking = (issuesBlock plan tracking).bind fun block =>
      (unescape (nodeReader (extraOf tracking)) (graph ++ GRAPH_CLOSE)).map fun graph =>
        before ++ graph ++ js "\n" ++ block ++ after := by
  unfold injectTrackingXml
  simp only [erased, located.graphEnd, located.graphStart, located.slice, located.take_before,
    located.drop_after]

theorem strip_located (erased : erase issuesFound xml = t)
    (located : Located t before graph after) : stripTrackingXml xml =
      (unescape (nodeReader fun _ => some []) (graph ++ GRAPH_CLOSE)).map fun graph =>
        before ++ graph ++ after := by
  unfold stripTrackingXml
  simp only [erased, located.graphEnd, located.graphStart, located.slice, located.take_before,
    located.drop_after]

theorem rewritten_located (located : Located t before graph after)
    (attributes : ∀ id e, extra id = some e → TrackAttrs e)
    (clean : CleanTags (graph ++ GRAPH_CLOSE)) (fits : Fits extra (graph ++ GRAPH_CLOSE)) :
    ∃ new, Rewritten extra graph new ∧
      Located (before ++ (new ++ (GRAPH_CLOSE ++ after))) before new after := by
  rcases located.start with ⟨empty, none_⟩ | ⟨opens, once⟩
  · subst empty
    refine ⟨[], .same (nodeReader_close extra), rfl, located.last, .inl ⟨rfl, ?_⟩⟩
    rw [← located.whole]
    exact none_
  · rw [graphOpen_eq] at opens
    obtain ⟨rest, form⟩ := opens
    rw [cons_append] at form
    subst form
    have none_ : nodeTag (0x3C :: (js "GRAPH_OF_THOUGHT" ++ rest ++ GRAPH_CLOSE)) = none := by
      have other : ¬ nodeOpen.isPrefixOf
          (0x3C :: (js "GRAPH_OF_THOUGHT" ++ rest ++ GRAPH_CLOSE)) = true := by
        rw [List.isPrefixOf_iff_prefix, nodeOpen_eq, cons_prefix_cons]
        rintro ⟨-, here⟩
        have second : js "NODE" = 0x4E :: js "ODE" := rfl
        have second' : js "GRAPH_OF_THOUGHT" = 0x47 :: js "RAPH_OF_THOUGHT" := rfl
        rw [second, second', cons_append, cons_append, cons_prefix_cons] at here
        exact absurd here.1 (by decide)
      rw [nodeTag, if_neg other]
    have tags := nodeTags_plain none_
    rw [← cons_append] at tags
    obtain ⟨new, later⟩ := rewritten attributes (js "GRAPH_OF_THOUGHT" ++ rest)
      (by unfold CleanTags at clean ⊢; rwa [tags] at clean)
      (by unfold Fits at fits ⊢; rwa [tags] at fits)
    refine ⟨0x3C :: new, later.plain none_, rfl, located.last, .inr ⟨?_, fun inside => ?_⟩⟩
    · rw [graphOpen_eq, cons_prefix_cons]
      refine ⟨rfl, ?_⟩
      obtain ⟨lead, s, t, free, left, right⟩ := later.lead
      have closed : 0x3C ∉ js "GRAPH_OF_THOUGHT" := by decide
      have inLead : js "GRAPH_OF_THOUGHT" <+: lead := by
        apply prefix_of_free closed (b := s)
        rw [← left, append_assoc]
        exact prefix_append _ _
      have inNew : js "GRAPH_OF_THOUGHT" <+: new ++ GRAPH_CLOSE := by
        rw [right]
        exact inLead.trans (prefix_append _ _)
      rw [GRAPH_CLOSE_eq] at inNew
      exact prefix_of_free closed inNew
    · rw [tail_cons] at inside
      have quiet : Quiet graphOpen := ⟨rfl, by decide, by decide⟩
      have there := later.places graphOpen quiet [] (inside.trans (prefix_append _ _).isInfix)
      rw [nil_append] at there
      rw [tail_cons] at once
      rcases infix_append there with first | second | ⟨s, suffix, solid, short, across⟩
      · exact once first
      · exact absurd second (by decide)
      · rw [graphOpen_eq, GRAPH_CLOSE_eq] at across
        have whole := prefix_of_seam (show 0x3C ∉ js "GRAPH_OF_THOUGHT" by decide) solid across
        rw [← graphOpen_eq] at whole
        exact absurd whole.length_le (by omega)

end

/-- Nowhere in the text does the end of a block start, whatever follows. -/
def Free (t : Text) : Prop := ∀ s, s <:+ t → s ≠ [] → ∀ more, ¬ issuesClose <+: s ++ more

theorem issuesClose_eq : issuesClose = 0x3C :: js "/ISSUES>" := rfl

theorem Free.append (first : Free s) (second : Free t) : Free (s ++ t) := by
  induction s with
  | nil => exact second
  | cons u s ih =>
    have later := ih fun r suffix => first r (suffix.trans (suffix_cons u s))
    intro r suffix solid more here
    rcases suffix_cons_iff.mp suffix with rfl | inside
    · have whole : issuesClose <+: (u :: s) ++ (t ++ more) := by simpa using here
      exact first (u :: s) (suffix_refl _) (cons_ne_nil u s) _ whole
    · exact later r inside solid more here

theorem free_of_plain (plain : 0x3C ∉ t) : Free t := by
  intro s suffix solid more here
  cases s with
  | nil => exact solid rfl
  | cons u s =>
    rw [issuesClose_eq, cons_append, cons_prefix_cons] at here
    apply plain
    rw [here.1]
    exact suffix.subset mem_cons_self

theorem free_tag (plain : 0x3C ∉ t) (other : ∀ more, ¬ js "/ISSUES>" <+: t ++ more) :
    Free (0x3C :: t) := by
  intro s suffix solid more here
  rcases suffix_cons_iff.mp suffix with rfl | inside
  · rw [issuesClose_eq, cons_append, cons_prefix_cons] at here
    exact other more here.2
  · exact free_of_plain plain s inside solid more here

theorem afterFirst_free (free : Free t) (rest : Text) :
    afterFirst issuesClose (t ++ (issuesClose ++ rest)) = some rest := by
  induction t with
  | nil =>
    have here : issuesClose.isPrefixOf (issuesClose ++ rest) = true := by
      rw [List.isPrefixOf_iff_prefix]
      exact prefix_append _ _
    rw [nil_append, issuesClose_eq, cons_append, afterFirst, ← issuesClose_eq,
      ← cons_append, ← issuesClose_eq, if_pos here, drop_left]
  | cons u t ih =>
    have away : ¬ issuesClose.isPrefixOf (u :: (t ++ (issuesClose ++ rest))) = true := by
      rw [List.isPrefixOf_iff_prefix]
      exact free (u :: t) (suffix_refl _) (cons_ne_nil u t) _
    rw [cons_append, afterFirst, if_neg away]
    exact ih fun s suffix => free s (suffix.trans (suffix_cons u t))

theorem free_escapeXml (value : Text) : Free (escapeXml value) :=
  free_of_plain fun mem => (escapeXml_units value _ mem).1 rfl

theorem free_attr (plain : 0x3C ∉ name) (value : Option Text) :
    Free (attr name value) := by
  apply free_of_plain
  unfold attr
  split
  · exact not_mem_nil
  · split
    · exact not_mem_nil
    · next value _ =>
      simp only [mem_append, not_or]
      exact ⟨⟨⟨⟨by decide, plain⟩, by decide⟩, fun mem => (escapeXml_units value _ mem).1 rfl⟩,
        by decide⟩

theorem free_linkAttrs {ref : Looked IssueRef} {notionUrl : Looked Text} {links : Text}
    (made : linkAttrs ref notionUrl = some links) : Free links := by
  obtain ⟨notion, read, rfl⟩ := Option.map_eq_some_iff.mp made
  have pending : Free (if isPending ref notionUrl then js " status=\"pending\"" else []) := by
    split
    · exact free_of_plain (by decide)
    · exact free_of_plain not_mem_nil
  have last : Free notion := free_of_plain fun mem => ((urlAttr_trackAttrs read).units _ mem).1 rfl
  exact ((pending.append (free_attr (by decide) _)).append (free_attr (by decide) _)).append last

theorem ofNat_plain (n : Nat) : 0x3C ∉ ofNat n := by
  intro mem
  rw [JsNumber.ofNat_eq_digits] at mem
  exact absurd (JsNumber.isDigit_of_mem_digits n _ mem) (by decide)

theorem free_subIssueLine {sub : SubIssueRow} {line : Text}
    (made : subIssueLine tracking sub = some line) : Free line := by
  obtain ⟨links, read, rfl⟩ := Option.map_eq_some_iff.mp made
  have opens : Free (js "\t\t<SUBISSUE step=\"") := by
    have tag : Free (0x3C :: js "SUBISSUE step=\"") := by
      apply free_tag (by decide)
      intro more here
      exact absurd (cons_prefix_cons.mp here).1 (by decide)
    exact (free_of_plain (t := js "\t\t") (by decide)).append tag
  have closes : Free (js "</SUBISSUE>") := by
    apply free_tag (t := js "/SUBISSUE>") (by decide)
    intro more here
    exact absurd (cons_prefix_cons.mp (cons_prefix_cons.mp here).2).1 (by decide)
  exact (((((opens.append (free_of_plain (ofNat_plain _))).append
    (free_of_plain (by decide))).append
    (free_linkAttrs read)).append (free_of_plain (by decide))).append (free_escapeXml _)).append
    closes

theorem mem_mapM {α β : Type} {f : α → Option β} {l : List α} {r : List β}
    (made : l.mapM f = some r) : ∀ y ∈ r, ∃ x, f x = some y := by
  induction l generalizing r with
  | nil =>
    cases made
    exact fun y mem => absurd mem not_mem_nil
  | cons a l ih =>
    simp only [mapM_cons, Option.bind_eq_bind, Option.bind_eq_some_iff, Option.pure_def,
      Option.some.injEq] at made
    obtain ⟨b, first, later, rest, rfl⟩ := made
    intro y mem
    rcases mem_cons.mp mem with rfl | mem
    · exact ⟨a, first⟩
    · exact ih rest y mem

theorem free_issueLines {issue : IssueRow} {lines : List Text}
    (made : issueLines plan tracking issue = some lines) :
    ∀ line ∈ lines, Free line := by
  obtain ⟨links, read, rest⟩ := Option.bind_eq_some_iff.mp made
  obtain ⟨subs, each, rfl⟩ := Option.map_eq_some_iff.mp rest
  have opens : Free (js "\t<ISSUE node=\"") := by
    have tag : Free (0x3C :: js "ISSUE node=\"") := by
      apply free_tag (by decide)
      intro more here
      exact absurd (cons_prefix_cons.mp here).1 (by decide)
    exact (free_of_plain (t := js "\t") (by decide)).append tag
  have closes : Free (js "\t</ISSUE>") := by
    have tag : Free (0x3C :: js "/ISSUE>") := by
      apply free_tag (by decide)
      intro more here
      have units : js "/ISSUES>" = js "/ISSUE" ++ js "S>" := rfl
      have units' : js "/ISSUE>" ++ more = js "/ISSUE" ++ (0x3E :: more) := rfl
      rw [units, units'] at here
      have next := (prefix_append_right_inj _).mp here
      exact absurd (cons_prefix_cons.mp next).1 (by decide)
    exact (free_of_plain (t := js "\t") (by decide)).append tag
  intro line mem
  simp only [mem_cons, mem_append, not_mem_nil, or_false] at mem
  rcases mem with rfl | mem | rfl
  · exact ((((opens.append (free_escapeXml _)).append (free_of_plain (by decide))).append
      (free_linkAttrs read)).append (free_of_plain (by decide))).append (free_escapeXml _)
  · obtain ⟨sub, line⟩ := mem_mapM each line mem
    exact free_subIssueLine line
  · exact closes

theorem join_between (sep first last : Text) (lines : List Text) :
    join sep (first :: (lines ++ [last])) =
      first ++ (lines.flatMap (fun line => sep ++ line) ++ (sep ++ last)) := by
  induction lines generalizing first with
  | nil => simp [join]
  | cons line lines ih =>
    rw [cons_append, join, ih]
    · simp
    · simp

/-- A block: where it opens, the id, and nothing that ends a block before its end. -/
theorem issuesBlock_shape (made : issuesBlock plan tracking = some block) :
    ∃ id body, block = issuesOpen ++ (id ++ 0x22 :: (body ++ issuesClose)) ∧
      (∀ v ∈ id, v ≠ 0x22) ∧ Free body := by
  obtain ⟨issues, each, rfl⟩ := Option.map_eq_some_iff.mp made
  have lines : Free (issues.flatten.flatMap fun line => js "\n" ++ line) := by
    have all : ∀ line ∈ issues.flatten, Free line := by
      intro line mem
      obtain ⟨lines, part, mem⟩ := mem_flatten.mp mem
      obtain ⟨issue, made⟩ := mem_mapM each lines part
      exact free_issueLines made line mem
    generalize issues.flatten = lines at all
    induction lines with
    | nil => exact free_of_plain not_mem_nil
    | cons line lines ih =>
      rw [flatMap_cons]
      have first := (free_of_plain (t := js "\n") (by decide)).append (all line mem_cons_self)
      exact first.append (ih fun l mem => all l (mem_cons_of_mem line mem))
  have head : Free (js " status=\"" ++ escapeXml (statusText tracking.status) ++ js "\"" ++
      attr (js "notionTaskUrl") tracking.refs.taskUrl ++ js ">") :=
    ((((free_of_plain (by decide)).append (free_escapeXml _)).append
      (free_of_plain (by decide))).append (free_attr (by decide) _)).append (free_of_plain (by decide))
  refine ⟨escapeXml tracking.graphId, _, ?_, fun v mem => (escapeXml_units _ v mem).2.2,
    (head.append lines).append (free_of_plain (t := js "\n") (by decide))⟩
  rw [join_between, headLine]
  have units : js "\" status=\"" = 0x22 :: js " status=\"" := rfl
  rw [units, show js "<ISSUES graphId=\"" = issuesOpen from rfl,
    show js "</ISSUES>" = issuesClose from rfl]
  simp

theorem issuesOpen_eq : issuesOpen = 0x3C :: js "ISSUES graphId=\"" := rfl

theorem issuesFound_block (made : issuesBlock plan tracking = some block) (after : Text) :
    issuesFound (0x0A :: (block ++ after)) = (0x0A :: block).length := by
  obtain ⟨id, body, rfl, plain, free⟩ := issuesBlock_shape made
  have form : issuesOpen ++ (id ++ 0x22 :: (body ++ issuesClose)) ++ after =
      issuesOpen ++ (id ++ 0x22 :: (body ++ (issuesClose ++ after))) := by simp
  have lead : dropLead (0x0A :: (issuesOpen ++ (id ++ 0x22 :: (body ++ issuesClose)) ++ after)) =
      issuesOpen ++ (id ++ 0x22 :: (body ++ (issuesClose ++ after))) := by
    rw [form, dropLead, if_pos rfl, issuesOpen_eq, cons_append,
      dropWhile_cons_of_neg (by decide)]
  have opens : issuesOpen.isPrefixOf
      (issuesOpen ++ (id ++ 0x22 :: (body ++ (issuesClose ++ after)))) = true := by
    rw [List.isPrefixOf_iff_prefix]
    exact prefix_append _ _
  unfold issuesFound
  rw [lead, if_pos opens, drop_left, throughQuote_append plain, Option.bind_some,
    afterFirst_free free]
  simp only [form]
  simp
  omega

theorem dropWhile_append {r : Text} (last : r.getLast? = some 0x3E) (more : Text) :
    ∃ r', r' <:+ r ∧ (r ++ more).dropWhile isBlank = r' ++ more := by
  induction r with
  | nil => cases last
  | cons u r ih =>
    by_cases blank : isBlank u = true
    · cases r with
      | nil =>
        rw [getLast?_singleton] at last
        rw [Option.some.inj last] at blank
        exact absurd blank (by decide)
      | cons v r =>
        obtain ⟨r', part, form⟩ := ih (by simpa using last)
        refine ⟨r', part.trans (suffix_cons u _), ?_⟩
        rw [cons_append, dropWhile_cons_of_pos blank]
        exact form
    · exact ⟨u :: r, suffix_refl _, dropWhile_cons_of_neg blank⟩

theorem dropLead_append (last : s.getLast? = some 0x3E) (more : Text) :
    ∃ r, r <:+ s ∧ dropLead (s ++ more) = r ++ more := by
  cases s with
  | nil => cases last
  | cons u s =>
    by_cases newline : u = 0x0A
    · cases s with
      | nil =>
        subst newline
        exact absurd last (by decide)
      | cons v s =>
        obtain ⟨r, part, form⟩ := @dropWhile_append (v :: s) (by simpa using last) more
        refine ⟨r, part.trans (suffix_cons u _), ?_⟩
        rw [cons_append, dropLead, if_pos newline]
        exact form
    · obtain ⟨r, part, form⟩ := dropWhile_append last more
      refine ⟨r, part, ?_⟩
      rw [cons_append, dropLead, if_neg newline]
      exact form

theorem missesBefore_issues {text : Text} (closed : ¬ issuesOpen <:+: text)
    (last : text.getLast? = some 0x3E) (after : Text) :
    MissesBefore issuesFound text (0x0A :: after) := by
  intro s suffix solid
  have ends : s.getLast? = some 0x3E := by
    obtain ⟨front, rfl⟩ := suffix
    rw [getLast?_append] at last
    cases s with
    | nil => exact absurd rfl solid
    | cons u s => simpa using last
  have away : ¬ issuesOpen <+: dropLead (s ++ 0x0A :: after) := by
    intro here
    obtain ⟨r, part, form⟩ := dropLead_append ends (0x0A :: after)
    rw [form] at here
    have inside : issuesOpen <+: r := prefix_of_free (show 0x0A ∉ issuesOpen by decide) here
    exact closed (inside.isInfix.trans (part.trans suffix).isInfix)
  unfold issuesFound
  rw [if_neg]
  rwa [List.isPrefixOf_iff_prefix]

/-- The last graph of a specification, with its close, and what is around it. -/
def lastGraph (spec : Text) : Option (Text × Text × Text) :=
  (lastIndexFrom GRAPH_CLOSE spec spec.length).map fun graphEnd =>
    (spec.take (graphStart spec graphEnd),
      slice spec (graphStart spec graphEnd) (graphEnd + GRAPH_CLOSE.length),
      spec.drop (graphEnd + GRAPH_CLOSE.length))

/-- A specification with a graph and without tracking markup. -/
structure Untracked (spec before graph after : Text) : Prop where
  found : lastGraph spec = some (before, graph, after)
  block : Misses issuesFound spec
  tags : CleanTags graph

/-- Nothing in the specification is taken for tracking markup, and nothing looked up is
inherited: no row of the plan and no tag has the name of an inherited member for its id unless
a page is recorded for it, no block opens up to the end of the graph, and no tag that gains
attributes opens one or runs over the end of the graph. -/
structure NotConfused (plan : TrackPlan) (tracking : TrackingRefs) (before graph : Text) :
    Prop where
  rows : ∀ issue ∈ plan.issues, lookup tracking.refs.notionNodes issue.nodeId ≠ .inherited
  closed : ¬ issuesOpen <:+: before ++ graph
  fits : Fits (extraOf tracking) graph

/-- Stripping undoes injecting, injecting again changes nothing, a later record replaces the
earlier one, and the text around the last graph stays as it is. -/
structure RoundTrip (spec before after : Text) (plan : TrackPlan) (tracking : TrackingRefs)
    (injected : Text) : Prop where
  made : injectTrackingXml spec plan tracking = some injected
  strip : stripTrackingXml injected = some spec
  again : injectTrackingXml injected plan tracking = some injected
  replaced : ∀ plan' tracking',
    injectTrackingXml injected plan' tracking' = injectTrackingXml spec plan' tracking'
  around : ∃ graph block, issuesBlock plan tracking = some block ∧
    injected = before ++ graph ++ js "\n" ++ block ++ after

theorem linkAttrs_isSome {ref : Looked IssueRef} {notionUrl : Looked Text}
    (looked : notionUrl ≠ .inherited) : ∃ links, linkAttrs ref notionUrl = some links := by
  cases notionUrl with
  | absent => exact ⟨_, rfl⟩
  | own url => exact ⟨_, rfl⟩
  | inherited => exact absurd rfl looked

theorem lookup_stepKey {α : Type} (record : OrderedMap Text α) (nodeId : Text) (step : Nat) :
    lookup record (stepKey nodeId step) ≠ .inherited := by
  have point : 0x2E ∈ stepKey nodeId step := by
    rw [stepKey]
    simp [show js "." = [0x2E] from rfl]
  have plain : stepKey nodeId step ∉ inheritedNames := by
    intro mem
    have none_ : ∀ name ∈ inheritedNames, (0x2E : UInt16) ∉ name := by
      simp only [inheritedNames, forall_mem_cons]
      exact ⟨by decide, by decide, by decide, by decide, by decide, by decide, by decide, by decide,
        by decide, by decide, by decide, by decide, by simp⟩
    exact none_ _ mem point
  unfold lookup
  split
  · exact fun same => nomatch same
  · rw [if_neg plain]
    exact fun same => nomatch same

theorem mapM_isSome {α β : Type} {f : α → Option β} {l : List α}
    (each : ∀ x ∈ l, ∃ y, f x = some y) : ∃ r, l.mapM f = some r := by
  induction l with
  | nil => exact ⟨[], rfl⟩
  | cons a l ih =>
    obtain ⟨b, first⟩ := each a mem_cons_self
    obtain ⟨r, rest⟩ := ih fun x mem => each x (mem_cons_of_mem a mem)
    exact ⟨b :: r, by simp [mapM_cons, first, rest]⟩

theorem issuesBlock_isSome
    (rows : ∀ issue ∈ plan.issues, lookup tracking.refs.notionNodes issue.nodeId ≠ .inherited) :
    ∃ block, issuesBlock plan tracking = some block := by
  have issues : ∃ issues, plan.issues.mapM (issueLines plan tracking) = some issues := by
    apply mapM_isSome
    intro issue mem
    obtain ⟨links, head⟩ := @linkAttrs_isSome (lookup tracking.refs.linearNodes issue.nodeId) _
      (rows issue mem)
    obtain ⟨subs, steps⟩ := @mapM_isSome _ _ (subIssueLine tracking) (stepsOf plan issue.nodeId) (by
      intro sub _
      obtain ⟨links, line⟩ := @linkAttrs_isSome
        (lookup tracking.refs.linearSteps (stepKey sub.nodeId sub.step)) _
        (lookup_stepKey tracking.refs.notionSteps sub.nodeId sub.step)
      exact ⟨_, Option.map_eq_some_iff.mpr ⟨links, line, rfl⟩⟩)
    exact ⟨_, by rw [issueLines, head, Option.bind_some, steps, Option.map_some]⟩
  obtain ⟨issues, made⟩ := issues
  exact ⟨_, by rw [issuesBlock, made, Option.map_some]⟩

theorem located_of_lastGraph {spec graph : Text}
    (found : lastGraph spec = some (before, graph, after)) :
    ∃ inner, graph = inner ++ GRAPH_CLOSE ∧ Located spec before inner after := by
  obtain ⟨graphEnd, closes, parts⟩ := Option.map_eq_some_iff.mp found
  obtain ⟨b, g, a, located⟩ := located_of_graphEnd closes
  have same : graphEnd = b.length + g.length := by
    rw [located.graphEnd] at closes
    exact (Option.some.inj closes).symm
  rw [same, located.graphStart, located.take_before, located.slice, located.drop_after] at parts
  cases parts
  exact ⟨g, rfl, located⟩

theorem Located.misses_after {graph : Text} (located : Located t before graph after)
    (misses : Misses issuesFound t) : Misses issuesFound after := by
  apply misses.suffix
  rw [located.whole, ← append_assoc, ← append_assoc]
  exact suffix_append _ _

theorem erase_injected {text : Text} (made : issuesBlock plan tracking = some block)
    (closed : ¬ issuesOpen <:+: text) (last : text.getLast? = some 0x3E)
    (misses : Misses issuesFound after) :
    erase issuesFound (text ++ js "\n" ++ block ++ after) = text ++ after := by
  have form : text ++ js "\n" ++ block ++ after = text ++ 0x0A :: (block ++ after) := by
    simp [show js "\n" = [0x0A] from rfl]
  have match_ : erase issuesFound ((0x0A :: block) ++ after) = erase issuesFound after :=
    erase_match (cons_ne_nil _ _) (issuesFound_block made after)
  rw [form, erase_append (missesBefore_issues closed last (block ++ after)), ← cons_append,
    match_, erase_misses misses]

theorem tracking_round_trip {spec before graph after : Text}
    (untracked : Untracked spec before graph after) {plan : TrackPlan} {tracking : TrackingRefs}
    (notConfused : NotConfused plan tracking before graph) :
    ∃ injected, RoundTrip spec before after plan tracking injected := by
  obtain ⟨inner, rfl, located⟩ := located_of_lastGraph untracked.found
  obtain ⟨block, made⟩ := issuesBlock_isSome notConfused.rows
  have erased : erase issuesFound spec = spec := erase_misses untracked.block
  obtain ⟨new, rewritten, relocated⟩ := rewritten_located located
    (fun id e found => extraOf_trackAttrs found) untracked.tags notConfused.fits
  have misses := located.misses_after untracked.block
  -- the injected text, and what is left of it without its block
  have injected : injectTrackingXml spec plan tracking =
      some (before ++ (new ++ GRAPH_CLOSE) ++ js "\n" ++ block ++ after) := by
    rw [inject_located erased located, made, Option.bind_some, rewritten.read, Option.map_some]
  have quiet : Quiet issuesOpen := ⟨rfl, by decide, by decide⟩
  have closed : ¬ issuesOpen <:+: before ++ (new ++ GRAPH_CLOSE) :=
    fun inside => notConfused.closed (rewritten.places issuesOpen quiet before inside)
  have last : (before ++ (new ++ GRAPH_CLOSE)).getLast? = some 0x3E := by
    rw [← append_assoc, getLast?_append]
    rfl
  have bare := erase_injected made closed last misses
  have shape : before ++ (new ++ GRAPH_CLOSE) ++ after =
      before ++ (new ++ (GRAPH_CLOSE ++ after)) := by
    simp
  rw [shape] at bare
  have replaced : ∀ plan' tracking', injectTrackingXml
      (before ++ (new ++ GRAPH_CLOSE) ++ js "\n" ++ block ++ after) plan' tracking' =
      injectTrackingXml spec plan' tracking' := by
    intro plan' tracking'
    rw [inject_located bare relocated, inject_located erased located, rewritten.again]
  refine ⟨_, injected, ?_, (replaced plan tracking).trans injected, replaced, ?_⟩
  · rw [strip_located bare relocated, rewritten.again, unescape_clean _ untracked.tags,
      Option.map_some, located.whole]
    simp
  · exact ⟨new ++ GRAPH_CLOSE, block, made, rfl⟩

theorem misses_of_tails {found : Text → Nat}
    (all : t.tails.all (fun s => s.isEmpty || found s = 0) = true) : Misses found t := by
  intro s suffix solid
  have here := all_eq_true.mp all s ((mem_tails s t).mpr suffix)
  rw [append_nil]
  simpa [solid] using here

def noOpenerIn (attrs : Text) : Bool := attrs.tails.all fun s => !trackOpener s

theorem noOpener_of_tails (all : noOpenerIn attrs = true) : NoOpener attrs := by
  intro s suffix
  simpa using all_eq_true.mp all s ((mem_tails s attrs).mpr suffix)

/-- A plan of one row, and a record with its issue. -/
def rowPlan (nodeId : Text) : TrackPlan :=
  ⟨js "g1", ⟨[], [], [], [], [], [], none, none⟩, [⟨nodeId, js "Build", []⟩], [], [], []⟩

def rowTracking : TrackingRefs :=
  ⟨js "g1", .complete, ⟨OrderedMap.empty.set (js "n1") ⟨js "i1", js "ENG-1", js "u", js "Build"⟩,
    OrderedMap.empty, none, OrderedMap.empty, OrderedMap.empty, []⟩⟩

/-- A graph of one node, in a prompt. -/
def nodeSpec (original nodeId title : Text) : Text :=
  original ++ (js "<GRAPH_OF_THOUGHT><NODE id=\"" ++ nodeId ++ js "\" title=\"" ++ title ++
    js "\"/></GRAPH_OF_THOUGHT>") ++ js "</P>"

def nodeGraph (nodeId title : Text) : Text :=
  js "<GRAPH_OF_THOUGHT><NODE id=\"" ++ nodeId ++ js "\" title=\"" ++ title ++
    js "\"/></GRAPH_OF_THOUGHT>"

theorem nodeSpec_untracked {original nodeId title : Text}
    (found : lastGraph (nodeSpec original nodeId title) =
      some (original, nodeGraph nodeId title, js "</P>"))
    (block : (nodeSpec original nodeId title).tails.all
      (fun s => s.isEmpty || issuesFound s = 0) = true)
    (tags : (nodeTags (nodeGraph nodeId title)).all
      (fun tag => tag.1.tails.all fun s => s.isEmpty || trackFound s = 0) = true) :
    Untracked (nodeSpec original nodeId title) original (nodeGraph nodeId title) (js "</P>") :=
  ⟨found, misses_of_tails block, fun tag mem => misses_of_tails (all_eq_true.mp tags tag mem)⟩

theorem plain_untracked :
    Untracked (nodeSpec (js "<P>") (js "n1") (js "Build")) (js "<P>")
      (nodeGraph (js "n1") (js "Build")) (js "</P>") :=
  nodeSpec_untracked (by decide +kernel) (by decide +kernel) (by decide +kernel)

theorem plain_notConfused :
    NotConfused (rowPlan (js "n1")) rowTracking (js "<P>") (nodeGraph (js "n1") (js "Build")) where
  rows := by
    intro issue mem
    rw [rowPlan, mem_singleton] at mem
    subst mem
    exact fun same => nomatch same
  closed := by decide +kernel
  fits := by
    have tags : nodeTags (nodeGraph (js "n1") (js "Build")) =
        [(js " id=\"n1\" title=\"Build\"", js "</GRAPH_OF_THOUGHT>")] := by decide +kernel
    intro tag mem id named
    rw [tags, mem_singleton] at mem
    subst mem
    have same : idOf (js " id=\"n1\" title=\"Build\"") = some (js "n1") := by decide +kernel
    rw [same] at named
    cases named
    refine ⟨js " issue=\"ENG-1\" issueUrl=\"u\"", by decide +kernel, .inr ⟨?_, by decide⟩⟩
    exact noOpener_of_tails (by decide +kernel)

theorem tracking_round_trip_build :
    Untracked (nodeSpec (js "<P>") (js "n1") (js "Build")) (js "<P>")
        (nodeGraph (js "n1") (js "Build")) (js "</P>") ∧
      NotConfused (rowPlan (js "n1")) rowTracking (js "<P>") (nodeGraph (js "n1") (js "Build")) ∧
      ∃ injected, RoundTrip (nodeSpec (js "<P>") (js "n1") (js "Build")) (js "<P>") (js "</P>")
        (rowPlan (js "n1")) rowTracking injected :=
  ⟨plain_untracked, plain_notConfused, tracking_round_trip plain_untracked plain_notConfused⟩

/-- A title that ends in ` issue=`, an original that opens a block and a node named `constructor`:
stripping loses the title's end, it loses the text up to the block, and injecting throws. -/
theorem title_confuses :
    Untracked (nodeSpec (js "<P>") (js "n1") (js "by issue=")) (js "<P>")
        (nodeGraph (js "n1") (js "by issue=")) (js "</P>") ∧
      (injectTrackingXml (nodeSpec (js "<P>") (js "n1") (js "by issue=")) (rowPlan (js "n1"))
        rowTracking).bind stripTrackingXml = some (nodeSpec (js "<P>") (js "n1") (js "byENG-1")) ∧
      (injectTrackingXml (nodeSpec (js "<P><ISSUES graphId=\"") (js "n1") (js "Build"))
        (rowPlan (js "n1")) rowTracking).bind stripTrackingXml = some (js "<P></P>") ∧
      injectTrackingXml (nodeSpec (js "<P>") (js "constructor") (js "Build"))
        (rowPlan (js "constructor")) rowTracking = none ∧
      ¬ ∀ spec before graph after, Untracked spec before graph after → ∀ plan tracking,
        ∃ injected, RoundTrip spec before after plan tracking injected := by
  have untracked : Untracked (nodeSpec (js "<P>") (js "n1") (js "by issue=")) (js "<P>")
      (nodeGraph (js "n1") (js "by issue=")) (js "</P>") :=
    nodeSpec_untracked (by decide +kernel) (by decide +kernel) (by decide +kernel)
  have lost : (injectTrackingXml (nodeSpec (js "<P>") (js "n1") (js "by issue=")) (rowPlan (js "n1"))
      rowTracking).bind stripTrackingXml = some (nodeSpec (js "<P>") (js "n1") (js "byENG-1")) := by
    decide +kernel
  refine ⟨untracked, lost, by decide +kernel, by decide +kernel, fun all => ?_⟩
  obtain ⟨injected, trip⟩ := all _ _ _ _ untracked (rowPlan (js "n1")) rowTracking
  rw [trip.made, Option.bind_some, trip.strip] at lost
  exact absurd lost (by decide +kernel)

end Ultrathink.Guarantees.TrackingXml
