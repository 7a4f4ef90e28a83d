import Ultrathink.Source.Ship.Github

/-!
# The scan of review threads fails closed

A scan is ok with the Greptile threads of every page from the first to one without a next
page, each page well formed and asked for with the cursor of the page before, no cursor
met twice, and the whole within the deadline; otherwise it is an error. It makes a bounded
number of calls.
-/

namespace Ultrathink.Guarantees.ThreadScan

open List Library JsText Interaction
open Source.Ship

/-- The value at the end of a path of names. -/
def follow (value : Option Value) (path : List String) : Option Value :=
  path.foldl (fun value name => get (obj value) name) value

/-- The record of a node's first comment. -/
def firstComment (node : Value) : Option (Json.Record ℚ) :=
  obj ((elements (follow (some node) ["comments", "nodes"])).bind (·.head?))

def loginOf (comment : Option (Json.Record ℚ)) : Option Text :=
  str (get (obj (get comment "author")) "login")

/-- What a node shows: a thread of a deleted account or of somebody else, or Greptile's. -/
inductive Shows (p : Platform) (node : Value) : Option ReviewThread → Prop
  | deleted {id : Text} {comment : Json.Record ℚ} (named : str (get (obj (some node)) "id") = some id)
      (first : firstComment node = some comment) (gone : get (some comment) "author" = some .null) :
      Shows p node none
  | foreign {id author : Text} {comment : Json.Record ℚ}
      (named : str (get (obj (some node)) "id") = some id)
      (first : firstComment node = some comment) (login : loginOf (some comment) = some author)
      (other : ¬ greptilePrefix <+: p.toLowerCase author) : Shows p node none
  | greptile {thread : ReviewThread} {comment : Json.Record ℚ}
      (named : str (get (obj (some node)) "id") = some thread.id)
      (first : firstComment node = some comment) (login : loginOf (some comment) = some thread.author)
      (own : greptilePrefix <+: p.toLowerCase thread.author)
      (body : str (get (some comment) "body") = some thread.body)
      (resolved : boolean (get (obj (some node)) "isResolved") = some thread.isResolved)
      (outdated : boolean (get (obj (some node)) "isOutdated") = some thread.isOutdated)
      (path : thread.path = str (get (some comment) "path"))
      (line : thread.line =
        (number (get (some comment) "line")).or (number (get (some comment) "originalLine"))) :
      Shows p node (some thread)

/-- The names above the threads of a pull request. -/
def threadsPath : List String := ["data", "repository", "pullRequest", "reviewThreads"]

/-- The cursor of the next page, when there is one. -/
def nextCursor (root : Json.Record ℚ) (more : Bool) : Option Text :=
  if more then str (follow (some (.obj root)) (threadsPath ++ ["pageInfo", "endCursor"])) else none

/-- A response that is a page: no errors, a list of nodes that all show a thread, and
whether there is a next page, with its cursor. -/
structure IsPage (p : Platform) (stdout : Text) (threads : List ReviewThread)
    (next : Option Text) : Prop where
  parsed : ∃ root, p.parseJson stdout = some (.obj root) ∧
    (∀ error errors, get (some root) "errors" ≠ some (.arr (error :: errors))) ∧
    ∃ nodes shown, follow (some (.obj root)) (threadsPath ++ ["nodes"]) = some (.arr nodes) ∧
      List.Forall₂ (Shows p) nodes shown ∧ threads = shown.reduceOption ∧
    ∃ more, follow (some (.obj root)) (threadsPath ++ ["pageInfo", "hasNextPage"]) =
        some (.bool more) ∧
      next = nextCursor root more ∧ (more = true → next ≠ none)

variable {h : History Call Answer} {threads : List ReviewThread} {p : Platform}
  {after : Option Text} {value : Option Value} {node : Value} {deadlineMs : Option ℚ} {pages : Nat}
  {seen : List Text} {result : Except Text (List ReviewThread)}

theorem obj_of_get {name : String} {id : Text} (named : str (get (obj value) name) = some id) :
    ∃ record, obj value = some record := by
  cases found : obj value with
  | none =>
    rw [found] at named
    cases named
  | some record => exact ⟨record, rfl⟩

variable {shown : Option ReviewThread} {comment : Json.Record ℚ} {cursors : List Text} {r : Exec}
  {left : Option ℚ} {acc : List ReviewThread}

theorem shows_of_parseThread (ok : parseThread p node = .ok shown) :
    Shows p node shown := by
  have comment_eq : obj ((elements (get (obj (get (obj (some node)) "comments")) "nodes")).bind
      (·.head?)) = firstComment node := rfl
  simp only [parseThread, comment_eq] at ok
  split at ok
  case h_2 => cases ok
  rename_i thread id comment isThread named first
  rw [first] at ok
  split at ok
  · rename_i gone
    cases ok
    exact .deleted named first gone
  split at ok
  · cases ok
  rename_i author login
  split at ok
  · rename_i other
    cases ok
    refine .foreign named first login fun own => ?_
    rw [List.isPrefixOf_iff_prefix.mpr own] at other
    cases other
  · rename_i own
    rw [Bool.not_eq_true, Bool.not_eq_false'] at own
    split at ok
    · rename_i body isResolved isOutdated hasBody resolved outdated
      cases ok
      exact .greptile named first login (List.isPrefixOf_iff_prefix.mp own) hasBody resolved
        outdated rfl rfl
    · cases ok

theorem author_present {author : Text} (login : loginOf (some comment) = some author) :
    get (some comment) "author" ≠ some .null := by
  intro gone
  rw [loginOf, gone] at login
  cases login

theorem comments_of_first {thread : Json.Record ℚ} (isThread : obj (some node) = some thread)
    (first : firstComment node = some comment) :
    obj ((elements (get (obj (get (some thread) "comments")) "nodes")).bind (·.head?)) =
      some comment := by
  rw [← isThread]
  exact first

theorem parseThread_of_shows (shows : Shows p node shown) :
    parseThread p node = .ok shown := by
  cases shows with
  | deleted named first gone =>
    obtain ⟨thread, isThread⟩ := obj_of_get named
    have first := comments_of_first isThread first
    rw [isThread] at named
    simp only [parseThread, isThread, named, first, gone]
  | foreign named first login other =>
    obtain ⟨thread, isThread⟩ := obj_of_get named
    have first := comments_of_first isThread first
    have present := author_present login
    have other := Bool.eq_false_iff.mpr (mt isPrefixOf_iff_prefix.mp other)
    rw [isThread] at named
    rw [loginOf] at login
    simp only [parseThread, isThread, named, first, login, other, Bool.not_false, if_true]
  | greptile named first login own body resolved outdated path line =>
    obtain ⟨thread, isThread⟩ := obj_of_get named
    have first := comments_of_first isThread first
    have present := author_present login
    have own := isPrefixOf_iff_prefix.mpr own
    rw [isThread] at named resolved outdated
    rw [loginOf] at login
    simp only [parseThread, isThread, named, first, login, own, body, resolved, outdated,
      Bool.not_true, Bool.false_eq_true, if_false]
    rw [← path, ← line]

theorem parseThreads_ok {nodes : List Value} :
    parseThreads p nodes = .ok threads ↔
      ∃ shown, List.Forall₂ (Shows p) nodes shown ∧ threads = shown.reduceOption := by
  induction nodes generalizing threads with
  | nil =>
    constructor
    · intro ok
      cases ok
      exact ⟨[], .nil, rfl⟩
    · rintro ⟨shown, each, rfl⟩
      cases each
      rfl
  | cons node rest ih =>
    constructor
    · intro ok
      unfold parseThreads at ok
      cases head : parseThread p node with
      | error e =>
        rw [head] at ok
        cases ok
      | ok thread =>
        cases tail : parseThreads p rest with
        | error e =>
          rw [head, tail] at ok
          cases ok
        | ok more =>
          rw [head, tail] at ok
          cases ok
          obtain ⟨shown, each, rfl⟩ := ih.mp tail
          refine ⟨thread :: shown, .cons (shows_of_parseThread head) each, ?_⟩
          cases thread <;> rfl
    · rintro ⟨shown, each, rfl⟩
      cases each with
      | cons head each =>
        rename_i thread shown
        unfold parseThreads
        rw [parseThread_of_shows head, ih.mpr ⟨shown, each, rfl⟩]
        cases thread <;> rfl

theorem elements_eq_some {items : List Value} :
    elements value = some items ↔ value = some (.arr items) := by
  cases value with
  | none => simp [elements]
  | some value => cases value <;> simp [elements]

theorem boolean_eq_some {b : Bool} :
    boolean value = some b ↔ value = some (.bool b) := by
  cases value with
  | none => simp [boolean]
  | some value => cases value <;> simp [boolean]

theorem obj_eq_some {record : Json.Record ℚ} :
    obj value = some record ↔ value = some (.obj record) := by
  cases value with
  | none => simp [obj]
  | some value => cases value <;> simp [obj]

theorem parseThreadsPage_ok {stdout : Text} {next : Option Text} :
    parseThreadsPage p stdout = .ok (threads, next) ↔ IsPage p stdout threads next := by
  constructor
  · intro ok
    unfold parseThreadsPage at ok
    split at ok
    · cases ok
    rename_i root found
    split at ok
    · cases ok
    rename_i noErrors
    simp only at ok
    split at ok
    · cases ok
    rename_i nodes hasNodes
    split at ok
    · cases ok
    rename_i more hasMore
    change (if more = true ∧ nextCursor root more = none then .error paginationStalled
      else do
        let parsed ← parseThreads p nodes
        return (parsed, nextCursor root more)) = Except.ok (threads, next) at ok
    split at ok
    · cases ok
    rename_i advances
    cases parsed : parseThreads p nodes with
    | error e =>
      rw [parsed] at ok
      cases ok
    | ok read =>
      rw [parsed] at ok
      cases ok
      obtain ⟨shown, each, total⟩ := parseThreads_ok.mp parsed
      refine ⟨root, obj_eq_some.mp found, fun error errors bad => ?_, nodes, shown,
        elements_eq_some.mp hasNodes, each, total, more, boolean_eq_some.mp hasMore, rfl,
        fun isMore missing => advances ⟨isMore, missing⟩⟩
      exact noErrors error errors (elements_eq_some.mpr bad)
  · rintro ⟨root, found, noErrors, nodes, shown, hasNodes, each, total, more, hasMore, rfl, advances⟩
    have read := parseThreads_ok.mpr ⟨shown, each, total⟩
    have found := obj_eq_some.mpr found
    have hasNodes := elements_eq_some.mpr hasNodes
    have hasMore := boolean_eq_some.mpr hasMore
    unfold parseThreadsPage
    rw [found]
    simp only
    split
    · rename_i first rest bad
      exact absurd (elements_eq_some.mp bad) (noErrors first rest)
    split
    · rename_i missing
      exact absurd (missing.symm.trans hasNodes) (by simp)
    rename_i nodes' hasNodes'
    cases hasNodes'.symm.trans hasNodes
    split
    · rename_i missing
      exact absurd (missing.symm.trans hasMore) (by simp)
    rename_i more' hasMore'
    cases hasMore'.symm.trans hasMore
    change (if more = true ∧ nextCursor root more = none then .error paginationStalled
      else do
        let parsed ← parseThreads p nodes
        return (parsed, nextCursor root more)) = Except.ok (threads, nextCursor root more)
    rw [if_neg fun stalled => advances stalled.1 stalled.2, read]
    rfl

/-- The cursor and the response of a page that was asked for. -/
def pageOf : Event Call Answer → Option (Option Text × Exec)
  | ⟨.threadsPage _ _ _ after _, r⟩ => some (after, r)
  | _ => none

def pagesIn (h : History Call Answer) : List (Option Text × Exec) := h.filterMap pageOf

def readingOf : Event Call Answer → Option ℚ
  | ⟨.now, t⟩ => some t
  | _ => none

/-- Every reading of the clock is before the deadline. -/
def InTime (deadlineMs : Option ℚ) (h : History Call Answer) : Prop :=
  ∀ deadline ∈ deadlineMs, ∀ t ∈ h.filterMap readingOf, t < deadline

/-- Well-formed pages from the cursor `after` on, each asked for with the cursor of the one
before, up to one without a next page; the cursors followed and the threads. -/
inductive Linked (p : Platform) :
    Option Text → List (Option Text × Exec) → List Text → List ReviewThread → Prop
  | last {after : Option Text} {r : Exec} {threads : List ReviewThread} (exited : r.exitCode = 0)
      (page : IsPage p r.stdout threads none) : Linked p after [(after, r)] [] threads
  | next {after : Option Text} {r : Exec} {threads more : List ReviewThread} {cursor : Text}
      {rest : List (Option Text × Exec)} {cursors : List Text} (exited : r.exitCode = 0)
      (page : IsPage p r.stdout threads (some cursor))
      (later : Linked p (some cursor) rest cursors more) :
      Linked p after ((after, r) :: rest) (cursor :: cursors) (threads ++ more)

theorem Linked.ne_nil (linked : Linked p after [] cursors threads) :
    False := by
  cases linked

theorem Linked.first {rest : List (Option Text × Exec)}
    (linked : Linked p after ((after, r) :: rest) cursors threads) :
    r.exitCode = 0 ∧ (IsPage p r.stdout threads none ∨
      ∃ page cursor cursors' more, cursors = cursor :: cursors' ∧ threads = page ++ more ∧
        IsPage p r.stdout page (some cursor) ∧ Linked p (some cursor) rest cursors' more) := by
  cases linked with
  | last exited page => exact ⟨exited, .inl page⟩
  | next exited page later => exact ⟨exited, .inr ⟨_, _, _, _, rfl, rfl, page, later⟩⟩

/-- A scan that met no doubt, and the threads of its pages. -/
def Complete (p : Platform) (deadlineMs : Option ℚ) (h : History Call Answer)
    (threads : List ReviewThread) : Prop :=
  ∃ cursors, Linked p none (pagesIn h) cursors threads ∧ cursors.Nodup ∧
    (pagesIn h).length ≤ maxThreadPages ∧ InTime deadlineMs h

theorem inTime_append {h' : History Call Answer} :
    InTime deadlineMs (h ++ h') ↔ InTime deadlineMs h ∧ InTime deadlineMs h' := by
  simp only [InTime, filterMap_append, mem_append]
  constructor
  · intro all
    exact ⟨fun d hd t ht => all d hd t (.inl ht), fun d hd t ht => all d hd t (.inr ht)⟩
  · rintro ⟨first, later⟩ d hd t (ht | ht)
    · exact first d hd t ht
    · exact later d hd t ht

theorem inTime_page {owner name : Text} {n : Nat} :
    InTime deadlineMs [⟨.threadsPage owner name n after left, r⟩] := by
  intro d _ t ht
  cases ht

/-- Reading the clock asks for no page, and finds the deadline spent when it is not before it. -/
theorem remaining_spec (emits : Emits (remaining deadlineMs) h (some left)) :
    pagesIn h = [] ∧ (spent left = false ↔ InTime deadlineMs h) := by
  cases deadlineMs with
  | none =>
    cases emits
    exact ⟨rfl, fun _ d hd => (nomatch hd), fun _ => rfl⟩
  | some deadline =>
    cases emits with
    | ask rest =>
      rename_i t
      cases rest
      refine ⟨rfl, ?_⟩
      have read : ([⟨.now, t⟩] : History Call Answer).filterMap readingOf = [t] := rfl
      simp only [InTime, read, spent, Option.any_some, decide_eq_false_iff_not, not_le,
        Option.mem_some_iff, forall_eq', mem_singleton, forall_eq, sub_pos]

theorem pagesIn_append (h h' : History Call Answer) : pagesIn (h ++ h') = pagesIn h ++ pagesIn h' :=
  filterMap_append

theorem emits_done {α : Type} {a b : α} (emits : Emits (Prog.done a : M α) h (some b)) :
    h = [] ∧ b = a := by
  cases emits
  exact ⟨rfl, rfl⟩

theorem emits_call {c : Call} {r : Answer c} (emits : Emits (ask c) h (some r)) : h = [⟨c, r⟩] := by
  cases emits with
  | ask rest =>
    cases rest
    rfl

/-- One turn of the loop: the page it asked for between two checks of the deadline. -/
structure Turn (p : Platform) (deadlineMs : Option ℚ) (after : Option Text) (h : History Call Answer)
    (r : Exec) : Prop where
  asked : pagesIn h = [(after, r)]
  inTime : InTime deadlineMs h

section Scan
variable {p : Platform} {owner name : Text} {n : Nat} {deadlineMs : Option ℚ}

/-- What follows the page of one turn. -/
def afterPage (p : Platform) (owner name : Text) (n : Nat) (deadlineMs : Option ℚ) (pages : Nat)
    (seen : List Text) (threads : List ReviewThread) (r : Exec) :
    M (Except Text (List ReviewThread)) :=
  if r.exitCode ≠ 0 then return .error (errorOf p r)
  else match parseThreadsPage p r.stdout with
    | .error error => return .error error
    | .ok (page, none) => return .ok (threads ++ page)
    | .ok (page, some next) =>
      if next ∈ seen then return .error paginationStalled
      else scanPages p owner name n deadlineMs pages (some next) (next :: seen) (threads ++ page)

/-- A scan either stops in its first turn with an error, having met the deadline or asked for
nothing, or reads a page in time and goes on. -/
theorem scanPages_turn
    (emits : Emits (scanPages p owner name n deadlineMs (pages + 1) after seen threads) h
      (some result)) :
    (¬ InTime deadlineMs h ∧ ∃ error, result = .error error) ∨
    ∃ first r later, h = first ++ later ∧ Turn p deadlineMs after first r ∧
      Emits (afterPage p owner name n deadlineMs pages seen threads r) later (some result) := by
  unfold scanPages at emits
  obtain ⟨checked, left, rest, rfl, check, emits⟩ := emits.bind_some
  obtain ⟨quiet, inTime⟩ := remaining_spec check
  split at emits
  · rename_i over_
    obtain ⟨rfl, rfl⟩ := emits_done emits
    refine .inl ⟨fun all => ?_, _, rfl⟩
    rw [inTime.mpr (inTime_append.mp all).1] at over_
    cases over_
  rename_i early
  obtain ⟨page, r, more, rfl, fetched, read⟩ := emits.bind_some
  obtain rfl := emits_call fetched
  obtain ⟨checked', left', after_, rfl, check', last⟩ := read.bind_some
  obtain ⟨quiet', inTime'⟩ := remaining_spec check'
  split at last
  · rename_i over_
    obtain ⟨rfl, rfl⟩ := emits_done last
    refine .inl ⟨fun all => ?_, _, rfl⟩
    have late := (inTime_append.mp (inTime_append.mp (inTime_append.mp all).2).2).1
    rw [inTime'.mpr late] at over_
    cases over_
  rename_i early'
  refine .inr ⟨checked ++ [⟨_, r⟩] ++ checked', r, after_, by simp, ⟨?_, ?_⟩, last⟩
  · rw [pagesIn_append, pagesIn_append, quiet, quiet']
    rfl
  · have first := inTime.mp (Bool.eq_false_iff.mpr early)
    have last := inTime'.mp (Bool.eq_false_iff.mpr early')
    exact inTime_append.mpr ⟨inTime_append.mpr ⟨first, inTime_page⟩, last⟩

/-- From the cursor `after` on, with the cursors in `seen` behind it. -/
def CompleteFrom (p : Platform) (deadlineMs : Option ℚ) (pages : Nat) (after : Option Text)
    (seen : List Text) (h : History Call Answer) (threads : List ReviewThread) : Prop :=
  ∃ cursors, Linked p after (pagesIn h) cursors threads ∧ cursors.Nodup ∧
    (∀ cursor ∈ cursors, cursor ∉ seen) ∧ (pagesIn h).length ≤ pages ∧ InTime deadlineMs h

theorem complete_of_ok (emits : Emits (scanPages p owner name n deadlineMs pages after seen acc) h
      (some (.ok threads))) :
    ∃ more, threads = acc ++ more ∧ CompleteFrom p deadlineMs pages after seen h more := by
  induction pages generalizing after seen acc h with
  | zero => cases (emits_done emits).2
  | succ pages ih =>
    rcases scanPages_turn emits with ⟨_, error, bad⟩ | ⟨first, r, later, rfl, turn, rest⟩
    · cases bad
    unfold afterPage at rest
    split at rest
    · cases (emits_done rest).2
    rename_i exited
    have exited : r.exitCode = 0 := not_not.mp exited
    split at rest
    · cases (emits_done rest).2
    · rename_i page parsed
      obtain ⟨rfl, ok⟩ := emits_done rest
      cases ok
      have page_ := parseThreadsPage_ok.mp parsed
      refine ⟨page, rfl, [], ?_, .nil, by simp, ?_, ?_⟩
      · rw [append_nil, turn.asked]
        exact .last exited page_
      · rw [append_nil, turn.asked]
        exact Nat.succ_le_succ (Nat.zero_le _)
      · rw [append_nil]
        exact turn.inTime
    · rename_i page next parsed
      split at rest
      · cases (emits_done rest).2
      rename_i fresh
      obtain ⟨more, rfl, cursors, linked, distinct, apart, few, inTime⟩ := ih rest
      have page_ := parseThreadsPage_ok.mp parsed
      refine ⟨page ++ more, by rw [append_assoc], next :: cursors, ?_, ?_, ?_, ?_, ?_⟩
      · rw [pagesIn_append, turn.asked]
        exact .next exited page_ linked
      · refine nodup_cons.mpr ⟨fun mem => ?_, distinct⟩
        exact apart next mem mem_cons_self
      · intro cursor mem met
        rcases mem_cons.mp mem with rfl | old
        · exact fresh met
        · exact apart cursor old (mem_cons_of_mem _ met)
      · rw [pagesIn_append, turn.asked, length_append, length_singleton]
        omega
      · exact inTime_append.mpr ⟨turn.inTime, inTime⟩

theorem ok_of_complete {more : List ReviewThread}
    (emits : Emits (scanPages p owner name n deadlineMs pages after seen acc) h (some result))
    (complete : CompleteFrom p deadlineMs pages after seen h more) :
    result = .ok (acc ++ more) := by
  induction pages generalizing after seen acc more h with
  | zero =>
    obtain ⟨cursors, linked, _, _, few, _⟩ := complete
    rw [length_eq_zero_iff.mp (Nat.le_zero.mp few)] at linked
    exact linked.ne_nil.elim
  | succ pages ih =>
    obtain ⟨cursors, linked, distinct, apart, few, inTime⟩ := complete
    rcases scanPages_turn emits with ⟨late, _⟩ | ⟨first, r, later, rfl, turn, rest⟩
    · exact absurd inTime late
    rw [pagesIn_append, turn.asked] at linked few
    obtain ⟨exited, page | ⟨page, cursor, cursors', more', rfl, rfl, shape, linked'⟩⟩ := linked.first
    · have read : afterPage p owner name n deadlineMs pages seen acc r = .done (.ok (acc ++ more)) := by
        rw [afterPage, if_neg (not_not.mpr exited), parseThreadsPage_ok.mpr page]
        rfl
      rw [read] at rest
      exact (emits_done rest).2
    · have fresh : cursor ∉ seen := apart cursor mem_cons_self
      have read : afterPage p owner name n deadlineMs pages seen acc r =
          scanPages p owner name n deadlineMs pages (some cursor) (cursor :: seen) (acc ++ page) := by
        rw [afterPage, if_neg (not_not.mpr exited), parseThreadsPage_ok.mpr shape]
        exact if_neg fresh
      rw [read] at rest
      rw [ih rest ⟨cursors', linked', (nodup_cons.mp distinct).2, ?_, ?_, ?_⟩,
        append_assoc]
      · intro c mem met
        rcases mem_cons.mp met with rfl | old
        · exact (nodup_cons.mp distinct).1 mem
        · exact apart c (mem_cons_of_mem _ mem) old
      · rw [length_append, length_singleton] at few
        omega
      · exact (inTime_append.mp inTime).2

theorem remaining_atMost (deadlineMs : Option ℚ) : AtMost 1 (remaining deadlineMs) := by
  cases deadlineMs with
  | none => exact .done 1 _
  | some deadline => exact fun t => .done 0 _

theorem scanPages_atMost (p : Platform) (owner name : Text) (n : Nat) (deadlineMs : Option ℚ)
    (pages : Nat) (after : Option Text) (seen : List Text) (acc : List ReviewThread) :
    AtMost (3 * pages) (scanPages p owner name n deadlineMs pages after seen acc) := by
  induction pages generalizing after seen acc with
  | zero => exact .done _ _
  | succ pages ih =>
    have turn : 3 * (pages + 1) = 1 + (1 + (1 + 3 * pages)) := by omega
    rw [turn]
    unfold scanPages
    refine (remaining_atMost _).bind fun left => ?_
    split
    · exact .done _ _
    refine (AtMost.call _).bind fun r => (remaining_atMost _).bind fun left' => ?_
    split
    · exact .done _ _
    split
    · exact .done _ _
    split
    · exact .done _ _
    · exact .done _ _
    · split
      · exact .done _ _
      · exact ih _ _ _

theorem reviewThreads_atMost (p : Platform) (n : Nat) (deadlineMs : Option ℚ) :
    AtMost 63 (reviewThreads p n deadlineMs) := by
  change AtMost (1 + (1 + (1 + 3 * maxThreadPages))) _
  unfold reviewThreads
  refine (remaining_atMost _).bind fun left => ?_
  split
  · exact .done _ _
  refine (AtMost.call _).bind fun r => (remaining_atMost _).bind fun left' => ?_
  split
  · exact .done _ _
  split
  · split
    · exact .done _ _
    · exact scanPages_atMost p _ _ n deadlineMs maxThreadPages none [] []
  · exact .done _ _

/-- A scan stops with an error before its first page, or its pages come in a history of their
own, after the repository was looked up in time. -/
theorem reviewThreads_shape (emits : Emits (reviewThreads p n deadlineMs) h (some result)) :
    (pagesIn h = [] ∧ ∃ error, result = .error error) ∨
    ∃ lookup scan owner name, h = lookup ++ scan ∧ pagesIn lookup = [] ∧ InTime deadlineMs lookup ∧
      Emits (scanPages p owner name n deadlineMs maxThreadPages none [] []) scan (some result) := by
  unfold reviewThreads at emits
  obtain ⟨checked, left, rest, rfl, check, emits⟩ := emits.bind_some
  obtain ⟨quiet, inTime⟩ := remaining_spec check
  split at emits
  · obtain ⟨rfl, rfl⟩ := emits_done emits
    exact .inl ⟨by rw [append_nil, quiet], _, rfl⟩
  rename_i early
  obtain ⟨page, r, more, rfl, fetched, read⟩ := emits.bind_some
  obtain rfl := emits_call fetched
  obtain ⟨checked', left', later, rfl, check', last⟩ := read.bind_some
  obtain ⟨quiet', inTime'⟩ := remaining_spec check'
  have lookup : pagesIn (checked ++ ([⟨.repoView left, r⟩] ++ checked')) = [] := by
    rw [pagesIn_append, pagesIn_append, quiet, quiet']
    rfl
  have reassoc : checked ++ ([⟨.repoView left, r⟩] ++ (checked' ++ later)) =
      (checked ++ ([⟨.repoView left, r⟩] ++ checked')) ++ later := by
    simp
  split at last
  · obtain ⟨rfl, rfl⟩ := emits_done last
    exact .inl ⟨by rw [append_nil, lookup], _, rfl⟩
  rename_i early'
  split at last
  · split at last
    · obtain ⟨rfl, rfl⟩ := emits_done last
      exact .inl ⟨by rw [append_nil, lookup], _, rfl⟩
    · refine .inr ⟨_, later, _, _, reassoc, lookup, ?_, last⟩
      have first := inTime.mp (Bool.eq_false_iff.mpr early)
      have second := inTime'.mp (Bool.eq_false_iff.mpr early')
      have asked : InTime deadlineMs [⟨.repoView left, r⟩] := fun d _ t ht => nomatch ht
      exact inTime_append.mpr ⟨first, inTime_append.mpr ⟨asked, second⟩⟩
  · obtain ⟨rfl, rfl⟩ := emits_done last
    exact .inl ⟨by rw [append_nil, lookup], _, rfl⟩

theorem complete_append {lookup scan : History Call Answer} (quiet : pagesIn lookup = [])
    (inTime : InTime deadlineMs lookup) :
    Complete p deadlineMs (lookup ++ scan) threads ↔
      CompleteFrom p deadlineMs maxThreadPages none [] scan threads := by
  simp only [Complete, CompleteFrom, pagesIn_append, quiet, nil_append, inTime_append]
  constructor
  · rintro ⟨cursors, linked, distinct, few, _, late⟩
    exact ⟨cursors, linked, distinct, by simp, few, late⟩
  · rintro ⟨cursors, linked, distinct, _, few, late⟩
    exact ⟨cursors, linked, distinct, few, inTime, late⟩

/-- A scan makes at most 63 calls, and is ok exactly with the threads of a complete one. -/
theorem thread_scan {h : History Call Answer} {o : Option (Except Text (List ReviewThread))}
    (emits : Emits (reviewThreads p n deadlineMs) h o) :
    h.length ≤ 63 ∧ ∀ result, o = some result → ∀ threads,
      (result = .ok threads ↔ Complete p deadlineMs h threads) := by
  refine ⟨(reviewThreads_atMost p n deadlineMs).length_le emits, ?_⟩
  rintro result rfl threads
  rcases reviewThreads_shape emits with ⟨none_, error, rfl⟩ | ⟨lookup, scan, owner, name, rfl, quiet,
    inTime, scanned⟩
  · constructor
    · intro ok
      cases ok
    · rintro ⟨cursors, linked, _⟩
      rw [none_] at linked
      exact linked.ne_nil.elim
  · rw [complete_append quiet inTime]
    constructor
    · rintro rfl
      obtain ⟨more, rfl, complete⟩ := complete_of_ok scanned
      exact complete
    · exact fun complete => ok_of_complete scanned complete

end Scan

def repoJson : Text := js "repo"

def foreignJson : Text := js "page"

/-- A thread of alice's, without the flags that a thread has. -/
def foreignThread : Value :=
  .obj [(js "id", .str (js "t1")), (js "comments", .obj [(js "nodes", .arr [.obj [
    (js "author", .obj [(js "login", .str (js "alice"))]), (js "body", .str (js "fix"))]])])]

def foreignPage : Value :=
  .obj [(js "data", .obj [(js "repository", .obj [(js "pullRequest", .obj [(js "reviewThreads", .obj [
    (js "nodes", .arr [foreignThread]), (js "pageInfo", .obj [(js "hasNextPage", .bool false)])])])])])]

def platform : Platform where
  parseJson := fun t =>
    if t = repoJson then
      some (.obj [(js "nameWithOwner", .str (js "o/r")),
        (js "defaultBranchRef", .obj [(js "name", .str (js "main"))])])
    else if t = foreignJson then some foreignPage else none
  showNumber := fun n => ofNat n.num.toNat
  toUpperCase := id
  toLowerCase := id

/-- The scan without a deadline: the lookup and one page. -/
def foreignScan : History Call Answer :=
  [⟨.repoView none, ⟨0, repoJson, []⟩⟩,
    ⟨.threadsPage (js "o") (js "r") 7 none none, ⟨0, foreignJson, []⟩⟩]

theorem emits_foreignScan : Emits (reviewThreads platform 7 none) foreignScan (some (.ok [])) :=
  .ask (.ask (.done _))

theorem thread_scan_foreign : Complete platform none foreignScan [] :=
  ((thread_scan emits_foreignScan).2 _ rfl []).mp rfl

/-- The page has a thread, and the scan is ok with none. -/
theorem foreign_thread_left_out :
    Emits (reviewThreads platform 7 none) foreignScan (some (.ok [])) ∧
      pagesIn foreignScan = [(none, ⟨0, foreignJson, []⟩)] ∧
      platform.parseJson foreignJson = some foreignPage ∧
      follow (some foreignPage) (threadsPath ++ ["nodes"]) = some (.arr [foreignThread]) :=
  ⟨emits_foreignScan, rfl, rfl, rfl⟩

end Ultrathink.Guarantees.ThreadScan
