import Ultrathink.Guarantees.AuditChains

/-!
# Tamper evidence of the audit chain

The hash of a record covers everything that the record says but a field named `__proto__`:
`checkLine` copies the fields into an object whose setter of that name ignores the value. So two
accepted chains from the genesis record that end in one hash hold the same records exactly when
those fields agree.
-/

namespace Ultrathink.Guarantees.TamperEvidence

open List Library JsText JsNumber JsonText JsonWrite Sha256
open Source.Obs Source.Obs.AuditLine Source.Obs.AuditChain
open CanonicalLines AuditChains

def plain : Value → Value
  | .num (.finite x) => .num (.finite (plusZero x))
  | v => v

def plainMembers (members : List (Text × Value)) : List (Text × Value) :=
  members.map fun m => (m.1, plain m.2)

def recordOfLine (line : List UInt8) : Option (List (Text × Value)) :=
  (parse (ofUtf8 line)).bind isPlainObject

def memberOf (line : List UInt8) (name : Text) : Option Value :=
  ((recordOfLine line).bind fun record => Json.field record name).map plain

def fieldsOf (line : List UInt8) : Option (List (Text × Value)) :=
  ((recordOfLine line).bind fun record =>
    (Json.field record (js "fields")).bind isPlainObject).map plainMembers

def protoOf (line : List UInt8) : Option Value :=
  (fieldsOf line).bind fun fields => Json.field fields proto

/-- One record: its fields are an object, which has no order. -/
structure SameRecords (line line' : List UInt8) : Prop where
  members : ∀ name ∈ [js "seq", js "ts", js "event", js "prev", js "hash"],
    memberOf line name = memberOf line' name
  fields : ∃ fields fields', fieldsOf line = some fields ∧ fieldsOf line' = some fields' ∧
    fields.Perm fields'

/-- The lines at each position have one field that no hash covers, or neither has it. -/
def SameUncovered (lines lines' : List (List UInt8)) : Prop :=
  ∀ i : Nat, (lines[i]?).bind protoOf = (lines'[i]?).bind protoOf

/-- The bytes that `checkLine` hashes for a line. -/
def hashedBytes (line : List UInt8) : Option (List UInt8) := do
  let record ← recordOfLine line
  let seq ← integerOf (Json.field record (js "seq"))
  let ts ← stringOf (Json.field record (js "ts"))
  let event ← stringOf (Json.field record (js "event"))
  let prev ← stringOf (Json.field record (js "prev"))
  let fields ← (Json.field record (js "fields")).bind isPlainObject
  let flat ← (flatten (ownOrder fields)).toOption
  return toUtf8 (hashedText seq ts event prev flat)

/-- SHA-256 takes no two of the texts that the lines are hashed from to one digest. -/
def NoCollision (lines lines' : List (List UInt8)) : Prop :=
  ∀ bytes ∈ lines.filterMap hashedBytes, ∀ bytes' ∈ lines'.filterMap hashedBytes,
    sha256Hex bytes = sha256Hex bytes' → bytes = bytes'

/-- The first record is the genesis record, of seq 1. -/
def BeginsAtGenesis (lines : List (List UInt8)) : Prop :=
  ∃ line, lines.head? = some line ∧ memberOf line (js "seq") = some (.num (.finite first))

variable {p : Place} {e e' : Entry} {a q : Nat} {x : Finite} {front entries entries' : List Entry}

theorem le_nearest (le : 2 ^ q ≤ a) : 2 ^ q ≤ nearest a 1 := by
  have some_ : a ≠ 0 := by
    rintro rfl
    have positive := Nat.two_pow_pos q
    omega
  have log : q ≤ a.log2 := (Nat.le_log2 some_).mpr le
  have floor : 2 ^ (a.log2 - (a.log2 - 52)) ≤ a / 2 ^ (a.log2 - 52) := by
    rw [Nat.le_div_iff_mul_le (Nat.two_pow_pos _), ← Nat.pow_add,
      Nat.sub_add_cancel (Nat.sub_le _ _)]
    exact Nat.log2_self_le some_
  have half (d : Nat) : a / d ≤ halfEven a d := by
    rw [halfEven]
    split
    · exact Nat.le_refl _
    split
    · exact Nat.le_succ _
    split
    · exact Nat.le_refl _
    · exact Nat.le_succ _
  unfold nearest
  rw [Nat.div_one, Nat.one_mul]
  calc 2 ^ q ≤ 2 ^ a.log2 := Nat.pow_le_pow_right (by decide) log
    _ = 2 ^ (a.log2 - (a.log2 - 52)) * 2 ^ (a.log2 - 52) := by
      rw [← Nat.pow_add, Nat.sub_add_cancel (Nat.sub_le _ _)]
    _ ≤ a / 2 ^ (a.log2 - 52) * 2 ^ (a.log2 - 52) := Nat.mul_le_mul_right _ floor
    _ ≤ _ := Nat.mul_le_mul_right _ (half _)

theorem nearest_le (some_ : a ≠ 0) : nearest a 1 ≤ 2 * a := by
  have below : 2 ^ (a.log2 - 52) ≤ a :=
    le_trans (Nat.pow_le_pow_right (by decide) (Nat.sub_le _ _)) (Nat.log2_self_le some_)
  unfold nearest
  rw [Nat.div_one, Nat.one_mul]
  calc halfEven a (2 ^ (a.log2 - 52)) * 2 ^ (a.log2 - 52)
      ≤ (a / 2 ^ (a.log2 - 52) + 1) * 2 ^ (a.log2 - 52) :=
        Nat.mul_le_mul_right _ (halfEven_le _ _)
    _ = a / 2 ^ (a.log2 - 52) * 2 ^ (a.log2 - 52) + 2 ^ (a.log2 - 52) := by ring
    _ ≤ 2 * a := by
      have floor := Nat.div_mul_le_self a (2 ^ (a.log2 - 52))
      omega

theorem next_zero : next zero = first := by
  have sum : zero.units + JsNumber.one = JsNumber.one := Nat.zero_add _
  have bounded : nearest JsNumber.one 1 < limit := one_rounded.symm ▸ one_bounded
  have value : ofFraction false JsNumber.one 1 = .finite first := by
    rw [ofFraction, dif_pos bounded, first, Number.finite.injEq, Finite.mk.injEq]
    exact ⟨rfl, one_rounded⟩
  rw [AuditChain.next, sum, value, finiteOr]

theorem next_large (large : 2 ^ q ≤ x.units + JsNumber.one)
    (far : 2 * (2 ^ q + JsNumber.one) ≤ limit) : 2 ^ q ≤ (next x).units := by
  rw [AuditChain.next]
  generalize sum : x.units + JsNumber.one = a at large
  by_cases bounded : nearest a 1 < limit
  · rw [ofFraction, dif_pos bounded, finiteOr]
    exact le_nearest large
  · rw [ofFraction, dif_neg bounded]
    change 2 ^ q ≤ x.units
    have positive := Nat.two_pow_pos q
    have twice := nearest_le (show a ≠ 0 by omega)
    generalize limit = top at *
    generalize JsNumber.one = unit at *
    omega

theorem far_limit (q : Nat) (small : q ≤ fractionBits + 1) :
    2 * (2 ^ q + JsNumber.one) ≤ limit := by
  have top : 2 * (2 ^ q + JsNumber.one) ≤ 2 ^ 3 * JsNumber.one := by
    have pow : 2 ^ q ≤ 2 * JsNumber.one := by
      calc 2 ^ q ≤ 2 ^ (fractionBits + 1) := Nat.pow_le_pow_right (by decide) small
        _ = 2 * JsNumber.one := by rw [Nat.pow_succ, Nat.mul_comm, JsNumber.one]
    generalize JsNumber.one = unit at *
    omega
  have wide : 2 ^ 3 ≤ 2 ^ exponentLimit :=
    Nat.pow_le_pow_right (by decide) (by rw [exponentLimit_eq]; decide)
  exact top.trans (Nat.mul_le_mul_right _ wide)

theorem next_pos (x : Finite) : JsNumber.one ≤ (next x).units :=
  next_large (q := fractionBits) (Nat.le_add_left _ _) (far_limit _ (Nat.le_succ _))

theorem two_le_next (some_ : JsNumber.one ≤ x.units) :
    2 * JsNumber.one ≤ (next x).units := by
  have double : 2 ^ (fractionBits + 1) = 2 * JsNumber.one := by
    rw [Nat.pow_succ, Nat.mul_comm, JsNumber.one]
  rw [← double]
  apply next_large _ (far_limit _ (Nat.le_refl _))
  rw [double]
  generalize JsNumber.one = unit at *
  omega

theorem next_next_ne (x : Finite) : plusZero (next (next x)) ≠ plusZero (next zero) := by
  intro same
  have two := two_le_next (next_pos x)
  have positive := JsNumber.one_pos
  have later : (next (next x)).units ≠ 0 := by
    generalize JsNumber.one = unit at *
    omega
  have units := congrArg Finite.units same
  rw [next_zero, plusZero_first, plusZero, if_neg later] at units
  have one_ : first.units = JsNumber.one := rfl
  rw [one_] at units
  rw [units] at two
  generalize JsNumber.one = unit at *
  omega

theorem chain_snoc {q : Place} (chain : Chain p (front ++ [e]) q) :
    ∃ m, Chain p front m ∧ Joins m e ∧ q = m.after e := by
  induction front generalizing p with
  | nil =>
    cases chain with
    | cons joins rest =>
      cases rest with
      | nil => exact ⟨p, .nil p, joins, rfl⟩
  | cons d more ih =>
    cases chain with
    | cons joins rest =>
      obtain ⟨m, before, last, rfl⟩ := ih rest
      exact ⟨m, .cons joins before, last, rfl⟩

theorem chain_counted {m : Place} (chain : Chain p front m) :
    front = [] ∧ m = p ∨ front ≠ [] ∧ ∃ x, m.lastSeq = next x := by
  induction front using List.reverseRecOn with
  | nil =>
    cases chain with
    | nil => exact .inl ⟨rfl, rfl⟩
  | append_singleton front e =>
    obtain ⟨before, -, -, rfl⟩ := chain_snoc chain
    exact .inr ⟨by simp, before.lastSeq, rfl⟩

def recordAt (p : Place) (e : Entry) : AuditRecord := decoded (next p.lastSeq) p.prev e.checked

theorem hashedBytes_joins (joins : Joins p e) :
    hashedBytes e.line = some (toUtf8 (hashedOf (recordAt p e))) := by
  obtain ⟨parsed, seq, fields, a⟩ := checkLine_ok joins.accepted
  have record : recordOfLine e.line = some parsed := by
    rw [recordOfLine, a.reads]
    rfl
  have text : hashedText seq e.checked.ts e.checked.event p.prev e.checked.fields =
      hashedOf (recordAt p e) := by
    rw [hashedOf, hashedText_eq, hashedText_eq]
    simp only [bodyTexts, recordAt, decoded, numberText_same a.expected]
  have object : (Json.field parsed (js "fields")).bind isPlainObject = some fields := by
    rw [a.fieldsValue]
    rfl
  rw [hashedBytes, record]
  simp only [Option.bind_eq_bind, Option.bind_some, integerOf_ok.mpr ⟨a.seqValue, a.whole⟩,
    stringOf_ok.mpr a.ts, stringOf_ok.mpr a.event, stringOf_ok.mpr a.prev, object, a.flat,
    Except.toOption, text, Option.pure_def]

/-- Two joined lines of one hash have one record but for what no hash covers. -/
structure Agree (e e' : Entry) : Prop where
  hash : e.checked.hash = e'.checked.hash
  record : ∃ p p', Joins p e ∧ Joins p' e' ∧ SameRecord (recordAt p e) (recordAt p' e')

def entryLines (entries : List Entry) : List (List UInt8) := entries.map Entry.line

theorem sameRecord_joins {p' : Place} (joins : Joins p e) (joins' : Joins p' e')
    (hash : e.checked.hash = e'.checked.hash) (free : NoCollision [e.line] [e'.line]) :
    SameRecord (recordAt p e) (recordAt p' e') := by
  apply sameRecord_of_hash joins.accepted joins'.accepted
  apply free
  · simp [hashedBytes_joins joins, recordAt]
  · simp [hashedBytes_joins joins', recordAt]
  · exact (hash_eq joins.accepted).symm.trans (hash.trans (hash_eq joins'.accepted))

theorem NoCollision.mono {lines lines' more more' : List (List UInt8)} (free : NoCollision lines lines')
    (sub : more ⊆ lines) (sub' : more' ⊆ lines') : NoCollision more more' := by
  intro bytes mem bytes' mem' digests
  obtain ⟨line, held, hashed⟩ := mem_filterMap.mp mem
  obtain ⟨line', held', hashed'⟩ := mem_filterMap.mp mem'
  exact free bytes (mem_filterMap.mpr ⟨line, sub held, hashed⟩) bytes'
    (mem_filterMap.mpr ⟨line', sub' held', hashed'⟩) digests

theorem agree_chains {q q' : Place} (chain : Chain genesisPlace entries q)
    (chain' : Chain genesisPlace entries' q') (some_ : entries ≠ []) (some_' : entries' ≠ [])
    (last : q.prev = q'.prev) (free : NoCollision (entryLines entries) (entryLines entries')) :
    List.Forall₂ Agree entries entries' := by
  induction entries using List.reverseRecOn generalizing entries' q q' with
  | nil => exact absurd rfl some_
  | append_singleton front e ih =>
    rcases eq_nil_or_concat' entries' with rfl | ⟨front', e', rfl⟩
    · exact absurd rfl some_'
    obtain ⟨m, before, joins, rfl⟩ := chain_snoc chain
    obtain ⟨m', before', joins', rfl⟩ := chain_snoc chain'
    have lines : entryLines (front ++ [e]) = entryLines front ++ [e.line] := by simp [entryLines]
    have lines' : entryLines (front' ++ [e']) = entryLines front' ++ [e'.line] := by simp [entryLines]
    rw [lines, lines'] at free
    have same := sameRecord_joins joins joins' last (free.mono (by simp) (by simp))
    have agree : Agree e e' := ⟨last, m, m', joins, joins', same⟩
    have tail : List.Forall₂ Agree [e] [e'] := .cons agree .nil
    have seq : plusZero (next m.lastSeq) = plusZero (next m'.lastSeq) := same.seq
    rcases chain_counted before with ⟨rfl, rfl⟩ | ⟨more, x, counted⟩
    · rcases chain_counted before' with ⟨rfl, rfl⟩ | ⟨more', x', counted'⟩
      · exact tail
      · rw [counted'] at seq
        exact absurd seq.symm (next_next_ne x')
    · rcases chain_counted before' with ⟨rfl, rfl⟩ | ⟨more', x', counted'⟩
      · rw [counted] at seq
        exact absurd seq (next_next_ne x)
      · have earlier := ih before before' more more' same.prev (free.mono (by simp) (by simp))
        exact rel_append earlier tail

section Members

variable {members members' : List (Text × Value)} {name : Text}

theorem field_eq_some (distinct : (members.map Prod.fst).Nodup) {v : Value} :
    Json.field members name = some v ↔ (name, v) ∈ members := by
  induction members with
  | nil => simp [Json.field]
  | cons m rest ih =>
    obtain ⟨key, w⟩ := m
    rw [map_cons, nodup_cons] at distinct
    have later := ih distinct.2
    by_cases here : key = name
    · subst here
      have absent : (key, v) ∉ rest := fun mem =>
        distinct.1 (mem_map.mpr ⟨(key, v), mem, rfl⟩)
      simp [Json.field, absent, eq_comm]
    · rw [mem_cons, ← later]
      simp [Json.field, here, Ne.symm here]

theorem field_perm (distinct : (members.map Prod.fst).Nodup) (perm : members.Perm members') :
    Json.field members name = Json.field members' name := by
  have distinct' := (perm.map Prod.fst).nodup_iff.mp distinct
  ext v
  rw [field_eq_some distinct, field_eq_some distinct', perm.mem_iff]

theorem split_field (distinct : (members.map Prod.fst).Nodup) :
    members.Perm (members.filter (fun m => m.1 ≠ name) ++
      ((Json.field members name).map fun v => (name, v)).toList) := by
  induction members with
  | nil => exact .refl _
  | cons m rest ih =>
    obtain ⟨key, w⟩ := m
    rw [map_cons, nodup_cons] at distinct
    by_cases here : key = name
    · subst here
      have kept : rest.filter (fun m => m.1 ≠ key) = rest := by
        rw [filter_eq_self]
        intro m mem
        apply decide_eq_true
        rintro rfl
        exact distinct.1 (mem_map.mpr ⟨m, mem, rfl⟩)
      have found : Json.field ((key, w) :: rest) key = some w := by simp [Json.field]
      rw [filter_cons_of_neg (by simp), kept, found]
      exact (perm_append_singleton _ _).symm
    · have same : Json.field ((key, w) :: rest) name = Json.field rest name := by
        simp [Json.field, here]
      rw [filter_cons_of_pos (by simpa using here), same, cons_append]
      exact (ih distinct.2).cons _

end Members

theorem plain_value (p : Primitive) : plain p.value = (clean p).value := by
  cases p <;> rfl

theorem plusZero_same {m n : Finite} (same : sameNumber m n = true) : plusZero m = plusZero n := by
  obtain ⟨negative, units, rounded, bounded⟩ := m
  obtain ⟨negative', units', rounded', bounded'⟩ := n
  simp only [sameNumber, Bool.and_eq_true, Bool.or_eq_true, decide_eq_true_eq] at same
  obtain ⟨rfl, sign⟩ := same
  rw [plusZero, plusZero]
  rcases sign with rfl | none
  · rfl
  · rw [if_pos none, if_pos none]

/-- The fields that are hashed, as members. -/
def coveredFields (r : AuditRecord) : List (Text × Value) :=
  (cleanFields r.fields).map fun f => (f.1, f.2.value)

structure Holds (line : List UInt8) (r : AuditRecord) (fields : List (Text × Value)) : Prop where
  seq : memberOf line (js "seq") = some (.num (.finite (plusZero r.seq)))
  ts : memberOf line (js "ts") = some (.str r.ts)
  event : memberOf line (js "event") = some (.str r.event)
  prev : memberOf line (js "prev") = some (.str r.prev)
  hash : memberOf line (js "hash") = some (.str r.hash)
  object : fieldsOf line = some fields
  distinct : (fields.map Prod.fst).Nodup
  covered : (fields.filter fun m => m.1 ≠ proto).Perm (coveredFields r)

theorem names_plainMembers (members : List (Text × Value)) :
    (plainMembers members).map Prod.fst = members.map Prod.fst := by
  rw [plainMembers, map_map]
  rfl

theorem holds_joins (joins : Joins p e) :
    ∃ fields, Holds e.line (recordAt p e) fields := by
  obtain ⟨parsed, seq, fields, a⟩ := checkLine_ok joins.accepted
  have record : recordOfLine e.line = some parsed := by
    rw [recordOfLine, a.reads]
    rfl
  have member (name : Text) (v : Value) (found : Json.field parsed name = some v) :
      memberOf e.line name = some (plain v) := by
    rw [memberOf, record, Option.bind_some, found]
    rfl
  have object : fieldsOf e.line = some (plainMembers fields) := by
    rw [fieldsOf, record, Option.bind_some, a.fieldsValue]
    rfl
  obtain ⟨m, mem, same⟩ := mem_of_field a.fieldsValue
  have distinct := (parse_distinct a.reads parsed rfl).2 m mem fields same
  have seqValue := member _ _ a.seqValue
  rw [plain, plusZero_same a.expected] at seqValue
  refine ⟨plainMembers fields, seqValue, member _ _ a.ts, member _ _ a.event, member _ _ a.prev,
    member _ _ a.hash, object, (names_plainMembers fields).symm ▸ distinct, ?_⟩
  have moved (l : List (Text × Value)) : (plainMembers l).filter (fun m => m.1 ≠ proto) =
      plainMembers (l.filter fun m => m.1 ≠ proto) := by
    rw [plainMembers, filter_map]
    rfl
  have covered : coveredFields (recordAt p e) =
      plainMembers ((ownOrder fields).filter fun m => m.1 ≠ proto) := by
    rw [← flatten_ok a.flat, plainMembers, coveredFields, cleanFields, map_map, map_map]
    simp only [Function.comp_def, plain_value]
    rfl
  rw [moved, covered]
  exact ((ownOrder_perm fields).symm.filter _).map _

/-- Records that agree are the same exactly when the field that no hash covers is. -/
theorem sameRecords_iff (agree : Agree e e') :
    SameRecords e.line e'.line ↔ protoOf e.line = protoOf e'.line := by
  obtain ⟨hash, p, p', joins, joins', same⟩ := agree
  obtain ⟨fields, h⟩ := holds_joins joins
  obtain ⟨fields', h'⟩ := holds_joins joins'
  have mine : protoOf e.line = Json.field fields proto := by
    rw [protoOf, h.object]
    rfl
  have other : protoOf e'.line = Json.field fields' proto := by
    rw [protoOf, h'.object]
    rfl
  rw [mine, other]
  constructor
  · rintro ⟨-, f, f', is, is', perm⟩
    obtain rfl := Option.some.inj (h.object.symm.trans is)
    obtain rfl := Option.some.inj (h'.object.symm.trans is')
    exact field_perm h.distinct perm
  · intro uncovered
    refine ⟨?_, fields, fields', h.object, h'.object, ?_⟩
    · have hashes : (recordAt p e).hash = (recordAt p' e').hash := hash
      simp only [forall_mem_cons]
      refine ⟨?_, ?_, ?_, ?_, ?_, by simp⟩
      · rw [h.seq, h'.seq, same.seq]
      · rw [h.ts, h'.ts, same.ts]
      · rw [h.event, h'.event, same.event]
      · rw [h.prev, h'.prev, same.prev]
      · rw [h.hash, h'.hash, hashes]
    · have covered : (coveredFields (recordAt p e)).Perm (coveredFields (recordAt p' e')) :=
        same.fields.map _
      have kept := (h.covered.trans covered).trans h'.covered.symm
      have whole := kept.append_right ((Json.field fields' proto).map fun v => (proto, v)).toList
      have own := @split_field fields proto h.distinct
      have own' := @split_field fields' proto h'.distinct
      rw [uncovered] at own
      exact own.trans (whole.trans own'.symm)

theorem sameRecords_lines (agree : List.Forall₂ Agree entries entries') :
    List.Forall₂ SameRecords (entryLines entries) (entryLines entries') ↔
      SameUncovered (entryLines entries) (entryLines entries') := by
  induction agree with
  | nil => simp [entryLines, SameUncovered]
  | @cons e e' more more' first rest ih =>
    have lines (d : Entry) (l : List Entry) : entryLines (d :: l) = d.line :: entryLines l := rfl
    rw [lines, lines, forall₂_cons, sameRecords_iff first, ih]
    constructor
    · rintro ⟨here, later⟩ i
      cases i with
      | zero => exact here
      | succ i => exact later i
    · intro each
      exact ⟨each 0, fun i => each (i + 1)⟩

theorem unpruned_first {line : List UInt8} (is : memberOf line (js "seq") = some (.num (.finite first))) :
    isPruned line = false := by
  rw [isPruned]
  cases peeked : peekHead (ofUtf8 line) with
  | none => rfl
  | some head =>
    unfold peekHead at peeked
    obtain ⟨parsed, record, peeked⟩ := Option.bind_eq_some_iff.mp peeked
    obtain ⟨seq, seqIs, peeked⟩ := Option.bind_eq_some_iff.mp peeked
    obtain ⟨prev, -, peeked⟩ := Option.bind_eq_some_iff.mp peeked
    obtain rfl := Option.some.inj peeked
    rw [memberOf, recordOfLine, record, Option.bind_some, (integerOf_ok.mp seqIs).1] at is
    have same : plusZero seq = first := Number.finite.inj (Json.num.inj (Option.some.inj is))
    have units : seq.units ≤ JsNumber.one := by
      rw [plusZero] at same
      split at same
      · next none_ =>
        rw [none_]
        exact Nat.zero_le _
      · rw [same]
        exact Nat.le_refl _
    simp [units]

section Chains

variable {path path' : Text} {fs fs' : AuditFs} {options options' : ScanOptions}
  {records records' : Nat} {lastHash : Text}

theorem chain_of_genesis (accepted : (scanChain path fs options).verification = .ok records lastHash)
    (genesis : BeginsAtGenesis (heldLines path fs options)) :
    ∃ entries q, Chain genesisPlace entries q ∧ entryLines entries = heldLines path fs options ∧
      entries ≠ [] ∧ q.prev = lastHash := by
  obtain ⟨p, entries, q, begins, chain, lines, last⟩ := scanChain_ok accepted
  obtain ⟨line, head, seq⟩ := genesis
  have from_ : p = genesisPlace := by
    apply begins.genesis
    intro l mem
    rw [head] at mem
    obtain rfl := Option.some.inj mem
    exact unpruned_first seq
  subst from_
  refine ⟨entries, q, chain, lines, ?_, last⟩
  rintro rfl
  rw [← lines] at head
  cases head

/-- Two accepted chains from the genesis record with one last hash, however they are cut into
files, hold the same records exactly when the fields `__proto__` of their records agree. -/
theorem tamper_evident (accepted : (scanChain path fs options).verification = .ok records lastHash)
    (accepted' : (scanChain path' fs' options').verification = .ok records' lastHash)
    (genesis : BeginsAtGenesis (heldLines path fs options))
    (genesis' : BeginsAtGenesis (heldLines path' fs' options'))
    (free : NoCollision (heldLines path fs options) (heldLines path' fs' options')) :
    List.Forall₂ SameRecords (heldLines path fs options) (heldLines path' fs' options') ↔
      SameUncovered (heldLines path fs options) (heldLines path' fs' options') := by
  obtain ⟨entries, q, chain, lines, some_, last⟩ := chain_of_genesis accepted genesis
  obtain ⟨entries', q', chain', lines', some_', last'⟩ := chain_of_genesis accepted' genesis'
  rw [← lines, ← lines'] at free ⊢
  exact sameRecords_lines (agree_chains chain chain' some_ some_' (last.trans last'.symm) free)

end Chains

/-- A directory with these files, each read at once. -/
def filesIn (files : List (Text × List UInt8)) : AuditFs where
  readdirSync := some (files.map Prod.fst)
  join := id
  existsSync := fun path => (files.map Prod.fst).contains path
  openSync := fun path =>
    match files.find? fun f => f.1 = path with
    | none => .error (js "ENOENT")
    | some f => .ok ⟨[f.2].filter fun read => read ≠ [], none, by simp⟩

def activePath : Text := js "audit.jsonl"

def whole : ScanOptions := ⟨false, none, []⟩

/-- The first record in a sealed segment, and nothing in the active file yet. -/
def sealedFirst : AuditFs :=
  filesIn [(activePath, []), (js "audit-1-1.jsonl", recordBytes firstRecord ++ [0x0A])]

/-- The first record with a field that was added later, under the hash that it had. -/
def markedRecord : AuditRecord := { firstRecord with fields := [(proto, .text (js "added"))] }

def activeMarked : AuditFs := filesIn [(activePath, recordBytes markedRecord ++ [0x0A])]

theorem record_of_bytes (r : AuditRecord) : recordOfLine (recordBytes r) = some (recordMembers r) := by
  rw [recordOfLine, recordBytes, stringify_record, ofUtf8_toUtf8 (paired_record r),
    parse_of_reads (reads_record r)]
  rfl

theorem genesis_of_bytes {r : AuditRecord} (seq : r.seq = first) : BeginsAtGenesis [recordBytes r] := by
  have found : Json.field (recordMembers r) (js "seq") = some (.num (.finite (plusZero r.seq))) := rfl
  refine ⟨recordBytes r, rfl, ?_⟩
  rw [memberOf, record_of_bytes, Option.bind_some, found, seq, plusZero_first, Option.map_some,
    plain, plusZero_first]

theorem fields_first : fieldsOf (recordBytes firstRecord) = some [] := by
  rw [fieldsOf, record_of_bytes]
  rfl

theorem fields_marked : fieldsOf (recordBytes markedRecord) = some [(proto, .str (js "added"))] := by
  rw [fieldsOf, record_of_bytes]
  rfl

theorem held_sealed : heldLines activePath sealedFirst whole = [recordBytes firstRecord] := by
  decide +kernel

theorem held_marked : heldLines activePath activeMarked whole = [recordBytes markedRecord] := by
  decide +kernel

theorem sealed_scanned :
    (scanChain activePath sealedFirst whole).verification = .ok 1 firstRecord.hash := by
  decide +kernel

theorem marked_scanned :
    (scanChain activePath activeMarked whole).verification = .ok 1 firstRecord.hash := by
  decide +kernel

theorem hashed_marked : hashedBytes (recordBytes markedRecord) = hashedBytes (recordBytes firstRecord) := by
  decide +kernel

theorem marked_free : NoCollision [recordBytes firstRecord] [recordBytes markedRecord] := by
  intro bytes mem bytes' mem' _
  obtain ⟨line, held, hashed⟩ := mem_filterMap.mp mem
  obtain ⟨line', held', hashed'⟩ := mem_filterMap.mp mem'
  obtain rfl := mem_singleton.mp held
  obtain rfl := mem_singleton.mp held'
  exact Option.some.inj (hashed.symm.trans (hashed_marked.symm.trans hashed'))

/-- A field `__proto__` that is added to a record leaves the chain accepted under its last hash. -/
theorem proto_field_unhashed :
    (scanChain activePath sealedFirst whole).verification = .ok 1 firstRecord.hash ∧
      (scanChain activePath activeMarked whole).verification = .ok 1 firstRecord.hash ∧
      BeginsAtGenesis (heldLines activePath sealedFirst whole) ∧
      BeginsAtGenesis (heldLines activePath activeMarked whole) ∧
      NoCollision (heldLines activePath sealedFirst whole) (heldLines activePath activeMarked whole) ∧
      ¬ List.Forall₂ SameRecords (heldLines activePath sealedFirst whole)
        (heldLines activePath activeMarked whole) := by
  rw [held_sealed, held_marked]
  refine ⟨sealed_scanned, marked_scanned, genesis_of_bytes rfl, genesis_of_bytes rfl, marked_free, ?_⟩
  rw [forall₂_cons]
  rintro ⟨⟨-, fields, fields', is, is', perm⟩, -⟩
  obtain rfl := Option.some.inj (fields_first.symm.trans is)
  obtain rfl := Option.some.inj (fields_marked.symm.trans is')
  exact absurd perm.length_eq (by decide)

theorem tamper_evident_sealed :
    List.Forall₂ SameRecords (heldLines activePath sealedFirst whole)
        (heldLines activePath activeMarked whole) ↔
      SameUncovered (heldLines activePath sealedFirst whole)
        (heldLines activePath activeMarked whole) :=
  tamper_evident sealed_scanned marked_scanned (held_sealed ▸ genesis_of_bytes rfl)
    (held_marked ▸ genesis_of_bytes rfl) (by rw [held_sealed, held_marked]; exact marked_free)

end Ultrathink.Guarantees.TamperEvidence
