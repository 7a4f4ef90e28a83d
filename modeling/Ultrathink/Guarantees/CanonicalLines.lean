import Ultrathink.Source.Obs.AuditLine

/-!
# Canonical audit lines

`checkLine` compares a line with the text of the object that it parses to. That text has the
keys as the line has them, the hash is taken over sorted keys, and bytes that are no UTF-8 are
decoded before.
-/

namespace Ultrathink.Guarantees.CanonicalLines

open List Library JsText JsNumber JsonText JsonWrite Sha256
open Source.Obs.AuditLine

variable {β α : Type} {members parsed : List (Text × Value)}

variable {x : Except Text α} {a : α} {reason t line expectedPrev : Text} {v : Value}
  {n expectedSeq seq : Finite} {c : CheckedLine} {fields : List (Text × Primitive)}
  {r r' : AuditRecord}

section Lines

variable {σ : Type} {onLine : σ → Text → Except Text σ}

theorem bind_ok {f : α → Except Text β} {b : β} (done : x >>= f = .ok b) :
    ∃ a, x = .ok a ∧ f a = .ok b := by
  cases x with
  | error reason => cases done
  | ok a => exact ⟨a, rfl, done⟩

theorem ok_bind (value : x = .ok a) (f : α → Except Text β) :
    x >>= f = f a := by
  rw [value]
  rfl

/-- The lines with their ends, and what stands behind the last. -/
def fileOf (lines : List (List UInt8)) (behind : List UInt8) : List UInt8 :=
  lines.flatMap (fun line => line ++ [0x0A]) ++ behind

/-- A line that was offered: within the limit and without a line end. -/
def IsLine (line : List UInt8) : Prop := (0x0A : UInt8) ∉ line ∧ line.length ≤ MAX_LINE_BYTES

theorem foldlM_lines_cons (line : List UInt8) (lines : List (List UInt8)) (s : σ) :
    (line :: lines).foldlM (fun s line => onLine s (ofUtf8 line)) s =
      (onLine s (ofUtf8 line)) >>= fun s => lines.foldlM (fun s line => onLine s (ofUtf8 line)) s :=
  rfl

theorem scanChunk_lines {pending tail chunk behind : List UInt8} {s s' : σ}
    (noEnd : (0x0A : UInt8) ∉ pending ++ tail)
    (done : scanChunk onLine pending tail chunk s = .ok (behind, s')) :
    (0x0A : UInt8) ∉ behind ∧ ∃ lines : List (List UInt8), (∀ line ∈ lines, IsLine line) ∧
      pending ++ tail ++ chunk = fileOf lines behind ∧
      lines.foldlM (fun s line => onLine s (ofUtf8 line)) s = .ok s' := by
  induction chunk generalizing pending tail s with
  | nil =>
    unfold scanChunk at done
    split at done
    · cases done
    · obtain ⟨rfl, rfl⟩ := Prod.mk.inj (Except.ok.inj done)
      exact ⟨noEnd, [], by simp, by simp [fileOf], rfl⟩
  | cons b rest ih =>
    unfold scanChunk at done
    split at done
    · next other =>
      have noEnd' : (0x0A : UInt8) ∉ pending ++ (tail ++ [b]) := by
        rw [← append_assoc, mem_append, mem_singleton]
        rintro (held | same)
        · exact noEnd held
        · exact other same.symm
      obtain ⟨clean, lines, each, file, run⟩ := ih noEnd' done
      refine ⟨clean, lines, each, ?_, run⟩
      rw [← file]
      simp
    · next isEnd =>
      split at done
      · cases done
      · next fits =>
        obtain ⟨t, lineDone, restDone⟩ := bind_ok done
        obtain ⟨clean, lines, each, file, run⟩ := @ih [] [] t (by simp) restDone
        refine ⟨clean, (pending ++ tail) :: lines, ?_, ?_, ?_⟩
        · intro line mem
          rcases mem_cons.mp mem with rfl | later
          · exact ⟨noEnd, by rw [length_append]; omega⟩
          · exact each line later
        · rw [not_not] at isEnd
          rw [nil_append, nil_append] at file
          rw [file, isEnd]
          simp [fileOf]
        · rw [foldlM_lines_cons, lineDone]
          exact run

/-- However the file is read in chunks, an accepted file is its lines, each offered in turn. -/
theorem eachLine_lines {pending : List UInt8} {chunks : List (List UInt8)} {s s' : σ}
    (noEnd : (0x0A : UInt8) ∉ pending) (done : eachLine onLine pending chunks s = .ok s') :
    ∃ lines : List (List UInt8), (∀ line ∈ lines, IsLine line) ∧
      pending ++ chunks.flatten = fileOf lines [] ∧
      lines.foldlM (fun s line => onLine s (ofUtf8 line)) s = .ok s' := by
  induction chunks generalizing pending s with
  | nil =>
    unfold eachLine at done
    split at done
    · next empty =>
      obtain rfl := Except.ok.inj done
      exact ⟨[], by simp, by simp [fileOf, empty], rfl⟩
    · cases done
  | cons chunk more ih =>
    obtain ⟨⟨behind, t⟩, scanned, moreDone⟩ := bind_ok done
    obtain ⟨clean, front, eachFront, fileFront, runFront⟩ :=
      scanChunk_lines (by rwa [append_nil]) scanned
    obtain ⟨back, eachBack, fileBack, runBack⟩ := ih clean moreDone
    refine ⟨front ++ back, ?_, ?_, ?_⟩
    · intro line mem
      rcases mem_append.mp mem with early | late
      · exact eachFront line early
      · exact eachBack line late
    · rw [append_nil] at fileFront
      rw [flatten_cons, ← append_assoc, fileFront, fileOf, append_assoc, fileBack]
      simp [fileOf]
    · rw [foldlM_append, runFront]
      exact runBack

end Lines

theorem orReason_ok {value : Option α} :
    orReason value reason = .ok a ↔ value = some a := by
  cases value with
  | none => simp [orReason]
  | some b => simp [orReason]

theorem check_ok {holds : Bool} :
    check holds reason = .ok () ↔ holds = true := by
  cases holds with
  | false => simp [check]
  | true => simp [check]

theorem isPlainObject_ok :
    isPlainObject v = some members ↔ v = .obj members := by
  cases v <;> simp [isPlainObject]

theorem integerOf_ok {v : Option Value} :
    integerOf v = some n ↔ v = some (.num (.finite n)) ∧ (toInt? (.finite n)).isSome := by
  unfold integerOf
  split
  · next m =>
    constructor
    · intro found
      split at found
      · next whole =>
        obtain rfl := Option.some.inj found
        exact ⟨rfl, whole⟩
      · cases found
    · rintro ⟨same, whole⟩
      obtain rfl : m = n := by simpa using same
      rw [if_pos whole]
  · next other =>
    constructor
    · intro found
      cases found
    · rintro ⟨same, -⟩
      exact absurd same (other n)

theorem stringOf_ok {v : Option Value} : stringOf v = some t ↔ v = some (.str t) := by
  unfold stringOf
  split
  · simp
  · next other =>
    constructor
    · intro found
      cases found
    · intro same
      exact absurd same (other t)

/-- What an accepted line says, with the object that it parses to. -/
structure Accepted (line : Text) (expectedSeq : Finite) (expectedPrev : Text) (c : CheckedLine)
    (parsed : List (Text × Value)) (seq : Finite) (fields : List (Text × Value)) : Prop where
  reads : parse line = some (.obj parsed)
  keys : (sortByName parsed).map Prod.fst = RECORD_KEYS
  own : stringify (.obj parsed) = line
  seqValue : Json.field parsed (js "seq") = some (.num (.finite seq))
  whole : (toInt? (.finite seq)).isSome
  expected : sameNumber seq expectedSeq = true
  ts : Json.field parsed (js "ts") = some (.str c.ts)
  event : Json.field parsed (js "event") = some (.str c.event)
  named : c.event ≠ []
  prev : Json.field parsed (js "prev") = some (.str expectedPrev)
  prevHex : isHex64 expectedPrev = true
  hash : Json.field parsed (js "hash") = some (.str c.hash)
  hashHex : isHex64 c.hash = true
  fieldsValue : Json.field parsed (js "fields") = some (.obj fields)
  flat : flatten (ownOrder fields) = .ok c.fields
  hashed : hashRecord seq c.ts c.event expectedPrev c.fields = c.hash

theorem checkLine_ok (accepted : checkLine line expectedSeq expectedPrev = .ok c) :
    ∃ parsed seq fields, Accepted line expectedSeq expectedPrev c parsed seq fields := by
  obtain ⟨value, parsed_, accepted⟩ := bind_ok accepted
  obtain ⟨parsed, object, accepted⟩ := bind_ok accepted
  obtain ⟨⟨⟩, keys, accepted⟩ := bind_ok accepted
  obtain ⟨⟨⟩, own, accepted⟩ := bind_ok accepted
  obtain ⟨seq, seq_, accepted⟩ := bind_ok accepted
  obtain ⟨⟨⟩, expected, accepted⟩ := bind_ok accepted
  obtain ⟨ts, ts_, accepted⟩ := bind_ok accepted
  obtain ⟨event, event_, accepted⟩ := bind_ok accepted
  obtain ⟨prev, prev_, accepted⟩ := bind_ok accepted
  obtain ⟨⟨⟩, chained, accepted⟩ := bind_ok accepted
  obtain ⟨hash, hash_, accepted⟩ := bind_ok accepted
  obtain ⟨fields, fields_, accepted⟩ := bind_ok accepted
  obtain ⟨flat, flat_, accepted⟩ := bind_ok accepted
  obtain ⟨⟨⟩, hashed, done⟩ := bind_ok accepted
  obtain rfl := Except.ok.inj done
  simp only [orReason_ok, check_ok, isPlainObject_ok, integerOf_ok, stringOf_ok, decide_eq_true_eq,
    Option.filter_eq_some_iff, Option.bind_eq_some_iff] at *
  obtain ⟨seqValue, whole⟩ := seq_
  obtain ⟨eventValue, named⟩ := event_
  obtain ⟨prevValue, prevHex⟩ := prev_
  obtain ⟨hashValue, hashHex⟩ := hash_
  obtain ⟨v, fieldsValue, rfl⟩ := fields_
  subst object chained
  exact ⟨parsed, seq, fields, parsed_, keys, own, seqValue, whole, expected, ts_, eventValue, named,
    prevValue, prevHex, hashValue, hashHex, fieldsValue, flat_, hashed⟩

theorem Accepted.accepts {fields : List (Text × Value)}
    (a : Accepted line expectedSeq expectedPrev c parsed seq fields) :
    checkLine line expectedSeq expectedPrev = .ok c := by
  unfold checkLine
  rw [ok_bind (orReason_ok.mpr a.reads), ok_bind (orReason_ok.mpr (isPlainObject_ok.mpr rfl)),
    ok_bind (check_ok.mpr (decide_eq_true a.keys)), ok_bind (check_ok.mpr (decide_eq_true a.own)),
    ok_bind (orReason_ok.mpr (integerOf_ok.mpr ⟨a.seqValue, a.whole⟩)), ok_bind (check_ok.mpr a.expected),
    ok_bind (orReason_ok.mpr (stringOf_ok.mpr a.ts)),
    ok_bind (orReason_ok.mpr (Option.filter_eq_some_iff.mpr
      ⟨stringOf_ok.mpr a.event, decide_eq_true a.named⟩)),
    ok_bind (orReason_ok.mpr (Option.filter_eq_some_iff.mpr ⟨stringOf_ok.mpr a.prev, a.prevHex⟩)),
    ok_bind (check_ok.mpr (decide_eq_true rfl)),
    ok_bind (orReason_ok.mpr (Option.filter_eq_some_iff.mpr ⟨stringOf_ok.mpr a.hash, a.hashHex⟩)),
    ok_bind (orReason_ok.mpr (Option.bind_eq_some_iff.mpr ⟨_, a.fieldsValue, isPlainObject_ok.mpr rfl⟩)),
    ok_bind a.flat, ok_bind (check_ok.mpr (decide_eq_true a.hashed))]
  rfl

def writerKeys : List Text :=
  [js "seq", js "ts", js "event", js "prev", js "hash", js "fields"]

def clean : Primitive → Primitive
  | .number x => .number (plusZero x)
  | p => p

def cleanFields (fields : List (Text × Primitive)) : List (Text × Primitive) :=
  fields.map fun f => (f.1, clean f.2)

theorem value_injective {p q : Primitive} (same : p.value = q.value) : p = q := by
  cases p <;> cases q <;> simp_all [Primitive.value]

theorem reads_primitive (p : Primitive) : Reads (stringify p.value) (clean p).value := by
  cases p with
  | text s => exact reads_quoted s
  | flag b => exact reads_bool b
  | number x => exact reads_number x

theorem paired_primitive (p : Primitive) : paired (stringify p.value) = true := by
  cases p with
  | text s => exact paired_quoted s
  | flag b => cases b <;> rfl
  | number x => exact paired_number x

/-- Fields in some order, with the texts of their values. -/
def fieldTexts (fields : List (Text × Primitive)) : List (Text × Text) :=
  fields.map fun f => (f.1, stringify f.2.value)

theorem stringify_fields (fields : List (Text × Primitive)) :
    stringify (fieldsValue fields) = objectText (fieldTexts (ownOrder fields)) := by
  rw [fieldsValue, stringify, stringifyMembers_eq, map_map]
  have moved := ownOrder_map (fun p : Primitive => stringify p.value) fields
  exact congrArg objectText moved

theorem reads_fields (fields : List (Text × Primitive)) :
    Reads (objectText (fieldTexts fields))
      (.obj (gather ((cleanFields fields).map fun f => (f.1, f.2.value)))) := by
  have read := @reads_object
    (fields.map fun f => (f.1, stringify f.2.value, (clean f.2).value)) (by
      intro m mem
      obtain ⟨f, -, rfl⟩ := mem_map.mp mem
      exact reads_primitive f.2)
  rw [map_map, map_map] at read
  rw [cleanFields, map_map]
  exact read

theorem paired_fields (fields : List (Text × Primitive)) :
    paired (objectText (fieldTexts fields)) = true := by
  apply paired_object
  intro m mem
  obtain ⟨f, -, rfl⟩ := mem_map.mp mem
  exact paired_primitive f.2

theorem stringify_number (x : Finite) : stringify (.num (.finite x)) = numberText (.finite x) := by
  rw [stringify, isFinite, if_pos rfl]

/-- The six members in the writer's order, around the text of the fields. -/
def recordTexts (r : AuditRecord) : List (Text × Text) :=
  [(js "seq", numberText (.finite r.seq)), (js "ts", quoted r.ts), (js "event", quoted r.event),
    (js "prev", quoted r.prev), (js "hash", quoted r.hash),
    (js "fields", objectText (fieldTexts (ownOrder r.fields)))]

theorem stringify_record (r : AuditRecord) :
    stringify (.obj r.members) = objectText (recordTexts r) := by
  have texts : stringifyMembers r.members = recordTexts r := by
    rw [stringifyMembers_eq, AuditRecord.members]
    simp only [map_cons, map_nil, stringify_number, stringify_fields]
    rw [stringify, stringify, stringify, stringify]
    rfl
  have plain : ∀ m ∈ recordTexts r, isIndex m.1 = false := by
    intro m mem
    have name : m.1 ∈ writerKeys := mem_map_of_mem (f := Prod.fst) mem
    have none : ∀ key ∈ writerKeys, isIndex key = false := by decide
    exact none m.1 name
  rw [stringify, texts, ownOrder_of_names plain]

/-- What the text of a record parses to. -/
def recordMembers (r : AuditRecord) : List (Text × Value) :=
  [(js "seq", .num (.finite (plusZero r.seq))), (js "ts", .str r.ts), (js "event", .str r.event),
    (js "prev", .str r.prev), (js "hash", .str r.hash),
    (js "fields", .obj (gather ((cleanFields (ownOrder r.fields)).map fun f => (f.1, f.2.value))))]

theorem reads_record (r : AuditRecord) :
    Reads (objectText (recordTexts r)) (.obj (recordMembers r)) := by
  have read := @reads_object
    [(js "seq", numberText (.finite r.seq), .num (.finite (plusZero r.seq))),
      (js "ts", quoted r.ts, .str r.ts), (js "event", quoted r.event, .str r.event),
      (js "prev", quoted r.prev, .str r.prev), (js "hash", quoted r.hash, .str r.hash),
      (js "fields", objectText (fieldTexts (ownOrder r.fields)),
        .obj (gather ((cleanFields (ownOrder r.fields)).map fun f => (f.1, f.2.value))))] (by
      simp only [forall_mem_cons]
      exact ⟨reads_number _, reads_quoted _, reads_quoted _, reads_quoted _, reads_quoted _,
        reads_fields _, by simp⟩)
  have distinct : writerKeys.Nodup := by decide
  have whole : Reads (objectText (recordTexts r)) (.obj (gather (recordMembers r))) := read
  have gathered : gather (recordMembers r) = recordMembers r := gather_of_nodup distinct
  rwa [gathered] at whole

theorem paired_record (r : AuditRecord) : paired (objectText (recordTexts r)) = true := by
  apply paired_object
  simp only [recordTexts, forall_mem_cons]
  exact ⟨paired_number _, paired_quoted _, paired_quoted _, paired_quoted _, paired_quoted _,
    paired_fields _, by simp⟩

/-- The record that an accepted line decodes to. -/
def decoded (seq : Finite) (prev : Text) (c : CheckedLine) : AuditRecord :=
  ⟨seq, c.ts, c.event, prev, c.hash, c.fields⟩

/-- Valid UTF-8, the keys in the writer's order, and no field under the name of the setter. -/
def Written (line : List UInt8) : Prop :=
  toUtf8 (ofUtf8 line) = line ∧
    ∃ parsed, parse (ofUtf8 line) = some (.obj parsed) ∧ parsed.map Prod.fst = writerKeys ∧
      ∀ fields, Json.field parsed (js "fields") = some (.obj fields) →
        proto ∉ fields.map Prod.fst

theorem flatten_ok {flat : List (Text × Primitive)} (done : flatten members = .ok flat) :
    flat.map (fun f => (f.1, f.2.value)) = members.filter fun m => m.1 ≠ proto := by
  induction members generalizing flat with
  | nil =>
    obtain rfl := Except.ok.inj done
    rfl
  | cons m rest ih =>
    obtain ⟨key, v⟩ := m
    obtain ⟨p, primitive, done⟩ := bind_ok done
    obtain ⟨more, later, done⟩ := bind_ok done
    obtain rfl := Except.ok.inj done
    have value : p.value = v := by
      have found := orReason_ok.mp primitive
      unfold primitiveOf at found
      split at found
      · obtain rfl := Option.some.inj found
        rfl
      · obtain rfl := Option.some.inj found
        rfl
      · obtain rfl := Option.some.inj found
        rfl
      · cases found
    by_cases setter : key = proto
    · rw [if_pos setter, filter_cons_of_neg (by simp [setter])]
      exact ih later
    · rw [if_neg setter, filter_cons_of_pos (by simp [setter]), map_cons, ih later, value]

theorem numberText_same {m : Finite} (same : sameNumber m n = true) :
    numberText (.finite m) = numberText (.finite n) := by
  obtain ⟨negative, units, rounded, bounded⟩ := m
  obtain ⟨negative', units', rounded', bounded'⟩ := n
  simp only [sameNumber, Bool.and_eq_true, Bool.or_eq_true, decide_eq_true_eq] at same
  obtain ⟨rfl, sign⟩ := same
  rw [numberText, numberText]
  rcases sign with rfl | none
  · rfl
  · rw [if_pos none, if_pos none]

variable {line : List UInt8} {expectedSeq : Finite} {expectedPrev : Text} {c : CheckedLine}

theorem sortByName_map {γ : Type} (f : β → γ) (members : List (Text × β)) :
    sortByName (members.map fun m => (m.1, f m.2)) =
      (sortByName members).map fun m => (m.1, f m.2) :=
  (map_insertionSort (fun a b : Text × β => le a.1 b.1) (fun a b : Text × γ => le a.1 b.1)
    (fun m => (m.1, f m.2)) members (fun _ _ _ _ => Iff.rfl)).symm

theorem sortByName_perm (members : List (Text × β)) :
    (sortByName members).Perm members :=
  perm_insertionSort _ _

theorem canonicalMembers_eq (members : List (Text × Value)) :
    canonicalMembers members = members.map fun m => (m.1, canonical m.2) := by
  induction members with
  | nil => rfl
  | cons m rest ih => rw [canonicalMembers, ih]; rfl

theorem canonical_primitive (p : Primitive) : canonical p.value = stringify p.value := by
  cases p with
  | text s => rw [Primitive.value, canonical]
  | number x => rw [Primitive.value, canonical]
  | flag b => rw [Primitive.value, canonical]

theorem canonical_fields (fields : List (Text × Primitive)) :
    canonical (fieldsValue fields) = objectText (fieldTexts (sortByName fields)) := by
  have moved := sortByName_map (fun p : Primitive => stringify p.value) fields
  rw [fieldsValue, canonical, canonicalMembers_eq, map_map]
  simp only [Function.comp_def, canonical_primitive]
  exact congrArg objectText moved

section Body

variable (seq : Finite) (ts event prev : Text) (fields : List (Text × Primitive))

def bodyTexts : List (Text × Text) :=
  [(js "event", quoted event), (js "fields", objectText (fieldTexts (sortByName fields))),
    (js "prev", quoted prev), (js "seq", numberText (.finite seq)), (js "ts", quoted ts)]

theorem hashedText_eq :
    hashedText seq ts event prev fields =
      prev ++ 0x0A :: objectText (bodyTexts seq ts event prev fields) := by
  rw [hashedText, canonical, canonicalMembers_eq]
  simp only [map_cons, map_nil, canonical_fields]
  rw [canonical, canonical, canonical, canonical, stringify_number, stringify, stringify, stringify]
  rfl

/-- What the hashed object parses to. -/
def bodyMembers : List (Text × Value) :=
  [(js "event", .str event),
    (js "fields", .obj (gather ((cleanFields (sortByName fields)).map fun f => (f.1, f.2.value)))),
    (js "prev", .str prev), (js "seq", .num (.finite (plusZero seq))), (js "ts", .str ts)]

theorem reads_body :
    Reads (objectText (bodyTexts seq ts event prev fields))
      (.obj (bodyMembers seq ts event prev fields)) := by
  have read := @reads_object
    [(js "event", quoted event, .str event),
      (js "fields", objectText (fieldTexts (sortByName fields)),
        .obj (gather ((cleanFields (sortByName fields)).map fun f => (f.1, f.2.value)))),
      (js "prev", quoted prev, .str prev),
      (js "seq", numberText (.finite seq), .num (.finite (plusZero seq))),
      (js "ts", quoted ts, .str ts)] (by
      simp only [forall_mem_cons]
      exact ⟨reads_quoted _, reads_fields _, reads_quoted _, reads_number _, reads_quoted _,
        by simp⟩)
  have whole : Reads (objectText (bodyTexts seq ts event prev fields))
      (.obj (gather (bodyMembers seq ts event prev fields))) := read
  have names : [js "event", js "fields", js "prev", js "seq", js "ts"].Nodup := by decide
  have gathered : gather (bodyMembers seq ts event prev fields) =
      bodyMembers seq ts event prev fields := gather_of_nodup names
  rwa [gathered] at whole

theorem paired_body : paired (objectText (bodyTexts seq ts event prev fields)) = true := by
  apply paired_object
  simp only [bodyTexts, forall_mem_cons]
  exact ⟨paired_quoted _, paired_fields _, paired_quoted _, paired_number _, paired_quoted _,
    by simp⟩

end Body

theorem small_of_hex (hex : isHex64 t = true) : ∀ u ∈ t, u < 0x80 := by
  intro u mem
  simp only [isHex64, Bool.and_eq_true, all_eq_true] at hex
  have digit := hex.2 u mem
  simp only [Sha256.isHexDigit, isDigit, Bool.or_eq_true, Bool.and_eq_true, decide_eq_true_eq,
    UInt16.le_iff_toNat_le] at digit
  have nine : (0x39 : UInt16).toNat = 0x39 := rfl
  have f : (0x66 : UInt16).toNat = 0x66 := rfl
  rw [UInt16.lt_iff_toNat_lt]
  have limit : (0x80 : UInt16).toNat = 0x80 := rfl
  omega

theorem paired_hashed {ts event prev : Text} (hex : isHex64 prev = true) :
    paired (hashedText seq ts event prev fields) = true := by
  rw [hashedText_eq]
  exact paired_append (paired_of_small (small_of_hex hex))
    (paired_append (s := [0x0A]) rfl (paired_body seq ts event prev fields))

/-- The text that is hashed for a record. -/
def hashedOf (r : AuditRecord) : Text := hashedText r.seq r.ts r.event r.prev r.fields

/-- The same record but for the order of its fields; zero has one spelling. -/
structure SameRecord (r r' : AuditRecord) : Prop where
  seq : plusZero r.seq = plusZero r'.seq
  ts : r.ts = r'.ts
  event : r.event = r'.event
  prev : r.prev = r'.prev
  fields : (cleanFields r.fields).Perm (cleanFields r'.fields)

theorem names_cleanFields (fields : List (Text × Primitive)) :
    (cleanFields fields).map Prod.fst = fields.map Prod.fst := by
  rw [cleanFields, map_map]
  rfl

theorem gather_clean (distinct : (fields.map Prod.fst).Nodup) :
    gather ((cleanFields (sortByName fields)).map fun f => (f.1, f.2.value)) =
      (cleanFields (sortByName fields)).map fun f => (f.1, f.2.value) := by
  apply gather_of_nodup
  have names : ((cleanFields (sortByName fields)).map fun f => (f.1, f.2.value)).map Prod.fst =
      (sortByName fields).map Prod.fst := by
    rw [map_map, ← names_cleanFields]
    rfl
  rw [names]
  exact ((sortByName_perm fields).map Prod.fst).nodup_iff.mpr distinct

/-- Records of distinct field names with one hashed text are the same but for the order. -/
theorem sameRecord_of_hashed (distinct : (r.fields.map Prod.fst).Nodup)
    (distinct' : (r'.fields.map Prod.fst).Nodup) (hex : isHex64 r.prev = true)
    (hex' : isHex64 r'.prev = true) (same : hashedOf r = hashedOf r') : SameRecord r r' := by
  have width (t : Text) (h : isHex64 t = true) : t.length = 64 := by
    simp only [isHex64, Bool.and_eq_true, decide_eq_true_eq] at h
    exact h.1
  rw [hashedOf, hashedOf, hashedText_eq, hashedText_eq] at same
  obtain ⟨prevSame, rest⟩ := append_inj same ((width _ hex).trans (width _ hex').symm)
  have bodies := (List.cons.inj rest).2
  have left := parse_of_reads (reads_body r.seq r.ts r.event r.prev r.fields)
  have right := parse_of_reads (reads_body r'.seq r'.ts r'.event r'.prev r'.fields)
  rw [bodies, right] at left
  have members := Json.obj.inj (Option.some.inj left)
  simp only [bodyMembers, List.cons.injEq, Prod.mk.injEq, true_and, and_true, Json.str.injEq,
    Json.num.injEq, Number.finite.injEq, Json.obj.injEq, gather_clean distinct,
    gather_clean distinct'] at members
  obtain ⟨event, fields, -, seq, ts⟩ := members
  refine ⟨seq.symm, ts.symm, event.symm, prevSame, ?_⟩
  have injective : Function.Injective fun f : Text × Primitive => (f.1, f.2.value) := by
    intro f g eq
    obtain ⟨name, value⟩ := Prod.mk.inj eq
    exact Prod.ext name (value_injective value)
  have sorted := map_injective_iff.mpr injective fields
  have perm (l : List (Text × Primitive)) : (cleanFields (sortByName l)).Perm (cleanFields l) :=
    (sortByName_perm l).map _
  exact (perm r.fields).symm.trans (sorted ▸ perm r'.fields)

theorem mem_of_field {name : Text} (found : Json.field members name = some v) :
    ∃ m ∈ members, m.2 = v := by
  obtain ⟨m, held, same⟩ := Option.map_eq_some_iff.mp found
  exact ⟨m, mem_of_find?_eq_some held, same⟩

theorem distinct_fields (accepted : checkLine (ofUtf8 line) expectedSeq expectedPrev = .ok c) :
    (c.fields.map Prod.fst).Nodup := by
  obtain ⟨parsed, seq, fields, a⟩ := checkLine_ok accepted
  obtain ⟨m, mem, same⟩ := mem_of_field a.fieldsValue
  have distinct := (parse_distinct a.reads parsed rfl).2 m mem fields same
  have names : c.fields.map Prod.fst = ((ownOrder fields).filter fun m => m.1 ≠ proto).map Prod.fst := by
    rw [← flatten_ok a.flat, map_map]
    rfl
  rw [names]
  have ordered := ((ownOrder_perm fields).map Prod.fst).nodup_iff.mpr distinct
  exact ordered.sublist (filter_sublist.map _)

theorem hash_eq (accepted : checkLine (ofUtf8 line) expectedSeq expectedPrev = .ok c) :
    c.hash = sha256Hex (toUtf8 (hashedOf (decoded expectedSeq expectedPrev c))) := by
  obtain ⟨parsed, seq, fields, a⟩ := checkLine_ok accepted
  have text : hashedText seq c.ts c.event expectedPrev c.fields =
      hashedOf (decoded expectedSeq expectedPrev c) := by
    rw [hashedOf, hashedText_eq, hashedText_eq]
    simp only [bodyTexts, decoded, numberText_same a.expected]
  rw [← a.hashed, hashRecord, text]

theorem hex_prev (accepted : checkLine (ofUtf8 line) expectedSeq expectedPrev = .ok c) :
    isHex64 expectedPrev = true := by
  obtain ⟨parsed, seq, fields, a⟩ := checkLine_ok accepted
  exact a.prevHex

section Pair

variable {line' : List UInt8} {expectedSeq' : Finite} {expectedPrev' : Text} {c' : CheckedLine}

theorem sameRecord_of_hash (accepted : checkLine (ofUtf8 line) expectedSeq expectedPrev = .ok c)
    (accepted' : checkLine (ofUtf8 line') expectedSeq' expectedPrev' = .ok c')
    (texts : toUtf8 (hashedOf (decoded expectedSeq expectedPrev c)) =
      toUtf8 (hashedOf (decoded expectedSeq' expectedPrev' c'))) :
    SameRecord (decoded expectedSeq expectedPrev c) (decoded expectedSeq' expectedPrev' c') :=
  sameRecord_of_hashed (distinct_fields accepted) (distinct_fields accepted')
    (hex_prev accepted) (hex_prev accepted')
    (toUtf8_injective (paired_hashed (hex_prev accepted)) (paired_hashed (hex_prev accepted')) texts)

end Pair

theorem one_rounded : nearest JsNumber.one 1 = JsNumber.one := by
  have exact := @nearest_exact 1 fractionBits 1 (by decide) (by omega)
  rw [Nat.one_mul, Nat.mul_one] at exact
  exact exact

theorem one_bounded : JsNumber.one < limit := by
  have wide := exponentLimit_eq
  have fits : 1 < 2 ^ exponentLimit := Nat.one_lt_two_pow (by omega)
  rw [limit]
  exact lt_mul_of_one_lt_left one_pos fits

def first : Finite := ⟨false, JsNumber.one, one_rounded, one_bounded⟩

def genesis : Text := List.replicate 64 0x30

/-- The first record of a log, without fields. -/
def firstRecord : AuditRecord :=
  recordOf first (js "2026-01-01T00:00:00.000Z") (js "code_exchanged") genesis []

theorem plusZero_first : plusZero first = first := by
  have positive : first.units ≠ 0 := Nat.pos_iff_ne_zero.mp JsNumber.one_pos
  rw [plusZero, if_neg positive]

/-- The members of the first record with `ts` before `seq`. -/
def exchanged : List (Text × Value) :=
  (js "ts", .str firstRecord.ts) :: (js "seq", .num (.finite first)) :: firstRecord.members.drop 2

end Ultrathink.Guarantees.CanonicalLines
