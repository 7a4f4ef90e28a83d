import Ultrathink.Source.Obs.Syslog

/-!
# Frames of the syslog transport

Over sends that come one at a time, with every write that is accepted in part, every drain, every link
that dies and every signal: what a connection accepted is whole frames and at most one that is cut off,
and a connection with a frame that is cut off is written no more.
-/

namespace Ultrathink.Guarantees.SyslogFrames

open List Library JsText JsonText JsonWrite OctetCounting
open Library.JsNumber (digits ofNat_eq_digits isDigit_of_mem_digits)
open Source.Obs.Syslog

theorem paired_list {items : List Text} (each : ∀ t ∈ items, paired t = true) :
    paired (arrayText items) = true :=
  paired_append (s := [0x5B]) rfl (paired_append (paired_join rfl each) rfl)

theorem paired_members {members : List (Text × Text)} (each : ∀ m ∈ members, paired m.2 = true) :
    paired (objectText (ownOrder members)) = true :=
  paired_object fun m mem => each m ((ownOrder_perm members).subset mem)

mutual

theorem paired_stringify : ∀ v : Value, paired (stringify v) = true
  | .null => by rw [stringify]; rfl
  | .bool true => by rw [stringify]; rfl
  | .bool false => by rw [stringify]; rfl
  | .num .nan => by rw [stringify]; rfl
  | .num (.infinity _) => by rw [stringify]; rfl
  | .num (.finite x) => by
    rw [stringify]
    exact paired_number x
  | .str s => by
    rw [stringify]
    exact paired_quoted s
  | .arr items => by
    rw [stringify]
    exact paired_list (paired_stringifyItems items)
  | .obj members => by
    rw [stringify]
    exact paired_members (paired_stringifyMembers members)

theorem paired_stringifyItems : ∀ items : List Value, ∀ t ∈ stringifyItems items, paired t = true
  | [], _, mem => nomatch mem
  | v :: rest, t, mem => by
    rw [stringifyItems] at mem
    rcases mem_cons.mp mem with rfl | later
    · exact paired_stringify v
    · exact paired_stringifyItems rest t later

theorem paired_stringifyMembers : ∀ members : List (Text × Value),
    ∀ m ∈ stringifyMembers members, paired m.2 = true
  | [], _, mem => nomatch mem
  | (_, v) :: rest, m, mem => by
    rw [stringifyMembers] at mem
    rcases mem_cons.mp mem with rfl | later
    · exact paired_stringify v
    · exact paired_stringifyMembers rest m later

end

/-- What is behind the blank that ends the `n`th field. -/
def behindFields : Nat → Text → Option Text
  | 0, t => some t
  | n + 1, t =>
    match t.dropWhile (· ≠ 0x20) with
    | [] => none
    | _ :: rest => behindFields n rest

def Graphic (t : Text) : Prop := ∀ u ∈ t, isGraphic u = true

variable {t rest : Text} {t' : Transport} {u : UInt16} {o : SyslogTransportOptions}
  {bytes : List UInt8} {envs : List SinkEnvelope} {frames : List (List UInt8)} {i : Nat}

theorem graphic_bounds (graphic : isGraphic u = true) : 0x21 ≤ u.toNat ∧ u.toNat ≤ 0x7E := by
  simp only [isGraphic, Bool.and_eq_true, decide_eq_true_eq, UInt16.le_iff_toNat_le] at graphic
  exact graphic

theorem graphic_digit (digit : isDigit u = true) : isGraphic u = true := by
  obtain ⟨low, high⟩ := digit_bounds digit
  simp only [isGraphic, Bool.and_eq_true, decide_eq_true_eq, UInt16.le_iff_toNat_le]
  exact ⟨le_trans (by decide) low, le_trans high (by decide)⟩

theorem paired_graphic (graphic : Graphic t) : paired t = true := by
  apply paired_of_small
  intro u mem
  rw [UInt16.lt_iff_toNat_lt]
  exact lt_of_le_of_lt (graphic_bounds (graphic u mem)).2 (by decide)

theorem dropWhile_graphic (graphic : Graphic t) (rest : Text) :
    (t ++ 0x20 :: rest).dropWhile (· ≠ 0x20) = 0x20 :: rest := by
  have none_ : ∀ u ∈ t, decide (u ≠ 0x20) = true := by
    intro u mem
    rw [decide_eq_true_eq]
    rintro rfl
    exact absurd (graphic _ mem) (by decide)
  rw [dropWhile_append_of_pos none_]
  rfl

theorem join_fields (field : Text) (fields : List Text) (last : Text) :
    join (js " ") (field :: fields ++ [last]) = field ++ 0x20 :: join (js " ") (fields ++ [last]) := by
  cases fields with
  | nil => exact append_assoc field (js " ") last
  | cons next fields => exact append_assoc field (js " ") _

theorem behindFields_join {fields : List Text} (graphic : ∀ field ∈ fields, Graphic field) (last : Text) :
    behindFields fields.length (join (js " ") (fields ++ [last])) = some last := by
  induction fields with
  | nil => rfl
  | cons field fields ih =>
    rw [join_fields, length_cons, behindFields, dropWhile_graphic (graphic field mem_cons_self)]
    exact ih fun f mem => graphic f (mem_cons_of_mem _ mem)

/-- `rest` is behind text without blanks. -/
def Leaves (t rest : Text) : Prop := ∃ field, Graphic field ∧ t = field ++ rest

theorem Leaves.trans {s : Text} (first : Leaves t s) (later : Leaves s rest) : Leaves t rest := by
  obtain ⟨field, graphic, rfl⟩ := first
  obtain ⟨next, graphicNext, rfl⟩ := later
  refine ⟨field ++ next, ?_, (append_assoc ..).symm⟩
  intro u mem
  rcases mem_append.mp mem with front | back
  · exact graphic u front
  · exact graphicNext u back

theorem leaves_refl (t : Text) : Leaves t t := ⟨[], nofun, rfl⟩

theorem graphic_of_leaves (leaves : Leaves t []) : Graphic t := by
  obtain ⟨field, graphic, rfl⟩ := leaves
  rwa [append_nil]

theorem leaves_digits {n : Nat} (found : afterDigits n t = some rest) : Leaves t rest := by
  unfold afterDigits at found
  split at found
  · next digits =>
    cases found
    exact ⟨t.take n, fun u mem => graphic_digit (all_eq_true.mp digits.2 u mem),
      (take_append_drop n t).symm⟩
  · cases found

theorem leaves_unit (graphic : isGraphic u = true) (found : afterUnit u t = some rest) :
    Leaves t rest := by
  unfold afterUnit at found
  split at found
  · next head =>
    cases found
    cases t with
    | nil => cases head
    | cons v t =>
      cases head
      exact ⟨[_], forall_mem_singleton.mpr graphic, rfl⟩
  · cases found

theorem leaves_fraction (found : afterFraction t = some rest) : Leaves t rest := by
  unfold afterFraction at found
  split at found
  · cases found
    exact leaves_refl t
  · next later point =>
    dsimp only at found
    split at found
    · cases found
      refine (leaves_unit (by decide) point).trans ⟨later.takeWhile isDigit, ?_, ?_⟩
      · exact fun u mem => graphic_digit (mem_takeWhile_imp mem)
      · exact (takeWhile_append_dropWhile).symm
    · cases found

theorem graphic_zone (zone : isZone t = true) : Graphic t := by
  rw [isZone, Bool.or_eq_true, decide_eq_true_eq, decide_eq_true_eq] at zone
  rcases zone with rfl | offset
  · exact forall_mem_singleton.mpr (by decide)
  · simp only [Option.bind_eq_some_iff, Option.or_eq_some_iff] at offset
    obtain ⟨hours, sign, colon, twoHours, minutes, sep, twoMinutes⟩ := offset
    have signed : Leaves t hours := by
      rcases sign with plus | ⟨-, minus⟩
      · exact leaves_unit (by decide) plus
      · exact leaves_unit (by decide) minus
    exact graphic_of_leaves (signed.trans ((leaves_digits twoHours).trans
      ((leaves_unit (by decide) sep).trans (leaves_digits twoMinutes))))

theorem graphic_rfc3339 (found : RFC3339_PATTERN t = true) : Graphic t := by
  rw [RFC3339_PATTERN, Option.any_eq_true] at found
  obtain ⟨zone, read, isZone⟩ := found
  simp only [Option.bind_eq_some_iff] at read
  obtain ⟨s1, year, s2, dash, s3, month, s4, dash', s5, day, s6, tee, s7, hours, s8, colon, s9, minutes, s10,
    colon', s11, seconds, fraction⟩ := read
  have front : Leaves t zone :=
    (leaves_digits year).trans <| (leaves_unit (by decide) dash).trans <| (leaves_digits month).trans <|
    (leaves_unit (by decide) dash').trans <| (leaves_digits day).trans <| (leaves_unit (by decide) tee).trans <|
    (leaves_digits hours).trans <| (leaves_unit (by decide) colon).trans <| (leaves_digits minutes).trans <|
    (leaves_unit (by decide) colon').trans <| (leaves_digits seconds).trans <| leaves_fraction fraction
  refine graphic_of_leaves (front.trans ⟨zone, graphic_zone isZone, (append_nil _).symm⟩)

theorem graphic_header {max : Nat} {value : Text} (field : isHeaderField max value = true) :
    Graphic value := by
  rw [isHeaderField, Bool.and_eq_true, all_eq_true] at field
  exact field.2

theorem graphic_fields (env : SinkEnvelope) (hostname : HOSTNAME_PATTERN o.hostname = true)
    (appName : APP_NAME_PATTERN o.appName = true) :
    ∀ field ∈ headerFields env o, Graphic field := by
  have pri : Graphic (js "<" ++ JsText.ofNat (PRI env.kind) ++ js ">1") := by
    cases env.kind with
    | audit => exact forall_units _ (by decide +kernel)
    | alert => exact forall_units _ (by decide +kernel)
    | security => exact forall_units _ (by decide +kernel)
  have nilGraphic : Graphic NIL := forall_mem_singleton.mpr (by decide)
  have timestamp : Graphic (if RFC3339_PATTERN env.at_ then env.at_ else NIL) := by
    split
    · next found => exact graphic_rfc3339 found
    · exact nilGraphic
  intro field mem
  simp only [headerFields, mem_cons, not_mem_nil, or_false] at mem
  rcases mem with rfl | rfl | rfl | rfl | rfl | rfl | rfl
  · exact pri
  · exact timestamp
  · exact graphic_header hostname
  · exact graphic_header appName
  · exact nilGraphic
  · exact nilGraphic
  · exact nilGraphic

/-- The messages of a stream, each behind its seven fields. -/
def receive (bytes : List UInt8) : Option (List Text) :=
  (decode bytes).bind fun messages => messages.mapM fun message => behindFields 7 (ofUtf8 message)

theorem toUtf8_decimal (n : Nat) : toUtf8 (JsText.ofNat n ++ js " ") = decimal n ++ [blank] := by
  rw [ofNat_eq_digits, toUtf8_append (paired_digits (isDigit_of_mem_digits n)), decimal]
  rfl

theorem paired_message {env : SinkEnvelope} (graphic : ∀ field ∈ headerFields env o, Graphic field)
    {json : Text} (whole : paired json = true) :
    paired (messageText env json o) = true := by
  refine paired_join rfl fun t mem => ?_
  rcases mem_append.mp mem with field | last
  · exact paired_graphic (graphic t field)
  · rwa [mem_singleton.mp last]

/-- A frame is the message behind its length, and a reader finds the envelope behind the seven fields. -/
theorem encode_frame {env : SinkEnvelope} (encoded : encodeSyslogFrame env o = some bytes) :
    ∃ message json, bytes = frame message ∧ message ≠ [] ∧ envelopeText env = some json ∧
      behindFields 7 (ofUtf8 message) = some json := by
  unfold encodeSyslogFrame at encoded
  split at encoded
  · next checked =>
    rw [Bool.and_eq_true] at checked
    obtain ⟨json, text, rfl⟩ := Option.map_eq_some_iff.mp encoded
    have graphic := graphic_fields env checked.1 checked.2
    have whole : paired json = true := by
      obtain ⟨body, -, rfl⟩ := Option.map_eq_some_iff.mp text
      exact paired_stringify _
    have read : behindFields 7 (ofUtf8 (toUtf8 (messageText env json o))) = some json := by
      rw [ofUtf8_toUtf8 (paired_message graphic whole)]
      exact behindFields_join graphic json
    refine ⟨toUtf8 (messageText env json o), json, ?_, ?_, text, read⟩
    · dsimp only
      rw [toUtf8_decimal, frame, append_assoc]
      rfl
    · intro none_
      rw [none_] at read
      cases read
  · cases encoded

variable {o : SyslogTransportOptions}

theorem receive_frames (encoded : (envs.mapM fun env => encodeSyslogFrame env o) = some frames) :
    ∃ texts, envs.mapM envelopeText = some texts ∧ receive frames.flatten = some texts := by
  suffices messages : ∃ (messages : List (List UInt8)) (texts : List Text), frames = messages.map frame ∧ (∀ m ∈ messages, m ≠ []) ∧
      envs.mapM envelopeText = some texts ∧
      (messages.mapM fun message => behindFields 7 (ofUtf8 message)) = some texts by
    obtain ⟨messages, texts, rfl, some_, json, read⟩ := messages
    refine ⟨texts, json, ?_⟩
    rw [receive, ← flatMap_def, decode_frames some_]
    exact read
  induction envs generalizing frames with
  | nil =>
    cases encoded
    exact ⟨[], [], rfl, nofun, rfl, rfl⟩
  | cons env envs ih =>
    rw [mapM_cons] at encoded
    obtain ⟨bytes, first, encoded⟩ := Option.bind_eq_some_iff.mp encoded
    obtain ⟨later, rest, encoded⟩ := Option.bind_eq_some_iff.mp encoded
    cases encoded
    obtain ⟨message, json, rfl, some_, text, read⟩ := encode_frame first
    obtain ⟨messages, texts, rfl, others, jsons, reads⟩ := ih rest
    refine ⟨message :: messages, json :: texts, rfl, forall_mem_cons.mpr ⟨some_, others⟩, ?_, ?_⟩
    · rw [mapM_cons, text, jsons]
      rfl
    · rw [mapM_cons, read, reads]
      rfl

variable (o) in
/-- Whole frames, one behind the other. -/
def Whole (bytes : List UInt8) : Prop :=
  ∃ (envs : List SinkEnvelope) (frames : List (List UInt8)),
    (envs.mapM fun env => encodeSyslogFrame env o) = some frames ∧ bytes = frames.flatten

variable (o) in
/-- Whole frames and at most one that is cut off behind them. -/
def Framed (bytes : List UInt8) : Prop :=
  ∃ before part, Whole o before ∧ bytes = before ++ part ∧
    (part = [] ∨ ∃ env bytes, encodeSyslogFrame env o = some bytes ∧ CutOff part bytes)

theorem whole_nil : Whole o [] := ⟨[], [], rfl, rfl⟩

theorem Whole.append {more : List UInt8} (first : Whole o bytes) (second : Whole o more) :
    Whole o (bytes ++ more) := by
  obtain ⟨envs, frames, encoded, rfl⟩ := first
  obtain ⟨envs', frames', encoded', rfl⟩ := second
  refine ⟨envs ++ envs', frames ++ frames', ?_, flatten_append.symm⟩
  rw [mapM_append, encoded, encoded']
  rfl

theorem Whole.framed (whole : Whole o bytes) : Framed o bytes :=
  ⟨bytes, [], whole, (append_nil _).symm, .inl rfl⟩

theorem mapM_take (encoded : (envs.mapM fun env => encodeSyslogFrame env o) = some frames)
    (n : Nat) :
    ((envs.take n).mapM fun env => encodeSyslogFrame env o) = some (frames.take n) ∧
      ∀ bytes ∈ frames, ∃ env, encodeSyslogFrame env o = some bytes := by
  induction envs generalizing frames n with
  | nil =>
    have none_ : frames = [] := (Option.some.inj encoded).symm
    subst none_
    exact ⟨by rw [take_nil, take_nil]; rfl, nofun⟩
  | cons env envs ih =>
    rw [mapM_cons] at encoded
    obtain ⟨bytes, first, encoded⟩ := Option.bind_eq_some_iff.mp encoded
    obtain ⟨later, rest, encoded⟩ := Option.bind_eq_some_iff.mp encoded
    cases encoded
    refine ⟨?_, forall_mem_cons.mpr ⟨⟨env, first⟩, (ih rest 0).2⟩⟩
    cases n with
    | zero => rfl
    | succ n =>
      rw [take_succ_cons, take_succ_cons, mapM_cons, first, (ih rest n).1]
      rfl

/-- Some of a payload behind whole frames is whole frames and at most one that is cut off. -/
theorem framed_of_prefix (encoded : (envs.mapM fun env => encodeSyslogFrame env o) = some frames)
    {before taken : List UInt8} (whole : Whole o before) (begins : taken <+: frames.flatten) :
    Framed o (before ++ taken) := by
  obtain ⟨n, part, rfl, kind⟩ := prefix_pieces begins
  refine ⟨before ++ (frames.take n).flatten, part,
    whole.append ⟨envs.take n, _, (mapM_take encoded n).1, rfl⟩, (append_assoc ..).symm, ?_⟩
  rcases kind with none_ | ⟨bytes, held, cut⟩
  · exact .inl none_
  · obtain ⟨env, made⟩ := (mapM_take encoded 0).2 bytes held
    exact .inr ⟨env, bytes, made, cut⟩

/-- What the connection `i` accepted. -/
def acceptedAt (t : Transport) (i : Nat) : List UInt8 := (t.connections[i]?).elim [] Connection.accepted

theorem acceptedAt_markDead (t : Transport) (i j : Nat) : acceptedAt (markDead t j) i = acceptedAt t i := by
  rw [acceptedAt, acceptedAt, markDead]
  dsimp only
  rw [getElem?_modify]
  cases t.connections[i]? with
  | none => rfl
  | some c =>
    rw [Option.map_eq_map, Option.map_some]
    split
    · rfl
    · rfl

theorem acceptedAt_accept {t : Transport} (held : i < t.connections.length) (bytes : List UInt8)
    (alive : Bool) (j : Nat) :
    acceptedAt (accept t i bytes alive) j = acceptedAt t j ++ if i = j then bytes else [] := by
  rw [acceptedAt, acceptedAt, accept]
  dsimp only
  rw [getElem?_modify]
  by_cases same : i = j
  · subst same
    rw [getElem?_eq_getElem held, if_pos rfl, Option.map_eq_map, Option.map_some, if_pos rfl]
    rfl
  · rw [if_neg same, append_nil]
    cases t.connections[j]? with
    | none => rfl
    | some c =>
      rw [Option.map_eq_map, Option.map_some, if_neg same]

theorem length_accept (t : Transport) (i : Nat) (bytes : List UInt8) (alive : Bool) :
    (accept t i bytes alive).connections.length = t.connections.length := length_modify _ _ _

/-- What became of a write of `left` on the connection `i`. -/
structure Wrote (i : Nat) (left : List UInt8) (t t' : Transport) (result : Option SendResult) : Prop where
  others : ∀ j, j ≠ i → acceptedAt t' j = acceptedAt t j
  taken : ∃ w, w <+: left ∧ acceptedAt t' i = acceptedAt t i ++ w
  whole : result = some .ok → acceptedAt t' i = acceptedAt t i ++ left
  held : t'.connections.length = t.connections.length
  kept : result = some .ok → t'.live = t.live
  dropped : result ≠ none → result ≠ some .ok → t'.live = none

theorem wrote_nothing (i : Nat) (left : List UInt8) (t : Transport) (retryable : Bool) (reason : Text) :
    Wrote i left t (dropLink t) (some (.failed retryable reason)) where
  others _ _ := rfl
  taken := ⟨[], nil_prefix, (append_nil _).symm⟩
  whole := nofun
  held := rfl
  kept := nofun
  dropped _ _ := rfl

theorem networkFailure_failed (aborted : Bool) (label : Text) :
    ∃ reason, networkFailure aborted label = .failed true reason := by
  cases aborted with
  | true => exact ⟨_, rfl⟩
  | false => exact ⟨_, rfl⟩

/-- A write that accepted the beginning of what was left, and what became of the rest of it. -/
theorem wrote_after {t : Transport} (held : i < t.connections.length) (count : Nat) (alive : Bool)
    {left : List UInt8} {result : Option SendResult}
    (later : Wrote i (left.drop count) (accept t i (left.take count) alive) t' result) :
    Wrote i left t t' result where
  others j other := by
    rw [later.others j other, acceptedAt_accept held, if_neg (Ne.symm other), append_nil]
  taken := by
    obtain ⟨w, begins, taken⟩ := later.taken
    refine ⟨left.take count ++ w, ?_, ?_⟩
    · conv_rhs => rw [← take_append_drop count left]
      exact (prefix_append_right_inj _).mpr begins
    · rw [taken, acceptedAt_accept held, if_pos rfl, append_assoc]
  whole ok := by
    rw [later.whole ok, acceptedAt_accept held, if_pos rfl, append_assoc, take_append_drop]
  held := by rw [later.held, length_accept]
  kept ok := later.kept ok
  dropped settled failed := later.dropped settled failed

theorem writeLoop_wrote (i : Nat) (turns : List Turn) (left : List UInt8) (t : Transport)
    (held : i < t.connections.length) :
    Wrote i left t (writeLoop i turns left t).1 (writeLoop i turns left t).2 := by
  induction turns generalizing left t with
  | nil =>
    exact {
      others := fun _ _ => rfl
      taken := ⟨[], nil_prefix, (append_nil _).symm⟩
      whole := nofun
      held := rfl
      kept := nofun
      dropped := fun settled => absurd rfl settled }
  | cons turn turns ih =>
    unfold writeLoop
    split
    · next aborted label wrote =>
      obtain ⟨reason, failed⟩ := networkFailure_failed aborted label
      rw [failed]
      exact wrote_nothing i left t true reason
    · exact wrote_nothing i left t true _
    · next count alive wrote =>
      apply wrote_after held count alive
      dsimp only
      split
      · exact wrote_nothing i _ _ true _
      split
      · next all =>
        rw [all]
        exact {
          others := fun _ _ => rfl
          taken := ⟨[], nil_prefix, (append_nil _).symm⟩
          whole := fun _ => (append_nil _).symm
          held := rfl
          kept := fun _ => rfl
          dropped := fun _ failed => absurd rfl failed }
      split
      · exact ih _ _ (by rwa [length_accept])
      · exact wrote_nothing i _ _ true _
      · exact wrote_nothing i _ _ true _

/-- Between sends: a link dies, or a send that came to its end. -/
inductive Step (o : SyslogTransportOptions) (t : Transport) : Transport → Prop where
  | died (i : Nat) : Step o t (markDead t i)
  | sent (call : Send) (t' : Transport) (result : SendResult) (ended : send o t call = (t', some result)) :
      Step o t t'

abbrev Run (o : SyslogTransportOptions) : Transport → Transport → Prop := Relation.ReflTransGen (Step o)

variable (o) in
/-- What holds of the transport when no send is under way. -/
structure Settled (t : Transport) : Prop where
  framed : ∀ i, Framed o (acceptedAt t i)
  live : ∀ i, t.live = some i → i < t.connections.length ∧ Whole o (acceptedAt t i)

theorem socketFor_settled {t : Transport} {connect : Connect} (settled : Settled o t)
    (found : socketFor t connect = .ok (t', i)) :
    Settled o t' ∧ t'.live = some i ∧ ∀ j, acceptedAt t' j = acceptedAt t j := by
  unfold socketFor at found
  split at found
  · next live =>
    cases found
    exact ⟨settled, (Option.filter_eq_some_iff.mp live).1, fun _ => rfl⟩
  · split at found
    · cases found
    · cases found
      have same : ∀ j, acceptedAt ⟨some t.connections.length, t.connections ++ [⟨[], true⟩]⟩ j =
          acceptedAt t j := by
        intro j
        rw [acceptedAt, acceptedAt]
        dsimp only
        by_cases old : j < t.connections.length
        · rw [getElem?_append_left old]
        · have none_ : t.connections[j]? = none := getElem?_eq_none (Nat.le_of_not_lt old)
          rw [none_, getElem?_append_right (Nat.le_of_not_lt old)]
          cases j - t.connections.length with
          | zero => rfl
          | succ n => rfl
      refine ⟨⟨fun j => ?_, fun j live => ?_⟩, rfl, same⟩
      · rw [same]
        exact settled.framed j
      · cases live
        have empty : acceptedAt t t.connections.length = [] := by
          rw [acceptedAt, getElem?_eq_none (Nat.le_refl _)]
          rfl
        rw [same, empty, length_append]
        exact ⟨Nat.lt_succ_self _, whole_nil⟩

/-- What one send does to a transport. -/
structure Sent (o : SyslogTransportOptions) (call : Send) (t t' : Transport)
    (result : Option SendResult) : Prop where
  framed : ∀ i, Framed o (acceptedAt t' i)
  untouched : ∀ i, ¬ Whole o (acceptedAt t i) → acceptedAt t' i = acceptedAt t i
  settled : result ≠ none → Settled o t'
  delivered : call.batch ≠ [] → result = some .ok → ∃ i frames,
    (call.batch.mapM fun env => encodeSyslogFrame env o) = some frames ∧ Whole o (acceptedAt t i) ∧
      acceptedAt t' i = acceptedAt t i ++ frames.flatten

theorem sent_nothing {call : Send} {t : Transport} (settled : Settled o t) (retryable : Bool)
    (reason : Text) : Sent o call t t (some (.failed retryable reason)) where
  framed := settled.framed
  untouched _ _ := rfl
  settled _ := settled
  delivered _ := nofun

theorem send_sent {t : Transport} (settled : Settled o t) (call : Send) :
    Sent o call t (send o t call).1 (send o t call).2 := by
  unfold send
  split
  · next none_ =>
    exact {
      framed := settled.framed
      untouched := fun _ _ => rfl
      settled := fun _ => settled
      delivered := fun some_ => absurd none_ some_ }
  split
  · exact sent_nothing settled true _
  split
  · exact sent_nothing settled false _
  next frames encoded =>
  split
  · next result found =>
    unfold socketFor at found
    split at found
    · cases found
    · split at found
      · next aborted label _ =>
        cases found
        obtain ⟨reason, failed⟩ := networkFailure_failed aborted label
        rw [failed]
        exact sent_nothing settled true reason
      · cases found
  next t₁ i found =>
  obtain ⟨ready, live, same⟩ := socketFor_settled settled found
  obtain ⟨held, whole⟩ := ready.live i live
  have wrote := writeLoop_wrote i call.turns frames.flatten t₁ held
  generalize (writeLoop i call.turns frames.flatten t₁).1 = t' at wrote ⊢
  generalize (writeLoop i call.turns frames.flatten t₁).2 = result at wrote ⊢
  have framed : ∀ j, Framed o (acceptedAt t' j) := by
    intro j
    by_cases other : j = i
    · obtain ⟨w, begins, taken⟩ := wrote.taken
      rw [other, taken]
      exact framed_of_prefix encoded whole begins
    · rw [wrote.others j other]
      exact ready.framed j
  refine ⟨framed, fun j cut => ?_, fun ended => ⟨framed, fun j kept => ?_⟩, fun _ ok => ?_⟩
  · by_cases other : j = i
    · rw [other, ← same] at cut
      exact absurd whole cut
    · rw [wrote.others j other, same]
  · by_cases ok : result = some .ok
    · rw [wrote.kept ok, live] at kept
      cases kept
      rw [wrote.held, wrote.whole ok]
      exact ⟨held, whole.append ⟨_, frames, encoded, rfl⟩⟩
    · rw [wrote.dropped ended ok] at kept
      cases kept
  · exact ⟨i, frames, encoded, same i ▸ whole, by rw [wrote.whole ok, same]⟩

theorem step_settled {t : Transport} (settled : Settled o t) (step : Step o t t') :
    Settled o t' ∧ ∀ i, ¬ Whole o (acceptedAt t i) → acceptedAt t' i = acceptedAt t i := by
  cases step with
  | died i =>
    refine ⟨⟨fun j => ?_, fun j live => ?_⟩, fun j _ => acceptedAt_markDead t j i⟩
    · rw [acceptedAt_markDead]
      exact settled.framed j
    · rw [acceptedAt_markDead, markDead, length_modify]
      exact settled.live j live
  | sent call _ result ended =>
    have sent := send_sent settled call
    rw [ended] at sent
    exact ⟨sent.settled (Option.some_ne_none _), sent.untouched⟩

theorem run_settled {t : Transport} (settled : Settled o t) (run : Run o t t') :
    Settled o t' ∧ ∀ i, ¬ Whole o (acceptedAt t i) → acceptedAt t' i = acceptedAt t i := by
  induction run with
  | refl => exact ⟨settled, fun _ _ => rfl⟩
  | tail _ step ih =>
    obtain ⟨next, untouched⟩ := step_settled ih.1 step
    refine ⟨next, fun i cut => ?_⟩
    have same := ih.2 i cut
    rw [untouched i (by rwa [same]), same]

theorem settled_created {start : Transport} (made : createSyslogTransport o = some start) :
    Settled o start := by
  unfold createSyslogTransport at made
  split at made
  · cases made
  split at made
  · cases made
  split at made
  · cases made
  · cases made
    exact ⟨fun _ => whole_nil.framed, nofun⟩

/-- After any sends and deaths of links, and during or after one more send: each connection accepted whole
frames and at most one that is cut off; one that was left with a frame cut off was written no more; a send
that is ok has all of its frames on one connection, behind whole frames; and a reader of whole frames gets
the JSON of their envelopes. -/
theorem streams_framed {start t u : Transport} (made : createSyslogTransport o = some start)
    (before : Run o start t) (after : Run o t u) (call : Send) :
    (∀ i, Framed o (acceptedAt (send o u call).1 i)) ∧
      (∀ i, ¬ Whole o (acceptedAt t i) → acceptedAt (send o u call).1 i = acceptedAt t i) ∧
      (call.batch ≠ [] → (send o u call).2 = some .ok → ∃ i frames,
        (call.batch.mapM fun env => encodeSyslogFrame env o) = some frames ∧ Whole o (acceptedAt u i) ∧
          acceptedAt (send o u call).1 i = acceptedAt u i ++ frames.flatten) ∧
      ∀ (envs : List SinkEnvelope) (frames : List (List UInt8)),
        (envs.mapM fun env => encodeSyslogFrame env o) = some frames →
          ∃ texts, envs.mapM envelopeText = some texts ∧ receive frames.flatten = some texts := by
  have reached := (run_settled (settled_created made) before).1
  obtain ⟨settled, untouched⟩ := run_settled reached after
  have sent := send_sent settled call
  refine ⟨sent.framed, fun i cut => ?_, sent.delivered, fun _ _ encoded => receive_frames encoded⟩
  have same := untouched i cut
  rw [sent.untouched i (by rwa [same]), same]

/-! A send that is accepted in part and then whole. -/

def receiverOptions : SyslogTransportOptions :=
  ⟨js "10.0.0.9", JsNumber.ofNat 601, js "gate", js "ultrathink"⟩

def auditEnvelope : SinkEnvelope := ⟨.audit, js "2026-11-20T02:00:00Z", some [(js "seq", .str (js "1"))]⟩

def sentInParts : Send :=
  ⟨[auditEnvelope], false, .opened, [⟨.accepted 9 true, .drained⟩, ⟨.accepted 4096 true, .drained⟩]⟩

theorem createSyslogTransport_receiver : createSyslogTransport receiverOptions = some ⟨none, []⟩ := by
  decide +kernel

theorem streams_framed_receiver :
    (send receiverOptions ⟨none, []⟩ sentInParts).2 = some .ok ∧
      ∀ i, Framed receiverOptions (acceptedAt (send receiverOptions ⟨none, []⟩ sentInParts).1 i) :=
  ⟨by decide +kernel, (streams_framed createSyslogTransport_receiver .refl .refl sentInParts).1⟩

end Ultrathink.Guarantees.SyslogFrames
