/-
Encodings that are cut short.

`fromBytes` and the readers of streams look at no result of a parse, so they make a
message of an encoding of which the end is missing.  What is left of the field in which
the cut lies may be anything; but `messageType` is written first, and a cut behind it
leaves it alone.

* `declaredType_cut` — what is read of a cut encoding declares the `messageType` that was
  written, or none;
* `cut_short` — so the cut goes unnoticed, and the message carries the tag of its class.
-/
import Click.Decoding
import Click.Proto.CutShort

open Proto

namespace Click

/-! ### messageType among some records -/

theorem foldl_declaredType {rs : List Record} (h : ∀ r ∈ rs, r.num ≠ 1) (t : MessageType) :
    rs.foldl (fun t r =>
      match r with
      | ⟨1, .varint v⟩ => v.setWidth 32
      | _ => t) t = t := by
  induction rs generalizing t with
  | nil => rfl
  | cons r rs ih =>
    obtain ⟨hr, hrs⟩ := List.forall_mem_cons.mp h
    rw [List.foldl_cons, ih hrs]
    split
    · exact absurd rfl hr
    · rfl

theorem declaredType_of_num {rs : List Record} (h : ∀ r ∈ rs, r.num ≠ 1) : declaredType rs = 0 :=
  foldl_declaredType h 0

theorem declaredType_cons {rs : List Record} (h : ∀ r ∈ rs, r.num ≠ 1) (v : BitVec 64) :
    declaredType (⟨1, .varint v⟩ :: rs) = v.setWidth 32 :=
  foldl_declaredType h (v.setWidth 32)

namespace MessageClass

/-- The tag of a class fits in one byte. -/
def messageTypeRecord (c : MessageClass) : Record := ⟨1, .varint (c.tag.signExtend 64)⟩

theorem encode_messageTypeRecord (c : MessageClass) :
    c.messageTypeRecord.encode = [8, UInt8.ofNat c.tag.toNat] := by
  cases c <;> rfl

theorem num_lt_of_mem_nums (c : MessageClass) : ∀ n ∈ c.schema.nums, n < 16 := by
  cases c <;> decide

/-- `messageType` is written first, if it is not the default. -/
theorem exists_rest_of_writes {m : Message} (htag : m.Tagged) {rs : List Record}
    (hw : m.cls.schema.Writes m.pm rs) :
    ∃ rest, (∀ r ∈ rest, r.num ≠ 1) ∧
      rs = (if m.cls.tag = 0 then [] else [m.cls.messageTypeRecord]) ++ rest := by
  obtain ⟨c, pm⟩ := m
  have hlaw := c.schema_lawful
  have hhead : ∃ ps rest, rs = ps ++ rest ∧
      (Protobuf.enumField 1).Writes (c.messageType pm) ps ∧ ∀ r ∈ rest, r.num ∉ [1] := by
    cases c <;> exact hlaw.exists_head rfl hw
  obtain ⟨ps, rest, rfl, hp, hrest⟩ := hhead
  refine ⟨rest, fun r hr => by simpa using hrest r hr, congrArg (· ++ rest) ?_⟩
  rw [show c.messageType pm = c.tag from htag] at hp
  by_cases hzero : c.tag = 0
  · rw [if_pos hzero]
    exact (if_pos hzero).mp hp
  · rw [if_neg hzero]
    obtain ⟨p, rfl, hps⟩ := (if_neg hzero).mp hp
    exact hps

end MessageClass

/-! ### A cut encoding -/

section Cut

variable {m : Message} {out b : Bytes} (htag : m.Tagged)
  (hsize : m.cls.schema.byteSize m.pm ≤ maxSize) (hout : serializeToString m out) (hb : b <+: out)

include htag hsize hout hb in
/-- **What is read of a cut encoding declares the `messageType` that was written**,
whichever class accepts it, unless the cut is within the field itself. -/
theorem declaredType_cut (hlen : m.cls.tag = 0 ∨ 2 ≤ b.length) {M : Type} {S : Schema M}
    (hok : ∀ r : Record, r.num ∈ [1] → S.Ok recursionLimit r) (past : Bytes) :
    declaredType (S.accepted recursionLimit (records past recursionLimit b).1) = m.cls.tag := by
  obtain ⟨⟨rs, hw, rfl⟩, hmax⟩ := serializes_of_serializeToString hsize hout
  have hfit := m.cls.schema_lawful.fits_of_writes hw hmax
  have htags : ∀ r ∈ rs, r.num < 16 := fun r hr =>
    m.cls.num_lt_of_mem_nums _ (m.cls.schema_lawful.mem_nums hw r hr)
  obtain ⟨rest, hrest, rfl⟩ := MessageClass.exists_rest_of_writes htag hw
  obtain ⟨hfit₁, hfit⟩ := List.forall_mem_append.mp hfit
  have htags := (List.forall_mem_append.mp htags).2
  -- what follows the field is of other numbers, also where it is cut
  have hother : ∀ {b : Bytes}, b <+: encodeRecords rest →
      ∀ r ∈ S.accepted recursionLimit (records past recursionLimit b).1, r.num ≠ 1 := by
    intro b hb r' hr'
    obtain ⟨r, hr, hnum⟩ := exists_num_of_cut hfit htags hb past recursionLimit r'
      ((List.takeWhile_sublist _).subset hr')
    rw [hnum]
    exact hrest r hr
  by_cases hzero : m.cls.tag = 0
  · rw [if_pos hzero, List.nil_append] at hb
    rw [declaredType_of_num (hother hb), hzero]
  · rw [if_neg hzero, List.singleton_append, encodeRecords_cons] at hb
    rw [if_neg hzero, List.forall_mem_singleton] at hfit₁
    have hwhole : m.cls.messageTypeRecord.encode <+: b := by
      refine List.prefix_of_prefix_length_le (List.prefix_append _ _) hb ?_
      rw [MessageClass.encode_messageTypeRecord]
      exact hlen.resolve_left hzero
    obtain ⟨b, rfl⟩ := hwhole
    rw [List.prefix_append_right_inj] at hb
    rw [records_of_some (readRecord_encode hfit₁ recursionLimit b), Schema.accepted,
      List.takeWhile_cons_of_pos (by simpa using hok _ List.mem_cons_self)]
    refine (declaredType_cons (hother hb) _).trans ?_
    cases m.cls <;> rfl

include htag hsize hout hb in
/-- A cut within the field leaves its tag at most. -/
theorem eq_of_cut (hzero : m.cls.tag ≠ 0) (hshort : b.length < 2) : b = [] ∨ b = [8] := by
  obtain ⟨⟨rs, hw, rfl⟩, -⟩ := serializes_of_serializeToString hsize hout
  obtain ⟨rest, -, rfl⟩ := MessageClass.exists_rest_of_writes htag hw
  rw [if_neg hzero, List.singleton_append, encodeRecords_cons,
    MessageClass.encode_messageTypeRecord] at hb
  rcases b with _ | ⟨x, b⟩
  · exact .inl rfl
  · obtain rfl : b = [] := List.length_eq_zero_iff.mp (by rw [List.length_cons] at hshort; omega)
    exact .inr (congrArg ([·]) (List.cons_prefix_cons.mp hb).1)

include htag hsize hout hb in
/-- **A cut goes unnoticed.**  However much of its end an encoding has lost, `fromBytes`
returns a message of it that carries the tag of its class: a HandshakeInitMessage if not
even two bytes are left, and one of the class that was sent otherwise.  The readers of
streams return one that says it is what was sent. -/
theorem cut_short :
    (∃ m', fromBytes b = .ok m' ∧ m'.Tagged ∧
      m'.cls = if b.length < 2 then .handshakeInitMessage else m.cls) ∧
      (2 ≤ b.length → ∀ past,
        (sensorMessageFromIStream past b).messageType = m.messageType ∧
          (handshakeMessageFromIStream past b).messageType = m.messageType) := by
  have hheader := fun hlen => declaredType_cut htag hsize hout hb hlen
    (S := Protobuf.Message.schema) (fun r _ => header_ok recursionLimit r) slop
  simp only [Schema.accepted_eq_self fun r _ => header_ok recursionLimit r] at hheader
  have hclass := fun hlen (c : MessageClass) past => (c.messageType_parse past b).trans
    (declaredType_cut htag hsize hout hb hlen (fun _ hr => c.ok_of_num_one hr) past)
  refine ⟨?_, fun hlen past => ?_⟩
  · by_cases hlen : m.cls.tag = 0 ∨ 2 ≤ b.length
    · refine ⟨⟨m.cls, (m.cls.schema.parseFromString b).2⟩,
        fromBytes_eq_ok_iff.mpr ⟨hheader hlen, rfl⟩, hclass hlen m.cls slop, ?_⟩
      split
      · next hshort =>
        exact MessageClass.tag_injective (hlen.resolve_right (Nat.not_le_of_lt hshort))
      · rfl
    · obtain ⟨hzero, hshort⟩ := not_or.mp hlen
      rw [Nat.not_le] at hshort
      have hret : fromBytes b = .ok ⟨.handshakeInitMessage, {}⟩ := by
        rcases eq_of_cut htag hsize hout hb hzero hshort with rfl | rfl <;> decide
      exact ⟨_, hret, rfl, (if_pos hshort).symm⟩
  · exact ⟨(hclass (.inr hlen) .sensorMessage past).trans htag.symm,
      (hclass (.inr hlen) .handshakeMessage past).trans htag.symm⟩

end Cut

/-- A ControlMessage that is cut within its object. -/
theorem cut_short_control : ∃ m', fromBytes [8, 2, 18, 23, 10, 1, 114] = .ok m' ∧ m'.Tagged ∧
    m'.cls = .controlMessage := by
  let m : Message := ⟨.controlMessage,
    { messageType := 2, objects := (∅ : Map _).insert [114] { angles := [0, 1] } }⟩
  have hsize : m.cls.schema.byteSize m.pm ≤ maxSize := by decide
  exact (cut_short (m := m) rfl hsize
    ((serializeToString_iff hsize).mpr (m.cls.schema_lawful.serializes_serialize m.pm))
    (by decide : [8, 2, 18, 23, 10, 1, 114] <+: m.cls.schema.serialize m.pm)).1

end Click
