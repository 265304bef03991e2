/-
What is read off bytes that are not whole, not well formed or not the class's own.

The C++ serializer looks at the result of neither of its two parses, and the readers of
streams look at no header.

* `messageType_survives` — an encoding tells its `messageType` to every reader;
* `MessageClass.utf8_of_wellFormed` — what well-formed bytes are read as has valid strings;
* `reads_declared` — fields that the class does not declare change nothing.
-/
import Click.MessageSerializer

open Proto

namespace Click

/-! ### Encodings read as another class -/

namespace MessageClass

theorem ok_of_num_one (c : MessageClass) {d : ℕ} {r : Record} (hr : r.num ∈ [1]) :
    c.schema.Ok d r := by
  have hok := enumField_ok 1 d r
  cases c with
  | handshakeInitMessage =>
    exact Protobuf.HandshakeInitMessage.schema_lawful.ok_of_num List.mem_cons_self hr hok
  | handshakeMessage =>
    exact Protobuf.HandshakeMessage.schema_lawful.ok_of_num List.mem_cons_self hr hok
  | sensorRequestMessage =>
    exact Protobuf.SensorRequestMessage.schema_lawful.ok_of_num List.mem_cons_self hr hok
  | controlMessage =>
    exact Protobuf.ControlMessage.schema_lawful.ok_of_num List.mem_cons_self hr hok
  | sensorMessage =>
    exact Protobuf.SensorMessage.schema_lawful.ok_of_num List.mem_cons_self hr hok
  | resetMessage =>
    exact Protobuf.ResetMessage.schema_lawful.ok_of_num List.mem_cons_self hr hok
  | errorMessage =>
    exact Protobuf.ErrorMessage.schema_lawful.ok_of_num List.mem_cons_self hr hok

/-- Whichever class accepts the records of an encoding, `messageType` is among them. -/
theorem declaredType_of_serializes {c : MessageClass} {pm : c.Content} {out : Bytes}
    (hs : c.schema.Serializes pm out) (hlen : out.length ≤ maxSize) {M : Type} {S : Schema M}
    (hok : ∀ r : Record, r.num ∈ [1] → S.Ok recursionLimit r) (past : Bytes) :
    declaredType (S.accepted recursionLimit (records past recursionLimit out).1) =
      c.messageType pm := by
  rw [← scan_enumField_one recursionLimit]
  have hd := six_le_recursionLimit
  have hlaw := c.schema_lawful
  cases c <;> exact hlaw.scan_accepted_head hd rfl trivial hs hlen hok past

/-- The header sees the `messageType` that was written. -/
theorem declaredType_of_encoding {c : MessageClass} {pm : c.Content} {out : Bytes}
    (hs : c.schema.Serializes pm out) (hlen : out.length ≤ maxSize) (past : Bytes) :
    declaredType (records past recursionLimit out).1 = c.messageType pm := by
  have hdeclared := declaredType_of_serializes hs hlen (S := Protobuf.Message.schema)
    (fun r _ => header_ok recursionLimit r) past
  rwa [Schema.accepted_eq_self fun r _ => header_ok recursionLimit r] at hdeclared

end MessageClass

/-- **An encoding says what was written, whatever it is read as.**  No string has to be
valid UTF-8: the readers that look at no header report the `messageType` of the message
that was written, and `fromBytes` makes a message of the class it names, or throws where
it names none. -/
theorem messageType_survives (m : Message) (hsize : m.cls.schema.byteSize m.pm ≤ maxSize)
    {out : Bytes} (hout : serializeToString m out) :
    (∀ past, (sensorMessageFromIStream past out).messageType = m.messageType) ∧
      (∀ past, (handshakeMessageFromIStream past out).messageType = m.messageType) ∧
      (∀ m', fromBytes out = .ok m' → m'.Tagged ∧ m'.messageType = m.messageType) ∧
      ((∃ fault, fromBytes out = .error fault) ↔ ∀ c : MessageClass, m.messageType ≠ c.tag) := by
  obtain ⟨hs, hlen⟩ := serializes_of_serializeToString hsize hout
  have hread : ∀ (c : MessageClass) (past : Bytes),
      c.messageType (c.schema.parseFromIstream past out).2 = m.messageType := fun c past =>
    (c.messageType_parse past out).trans
      (MessageClass.declaredType_of_serializes hs hlen (fun _ hr => c.ok_of_num_one hr) past)
  have hdeclared : declaredType (records slop recursionLimit out).1 = m.messageType :=
    MessageClass.declaredType_of_encoding hs hlen slop
  refine ⟨hread .sensorMessage, hread .handshakeMessage, fun m' h => ?_, ?_⟩
  · obtain ⟨htag, hm'⟩ := fromBytes_eq_ok_iff.mp h
    have htype : m'.messageType = m.messageType := by
      rw [hm']
      exact hread m'.cls slop
    exact ⟨htype.trans (hdeclared.symm.trans htag), htype⟩
  · rw [fromBytes_eq_error_iff, hdeclared]

/-- An ErrorMessage whose text is no UTF-8. -/
theorem messageType_survives_error :
    (sensorMessageFromIStream [] [8, 5, 26, 1, 255]).messageType = MessageType.ErrorMessageType ∧
      ∀ m', fromBytes [8, 5, 26, 1, 255] = .ok m' → m'.Tagged := by
  have hsize : Protobuf.ErrorMessage.schema.byteSize
      { messageType := 5, errormessage := [255] } ≤ maxSize := by decide
  have h := messageType_survives ⟨.errorMessage, { messageType := 5, errormessage := [255] }⟩ hsize
    ((serializeToString_iff (m := ⟨.errorMessage, _⟩) hsize).mpr
      (Protobuf.ErrorMessage.schema_lawful.serializes_serialize _))
  exact ⟨h.1 [], fun m' hm' => (h.2.2.1 m' hm').1⟩

/-! ### What is accepted -/

namespace MessageClass

theorem schema_checks (c : MessageClass) : c.schema.Checks := by
  cases c with
  | handshakeInitMessage =>
    exact List.forall_mem_cons.mpr ⟨Protobuf.enumField_checks,
      List.forall_mem_singleton.mpr Protobuf.enumField_checks⟩
  | handshakeMessage => exact Protobuf.HandshakeMessage.schema_checks
  | sensorRequestMessage => exact List.forall_mem_singleton.mpr Protobuf.enumField_checks
  | controlMessage => exact Protobuf.ControlMessage.schema_checks
  | sensorMessage => exact Protobuf.SensorMessage.schema_checks
  | resetMessage => exact List.forall_mem_singleton.mpr Protobuf.enumField_checks
  | errorMessage =>
    exact List.forall_mem_cons.mpr ⟨Protobuf.enumField_checks,
      List.forall_mem_cons.mpr ⟨Protobuf.enumField_checks,
        List.forall_mem_singleton.mpr (FieldCodec.singular_checks ValueCodec.string_checks)⟩⟩

/-- What well-formed bytes are read as has valid strings. -/
theorem utf8_of_wellFormed {c : MessageClass} {b : Bytes}
    (h : c.schema.WellFormed recursionLimit b) (past : Bytes) :
    c.schema.Utf8 (c.schema.parseFromIstream past b).2 :=
  Schema.utf8_parse c.schema_lawful c.schema_checks
    (Schema.utf8_empty c.schema_lawful c.schema_checks)
    (Prod.ext ((Schema.parse_ok_iff c.schema_lawful past b c.schema.empty).mpr h) rfl)

end MessageClass

/-! ### Fields that the class does not declare -/

/-- `messageType` is among the declared fields of each class. -/
theorem MessageClass.one_mem_nums (c : MessageClass) : 1 ∈ c.schema.nums := by
  cases c <;> decide

theorem MessageClass.declaredType_declared (c : MessageClass) (rs : List Record) :
    declaredType (c.schema.declared rs) = declaredType rs := by
  rw [declaredType, Schema.declared, List.foldl_filter, declaredType]
  congr 1
  funext t r
  by_cases hr : r.num ∈ c.schema.nums
  · rw [if_pos (by simpa using hr)]
  · rw [if_neg (by simpa using hr)]
    split
    · exact absurd c.one_mem_nums hr
    · rfl

/-- **Only what the class declares is read.**  To bytes that are well formed for a class
records may be added that no field of the class takes, at the top level and wherever they
stand among the others: the bytes are still well formed for it, and read as the same
message. -/
theorem reads_declared {b b' : Bytes} (m : Message)
    (hb : m.cls.schema.WellFormed recursionLimit b)
    (hb' : (records [] recursionLimit b').2 = true)
    (hdeclared : m.cls.schema.declared (records [] recursionLimit b).1 =
      m.cls.schema.declared (records [] recursionLimit b').1) :
    m.cls.schema.WellFormed recursionLimit b' ∧ (fromBytes b = .ok m ↔ fromBytes b' = .ok m) := by
  have hlaw := m.cls.schema_lawful
  refine ⟨⟨hb', fun r hr => ?_⟩, ?_⟩
  · by_cases hnum : r.num ∈ m.cls.schema.nums
    · have hmem : r ∈ m.cls.schema.declared (records [] recursionLimit b').1 :=
        List.mem_filter.mpr ⟨hr, by simpa using hnum⟩
      rw [← hdeclared] at hmem
      exact hb.2 r (List.mem_of_mem_filter hmem)
    · exact hlaw.ok_of_undeclared hnum
  · have heq := hb.records_eq slop
    have heq' := records_eq_of_whole slop hb'
    rw [← heq, ← heq'] at hdeclared
    have hparse : m.cls.schema.parseFromString b = m.cls.schema.parseFromString b' :=
      hlaw.parse_eq_of_declared (by rw [heq, heq', hb.1, hb']) hdeclared m.cls.schema.empty
    have htype : declaredType (records slop recursionLimit b).1 =
        declaredType (records slop recursionLimit b').1 := by
      rw [← m.cls.declaredType_declared, hdeclared, m.cls.declaredType_declared]
    rw [fromBytes_eq_ok_iff, fromBytes_eq_ok_iff, htype, hparse]

/-- A ResetMessage to which a string of number 15 was added. -/
theorem reads_declared_reset :
    let m : Message := ⟨.resetMessage, { messageType := 4 }⟩
    fromBytes [8, 4] = .ok m ↔ fromBytes [122, 1, 255, 8, 4] = .ok m :=
  (reads_declared ⟨.resetMessage, { messageType := 4 }⟩
    ((parses_iff .resetMessage [8, 4]).mp (by decide)) (by decide) (by decide)).2

end Click
