/-
MessageSerializer.

Bytes are read twice: once as the header `Message`, whose `messageType` selects
a class, and once more as that class.  The two parsers read the same records off
the same bytes and keep the same occurrence of field 1, whatever they make of
the other fields.

* `fromBytes_eq_ok_iff` — what `fromBytes` returns, in terms of the records that are
  read off the bytes;
* `fromBytes_serializeToString` — a message that carries the tag of its class
  comes back from any of its encodings;
* `header_agrees` — on bytes that a class accepts, the header parse succeeds and
  selects by the same `messageType`;
* `fromBytes_whole_iff` — `fromBytes` drops the results of both parses, so that
  what it returns was decoded completely only on bytes that are well formed for
  the class they name.
-/
import Click.Message

open Proto

namespace Click

/-- `MessageSerializer::serializeToString`: the bytes it may return. -/
def serializeToString (message : Message) (out : Bytes) : Prop := message.SerializesToBytes out

/-- `MessageSerializer::sensorMessageFromIStream`, on a stream that holds `input`;
`past` is what lies behind it in the buffer it is read through. -/
def sensorMessageFromIStream (past input : Bytes) : Message :=
  ⟨.sensorMessage, (Protobuf.SensorMessage.schema.parseFromIstream past input).2⟩

/-- `MessageSerializer::handshakeMessageFromIStream`. -/
def handshakeMessageFromIStream (past input : Bytes) : Message :=
  ⟨.handshakeMessage, (Protobuf.HandshakeMessage.schema.parseFromIstream past input).2⟩

/-- The message the bytes are first parsed as. -/
def header (bytes : Bytes) : Protobuf.Message :=
  (Protobuf.Message.schema.parseFromString bytes).2

/-- `MessageSerializer::fromBytes`.  Neither parse is asked whether it
succeeded. -/
def fromBytes (bytes : Bytes) : Except Fault Message :=
  let pm := header bytes
  if pm.messageType = MessageType.HandshakeInitMessageType then
    .ok ⟨.handshakeInitMessage, (Protobuf.HandshakeInitMessage.schema.parseFromString bytes).2⟩
  else if pm.messageType = MessageType.ErrorMessageType then
    .ok ⟨.errorMessage, (Protobuf.ErrorMessage.schema.parseFromString bytes).2⟩
  else if pm.messageType = MessageType.ResetMessageType then
    .ok ⟨.resetMessage, (Protobuf.ResetMessage.schema.parseFromString bytes).2⟩
  else if pm.messageType = MessageType.SensorRequestMessageType then
    .ok ⟨.sensorRequestMessage, (Protobuf.SensorRequestMessage.schema.parseFromString bytes).2⟩
  else if pm.messageType = MessageType.HandshakeMessageType then
    .ok ⟨.handshakeMessage, (Protobuf.HandshakeMessage.schema.parseFromString bytes).2⟩
  else if pm.messageType = MessageType.ControlMessageType then
    .ok ⟨.controlMessage, (Protobuf.ControlMessage.schema.parseFromString bytes).2⟩
  else if pm.messageType = MessageType.SensorMessageType then
    .ok ⟨.sensorMessage, (Protobuf.SensorMessage.schema.parseFromString bytes).2⟩
  else .error (.runtimeError "Serializing not implemented for: ")

/-! ### The Python factory -/

namespace Pclick

/-- `MessageFactory._mdict`. -/
def mdict (t : MessageType) : Option MessageClass :=
  [ (MessageType.HandshakeInitMessageType, MessageClass.handshakeInitMessage),
    (MessageType.HandshakeMessageType, MessageClass.handshakeMessage),
    (MessageType.ControlMessageType, MessageClass.controlMessage),
    (MessageType.SensorMessageType, MessageClass.sensorMessage),
    (MessageType.ResetMessageType, MessageClass.resetMessage),
    (MessageType.ErrorMessageType, MessageClass.errorMessage),
    (MessageType.SensorRequestMessageType, MessageClass.sensorRequestMessage)].lookup t

/-- `MessageFactory._create_message`: a class with a version gets the current one. -/
def create_message : (c : MessageClass) → c.Content
  | .handshakeInitMessage =>
    { messageType := MessageType.HandshakeInitMessageType, version := CURRENT_VERSION }
  | .handshakeMessage =>
    { messageType := MessageType.HandshakeMessageType, version := CURRENT_VERSION }
  | .sensorRequestMessage => { messageType := MessageType.SensorRequestMessageType }
  | .controlMessage => { messageType := MessageType.ControlMessageType }
  | .sensorMessage => { messageType := MessageType.SensorMessageType }
  | .resetMessage => { messageType := MessageType.ResetMessageType }
  | .errorMessage => { messageType := MessageType.ErrorMessageType }

theorem mdict_tag (c : MessageClass) : mdict c.tag = some c := by
  cases c <;> rfl

theorem mdict_eq_some {t : MessageType} {c : MessageClass} (h : mdict t = some c) : t = c.tag := by
  obtain ⟨front, back, hlist, -⟩ := List.lookup_eq_some_iff.mp h
  have hmem : (t, c) ∈ front ++ (t, c) :: back := by simp
  rw [← hlist] at hmem
  simp only [List.mem_cons, Prod.mk.injEq, List.not_mem_nil, or_false] at hmem
  rcases hmem with ⟨rfl, rfl⟩ | ⟨rfl, rfl⟩ | ⟨rfl, rfl⟩ | ⟨rfl, rfl⟩ | ⟨rfl, rfl⟩ | ⟨rfl, rfl⟩ |
    ⟨rfl, rfl⟩ <;> rfl

theorem mdict_eq_none_iff {t : MessageType} :
    mdict t = none ↔ ∀ c : MessageClass, t ≠ c.tag := by
  constructor
  · rintro h c rfl
    exact absurd (h.symm.trans (mdict_tag c)) (by simp)
  · intro h
    cases hm : mdict t with
    | none => rfl
    | some c => exact absurd (mdict_eq_some hm) (h c)

/-- The factory sets the type it looked the class up by. -/
theorem create_message_tagged (c : MessageClass) :
    (⟨c, create_message c⟩ : Message).Tagged := by
  cases c <;> rfl

theorem utf8_create_message (c : MessageClass) : c.schema.Utf8 (create_message c) := by
  cases c <;> simp only [Schema.Utf8, MessageClass.schema, List.forall_mem_cons,
    Protobuf.HandshakeInitMessage.schema, Protobuf.HandshakeMessage.schema,
    Protobuf.SensorRequestMessage.schema, Protobuf.ControlMessage.schema,
    Protobuf.SensorMessage.schema, Protobuf.ResetMessage.schema, Protobuf.ErrorMessage.schema]
  · exact ⟨trivial, trivial, by simp⟩
  · exact ⟨trivial, trivial, trivial, FieldCodec.map_utf8_empty,
      fun _ h => absurd h (Option.not_mem_none _), by simp⟩
  · exact ⟨trivial, by simp⟩
  · exact ⟨trivial, FieldCodec.map_utf8_empty, by simp⟩
  · exact ⟨trivial, FieldCodec.map_utf8_empty, fun _ h => absurd h (Option.not_mem_none _),
      by simp⟩
  · exact ⟨trivial, by simp⟩
  · exact ⟨trivial, trivial, rfl, by simp⟩

end Pclick

/-! ### What the header says -/

/-- The header parser objects to no record. -/
theorem header_ok (d : ℕ) (r : Record) : Protobuf.Message.schema.Ok d r := by
  simp only [Schema.Ok, Protobuf.Message.schema, List.forall_mem_cons]
  exact ⟨enumField_ok 1 d r, enumField_ok 2 d r, by simp⟩

/-- The header keeps the last `messageType` among all records that are read, even if
its parse fails on what follows them. -/
theorem header_messageType (bytes : Bytes) :
    (header bytes).messageType = declaredType (records slop recursionLimit bytes).1 := by
  have hparse := Protobuf.Message.schema_lawful.get_parse (d := recursionLimit) List.mem_cons_self
    (enumField_ok 1 recursionLimit) slop bytes Protobuf.Message.schema.empty
  rw [Schema.accepted_eq_self fun r _ => header_ok recursionLimit r] at hparse
  rw [← scan_enumField_one recursionLimit]
  exact hparse

theorem header_parses_iff (bytes : Bytes) :
    (Protobuf.Message.schema.parseFromString bytes).1 = true ↔
      (records [] recursionLimit bytes).2 = true := by
  rw [Schema.parseFromString, Schema.parse_ok_iff Protobuf.Message.schema_lawful]
  exact and_iff_left fun r _ => header_ok recursionLimit r

theorem parses_iff (c : MessageClass) (bytes : Bytes) :
    (c.schema.parseFromString bytes).1 = true ↔ c.schema.WellFormed recursionLimit bytes :=
  Schema.parse_ok_iff c.schema_lawful slop bytes c.schema.empty

theorem fromBytes_of_tag {bytes : Bytes} {c : MessageClass}
    (h : (header bytes).messageType = c.tag) :
    fromBytes bytes = .ok ⟨c, (c.schema.parseFromString bytes).2⟩ := by
  simp only [fromBytes, h]
  cases c <;> rfl

theorem fromBytes_of_ne {bytes : Bytes} (h : ∀ c, (header bytes).messageType ≠ MessageClass.tag c) :
    fromBytes bytes = .error (.runtimeError "Serializing not implemented for: ") := by
  refine (if_neg (h .handshakeInitMessage)).trans ?_
  refine (if_neg (h .errorMessage)).trans ?_
  refine (if_neg (h .resetMessage)).trans ?_
  refine (if_neg (h .sensorRequestMessage)).trans ?_
  refine (if_neg (h .handshakeMessage)).trans ?_
  refine (if_neg (h .controlMessage)).trans ?_
  exact if_neg (h .sensorMessage)

/-- **What `fromBytes` returns**: an object of the class named by the records,
filled by a parse as that class. -/
theorem fromBytes_eq_ok_iff {bytes : Bytes} {m : Message} :
    fromBytes bytes = .ok m ↔
      declaredType (records slop recursionLimit bytes).1 = m.cls.tag ∧
        m = ⟨m.cls, (m.cls.schema.parseFromString bytes).2⟩ := by
  rw [← header_messageType]
  constructor
  · intro h
    by_cases hc : ∃ c, (header bytes).messageType = MessageClass.tag c
    · obtain ⟨c, hc⟩ := hc
      rw [fromBytes_of_tag hc, Except.ok.injEq] at h
      rw [← h]
      exact ⟨hc, rfl⟩
    · rw [fromBytes_of_ne (not_exists.mp hc)] at h
      exact absurd h (by simp)
  · rintro ⟨htag, hm⟩
    rw [fromBytes_of_tag htag, ← hm]

/-- A `messageType` that is cut off counts as 0. -/
example : fromBytes [8, 7, 8] = .ok ⟨.handshakeInitMessage, {}⟩ := by decide

/-- Here the cut leaves 9 of a longer number, which names no class. -/
example : fromBytes [8, 3, 8, 0x89] =
    .error (.runtimeError "Serializing not implemented for: ") := by decide

/-- `fromBytes` throws exactly where the records name no class. -/
theorem fromBytes_eq_error_iff {bytes : Bytes} :
    (∃ fault, fromBytes bytes = .error fault) ↔
      ∀ c : MessageClass, declaredType (records slop recursionLimit bytes).1 ≠ c.tag := by
  rw [← header_messageType]
  constructor
  · rintro ⟨fault, h⟩ c hc
    exact absurd (h.symm.trans (fromBytes_of_tag hc)) (by simp)
  · intro h
    exact ⟨_, fromBytes_of_ne h⟩

/-! ### Round trip -/

/-- The header of an encoding selects the class it was written from. -/
theorem header_serializes {m : Message} (htag : m.Tagged) (hu : m.cls.schema.Utf8 m.pm)
    {out : Bytes} (hs : m.cls.schema.Serializes m.pm out) (hlen : out.length ≤ maxSize) :
    (m.cls.schema.parseFromString out) = (true, m.pm) ∧
      declaredType (records slop recursionLimit out).1 = m.cls.tag := by
  have hlaw := m.cls.schema_lawful
  have hparse : m.cls.schema.parseFromString out = (true, m.pm) :=
    Schema.parse_serializes hlaw six_le_recursionLimit hu hs hlen slop
  -- a parse that succeeds has accepted all records, so it saw the same `messageType`
  have hwf : m.cls.schema.WellFormed recursionLimit out :=
    (parses_iff m.cls out).mp (congrArg Prod.fst hparse)
  have htype := m.cls.messageType_parse slop out
  rw [Schema.accepted_eq_self (hwf.ok slop)] at htype
  have hpm : m.cls.messageType (m.cls.schema.parseFromString out).2 = m.messageType := by
    rw [hparse]
    rfl
  exact ⟨hparse, htype.symm.trans (hpm.trans htag)⟩

/-- Up to 2 GiB the bytes are an encoding. -/
theorem serializeToString_iff {m : Message} {out : Bytes}
    (hmax : m.cls.schema.byteSize m.pm ≤ maxSize) :
    serializeToString m out ↔ m.cls.schema.Serializes m.pm out := by
  rw [serializeToString, Message.SerializesToBytes, Schema.SerializesAsString, if_pos hmax]

/-- Such an encoding is not too long to be read. -/
theorem serializes_of_serializeToString {m : Message} {out : Bytes}
    (hmax : m.cls.schema.byteSize m.pm ≤ maxSize) (hout : serializeToString m out) :
    m.cls.schema.Serializes m.pm out ∧ out.length ≤ maxSize := by
  have hs := (serializeToString_iff hmax).mp hout
  exact ⟨hs, (m.cls.schema_lawful.length_serializes hs).le.trans hmax⟩

/-- Every message has an encoding, above 2 GiB the empty one. -/
theorem exists_serializeToString (m : Message) : ∃ out, serializeToString m out := by
  by_cases hmax : m.cls.schema.byteSize m.pm ≤ maxSize
  · exact ⟨_, (serializeToString_iff hmax).mpr (m.cls.schema_lawful.serializes_serialize m.pm)⟩
  · refine ⟨[], ?_⟩
    rw [serializeToString, Message.SerializesToBytes, Schema.SerializesAsString, if_neg hmax]

theorem fromBytes_of_serializes {m : Message} (htag : m.Tagged) (hu : m.cls.schema.Utf8 m.pm)
    (hmax : m.cls.schema.byteSize m.pm ≤ maxSize) {out : Bytes} (hout : serializeToString m out) :
    fromBytes out = .ok m := by
  rw [serializeToString_iff hmax] at hout
  have hlen : out.length ≤ maxSize := (m.cls.schema_lawful.length_serializes hout).le.trans hmax
  obtain ⟨hparse, htype⟩ := header_serializes htag hu hout hlen
  rw [fromBytes_eq_ok_iff, hparse]
  exact ⟨htype, rfl⟩

/-- What is too large comes back as the message of no bytes. -/
theorem fromBytes_nil : fromBytes [] = .ok ⟨.handshakeInitMessage, {}⟩ := by
  decide

/-- A message of the same class that comes back is the one that was sent. -/
theorem eq_of_fromBytes {m m' : Message} (htag : m.Tagged) (hu : m.cls.schema.Utf8 m.pm)
    (hinit : m.cls ≠ .handshakeInitMessage) {out : Bytes} (hout : serializeToString m out)
    (h : fromBytes out = .ok m') (hcls : m'.cls = m.cls) : m' = m := by
  by_cases hmax : m.cls.schema.byteSize m.pm ≤ maxSize
  · exact Except.ok.inj (h.symm.trans (fromBytes_of_serializes htag hu hmax hout))
  · rw [serializeToString, Message.SerializesToBytes, Schema.SerializesAsString, if_neg hmax]
      at hout
    rw [hout, fromBytes_nil] at h
    rw [← Except.ok.inj h] at hcls
    exact absurd hcls.symm hinit

/-- **Round trip.**  A message that carries the tag of its class, whose strings
are valid UTF-8 and whose size is below 2 GiB can be serialized, and each of the
encodings the serializer may produce is read back as the same message. -/
theorem fromBytes_serializeToString (m : Message) (htag : m.messageType = m.cls.tag)
    (hu : m.cls.schema.Utf8 m.pm) (hsize : m.cls.schema.byteSize m.pm < 2 ^ 31) :
    (∃ out, serializeToString m out) ∧
      ∀ out, serializeToString m out → fromBytes out = .ok m := by
  have hmax : m.cls.schema.byteSize m.pm ≤ maxSize := Nat.le_sub_one_of_lt hsize
  exact ⟨exists_serializeToString m, fun out hout => fromBytes_of_serializes htag hu hmax hout⟩

theorem fromBytes_serializeToString_control :
    let m : Message := ⟨.controlMessage,
      { messageType := MessageType.ControlMessageType
        objects := (∅ : Map _).insert [114]
          { angles := [0, 1], controlEvents := (∅ : Map _).insert [103] true } }⟩
    (∃ out, serializeToString m out) ∧ ∀ out, serializeToString m out → fromBytes out = .ok m := by
  refine fromBytes_serializeToString _ rfl ?_ (by decide)
  have hobject : Protobuf.ControlMessage.Object.schema.Utf8
      { angles := [0, 1], controlEvents := (∅ : Map _).insert [103] true } := by
    simp only [Schema.Utf8, Protobuf.ControlMessage.Object.schema, List.forall_mem_cons]
    exact ⟨trivial, trivial, trivial,
      FieldCodec.map_utf8_insert FieldCodec.map_utf8_empty rfl trivial, trivial, by simp⟩
  simp only [Schema.Utf8, MessageClass.schema, Protobuf.ControlMessage.schema,
    List.forall_mem_cons]
  exact ⟨trivial, FieldCodec.map_utf8_insert FieldCodec.map_utf8_empty rfl hobject, by simp⟩

/-! ### The header and the class -/

/-- Header and class both read the last `messageType` among all records. -/
theorem header_of_wellFormed {c : MessageClass} {b : Bytes}
    (hwf : c.schema.WellFormed recursionLimit b) :
    (header b).messageType = c.messageType (c.schema.parseFromString b).2 := by
  have htype := c.messageType_parse slop b
  rw [Schema.accepted_eq_self (hwf.ok slop)] at htype
  rw [header_messageType, ← htype]
  rfl

/-- **Header dispatch agrees with the class.**  On bytes that class `c` parses
completely the header parse succeeds as well and yields the same `messageType`;
if that is the tag of `c`, `fromBytes` returns what `c` parses. -/
theorem header_agrees (c : MessageClass) (b : Bytes)
    (hb : (c.schema.parseFromString b).1 = true) :
    (Protobuf.Message.schema.parseFromString b).1 = true ∧
      (Protobuf.Message.schema.parseFromString b).2.messageType =
        c.messageType (c.schema.parseFromString b).2 ∧
      (c.messageType (c.schema.parseFromString b).2 = c.tag →
        fromBytes b = .ok ⟨c, (c.schema.parseFromString b).2⟩) := by
  have hwf : c.schema.WellFormed recursionLimit b := (parses_iff c b).mp hb
  exact ⟨(header_parses_iff b).mpr hwf.1, header_of_wellFormed hwf,
    fun htag => fromBytes_of_tag ((header_of_wellFormed hwf).trans htag)⟩

/-- Here the `messageType` comes after a map entry that the header takes for an
unknown field. -/
theorem header_agrees_control :
    let b : Bytes := [0x12, 3, 0x0a, 1, 0x72, 0x08, 2]
    (Protobuf.Message.schema.parseFromString b).1 = true ∧
      (Protobuf.Message.schema.parseFromString b).2.messageType =
        MessageType.ControlMessageType ∧
      fromBytes b = .ok
        ⟨.controlMessage, { messageType := 2, objects := (∅ : Map _).insert [0x72] {} }⟩ := by
  intro b
  have hparse : MessageClass.controlMessage.schema.parseFromString b =
      (true, { messageType := 2, objects := (∅ : Map _).insert [0x72] {} }) := by decide
  obtain ⟨hheader, htype, hret⟩ := header_agrees .controlMessage b (congrArg Prod.fst hparse)
  rw [hparse] at htype hret
  exact ⟨hheader, htype, hret rfl⟩

/-! ### Parses that fail -/

/-- **When `fromBytes` returns only what was decoded completely**: exactly when
the bytes are well formed for the class that the last `messageType` read off them
names, or it names none. -/
theorem fromBytes_whole_iff (b : Bytes) :
    (∀ m, fromBytes b = .ok m →
      (Protobuf.Message.schema.parseFromString b).1 = true ∧
        (m.cls.schema.parseFromString b).1 = true) ↔
    ∀ c : MessageClass, declaredType (records slop recursionLimit b).1 = c.tag →
      c.schema.WellFormed recursionLimit b := by
  constructor
  · intro h c htag
    have hret : fromBytes b = .ok ⟨c, (c.schema.parseFromString b).2⟩ :=
      fromBytes_eq_ok_iff.mpr ⟨htag, rfl⟩
    exact (parses_iff c b).mp (h _ hret).2
  · intro h m hm
    have hwf := h m.cls (fromBytes_eq_ok_iff.mp hm).1
    exact ⟨(header_parses_iff b).mpr hwf.1, (parses_iff m.cls b).mpr hwf⟩

/-- The second of two robots is cut off after its first byte of name. -/
theorem not_fromBytes_whole : ¬ ∀ b m, fromBytes b = .ok m →
    (Protobuf.Message.schema.parseFromString b).1 = true ∧
      (m.cls.schema.parseFromString b).1 = true := by
  intro h
  have hret : fromBytes [0x08, 2, 0x12, 3, 0x0a, 1, 0x61, 0x12, 3, 0x0a, 1] =
      .ok ⟨.controlMessage, { messageType := 2, objects := (∅ : Map _).insert [0x61] {} }⟩ := by
    decide
  exact absurd (h _ _ hret).1 (by decide)

end Click
