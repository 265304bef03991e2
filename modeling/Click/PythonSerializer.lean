/-
The Python serializer.

`from_bytes` decodes twice, as `fromBytes` does, and raises where a parse fails.  The
parses are those of the protobuf runtime for Python, which is not part of the repository
(`pyproject.toml` asks for version 4.21.12).  So it is a parameter.  It reads encodings
back as proto3 says; which other bytes it takes, and what it reads off them, is left open
but for the messageType and for strings.

* `Runtime` — the runtime and what is assumed of it;
* `from_bytes_eq_ok_iff` — what `from_bytes` returns;
* `from_bytes_selects` — on an encoding both serializers go for the same class;
* `from_bytes_serialized` — the Python one takes an encoding exactly if the strings of the
  message are valid;
* `relays` — and what it has taken can be sent on unchanged.
-/
import Click.Decoding

open Proto

namespace Click.Pclick

/-- The classes of `Messaging_pb2`: `none` stands for a `DecodeError`. -/
class Runtime where
  /-- `Message.ParseFromString`. -/
  parseHeader : Bytes → Option Protobuf.Message
  /-- `ParseFromString` of one of the seven classes. -/
  parse : (c : MessageClass) → Bytes → Option c.Content
  /-- Field 1 of any message is that of the header, the others are skipped. -/
  parseHeader_serialized : ∀ {m : Message} {out : Bytes}, m.cls.schema.byteSize m.pm ≤ maxSize →
    serializeToString m out → ∃ h, parseHeader out = some h ∧ h.messageType = m.messageType
  /-- A message is read back from its encodings. -/
  parse_serialized : ∀ {m : Message} {out : Bytes}, m.cls.schema.byteSize m.pm ≤ maxSize →
    serializeToString m out → m.cls.schema.Utf8 m.pm → parse m.cls out = some m.pm
  /-- A string that is no UTF-8 is refused. -/
  parse_invalid : ∀ {m : Message} {out : Bytes}, m.cls.schema.byteSize m.pm ≤ maxSize →
    serializeToString m out → ¬ m.cls.schema.Utf8 m.pm → parse m.cls out = none
  utf8_of_parse : ∀ {c : MessageClass} {b : Bytes} {pm : c.Content},
    parse c b = some pm → c.schema.Utf8 pm
  /-- The last of several occurrences of a field is kept, whatever stands between them. -/
  messageType_of_parse : ∀ {c : MessageClass} {b : Bytes} {h : Protobuf.Message}
    {pm : c.Content}, parseHeader b = some h → parse c b = some pm →
      c.messageType pm = h.messageType
  /-- The C++ header parser, where it succeeds too, keeps the same one. -/
  messageType_of_parseHeader : ∀ {b : Bytes} {h : Protobuf.Message}, parseHeader b = some h →
    (Protobuf.Message.schema.parseFromString b).1 = true → h.messageType = (header b).messageType

/-- The exceptions `from_bytes` may raise. -/
inductive Error
  | decodeError
  | keyError
  deriving DecidableEq

/-- `MessageSerializer.from_bytes`. -/
def from_bytes [Runtime] (bytes : Bytes) : Except Error Message :=
  match Runtime.parseHeader bytes with
  | none => .error .decodeError
  | some message =>
    match mdict message.messageType with
    | none => .error .keyError
    | some c =>
      match Runtime.parse c bytes with
      | none => .error .decodeError
      | some m => .ok ⟨c, m⟩

/-! ### A runtime -/

/-- The C++ parsers can do what is asked of a runtime. -/
abbrev Runtime.cpp : Runtime where
  parseHeader b :=
    if (Protobuf.Message.schema.parseFromString b).1 then some (header b) else none
  parse c b :=
    if (c.schema.parseFromString b).1 then some (c.schema.parseFromString b).2 else none
  parseHeader_serialized := by
    intro m out hsize hout
    obtain ⟨hs, hlen⟩ := serializes_of_serializeToString hsize hout
    have hparse : (Protobuf.Message.schema.parseFromString out).1 = true := by
      obtain ⟨rs, hw, rfl⟩ := hs
      rw [header_parses_iff, records_encodeRecords (m.cls.schema_lawful.fits_of_writes hw hlen)]
    refine ⟨header out, if_pos hparse, ?_⟩
    rw [header_messageType]
    exact MessageClass.declaredType_of_encoding hs hlen slop
  parse_serialized := by
    intro m out hsize hout hu
    obtain ⟨hs, hlen⟩ := serializes_of_serializeToString hsize hout
    have hparse : m.cls.schema.parseFromString out = (true, m.pm) :=
      Schema.parse_serializes m.cls.schema_lawful six_le_recursionLimit hu hs hlen slop
    rw [hparse]
    rfl
  parse_invalid := by
    intro m out hsize hout hu
    obtain ⟨hs, hlen⟩ := serializes_of_serializeToString hsize hout
    rw [if_neg]
    rwa [parses_iff, Schema.wellFormed_serializes_iff m.cls.schema_lawful m.cls.schema_checks
      six_le_recursionLimit hs hlen]
  utf8_of_parse := by
    intro c b pm h
    obtain ⟨hparse, hpm⟩ := Option.ite_none_right_eq_some.mp h
    rw [← Option.some.inj hpm]
    exact MessageClass.utf8_of_wellFormed ((parses_iff c b).mp hparse) slop
  messageType_of_parse := by
    intro c b h pm hheader h
    obtain ⟨-, hmessage⟩ := Option.ite_none_right_eq_some.mp hheader
    obtain ⟨hparse, hpm⟩ := Option.ite_none_right_eq_some.mp h
    rw [← Option.some.inj hmessage, ← Option.some.inj hpm]
    exact (header_of_wellFormed ((parses_iff c b).mp hparse)).symm
  messageType_of_parseHeader := by
    intro b h hheader _
    obtain ⟨-, hmessage⟩ := Option.ite_none_right_eq_some.mp hheader
    rw [← Option.some.inj hmessage]

/-! ### What is returned -/

section

variable [Runtime] {b : Bytes} {m : Message}

/-- **What `from_bytes` returns**: what its runtime makes of the bytes as the class that
the header names. -/
theorem from_bytes_eq_ok_iff : from_bytes b = .ok m ↔
    ∃ h, Runtime.parseHeader b = some h ∧ h.messageType = m.cls.tag ∧
      Runtime.parse m.cls b = some m.pm := by
  obtain ⟨c, pm⟩ := m
  rw [from_bytes]
  rcases hh : Runtime.parseHeader b with _ | h
  · simp
  · simp only [Option.some.injEq, exists_eq_left']
    rcases hc : mdict h.messageType with _ | c'
    · exact iff_of_false (by simp) fun hm => mdict_eq_none_iff.mp hc c hm.1
    · have htag := mdict_eq_some hc
      obtain rfl | hne := eq_or_ne c' c
      · rcases hp : Runtime.parse c' b with _ | pm' <;> simp [hp, htag]
      · have hother : h.messageType ≠ c.tag := fun hc' =>
          hne (MessageClass.tag_injective (htag.symm.trans hc'))
        refine iff_of_false ?_ fun hm => hother hm.1
        rcases hp : Runtime.parse c' b with _ | pm' <;> simp [hp, hne]

theorem tagged_of_from_bytes (h : from_bytes b = .ok m) : m.Tagged := by
  obtain ⟨message, hheader, htag, hparse⟩ := from_bytes_eq_ok_iff.mp h
  exact (Runtime.messageType_of_parse hheader hparse).trans htag

theorem utf8_of_from_bytes (h : from_bytes b = .ok m) : m.cls.schema.Utf8 m.pm := by
  obtain ⟨-, -, -, hparse⟩ := from_bytes_eq_ok_iff.mp h
  exact Runtime.utf8_of_parse hparse

/-- Where the C++ header parse succeeds, a class that is found is the one it names. -/
theorem header_of_from_bytes (h : from_bytes b = .ok m)
    (hheader : (Protobuf.Message.schema.parseFromString b).1 = true) :
    (header b).messageType = m.cls.tag := by
  obtain ⟨message, hmessage, htag, -⟩ := from_bytes_eq_ok_iff.mp h
  exact (Runtime.messageType_of_parseHeader hmessage hheader).symm.trans htag

/-! ### Encodings -/

variable {out : Bytes}

theorem from_bytes_eq_keyError_iff (hsize : m.cls.schema.byteSize m.pm ≤ maxSize)
    (hout : serializeToString m out) :
    from_bytes out = .error .keyError ↔ ∀ c : MessageClass, m.messageType ≠ c.tag := by
  obtain ⟨h, hheader, htype⟩ := Runtime.parseHeader_serialized hsize hout
  rw [← htype, ← mdict_eq_none_iff, from_bytes, hheader]
  simp only
  rcases mdict h.messageType with _ | c
  · simp
  · simp only
    rcases Runtime.parse c out with _ | pm <;> simp

/-- **The two serializers go for the same class.**  On the encoding of any message, also one
that does not carry the tag of its class, the Python serializer raises a `KeyError` exactly
where the C++ one throws.  What it returns is of the class that the C++ one makes of it and
carries the tag of that class, which is the `messageType` that was written. -/
theorem from_bytes_selects (m : Message) (hsize : m.cls.schema.byteSize m.pm ≤ maxSize)
    {out : Bytes} (hout : serializeToString m out) :
    (from_bytes out = .error .keyError ↔ ∃ fault, fromBytes out = .error fault) ∧
      ∀ m', from_bytes out = .ok m' → m'.Tagged ∧ m'.messageType = m.messageType ∧
        ∃ pm : m'.cls.Content, fromBytes out = .ok ⟨m'.cls, pm⟩ := by
  obtain ⟨hs, hlen⟩ := serializes_of_serializeToString hsize hout
  have hdeclared := MessageClass.declaredType_of_encoding hs hlen slop
  refine ⟨?_, fun m' hm' => ?_⟩
  · rw [from_bytes_eq_keyError_iff hsize hout, fromBytes_eq_error_iff, hdeclared]
    rfl
  · obtain ⟨h, hheader, htag, -⟩ := from_bytes_eq_ok_iff.mp hm'
    obtain ⟨h', hheader', htype⟩ := Runtime.parseHeader_serialized hsize hout
    obtain rfl := Option.some.inj (hheader.symm.trans hheader')
    have hm : m.messageType = m'.cls.tag := htype.symm.trans htag
    exact ⟨tagged_of_from_bytes hm', (tagged_of_from_bytes hm').trans hm.symm,
      (m'.cls.schema.parseFromString out).2,
      fromBytes_eq_ok_iff.mpr ⟨hdeclared.trans hm, rfl⟩⟩

theorem from_bytes_of_serialized (htag : m.Tagged) (hu : m.cls.schema.Utf8 m.pm)
    (hsize : m.cls.schema.byteSize m.pm ≤ maxSize) (hout : serializeToString m out) :
    from_bytes out = .ok m := by
  obtain ⟨h, hheader, htype⟩ := Runtime.parseHeader_serialized hsize hout
  exact from_bytes_eq_ok_iff.mpr
    ⟨h, hheader, htype.trans htag, Runtime.parse_serialized hsize hout hu⟩

/-- **What the Python serializer takes of what is sent to it.**  An encoding of a message
that carries the tag of its class is read back as that message if its strings are valid
UTF-8, and a `DecodeError` is raised if not. -/
theorem from_bytes_serialized (m : Message) (htag : m.Tagged)
    (hsize : m.cls.schema.byteSize m.pm ≤ maxSize) {out : Bytes} (hout : serializeToString m out) :
    (from_bytes out = .ok m ↔ m.cls.schema.Utf8 m.pm) ∧
      (from_bytes out = .error .decodeError ↔ ¬ m.cls.schema.Utf8 m.pm) := by
  by_cases hu : m.cls.schema.Utf8 m.pm
  · have hok := from_bytes_of_serialized htag hu hsize hout
    exact ⟨iff_of_true hok hu, iff_of_false (by simp [hok]) (not_not_intro hu)⟩
  · -- the header names the class, so it is the class that objects
    obtain ⟨h, hheader, htype⟩ := Runtime.parseHeader_serialized hsize hout
    have herror : from_bytes out = .error .decodeError := by
      rw [from_bytes, hheader]
      simp only [htype.trans htag, mdict_tag, Runtime.parse_invalid hsize hout hu]
    exact ⟨iff_of_false (by simp [herror]) hu, iff_of_true herror hu⟩

/-- A message is encoded, and what is sent is read by either serializer. -/
def Hop (m m' : Message) : Prop :=
  ∃ out, serializeToString m out ∧ (fromBytes out = .ok m' ∨ from_bytes out = .ok m')

/-- **A message that was accepted once is passed on unchanged**, by any number of programs
that read it and send it again, whichever serializer they read it with; and there is always
a program that can. -/
theorem relays {b : Bytes} {m : Message} (h : from_bytes b = .ok m)
    (hsize : m.cls.schema.byteSize m.pm ≤ maxSize) :
    (∀ m', Relation.ReflTransGen Hop m m' → m' = m) ∧
      ∃ out, serializeToString m out ∧ fromBytes out = .ok m ∧ from_bytes out = .ok m := by
  have htag := tagged_of_from_bytes h
  have hu := utf8_of_from_bytes h
  refine ⟨fun m' hhops => ?_, ?_⟩
  · induction hhops with
    | refl => rfl
    | tail _ hhop ih =>
      subst ih
      obtain ⟨out, hout, hm' | hm'⟩ := hhop
      · exact Except.ok.inj (hm'.symm.trans (fromBytes_of_serializes htag hu hsize hout))
      · exact Except.ok.inj (hm'.symm.trans (from_bytes_of_serialized htag hu hsize hout))
  · obtain ⟨out, hout⟩ := exists_serializeToString m
    exact ⟨out, hout, fromBytes_of_serializes htag hu hsize hout,
      from_bytes_of_serialized htag hu hsize hout⟩

end

/-- A SensorMessage that says it is a ResetMessage. -/
theorem from_bytes_selects_reset : let _ := Runtime.cpp
    ∃ m', from_bytes [8, 4] = .ok m' ∧ m'.Tagged ∧
      m'.messageType = MessageType.ResetMessageType := by
  intro _
  have hm' : from_bytes [8, 4] = .ok ⟨.resetMessage, { messageType := 4 }⟩ := by decide
  have hsize : Protobuf.SensorMessage.schema.byteSize { messageType := 4 } ≤ maxSize := by decide
  obtain ⟨htag, htype, -⟩ := (from_bytes_selects ⟨.sensorMessage, { messageType := 4 }⟩ hsize
    ((serializeToString_iff (m := ⟨.sensorMessage, _⟩) hsize).mpr
      (Protobuf.SensorMessage.schema_lawful.serializes_serialize _))).2 _ hm'
  exact ⟨_, hm', htag, htype⟩

/-- An ErrorMessage with a text that is no UTF-8 is not read back. -/
theorem from_bytes_serialized_error : let _ := Runtime.cpp
    from_bytes [8, 5, 26, 1, 255] = .error .decodeError := by
  intro _
  have hsize : Protobuf.ErrorMessage.schema.byteSize
      { messageType := 5, errormessage := [255] } ≤ maxSize := by decide
  refine (from_bytes_serialized
    ⟨.errorMessage, { messageType := 5, errormessage := [255] }⟩ rfl hsize
    ((serializeToString_iff (m := ⟨.errorMessage, _⟩) hsize).mpr
      (Protobuf.ErrorMessage.schema_lawful.serializes_serialize _))).2.mpr fun hu => ?_
  have htext := hu _ (List.mem_cons_of_mem _ (List.mem_cons_of_mem _ List.mem_cons_self))
  exact absurd (show validUtf8 [255] = true from htext) (by decide)

/-- A ResetMessage goes on in another encoding than it came in. -/
theorem relays_reset : let _ := Runtime.cpp
    ∃ m', Hop ⟨.resetMessage, { messageType := 4 }⟩ m' ∧
      m' = ⟨.resetMessage, { messageType := 4 }⟩ := by
  intro _
  have h : from_bytes [8, 0x84, 0] = .ok ⟨.resetMessage, { messageType := 4 }⟩ := by decide
  have hsize : Protobuf.ResetMessage.schema.byteSize { messageType := 4 } ≤ maxSize := by decide
  obtain ⟨hsame, out, hout, -, hread⟩ := relays h hsize
  have hhop : Hop ⟨.resetMessage, { messageType := 4 }⟩ ⟨.resetMessage, { messageType := 4 }⟩ :=
    ⟨out, hout, .inr hread⟩
  exact ⟨_, hhop, hsame _ (.single hhop)⟩

end Click.Pclick
