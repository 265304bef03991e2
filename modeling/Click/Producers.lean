/-
Where messages come from.

A `Message` is handed out by a builder, by the Python factory, by `fromBytes` or by one
of the two functions that read a stream.  Its class is fixed by the function that makes
it, or by a first parse of the bytes as a header; its `messageType` comes from a parse as
that class, whose success nobody checks.

* `tagged_of_typeSurvives` — builders and the factory hand out messages that carry the tag
  of their class, and the others do if the `messageType` survives the parse;
* `sound_iff` — exactly then a cast after a look at `messageType` is safe.
-/
import Click.Builders
import Click.MessageSerializer

open Proto Fluent

namespace Click

/-- `toSensorMessage`: the cast is not checked. -/
def toSensorMessage : Message → Except Fault Protobuf.SensorMessage
  | ⟨.sensorMessage, pm⟩ => .ok pm
  | _ => .error .badCast

/-- `toHandshakeMessage`. -/
def toHandshakeMessage : Message → Except Fault Protobuf.HandshakeMessage
  | ⟨.handshakeMessage, pm⟩ => .ok pm
  | _ => .error .badCast

/-- The ways to come by a message, with what they are given. -/
inductive Producer
  | handshakeInitMessageBuilder
  | errorMessageBuilder (texts : List Str)
  | sensorRequestMessageBuilder
  | resetMessageBuilder
  | controlMessageBuilder (chain : Chain ControlMessageBuilderImpl.interfaces)
  | sensorMessageBuilder (chain : Chain SensorMessageBuilderImpl.interfaces)
  | handshakeMessageBuilder (chain : Chain HandshakeMessageBuilderImpl.interfaces)
  | messageFactory (c : MessageClass)
  | fromBytes (bytes : Bytes)
  | sensorMessageFromIStream (past input : Bytes)
  | handshakeMessageFromIStream (past input : Bytes)

namespace Producer

/-- The message handed out, if there is one. -/
def output : Producer → Option Message
  | handshakeInitMessageBuilder =>
    some (HandshakeInitMessageBuilder.build HandshakeInitMessageBuilder.builder)
  | errorMessageBuilder texts =>
    some (ErrorMessageBuilder.build
      (texts.foldl ErrorMessageBuilder.withMessage ErrorMessageBuilder.builder))
  | sensorRequestMessageBuilder =>
    some (SensorRequestMessageBuilder.build SensorRequestMessageBuilder.builder)
  | resetMessageBuilder => some (ResetMessageBuilder.build ResetMessageBuilder.builder)
  | controlMessageBuilder chain =>
    if ControlMessageBuilderImpl.interfaces.finishes chain.last then
      (run ControlMessageBuilderImpl.exec ControlMessageBuilderImpl.builder
        chain.calls).toOption.map ControlMessageBuilderImpl.build
    else none
  | sensorMessageBuilder chain =>
    if SensorMessageBuilderImpl.interfaces.finishes chain.last then
      (run SensorMessageBuilderImpl.exec SensorMessageBuilderImpl.builder
        chain.calls).toOption.map SensorMessageBuilderImpl.build
    else none
  | handshakeMessageBuilder chain =>
    if HandshakeMessageBuilderImpl.interfaces.finishes chain.last then
      (run HandshakeMessageBuilderImpl.exec HandshakeMessageBuilderImpl.builder
        chain.calls).toOption.map HandshakeMessageBuilderImpl.build
    else none
  | messageFactory c => some ⟨c, Pclick.create_message c⟩
  | fromBytes bytes => (Click.fromBytes bytes).toOption
  | sensorMessageFromIStream past input => some (Click.sensorMessageFromIStream past input)
  | handshakeMessageFromIStream past input => some (Click.handshakeMessageFromIStream past input)

/-! ### Builders -/

/-- A message is built from the state its chain ends in. -/
theorem of_built {S C : Type} {exec : S → C → Except Fault S} {s : S} {cs : List C}
    {build : S → Message} {finishes : Bool} {m : Message}
    (hm : (if finishes then (run exec s cs).toOption.map build else none) = some m) :
    ∃ s', run exec s cs = .ok s' ∧ m = build s' := by
  rcases finishes with _ | _
  · exact absurd hm (by simp)
  · rw [if_pos rfl] at hm
    obtain ⟨s', hrun, rfl⟩ := Option.map_eq_some_iff.mp hm
    exact ⟨s', toOption_eq_some.mp hrun, rfl⟩

theorem withMessage_messageType (texts : List Str) (m : Protobuf.ErrorMessage) :
    (texts.foldl ErrorMessageBuilder.withMessage m).messageType = m.messageType := by
  induction texts generalizing m with
  | nil => rfl
  | cons text texts ih => exact (ih _).trans rfl

/-- The `messageType` that is left after the parse, where there is one, is the tag
of the class the parse was for. -/
def TypeSurvives : Producer → Prop
  | fromBytes bytes => ∀ c : MessageClass,
      declaredType (records slop recursionLimit bytes).1 = c.tag →
      declaredType (c.schema.accepted recursionLimit (records slop recursionLimit bytes).1) = c.tag
  | sensorMessageFromIStream past input =>
      declaredType (MessageClass.sensorMessage.schema.accepted recursionLimit
        (records past recursionLimit input).1) = MessageType.SensorMessageType
  | handshakeMessageFromIStream past input =>
      declaredType (MessageClass.handshakeMessage.schema.accepted recursionLimit
        (records past recursionLimit input).1) = MessageType.HandshakeMessageType
  | _ => True

/-- What a caller may rely on: the message carries the tag of its class, so one who
has looked at `messageType` may cast. -/
structure Sound (m : Message) : Prop where
  tagged : m.Tagged
  toSensorMessage : m.messageType = MessageType.SensorMessageType →
    toSensorMessage m ≠ .error .badCast
  toHandshakeMessage : m.messageType = MessageType.HandshakeMessageType →
    toHandshakeMessage m ≠ .error .badCast

theorem sound_of_tagged {m : Message} (h : m.Tagged) : Sound m := by
  refine ⟨h, fun htype => ?_, fun htype => ?_⟩
  · have hc : m.cls = .sensorMessage := MessageClass.tag_injective (h.symm.trans htype)
    obtain ⟨c, pm⟩ := m
    obtain rfl := hc
    exact by simp [Click.toSensorMessage]
  · have hc : m.cls = .handshakeMessage := MessageClass.tag_injective (h.symm.trans htype)
    obtain ⟨c, pm⟩ := m
    obtain rfl := hc
    exact by simp [Click.toHandshakeMessage]

theorem tagged_of_typeSurvives {p : Producer} (hp : p.TypeSurvives) {m : Message}
    (hm : p.output = some m) : m.Tagged := by
  cases p with
  | handshakeInitMessageBuilder =>
    obtain rfl := Option.some.inj hm
    rfl
  | errorMessageBuilder texts =>
    obtain rfl := Option.some.inj hm
    exact withMessage_messageType texts ErrorMessageBuilder.builder
  | sensorRequestMessageBuilder =>
    obtain rfl := Option.some.inj hm
    rfl
  | resetMessageBuilder =>
    obtain rfl := Option.some.inj hm
    rfl
  | controlMessageBuilder chain =>
    obtain ⟨b, hb, rfl⟩ := of_built hm
    exact ControlMessageBuilderImpl.built_messageType (congrArg (Except.map _) hb)
  | sensorMessageBuilder chain =>
    obtain ⟨b, hb, rfl⟩ := of_built hm
    exact SensorMessageBuilderImpl.built_messageType (congrArg (Except.map _) hb)
  | handshakeMessageBuilder chain =>
    rw [output] at hm
    obtain ⟨b, hb, rfl⟩ := of_built hm
    exact HandshakeMessageBuilderImpl.built_messageType (congrArg (Except.map _) hb)
  | messageFactory c =>
    obtain rfl := Option.some.inj hm
    exact Pclick.create_message_tagged c
  | fromBytes bytes =>
    obtain ⟨htype, heq⟩ := fromBytes_eq_ok_iff.mp (toOption_eq_some.mp hm)
    -- the header read all records, the class those before the first malformed one
    rw [heq]
    exact (m.cls.messageType_parse slop bytes).trans (hp m.cls htype)
  | sensorMessageFromIStream past input =>
    obtain rfl := Option.some.inj hm
    exact (MessageClass.sensorMessage.messageType_parse past input).trans hp
  | handshakeMessageFromIStream past input =>
    obtain rfl := Option.some.inj hm
    exact (MessageClass.handshakeMessage.messageType_parse past input).trans hp

/-- **When class and `messageType` agree.**  For a builder and the factory always; for
bytes and streams exactly when the tag of the class is the last `messageType` among the
records that are read before the first one that is malformed for the class. -/
theorem sound_iff (p : Producer) :
    (∀ m, p.output = some m → Sound m) ↔ p.TypeSurvives := by
  refine ⟨fun h => ?_, fun hp m hm => sound_of_tagged (tagged_of_typeSurvives hp hm)⟩
  cases p with
  | fromBytes bytes =>
    intro c htype
    have hret : Click.fromBytes bytes = .ok ⟨c, (c.schema.parseFromString bytes).2⟩ :=
      fromBytes_eq_ok_iff.mpr ⟨htype, rfl⟩
    have htag := (h _ (by rw [output, hret]; rfl)).tagged
    exact (c.messageType_parse slop bytes).symm.trans htag
  | sensorMessageFromIStream past input =>
    exact (MessageClass.sensorMessage.messageType_parse past input).symm.trans (h _ rfl).tagged
  | handshakeMessageFromIStream past input =>
    exact (MessageClass.handshakeMessage.messageType_parse past input).symm.trans (h _ rfl).tagged
  | _ => trivial

/-- A `messageType` that ends with the stream is completed by what lies behind it. -/
example : (Click.sensorMessageFromIStream [0] [8, 0x83]).messageType =
    MessageType.SensorMessageType := by decide

/-- The header goes on to a second `messageType`, past a map entry at which the
parse of the class stops. -/
theorem not_sound : ¬ ∀ p m, output p = some m → Sound m := by
  intro h
  have hret : Click.fromBytes [0x08, 3, 0x12, 1, 0xff, 8, 2] =
      .ok ⟨.controlMessage, { messageType := 3 }⟩ := by
    decide
  have hout : output (.fromBytes [0x08, 3, 0x12, 1, 0xff, 8, 2]) =
      some ⟨.controlMessage, { messageType := 3 }⟩ := by
    rw [output, hret]
    rfl
  exact (h _ _ hout).toSensorMessage rfl rfl

end Producer

end Click
