/-
Click messages.

A click message wraps the protobuf message of its class.  The class is fixed
when the object is made; `messageType` is read from the wrapped message, where
it is a field like any other, and nothing but the code that fills it makes the
two agree.

* `MessageClass.schema_lawful` — the codec of every class is lawful;
* `MessageClass.messageType_parse` — after a parse as any class `messageType`
  holds the last value given for field 1 by the records that were accepted, so
  classes can be compared by their records alone.  One that the end of the bytes cuts
  off counts, as it is read on behind the end.
-/
import Click.MessagingLaws

open Proto

namespace Click

/-- How a call can end other than by returning. -/
inductive Fault
  /-- `std::runtime_error`.  The debug string that follows the text is left out. -/
  | runtimeError (what : String)
  /-- `Map::at` of an absent key: a failed check ends the program. -/
  | keyNotFound
  /-- `RepeatedField::at` outside the list: a failed check ends the program. -/
  | indexOutOfRange
  /-- An iterator is followed past the end: undefined. -/
  | outOfBoundsRead
  /-- A pointer that was never set is followed: undefined. -/
  | uninitializedPointer
  /-- A cast to a class the object does not have: undefined. -/
  | badCast
  /-- `zmq::error_t`. -/
  | socketError
  deriving DecidableEq

/-- The seven classes derived from `click::Message`. -/
inductive MessageClass
  | handshakeInitMessage
  | handshakeMessage
  | sensorRequestMessage
  | controlMessage
  | sensorMessage
  | resetMessage
  | errorMessage
  deriving DecidableEq

namespace MessageClass

/-- The value of `messageType` that stands for the class. -/
def tag : MessageClass → MessageType
  | handshakeInitMessage => MessageType.HandshakeInitMessageType
  | handshakeMessage => MessageType.HandshakeMessageType
  | sensorRequestMessage => MessageType.SensorRequestMessageType
  | controlMessage => MessageType.ControlMessageType
  | sensorMessage => MessageType.SensorMessageType
  | resetMessage => MessageType.ResetMessageType
  | errorMessage => MessageType.ErrorMessageType

/-- The protobuf message an object of the class wraps. -/
abbrev Content : MessageClass → Type
  | handshakeInitMessage => Protobuf.HandshakeInitMessage
  | handshakeMessage => Protobuf.HandshakeMessage
  | sensorRequestMessage => Protobuf.SensorRequestMessage
  | controlMessage => Protobuf.ControlMessage
  | sensorMessage => Protobuf.SensorMessage
  | resetMessage => Protobuf.ResetMessage
  | errorMessage => Protobuf.ErrorMessage

def schema : (c : MessageClass) → Schema c.Content
  | handshakeInitMessage => Protobuf.HandshakeInitMessage.schema
  | handshakeMessage => Protobuf.HandshakeMessage.schema
  | sensorRequestMessage => Protobuf.SensorRequestMessage.schema
  | controlMessage => Protobuf.ControlMessage.schema
  | sensorMessage => Protobuf.SensorMessage.schema
  | resetMessage => Protobuf.ResetMessage.schema
  | errorMessage => Protobuf.ErrorMessage.schema

/-- `pm->messagetype()`. -/
def messageType : (c : MessageClass) → c.Content → MessageType
  | handshakeInitMessage => Protobuf.HandshakeInitMessage.messageType
  | handshakeMessage => Protobuf.HandshakeMessage.messageType
  | sensorRequestMessage => Protobuf.SensorRequestMessage.messageType
  | controlMessage => Protobuf.ControlMessage.messageType
  | sensorMessage => Protobuf.SensorMessage.messageType
  | resetMessage => Protobuf.ResetMessage.messageType
  | errorMessage => Protobuf.ErrorMessage.messageType

theorem tag_injective {c c' : MessageClass} (h : c.tag = c'.tag) : c = c' := by
  cases c <;> cases c' <;> first | rfl | exact absurd h (by decide)

instance : (c : MessageClass) → DecidableEq c.Content
  | handshakeInitMessage => inferInstanceAs (DecidableEq Protobuf.HandshakeInitMessage)
  | handshakeMessage => inferInstanceAs (DecidableEq Protobuf.HandshakeMessage)
  | sensorRequestMessage => inferInstanceAs (DecidableEq Protobuf.SensorRequestMessage)
  | controlMessage => inferInstanceAs (DecidableEq Protobuf.ControlMessage)
  | sensorMessage => inferInstanceAs (DecidableEq Protobuf.SensorMessage)
  | resetMessage => inferInstanceAs (DecidableEq Protobuf.ResetMessage)
  | errorMessage => inferInstanceAs (DecidableEq Protobuf.ErrorMessage)

end MessageClass

/-- An object of one of the classes, with the protobuf message it wraps. -/
structure Message where
  cls : MessageClass
  pm : cls.Content
  deriving DecidableEq

/-- `Message::messageType`. -/
def Message.messageType (m : Message) : MessageType := m.cls.messageType m.pm

/-- The object is what its `messageType` says it is. -/
def Message.Tagged (m : Message) : Prop := m.messageType = m.cls.tag

instance (m : Message) : Decidable m.Tagged := inferInstanceAs (Decidable (_ = _))

/-- `Message::serializeToBytes`: the bytes it may return. -/
def Message.SerializesToBytes (m : Message) (out : Bytes) : Prop :=
  m.cls.schema.SerializesAsString m.pm out

/-! ### messageType in a parse -/

/-- The `messageType` that records declare: the last varint of field 1, or the
default. -/
def declaredType (rs : List Record) : MessageType :=
  rs.foldl (fun t r =>
    match r with
    | ⟨1, .varint v⟩ => v.setWidth 32
    | _ => t) 0

namespace MessageClass

theorem schema_lawful (c : MessageClass) : c.schema.Lawful 6 := by
  have mono {M : Type} {S : Schema M} {h : ℕ} (hS : S.Lawful h) (hh : h ≤ 6) : S.Lawful 6 :=
    { hS with field := fun f hf => (hS.field f hf).mono hh }
  cases c with
  | handshakeInitMessage => exact mono Protobuf.HandshakeInitMessage.schema_lawful (by norm_num)
  | handshakeMessage => exact mono Protobuf.HandshakeMessage.schema_lawful (by norm_num)
  | sensorRequestMessage => exact mono Protobuf.SensorRequestMessage.schema_lawful (by norm_num)
  | controlMessage => exact mono Protobuf.ControlMessage.schema_lawful (by norm_num)
  | sensorMessage => exact Protobuf.SensorMessage.schema_lawful
  | resetMessage => exact mono Protobuf.ResetMessage.schema_lawful (by norm_num)
  | errorMessage => exact mono Protobuf.ErrorMessage.schema_lawful (by norm_num)

end MessageClass

/-- No message nests too deeply to be read. -/
theorem six_le_recursionLimit : 6 ≤ recursionLimit := by norm_num [recursionLimit]

/-- A field of enumeration type is never malformed. -/
theorem enumField_ok (n d : ℕ) (r : Record) : (Protobuf.enumField n).Ok d r := fun _ => trivial

theorem scan_enumField_one (d : ℕ) (rs : List Record) :
    (Protobuf.enumField 1).scan d 0 rs = declaredType rs := by
  rw [FieldCodec.scan, declaredType]
  congr 1
  funext t r
  -- a record of field 1 that is no varint is skipped by both
  obtain ⟨n, p⟩ := r
  by_cases hn : n = 1
  · subst hn
    cases p <;> rfl
  · simp only [FieldCodec.singular, if_neg hn, Option.map_none, Option.getD_none]
    split
    · next h => exact absurd (congrArg Record.num h) hn
    · rfl

/-- **A parse as class `c` leaves in `messageType` what the accepted records
declare.** -/
theorem MessageClass.messageType_parse (c : MessageClass) (past bs : Bytes) :
    c.messageType (c.schema.parseFromIstream past bs).2 =
      declaredType (c.schema.accepted recursionLimit (records past recursionLimit bs).1) := by
  rw [← scan_enumField_one recursionLimit]
  have hok := enumField_ok 1 recursionLimit
  -- `messageType` is the first field of every class
  cases c with
  | handshakeInitMessage =>
    exact Protobuf.HandshakeInitMessage.schema_lawful.get_parse List.mem_cons_self hok past bs _
  | handshakeMessage =>
    exact Protobuf.HandshakeMessage.schema_lawful.get_parse List.mem_cons_self hok past bs _
  | sensorRequestMessage =>
    exact Protobuf.SensorRequestMessage.schema_lawful.get_parse List.mem_cons_self hok past bs _
  | controlMessage =>
    exact Protobuf.ControlMessage.schema_lawful.get_parse List.mem_cons_self hok past bs _
  | sensorMessage =>
    exact Protobuf.SensorMessage.schema_lawful.get_parse List.mem_cons_self hok past bs _
  | resetMessage =>
    exact Protobuf.ResetMessage.schema_lawful.get_parse List.mem_cons_self hok past bs _
  | errorMessage =>
    exact Protobuf.ErrorMessage.schema_lawful.get_parse List.mem_cons_self hok past bs _

end Click
