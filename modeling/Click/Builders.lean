/-
The builders together.

Besides the three builders with interfaces of their own there are four that have
one interface each and no pointers.

* `pointersSet_iff` — in which chains the calls find their pointers set.
-/
import Click.ControlMessageBuilder
import Click.HandshakeMessageBuilder
import Click.SensorMessageBuilder

open Proto Fluent

namespace Click

/-! ### Builders with one interface -/

namespace HandshakeInitMessageBuilder

def builder : Protobuf.HandshakeInitMessage :=
  { messageType := MessageType.HandshakeInitMessageType, version := CURRENT_VERSION }

def build (message : Protobuf.HandshakeInitMessage) : Message := ⟨.handshakeInitMessage, message⟩

end HandshakeInitMessageBuilder

namespace ErrorMessageBuilder

def builder : Protobuf.ErrorMessage := { messageType := MessageType.ErrorMessageType }

def withMessage (message : Protobuf.ErrorMessage) (errormessage : Str) : Protobuf.ErrorMessage :=
  { message with errormessage := errormessage }

def build (message : Protobuf.ErrorMessage) : Message := ⟨.errorMessage, message⟩

end ErrorMessageBuilder

namespace SensorRequestMessageBuilder

def builder : Protobuf.SensorRequestMessage :=
  { messageType := MessageType.SensorRequestMessageType }

def build (message : Protobuf.SensorRequestMessage) : Message := ⟨.sensorRequestMessage, message⟩

end SensorRequestMessageBuilder

namespace ResetMessageBuilder

def builder : Protobuf.ResetMessage := { messageType := MessageType.ResetMessageType }

def build (message : Protobuf.ResetMessage) : Message := ⟨.resetMessage, message⟩

end ResetMessageBuilder

/-! ### Pointers -/

/-- A chain of one of the three builders that keep pointers. -/
inductive BuilderChain
  | control (chain : Chain ControlMessageBuilderImpl.interfaces)
  | sensor (chain : Chain SensorMessageBuilderImpl.interfaces)
  | handshake (chain : Chain HandshakeMessageBuilderImpl.interfaces)

namespace BuilderChain

/-- Every call finds the pointers it follows set, that to the sensor on the object
that is current. -/
def PointersSet : BuilderChain → Prop
  | control chain => EachCall ControlMessageBuilderImpl.exec ControlMessageBuilderImpl.PointersSet
      ControlMessageBuilderImpl.builder chain.calls
  | sensor chain => EachCall SensorMessageBuilderImpl.exec SensorMessageBuilderImpl.PointersSet
      SensorMessageBuilderImpl.builder chain.calls
  | handshake chain => EachCall HandshakeMessageBuilderImpl.exec
      HandshakeMessageBuilderImpl.PointersSet HandshakeMessageBuilderImpl.builder chain.calls

/-- The chain of a SensorMessageBuilder starts with `withSimulatedTime` and goes on
with a call other than `object`. -/
def TimeFirst : BuilderChain → Prop
  | sensor chain => SensorMessageBuilderImpl.TimeFirst chain.calls
  | _ => False

/-- **When the interfaces keep the pointers valid.**  In every chain of a
ControlMessageBuilder and of a HandshakeMessageBuilder each call finds the pointers
it follows set; in a chain of a SensorMessageBuilder exactly unless it starts with
`withSimulatedTime` and goes on with a call other than `object`. -/
theorem pointersSet_iff (chain : BuilderChain) : chain.PointersSet ↔ ¬ chain.TimeFirst := by
  cases chain with
  | control chain =>
    exact iff_of_true (ControlMessageBuilderImpl.pointersSet chain) not_false
  | sensor chain => exact SensorMessageBuilderImpl.pointersSet_iff_not_timeFirst chain
  | handshake chain =>
    exact iff_of_true (HandshakeMessageBuilderImpl.pointersSet chain) not_false

theorem not_pointersSet : ¬ ∀ chain : BuilderChain, chain.PointersSet := by
  intro h
  have hcalls := h (.sensor
    ⟨[.withSimulatedTime 0, .withAngles []], .addSensorValuesBuilder, rfl⟩)
  exact absurd ((hcalls.2 _ rfl).1.1 rfl) (by decide)

end BuilderChain

end Click
