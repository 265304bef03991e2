/-
The message types of `Messaging.proto`.

One structure and one schema for each message declaration, fields and numbers
as declared; the generated serializers and parsers are the library's, applied
to these schemas.  Field names are the declared ones; the enumerations are
named constants, since a proto3 enumeration holds any 32-bit number.
-/
import Click.Proto.Codec

open Proto

namespace Click

/-- `std::string`. -/
abbrev Str := Bytes

/-- A literal: its UTF-8 bytes. -/
def str (s : String) : Str := s.toByteArray.data.toList

/-! ### Enumerations -/

abbrev MessageType := Enum

namespace MessageType

def HandshakeInitMessageType : MessageType := 0
def HandshakeMessageType : MessageType := 1
def SensorRequestMessageType : MessageType := 6
def ControlMessageType : MessageType := 2
def SensorMessageType : MessageType := 3
def ResetMessageType : MessageType := 4
def ErrorMessageType : MessageType := 5

end MessageType

abbrev ValueType := Enum

namespace ValueType

def Angle : ValueType := 0
def AngularVelocity1D : ValueType := 1
def Torque1D : ValueType := 2
def Position : ValueType := 3
def RPY : ValueType := 4
def Activated : ValueType := 5
def Acceleration3D : ValueType := 6
def Force1D : ValueType := 12
def Force3D : ValueType := 7
def Torque3D : ValueType := 8
def AngularAcceleration3D : ValueType := 9
def Velocity3D : ValueType := 10
def AngularVelocity3D : ValueType := 11
def Multiple : ValueType := 15

end ValueType

/-- `enum Version`. -/
def CURRENT_VERSION : Enum := 1

namespace Protobuf

/-- A field of enumeration type, or of type `int32`. -/
abbrev enumField (n : ℕ) : FieldCodec Enum := .singular n Scalar.int32.toValue

abbrev doubleField (n : ℕ) : FieldCodec Double := .singular n Scalar.double.toValue

abbrev doublesField (n : ℕ) : FieldCodec (List Double) := .packed n Scalar.double

abbrev enumsField (n : ℕ) : FieldCodec (List Enum) := .packed n Scalar.int32

abbrev stringsField (n : ℕ) : FieldCodec (List Str) := .repeated n .string

/-! ### Messages without a map -/

/-- The header every message is first parsed as. -/
structure Message where
  messageType : MessageType := 0
  id : BitVec 32 := 0
  deriving DecidableEq

def Message.schema : Schema Message where
  empty := {}
  members := [
    { field := enumField 1, get := messageType, set := fun m x => { m with messageType := x } },
    { field := enumField 2, get := id, set := fun m x => { m with id := x } }]

structure HandshakeInitMessage where
  messageType : MessageType := 0
  version : Enum := 0
  deriving DecidableEq

def HandshakeInitMessage.schema : Schema HandshakeInitMessage where
  empty := {}
  members := [
    { field := enumField 1, get := messageType, set := fun m x => { m with messageType := x } },
    { field := enumField 2, get := version, set := fun m x => { m with version := x } }]

structure SensorRequestMessage where
  messageType : MessageType := 0
  deriving DecidableEq

def SensorRequestMessage.schema : Schema SensorRequestMessage where
  empty := {}
  members := [
    { field := enumField 1, get := messageType, set := fun m x => { m with messageType := x } }]

structure ResetMessage where
  messageType : MessageType := 0
  deriving DecidableEq

def ResetMessage.schema : Schema ResetMessage where
  empty := {}
  members := [
    { field := enumField 1, get := messageType, set := fun m x => { m with messageType := x } }]

structure ErrorMessage where
  messageType : MessageType := 0
  error : Enum := 0
  errormessage : Str := []
  deriving DecidableEq

def ErrorMessage.schema : Schema ErrorMessage where
  empty := {}
  members := [
    { field := enumField 1, get := messageType, set := fun m x => { m with messageType := x } },
    { field := enumField 2, get := error, set := fun m x => { m with error := x } },
    { field := .singular 3 .string, get := errormessage,
      set := fun m x => { m with errormessage := x } }]

/-! ### HandshakeMessage -/

structure HandshakeMessage.Sensors where
  types : List ValueType := []
  deriving DecidableEq

def HandshakeMessage.Sensors.schema : Schema HandshakeMessage.Sensors where
  empty := {}
  members := [
    { field := enumsField 1, get := types, set := fun m x => { m with types := x } }]

structure HandshakeMessage.Object where
  controlsInOrder : List Str := []
  jointSensors : List ValueType := []
  controlEvents : Map ValueType := ∅
  sensors : Map HandshakeMessage.Sensors := ∅
  objectSensors : List ValueType := []
  jointSensorsInOrder : List Str := []
  controlTypesInOrder : List ValueType := []
  deriving DecidableEq

def HandshakeMessage.Object.schema : Schema HandshakeMessage.Object where
  empty := {}
  members := [
    { field := stringsField 1, get := controlsInOrder,
      set := fun m x => { m with controlsInOrder := x } },
    { field := enumsField 2, get := jointSensors, set := fun m x => { m with jointSensors := x } },
    { field := .map 3 Scalar.int32.toValue, get := controlEvents,
      set := fun m x => { m with controlEvents := x } },
    { field := .map 4 (.message HandshakeMessage.Sensors.schema), get := sensors,
      set := fun m x => { m with sensors := x } },
    { field := enumsField 6, get := objectSensors,
      set := fun m x => { m with objectSensors := x } },
    { field := stringsField 7, get := jointSensorsInOrder,
      set := fun m x => { m with jointSensorsInOrder := x } },
    { field := enumsField 8, get := controlTypesInOrder,
      set := fun m x => { m with controlTypesInOrder := x } }]

structure HandshakeMessage.SimulationSettings where
  timeStep : Double := 0
  deriving DecidableEq

def HandshakeMessage.SimulationSettings.schema :
    Schema HandshakeMessage.SimulationSettings where
  empty := {}
  members := [
    { field := doubleField 1, get := timeStep, set := fun m x => { m with timeStep := x } }]

structure HandshakeMessage where
  messageType : MessageType := 0
  version : Enum := 0
  controlType : ValueType := 0
  objects : Map HandshakeMessage.Object := ∅
  simSettings : Option HandshakeMessage.SimulationSettings := none
  deriving DecidableEq

def HandshakeMessage.schema : Schema HandshakeMessage where
  empty := {}
  members := [
    { field := enumField 1, get := messageType, set := fun m x => { m with messageType := x } },
    { field := enumField 2, get := version, set := fun m x => { m with version := x } },
    { field := enumField 3, get := controlType, set := fun m x => { m with controlType := x } },
    { field := .map 4 (.message HandshakeMessage.Object.schema), get := objects,
      set := fun m x => { m with objects := x } },
    { field := .optional 5 (.message HandshakeMessage.SimulationSettings.schema),
      get := simSettings, set := fun m x => { m with simSettings := x } }]

/-! ### ControlMessage -/

structure ControlMessage.Object where
  angles : List Double := []
  angularVelocities : List Double := []
  torques : List Double := []
  controlEvents : Map Bool := ∅
  values : List Double := []
  deriving DecidableEq

def ControlMessage.Object.schema : Schema ControlMessage.Object where
  empty := {}
  members := [
    { field := doublesField 1, get := angles, set := fun m x => { m with angles := x } },
    { field := doublesField 2, get := angularVelocities,
      set := fun m x => { m with angularVelocities := x } },
    { field := doublesField 3, get := torques, set := fun m x => { m with torques := x } },
    { field := .map 4 Scalar.bool.toValue, get := controlEvents,
      set := fun m x => { m with controlEvents := x } },
    { field := doublesField 5, get := values, set := fun m x => { m with values := x } }]

structure ControlMessage where
  messageType : MessageType := 0
  objects : Map ControlMessage.Object := ∅
  deriving DecidableEq

def ControlMessage.schema : Schema ControlMessage where
  empty := {}
  members := [
    { field := enumField 1, get := messageType, set := fun m x => { m with messageType := x } },
    { field := .map 2 (.message ControlMessage.Object.schema), get := objects,
      set := fun m x => { m with objects := x } }]

/-! ### SensorMessage -/

structure SensorMessage.Vec3 where
  arr : List Double := []
  deriving DecidableEq

def SensorMessage.Vec3.schema : Schema SensorMessage.Vec3 where
  empty := {}
  members := [
    { field := doublesField 1, get := arr, set := fun m x => { m with arr := x } }]

/-- `oneof value` of `SensorMessage.Sensor`. -/
inductive SensorMessage.Sensor.Value
  | angle (x : Double)
  | angularVelocity1d (x : Double)
  | torque1d (x : Double)
  | position (v : SensorMessage.Vec3)
  | rpy (v : SensorMessage.Vec3)
  | activated (b : Bool)
  | acceleration3d (v : SensorMessage.Vec3)
  | force3d (v : SensorMessage.Vec3)
  | torque3d (v : SensorMessage.Vec3)
  | angularAcceleration3d (v : SensorMessage.Vec3)
  | velocity3d (v : SensorMessage.Vec3)
  | angularVelocity3d (v : SensorMessage.Vec3)
  | force1d (x : Double)
  deriving DecidableEq

/-- `value_case`: the number of the field that is set. -/
def SensorMessage.Sensor.Value.case : SensorMessage.Sensor.Value → ℕ
  | .angle _ => 1
  | .angularVelocity1d _ => 2
  | .torque1d _ => 3
  | .position _ => 4
  | .rpy _ => 5
  | .activated _ => 6
  | .acceleration3d _ => 7
  | .force3d _ => 8
  | .torque3d _ => 9
  | .angularAcceleration3d _ => 10
  | .velocity3d _ => 12
  | .angularVelocity3d _ => 13
  | .force1d _ => 14

structure SensorMessage.Sensor where
  value : Option SensorMessage.Sensor.Value := none
  deriving DecidableEq

section Sensor

open SensorMessage.Sensor (Value)

/-- A case of the oneof that holds a double, a bool, or a vector. -/
abbrev doubleAlt (n : ℕ) (inj : Double → Value) (proj : Value → Option Double) : Alt Value :=
  { num := n, value := Scalar.double.toValue, inj, proj }

abbrev boolAlt (n : ℕ) (inj : Bool → Value) (proj : Value → Option Bool) : Alt Value :=
  { num := n, value := Scalar.bool.toValue, inj, proj }

abbrev vec3Alt (n : ℕ) (inj : SensorMessage.Vec3 → Value)
    (proj : Value → Option SensorMessage.Vec3) : Alt Value :=
  { num := n, value := .message SensorMessage.Vec3.schema, inj, proj }

def SensorMessage.Sensor.alts : List (Alt Value) := [
  doubleAlt 1 .angle fun | .angle x => some x | _ => none,
  doubleAlt 2 .angularVelocity1d fun | .angularVelocity1d x => some x | _ => none,
  doubleAlt 3 .torque1d fun | .torque1d x => some x | _ => none,
  vec3Alt 4 .position fun | .position v => some v | _ => none,
  vec3Alt 5 .rpy fun | .rpy v => some v | _ => none,
  boolAlt 6 .activated fun | .activated b => some b | _ => none,
  vec3Alt 7 .acceleration3d fun | .acceleration3d v => some v | _ => none,
  vec3Alt 8 .force3d fun | .force3d v => some v | _ => none,
  vec3Alt 9 .torque3d fun | .torque3d v => some v | _ => none,
  vec3Alt 10 .angularAcceleration3d fun | .angularAcceleration3d v => some v | _ => none,
  vec3Alt 12 .velocity3d fun | .velocity3d v => some v | _ => none,
  vec3Alt 13 .angularVelocity3d fun | .angularVelocity3d v => some v | _ => none,
  doubleAlt 14 .force1d fun | .force1d x => some x | _ => none]

end Sensor

def SensorMessage.Sensor.schema : Schema SensorMessage.Sensor where
  empty := {}
  members := [
    { field := .oneof SensorMessage.Sensor.alts, get := value,
      set := fun m x => { m with value := x } }]

structure SensorMessage.Sensors where
  sensor : List SensorMessage.Sensor := []
  deriving DecidableEq

def SensorMessage.Sensors.schema : Schema SensorMessage.Sensors where
  empty := {}
  members := [
    { field := .repeated 1 (.message SensorMessage.Sensor.schema), get := sensor,
      set := fun m x => { m with sensor := x } }]

structure SensorMessage.Object where
  angleSensors : List Double := []
  angularVelocitySensors : List Double := []
  torqueSensors : List Double := []
  objectSensors : List SensorMessage.Sensor := []
  forceSensors : List SensorMessage.Vec3 := []
  sensors : Map SensorMessage.Sensors := ∅
  deriving DecidableEq

def SensorMessage.Object.schema : Schema SensorMessage.Object where
  empty := {}
  members := [
    { field := doublesField 1, get := angleSensors,
      set := fun m x => { m with angleSensors := x } },
    { field := doublesField 2, get := angularVelocitySensors,
      set := fun m x => { m with angularVelocitySensors := x } },
    { field := doublesField 3, get := torqueSensors,
      set := fun m x => { m with torqueSensors := x } },
    { field := .repeated 4 (.message SensorMessage.Sensor.schema), get := objectSensors,
      set := fun m x => { m with objectSensors := x } },
    { field := .repeated 5 (.message SensorMessage.Vec3.schema), get := forceSensors,
      set := fun m x => { m with forceSensors := x } },
    { field := .map 6 (.message SensorMessage.Sensors.schema), get := sensors,
      set := fun m x => { m with sensors := x } }]

structure SensorMessage.SimulationVariables where
  simulatedTime : Double := 0
  deriving DecidableEq

def SensorMessage.SimulationVariables.schema : Schema SensorMessage.SimulationVariables where
  empty := {}
  members := [
    { field := doubleField 1, get := simulatedTime,
      set := fun m x => { m with simulatedTime := x } }]

structure SensorMessage where
  messageType : MessageType := 0
  objects : Map SensorMessage.Object := ∅
  simVars : Option SensorMessage.SimulationVariables := none
  deriving DecidableEq

def SensorMessage.schema : Schema SensorMessage where
  empty := {}
  members := [
    { field := enumField 1, get := messageType, set := fun m x => { m with messageType := x } },
    { field := .map 3 (.message SensorMessage.Object.schema), get := objects,
      set := fun m x => { m with objects := x } },
    { field := .optional 4 (.message SensorMessage.SimulationVariables.schema), get := simVars,
      set := fun m x => { m with simVars := x } }]

end Protobuf

end Click
