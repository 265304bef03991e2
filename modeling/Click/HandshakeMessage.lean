/-
HandshakeMessage and its accessors.

The accessors of names go over a map, in the order of its hash table; here the
names come in order.
-/
import Click.Containers

open Proto

namespace Click.HandshakeMessage

structure SimulationSettings where
  timeStep : Double
  deriving DecidableEq

variable (pm : Protobuf.HandshakeMessage)

def objects : List Str := pm.objects.keys

def controlsInOrder (objectname : Str) : Except Fault (List Str) :=
  (Protobuf.Map.at pm.objects objectname).map (·.controlsInOrder)

def controlTypesInOrder (objectname : Str) : Except Fault (List ValueType) :=
  (Protobuf.Map.at pm.objects objectname).map (·.controlTypesInOrder)

def jointSensorsInOrder (objectname : Str) : Except Fault (List Str) :=
  (Protobuf.Map.at pm.objects objectname).map (·.jointSensorsInOrder)

def jointSensors (objectname : Str) : Except Fault (List ValueType) :=
  (Protobuf.Map.at pm.objects objectname).map (·.jointSensors)

def sensors (objectname sensorname : Str) : Except Fault (List ValueType) :=
  (Protobuf.Map.at pm.objects objectname).bind fun object =>
    (Protobuf.Map.at object.sensors sensorname).map (·.types)

def objectSensors (objectname : Str) : Except Fault (List ValueType) :=
  (Protobuf.Map.at pm.objects objectname).map (·.objectSensors)

def controlEvents (objectname : Str) : Except Fault (List Str) :=
  (Protobuf.Map.at pm.objects objectname).map (·.controlEvents.keys)

def controlEvent (objectname eventname : Str) : Except Fault ValueType :=
  (Protobuf.Map.at pm.objects objectname).bind fun object =>
    Protobuf.Map.at object.controlEvents eventname

/-- `simsettings()` is the default message where none is present. -/
def simulationSettings : SimulationSettings := ⟨(pm.simSettings.getD {}).timeStep⟩

def controlType : ValueType := pm.controlType

end Click.HandshakeMessage
