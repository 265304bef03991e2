/-
ControlMessage and its accessors.
-/
import Click.Containers

open Proto

namespace Click.ControlMessage

variable (control_m : Protobuf.ControlMessage)

def has_object (objectname : Str) : Bool := control_m.objects.contains objectname

def angles (objectname : Str) : Except Fault (List Double) :=
  (Protobuf.Map.at control_m.objects objectname).map (·.angles)

def values (objectname : Str) : Except Fault (List Double) :=
  (Protobuf.Map.at control_m.objects objectname).map (·.values)

def angularVelocities (objectname : Str) : Except Fault (List Double) :=
  (Protobuf.Map.at control_m.objects objectname).map (·.angularVelocities)

def torques (objectname : Str) : Except Fault (List Double) :=
  (Protobuf.Map.at control_m.objects objectname).map (·.torques)

def controlEvent (objectname controlname : Str) : Except Fault Bool :=
  (Protobuf.Map.at control_m.objects objectname).bind fun object =>
    Protobuf.Map.at object.controlEvents controlname

def hasControlEvent (objectname controlname : Str) : Bool :=
  match control_m.objects[objectname]? with
  | none => false
  | some object => object.controlEvents.contains controlname

end Click.ControlMessage
