/-
SensorMessageBuilder.

The builder keeps pointers to the current object and the current sensor, set by
`object` and `withSensor`.  The latter assigns a fresh entry, so a sensor that is
opened again is emptied.  Object sensors and readings are appended, everything
else is assigned.

* `pointersSet_iff_not_timeFirst` — `withSimulatedTime` returns an interface that
  offers the methods of an object before there is one; the calls of a chain find
  their pointers set exactly when the first call after such a start opens an object;
* `convert_value` — a reading given to a typed setter is read back with its type.
-/
import Click.SensorMessage
import Click.Fluent.Ledger

open Proto Fluent

namespace Click

/-- The setters of an `AddSensorBuilder`. -/
inductive TypedSetter
  | withAngle (angle : Double)
  | withAngularVelocity1d (angular_velocity : Double)
  | withTorque1d (torque : Double)
  | withForce1d (force : Double)
  | withPosition_ (vec3 : Vec3)
  | withRPY_ (vec3 : Vec3)
  | withActivated (activated : Bool)
  | withAcceleration3d (vec3 : Vec3)
  | withForce3d (vec3 : Vec3)
  | withTorque3d (vec3 : Vec3)
  | withAngularAcceleration3d (vec3 : Vec3)
  | withVelocity3d (vec3 : Vec3)
  | withAngularVelocity3d (vec3 : Vec3)
  deriving DecidableEq

/-- `mutable_…()->mutable_arr()->Assign(vec3.begin(), vec3.end())` on a new vector. -/
def assign (vec3 : Vec3) : Protobuf.SensorMessage.Vec3 := ⟨vec3.toList⟩

/-- The value a typed setter adds to the current sensor. -/
def TypedSetter.value : TypedSetter → Protobuf.SensorMessage.Sensor.Value
  | .withAngle angle => .angle angle
  | .withAngularVelocity1d angular_velocity => .angularVelocity1d angular_velocity
  | .withTorque1d torque => .torque1d torque
  | .withForce1d force => .force1d force
  | .withPosition_ vec3 => .position (assign vec3)
  | .withRPY_ vec3 => .rpy (assign vec3)
  | .withActivated activated => .activated activated
  | .withAcceleration3d vec3 => .acceleration3d (assign vec3)
  | .withForce3d vec3 => .force3d (assign vec3)
  | .withTorque3d vec3 => .torque3d (assign vec3)
  | .withAngularAcceleration3d vec3 => .angularAcceleration3d (assign vec3)
  | .withVelocity3d vec3 => .velocity3d (assign vec3)
  | .withAngularVelocity3d vec3 => .angularVelocity3d (assign vec3)

/-- The reading a typed setter stands for. -/
def TypedSetter.reading : TypedSetter → Sensor
  | .withAngle angle => ⟨ValueType.Angle, .angle angle⟩
  | .withAngularVelocity1d angular_velocity =>
    ⟨ValueType.AngularVelocity1D, .angularVelocity1d angular_velocity⟩
  | .withTorque1d torque => ⟨ValueType.Torque1D, .torque1d torque⟩
  | .withForce1d force => ⟨ValueType.Force1D, .force1d force⟩
  | .withPosition_ vec3 => ⟨ValueType.Position, .position vec3⟩
  | .withRPY_ vec3 => ⟨ValueType.RPY, .rpy vec3⟩
  | .withActivated activated => ⟨ValueType.Activated, .activated activated⟩
  | .withAcceleration3d vec3 => ⟨ValueType.Acceleration3D, .acceleration3d vec3⟩
  | .withForce3d vec3 => ⟨ValueType.Force3D, .force3d vec3⟩
  | .withTorque3d vec3 => ⟨ValueType.Torque3D, .torque3d vec3⟩
  | .withAngularAcceleration3d vec3 =>
    ⟨ValueType.AngularAcceleration3D, .angularAcceleration3d vec3⟩
  | .withVelocity3d vec3 => ⟨ValueType.Velocity3D, .velocity3d vec3⟩
  | .withAngularVelocity3d vec3 => ⟨ValueType.AngularVelocity3D, .angularVelocity3d vec3⟩

theorem copy_n_assign (vec3 : Vec3) : copy_n (assign vec3) = .ok vec3 := by
  have hlen : 3 ≤ (assign vec3).arr.length := by simp [assign]
  obtain ⟨v, hv, hthree⟩ := SensorMessage.copy_n_of_length hlen
  rw [hv]
  congr 1
  apply Vector.toList_inj.mp
  rw [hthree, assign, List.take_of_length_le (by simp)]

/-- **A reading given to a typed setter is read back**, with its type. -/
theorem convert_value (setter : TypedSetter) :
    SensorMessage.convert ⟨some setter.value⟩ = .ok setter.reading := by
  cases setter <;> simp only [TypedSetter.value, SensorMessage.convert, copy_n_assign] <;> rfl

/-- `SensorMessageBuilderImpl`; the pointers are `none` until they are set, and a
pointer to a sensor is the name of its object and its own. -/
structure SensorMessageBuilderImpl where
  message : Protobuf.SensorMessage
  currObject : Option Str
  currSensor : Option (Str × Str)
  deriving DecidableEq

namespace SensorMessageBuilderImpl

/-! ### Methods -/

def builder : SensorMessageBuilderImpl where
  message := { messageType := MessageType.SensorMessageType }
  currObject := none
  currSensor := none

variable (b : SensorMessageBuilderImpl)

/-- Write through `currObject`. -/
def onCurrObject (f : Protobuf.SensorMessage.Object → Protobuf.SensorMessage.Object) :
    Except Fault SensorMessageBuilderImpl :=
  match b.currObject with
  | none => .error .uninitializedPointer
  | some name => .ok { b with
      message := { b.message with objects := Protobuf.Map.update b.message.objects name f } }

/-- Write through `currSensor`. -/
def onCurrSensor (f : Protobuf.SensorMessage.Sensors → Protobuf.SensorMessage.Sensors) :
    Except Fault SensorMessageBuilderImpl :=
  match b.currSensor with
  | none => .error .uninitializedPointer
  | some (name, sensor) => .ok { b with
      message := { b.message with
        objects := Protobuf.Map.update b.message.objects name fun o =>
          { o with sensors := Protobuf.Map.update o.sensors sensor f } } }

def object (name : Str) : SensorMessageBuilderImpl :=
  { b with
    message := { b.message with objects := Protobuf.Map.subscript b.message.objects name {} }
    currObject := some name }

def withSimulatedTime (time : Double) : SensorMessageBuilderImpl :=
  { b with
    message := { b.message with
      simVars := some { b.message.simVars.getD {} with simulatedTime := time } } }

def withAngles (angles : List Double) : Except Fault SensorMessageBuilderImpl :=
  b.onCurrObject fun o => { o with angleSensors := angles }

def withPosition (vec3 : Vec3) : Except Fault SensorMessageBuilderImpl :=
  b.onCurrObject fun o =>
    { o with objectSensors := o.objectSensors ++ [⟨some (.position (assign vec3))⟩] }

def withRPY (vec3 : Vec3) : Except Fault SensorMessageBuilderImpl :=
  b.onCurrObject fun o =>
    { o with objectSensors := o.objectSensors ++ [⟨some (.rpy (assign vec3))⟩] }

/-- A default sensor is assigned to the entry, whatever it held. -/
def withSensor (name : Str) : Except Fault SensorMessageBuilderImpl := do
  let b' ← b.onCurrObject fun o => { o with sensors := o.sensors.insert name {} }
  return { b' with currSensor := b.currObject.map fun o => (o, name) }

/-- `m_curr_sensor->add_sensor()`, with the value it is given. -/
def addSensor (value : Protobuf.SensorMessage.Sensor.Value) :
    Except Fault SensorMessageBuilderImpl :=
  b.onCurrSensor fun s => { s with sensor := s.sensor ++ [⟨some value⟩] }

def withAngle (angle : Double) := b.addSensor (.angle angle)

def withAngularVelocity1d (angular_velocity : Double) :=
  b.addSensor (.angularVelocity1d angular_velocity)

def withTorque1d (torque : Double) := b.addSensor (.torque1d torque)

def withForce1d (force : Double) := b.addSensor (.force1d force)

def withPosition_ (vec3 : Vec3) := b.addSensor (.position (assign vec3))

def withRPY_ (vec3 : Vec3) := b.addSensor (.rpy (assign vec3))

def withActivated (activated : Bool) := b.addSensor (.activated activated)

def withAcceleration3d (vec3 : Vec3) := b.addSensor (.acceleration3d (assign vec3))

def withForce3d (vec3 : Vec3) := b.addSensor (.force3d (assign vec3))

def withTorque3d (vec3 : Vec3) := b.addSensor (.torque3d (assign vec3))

def withAngularAcceleration3d (vec3 : Vec3) := b.addSensor (.angularAcceleration3d (assign vec3))

def withVelocity3d (vec3 : Vec3) := b.addSensor (.velocity3d (assign vec3))

def withAngularVelocity3d (vec3 : Vec3) := b.addSensor (.angularVelocity3d (assign vec3))

def withAngularVelocities (angles : List Double) : Except Fault SensorMessageBuilderImpl :=
  b.onCurrObject fun o => { o with angularVelocitySensors := angles }

def withTorques (torques : List Double) : Except Fault SensorMessageBuilderImpl :=
  b.onCurrObject fun o => { o with torqueSensors := torques }

def build : Message := ⟨.sensorMessage, b.message⟩

/-! ### Interfaces -/

def execTyped : TypedSetter → Except Fault SensorMessageBuilderImpl
  | .withAngle angle => b.withAngle angle
  | .withAngularVelocity1d angular_velocity => b.withAngularVelocity1d angular_velocity
  | .withTorque1d torque => b.withTorque1d torque
  | .withForce1d force => b.withForce1d force
  | .withPosition_ vec3 => b.withPosition_ vec3
  | .withRPY_ vec3 => b.withRPY_ vec3
  | .withActivated activated => b.withActivated activated
  | .withAcceleration3d vec3 => b.withAcceleration3d vec3
  | .withForce3d vec3 => b.withForce3d vec3
  | .withTorque3d vec3 => b.withTorque3d vec3
  | .withAngularAcceleration3d vec3 => b.withAngularAcceleration3d vec3
  | .withVelocity3d vec3 => b.withVelocity3d vec3
  | .withAngularVelocity3d vec3 => b.withAngularVelocity3d vec3

/-- The calls of a chain, `build` apart. -/
inductive Call
  | object (name : Str)
  | withSimulatedTime (time : Double)
  | withAngles (angles : List Double)
  | withAngularVelocities (angles : List Double)
  | withTorques (torques : List Double)
  | withPosition (vec3 : Vec3)
  | withRPY (vec3 : Vec3)
  | withSensor (name : Str)
  | typed (setter : TypedSetter)
  deriving DecidableEq

def exec : Call → Except Fault SensorMessageBuilderImpl
  | .object name => .ok (b.object name)
  | .withSimulatedTime time => .ok (b.withSimulatedTime time)
  | .withAngles angles => b.withAngles angles
  | .withAngularVelocities angles => b.withAngularVelocities angles
  | .withTorques torques => b.withTorques torques
  | .withPosition vec3 => b.withPosition vec3
  | .withRPY vec3 => b.withRPY vec3
  | .withSensor name => b.withSensor name
  | .typed setter => b.execTyped setter

inductive Interface
  | sensorMessageBuilder
  | addSensorValuesBuilder
  | addSensorBuilder
  deriving DecidableEq

def interfaces : Interfaces Interface Call where
  start := .sensorMessageBuilder
  offers
    | .sensorMessageBuilder, .object _ => some .addSensorValuesBuilder
    -- returned although no object has been opened
    | .sensorMessageBuilder, .withSimulatedTime _ => some .addSensorValuesBuilder
    | .addSensorValuesBuilder, .object _ => some .addSensorValuesBuilder
    | .addSensorValuesBuilder, .withAngles _ => some .addSensorValuesBuilder
    | .addSensorValuesBuilder, .withAngularVelocities _ => some .addSensorValuesBuilder
    | .addSensorValuesBuilder, .withTorques _ => some .addSensorValuesBuilder
    | .addSensorValuesBuilder, .withPosition _ => some .addSensorValuesBuilder
    | .addSensorValuesBuilder, .withRPY _ => some .addSensorValuesBuilder
    | .addSensorValuesBuilder, .withSensor _ => some .addSensorBuilder
    | .addSensorBuilder, .typed _ => some .addSensorBuilder
    | .addSensorBuilder, .object _ => some .addSensorValuesBuilder
    | _, _ => none
  finishes
    | .sensorMessageBuilder => false
    | .addSensorValuesBuilder => true
    | .addSensorBuilder => true

/-- The message a chain builds. -/
def built (calls : List Call) : Except Fault Protobuf.SensorMessage :=
  (run exec builder calls).map (·.message)

/-! ### The current pointers -/

/-- The call writes through `currObject`. -/
def Call.usesObject : Call → Bool
  | .object _ | .withSimulatedTime _ | .typed _ => false
  | _ => true

/-- The call writes through `currSensor`. -/
def Call.usesSensor : Call → Bool
  | .typed _ => true
  | _ => false

/-- The object a call opens. -/
def Call.enters : Call → Option Str
  | .object name => some name
  | _ => none

/-- The sensor a call opens. -/
def Call.opens : Call → Option Str
  | .withSensor name => some name
  | _ => none

/-- The current sensor is one of the current object. -/
def SensorSet : Prop := ∃ name sensor, b.currObject = some name ∧ b.currSensor = some (name, sensor)

/-- The pointers the call follows have been set, that to the sensor on the object
that is current. -/
def PointersSet (c : Call) : Prop :=
  (c.usesObject = true → b.currObject.isSome) ∧ (c.usesSensor = true → b.SensorSet)

/-- Once an object has been opened. -/
def Inv : Interface → SensorMessageBuilderImpl → Prop
  | .sensorMessageBuilder, _ => False
  | .addSensorValuesBuilder, b => b.currObject.isSome
  | .addSensorBuilder, b => b.SensorSet

/-- What a call that writes through `currObject` does to the object. -/
def Call.apply (o : Protobuf.SensorMessage.Object) : Call → Protobuf.SensorMessage.Object
  | .withAngles angles => { o with angleSensors := angles }
  | .withAngularVelocities angles => { o with angularVelocitySensors := angles }
  | .withTorques torques => { o with torqueSensors := torques }
  | .withPosition vec3 =>
    { o with objectSensors := o.objectSensors ++ [⟨some (.position (assign vec3))⟩] }
  | .withRPY vec3 =>
    { o with objectSensors := o.objectSensors ++ [⟨some (.rpy (assign vec3))⟩] }
  | .withSensor name => { o with sensors := o.sensors.insert name {} }
  | _ => o

variable {b}

/-- A call that writes through `currObject` changes that object, and the current
sensor if it is `withSensor`. -/
theorem exec_of_usesObject {c : Call} (hc : c.usesObject = true) {name : Str}
    (hname : b.currObject = some name) : ∃ b', b.exec c = .ok b' ∧ b'.currObject = some name ∧
      b'.message.objects = Protobuf.Map.update b.message.objects name c.apply ∧
      ((∃ sensor, c = .withSensor sensor ∧ b'.currSensor = some (name, sensor)) ∨
        (∀ sensor, c ≠ .withSensor sensor) ∧ b'.currSensor = b.currSensor) := by
  cases c with
  | object | withSimulatedTime | typed => exact absurd hc (by simp [Call.usesObject])
  | withSensor sensor =>
    simp only [exec, withSensor, onCurrObject, hname]
    exact ⟨_, rfl, rfl, rfl, .inl ⟨sensor, rfl, rfl⟩⟩
  | _ =>
    simp only [exec, withAngles, withAngularVelocities, withTorques, withPosition, withRPY,
      onCurrObject, hname]
    exact ⟨_, rfl, rfl, rfl, .inr ⟨by simp, rfl⟩⟩

theorem execTyped_eq (setter : TypedSetter) :
    b.execTyped setter = b.addSensor setter.value := by
  cases setter <;> rfl

theorem exec_typed_of_currSensor (setter : TypedSetter) {name sensor : Str}
    (hs : b.currSensor = some (name, sensor)) :
    ∃ b', b.exec (.typed setter) = .ok b' ∧ b'.currObject = b.currObject ∧
      b'.currSensor = b.currSensor ∧
      b'.message.objects = Protobuf.Map.update b.message.objects name fun o =>
        { o with sensors := Protobuf.Map.update o.sensors sensor fun s =>
            { s with sensor := s.sensor ++ [⟨some setter.value⟩] } } := by
  rw [exec, execTyped_eq, addSensor, onCurrSensor, hs]
  exact ⟨_, rfl, rfl, rfl, rfl⟩

theorem exec_of_pointersSet {c : Call} (h : b.PointersSet c) : ∃ b', b.exec c = .ok b' := by
  rcases hc : c.usesObject with _ | _
  · cases c with
    | typed setter =>
      obtain ⟨name, sensor, -, hs⟩ := h.2 rfl
      obtain ⟨b', hb, -⟩ := exec_typed_of_currSensor setter hs
      exact ⟨b', hb⟩
    | object => exact ⟨_, rfl⟩
    | withSimulatedTime => exact ⟨_, rfl⟩
    | _ => exact absurd hc (by simp [Call.usesObject])
  · obtain ⟨name, hname⟩ := Option.isSome_iff_exists.mp (h.1 hc)
    obtain ⟨b', hb, -⟩ := exec_of_usesObject hc hname
    exact ⟨b', hb⟩

theorem onCurrObject_eq_ok
    {f : Protobuf.SensorMessage.Object → Protobuf.SensorMessage.Object}
    {b' : SensorMessageBuilderImpl} : b.onCurrObject f = .ok b' ↔ ∃ name,
      b.currObject = some name ∧ b' = { b with message := { b.message with
        objects := Protobuf.Map.update b.message.objects name f } } := by
  rw [onCurrObject]
  rcases b.currObject with _ | name
  · simp
  · simp [eq_comm]

theorem onCurrSensor_eq_ok
    {f : Protobuf.SensorMessage.Sensors → Protobuf.SensorMessage.Sensors}
    {b' : SensorMessageBuilderImpl} : b.onCurrSensor f = .ok b' ↔ ∃ name sensor,
      b.currSensor = some (name, sensor) ∧ b' = { b with message := { b.message with
        objects := Protobuf.Map.update b.message.objects name fun o =>
          { o with sensors := Protobuf.Map.update o.sensors sensor f } } } := by
  rw [onCurrSensor]
  rcases b.currSensor with _ | ⟨name, sensor⟩
  · simp
  · simp [eq_comm]

/-- What a call does: it opens an object, sets the time, or writes through one of
the pointers. -/
theorem exec_cases {c : Call} {b' : SensorMessageBuilderImpl} (h : b.exec c = .ok b') :
    (∃ name, c = .object name ∧ b' = b.object name) ∨
    (∃ time, c = .withSimulatedTime time ∧ b' = b.withSimulatedTime time) ∨
    (∃ name, c.usesObject = true ∧ b.currObject = some name ∧ b' = { b with
      message := { b.message with
        objects := Protobuf.Map.update b.message.objects name c.apply }
      currSensor := (c.opens.map fun sensor => (name, sensor)).or b.currSensor }) ∨
    ∃ setter name sensor, c = .typed setter ∧ b.currSensor = some (name, sensor) ∧
      b' = { b with message := { b.message with
        objects := Protobuf.Map.update b.message.objects name fun o =>
          { o with sensors := Protobuf.Map.update o.sensors sensor fun s =>
              { s with sensor := s.sensor ++ [⟨some setter.value⟩] } } } } := by
  cases c with
  | object name => exact .inl ⟨name, rfl, (Except.ok.inj h).symm⟩
  | withSimulatedTime time => exact .inr (.inl ⟨time, rfl, (Except.ok.inj h).symm⟩)
  | typed setter =>
    rw [exec, execTyped_eq, addSensor, onCurrSensor_eq_ok] at h
    obtain ⟨name, sensor, hs, rfl⟩ := h
    exact .inr (.inr (.inr ⟨setter, name, sensor, rfl, hs, rfl⟩))
  | withSensor sensor =>
    obtain ⟨b₁, hb, h⟩ := bind_eq_ok.mp h
    obtain ⟨name, hname, rfl⟩ := onCurrObject_eq_ok.mp hb
    obtain rfl := Except.ok.inj h
    refine .inr (.inr (.inl ⟨name, rfl, hname, ?_⟩))
    simp [Call.opens, Call.apply, hname]
  | _ =>
    obtain ⟨name, hname, rfl⟩ := onCurrObject_eq_ok.mp h
    exact .inr (.inr (.inl ⟨name, rfl, hname, rfl⟩))

/-- After an object has been opened, the interfaces offer a call only where its
pointers have been set. -/
theorem inv_step {i j : Interface} {c : Call} (hi : Inv i b) (ho : interfaces.offers i c = some j) :
    b.PointersSet c ∧ ∀ b', b.exec c = .ok b' → Inv j b' := by
  cases i with
  | sensorMessageBuilder => exact hi.elim
  | addSensorBuilder =>
    cases c with
    | object name =>
      obtain rfl := Option.some.inj ho
      refine ⟨⟨by simp [Call.usesObject], by simp [Call.usesSensor]⟩, fun b' hb => ?_⟩
      rw [← Except.ok.inj hb]
      rfl
    | typed setter =>
      obtain rfl := Option.some.inj ho
      refine ⟨⟨by simp [Call.usesObject], fun _ => hi⟩, fun b' hb => ?_⟩
      obtain ⟨name, sensor, hname, hs⟩ := hi
      obtain ⟨b'', hb'', hcurr, hsens, -⟩ := exec_typed_of_currSensor setter hs
      rw [hb'', Except.ok.injEq] at hb
      rw [← hb]
      exact ⟨name, sensor, hcurr.trans hname, hsens.trans hs⟩
    | _ => exact absurd ho (by simp [interfaces])
  | addSensorValuesBuilder =>
    obtain ⟨name, hname⟩ := Option.isSome_iff_exists.mp hi
    rcases hc : c.usesObject with _ | _
    · cases c with
      | object name =>
        obtain rfl := Option.some.inj ho
        refine ⟨⟨fun _ => hi, by simp [Call.usesSensor]⟩, fun b' hb => ?_⟩
        rw [← Except.ok.inj hb]
        rfl
      | withSimulatedTime | typed => exact absurd ho (by simp [interfaces])
      | _ => exact absurd hc (by simp [Call.usesObject])
    · -- `withSensor` moves on to the sensor's interface, the others stay
      obtain ⟨b'', hb'', hcurr, -, hsens⟩ := exec_of_usesObject hc hname
      refine ⟨⟨fun _ => hi, fun hs => ?_⟩, fun b' hb => ?_⟩
      · cases c <;> simp_all [Call.usesSensor, Call.usesObject]
      · rw [hb'', Except.ok.injEq] at hb
        subst hb
        rcases hsens with ⟨sensor, rfl, hs⟩ | ⟨hne, -⟩
        · obtain rfl := Option.some.inj ho
          exact ⟨name, sensor, hcurr, hs⟩
        · have hj : j = .addSensorValuesBuilder := by
            cases c <;> simp_all [interfaces]
          rw [hj]
          exact Option.isSome_iff_exists.mpr ⟨name, hcurr⟩

/-- The chain starts with `withSimulatedTime`, and the call after it does not open
an object. -/
def TimeFirst (calls : List Call) : Prop :=
  ∃ time c rest, calls = .withSimulatedTime time :: c :: rest ∧ ∀ name, c ≠ .object name

theorem pointersSet_of_object {name : Str} {calls : List Call} {j : Interface}
    (h : interfaces.follow .addSensorValuesBuilder calls = some j) :
    EachCall exec PointersSet (b.object name) calls :=
  eachCall_of_invariant (P := Inv) inv_step (i := .addSensorValuesBuilder) rfl h

/-- **When the calls of a chain find their pointers set**: unless the chain starts
with `withSimulatedTime` and goes on with a call that needs an object. -/
theorem pointersSet_iff_not_timeFirst (chain : Chain interfaces) :
    EachCall exec PointersSet builder chain.calls ↔ ¬ TimeFirst chain.calls := by
  obtain ⟨calls, last, hadm⟩ := chain
  change interfaces.follow .sensorMessageBuilder calls = some last at hadm
  rcases calls with _ | ⟨c, calls⟩
  · exact ⟨fun _ ⟨_, _, _, h, _⟩ => absurd h (by simp), fun _ => trivial⟩
  · -- the first interface offers two calls
    obtain ⟨j, hj, hadm⟩ := Option.bind_eq_some_iff.mp hadm
    cases c with
    | object name =>
      obtain rfl := Option.some.inj hj
      refine ⟨fun _ ⟨_, _, _, h, _⟩ => absurd h (by simp), fun _ => ⟨?_, fun b' hb => ?_⟩⟩
      · exact ⟨by simp [Call.usesObject], by simp [Call.usesSensor]⟩
      · rw [← Except.ok.inj hb]
        exact pointersSet_of_object hadm
    | withSimulatedTime time =>
      obtain rfl := Option.some.inj hj
      rcases calls with _ | ⟨c, calls⟩
      · refine ⟨fun _ ⟨_, _, _, h, _⟩ => absurd h (by simp), fun _ => ⟨?_, fun _ _ => trivial⟩⟩
        exact ⟨by simp [Call.usesObject], by simp [Call.usesSensor]⟩
      · constructor
        · rintro ⟨-, hrest⟩ ⟨t, c', rest, h, hne⟩
          obtain ⟨-, hc⟩ := List.cons.inj h
          obtain ⟨rfl, -⟩ := List.cons.inj hc
          have hset := (hrest _ rfl).1.1
          -- whatever `AddSensorValuesBuilder` offers but `object` needs an object
          have huses : c.usesObject = true := by
            obtain ⟨k, hk, -⟩ := Option.bind_eq_some_iff.mp hadm
            cases c <;> simp_all [Call.usesObject, interfaces]
          exact absurd (hset huses) (by simp [withSimulatedTime, builder])
        · intro hnot
          obtain ⟨name, rfl⟩ : ∃ name, c = .object name := by
            by_contra hne
            exact hnot ⟨time, c, calls, rfl, not_exists.mp hne⟩
          refine ⟨⟨by simp [Call.usesObject], by simp [Call.usesSensor]⟩, fun b' hb => ?_⟩
          refine ⟨⟨by simp [Call.usesObject], by simp [Call.usesSensor]⟩, fun b'' hb' => ?_⟩
          obtain ⟨k, hk, hadm⟩ := Option.bind_eq_some_iff.mp hadm
          obtain rfl := Option.some.inj hk
          rw [← Except.ok.inj hb']
          exact pointersSet_of_object hadm
    | _ => exact absurd hj (by simp [interfaces])

/-! ### messageType -/

/-- No call touches the `messageType`. -/
theorem exec_messageType {c : Call} {b' : SensorMessageBuilderImpl} (h : b.exec c = .ok b') :
    b'.message.messageType = b.message.messageType := by
  rcases exec_cases h with ⟨name, -, rfl⟩ | ⟨time, -, rfl⟩ | ⟨name, -, -, rfl⟩ |
    ⟨setter, name, sensor, -, -, rfl⟩ <;> rfl

theorem built_messageType {calls : List Call} {m : Protobuf.SensorMessage}
    (hm : built calls = .ok m) : m.messageType = MessageType.SensorMessageType := by
  obtain ⟨b, hb, rfl⟩ := map_eq_ok.mp hm
  exact run_invariant (P := fun b => b.message.messageType = MessageType.SensorMessageType)
    (fun hs h => (exec_messageType h).trans hs) rfl hb

end SensorMessageBuilderImpl

end Click
