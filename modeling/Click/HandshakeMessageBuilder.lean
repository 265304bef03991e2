/-
HandshakeMessageBuilder.

The builder keeps pointers to the current object and the current sensor, set by
`withRobot` and `withSensor`.  Of the lists of an object some are assigned
(`withControlsInOrder`, `withJointSensorsInOrder`) and the others appended to.

* `pointersSet` — every call that the interfaces admit finds its pointers set;
* `controls_simulates` — the controls and control types of an object are the entry
  of a ledger;
* `aligned_iff` — controls and control types given in pairs stay aligned exactly
  when all pairs but the last are empty.
-/
import Click.HandshakeMessage
import Click.Fluent.Ledger

open Proto Fluent

namespace Click

/-- `HandshakeMessageBuilderImpl`; the pointers are `none` until they are set, and
a pointer to a sensor is the name of its object and its own. -/
structure HandshakeMessageBuilderImpl where
  message : Protobuf.HandshakeMessage
  currObject : Option Str
  currSensor : Option (Str × Str)
  deriving DecidableEq

namespace HandshakeMessageBuilderImpl

/-! ### Methods -/

def builder : HandshakeMessageBuilderImpl where
  message := { messageType := MessageType.HandshakeMessageType, version := CURRENT_VERSION }
  currObject := none
  currSensor := none

variable (b : HandshakeMessageBuilderImpl)

/-- Write through `currObject`. -/
def onCurrObject (f : Protobuf.HandshakeMessage.Object → Protobuf.HandshakeMessage.Object) :
    Except Fault HandshakeMessageBuilderImpl :=
  match b.currObject with
  | none => .error .uninitializedPointer
  | some name => .ok { b with
      message := { b.message with objects := Protobuf.Map.update b.message.objects name f } }

/-- Write through `currSensor`. -/
def onCurrSensor (f : Protobuf.HandshakeMessage.Sensors → Protobuf.HandshakeMessage.Sensors) :
    Except Fault HandshakeMessageBuilderImpl :=
  match b.currSensor with
  | none => .error .uninitializedPointer
  | some (name, sensor) => .ok { b with
      message := { b.message with
        objects := Protobuf.Map.update b.message.objects name fun o =>
          { o with sensors := Protobuf.Map.update o.sensors sensor f } } }

def withSimulationSettings (simulation_settings : HandshakeMessage.SimulationSettings) :
    HandshakeMessageBuilderImpl :=
  { b with
    message := { b.message with
      simSettings := some { b.message.simSettings.getD {} with
        timeStep := simulation_settings.timeStep } } }

def withControlType (control_type : ValueType) : HandshakeMessageBuilderImpl :=
  { b with message := { b.message with controlType := control_type } }

def withRobot (name : Str) : HandshakeMessageBuilderImpl :=
  { b with
    message := { b.message with objects := Protobuf.Map.subscript b.message.objects name {} }
    currObject := some name }

def withControlsInOrder (order : List Str) : Except Fault HandshakeMessageBuilderImpl :=
  b.onCurrObject fun o => { o with controlsInOrder := order }

def withControlTypesInOrder (order : List ValueType) :
    Except Fault HandshakeMessageBuilderImpl :=
  b.onCurrObject fun o => { o with controlTypesInOrder := o.controlTypesInOrder ++ order }

def withJointSensorsInOrder (order : List Str) : Except Fault HandshakeMessageBuilderImpl :=
  b.onCurrObject fun o => { o with jointSensorsInOrder := order }

def withJointSensors (order : List ValueType) : Except Fault HandshakeMessageBuilderImpl :=
  b.onCurrObject fun o => { o with jointSensors := o.jointSensors ++ order }

/-- The entry of the sensor is looked up, and created if need be. -/
def withSensor (name : Str) : Except Fault HandshakeMessageBuilderImpl := do
  let b' ← b.onCurrObject fun o =>
    { o with sensors := Protobuf.Map.subscript o.sensors name {} }
  return { b' with currSensor := b.currObject.map fun o => (o, name) }

def withControlEvent (name : Str) (type : ValueType) :
    Except Fault HandshakeMessageBuilderImpl :=
  b.onCurrObject fun o => { o with controlEvents := o.controlEvents.insert name type }

def withObjectSensors (order : List ValueType) : Except Fault HandshakeMessageBuilderImpl :=
  b.onCurrObject fun o => { o with objectSensors := o.objectSensors ++ order }

def withTypesInOrder (order : List ValueType) : Except Fault HandshakeMessageBuilderImpl :=
  b.onCurrSensor fun s => { s with types := s.types ++ order }

def build : Message := ⟨.handshakeMessage, b.message⟩

/-! ### Interfaces -/

/-- The calls of a chain, `build` apart. -/
inductive Call
  | withSimulationSettings (simulation_settings : HandshakeMessage.SimulationSettings)
  | withControlType (control_type : ValueType)
  | withRobot (name : Str)
  | withControlsInOrder (order : List Str)
  | withControlTypesInOrder (order : List ValueType)
  | withJointSensorsInOrder (order : List Str)
  | withJointSensors (order : List ValueType)
  | withSensor (name : Str)
  | withControlEvent (name : Str) (type : ValueType)
  | withObjectSensors (order : List ValueType)
  | withTypesInOrder (order : List ValueType)
  deriving DecidableEq

def exec : Call → Except Fault HandshakeMessageBuilderImpl
  | .withSimulationSettings simulation_settings =>
    .ok (b.withSimulationSettings simulation_settings)
  | .withControlType control_type => .ok (b.withControlType control_type)
  | .withRobot name => .ok (b.withRobot name)
  | .withControlsInOrder order => b.withControlsInOrder order
  | .withControlTypesInOrder order => b.withControlTypesInOrder order
  | .withJointSensorsInOrder order => b.withJointSensorsInOrder order
  | .withJointSensors order => b.withJointSensors order
  | .withSensor name => b.withSensor name
  | .withControlEvent name type => b.withControlEvent name type
  | .withObjectSensors order => b.withObjectSensors order
  | .withTypesInOrder order => b.withTypesInOrder order

inductive Interface
  | handshakeMessageBuilder
  | addRobotBuilder
  | addHandshakeSensorBuilder
  deriving DecidableEq

def interfaces : Interfaces Interface Call where
  start := .handshakeMessageBuilder
  offers
    | .handshakeMessageBuilder, .withSimulationSettings _ => some .handshakeMessageBuilder
    | .handshakeMessageBuilder, .withControlType _ => some .handshakeMessageBuilder
    | .handshakeMessageBuilder, .withRobot _ => some .addRobotBuilder
    | .addRobotBuilder, .withControlsInOrder _ => some .addRobotBuilder
    | .addRobotBuilder, .withControlTypesInOrder _ => some .addRobotBuilder
    | .addRobotBuilder, .withJointSensorsInOrder _ => some .addRobotBuilder
    | .addRobotBuilder, .withJointSensors _ => some .addRobotBuilder
    | .addRobotBuilder, .withSensor _ => some .addHandshakeSensorBuilder
    | .addRobotBuilder, .withControlEvent _ _ => some .addRobotBuilder
    | .addRobotBuilder, .withObjectSensors _ => some .addRobotBuilder
    | .addRobotBuilder, .withRobot _ => some .addRobotBuilder
    | .addHandshakeSensorBuilder, .withTypesInOrder _ => some .addRobotBuilder
    | _, _ => none
  finishes _ := true

/-- The message a chain builds. -/
def built (calls : List Call) : Except Fault Protobuf.HandshakeMessage :=
  (run exec builder calls).map (·.message)

/-! ### The current pointers -/

/-- The call writes through `currObject`. -/
def Call.usesObject : Call → Bool
  | .withSimulationSettings _ | .withControlType _ | .withRobot _ | .withTypesInOrder _ => false
  | _ => true

/-- The call writes through `currSensor`. -/
def Call.usesSensor : Call → Bool
  | .withTypesInOrder _ => true
  | _ => false

/-- The sensor a call opens. -/
def Call.opens : Call → Option Str
  | .withSensor name => some name
  | _ => none

/-- The current sensor is one of the current object. -/
def SensorSet : Prop := ∃ name sensor, b.currObject = some name ∧ b.currSensor = some (name, sensor)

/-- The pointers the call follows have been set, that to the sensor on the object
that is current. -/
def PointersSet (c : Call) : Prop :=
  (c.usesObject = true → b.currObject.isSome) ∧ (c.usesSensor = true → b.SensorSet)

def Inv : Interface → HandshakeMessageBuilderImpl → Prop
  | .handshakeMessageBuilder, _ => True
  | .addRobotBuilder, b => b.currObject.isSome
  | .addHandshakeSensorBuilder, b => b.SensorSet

/-- What a call that writes through `currObject` does to the object. -/
def Call.apply (o : Protobuf.HandshakeMessage.Object) : Call → Protobuf.HandshakeMessage.Object
  | .withControlsInOrder order => { o with controlsInOrder := order }
  | .withControlTypesInOrder order =>
    { o with controlTypesInOrder := o.controlTypesInOrder ++ order }
  | .withJointSensorsInOrder order => { o with jointSensorsInOrder := order }
  | .withJointSensors order => { o with jointSensors := o.jointSensors ++ order }
  | .withSensor name => { o with sensors := Protobuf.Map.subscript o.sensors name {} }
  | .withControlEvent name type =>
    { o with controlEvents := o.controlEvents.insert name type }
  | .withObjectSensors order => { o with objectSensors := o.objectSensors ++ order }
  | _ => o

/-- What `withTypesInOrder` does to the object of the current sensor. -/
def appendTypes (sensor : Str) (order : List ValueType) (o : Protobuf.HandshakeMessage.Object) :
    Protobuf.HandshakeMessage.Object :=
  { o with sensors := Protobuf.Map.update o.sensors sensor fun s =>
      { s with types := s.types ++ order } }

variable {b}

/-- A call that writes through `currObject` changes that object, and the current
sensor if it is `withSensor`. -/
theorem exec_of_usesObject {c : Call} (hc : c.usesObject = true) {name : Str}
    (hname : b.currObject = some name) : ∃ b', b.exec c = .ok b' ∧ b'.currObject = some name ∧
      b'.message.objects = Protobuf.Map.update b.message.objects name c.apply ∧
      ((∃ sensor, c = .withSensor sensor ∧ b'.currSensor = some (name, sensor)) ∨
        (∀ sensor, c ≠ .withSensor sensor) ∧ b'.currSensor = b.currSensor) := by
  cases c with
  | withSimulationSettings | withControlType | withRobot | withTypesInOrder =>
    exact absurd hc (by simp [Call.usesObject])
  | withSensor sensor =>
    simp only [exec, withSensor, onCurrObject, hname]
    exact ⟨_, rfl, rfl, rfl, .inl ⟨sensor, rfl, rfl⟩⟩
  | _ =>
    simp only [exec, withControlsInOrder, withControlTypesInOrder, withJointSensorsInOrder,
      withJointSensors, withControlEvent, withObjectSensors, onCurrObject, hname]
    exact ⟨_, rfl, rfl, rfl, .inr ⟨by simp, rfl⟩⟩

theorem onCurrObject_eq_ok
    {f : Protobuf.HandshakeMessage.Object → Protobuf.HandshakeMessage.Object}
    {b' : HandshakeMessageBuilderImpl} : b.onCurrObject f = .ok b' ↔ ∃ name,
      b.currObject = some name ∧ b' = { b with message := { b.message with
        objects := Protobuf.Map.update b.message.objects name f } } := by
  rw [onCurrObject]
  rcases b.currObject with _ | name
  · simp
  · simp [eq_comm]

theorem onCurrSensor_eq_ok
    {f : Protobuf.HandshakeMessage.Sensors → Protobuf.HandshakeMessage.Sensors}
    {b' : HandshakeMessageBuilderImpl} : b.onCurrSensor f = .ok b' ↔ ∃ name sensor,
      b.currSensor = some (name, sensor) ∧ b' = { b with message := { b.message with
        objects := Protobuf.Map.update b.message.objects name fun o =>
          { o with sensors := Protobuf.Map.update o.sensors sensor f } } } := by
  rw [onCurrSensor]
  rcases b.currSensor with _ | ⟨name, sensor⟩
  · simp
  · simp [eq_comm]

/-- What a call does: it sets something of the message, opens an object, or writes
through one of the pointers. -/
theorem exec_cases {c : Call} {b' : HandshakeMessageBuilderImpl} (h : b.exec c = .ok b') :
    (∃ settings, c = .withSimulationSettings settings ∧ b' = b.withSimulationSettings settings) ∨
    (∃ type, c = .withControlType type ∧ b' = b.withControlType type) ∨
    (∃ name, c = .withRobot name ∧ b' = b.withRobot name) ∨
    (∃ name, c.usesObject = true ∧ b.currObject = some name ∧ b' = { b with
      message := { b.message with
        objects := Protobuf.Map.update b.message.objects name c.apply }
      currSensor := (c.opens.map fun sensor => (name, sensor)).or b.currSensor }) ∨
    ∃ order name sensor, c = .withTypesInOrder order ∧ b.currSensor = some (name, sensor) ∧
      b' = { b with message := { b.message with
        objects := Protobuf.Map.update b.message.objects name (appendTypes sensor order) } } := by
  cases c with
  | withSimulationSettings settings => exact .inl ⟨settings, rfl, (Except.ok.inj h).symm⟩
  | withControlType type => exact .inr (.inl ⟨type, rfl, (Except.ok.inj h).symm⟩)
  | withRobot name => exact .inr (.inr (.inl ⟨name, rfl, (Except.ok.inj h).symm⟩))
  | withTypesInOrder order =>
    obtain ⟨name, sensor, hs, rfl⟩ := onCurrSensor_eq_ok.mp h
    exact .inr (.inr (.inr (.inr ⟨order, name, sensor, rfl, hs, rfl⟩)))
  | withSensor sensor =>
    obtain ⟨b₁, hb, h⟩ := bind_eq_ok.mp h
    obtain ⟨name, hname, rfl⟩ := onCurrObject_eq_ok.mp hb
    obtain rfl := Except.ok.inj h
    refine .inr (.inr (.inr (.inl ⟨name, rfl, hname, ?_⟩)))
    simp [Call.opens, Call.apply, hname]
  | _ =>
    obtain ⟨name, hname, rfl⟩ := onCurrObject_eq_ok.mp h
    exact .inr (.inr (.inr (.inl ⟨name, rfl, hname, rfl⟩)))

theorem exec_of_pointersSet {c : Call} (h : b.PointersSet c) : ∃ b', b.exec c = .ok b' := by
  rcases hc : c.usesObject with _ | _
  · cases c with
    | withTypesInOrder order =>
      obtain ⟨name, sensor, -, hs⟩ := h.2 rfl
      simp only [exec, withTypesInOrder, onCurrSensor, hs]
      exact ⟨_, rfl⟩
    | withSimulationSettings => exact ⟨_, rfl⟩
    | withControlType => exact ⟨_, rfl⟩
    | withRobot => exact ⟨_, rfl⟩
    | _ => exact absurd hc (by simp [Call.usesObject])
  · obtain ⟨name, hname⟩ := Option.isSome_iff_exists.mp (h.1 hc)
    obtain ⟨b', hb, -⟩ := exec_of_usesObject hc hname
    exact ⟨b', hb⟩

/-- The interfaces offer a call only where its pointers have been set. -/
theorem inv_step {i j : Interface} {c : Call} (hi : Inv i b) (ho : interfaces.offers i c = some j) :
    b.PointersSet c ∧ ∀ b', b.exec c = .ok b' → Inv j b' := by
  cases i with
  | handshakeMessageBuilder =>
    cases c with
    | withRobot name =>
      obtain rfl := Option.some.inj ho
      refine ⟨⟨by simp [Call.usesObject], by simp [Call.usesSensor]⟩, fun b' hb => ?_⟩
      rw [← Except.ok.inj hb]
      rfl
    | withSimulationSettings | withControlType =>
      obtain rfl := Option.some.inj ho
      exact ⟨⟨by simp [Call.usesObject], by simp [Call.usesSensor]⟩, fun _ _ => trivial⟩
    | _ => exact absurd ho (by simp [interfaces])
  | addHandshakeSensorBuilder =>
    -- the one method offered follows the pointer `withSensor` has just set
    cases c with
    | withTypesInOrder order =>
      obtain rfl := Option.some.inj ho
      refine ⟨⟨by simp [Call.usesObject], fun _ => hi⟩, fun b' hb => ?_⟩
      obtain ⟨name, sensor, hname, hs⟩ := hi
      simp only [exec, withTypesInOrder, onCurrSensor, hs] at hb
      rw [← Except.ok.inj hb]
      exact Option.isSome_iff_exists.mpr ⟨name, hname⟩
    | _ => exact absurd ho (by simp [interfaces])
  | addRobotBuilder =>
    obtain ⟨name, hname⟩ := Option.isSome_iff_exists.mp hi
    rcases hc : c.usesObject with _ | _
    · cases c with
      | withRobot name =>
        obtain rfl := Option.some.inj ho
        refine ⟨⟨fun _ => hi, by simp [Call.usesSensor]⟩, fun b' hb => ?_⟩
        rw [← Except.ok.inj hb]
        rfl
      | withSimulationSettings | withControlType | withTypesInOrder =>
        exact absurd ho (by simp [interfaces])
      | _ => exact absurd hc (by simp [Call.usesObject])
    · obtain ⟨b'', hb'', hcurr, -, hsens⟩ := exec_of_usesObject hc hname
      refine ⟨⟨fun _ => hi, fun hs => ?_⟩, fun b' hb => ?_⟩
      · cases c <;> simp_all [Call.usesSensor, Call.usesObject]
      · rw [hb'', Except.ok.injEq] at hb
        subst hb
        rcases hsens with ⟨sensor, rfl, hs⟩ | ⟨hne, -⟩
        · obtain rfl := Option.some.inj ho
          exact ⟨name, sensor, hcurr, hs⟩
        · have hj : j = .addRobotBuilder := by
            cases c <;> simp_all [interfaces]
          rw [hj]
          exact Option.isSome_iff_exists.mpr ⟨name, hcurr⟩

/-- Every call of a chain finds its pointers set. -/
theorem pointersSet (chain : Chain interfaces) : EachCall exec PointersSet builder chain.calls :=
  eachCall_of_invariant (P := Inv) inv_step (i := .handshakeMessageBuilder) trivial
    chain.admitted

theorem run_chain (chain : Chain interfaces) : ∃ b, run exec builder chain.calls = .ok b :=
  run_of_eachCall exec_of_pointersSet (pointersSet chain)

/-! ### messageType -/

/-- No call touches the `messageType`. -/
theorem exec_messageType {c : Call} {b' : HandshakeMessageBuilderImpl} (h : b.exec c = .ok b') :
    b'.message.messageType = b.message.messageType := by
  rcases exec_cases h with ⟨settings, -, rfl⟩ | ⟨type, -, rfl⟩ | ⟨name, -, rfl⟩ |
    ⟨name, -, -, rfl⟩ | ⟨order, name, sensor, -, -, rfl⟩ <;> rfl

theorem built_messageType {calls : List Call} {m : Protobuf.HandshakeMessage}
    (hm : built calls = .ok m) : m.messageType = MessageType.HandshakeMessageType := by
  obtain ⟨b, hb, rfl⟩ := map_eq_ok.mp hm
  exact run_invariant (P := fun b => b.message.messageType = MessageType.HandshakeMessageType)
    (fun hs h => (exec_messageType h).trans hs) rfl hb

/-! ### Controls and control types -/

/-- The two calls that describe the controls of an object. -/
inductive Setting
  | controls (order : List Str)
  | types (order : List ValueType)

/-- The controls of an object and their types. -/
abbrev Controls := List Str × List ValueType

def controls (o : Protobuf.HandshakeMessage.Object) : Controls :=
  (o.controlsInOrder, o.controlTypesInOrder)

/-- Controls are assigned, types are appended. -/
def Setting.apply (x : Controls) : Setting → Controls
  | .controls order => (order, x.2)
  | .types order => (x.1, x.2 ++ order)

def Call.settings : Call → List (Event Str Setting)
  | .withRobot name => [.enter name]
  | .withControlsInOrder order => [.act (.controls order)]
  | .withControlTypesInOrder order => [.act (.types order)]
  | _ => []

abbrev controlsLedger : Ledger Setting Controls := Ledger.kept ([], []) Setting.apply

def lookControls (b : HandshakeMessageBuilderImpl) (name : Str) : Bool × Option Controls :=
  (decide (b.currObject = some name), b.message.objects[name]?.map controls)

/-- A call that writes through `currObject` changes the controls of the object as
its settings say. -/
theorem track_settings {c : Call} (hc : c.usesObject = true) (name : Str)
    (o : Option Protobuf.HandshakeMessage.Object) :
    c.settings.foldl (controlsLedger.track name) (true, o.map controls) =
      (true, o.map fun x => controls (c.apply x)) := by
  cases c with
  | withSimulationSettings | withControlType | withRobot | withTypesInOrder =>
    exact absurd hc (by simp [Call.usesObject])
  | _ => cases o <;> rfl

theorem track_settings_other {c : Call} (hc : ∀ name, c ≠ .withRobot name) (name : Str)
    (x : Option Controls) :
    c.settings.foldl (controlsLedger.track name) (false, x) = (false, x) := by
  cases c with
  | withRobot n => exact absurd rfl (hc n)
  | _ => rfl

theorem controls_simulates : controlsLedger.Simulates exec Call.settings lookControls where
  step := by
    intro b c b' hb name
    rcases exec_cases hb with ⟨settings, rfl, rfl⟩ | ⟨type, rfl, rfl⟩ | ⟨n, rfl, rfl⟩ |
      ⟨n, hc, hcurr, rfl⟩ | ⟨order, n, sensor, rfl, hs, rfl⟩
    · rfl
    · rfl
    · by_cases hn : n = name
      · subst hn
        rcases ho : b.message.objects[n]? with _ | o <;>
          simp [lookControls, withRobot, Call.settings, Ledger.track, ho, controls]
      · simp [lookControls, withRobot, Call.settings, Ledger.track, hn]
    · rw [lookControls, lookControls, hcurr, Protobuf.Map.getElem?_update]
      by_cases hn : n = name
      · subst hn
        rw [if_pos rfl, decide_eq_true rfl, track_settings hc, Option.map_map]
        rfl
      · have hother : ∀ m, c ≠ .withRobot m := by
          intro m hm
          rw [hm] at hc
          exact absurd hc (by simp [Call.usesObject])
        rw [if_neg hn, decide_eq_false (by simpa using hn), track_settings_other hother]
    · -- a sensor of the object is written to, which leaves its controls alone
      rw [lookControls, lookControls, Protobuf.Map.getElem?_update]
      by_cases hn : n = name
      · rw [if_pos hn, Option.map_map]
        rfl
      · rw [if_neg hn]
        rfl

/-- The settings made while `name` was current. -/
def settingsOn (name : Str) (calls : List Call) : List Setting :=
  acts name false (calls.flatMap Call.settings)

theorem settingsOn_of_not_opened {name : Str} {calls : List Call}
    (h : opened name (calls.flatMap Call.settings) = false) : settingsOn name calls = [] :=
  acts_eq_nil h

theorem built_controls {calls : List Call} {m : Protobuf.HandshakeMessage}
    (hm : built calls = .ok m) (name : Str) :
    m.objects[name]?.map controls = if opened name (calls.flatMap Call.settings) then
      some ((settingsOn name calls).foldl Setting.apply ([], [])) else none := by
  obtain ⟨b, hb, rfl⟩ := map_eq_ok.mp hm
  have hlook := controls_simulates.look_run hb name
  rw [show lookControls builder name = (false, none) from by simp [lookControls, builder]]
    at hlook
  have hval := congrArg Prod.snd hlook
  rw [kept_run name _ (by simp)] at hval
  simpa [lookControls, settingsOn] using hval

/-- The settings of one object come in pairs, in either order, of lists of one
length. -/
inductive Paired : List Setting → List Controls → Prop
  | nil : Paired [] []
  | controlsFirst {names : List Str} {types : List ValueType} {settings : List Setting}
      {pairs : List Controls} : names.length = types.length → Paired settings pairs →
      Paired (.controls names :: .types types :: settings) ((names, types) :: pairs)
  | typesFirst {names : List Str} {types : List ValueType} {settings : List Setting}
      {pairs : List Controls} : names.length = types.length → Paired settings pairs →
      Paired (.types types :: .controls names :: settings) ((names, types) :: pairs)

theorem Paired.length_eq {settings : List Setting} {pairs : List Controls}
    (h : Paired settings pairs) : ∀ p ∈ pairs, p.1.length = p.2.length := by
  induction h with
  | nil => exact fun p hp => absurd hp List.not_mem_nil
  | controlsFirst hlen _ ih => exact List.forall_mem_cons.mpr ⟨hlen, ih⟩
  | typesFirst hlen _ ih => exact List.forall_mem_cons.mpr ⟨hlen, ih⟩

/-- The controls are those of the last pair, the types those of all pairs. -/
theorem Paired.foldl_apply {settings : List Setting} {pairs : List Controls}
    (h : Paired settings pairs) (x : Controls) : settings.foldl Setting.apply x =
      ((pairs.getLast?.map Prod.fst).getD x.1, x.2 ++ pairs.flatMap Prod.snd) := by
  induction h generalizing x with
  | nil => simp
  | @controlsFirst names types settings pairs _ _ ih =>
    rw [List.foldl_cons, List.foldl_cons, ih]
    rcases hp : pairs.getLast? with _ | p <;>
      simp [Setting.apply, List.getLast?_cons, hp]
  | @typesFirst names types settings pairs _ _ ih =>
    rw [List.foldl_cons, List.foldl_cons, ih]
    rcases hp : pairs.getLast? with _ | p <;>
      simp [Setting.apply, List.getLast?_cons, hp]

/-- As many types as controls, and each the one the last pair gave for its
control. -/
def Aligned (m : Protobuf.HandshakeMessage) (name : Str) (pairs : List Controls) : Prop :=
  ∃ names types, HandshakeMessage.controlsInOrder m name = .ok names ∧
    HandshakeMessage.controlTypesInOrder m name = .ok types ∧ types.length = names.length ∧
    ∀ p ∈ pairs.getLast?, ∀ i < names.length, names[i]? = p.1[i]? ∧ types[i]? = p.2[i]?

theorem aligned_of_controls {m : Protobuf.HandshakeMessage} {name : Str}
    {settings : List Setting} {pairs : List Controls} (hp : Paired settings pairs)
    (hm : m.objects[name]?.map controls = some (settings.foldl Setting.apply ([], []))) :
    Aligned m name pairs ↔ ∀ p ∈ pairs.dropLast, p.1 = [] ∧ p.2 = [] := by
  obtain ⟨o, ho, hctl⟩ := Option.map_eq_some_iff.mp hm
  rw [hp.foldl_apply, List.nil_append] at hctl
  obtain ⟨hnames, htypes⟩ := Prod.mk.inj hctl
  have hlen := hp.length_eq
  have hn : HandshakeMessage.controlsInOrder m name = .ok o.controlsInOrder :=
    congrArg (Except.map _) (Protobuf.Map.at_of_some ho)
  have ht : HandshakeMessage.controlTypesInOrder m name = .ok o.controlTypesInOrder :=
    congrArg (Except.map _) (Protobuf.Map.at_of_some ho)
  rcases List.eq_nil_or_concat pairs with rfl | ⟨front, p, rfl⟩
  · refine ⟨fun _ q hq => absurd hq (by simp), fun _ => ⟨_, _, hn, ht, ?_, by simp⟩⟩
    rw [hnames, htypes]
    rfl
  · rw [List.concat_eq_append] at hnames htypes hlen ⊢
    rw [List.getLast?_concat, Option.map_some, Option.getD_some] at hnames
    rw [List.flatMap_append, List.flatMap_singleton] at htypes
    have hplen : p.1.length = p.2.length := hlen p (by simp)
    rw [List.dropLast_concat]
    constructor
    · rintro ⟨names, types, hn', ht', heq, -⟩ q hq
      rw [hn, Except.ok.injEq] at hn'
      rw [ht, Except.ok.injEq] at ht'
      -- the types of the earlier pairs are what there is too much of
      rw [← hn', ← ht', hnames, htypes, List.length_append] at heq
      have hzero : (front.flatMap Prod.snd).length = 0 := by omega
      have hq2 : q.2 = [] := List.flatMap_eq_nil_iff.mp (List.eq_nil_of_length_eq_zero hzero) q hq
      have hqlen : q.1.length = q.2.length := hlen q (List.mem_append_left _ hq)
      rw [hq2, List.length_nil] at hqlen
      exact ⟨List.eq_nil_of_length_eq_zero hqlen, hq2⟩
    · -- the types are those of the last pair, as its controls are
      intro hempty
      have hnil : front.flatMap Prod.snd = [] :=
        List.flatMap_eq_nil_iff.mpr fun q hq => (hempty q hq).2
      rw [hnil, List.nil_append] at htypes
      refine ⟨_, _, hn, ht, ?_, fun q hq i hi => ?_⟩
      · rw [hnames, htypes, hplen]
      · rw [List.getLast?_concat] at hq
        obtain rfl := Option.mem_some.mp hq
        rw [hnames, htypes]
        exact ⟨rfl, rfl⟩

/-- **When controls and control types stay aligned.**  In the message built by a
chain that gives the controls of each object and their types in pairs, they are
aligned exactly when, for each object, all pairs but the last are empty. -/
theorem aligned_iff (chain : Chain interfaces) (pairs : Str → List Controls)
    (hp : ∀ name, Paired (settingsOn name chain.calls) (pairs name)) :
    (∃ m, built chain.calls = .ok m ∧
      ∀ name ∈ HandshakeMessage.objects m, Aligned m name (pairs name)) ↔
    ∀ name, ∀ p ∈ (pairs name).dropLast, p.1 = [] ∧ p.2 = [] := by
  obtain ⟨b, hb⟩ := run_chain chain
  have hbuilt : built chain.calls = .ok b.message := congrArg (Except.map _) hb
  have hobj := built_controls hbuilt
  constructor
  · rintro ⟨m, hm, halign⟩ name p hmem
    rw [hbuilt, Except.ok.injEq] at hm
    subst hm
    rcases hopen : opened name (chain.calls.flatMap Call.settings) with _ | _
    · -- no pairs are given for an object that is never opened
      have hnil := hp name
      rw [settingsOn_of_not_opened hopen] at hnil
      cases hpairs : pairs name with
      | nil => rw [hpairs] at hmem; exact absurd hmem (by simp)
      | cons q qs => rw [hpairs] at hnil; exact absurd hnil (by rintro ⟨⟩)
    · have hctl := hobj name
      rw [hopen, if_pos rfl] at hctl
      have hin : name ∈ HandshakeMessage.objects b.message := by
        obtain ⟨o, ho, -⟩ := Option.map_eq_some_iff.mp hctl
        rw [HandshakeMessage.objects, Std.ExtTreeMap.mem_keys,
          Std.ExtTreeMap.mem_iff_isSome_getElem?, ho]
        rfl
      exact (aligned_of_controls (hp name) hctl).mp (halign name hin) p hmem
  · intro h
    refine ⟨b.message, hbuilt, fun name hin => ?_⟩
    rw [HandshakeMessage.objects, Std.ExtTreeMap.mem_keys,
      Std.ExtTreeMap.mem_iff_isSome_getElem?] at hin
    have hctl := hobj name
    rcases hopen : opened name (chain.calls.flatMap Call.settings) with _ | _
    · rw [hopen, if_neg (by simp), Option.map_eq_none_iff] at hctl
      rw [hctl] at hin
      exact absurd hin (by simp)
    · rw [hopen, if_pos rfl] at hctl
      exact (aligned_of_controls (hp name) hctl).mpr (h name)

theorem aligned_iff_of_once :
    let pairs : Str → List Controls := fun name =>
      if name = [114] then [([[97], [98]], [ValueType.Angle, ValueType.Torque1D])] else []
    (∃ m, built [.withRobot [114], .withControlTypesInOrder [ValueType.Angle, ValueType.Torque1D],
        .withControlsInOrder [[97], [98]]] = .ok m ∧
      ∀ name ∈ HandshakeMessage.objects m, Aligned m name (pairs name)) ↔
    ∀ name, ∀ p ∈ (pairs name).dropLast, p.1 = [] ∧ p.2 = [] := by
  refine aligned_iff ⟨_, .addRobotBuilder, rfl⟩ _ fun name => ?_
  by_cases hn : name = [114]
  · subst hn
    exact .typesFirst rfl .nil
  · rw [settingsOn_of_not_opened (by simp [opened, Call.settings, Ne.symm hn]), if_neg hn]
    exact .nil

/-- The types of the first pair are kept, its controls are not. -/
theorem not_aligned : ¬ ∀ (chain : Chain interfaces) (pairs : Str → List Controls),
    (∀ name, Paired (settingsOn name chain.calls) (pairs name)) →
      ∃ m, built chain.calls = .ok m ∧
        ∀ name ∈ HandshakeMessage.objects m, Aligned m name (pairs name) := by
  intro h
  have hpaired : ∀ name, Paired (settingsOn name [.withRobot [114],
      .withControlsInOrder [[97]], .withControlTypesInOrder [ValueType.Angle],
      .withControlsInOrder [[98]], .withControlTypesInOrder [ValueType.Torque1D]])
      (if name = [114] then
        [([[97]], [ValueType.Angle]), ([[98]], [ValueType.Torque1D])] else []) := by
    intro name
    by_cases hn : name = [114]
    · subst hn
      exact .controlsFirst rfl (.controlsFirst rfl .nil)
    · rw [settingsOn_of_not_opened (by simp [opened, Call.settings, Ne.symm hn]), if_neg hn]
      exact .nil
  obtain ⟨m, hm, halign⟩ := h ⟨_, .addRobotBuilder, rfl⟩ _ hpaired
  obtain rfl := Except.ok.inj hm
  obtain ⟨names, types, hnames, htypes, hlen, -⟩ := halign [114] (by decide)
  obtain rfl := Except.ok.inj hnames
  obtain rfl := Except.ok.inj htypes
  exact absurd hlen (by decide)

end HandshakeMessageBuilderImpl

end Click
