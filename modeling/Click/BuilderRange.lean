/-
What the builders can build.

A chain that opens every object of a message and gives it what it holds builds the message
again.  So each builder hands out all messages that its interfaces leave room for.

* `ControlMessageBuilderImpl.built_iff_object` — every ControlMessage with an object;
* `HandshakeMessageBuilderImpl.built_iff_version` — every HandshakeMessage of the current
  version;
* `SensorMessageBuilderImpl.built_iff_settable` — every SensorMessage whose readings have a
  setter.
-/
import Click.Builders
import Click.ControlReadback
import Click.Fluent.Reach
import Click.HandshakeReadback

open Proto Fluent

namespace Click

/-- The entries of a map, put one after the other into an empty one. -/
theorem foldl_insert_toList {α : Type} (m : Map α) :
    m.toList.foldl (fun acc e => acc.insert e.1 e.2) (∅ : Map α) = m :=
  foldl_insert_of_perm (List.Perm.refl _)

/-- The entries of a map are added one after the other, if each that is not there yet
can be. -/
theorem reaches_map {I C S α ε : Type} {F : Interfaces I C} {exec : S → C → Except ε S} {j : I}
    (m : Map α) (Shows : Map α → S → Prop)
    (hput : ∀ (acc : Map α) k x s, m[k]? = some x → acc[k]? = none → Shows acc s →
      ∃ t, Shows (acc.insert k x) t ∧ F.Reaches exec (j, s) (j, t)) {s : S} (hs : Shows ∅ s) :
    ∃ t, Shows m t ∧ F.Reaches exec (j, s) (j, t) := by
  have hkeep : ∀ (acc : Map α) (e e' : Str × α), m[e'.1]? = some e'.2 ∧ acc[e'.1]? = none →
      e.1 ≠ e'.1 → m[e'.1]? = some e'.2 ∧ (acc.insert e.1 e.2)[e'.1]? = none := by
    rintro acc e e' ⟨hmem, hnone⟩ hne
    refine ⟨hmem, ?_⟩
    rw [Protobuf.Map.getElem?_insert, if_neg hne, hnone]
  have hall := reaches_foldl Shows (fun acc e => acc.insert e.1 e.2)
    (fun acc e => m[e.1]? = some e.2 ∧ acc[e.1]? = none)
    (fun acc e s hfits => hput acc e.1 e.2 s hfits.1 hfits.2) hkeep
    (Protobuf.Map.pairwise_toList m)
    (fun e he => ⟨Std.ExtTreeMap.mem_toList_iff_getElem?_eq_some.mp he, by simp⟩) hs
  rwa [foldl_insert_toList] at hall

/-- **The objects of a message are added one after the other**, the first on the interface
`i` and the others on `j`, if each that is not there yet can be. -/
theorem reaches_objects {I C S M O ε : Type} {F : Interfaces I C} {exec : S → C → Except ε S}
    {i j : I} (message : S → M) (objects : M → Map O) (withObject : M → Str × O → M)
    (hobjects : ∀ m e, objects (withObject m e) = (objects m).insert e.1 e.2)
    {es : List (Str × O)} (hes : es.Pairwise fun e e' => e.1 ≠ e'.1)
    (hobject : ∀ i' m e s, i' = i ∨ i' = j → e ∈ es → (objects m)[e.1]? = none → message s = m →
      ∃ t, message t = withObject m e ∧ F.Reaches exec (i', s) (j, t)) {s : S}
    (hempty : objects (message s) = ∅) :
    ∃ t, message t = es.foldl withObject (message s) ∧
      F.Reaches exec (i, s) (if es = [] then i else j, t) := by
  have hnone : ∀ k : Str, (objects (message s))[k]? = none := by simp [hempty]
  cases es with
  | nil => exact ⟨s, rfl, .refl⟩
  | cons e es =>
    have hkeep : ∀ m (e₁ e₂ : Str × O), e₂ ∈ e :: es ∧ (objects m)[e₂.1]? = none → e₁.1 ≠ e₂.1 →
        e₂ ∈ e :: es ∧ (objects (withObject m e₁))[e₂.1]? = none := by
      rintro m e₁ e₂ ⟨hmem, hnone⟩ hne
      refine ⟨hmem, ?_⟩
      rw [hobjects, Protobuf.Map.getElem?_insert, if_neg hne, hnone]
    rw [List.pairwise_cons] at hes
    obtain ⟨t, ht, hreach⟩ :=
      hobject i (message s) e s (.inl rfl) List.mem_cons_self (hnone e.1) rfl
    obtain ⟨u, hu, hreach'⟩ := reaches_foldl (fun m s => message s = m) withObject _
      (fun m e s hfits => hobject j m e s (.inr rfl) hfits.1 hfits.2) hkeep hes.2
      (fun e' he' => hkeep _ e e' ⟨List.mem_cons_of_mem _ he', hnone e'.1⟩ (hes.1 e' he')) ht
    exact ⟨u, hu, hreach.trans hreach'⟩

namespace ControlMessageBuilderImpl

/-! ### ControlMessages -/

/-- `msg` with an object more. -/
def withObject (msg : Protobuf.ControlMessage) (e : Str × Protobuf.ControlMessage.Object) :
    Protobuf.ControlMessage :=
  { msg with objects := msg.objects.insert e.1 e.2 }

/-- The object `k` is current and holds `o`, after the objects of `msg`. -/
structure Shows (msg : Protobuf.ControlMessage) (k : Str) (o : Protobuf.ControlMessage.Object)
    (b : ControlMessageBuilderImpl) : Prop where
  message : b.message = withObject msg (k, o)
  current : b.currObject = some k

variable {msg : Protobuf.ControlMessage} {k : Str} {o : Protobuf.ControlMessage.Object}
  {b : ControlMessageBuilderImpl}

theorem shows_object (hk : msg.objects[k]? = none) (hb : b.message = msg) :
    Shows msg k {} (b.object k) := by
  subst hb
  exact ⟨by rw [object, Protobuf.Map.subscript_of_none hk]; rfl, rfl⟩

/-- Opening the current object again changes nothing. -/
theorem Shows.reopen (h : Shows msg k o b) : Shows msg k o (b.object k) :=
  ⟨by rw [object, h.message, withObject, Protobuf.Map.subscript_insert], rfl⟩

theorem Shows.call (h : Shows msg k o b) {c : Call} (hc : c.usesObject = true) :
    ∃ b', b.exec c = .ok b' ∧ Shows msg k (c.apply o) b' := by
  refine ⟨_, (exec_of_usesObject hc).trans (onCurrObject_eq_ok.mpr ⟨k, h.current, rfl⟩), ?_,
    h.current⟩
  simp only [h.message, withObject, Protobuf.Map.update_insert]

/-- A list is set on the object that is current. -/
theorem Shows.assign (h : Shows msg k o b) {c : Call}
    (hc : interfaces.offers .addControlBuilder c = some .addControlEventBuilder) :
    ∃ b', Shows msg k (c.apply o) b' ∧ interfaces.Reaches exec (.addControlBuilder, b)
      (.addControlEventBuilder, b') := by
  have huses : c.usesObject = true := by
    cases c with
    | object => exact absurd hc (by simp [interfaces])
    | _ => rfl
  obtain ⟨b', hb', hshows⟩ := h.call huses
  exact ⟨b', hshows, .single ⟨c, hc, hb'⟩⟩

/-- To set another list the object has to be opened again. -/
theorem Shows.assign_again (h : Shows msg k o b) {c : Call}
    (hc : interfaces.offers .addControlBuilder c = some .addControlEventBuilder) :
    ∃ b', Shows msg k (c.apply o) b' ∧ interfaces.Reaches exec (.addControlEventBuilder, b)
      (.addControlEventBuilder, b') := by
  obtain ⟨b', hshows, hreach⟩ := h.reopen.assign hc
  exact ⟨b', hshows, hreach.head ⟨.object k, rfl, rfl⟩⟩

theorem Shows.events (h : Shows msg k { o with controlEvents := ∅ } b) :
    ∃ b', Shows msg k o b' ∧ interfaces.Reaches exec (.addControlEventBuilder, b)
      (.addControlEventBuilder, b') := by
  refine reaches_map o.controlEvents
    (fun events b => Shows msg k { o with controlEvents := events } b)
    (fun events name activated b _ _ hb => ?_) h
  obtain ⟨b', hb', hshows⟩ := hb.call (c := .withControlEvent name activated) rfl
  exact ⟨b', hshows, .single ⟨.withControlEvent name activated, rfl, hb'⟩⟩

/-- A new object is opened and given all it holds. -/
theorem reaches_object {i : Interface} (o : Protobuf.ControlMessage.Object)
    (hi : interfaces.offers i (.object k) = some .addControlBuilder)
    (hk : msg.objects[k]? = none) (hb : b.message = msg) :
    ∃ b', b'.message = withObject msg (k, o) ∧
      interfaces.Reaches exec (i, b) (.addControlEventBuilder, b') := by
  obtain ⟨b₁, h₁, r₁⟩ := (shows_object hk hb).assign (c := .withAngles o.angles) rfl
  obtain ⟨b₂, h₂, r₂⟩ := h₁.assign_again (c := .withAngularVelocities o.angularVelocities) rfl
  obtain ⟨b₃, h₃, r₃⟩ := h₂.assign_again (c := .withTorques o.torques) rfl
  obtain ⟨b₄, h₄, r₄⟩ := h₃.assign_again (c := .withValues o.values) rfl
  obtain ⟨b₅, h₅, r₅⟩ := Shows.events (o := o) h₄
  exact ⟨b₅, h₅.message, ((((r₁.head ⟨.object k, hi, rfl⟩).trans r₂).trans r₃).trans r₄).trans r₅⟩

theorem foldl_withObject (es : List (Str × Protobuf.ControlMessage.Object)) :
    es.foldl withObject msg =
      { msg with objects := es.foldl (fun acc e => acc.insert e.1 e.2) msg.objects } := by
  induction es generalizing msg with
  | nil => rfl
  | cons e es ih => rw [List.foldl_cons, ih, withObject, List.foldl_cons]

/-- A chain that can be finished opens an object first. -/
theorem exists_object_of_finishes {chain : Chain interfaces}
    (hfinishes : interfaces.finishes chain.last = true) {m : Protobuf.ControlMessage}
    (hm : built chain.calls = .ok m) : ∃ o, o ∈ m.objects := by
  obtain ⟨calls, last, hadmitted⟩ := chain
  rcases calls with _ | ⟨c, calls⟩
  · obtain rfl := Option.some.inj hadmitted
    exact absurd hfinishes (by simp [interfaces])
  · obtain ⟨i, hi, -⟩ := Option.bind_eq_some_iff.mp hadmitted
    cases c with
    | object name =>
      refine ⟨name, Std.ExtTreeMap.mem_iff_isSome_getElem?.mpr ?_⟩
      rw [object_of_mem hm List.mem_cons_self]
      rfl
    | _ => exact absurd hi (by simp [interfaces])

theorem exists_chain {m : Protobuf.ControlMessage}
    (htype : m.messageType = MessageType.ControlMessageType) {name : Str}
    (hname : name ∈ m.objects) :
    ∃ chain : Chain interfaces, interfaces.finishes chain.last = true ∧
      built chain.calls = .ok m := by
  have hall : m.objects.toList.foldl withObject builder.message = m := by
    rw [foldl_withObject]
    have hobjects := foldl_insert_toList m.objects
    obtain ⟨messageType, objects⟩ := m
    exact congrArg₂ Protobuf.ControlMessage.mk htype.symm hobjects
  have hobject : ∀ (i : Interface) msg (e : Str × Protobuf.ControlMessage.Object)
      (b : ControlMessageBuilderImpl), i = .controlMessageBuilder ∨ i = .addControlEventBuilder →
      e ∈ m.objects.toList → msg.objects[e.1]? = none → b.message = msg →
      ∃ b', b'.message = withObject msg e ∧
        interfaces.Reaches exec (i, b) (.addControlEventBuilder, b') := by
    rintro i msg e b (rfl | rfl) - hk hb
    · exact reaches_object e.2 rfl hk hb
    · exact reaches_object e.2 rfl hk hb
  obtain ⟨b, hb, hreach⟩ := reaches_objects message (·.objects) withObject (fun _ _ => rfl)
    (Protobuf.Map.pairwise_toList m.objects) hobject (s := builder) rfl
  rw [if_neg (Protobuf.Map.toList_ne_nil hname)] at hreach
  obtain ⟨chain, hlast, hrun⟩ := reaches_iff_chain.mp hreach
  exact ⟨chain, by rw [hlast]; rfl, map_eq_ok.mpr ⟨b, hrun, hb.trans hall⟩⟩

/-- **What a ControlMessageBuilder can build**: the ControlMessages that have an object. -/
theorem built_iff_object (m : Protobuf.ControlMessage) :
    (∃ chain : Chain interfaces, interfaces.finishes chain.last = true ∧
        built chain.calls = .ok m) ↔
      m.messageType = MessageType.ControlMessageType ∧ ∃ o, o ∈ m.objects := by
  constructor
  · rintro ⟨chain, hfinishes, hm⟩
    exact ⟨built_messageType hm, exists_object_of_finishes hfinishes hm⟩
  · rintro ⟨htype, name, hname⟩
    exact exists_chain htype hname

end ControlMessageBuilderImpl

namespace HandshakeMessageBuilderImpl

/-! ### HandshakeMessages -/

/-- `msg` with an object more. -/
def withObject (msg : Protobuf.HandshakeMessage) (e : Str × Protobuf.HandshakeMessage.Object) :
    Protobuf.HandshakeMessage :=
  { msg with objects := msg.objects.insert e.1 e.2 }

/-- The robot `k` is current and holds `o`, after the objects of `msg`. -/
structure Shows (msg : Protobuf.HandshakeMessage) (k : Str)
    (o : Protobuf.HandshakeMessage.Object) (b : HandshakeMessageBuilderImpl) : Prop where
  message : b.message = withObject msg (k, o)
  current : b.currObject = some k

variable {msg : Protobuf.HandshakeMessage} {k : Str} {o : Protobuf.HandshakeMessage.Object}
  {b : HandshakeMessageBuilderImpl}

theorem shows_withRobot (hk : msg.objects[k]? = none) (hb : b.message = msg) :
    Shows msg k {} (b.withRobot k) := by
  subst hb
  exact ⟨by rw [withRobot, Protobuf.Map.subscript_of_none hk]; rfl, rfl⟩

theorem Shows.call (h : Shows msg k o b) {c : Call} (hc : c.usesObject = true) :
    ∃ b', b.exec c = .ok b' ∧ Shows msg k (c.apply o) b' ∧
      ∀ sensor, c = .withSensor sensor → b'.currSensor = some (k, sensor) := by
  obtain ⟨b', hb', hcurr, -, hsens⟩ := exec_of_usesObject hc h.current
  refine ⟨b', hb', ⟨?_, hcurr⟩, ?_⟩
  · rcases exec_cases hb' with ⟨_, rfl, -⟩ | ⟨_, rfl, -⟩ | ⟨_, rfl, -⟩ | ⟨name, -, hname, rfl⟩ |
      ⟨_, _, _, rfl, -, -⟩
    · exact absurd hc (by simp [Call.usesObject])
    · exact absurd hc (by simp [Call.usesObject])
    · exact absurd hc (by simp [Call.usesObject])
    · obtain rfl := Option.some.inj (hname.symm.trans h.current)
      simp only [h.message, withObject, Protobuf.Map.update_insert]
    · exact absurd hc (by simp [Call.usesObject])
  · rintro sensor rfl
    rcases hsens with ⟨sensor', heq, hsensor⟩ | ⟨hne, -⟩
    · obtain rfl := Call.withSensor.inj heq
      exact hsensor
    · exact absurd rfl (hne sensor)

/-- A list is given to the robot that is current. -/
theorem Shows.give (h : Shows msg k o b) {c : Call} (hc : c.usesObject = true)
    (hi : interfaces.offers .addRobotBuilder c = some .addRobotBuilder) :
    ∃ b', Shows msg k (c.apply o) b' ∧
      interfaces.Reaches exec (.addRobotBuilder, b) (.addRobotBuilder, b') := by
  obtain ⟨b', hb', hshows, -⟩ := h.call hc
  exact ⟨b', hshows, .single ⟨c, hi, hb'⟩⟩

theorem Shows.events (h : Shows msg k { o with controlEvents := ∅ } b) :
    ∃ b', Shows msg k o b' ∧
      interfaces.Reaches exec (.addRobotBuilder, b) (.addRobotBuilder, b') := by
  exact reaches_map o.controlEvents
    (fun events b => Shows msg k { o with controlEvents := events } b)
    (fun events name type b _ _ hb => hb.give (c := .withControlEvent name type) rfl rfl) h

/-- A sensor that is new is chosen and given its types. -/
theorem Shows.sensor (h : Shows msg k o b) {name : Str} (hname : o.sensors[name]? = none)
    (sensors : Protobuf.HandshakeMessage.Sensors) :
    ∃ b', Shows msg k { o with sensors := o.sensors.insert name sensors } b' ∧
      interfaces.Reaches exec (.addRobotBuilder, b) (.addRobotBuilder, b') := by
  obtain ⟨b₁, hb₁, h₁, hsens⟩ := h.call (c := .withSensor name) rfl
  obtain ⟨b₂, hb₂, hmessage, hcurrent⟩ : ∃ b₂, b₁.exec (.withTypesInOrder sensors.types) = .ok b₂ ∧
      b₂.message = { b₁.message with
        objects := Protobuf.Map.update b₁.message.objects k (appendTypes name sensors.types) } ∧
      b₂.currObject = b₁.currObject :=
    ⟨_, onCurrSensor_eq_ok.mpr ⟨k, name, hsens name rfl, rfl⟩, rfl, rfl⟩
  have hreach : interfaces.Reaches exec (.addHandshakeSensorBuilder, b₁) (.addRobotBuilder, b₂) :=
    .single ⟨.withTypesInOrder sensors.types, rfl, hb₂⟩
  refine ⟨b₂, ⟨?_, hcurrent.trans h₁.current⟩, hreach.head ⟨.withSensor name, rfl, hb₁⟩⟩
  simp only [hmessage, h₁.message, withObject, Protobuf.Map.update_insert, Call.apply, appendTypes,
    Protobuf.Map.subscript_of_none hname]
  rfl

theorem Shows.sensors (h : Shows msg k { o with sensors := ∅ } b) :
    ∃ b', Shows msg k o b' ∧
      interfaces.Reaches exec (.addRobotBuilder, b) (.addRobotBuilder, b') := by
  exact reaches_map o.sensors (fun sensors b => Shows msg k { o with sensors := sensors } b)
    (fun sensors name types b _ hnone hb => hb.sensor hnone types) h

/-- A new robot is described with all it holds. -/
theorem reaches_object {i : Interface} (o : Protobuf.HandshakeMessage.Object)
    (hi : interfaces.offers i (.withRobot k) = some .addRobotBuilder)
    (hk : msg.objects[k]? = none) (hb : b.message = msg) :
    ∃ b', b'.message = withObject msg (k, o) ∧
      interfaces.Reaches exec (i, b) (.addRobotBuilder, b') := by
  obtain ⟨b₁, h₁, r₁⟩ := (shows_withRobot hk hb).give
    (c := .withControlsInOrder o.controlsInOrder) rfl rfl
  obtain ⟨b₂, h₂, r₂⟩ := h₁.give (c := .withJointSensors o.jointSensors) rfl rfl
  obtain ⟨b₃, h₃, r₃⟩ := h₂.give (c := .withObjectSensors o.objectSensors) rfl rfl
  obtain ⟨b₄, h₄, r₄⟩ := h₃.give (c := .withJointSensorsInOrder o.jointSensorsInOrder) rfl rfl
  obtain ⟨b₅, h₅, r₅⟩ := h₄.give (c := .withControlTypesInOrder o.controlTypesInOrder) rfl rfl
  obtain ⟨b₆, h₆, r₆⟩ := Shows.events (o := { o with sensors := ∅ }) h₅
  obtain ⟨b₇, h₇, r₇⟩ := h₆.sensors
  exact ⟨b₇, h₇.message, ((((((r₁.head ⟨.withRobot k, hi, rfl⟩).trans r₂).trans r₃).trans
    r₄).trans r₅).trans r₆).trans r₇⟩

theorem foldl_withObject (es : List (Str × Protobuf.HandshakeMessage.Object)) :
    es.foldl withObject msg =
      { msg with objects := es.foldl (fun acc e => acc.insert e.1 e.2) msg.objects } := by
  induction es generalizing msg with
  | nil => rfl
  | cons e es ih => rw [List.foldl_cons, ih, withObject, List.foldl_cons]

/-- The control type and the settings are given before the first robot. -/
theorem reaches_settings (controlType : ValueType)
    (simSettings : Option Protobuf.HandshakeMessage.SimulationSettings) :
    ∃ b, b.message = { builder.message with controlType, simSettings } ∧
      interfaces.Reaches exec (.handshakeMessageBuilder, builder)
        (.handshakeMessageBuilder, b) := by
  have htype : interfaces.Reaches exec (.handshakeMessageBuilder, builder)
      (.handshakeMessageBuilder, builder.withControlType controlType) :=
    .single ⟨.withControlType controlType, rfl, rfl⟩
  cases simSettings with
  | none => exact ⟨_, rfl, htype⟩
  | some settings =>
    exact ⟨_, rfl, htype.tail ⟨.withSimulationSettings ⟨settings.timeStep⟩, rfl, rfl⟩⟩

/-- **What a HandshakeMessageBuilder can build**: the HandshakeMessages of the current
version. -/
theorem built_iff_version (m : Protobuf.HandshakeMessage) :
    (∃ chain : Chain interfaces, interfaces.finishes chain.last = true ∧
        built chain.calls = .ok m) ↔
      m.messageType = MessageType.HandshakeMessageType ∧ m.version = CURRENT_VERSION := by
  constructor
  · rintro ⟨chain, -, hm⟩
    exact ⟨built_messageType hm, (tells_of_built hm).version⟩
  · rintro ⟨htype, hversion⟩
    obtain ⟨b, hb, hsettings⟩ := reaches_settings m.controlType m.simSettings
    have hall : m.objects.toList.foldl withObject b.message = m := by
      rw [hb, foldl_withObject]
      have hobjects := foldl_insert_toList m.objects
      obtain ⟨messageType, version, controlType, objects, simSettings⟩ := m
      obtain rfl := htype
      obtain rfl := hversion
      exact congrArg (fun objects => Protobuf.HandshakeMessage.mk _ _ controlType objects
        simSettings) hobjects
    have hobject : ∀ (i : Interface) msg (e : Str × Protobuf.HandshakeMessage.Object)
        (b : HandshakeMessageBuilderImpl), i = .handshakeMessageBuilder ∨ i = .addRobotBuilder →
        e ∈ m.objects.toList → msg.objects[e.1]? = none → b.message = msg →
        ∃ b', b'.message = withObject msg e ∧
          interfaces.Reaches exec (i, b) (.addRobotBuilder, b') := by
      rintro i msg e b (rfl | rfl) - hk hb
      · exact reaches_object e.2 rfl hk hb
      · exact reaches_object e.2 rfl hk hb
    obtain ⟨b', hb', hreach⟩ := reaches_objects message (·.objects) withObject (fun _ _ => rfl)
      (Protobuf.Map.pairwise_toList m.objects) hobject (s := b) (by rw [hb]; rfl)
    obtain ⟨chain, -, hrun⟩ := reaches_iff_chain.mp (hsettings.trans hreach)
    exact ⟨chain, rfl, map_eq_ok.mpr ⟨b', hrun, hb'.trans hall⟩⟩

end HandshakeMessageBuilderImpl

namespace SensorMessageBuilderImpl

/-! ### SensorMessages -/

/-- Everything that the object holds has a setter. -/
structure Settable (o : Protobuf.SensorMessage.Object) : Prop where
  objectSensors : ∀ s ∈ o.objectSensors,
    ∃ vec3, s = ⟨some (.position (assign vec3))⟩ ∨ s = ⟨some (.rpy (assign vec3))⟩
  forceSensors : o.forceSensors = []
  sensors : ∀ (name : Str) (sensors : Protobuf.SensorMessage.Sensors),
    o.sensors[name]? = some sensors →
      ∀ s ∈ sensors.sensor, ∃ setter : TypedSetter, s = ⟨some setter.value⟩

/-- `msg` with an object more. -/
def withObject (msg : Protobuf.SensorMessage) (e : Str × Protobuf.SensorMessage.Object) :
    Protobuf.SensorMessage :=
  { msg with objects := msg.objects.insert e.1 e.2 }

/-- The object `k` is current and holds `o`, after the objects of `msg`. -/
structure Shows (msg : Protobuf.SensorMessage) (k : Str) (o : Protobuf.SensorMessage.Object)
    (b : SensorMessageBuilderImpl) : Prop where
  message : b.message = withObject msg (k, o)
  current : b.currObject = some k

variable {msg : Protobuf.SensorMessage} {k : Str} {o : Protobuf.SensorMessage.Object}
  {b : SensorMessageBuilderImpl}

theorem shows_object (hk : msg.objects[k]? = none) (hb : b.message = msg) :
    Shows msg k {} (b.object k) := by
  subst hb
  exact ⟨by rw [object, Protobuf.Map.subscript_of_none hk]; rfl, rfl⟩

/-- Opening the current object again changes nothing. -/
theorem Shows.reopen (h : Shows msg k o b) : Shows msg k o (b.object k) :=
  ⟨by rw [object, h.message, withObject, Protobuf.Map.subscript_insert], rfl⟩

theorem Shows.call (h : Shows msg k o b) {c : Call} (hc : c.usesObject = true) :
    ∃ b', b.exec c = .ok b' ∧ Shows msg k (c.apply o) b' ∧
      ∀ sensor, c = .withSensor sensor → b'.currSensor = some (k, sensor) := by
  obtain ⟨b', hb', hcurr, -, hsens⟩ := exec_of_usesObject hc h.current
  refine ⟨b', hb', ⟨?_, hcurr⟩, ?_⟩
  · rcases exec_cases hb' with ⟨_, rfl, -⟩ | ⟨_, rfl, -⟩ | ⟨name, -, hname, rfl⟩ |
      ⟨_, _, _, rfl, -, -⟩
    · exact absurd hc (by simp [Call.usesObject])
    · exact absurd hc (by simp [Call.usesObject])
    · obtain rfl := Option.some.inj (hname.symm.trans h.current)
      simp only [h.message, withObject, Protobuf.Map.update_insert]
    · exact absurd hc (by simp [Call.usesObject])
  · rintro sensor rfl
    rcases hsens with ⟨sensor', heq, hsensor⟩ | ⟨hne, -⟩
    · obtain rfl := Call.withSensor.inj heq
      exact hsensor
    · exact absurd rfl (hne sensor)

/-- A list or a pose is given to the object that is current. -/
theorem Shows.give (h : Shows msg k o b) {c : Call} (hc : c.usesObject = true)
    (hi : interfaces.offers .addSensorValuesBuilder c = some .addSensorValuesBuilder) :
    ∃ b', Shows msg k (c.apply o) b' ∧
      interfaces.Reaches exec (.addSensorValuesBuilder, b) (.addSensorValuesBuilder, b') := by
  obtain ⟨b', hb', hshows, -⟩ := h.call hc
  exact ⟨b', hshows, .single ⟨c, hi, hb'⟩⟩

theorem Shows.poses (ho : Settable o) (h : Shows msg k { o with objectSensors := [] } b) :
    ∃ b', Shows msg k o b' ∧
      interfaces.Reaches exec (.addSensorValuesBuilder, b) (.addSensorValuesBuilder, b') := by
  refine reaches_concat (fun poses b => Shows msg k { o with objectSensors := poses } b) ?_
    ho.objectSensors h
  rintro poses s b ⟨vec3, rfl | rfl⟩ hb
  · exact hb.give (c := .withPosition vec3) rfl rfl
  · exact hb.give (c := .withRPY vec3) rfl rfl

/-- A sensor is chosen and given its readings; then the object is opened again. -/
theorem Shows.sensor (h : Shows msg k o b) (name : Str)
    {sensors : Protobuf.SensorMessage.Sensors}
    (hsensors : ∀ s ∈ sensors.sensor, ∃ setter : TypedSetter, s = ⟨some setter.value⟩) :
    ∃ b', Shows msg k { o with sensors := o.sensors.insert name sensors } b' ∧
      interfaces.Reaches exec (.addSensorValuesBuilder, b) (.addSensorValuesBuilder, b') := by
  obtain ⟨b₁, hb₁, h₁, hsens⟩ := h.call (c := .withSensor name) rfl
  have hput : ∀ readings s (b : SensorMessageBuilderImpl),
      (∃ setter : TypedSetter, s = ⟨some setter.value⟩) →
      Shows msg k { o with sensors := o.sensors.insert name ⟨readings⟩ } b ∧
        b.currSensor = some (k, name) →
      ∃ b', (Shows msg k { o with sensors := o.sensors.insert name ⟨readings ++ [s]⟩ } b' ∧
          b'.currSensor = some (k, name)) ∧
        interfaces.Reaches exec (.addSensorBuilder, b) (.addSensorBuilder, b') := by
    rintro readings s b ⟨setter, rfl⟩ ⟨hb, hsensor⟩
    have hexec : ∃ b', b.exec (.typed setter) = .ok b' ∧ b'.message = { b.message with
        objects := Protobuf.Map.update b.message.objects k fun o =>
          { o with sensors := Protobuf.Map.update o.sensors name fun s =>
              { s with sensor := s.sensor ++ [⟨some setter.value⟩] } } } ∧
        b'.currObject = b.currObject ∧ b'.currSensor = b.currSensor :=
      ⟨_, (execTyped_eq setter).trans (onCurrSensor_eq_ok.mpr ⟨k, name, hsensor, rfl⟩), rfl, rfl,
        rfl⟩
    obtain ⟨b', hb', hmessage, hcurrent, hcurr⟩ := hexec
    refine ⟨b', ⟨⟨?_, hcurrent.trans hb.current⟩, hcurr.trans hsensor⟩,
      .single ⟨.typed setter, rfl, hb'⟩⟩
    simp only [hmessage, hb.message, withObject, Protobuf.Map.update_insert]
  obtain ⟨b₂, ⟨h₂, -⟩, r₂⟩ := reaches_concat (fun readings b =>
    Shows msg k { o with sensors := o.sensors.insert name ⟨readings⟩ } b ∧
      b.currSensor = some (k, name)) hput hsensors ⟨h₁, hsens name rfl⟩
  exact ⟨b₂.object k, h₂.reopen, (r₂.head ⟨.withSensor name, rfl, hb₁⟩).tail ⟨.object k, rfl, rfl⟩⟩

theorem Shows.sensors (ho : Settable o) (h : Shows msg k { o with sensors := ∅ } b) :
    ∃ b', Shows msg k o b' ∧
      interfaces.Reaches exec (.addSensorValuesBuilder, b) (.addSensorValuesBuilder, b') := by
  exact reaches_map o.sensors (fun sensors b => Shows msg k { o with sensors := sensors } b)
    (fun sensors name readings b hmem _ hb => hb.sensor name (ho.sensors name readings hmem)) h

/-- A new object is opened and given all it holds. -/
theorem reaches_object {i : Interface} (ho : Settable o)
    (hi : interfaces.offers i (.object k) = some .addSensorValuesBuilder)
    (hk : msg.objects[k]? = none) (hb : b.message = msg) :
    ∃ b', b'.message = withObject msg (k, o) ∧
      interfaces.Reaches exec (i, b) (.addSensorValuesBuilder, b') := by
  obtain ⟨b₁, h₁, r₁⟩ := (shows_object hk hb).give (c := .withAngles o.angleSensors) rfl rfl
  obtain ⟨b₂, h₂, r₂⟩ := h₁.give (c := .withAngularVelocities o.angularVelocitySensors) rfl rfl
  obtain ⟨b₃, h₃, r₃⟩ := h₂.give (c := .withTorques o.torqueSensors) rfl rfl
  have hposes : Settable { o with sensors := ∅ } := { ho with sensors := by simp }
  have hnew : Shows msg k { o with objectSensors := [], sensors := ∅ } b₃ := by
    obtain ⟨angles, velocities, torques, objectSensors, forceSensors, sensors⟩ := o
    obtain rfl := ho.forceSensors
    exact h₃
  obtain ⟨b₄, h₄, r₄⟩ := Shows.poses (o := { o with sensors := ∅ }) hposes hnew
  obtain ⟨b₅, h₅, r₅⟩ := h₄.sensors ho
  exact ⟨b₅, h₅.message, ((((r₁.head ⟨.object k, hi, rfl⟩).trans r₂).trans r₃).trans r₄).trans r₅⟩

theorem foldl_withObject (es : List (Str × Protobuf.SensorMessage.Object)) :
    es.foldl withObject msg =
      { msg with objects := es.foldl (fun acc e => acc.insert e.1 e.2) msg.objects } := by
  induction es generalizing msg with
  | nil => rfl
  | cons e es ih => rw [List.foldl_cons, ih, withObject, List.foldl_cons]

/-- From where the time is set, or not, the objects follow. -/
theorem reaches_objects_of_settable {m : Protobuf.SensorMessage} {i : Interface}
    (hi : ∀ k, interfaces.offers i (.object k) = some .addSensorValuesBuilder)
    (hm : ∀ (k : Str) o, m.objects[k]? = some o → Settable o)
    (hb : b.message = { m with objects := ∅ }) :
    ∃ b', b'.message = m ∧ interfaces.Reaches exec (i, b)
      (if m.objects.toList = [] then i else .addSensorValuesBuilder, b') := by
  have hall : m.objects.toList.foldl withObject b.message = m := by
    rw [hb, foldl_withObject]
    exact congrArg (fun objects => { m with objects := objects }) (foldl_insert_toList m.objects)
  have hobject : ∀ (i' : Interface) msg (e : Str × Protobuf.SensorMessage.Object)
      (b : SensorMessageBuilderImpl), i' = i ∨ i' = .addSensorValuesBuilder →
      e ∈ m.objects.toList → msg.objects[e.1]? = none → b.message = msg →
      ∃ b', b'.message = withObject msg e ∧
        interfaces.Reaches exec (i', b) (.addSensorValuesBuilder, b') := by
    intro i' msg e b hi' he hk hb
    have ho := hm e.1 e.2 (Std.ExtTreeMap.mem_toList_iff_getElem?_eq_some.mp he)
    rcases hi' with rfl | rfl
    · exact reaches_object ho (hi e.1) hk hb
    · exact reaches_object ho rfl hk hb
  obtain ⟨b', hb', hreach⟩ := reaches_objects message (·.objects) withObject (fun _ _ => rfl)
    (Protobuf.Map.pairwise_toList m.objects) hobject (s := b) (by rw [hb])
  exact ⟨b', hb'.trans hall, hreach⟩

/-! What a call keeps. -/

theorem Settable.apply (h : Settable o) (c : Call) : Settable (c.apply o) := by
  cases c with
  | withPosition vec3 =>
    refine { h with objectSensors := List.forall_mem_append.mpr ⟨h.objectSensors, ?_⟩ }
    exact List.forall_mem_singleton.mpr ⟨vec3, .inl rfl⟩
  | withRPY vec3 =>
    refine { h with objectSensors := List.forall_mem_append.mpr ⟨h.objectSensors, ?_⟩ }
    exact List.forall_mem_singleton.mpr ⟨vec3, .inr rfl⟩
  | withSensor name =>
    refine { h with sensors := fun name' sensors hs => ?_ }
    rw [Call.apply, Protobuf.Map.getElem?_insert] at hs
    split at hs
    · obtain rfl := Option.some.inj hs
      exact fun s hs => absurd hs List.not_mem_nil
    · exact h.sensors name' sensors hs
  | _ => exact { h with }

theorem Settable.addSensor (h : Settable o) (sensor : Str) (setter : TypedSetter) :
    Settable { o with sensors := Protobuf.Map.update o.sensors sensor fun s =>
      { s with sensor := s.sensor ++ [⟨some setter.value⟩] } } := by
  refine { h with sensors := fun name sensors hs => ?_ }
  rw [Protobuf.Map.getElem?_update] at hs
  split at hs
  · next hname =>
    obtain ⟨sensors', hs', rfl⟩ := Option.map_eq_some_iff.mp hs
    exact List.forall_mem_append.mpr
      ⟨h.sensors name sensors' hs', List.forall_mem_singleton.mpr ⟨setter, rfl⟩⟩
  · exact h.sensors name sensors hs

theorem settable_exec {b' : SensorMessageBuilderImpl} {c : Call}
    (h : ∀ (k : Str) o, b.message.objects[k]? = some o → Settable o) (hc : b.exec c = .ok b') :
    ∀ (k : Str) o, b'.message.objects[k]? = some o → Settable o := by
  have hupdate : ∀ {name : Str} {f : Protobuf.SensorMessage.Object → _},
      (∀ o, Settable o → Settable (f o)) → ∀ (k : Str) o,
      (Protobuf.Map.update b.message.objects name f)[k]? = some o → Settable o := by
    intro name f hf k o ho
    rw [Protobuf.Map.getElem?_update] at ho
    split at ho
    · obtain ⟨o', ho', rfl⟩ := Option.map_eq_some_iff.mp ho
      exact hf o' (h k o' ho')
    · exact h k o ho
  rcases exec_cases hc with ⟨name, rfl, rfl⟩ | ⟨time, rfl, rfl⟩ | ⟨name, -, -, rfl⟩ |
    ⟨setter, name, sensor, -, -, rfl⟩
  · intro k o ho
    rw [object, Protobuf.Map.getElem?_subscript] at ho
    split at ho
    · obtain rfl := Option.some.inj ho
      rcases hk : b.message.objects[k]? with _ | o'
      · exact ⟨by simp, rfl, by simp⟩
      · exact h k o' hk
    · exact h k o ho
  · exact h
  · exact hupdate fun o ho => ho.apply c
  · exact hupdate fun o ho => ho.addSensor sensor setter

/-- Neither an object nor the time is ever taken away. -/
theorem nonempty_exec {b' : SensorMessageBuilderImpl} {c : Call}
    (h : (∃ k, k ∈ b.message.objects) ∨ b.message.simVars ≠ none) (hc : b.exec c = .ok b') :
    (∃ k, k ∈ b'.message.objects) ∨ b'.message.simVars ≠ none := by
  simp only [Std.ExtTreeMap.mem_iff_isSome_getElem?] at h ⊢
  have hupdate : ∀ {name k : Str} {f : Protobuf.SensorMessage.Object → _},
      b.message.objects[k]?.isSome → (Protobuf.Map.update b.message.objects name f)[k]?.isSome := by
    intro name k f hk
    rw [Protobuf.Map.getElem?_update]
    split
    · rwa [Option.isSome_map]
    · exact hk
  rcases exec_cases hc with ⟨name, rfl, rfl⟩ | ⟨time, rfl, rfl⟩ | ⟨name, -, -, rfl⟩ |
    ⟨setter, name, sensor, -, -, rfl⟩
  · exact .inl ⟨name, by simp [object]⟩
  · exact .inr (by simp [withSimulatedTime])
  · exact h.imp_left fun hobject => hobject.imp fun k hk => hupdate hk
  · exact h.imp_left fun hobject => hobject.imp fun k hk => hupdate hk

/-- A chain that can be finished opens an object or sets the time first. -/
theorem nonempty_of_finishes {chain : Chain interfaces}
    (hfinishes : interfaces.finishes chain.last = true)
    (hb : run exec builder chain.calls = .ok b) :
    (∃ k, k ∈ b.message.objects) ∨ b.message.simVars ≠ none := by
  obtain ⟨calls, last, hadmitted⟩ := chain
  rcases calls with _ | ⟨c, calls⟩
  · obtain rfl := Option.some.inj hadmitted
    exact absurd hfinishes (by simp [interfaces])
  · obtain ⟨i, hi, -⟩ := Option.bind_eq_some_iff.mp hadmitted
    obtain ⟨b₁, hb₁, hrun⟩ := (run_cons_eq_ok exec).mp hb
    refine run_invariant nonempty_exec ?_ hrun
    cases c with
    | object name =>
      obtain rfl := Except.ok.inj hb₁
      exact .inl ⟨name, Std.ExtTreeMap.mem_iff_isSome_getElem?.mpr (by simp [object])⟩
    | withSimulatedTime time =>
      obtain rfl := Except.ok.inj hb₁
      exact .inr (by simp [withSimulatedTime])
    | _ => exact absurd hi (by simp [interfaces])

/-- **What a SensorMessageBuilder can build**: the SensorMessages of which everything that
is in the objects has a setter, and that have an object or the time. -/
theorem built_iff_settable (m : Protobuf.SensorMessage) :
    (∃ chain : Chain interfaces, interfaces.finishes chain.last = true ∧
        built chain.calls = .ok m) ↔
      m.messageType = MessageType.SensorMessageType ∧
        (∀ (k : Str) o, m.objects[k]? = some o → Settable o) ∧
        ((∃ o, o ∈ m.objects) ∨ m.simVars ≠ none) := by
  constructor
  · rintro ⟨chain, hfinishes, hm⟩
    refine ⟨built_messageType hm, ?_⟩
    obtain ⟨b, hb, rfl⟩ := map_eq_ok.mp hm
    exact ⟨run_invariant settable_exec (by simp [builder]) hb, nonempty_of_finishes hfinishes hb⟩
  · rintro ⟨htype, hsettable, hnonempty⟩
    obtain ⟨messageType, objects, simVars⟩ := m
    obtain rfl := htype
    cases simVars with
    | none =>
      obtain ⟨b, hb, hreach⟩ := reaches_objects_of_settable (b := builder)
        (i := .sensorMessageBuilder) (fun _ => rfl) hsettable rfl
      obtain ⟨name, hname⟩ := hnonempty.resolve_right (by simp)
      rw [if_neg (Protobuf.Map.toList_ne_nil hname)] at hreach
      obtain ⟨chain, hlast, hrun⟩ := reaches_iff_chain.mp hreach
      exact ⟨chain, by rw [hlast]; rfl, map_eq_ok.mpr ⟨b, hrun, hb⟩⟩
    | some vars =>
      have htime : interfaces.Reaches exec (.sensorMessageBuilder, builder)
          (.addSensorValuesBuilder, builder.withSimulatedTime vars.simulatedTime) :=
        .single ⟨.withSimulatedTime vars.simulatedTime, rfl, rfl⟩
      obtain ⟨b, hb, hreach⟩ := reaches_objects_of_settable
        (b := builder.withSimulatedTime vars.simulatedTime) (i := .addSensorValuesBuilder)
        (fun _ => rfl) hsettable rfl
      rw [ite_self] at hreach
      obtain ⟨chain, hlast, hrun⟩ := reaches_iff_chain.mp (htime.trans hreach)
      exact ⟨chain, by rw [hlast]; rfl, map_eq_ok.mpr ⟨b, hrun, hb⟩⟩

end SensorMessageBuilderImpl

end Click
