/-
The order in which objects are described.

A chain describes objects in segments, each of which opens an object.  Both builders
that describe objects with named sensors leave the pointer to the sensor where it is
when another object is opened, but their interfaces offer no write through it until a
sensor of that object is chosen.

* `HandshakeMessageBuilderImpl.executes`, `SensorMessageBuilderImpl.executes` — the
  builders are objects with cursors;
* `HandshakeMessageBuilderImpl.lists_of_built` — the names a message lists;
* `order_irrelevant` — chains that interleave the same segments build one message.
-/
import Click.HandshakeMessageBuilder
import Click.SensorMessageBuilder
import Click.Fluent.Segments

open Proto Fluent

namespace Click

/-! ### HandshakeMessageBuilder -/

namespace HandshakeMessageBuilderImpl

/-- The object a call opens. -/
def Call.robot : Call → Option Str
  | .withRobot name => some name
  | _ => none

def Call.effect : Call → Effect Str Protobuf.HandshakeMessage.Object
  | .withSimulationSettings _ | .withControlType _ | .withRobot _ => .other
  | .withTypesInOrder order => .writePart fun sensor => appendTypes sensor order
  | c => .write c.apply c.opens

def cursors : Cursors HandshakeMessageBuilderImpl Str Str Protobuf.HandshakeMessage.Object where
  entry b name := b.message.objects[name]?
  current := currObject
  part := currSensor

theorem effect_of_usesObject {c : Call} (h : c.usesObject = true) :
    c.robot = none ∧ c.effect = .write c.apply c.opens := by
  cases c <;> first | exact ⟨rfl, rfl⟩ | exact absurd h (by simp [Call.usesObject])

theorem executes : cursors.Executes {} exec Call.robot Call.effect := by
  intro b c b' h
  rcases exec_cases h with ⟨settings, rfl, rfl⟩ | ⟨type, rfl, rfl⟩ | ⟨name, rfl, rfl⟩ |
    ⟨name, huses, hname, rfl⟩ | ⟨order, name, sensor, rfl, hs, rfl⟩
  · exact .other rfl rfl rfl rfl
  · exact .other rfl rfl rfl rfl
  · exact .enter name rfl rfl fun l => Protobuf.Map.getElem?_subscript _ _ _ _
  · obtain ⟨hk, he⟩ := effect_of_usesObject huses
    exact .write _ _ name hk he hname hname rfl fun l => Protobuf.Map.getElem?_update _ _ _ _
  · exact .writePart _ name sensor rfl rfl hs rfl rfl fun l => Protobuf.Map.getElem?_update _ _ _ _

/-- `withTypesInOrder` is offered by the interface that `withSensor` returns. -/
theorem guards : interfaces.Guards Call.robot Call.effect (· == .addHandshakeSensorBuilder) where
  offered := by
    intro i j c f ho _ he
    cases c with
    | withTypesInOrder order => cases i <;> first | rfl | exact absurd ho (by simp [interfaces])
    | _ => exact absurd he (by simp [Call.effect])
  returned := by
    intro i j c ho hj
    obtain rfl : j = .addHandshakeSensorBuilder := by simpa using hj
    cases c with
    | withSensor name => exact ⟨rfl, .inl ⟨_, name, rfl⟩⟩
    | _ => cases i <;> exact absurd ho (by simp [interfaces])

/-- Everything but the objects. -/
def rest (b : HandshakeMessageBuilderImpl) : Protobuf.HandshakeMessage :=
  { b.message with objects := ∅ }

/-- Only settings of the message return to the first interface. -/
theorem setting_of_offers {i : Interface} {c : Call}
    (ho : interfaces.offers i c = some .handshakeMessageBuilder) :
    (∃ settings, c = .withSimulationSettings settings) ∨ ∃ type, c = .withControlType type := by
  cases i <;> cases c <;> simp_all [interfaces]

/-- Settings of the message are not offered once an object is open. -/
theorem rest_step {i j : Interface} {b b' : HandshakeMessageBuilderImpl} {c : Call}
    (ho : interfaces.offers i c = some j) (h : b.exec c = .ok b')
    (hin : i ≠ .handshakeMessageBuilder ∨ c.robot.isSome) :
    j ≠ .handshakeMessageBuilder ∧ b'.rest = b.rest := by
  rcases exec_cases h with ⟨settings, rfl, -⟩ | ⟨type, rfl, -⟩ | ⟨name, rfl, rfl⟩ |
    ⟨name, huses, -, rfl⟩ | ⟨order, name, sensor, rfl, -, rfl⟩
  · cases i <;> simp_all [interfaces, Call.robot]
  · cases i <;> simp_all [interfaces, Call.robot]
  · exact ⟨fun hj => absurd (setting_of_offers (hj ▸ ho)) (by simp), rfl⟩
  · refine ⟨fun hj => ?_, rfl⟩
    rcases setting_of_offers (hj ▸ ho) with ⟨settings, rfl⟩ | ⟨type, rfl⟩
    · exact absurd huses (by simp [Call.usesObject])
    · exact absurd huses (by simp [Call.usesObject])
  · exact ⟨fun hj => absurd (setting_of_offers (hj ▸ ho)) (by simp), rfl⟩

theorem eq_of_objects_eq {m₁ m₂ : Protobuf.HandshakeMessage}
    (hrest : { m₁ with objects := ∅ } = { m₂ with objects := ∅ })
    (hobj : ∀ name : Str, m₁.objects[name]? = m₂.objects[name]?) : m₁ = m₂ := by
  obtain ⟨_, _, _, objects₁, _⟩ := m₁
  obtain ⟨_, _, _, objects₂, _⟩ := m₂
  obtain rfl : objects₁ = objects₂ := Std.ExtTreeMap.ext_getElem? hobj
  simpa using hrest

theorem built_of_reordered {chain₁ chain₂ : Chain interfaces}
    (h : Reordered Call.robot chain₁.calls chain₂.calls) :
    ∃ m, built chain₁.calls = .ok m ∧ built chain₂.calls = .ok m := by
  obtain ⟨b₁, hb₁⟩ := run_chain chain₁
  obtain ⟨b₂, hb₂⟩ := run_chain chain₂
  have hobj : ∀ name, b₁.message.objects[name]? = b₂.message.objects[name]? :=
    entry_of_reordered executes guards rfl rfl (fun _ => Std.ExtTreeMap.getElem?_empty) h hb₁ hb₂
  have heq := eq_of_objects_eq (rest_of_reordered rest_step h hb₁ hb₂) hobj
  exact ⟨b₁.message, congrArg (Except.map _) hb₁, by rw [built, hb₂, heq]; rfl⟩

/-- The names of the objects, and of the control events of each object, are listed
once each. -/
structure ListsOnce (m : Protobuf.HandshakeMessage) (calls : List Call) : Prop where
  objects_nodup : (HandshakeMessage.objects m).Nodup
  mem_objects : ∀ o, o ∈ HandshakeMessage.objects m ↔ .withRobot o ∈ calls
  controlEvents : ∀ o, .withRobot o ∈ calls → ∃ events,
    HandshakeMessage.controlEvents m o = .ok events ∧ events.Nodup ∧
      ∀ e, e ∈ events ↔ ∃ type, .withControlEvent e type ∈ callsOn Call.robot o calls

theorem mem_controlEvents_apply (e : Str) (v : Protobuf.HandshakeMessage.Object × Option Str)
    (c : Call) : e ∈ (c.effect.apply v).1.controlEvents ↔
      e ∈ v.1.controlEvents ∨ ∃ type, c = .withControlEvent e type := by
  cases c with
  | withControlEvent name type =>
    simp only [Call.effect, Effect.apply, Call.apply, Std.ExtTreeMap.mem_insert,
      Std.LawfulEqCmp.compare_eq_iff_eq, Call.withControlEvent.injEq, exists_and_left,
      exists_eq', and_true]
    exact or_comm
  | withTypesInOrder order =>
    obtain ⟨o, _ | sensor⟩ := v <;> simp [Call.effect, Effect.apply, appendTypes]
  | _ => simp [Call.effect, Effect.apply, Call.apply]

theorem opened_iff_withRobot {o : Str} {calls : List Call} :
    opened o (calls.map (callEvent Call.robot)) = true ↔ .withRobot o ∈ calls := by
  rw [opened_iff, List.mem_map]
  constructor
  · rintro ⟨c, hc, he⟩
    cases c with
    | withRobot name => rwa [← Event.enter.inj he]
    | _ => exact absurd he (by simp [callEvent, Call.robot])
  · exact fun h => ⟨_, h, rfl⟩

theorem lists_of_built {chain : Chain interfaces} {m : Protobuf.HandshakeMessage}
    (hm : built chain.calls = .ok m) : ListsOnce m chain.calls := by
  obtain ⟨b, hb, rfl⟩ := map_eq_ok.mp hm
  have hentry : ∀ o, b.message.objects[o]? =
      ((chain.calls.map (callEvent Call.robot)).foldl
        ((entryLedger {} Call.effect).track o) (false, none)).2.map Prod.fst :=
    Cursors.entry_run executes guards rfl rfl (fun _ => Std.ExtTreeMap.getElem?_empty) chain hb
  refine ⟨Std.ExtTreeMap.nodup_keys, fun o => ?_, fun o ho => ?_⟩
  · rw [HandshakeMessage.objects, Std.ExtTreeMap.mem_keys,
      Std.ExtTreeMap.mem_iff_isSome_getElem?, hentry, Option.isSome_map, track_isSome,
      Option.isSome_none, Bool.false_or, opened_iff_withRobot]
  · -- the object is there, with the events that were given for it
    have hsome := track_isSome (entryLedger {} Call.effect) o
      (chain.calls.map (callEvent Call.robot)) (false, none)
    rw [opened_iff_withRobot.mpr ho, Bool.or_true] at hsome
    obtain ⟨⟨obj, sensor⟩, hv⟩ := Option.isSome_iff_exists.mp hsome
    have hobj : b.message.objects[o]? = some obj := by rw [hentry, hv]; rfl
    refine ⟨obj.controlEvents.keys, ?_, Std.ExtTreeMap.nodup_keys, fun e => ?_⟩
    · exact congrArg (Except.map _) (Protobuf.Map.at_of_some hobj)
    · have hmem := track_iff (L := entryLedger {} Call.effect)
        (Q := fun v => e ∈ v.1.controlEvents) (by simp [entryLedger])
        (fun v => by simp [entryLedger]) (fun v c => mem_controlEvents_apply e v c) o _
        (by simp) hv
      rw [Std.ExtTreeMap.mem_keys, hmem]
      simp only [Option.not_mem_none, false_and, exists_false, false_or]
      constructor
      · rintro ⟨c, hc, type, rfl⟩
        exact ⟨type, hc⟩
      · rintro ⟨type, h⟩
        exact ⟨_, h, type, rfl⟩

end HandshakeMessageBuilderImpl

/-! ### SensorMessageBuilder -/

namespace SensorMessageBuilderImpl

def Call.effect : Call → Effect Str Protobuf.SensorMessage.Object
  | .object _ | .withSimulatedTime _ => .other
  | .typed setter => .writePart fun sensor o =>
      { o with sensors := Protobuf.Map.update o.sensors sensor fun s =>
          { s with sensor := s.sensor ++ [⟨some setter.value⟩] } }
  | c => .write c.apply c.opens

def cursors : Cursors SensorMessageBuilderImpl Str Str Protobuf.SensorMessage.Object where
  entry b name := b.message.objects[name]?
  current := currObject
  part := currSensor

theorem effect_of_usesObject {c : Call} (h : c.usesObject = true) :
    c.enters = none ∧ c.effect = .write c.apply c.opens := by
  cases c <;> first | exact ⟨rfl, rfl⟩ | exact absurd h (by simp [Call.usesObject])

theorem executes : cursors.Executes {} exec Call.enters Call.effect := by
  intro b c b' h
  rcases exec_cases h with ⟨name, rfl, rfl⟩ | ⟨time, rfl, rfl⟩ | ⟨name, huses, hname, rfl⟩ |
    ⟨setter, name, sensor, rfl, hs, rfl⟩
  · exact .enter name rfl rfl fun l => Protobuf.Map.getElem?_subscript _ _ _ _
  · exact .other rfl rfl rfl rfl
  · obtain ⟨hk, he⟩ := effect_of_usesObject huses
    exact .write _ _ name hk he hname hname rfl fun l => Protobuf.Map.getElem?_update _ _ _ _
  · exact .writePart _ name sensor rfl rfl hs rfl rfl fun l => Protobuf.Map.getElem?_update _ _ _ _

/-- A typed setter is offered by the interface that `withSensor` returns. -/
theorem guards : interfaces.Guards Call.enters Call.effect (· == .addSensorBuilder) where
  offered := by
    intro i j c f ho _ he
    cases c with
    | typed setter => cases i <;> first | rfl | exact absurd ho (by simp [interfaces])
    | _ => exact absurd he (by simp [Call.effect])
  returned := by
    intro i j c ho hj
    obtain rfl : j = .addSensorBuilder := by simpa using hj
    cases c with
    | withSensor name => exact ⟨rfl, .inl ⟨_, name, rfl⟩⟩
    | typed setter => exact ⟨rfl, .inr ⟨_, rfl⟩⟩
    | _ => cases i <;> exact absurd ho (by simp [interfaces])

/-- Everything but the objects. -/
def rest (b : SensorMessageBuilderImpl) : Protobuf.SensorMessage :=
  { b.message with objects := ∅ }

theorem offers_ne_start (i : Interface) (c : Call) :
    interfaces.offers i c ≠ some .sensorMessageBuilder := by
  cases i <;> cases c <;> simp [interfaces]

/-- The simulated time is not offered once an object is open. -/
theorem rest_step {i j : Interface} {b b' : SensorMessageBuilderImpl} {c : Call}
    (ho : interfaces.offers i c = some j) (h : b.exec c = .ok b')
    (hin : i ≠ .sensorMessageBuilder ∨ c.enters.isSome) :
    j ≠ .sensorMessageBuilder ∧ b'.rest = b.rest := by
  rcases exec_cases h with ⟨name, rfl, rfl⟩ | ⟨time, rfl, -⟩ | ⟨name, huses, -, rfl⟩ |
    ⟨setter, name, sensor, rfl, -, rfl⟩
  · exact ⟨fun hj => offers_ne_start i _ (hj ▸ ho), rfl⟩
  · cases i <;> simp_all [interfaces, Call.enters]
  · exact ⟨fun hj => offers_ne_start i c (hj ▸ ho), rfl⟩
  · exact ⟨fun hj => offers_ne_start i _ (hj ▸ ho), rfl⟩

theorem eq_of_objects_eq {m₁ m₂ : Protobuf.SensorMessage}
    (hrest : { m₁ with objects := ∅ } = { m₂ with objects := ∅ })
    (hobj : ∀ name : Str, m₁.objects[name]? = m₂.objects[name]?) : m₁ = m₂ := by
  obtain ⟨_, objects₁, _⟩ := m₁
  obtain ⟨_, objects₂, _⟩ := m₂
  obtain rfl : objects₁ = objects₂ := Std.ExtTreeMap.ext_getElem? hobj
  simpa using hrest

/-- The chain is a sequence of segments: nothing but settings of the message comes
before the first object. -/
def Segmented (calls : List Call) : Prop :=
  ∀ c ∈ preamble Call.enters calls, ∃ time, c = .withSimulatedTime time

/-- `withSimulatedTime` is not offered twice. -/
theorem not_timeFirst_of_segmented {chain : Chain interfaces} (h : Segmented chain.calls) :
    ¬ TimeFirst chain.calls := by
  rintro ⟨time, c, cs, hcalls, hne⟩
  have hc : c.enters = none := by
    cases c <;> first | rfl | exact absurd rfl (hne _)
  obtain ⟨t, rfl⟩ := h c (by
    rw [hcalls, preamble_cons_of_none rfl, preamble_cons_of_none hc]
    exact List.mem_cons_of_mem _ List.mem_cons_self)
  have hadm := chain.admitted
  rw [hcalls] at hadm
  exact absurd hadm (by simp [Interfaces.follow, interfaces])

theorem built_of_reordered {chain₁ chain₂ : Chain interfaces}
    (h : Reordered Call.enters chain₁.calls chain₂.calls) (hseg : Segmented chain₁.calls) :
    ∃ m, built chain₁.calls = .ok m ∧ built chain₂.calls = .ok m := by
  have htime := not_timeFirst_of_segmented hseg
  have htime₂ : ¬ TimeFirst chain₂.calls := by
    rw [Segmented, h.preamble_eq] at hseg
    exact not_timeFirst_of_segmented hseg
  obtain ⟨b₁, hb₁⟩ := run_of_eachCall exec_of_pointersSet
    ((pointersSet_iff_not_timeFirst chain₁).mpr htime)
  obtain ⟨b₂, hb₂⟩ := run_of_eachCall exec_of_pointersSet
    ((pointersSet_iff_not_timeFirst chain₂).mpr htime₂)
  have hobj : ∀ name, b₁.message.objects[name]? = b₂.message.objects[name]? :=
    entry_of_reordered executes guards rfl rfl (fun _ => Std.ExtTreeMap.getElem?_empty) h hb₁ hb₂
  have heq := eq_of_objects_eq (rest_of_reordered rest_step h hb₁ hb₂) hobj
  exact ⟨b₁.message, congrArg (Except.map _) hb₁, by rw [built, hb₂, heq]; rfl⟩

end SensorMessageBuilderImpl

/-! ### Both builders -/

/-- **The order of describing objects does not matter.**  Two chains of one builder
that start with the same settings of the message, and in which the segments of each
object come in the same order, build the same message; a HandshakeMessage lists each
name once. -/
theorem order_irrelevant :
    (∀ chain₁ chain₂ : Chain HandshakeMessageBuilderImpl.interfaces,
      Reordered HandshakeMessageBuilderImpl.Call.robot chain₁.calls chain₂.calls →
      ∃ m, HandshakeMessageBuilderImpl.built chain₁.calls = .ok m ∧
        HandshakeMessageBuilderImpl.built chain₂.calls = .ok m ∧
        HandshakeMessageBuilderImpl.ListsOnce m chain₁.calls) ∧
    ∀ chain₁ chain₂ : Chain SensorMessageBuilderImpl.interfaces,
      Reordered SensorMessageBuilderImpl.Call.enters chain₁.calls chain₂.calls →
      SensorMessageBuilderImpl.Segmented chain₁.calls →
      ∃ m, SensorMessageBuilderImpl.built chain₁.calls = .ok m ∧
        SensorMessageBuilderImpl.built chain₂.calls = .ok m := by
  refine ⟨fun chain₁ chain₂ h => ?_, fun _ _ => SensorMessageBuilderImpl.built_of_reordered⟩
  obtain ⟨m, h₁, h₂⟩ := HandshakeMessageBuilderImpl.built_of_reordered h
  exact ⟨m, h₁, h₂, HandshakeMessageBuilderImpl.lists_of_built h₁⟩

/-- Two robots, one of them opened twice, and the other order. -/
theorem order_irrelevant_two :
    (∃ m, HandshakeMessageBuilderImpl.built [.withControlType ValueType.Angle,
        .withRobot [97], .withSensor [115], .withTypesInOrder [ValueType.Position],
        .withRobot [98], .withControlEvent [101] ValueType.Activated,
        .withRobot [97], .withControlsInOrder [[106]]] = .ok m ∧
      HandshakeMessageBuilderImpl.built [.withControlType ValueType.Angle,
        .withRobot [98], .withControlEvent [101] ValueType.Activated,
        .withRobot [97], .withSensor [115], .withTypesInOrder [ValueType.Position],
        .withRobot [97], .withControlsInOrder [[106]]] = .ok m ∧
      HandshakeMessageBuilderImpl.ListsOnce m [.withControlType ValueType.Angle,
        .withRobot [97], .withSensor [115], .withTypesInOrder [ValueType.Position],
        .withRobot [98], .withControlEvent [101] ValueType.Activated,
        .withRobot [97], .withControlsInOrder [[106]]]) ∧
    ∃ m, SensorMessageBuilderImpl.built [.withSimulatedTime 1, .object [97], .withSensor [115],
        .typed (.withAngle 0), .object [98], .withTorques [2]] = .ok m ∧
      SensorMessageBuilderImpl.built [.withSimulatedTime 1, .object [98], .withTorques [2],
        .object [97], .withSensor [115], .typed (.withAngle 0)] = .ok m := by
  constructor
  · refine order_irrelevant.1 ⟨_, .addRobotBuilder, rfl⟩ ⟨_, .addRobotBuilder, rfl⟩
      ⟨rfl, fun k => ?_⟩
    by_cases hk : [97] = k
    · subst hk
      rfl
    · simp [sessions, cut, HandshakeMessageBuilderImpl.Call.robot, List.filter_cons, hk]
  · refine order_irrelevant.2 ⟨_, .addSensorValuesBuilder, rfl⟩ ⟨_, .addSensorBuilder, rfl⟩
      ⟨rfl, fun k => ?_⟩ (by simp [SensorMessageBuilderImpl.Segmented, preamble, cut,
        SensorMessageBuilderImpl.Call.enters])
    by_cases hk : [97] = k
    · subst hk
      rfl
    · simp [sessions, cut, SensorMessageBuilderImpl.Call.enters, List.filter_cons, hk]

end Click
