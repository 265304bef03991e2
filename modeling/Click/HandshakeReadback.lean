/-
A HandshakeMessage says what its chain said.

What a robot is described by, the accessors of the built message answer from the calls
that were made while it was current: the names of controls and joint sensors are those
given last, lists of types hold all that was given, and the types of a named sensor all
that was given while it was chosen.

* `tells_of_built` — what a built message says;
* `utf8_of_built` — its strings are the names in the calls;
* `tells_built` — so it says the same after the wire.
-/
import Click.Fluent.Parts
import Click.MessageSerializer
import Click.ObjectOrder

open Proto Fluent

namespace Click.HandshakeMessageBuilderImpl

open Protobuf (found map_found bind_found)

/-! ### What is said of a robot -/

/-- The lists of names that a robot has. -/
inductive Names
  | controls
  | jointSensors
  deriving DecidableEq

namespace Names

def accessor : Names → Protobuf.HandshakeMessage → Str → Except Fault (List Str)
  | controls => HandshakeMessage.controlsInOrder
  | jointSensors => HandshakeMessage.jointSensorsInOrder

def get : Names → Protobuf.HandshakeMessage.Object → List Str
  | controls => (·.controlsInOrder)
  | jointSensors => (·.jointSensorsInOrder)

end Names

/-- The lists of types that a robot has. -/
inductive Types
  | controls
  | jointSensors
  | objectSensors
  deriving DecidableEq

namespace Types

def accessor : Types → Protobuf.HandshakeMessage → Str → Except Fault (List ValueType)
  | controls => HandshakeMessage.controlTypesInOrder
  | jointSensors => HandshakeMessage.jointSensors
  | objectSensors => HandshakeMessage.objectSensors

def get : Types → Protobuf.HandshakeMessage.Object → List ValueType
  | controls => (·.controlTypesInOrder)
  | jointSensors => (·.jointSensors)
  | objectSensors => (·.objectSensors)

end Types

/-- The names that a call gives. -/
def Call.names : Names → Call → Option (List Str)
  | .controls, .withControlsInOrder order => some order
  | .jointSensors, .withJointSensorsInOrder order => some order
  | _, _ => none

/-- The types that a call gives. -/
def Call.types : Types → Call → List ValueType
  | .controls, .withControlTypesInOrder order => order
  | .jointSensors, .withJointSensors order => order
  | .objectSensors, .withObjectSensors order => order
  | _, _ => []

/-- What a call makes of the control event `name`. -/
def Call.event (name : Str) : Call → Option ValueType
  | .withControlEvent name' type => if name' = name then some type else none
  | _ => none

/-- What a call does to the named sensors of the robot that is current. -/
def Call.sensorEvents : Call → List (Event Str Call)
  | .withSensor name => [.enter name]
  | .withTypesInOrder order => [.act (.withTypesInOrder order)]
  | _ => []

/-- The types that a call gives to a named sensor. -/
def Call.sensorTypes : Call → List ValueType
  | .withTypesInOrder order => order
  | _ => []

/-- The last names given among some calls, none if there are none. -/
def lastNames (l : Names) (calls : List Call) : List Str :=
  (calls.filterMap (Call.names l)).getLast?.getD []

/-- The last type given to a control event among some calls. -/
def lastEvent (name : Str) (calls : List Call) : Option ValueType :=
  (calls.filterMap (Call.event name)).getLast?

/-- All types given to a named sensor among some calls on its robot, if it is chosen at
all. -/
def sensorTypes (name : Str) (calls : List Call) : Option (List ValueType) :=
  if .withSensor name ∈ calls then
    some ((acts name false (calls.flatMap Call.sensorEvents)).flatMap Call.sensorTypes)
  else none

/-- The calls on a robot, if it is described at all. -/
def described (o : Str) (calls : List Call) : Option (List Call) :=
  if .withRobot o ∈ calls then some (callsOn Call.robot o calls) else none

/-- What a call sets of the whole message. -/
def Call.simulationSettings : Call → Option HandshakeMessage.SimulationSettings
  | .withSimulationSettings simulation_settings => some simulation_settings
  | _ => none

def Call.controlType : Call → Option ValueType
  | .withControlType control_type => some control_type
  | _ => none

/-- The accessors of a message answer what the calls of a chain said. -/
structure Tells (m : Protobuf.HandshakeMessage) (calls : List Call) : Prop where
  lists : ListsOnce m calls
  names : ∀ l o, Names.accessor l m o = found ((described o calls).map (lastNames l))
  types : ∀ l o, Types.accessor l m o =
    found ((described o calls).map fun cs => cs.flatMap (Call.types l))
  controlEvent : ∀ o e, HandshakeMessage.controlEvent m o e =
    found ((described o calls).bind (lastEvent e))
  sensors : ∀ o s, HandshakeMessage.sensors m o s =
    found ((described o calls).bind (sensorTypes s))
  simulationSettings : HandshakeMessage.simulationSettings m =
    (calls.filterMap Call.simulationSettings).getLast?.getD ⟨0⟩
  controlType : HandshakeMessage.controlType m =
    (calls.filterMap Call.controlType).getLast?.getD 0
  version : m.version = CURRENT_VERSION

/-- The names in a call are valid UTF-8. -/
def Call.Utf8 : Call → Prop
  | .withRobot name | .withSensor name | .withControlEvent name _ => validUtf8 name = true
  | .withControlsInOrder order | .withJointSensorsInOrder order => ∀ s ∈ order, validUtf8 s = true
  | _ => True

/-! ### What a chain says -/

theorem opened_eq (o : Str) (calls : List Call) :
    opened o (calls.map (callEvent Call.robot)) = decide (.withRobot o ∈ calls) := by
  rw [Bool.eq_iff_iff, opened_iff_withRobot, decide_eq_true_iff]

/-- A robot that is not described is never current. -/
theorem callsOn_of_not_mem {o : Str} {calls : List Call} (ho : .withRobot o ∉ calls) :
    callsOn Call.robot o calls = [] :=
  acts_eq_nil (by rw [opened_eq, decide_eq_false ho])

theorem partEvents_effect (c : Call) : partEvents Call.effect c = c.sensorEvents := by
  cases c <;> rfl

/-- The types of a sensor are kept when it is chosen again. -/
theorem parts : Parts (Ledger.kept [] fun types c => types ++ Call.sensorTypes c) {} Call.effect
    fun (o : Protobuf.HandshakeMessage.Object) s => o.sensors[s]?.map (·.types) where
  init_none := by simp
  choose := by
    intro c f p he o q
    cases c with
    | withSensor name =>
      obtain ⟨rfl, hp⟩ := Effect.write.inj he
      obtain rfl : name = p := Option.some.inj hp
      by_cases hq : name = q
      · subst hq
        cases hs : o.sensors[name]? <;> simp [Call.apply, hs]
      · simp [Call.apply, hq]
    | _ => exact absurd he (by simp [Call.effect, Call.opens])
  write := by
    intro c f he o q
    cases c with
    | withSensor name => exact absurd he (by simp [Call.effect, Call.opens])
    | withSimulationSettings | withControlType | withRobot | withTypesInOrder =>
      exact absurd he (by simp [Call.effect])
    | _ =>
      obtain ⟨rfl, -⟩ := Effect.write.inj he
      rfl
  writePart := by
    intro c f he p o q
    cases c with
    | withTypesInOrder order =>
      obtain rfl := Effect.writePart.inj he
      by_cases hq : p = q
      · subst hq
        cases hs : o.sensors[p]? <;> simp [appendTypes, Call.sensorTypes, hs]
      · simp [appendTypes, hq]
    | _ => exact absurd he (by simp [Call.effect])

section Built

variable {chain : Chain interfaces} {m : Protobuf.HandshakeMessage}

/-- What an entry holds, followed on its own. -/
theorem get_of_built (hm : built chain.calls = .ok m) {A : Type}
    (get : Protobuf.HandshakeMessage.Object → A) (act : A → Call → A)
    (hget : ∀ v c, get ((Call.effect c).apply v).1 = act (get v.1) c) (o : Str) :
    m.objects[o]?.map get = (described o chain.calls).map fun cs => cs.foldl act (get {}) := by
  obtain ⟨b, hb, rfl⟩ := map_eq_ok.mp hm
  have hrun : b.message.objects[o]?.map get = _ := Cursors.get_run executes guards rfl rfl
    (fun _ => Std.ExtTreeMap.getElem?_empty) get act hget chain hb o
  rw [hrun, opened_eq, described]
  by_cases ho : .withRobot o ∈ chain.calls <;> simp [ho]

theorem names_of_built (hm : built chain.calls = .ok m) (l : Names) (o : Str) :
    l.accessor m o = found ((described o chain.calls).map (lastNames l)) := by
  have hget : ∀ (v : Protobuf.HandshakeMessage.Object × Option Str) (c : Call),
      l.get ((Call.effect c).apply v).1 = (c.names l).getD (l.get v.1) := by
    intro v c
    cases c with
    | withTypesInOrder order => obtain ⟨o, _ | s⟩ := v <;> cases l <;> rfl
    | _ => cases l <;> rfl
  have haccessor : l.accessor m o = (Protobuf.Map.at m.objects o).map l.get := by cases l <;> rfl
  rw [haccessor, Protobuf.Map.at_eq_found, map_found,
    get_of_built hm l.get (fun names c => (c.names l).getD names) hget]
  congr 2
  funext cs
  refine (get_foldl id _ (Call.names l) (fun _ _ => rfl) cs _).trans ?_
  rw [lastNames]
  cases l <;> rfl

theorem types_of_built (hm : built chain.calls = .ok m) (l : Types) (o : Str) :
    l.accessor m o = found ((described o chain.calls).map fun cs => cs.flatMap (Call.types l)) := by
  have hget : ∀ (v : Protobuf.HandshakeMessage.Object × Option Str) (c : Call),
      l.get ((Call.effect c).apply v).1 = l.get v.1 ++ c.types l := by
    intro v c
    cases c with
    | withTypesInOrder order =>
      obtain ⟨o, _ | s⟩ := v <;> cases l <;> exact (List.append_nil _).symm
    | _ => cases l <;> first | rfl | exact (List.append_nil _).symm
  have haccessor : l.accessor m o = (Protobuf.Map.at m.objects o).map l.get := by cases l <;> rfl
  rw [haccessor, Protobuf.Map.at_eq_found, map_found,
    get_of_built hm l.get (fun types c => types ++ c.types l) hget]
  congr 2
  funext cs
  rw [List.foldl_append_eq_append, ← List.flatMap_def]
  cases l <;> rfl

theorem controlEvent_of_built (hm : built chain.calls = .ok m) (o e : Str) :
    HandshakeMessage.controlEvent m o e = found ((described o chain.calls).bind (lastEvent e)) := by
  have hget : ∀ (v : Protobuf.HandshakeMessage.Object × Option Str) (c : Call),
      ((Call.effect c).apply v).1.controlEvents[e]? =
        ((c.event e).map some).getD v.1.controlEvents[e]? := by
    intro v c
    cases c with
    | withControlEvent name type =>
      simp only [Call.effect, Effect.apply, Call.apply, Call.event, Protobuf.Map.getElem?_insert]
      split <;> rfl
    | withTypesInOrder order => obtain ⟨o, _ | s⟩ := v <;> rfl
    | _ => rfl
  have hentry := congrArg (·.bind id) (get_of_built hm (fun o => o.controlEvents[e]?)
    (fun event c => ((c.event e).map some).getD event) hget o)
  simp only [Option.bind_map] at hentry
  have hlast : ∀ cs : List Call,
      cs.foldl (fun event c => ((c.event e).map some).getD event)
        (({} : Protobuf.HandshakeMessage.Object).controlEvents[e]?) = lastEvent e cs := by
    intro cs
    refine (get_foldl id _ (fun c => (c.event e).map some) (fun _ _ => rfl) cs _).trans ?_
    rw [lastEvent, ← List.map_filterMap, List.getLast?_map]
    cases (cs.filterMap (Call.event e)).getLast? <;> simp
  rw [HandshakeMessage.controlEvent, Protobuf.Map.at_eq_found]
  simp only [Protobuf.Map.at_eq_found]
  rw [bind_found]
  exact congrArg found (hentry.trans (congrArg _ (funext hlast)))

theorem sensors_of_built (hm : built chain.calls = .ok m) (o s : Str) :
    HandshakeMessage.sensors m o s = found ((described o chain.calls).bind (sensorTypes s)) := by
  obtain ⟨b, hb, rfl⟩ := map_eq_ok.mp hm
  have hopened : ∀ calls : List Call,
      opened s (calls.flatMap Call.sensorEvents) = true ↔ .withSensor s ∈ calls := fun calls =>
    opened_flatMap fun c => by cases c <;> simp [Call.sensorEvents, eq_comm]
  have hpart : (b.message.objects[o]?.bind fun obj => obj.sensors[s]?.map (·.types)) =
      sensorTypes s (callsOn Call.robot o chain.calls) := by
    refine (Cursors.part_run executes guards parts rfl rfl
      (fun _ => Std.ExtTreeMap.getElem?_empty) chain hb o s).trans ?_
    rw [kept_run s _ (by simp), funext partEvents_effect, sensorTypes]
    simp only [Option.isSome_none, Bool.false_or, hopened, Option.getD_none,
      List.foldl_append_eq_append, ← List.flatMap_def, List.nil_append]
  rw [HandshakeMessage.sensors, Protobuf.Map.at_eq_found]
  simp only [Protobuf.Map.at_eq_found, map_found]
  rw [bind_found, hpart, described]
  by_cases ho : .withRobot o ∈ chain.calls
  · rw [if_pos ho]
    rfl
  · rw [if_neg ho, callsOn_of_not_mem ho]
    rfl

/-- **What a built message says.** -/
theorem tells_of_built (hm : built chain.calls = .ok m) : Tells m chain.calls := by
  obtain ⟨b, hb, rfl⟩ := map_eq_ok.mp hm
  refine ⟨lists_of_built hm, names_of_built hm, types_of_built hm, controlEvent_of_built hm,
    sensors_of_built hm, ?_, ?_, ?_⟩
  · refine get_run (fun b => HandshakeMessage.simulationSettings b.message)
      Call.simulationSettings ?_ hb
    intro b c b' hc
    rcases exec_cases hc with ⟨settings, rfl, rfl⟩ | ⟨type, rfl, rfl⟩ | ⟨name, rfl, rfl⟩ |
      ⟨name, huses, -, rfl⟩ | ⟨order, name, sensor, rfl, -, rfl⟩
    · rfl
    · rfl
    · rfl
    · cases c <;> first | rfl | exact absurd huses (by simp [Call.usesObject])
    · rfl
  · refine get_run (fun b => HandshakeMessage.controlType b.message) Call.controlType ?_ hb
    intro b c b' hc
    rcases exec_cases hc with ⟨settings, rfl, rfl⟩ | ⟨type, rfl, rfl⟩ | ⟨name, rfl, rfl⟩ |
      ⟨name, huses, -, rfl⟩ | ⟨order, name, sensor, rfl, -, rfl⟩
    · rfl
    · rfl
    · rfl
    · cases c <;> first | rfl | exact absurd huses (by simp [Call.usesObject])
    · rfl
  · refine run_invariant (P := fun b => b.message.version = CURRENT_VERSION) ?_ rfl hb
    intro b c b' hversion hc
    rcases exec_cases hc with ⟨settings, -, rfl⟩ | ⟨type, -, rfl⟩ | ⟨name, -, rfl⟩ |
      ⟨name, -, -, rfl⟩ | ⟨order, name, sensor, -, -, rfl⟩ <;> exact hversion

end Built

/-! ### Strings -/

/-- The names in an object are valid UTF-8. -/
structure ObjectValid (obj : Protobuf.HandshakeMessage.Object) : Prop where
  names : ∀ l : Names, ∀ s ∈ l.get obj, validUtf8 s = true
  controlEvents : ∀ e type, obj.controlEvents[e]? = some type → validUtf8 e = true
  sensors : ∀ s sens, obj.sensors[s]? = some sens → validUtf8 s = true

/-- The names in a message are valid UTF-8. -/
def NamesValid (m : Protobuf.HandshakeMessage) : Prop :=
  ∀ o obj, m.objects[o]? = some obj → validUtf8 o = true ∧ ObjectValid obj

theorem ObjectValid.utf8 {obj : Protobuf.HandshakeMessage.Object} (h : ObjectValid obj) :
    Protobuf.HandshakeMessage.Object.schema.Utf8 obj := by
  have hsensors : (FieldCodec.map 4 (.message Protobuf.HandshakeMessage.Sensors.schema)).Utf8
      obj.sensors :=
    FieldCodec.map_utf8_iff.mpr fun s sens hs =>
      ⟨h.sensors s sens hs, List.forall_mem_singleton.mpr trivial⟩
  simp only [Schema.Utf8, Protobuf.HandshakeMessage.Object.schema, List.forall_mem_cons]
  exact ⟨h.names .controls, trivial,
    FieldCodec.map_utf8_iff.mpr fun e type he => ⟨h.controlEvents e type he, trivial⟩, hsensors,
    trivial, h.names .jointSensors, trivial, by simp⟩

theorem utf8_of_namesValid {m : Protobuf.HandshakeMessage} (h : NamesValid m) :
    Protobuf.HandshakeMessage.schema.Utf8 m := by
  have hobjects : (FieldCodec.map 4 (.message Protobuf.HandshakeMessage.Object.schema)).Utf8
      m.objects :=
    FieldCodec.map_utf8_iff.mpr fun o obj ho => ⟨(h o obj ho).1, (h o obj ho).2.utf8⟩
  have hsettings : ∀ x ∈ m.simSettings,
      Protobuf.HandshakeMessage.SimulationSettings.schema.Utf8 x :=
    fun _ _ => List.forall_mem_singleton.mpr trivial
  simp only [Schema.Utf8, Protobuf.HandshakeMessage.schema, List.forall_mem_cons]
  exact ⟨trivial, trivial, trivial, hobjects, hsettings, by simp⟩

theorem objectValid_empty : ObjectValid {} where
  names l := by cases l <;> simp [Names.get]
  controlEvents e type he := absurd he (by simp)
  sensors s sens hs := absurd hs (by simp)

theorem ObjectValid.apply {obj : Protobuf.HandshakeMessage.Object} (h : ObjectValid obj) {c : Call}
    (hutf8 : c.Utf8) : ObjectValid (c.apply obj) := by
  cases c with
  | withControlsInOrder order =>
    refine { h with names := fun l => ?_ }
    cases l with
    | controls => exact hutf8
    | jointSensors => exact h.names .jointSensors
  | withJointSensorsInOrder order =>
    refine { h with names := fun l => ?_ }
    cases l with
    | controls => exact h.names .controls
    | jointSensors => exact hutf8
  | withSensor name =>
    refine { h with names := fun l => ?_, sensors := fun s sens hs => ?_ }
    · cases l <;> [exact h.names .controls; exact h.names .jointSensors]
    · rw [Call.apply, Protobuf.Map.getElem?_subscript] at hs
      split at hs
      · next hname => exact hname ▸ hutf8
      · exact h.sensors s sens hs
  | withControlEvent name type =>
    refine { h with names := fun l => ?_, controlEvents := fun e type he => ?_ }
    · cases l <;> [exact h.names .controls; exact h.names .jointSensors]
    · rw [Call.apply, Protobuf.Map.getElem?_insert] at he
      split at he
      · next hname => exact hname ▸ hutf8
      · exact h.controlEvents e type he
  | _ =>
    refine { h with names := fun l => ?_ }
    cases l <;> [exact h.names .controls; exact h.names .jointSensors]

theorem ObjectValid.appendTypes {obj : Protobuf.HandshakeMessage.Object} (h : ObjectValid obj)
    (sensor : Str) (order : List ValueType) : ObjectValid (appendTypes sensor order obj) := by
  refine { h with names := fun l => ?_, sensors := fun s sens hs => ?_ }
  · cases l <;> [exact h.names .controls; exact h.names .jointSensors]
  · rw [HandshakeMessageBuilderImpl.appendTypes, Protobuf.Map.getElem?_update] at hs
    split at hs
    · next hname =>
      obtain ⟨sens', hs', -⟩ := Option.map_eq_some_iff.mp hs
      exact h.sensors s sens' hs'
    · exact h.sensors s sens hs

theorem namesValid_exec {b b' : HandshakeMessageBuilderImpl} {c : Call} (hutf8 : c.Utf8)
    (h : NamesValid b.message) (hc : b.exec c = .ok b') : NamesValid b'.message := by
  -- an object that is written to stays valid, and so do the others
  have hupdate : ∀ {name : Str} {f : Protobuf.HandshakeMessage.Object → _},
      (∀ obj, ObjectValid obj → ObjectValid (f obj)) → ∀ o obj,
      (Protobuf.Map.update b.message.objects name f)[o]? = some obj →
        validUtf8 o = true ∧ ObjectValid obj := by
    intro name f hf o obj ho
    rw [Protobuf.Map.getElem?_update] at ho
    split at ho
    · obtain ⟨obj', hobj', rfl⟩ := Option.map_eq_some_iff.mp ho
      exact ⟨(h o obj' hobj').1, hf obj' (h o obj' hobj').2⟩
    · exact h o obj ho
  rcases exec_cases hc with ⟨settings, rfl, rfl⟩ | ⟨type, rfl, rfl⟩ | ⟨name, rfl, rfl⟩ |
    ⟨name, -, -, rfl⟩ | ⟨order, name, sensor, -, -, rfl⟩
  · exact h
  · exact h
  · intro o obj ho
    rw [withRobot, Protobuf.Map.getElem?_subscript] at ho
    split at ho
    · next hname =>
      refine ⟨hname ▸ hutf8, ?_⟩
      rcases hob : b.message.objects[o]? with _ | obj' <;> rw [hob] at ho
      · exact Option.some.inj ho ▸ objectValid_empty
      · exact Option.some.inj ho ▸ (h o obj' hob).2
    · exact h o obj ho
  · exact hupdate fun obj hobj => hobj.apply hutf8
  · exact hupdate fun obj hobj => hobj.appendTypes sensor order

/-- The strings of a built message are the names that the calls gave. -/
theorem utf8_of_built {calls : List Call} (hcalls : ∀ c ∈ calls, c.Utf8)
    {m : Protobuf.HandshakeMessage} (hm : built calls = .ok m) :
    Protobuf.HandshakeMessage.schema.Utf8 m := by
  obtain ⟨b, hb, rfl⟩ := map_eq_ok.mp hm
  refine utf8_of_namesValid (run_invariant_of_mem (P := fun b => NamesValid b.message)
    (fun hmem h hc => namesValid_exec (hcalls _ hmem) h hc) ?_ hb)
  exact fun o obj ho => absurd ho (by simp [builder])

/-! ### Before and after the wire -/

/-- **A HandshakeMessage says what its chain said.**  Each chain with valid names
builds a message whose accessors answer what its calls said, and a HandshakeMessage
read from any encoding of it answers the same.  It is read back whenever it can be
encoded at all. -/
theorem tells_built (chain : Chain interfaces) (hcalls : ∀ c ∈ chain.calls, c.Utf8) :
    ∃ m, built chain.calls = .ok m ∧ Tells m chain.calls ∧
      ∀ out, serializeToString ⟨.handshakeMessage, m⟩ out →
        (∀ m', fromBytes out = .ok ⟨.handshakeMessage, m'⟩ → Tells m' chain.calls) ∧
          (Protobuf.HandshakeMessage.schema.byteSize m < 2 ^ 31 →
            fromBytes out = .ok ⟨.handshakeMessage, m⟩) := by
  obtain ⟨b, hb⟩ := run_chain chain
  have hm : built chain.calls = .ok b.message := congrArg (Except.map _) hb
  have htag : Message.Tagged ⟨.handshakeMessage, b.message⟩ := built_messageType hm
  have hu := utf8_of_built hcalls hm
  refine ⟨b.message, hm, tells_of_built hm, fun out hout => ⟨?_, ?_⟩⟩
  · intro m' hm'
    have heq := eq_of_fromBytes htag hu (by simp) hout hm' rfl
    obtain rfl : m' = b.message := by simpa using heq
    exact tells_of_built hm
  · intro hsize
    exact fromBytes_of_serializes htag hu (Nat.le_sub_one_of_lt hsize) hout

/-- A sensor that is chosen again when its robot is, and controls that are given twice. -/
theorem tells_built_robots :
    let calls : List Call := [.withControlType ValueType.Force3D, .withRobot [114],
      .withControlsInOrder [[97]], .withSensor [115], .withTypesInOrder [ValueType.Force3D],
      .withRobot [98], .withControlEvent [103] ValueType.Activated, .withRobot [114],
      .withControlsInOrder [[98]], .withSensor [115], .withTypesInOrder [ValueType.Angle]]
    ∃ m, built calls = .ok m ∧ Tells m calls ∧
      ∀ out, serializeToString ⟨.handshakeMessage, m⟩ out →
        (∀ m', fromBytes out = .ok ⟨.handshakeMessage, m'⟩ → Tells m' calls) ∧
          (Protobuf.HandshakeMessage.schema.byteSize m < 2 ^ 31 →
            fromBytes out = .ok ⟨.handshakeMessage, m⟩) := by
  intro calls
  refine tells_built ⟨calls, .addRobotBuilder, rfl⟩ fun c hc => ?_
  simp only [calls, List.mem_cons, List.not_mem_nil, or_false] at hc
  rcases hc with rfl | rfl | rfl | rfl | rfl | rfl | rfl | rfl | rfl | rfl | rfl <;>
    simp only [Call.Utf8] <;> decide

end Click.HandshakeMessageBuilderImpl
