/-
Readings survive from the builder to the reader.

A named sensor is emptied when it is opened, and holds what the typed setters add
while it is current.  The pointer to it stays set when another object is opened, but
the interfaces offer no typed setter before another sensor is.

* `elements_step`, `elements_run` — calls that do not open a sensor again leave its
  elements alone;
* `utf8_of_built` — the strings of a built message are the names in the calls;
* `readings_survive` — the readings of a sensor are read back with their types,
  before and after the wire.
-/
import Click.Description
import Click.SensorAccessors

open Proto Fluent

namespace Click.SensorMessageBuilderImpl

open Description (elements)

/-- The object that is current after some calls. -/
def currentObject (calls : List Call) : Option Str := (calls.filterMap Call.enters).getLast?

/-- The sensors that are opened, each with the object that is current then. -/
def sensorsOpened : Option Str → List Call → List (Str × Str)
  | _, [] => []
  | curr, c :: calls => (curr.bind fun o => c.opens.map fun s => (o, s)).toList ++
      sensorsOpened (c.enters.or curr) calls

/-- The names in a call are valid UTF-8. -/
def Call.Utf8 : Call → Prop
  | .object name => validUtf8 name = true
  | .withSensor name => validUtf8 name = true
  | _ => True

variable {b b' : SensorMessageBuilderImpl}

/-! ### Calls that leave a sensor alone -/

/-- Only `withSensor` changes the sensors of the object it writes to. -/
theorem sensors_apply (o : Protobuf.SensorMessage.Object) (c : Call) {s : Str}
    (hs : c.opens ≠ some s) : (c.apply o).sensors[s]? = o.sensors[s]? := by
  cases c with
  | withSensor name =>
    have hname : name ≠ s := fun h => hs (by rw [h]; rfl)
    rw [Call.apply, Protobuf.Map.getElem?_insert, if_neg hname]
  | _ => rfl

/-- An object is opened with the sensors it has. -/
theorem elements_object (b : SensorMessageBuilderImpl) (name : Str) (k : Str × Str) :
    elements (b.object name) k = elements b k := by
  obtain ⟨o, s⟩ := k
  by_cases hn : name = o
  · subst hn
    rcases hob : b.message.objects[name]? with _ | obj <;> simp [elements, object, hob]
  · simp [elements, object, hn]

/-- A typed setter is offered only while the sensor it adds to is current, so that a
sensor which is not keeps its elements until it is opened again. -/
theorem elements_step {i j : Interface} {c : Call} (ho : interfaces.offers i c = some j)
    (hc : b.exec c = .ok b') {o s : Str}
    (hcurr : i = .addSensorBuilder → b.currSensor ≠ some (o, s))
    (hopen : c.opens = some s → b.currObject ≠ some o) :
    elements b' (o, s) = elements b (o, s) ∧
      (j = .addSensorBuilder → b'.currSensor ≠ some (o, s)) := by
  rcases exec_cases hc with ⟨name, rfl, rfl⟩ | ⟨time, rfl, rfl⟩ | ⟨name, huses, hname, rfl⟩ |
    ⟨setter, name, sensor, rfl, hsens, rfl⟩
  · refine ⟨elements_object b name (o, s), ?_⟩
    rintro rfl
    cases i <;> exact absurd ho (by simp [interfaces])
  · refine ⟨rfl, ?_⟩
    rintro rfl
    cases i <;> exact absurd ho (by simp [interfaces])
  · constructor
    · by_cases hn : name = o
      · subst hn
        have hs : c.opens ≠ some s := fun h => hopen h hname
        rcases hob : b.message.objects[name]? with _ | obj
        · simp [elements, hob]
        · simp [elements, hob, sensors_apply obj c hs]
      · simp [elements, hn]
    · rintro rfl
      obtain ⟨sensor, rfl⟩ : ∃ sensor, c = .withSensor sensor := by
        cases i <;> cases c <;> simp_all [interfaces, Call.usesObject]
      intro hs
      obtain ⟨rfl, rfl⟩ : name = o ∧ sensor = s := by simpa [Call.opens] using hs
      exact hopen rfl hname
  · -- the setter was offered, so the sensor it adds to is another one
    have hi : i = .addSensorBuilder ∧ j = .addSensorBuilder := by
      cases i <;> simp_all [interfaces]
    have hne : (name, sensor) ≠ (o, s) := fun h => hcurr hi.1 (by rw [hsens, h])
    refine ⟨?_, fun _ => hcurr hi.1⟩
    by_cases hn : name = o
    · subst hn
      have hs : sensor ≠ s := fun h => hne (by rw [h])
      rcases hob : b.message.objects[name]? with _ | obj <;> simp [elements, hob, hs]
    · simp [elements, hn]

/-! ### A chain -/

theorem currObject_exec {c : Call} (h : b.exec c = .ok b') :
    b'.currObject = c.enters.or b.currObject := by
  rcases exec_cases h with ⟨name, rfl, rfl⟩ | ⟨time, rfl, rfl⟩ | ⟨name, huses, -, rfl⟩ |
    ⟨setter, name, sensor, rfl, -, rfl⟩
  · rfl
  · rfl
  · cases c <;> first | rfl | exact absurd huses (by simp [Call.usesObject])
  · rfl

theorem currObject_run {calls : List Call} (h : run exec b calls = .ok b') :
    b'.currObject = (currentObject calls).or b.currObject := by
  induction calls generalizing b with
  | nil =>
    obtain rfl := Except.ok.inj h
    rfl
  | cons c calls ih =>
    obtain ⟨b₁, hb, hrun⟩ := (run_cons_eq_ok exec).mp h
    rw [ih hrun, currObject_exec hb, currentObject, currentObject]
    rcases hc : c.enters with _ | name
    · rw [List.filterMap_cons_none hc, Option.none_or]
    · rw [List.filterMap_cons_some hc, List.getLast?_cons]
      cases (calls.filterMap Call.enters).getLast? <;> rfl

/-- **Until it is opened again a sensor that is not current keeps its elements.** -/
theorem elements_run {i j : Interface} {calls : List Call}
    (hf : interfaces.follow i calls = some j) (h : run exec b calls = .ok b') {o s : Str}
    (hcurr : i = .addSensorBuilder → b.currSensor ≠ some (o, s))
    (hopen : (o, s) ∉ sensorsOpened b.currObject calls) :
    elements b' (o, s) = elements b (o, s) := by
  induction calls generalizing i b with
  | nil =>
    obtain rfl := Except.ok.inj h
    rfl
  | cons c calls ih =>
    obtain ⟨k, hk, hf⟩ := Option.bind_eq_some_iff.mp hf
    obtain ⟨b₁, hb, hrun⟩ := (run_cons_eq_ok exec).mp h
    obtain ⟨hhead, htail⟩ := not_or.mp (mt List.mem_append.mpr hopen)
    have hother : c.opens = some s → b.currObject ≠ some o := by
      intro hs ho
      exact hhead (by simp [hs, ho])
    obtain ⟨helems, hcurr'⟩ := elements_step hk hb hcurr hother
    rw [← helems]
    exact ih hf hrun hcurr' (by rw [currObject_exec hb]; exact htail)

/-- A pointer that is set points to an object of the message. -/
def Anchored (b : SensorMessageBuilderImpl) : Prop :=
  ∀ o, b.currObject = some o → b.message.objects[o]?.isSome = true

theorem anchored_exec {c : Call} (h : b.Anchored) (hc : b.exec c = .ok b') : b'.Anchored := by
  rcases exec_cases hc with ⟨name, rfl, rfl⟩ | ⟨time, rfl, rfl⟩ | ⟨name, huses, hname, rfl⟩ |
    ⟨setter, name, sensor, rfl, hsens, rfl⟩
  · intro o ho
    obtain rfl := Option.some.inj ho
    simp [object]
  · exact h
  · intro o ho
    have := h o ho
    by_cases hn : name = o <;> simp_all
  · intro o ho
    have := h o ho
    by_cases hn : name = o <;> simp_all

/-- Opening a sensor empties it and makes it current. -/
theorem exec_withSensor (h : b.Anchored) {o s : Str} (ho : b.currObject = some o)
    (hc : b.exec (.withSensor s) = .ok b') :
    b'.currObject = some o ∧ b'.currSensor = some (o, s) ∧ elements b' (o, s) = some [] := by
  obtain ⟨obj, hobj⟩ := Option.isSome_iff_exists.mp (h o ho)
  obtain ⟨b₁, hb₁, hc⟩ := bind_eq_ok.mp hc
  obtain ⟨name, hname, rfl⟩ := onCurrObject_eq_ok.mp hb₁
  obtain rfl := Option.some.inj (ho.symm.trans hname)
  obtain rfl := Except.ok.inj hc
  simp [elements, hobj, ho]

/-- The interfaces stay with a sensor until an object is opened. -/
theorem follow_typed (setters : List TypedSetter) :
    interfaces.follow .addSensorBuilder (setters.map .typed) = some .addSensorBuilder := by
  induction setters with
  | nil => rfl
  | cons setter setters ih => exact ih

theorem currentObject_typed (setters : List TypedSetter) :
    currentObject (setters.map .typed) = none := by
  simp [currentObject, List.filterMap_map, Function.comp_def, Call.enters]

theorem elements_message {o s : Str} {l : List Protobuf.SensorMessage.Sensor}
    (h : elements b (o, s) = some l) : SensorMessage.elements b.message o s = .ok l := by
  obtain ⟨sens, hsens, rfl⟩ := Option.map_eq_some_iff.mp h
  obtain ⟨obj, hobj, hsens⟩ := Option.bind_eq_some_iff.mp hsens
  rw [SensorMessage.elements, Protobuf.Map.at_of_some hobj]
  exact congrArg (fun x => x.bind fun y => Except.ok y.sensor) (Protobuf.Map.at_of_some hsens)

/-- After the setters of a sensor comes a call that leaves it. -/
theorem elements_leave {j : Interface} {calls : List Call}
    (hf : interfaces.follow .addSensorBuilder calls = some j)
    (hall : ∀ setter rest, calls ≠ .typed setter :: rest) (h : run exec b calls = .ok b')
    {o s : Str} (hopen : (o, s) ∉ sensorsOpened b.currObject calls) :
    elements b' (o, s) = elements b (o, s) := by
  rcases calls with _ | ⟨c, calls⟩
  · obtain rfl := Except.ok.inj h
    rfl
  · obtain ⟨k, hk, hf⟩ := Option.bind_eq_some_iff.mp hf
    cases c with
    | object name =>
      obtain rfl := Option.some.inj hk
      have hrun := elements_run (b := b.object name) hf h (o := o) (s := s) (by simp)
        (by simpa [sensorsOpened, Call.opens, Call.enters, object] using hopen)
      exact hrun.trans (elements_object b name (o, s))
    | typed setter => exact absurd rfl (hall setter calls)
    | _ => exact absurd hk (by simp [interfaces])

/-- **The elements of a sensor that is not opened again.** -/
theorem elements_of_built {chain : Chain interfaces} {o s : Str} {pre post : List Call}
    {setters : List TypedSetter}
    (hcalls : chain.calls = pre ++ .withSensor s :: (setters.map .typed ++ post))
    (hcurr : currentObject pre = some o) (hall : ∀ setter rest, post ≠ .typed setter :: rest)
    (hlast : (o, s) ∉ sensorsOpened (some o) post) {m : Protobuf.SensorMessage}
    (hm : built chain.calls = .ok m) :
    SensorMessage.elements m o s = .ok (setters.map fun t => ⟨some t.value⟩) := by
  obtain ⟨b, hb, rfl⟩ := map_eq_ok.mp hm
  rw [hcalls, run_append_eq_ok] at hb
  obtain ⟨b₁, hpre, hb⟩ := hb
  obtain ⟨b₂, hopen, hb⟩ := (run_cons_eq_ok exec).mp hb
  obtain ⟨b₃, htyped, hpost⟩ := (run_append_eq_ok exec).mp hb
  -- opened and filled
  have hanch : b₁.Anchored :=
    run_invariant (P := Anchored) anchored_exec (fun o ho => absurd ho (by simp [builder])) hpre
  have ho₁ : b₁.currObject = some o := by
    rw [currObject_run hpre, hcurr]
    rfl
  obtain ⟨ho₂, hs₂, helems₂⟩ := exec_withSensor hanch ho₁ hopen
  obtain ⟨b₃', hb₃', hs₃, helems₃⟩ := Description.run_typed setters hs₂
  obtain rfl := Except.ok.inj (htyped.symm.trans hb₃')
  have ho₃ : b₃.currObject = some o := by
    rw [currObject_run htyped, currentObject_typed, ho₂]
    rfl
  have hfull : elements b₃ (o, s) = some (setters.map fun t => ⟨some t.value⟩) := by
    rw [helems₃, if_pos rfl, helems₂]
    rfl
  -- and left alone from then on
  apply elements_message
  rw [← hfull]
  have hadm := chain.admitted
  rw [hcalls, Interfaces.follow_append] at hadm
  obtain ⟨i₁, -, hadm⟩ := Option.bind_eq_some_iff.mp hadm
  obtain ⟨i₂, hi₂, hadm⟩ := Option.bind_eq_some_iff.mp hadm
  obtain rfl : i₂ = .addSensorBuilder := by
    cases i₁ <;> simp_all [interfaces]
  rw [Interfaces.follow_append, follow_typed, Option.bind_some] at hadm
  exact elements_leave hadm hall hpost (by rw [ho₃]; exact hlast)

/-! ### Strings -/

theorem utf8_vec3 (v : Protobuf.SensorMessage.Vec3) :
    Protobuf.SensorMessage.Vec3.schema.Utf8 v :=
  List.forall_mem_singleton.mpr trivial

/-- There is no string in a reading. -/
theorem utf8_sensor (x : Protobuf.SensorMessage.Sensor) :
    Protobuf.SensorMessage.Sensor.schema.Utf8 x := by
  have halts : ∀ a ∈ Protobuf.SensorMessage.Sensor.alts, ∀ y, a.value.Utf8 y := by
    simp only [Protobuf.SensorMessage.Sensor.alts, List.forall_mem_cons]
    exact ⟨fun _ => trivial, fun _ => trivial, fun _ => trivial, utf8_vec3, utf8_vec3,
      fun _ => trivial, utf8_vec3, utf8_vec3, utf8_vec3, utf8_vec3, utf8_vec3, utf8_vec3,
      fun _ => trivial, by simp⟩
  exact List.forall_mem_singleton.mpr fun v _ a ha y _ => halts a ha y

theorem utf8_sensors (x : Protobuf.SensorMessage.Sensors) :
    Protobuf.SensorMessage.Sensors.schema.Utf8 x :=
  List.forall_mem_singleton.mpr fun y _ => utf8_sensor y

/-- The strings of an object are the names of its sensors. -/
theorem utf8_object {obj : Protobuf.SensorMessage.Object}
    (h : ∀ s sens, obj.sensors[s]? = some sens → validUtf8 s = true) :
    Protobuf.SensorMessage.Object.schema.Utf8 obj := by
  have hsensors : (FieldCodec.map 6 (.message Protobuf.SensorMessage.Sensors.schema)).Utf8
      obj.sensors :=
    FieldCodec.map_utf8_iff.mpr fun s sens hs => ⟨h s sens hs, utf8_sensors sens⟩
  simp only [Schema.Utf8, Protobuf.SensorMessage.Object.schema, List.forall_mem_cons]
  exact ⟨trivial, trivial, trivial, fun x _ => utf8_sensor x, fun v _ => utf8_vec3 v, hsensors,
    by simp⟩

/-- The names in a message are valid UTF-8. -/
def NamesValid (m : Protobuf.SensorMessage) : Prop :=
  ∀ o obj, m.objects[o]? = some obj → validUtf8 o = true ∧
    ∀ s sens, obj.sensors[s]? = some sens → validUtf8 s = true

theorem utf8_of_namesValid {m : Protobuf.SensorMessage} (h : NamesValid m) :
    Protobuf.SensorMessage.schema.Utf8 m := by
  have hobjects : (FieldCodec.map 3 (.message Protobuf.SensorMessage.Object.schema)).Utf8
      m.objects :=
    FieldCodec.map_utf8_iff.mpr fun o obj ho => ⟨(h o obj ho).1, utf8_object (h o obj ho).2⟩
  have hvars : ∀ x ∈ m.simVars, Protobuf.SensorMessage.SimulationVariables.schema.Utf8 x :=
    fun _ _ => List.forall_mem_singleton.mpr trivial
  simp only [Schema.Utf8, Protobuf.SensorMessage.schema, List.forall_mem_cons]
  exact ⟨trivial, hobjects, hvars, by simp⟩

theorem namesValid_exec {c : Call} (hutf8 : c.Utf8) (h : NamesValid b.message)
    (hc : b.exec c = .ok b') : NamesValid b'.message := by
  rcases exec_cases hc with ⟨name, rfl, rfl⟩ | ⟨time, rfl, rfl⟩ | ⟨name, huses, hname, rfl⟩ |
    ⟨setter, name, sensor, rfl, hsens, rfl⟩
  · intro o obj ho
    by_cases hn : name = o
    · subst hn
      refine ⟨hutf8, fun s sens hs => ?_⟩
      rcases hob : b.message.objects[name]? with _ | obj' <;> simp [object, hob] at ho
      · simp [← ho] at hs
      · exact (h _ _ (hob.trans (congrArg some ho))).2 s sens hs
    · exact h o obj (by simpa [object, hn] using ho)
  · exact h
  · intro o obj ho
    by_cases hn : name = o
    · subst hn
      obtain ⟨obj', hobj', rfl⟩ := Option.map_eq_some_iff.mp (by simpa using ho)
      refine ⟨(h _ _ hobj').1, fun s sens hs => ?_⟩
      by_cases hopen : c.opens = some s
      · cases c with
        | withSensor s' =>
          obtain rfl := Option.some.inj hopen
          exact hutf8
        | _ => exact absurd hopen (by simp [Call.opens])
      · exact (h _ _ hobj').2 s sens ((sensors_apply obj' c hopen).symm.trans hs)
    · exact h o obj (by simpa [hn] using ho)
  · intro o obj ho
    by_cases hn : name = o
    · subst hn
      obtain ⟨obj', hobj', rfl⟩ := Option.map_eq_some_iff.mp (by simpa using ho)
      refine ⟨(h _ _ hobj').1, fun s sens hs => ?_⟩
      by_cases hs' : sensor = s
      · subst hs'
        obtain ⟨sens', hsens', -⟩ := Option.map_eq_some_iff.mp (by simpa using hs)
        exact (h _ _ hobj').2 sensor sens' hsens'
      · exact (h _ _ hobj').2 s sens (by simpa [hs'] using hs)
    · exact h o obj (by simpa [hn] using ho)

/-- The strings of a built message are the names that the calls gave. -/
theorem utf8_of_built {calls : List Call} (hcalls : ∀ c ∈ calls, c.Utf8)
    {m : Protobuf.SensorMessage} (hm : built calls = .ok m) :
    Protobuf.SensorMessage.schema.Utf8 m := by
  obtain ⟨b, hb, rfl⟩ := map_eq_ok.mp hm
  refine utf8_of_namesValid (run_invariant_of_mem (P := fun b => NamesValid b.message)
    (fun hmem h hc => namesValid_exec (hcalls _ hmem) h hc) ?_ hb)
  exact fun o obj ho => absurd ho (by simp [builder])

/-! ### Before and after the wire -/

/-- The elements that setters leave behind are read as what the setters were given. -/
theorem sensor_of_elements {m : Protobuf.SensorMessage} {o s : Str} {setters : List TypedSetter}
    (h : SensorMessage.elements m o s = .ok (setters.map fun t => ⟨some t.value⟩)) :
    SensorMessage.sensor m o s = .ok (setters.map TypedSetter.reading) := by
  rw [SensorMessage.sensor_eq h, SensorMessage.mapM_convert_eq_ok_iff, List.forall₂_map_left_iff,
    List.forall₂_map_right_iff, List.forall₂_same]
  exact fun t _ => convert_value t

/-- **Readings survive.**  In a chain that opens sensor `s` on object `o`, gives it
readings and does not open it again, the readings are read back from the message it
builds, and from any SensorMessage that is read from an encoding of that message;
this comes back whenever it can be encoded at all.  A list that was received is
rejected exactly if an element of it carries no value. -/
theorem readings_survive (chain : Chain interfaces) (o s : Str) (pre post : List Call)
    (setters : List TypedSetter)
    (hcalls : chain.calls = pre ++ .withSensor s :: (setters.map .typed ++ post))
    (hcurr : currentObject pre = some o) (hall : ∀ setter rest, post ≠ .typed setter :: rest)
    (hlast : (o, s) ∉ sensorsOpened (some o) post) :
    ((¬ TimeFirst chain.calls → ∃ m, built chain.calls = .ok m) ∧
      ∀ m, built chain.calls = .ok m →
        SensorMessage.sensor m o s = .ok (setters.map TypedSetter.reading) ∧
          ((∀ c ∈ chain.calls, c.Utf8) → ∀ out, serializeToString ⟨.sensorMessage, m⟩ out →
            (∀ m', fromBytes out = .ok ⟨.sensorMessage, m'⟩ →
              SensorMessage.sensor m' o s = .ok (setters.map TypedSetter.reading)) ∧
            (Protobuf.SensorMessage.schema.byteSize m < 2 ^ 31 →
              fromBytes out = .ok ⟨.sensorMessage, m⟩))) ∧
      ∀ (m : Protobuf.SensorMessage) (o' s' : Str) (l : List Protobuf.SensorMessage.Sensor),
        SensorMessage.elements m o' s' = .ok l → SensorMessage.LongVectors l →
          (Throws (SensorMessage.sensor m o' s') ↔ ∃ x ∈ l, x.value = none) := by
  refine ⟨⟨fun htime => ?_, fun m hm => ?_⟩, fun m o' s' l hl hlong => ?_⟩
  · obtain ⟨b, hb⟩ := run_of_eachCall exec_of_pointersSet
      ((pointersSet_iff_not_timeFirst chain).mpr htime)
    exact ⟨b.message, congrArg (Except.map _) hb⟩
  · have hsensor := sensor_of_elements (elements_of_built hcalls hcurr hall hlast hm)
    refine ⟨hsensor, fun hutf8 out hout => ⟨fun m' hm' => ?_, fun hsize => ?_⟩⟩
    · have heq := eq_of_fromBytes (m := ⟨.sensorMessage, m⟩) (built_messageType hm)
        (utf8_of_built hutf8 hm) (by simp) hout hm' rfl
      obtain rfl : m' = m := by simpa using heq
      exact hsensor
    · exact fromBytes_of_serializes (m := ⟨.sensorMessage, m⟩) (built_messageType hm)
        (utf8_of_built hutf8 hm) (Nat.le_sub_one_of_lt hsize) hout
  · rw [SensorMessage.sensor_eq hl]
    exact SensorMessage.throws_mapM_convert_iff hlong

/-- Zero and false are read back as they were given, and a sensor of the same name on
another object changes nothing. -/
theorem readings_survive_zero :
    let calls : List Call := [.object [114], .withSensor [115], .typed (.withForce1d 0),
      .typed (.withActivated false), .object [98], .withSensor [115], .typed (.withAngle 1)]
    ∃ m, built calls = .ok m ∧ SensorMessage.sensor m [114] [115] =
        .ok [⟨ValueType.Force1D, .force1d 0⟩, ⟨ValueType.Activated, .activated false⟩] ∧
      ∀ out, serializeToString ⟨.sensorMessage, m⟩ out → ∀ m',
        fromBytes out = .ok ⟨.sensorMessage, m'⟩ → SensorMessage.sensor m' [114] [115] =
          .ok [⟨ValueType.Force1D, .force1d 0⟩, ⟨ValueType.Activated, .activated false⟩] := by
  intro calls
  obtain ⟨⟨hbuild, hread⟩, -⟩ := readings_survive ⟨calls, .addSensorBuilder, rfl⟩ [114] [115]
    [.object [114]] [.object [98], .withSensor [115], .typed (.withAngle 1)]
    [.withForce1d 0, .withActivated false] rfl rfl (by simp) (by decide)
  obtain ⟨m, hm⟩ := hbuild (by rintro ⟨_, _, _, h, -⟩; simp [calls] at h)
  obtain ⟨hsensor, hwire⟩ := hread m hm
  refine ⟨m, hm, hsensor, fun out hout => (hwire (fun c hc => ?_) out hout).1⟩
  simp only [calls, List.mem_cons, List.not_mem_nil, or_false] at hc
  rcases hc with rfl | rfl | rfl | rfl | rfl | rfl | rfl <;> trivial

end Click.SensorMessageBuilderImpl
