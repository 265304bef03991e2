/-
Handshake and sensor messages from one description.

The handshake announces the types of the readings of each named sensor, and a
sensor message brings the readings, in the announced order.  A description lists,
step by step, an object, a sensor of it and typed readings; the handshake is built
from their types and the sensor message from the readings themselves.

Opening a sensor again continues its list in the handshake and starts it over in
the sensor message: the one is a kept and the other a fresh ledger.

* `types_simulates`, `elements_simulates` — the named sensors of the two messages
  are the entries of these ledgers;
* `agree_iff` — the two messages agree exactly when, of the steps that describe
  one sensor, all but the last are empty.
-/
import Click.HandshakeMessageBuilder
import Click.SensorMessageBuilder

open Proto Fluent

namespace Click.Description

/-- An object, a sensor of it, and readings. -/
abbrev Step := Session (Str × Str) TypedSetter

/-- `withRobot(o)->withSensor(s)->withTypesInOrder(ts)`. -/
def handshakeCalls (step : Step) : List HandshakeMessageBuilderImpl.Call :=
  [.withRobot step.1.1, .withSensor step.1.2,
    .withTypesInOrder (step.2.map fun t => t.reading.type)]

/-- `object(o)->withSensor(s)` and the typed setters. -/
def sensorCalls (step : Step) : List SensorMessageBuilderImpl.Call :=
  .object step.1.1 :: .withSensor step.1.2 :: step.2.map .typed

private theorem foldl_snoc {α β : Type} (f : α → β) (l : List α) (v : List β) :
    l.foldl (fun v t => v ++ [f t]) v = v ++ l.map f := by
  rw [List.foldl_append_eq_append, ← List.flatMap_def, ← List.map_eq_flatMap]

/-! ### The handshake -/

section Handshake

/-- The types of a named sensor. -/
def types (b : HandshakeMessageBuilderImpl) (k : Str × Str) : Option (List ValueType) :=
  (b.message.objects[k.1]?.bind fun o => o.sensors[k.2]?).map (·.types)

theorem run_handshakeCalls (b : HandshakeMessageBuilderImpl) (step : Step) :
    ∃ b', run HandshakeMessageBuilderImpl.exec b (handshakeCalls step) = .ok b' ∧
      b'.currSensor = some step.1 ∧ ∀ k, types b' k =
        if step.1 = k then some ((types b k).getD [] ++ step.2.map fun t => t.reading.type)
        else types b k := by
  obtain ⟨⟨o, s⟩, ts⟩ := step
  -- an entry that is there keeps its types, another one starts without any
  refine ⟨_, rfl, rfl, fun ⟨o', s'⟩ => ?_⟩
  by_cases ho : o = o'
  · subst ho
    by_cases hs : s = s'
    · subst hs
      rcases hobj : b.message.objects[o]? with _ | obj
      · simp [types, HandshakeMessageBuilderImpl.withRobot, hobj]
      · rcases hsens : obj.sensors[s]? with _ | sens <;>
          simp [types, HandshakeMessageBuilderImpl.withRobot, hobj, hsens]
    · rcases hobj : b.message.objects[o]? with _ | obj <;>
        simp [types, HandshakeMessageBuilderImpl.withRobot, hobj, hs]
  · simp [types, HandshakeMessageBuilderImpl.withRobot, ho]

/-- Types announced again are appended. -/
abbrev typesLedger : Ledger TypedSetter (List ValueType) :=
  Ledger.kept [] fun v t => v ++ [t.reading.type]

theorem types_simulates : typesLedger.Simulates
    (fun b step => run HandshakeMessageBuilderImpl.exec b (handshakeCalls step)) Session.events
    fun b k => (decide (b.currSensor = some k), types b k) where
  step := by
    intro b step b' hb k
    obtain ⟨b'', hb'', hcurr, htypes⟩ := run_handshakeCalls b step
    rw [hb'', Except.ok.injEq] at hb
    subst hb
    rw [track_session, htypes, hcurr]
    by_cases hk : step.1 = k
    · rw [if_pos hk, if_pos hk, hk, kept_enter, kept_act, foldl_snoc, decide_eq_true rfl]
    · rw [if_neg hk, if_neg hk, decide_eq_false (by simpa using hk)]

/-- The handshake of a description announces for a sensor the types of all its
steps. -/
theorem built_types (script : List Step) :
    ∃ m, HandshakeMessageBuilderImpl.built (script.flatMap handshakeCalls) = .ok m ∧
      ∀ step ∈ script, HandshakeMessage.sensors m step.1.1 step.1.2 =
        .ok (((script.filter (·.1 = step.1)).flatMap (·.2)).map fun t => t.reading.type) := by
  obtain ⟨b, hb⟩ : ∃ b, run (fun b step => run HandshakeMessageBuilderImpl.exec b
      (handshakeCalls step)) HandshakeMessageBuilderImpl.builder script = .ok b :=
    run_of_total _ (fun b step => (run_handshakeCalls b step).imp fun _ h => h.1) _ _
  refine ⟨b.message, ?_, fun step hstep => ?_⟩
  · rw [HandshakeMessageBuilderImpl.built, run_flatMap, hb]
    rfl
  · have hlook := congrArg Prod.snd (types_simulates.look_run hb step.1)
    rw [kept_sessions, foldl_snoc] at hlook
    have hany : script.any (·.1 = step.1) = true :=
      List.any_eq_true.mpr ⟨step, hstep, by simp⟩
    rw [hany, Bool.or_true, if_pos rfl] at hlook
    obtain ⟨sens, hsens, htypes⟩ := Option.map_eq_some_iff.mp hlook
    obtain ⟨obj, hobj, hsens⟩ := Option.bind_eq_some_iff.mp hsens
    rw [HandshakeMessage.sensors, Protobuf.Map.at_of_some hobj]
    show (Protobuf.Map.at obj.sensors step.1.2).map (·.types) = _
    rw [Protobuf.Map.at_of_some hsens]
    show Except.ok sens.types = _
    rw [htypes]
    rfl

end Handshake

/-! ### The sensor message -/

section Sensor

/-- The elements of a named sensor. -/
def elements (b : SensorMessageBuilderImpl) (k : Str × Str) :
    Option (List Protobuf.SensorMessage.Sensor) :=
  (b.message.objects[k.1]?.bind fun o => o.sensors[k.2]?).map (·.sensor)

theorem run_typed (ts : List TypedSetter) {b : SensorMessageBuilderImpl} {o s : Str}
    (hs : b.currSensor = some (o, s)) :
    ∃ b', run SensorMessageBuilderImpl.exec b (ts.map .typed) = .ok b' ∧
      b'.currSensor = some (o, s) ∧ ∀ k, elements b' k =
        if (o, s) = k then (elements b k).map (· ++ ts.map fun t => ⟨some t.value⟩)
        else elements b k := by
  -- along the setters, each of which finds the sensor still current
  induction ts generalizing b with
  | nil =>
    refine ⟨b, rfl, hs, fun k => ?_⟩
    rcases elements b k with _ | l <;> simp
  | cons t ts ih =>
    obtain ⟨b₁, hb₁, -, hs₁, hobj⟩ := SensorMessageBuilderImpl.exec_typed_of_currSensor t hs
    obtain ⟨b', hb', hs', hk⟩ := ih (hs₁.trans hs)
    refine ⟨b', ?_, hs', fun k => ?_⟩
    · rw [List.map_cons, run_cons, hb₁]
      exact hb'
    · have hstep : elements b₁ k =
          if (o, s) = k then (elements b k).map (· ++ [⟨some t.value⟩]) else elements b k := by
        obtain ⟨o', s'⟩ := k
        by_cases ho : o = o'
        · subst ho
          by_cases hss : s = s'
          · subst hss
            rcases hob : b.message.objects[o]? with _ | obj
            · simp [elements, hobj, hob]
            · rcases hsens : obj.sensors[s]? with _ | sens <;> simp [elements, hobj, hob, hsens]
          · rcases hob : b.message.objects[o]? with _ | obj <;> simp [elements, hobj, hob, hss]
        · simp [elements, hobj, ho]
      rw [hk, hstep]
      by_cases hks : (o, s) = k
      · rw [if_pos hks, if_pos hks, if_pos hks, Option.map_map]
        congr 1
        funext l
        simp
      · rw [if_neg hks, if_neg hks, if_neg hks]

theorem run_sensorCalls (b : SensorMessageBuilderImpl) (step : Step) :
    ∃ b', run SensorMessageBuilderImpl.exec b (sensorCalls step) = .ok b' ∧
      b'.currSensor = some step.1 ∧ ∀ k, elements b' k =
        if step.1 = k then some (step.2.map fun t => ⟨some t.value⟩) else elements b k := by
  obtain ⟨⟨o, s⟩, ts⟩ := step
  obtain ⟨b₁, hb₁, -, hobj, hsens⟩ := SensorMessageBuilderImpl.exec_of_usesObject
    (b := b.object o) (c := .withSensor s) rfl rfl
  have hs : b₁.currSensor = some (o, s) := by
    rcases hsens with ⟨sensor, hcall, hs⟩ | ⟨hne, -⟩
    · rw [hs, ← SensorMessageBuilderImpl.Call.withSensor.inj hcall]
    · exact absurd rfl (hne s)
  obtain ⟨b', hb', hs', helems⟩ := run_typed ts hs
  refine ⟨b', ?_, hs', fun k => ?_⟩
  · rw [sensorCalls, run_cons]
    refine (run_cons SensorMessageBuilderImpl.exec (b.object o) _ _).trans ?_
    rw [hb₁]
    exact hb'
  · -- the entry was just assigned, so it is empty before the setters run
    have hopen : elements b₁ k = if (o, s) = k then some [] else elements b k := by
      obtain ⟨o', s'⟩ := k
      by_cases ho : o = o'
      · subst ho
        by_cases hss : s = s'
        · subst hss
          simp [elements, hobj, SensorMessageBuilderImpl.object,
            SensorMessageBuilderImpl.Call.apply]
        · rcases hob : b.message.objects[o]? with _ | obj <;>
            simp [elements, hobj, SensorMessageBuilderImpl.object,
              SensorMessageBuilderImpl.Call.apply, hob, hss, Std.ExtTreeMap.getElem?_insert]
      · simp [elements, hobj, SensorMessageBuilderImpl.object, ho]
    rw [helems, hopen]
    by_cases hk : (o, s) = k
    · rw [if_pos hk, if_pos hk, if_pos hk, Option.map_some, List.nil_append]
    · rw [if_neg hk, if_neg hk, if_neg hk]

/-- A sensor that is opened again is emptied. -/
abbrev elementsLedger : Ledger TypedSetter (List Protobuf.SensorMessage.Sensor) :=
  Ledger.fresh [] fun v t => v ++ [⟨some t.value⟩]

theorem elements_simulates : elementsLedger.Simulates
    (fun b step => run SensorMessageBuilderImpl.exec b (sensorCalls step)) Session.events
    fun b k => (decide (b.currSensor = some k), elements b k) where
  step := by
    intro b step b' hb k
    obtain ⟨b'', hb'', hcurr, helems⟩ := run_sensorCalls b step
    rw [hb'', Except.ok.injEq] at hb
    subst hb
    rw [track_session, helems, hcurr]
    by_cases hk : step.1 = k
    · rw [if_pos hk, if_pos hk, hk, fresh_enter, fresh_act, foldl_snoc, decide_eq_true rfl,
        List.nil_append]
    · rw [if_neg hk, if_neg hk, decide_eq_false (by simpa using hk)]

/-- The sensor message of a description brings for a sensor the readings of its
last step. -/
theorem built_elements (script : List Step) :
    ∃ m, SensorMessageBuilderImpl.built (script.flatMap sensorCalls) = .ok m ∧
      ∀ step ∈ script, ∃ last ∈ (script.filter (·.1 = step.1)).getLast?,
        SensorMessage.sensor m step.1.1 step.1.2 = .ok (last.2.map TypedSetter.reading) := by
  obtain ⟨b, hb⟩ : ∃ b, run (fun b step => run SensorMessageBuilderImpl.exec b
      (sensorCalls step)) SensorMessageBuilderImpl.builder script = .ok b :=
    run_of_total _ (fun b step => (run_sensorCalls b step).imp fun _ h => h.1) _ _
  refine ⟨b.message, ?_, fun step hstep => ?_⟩
  · rw [SensorMessageBuilderImpl.built, run_flatMap, hb]
    rfl
  · have hlook := congrArg Prod.snd (elements_simulates.look_run hb step.1)
    rw [fresh_sessions] at hlook
    have hmem : step ∈ script.filter (·.1 = step.1) := List.mem_filter.mpr ⟨hstep, by simp⟩
    obtain ⟨last, hlast⟩ := Option.isSome_iff_exists.mp
      (List.getLast?_isSome.mpr (List.ne_nil_of_mem hmem))
    rw [hlast, Option.map_some, Option.some_or, foldl_snoc, List.nil_append] at hlook
    refine ⟨last, hlast, ?_⟩
    obtain ⟨sens, hsens, helems⟩ := Option.map_eq_some_iff.mp hlook
    obtain ⟨obj, hobj, hsens⟩ := Option.bind_eq_some_iff.mp hsens
    have hel : SensorMessage.elements b.message step.1.1 step.1.2 = .ok sens.sensor := by
      simp only [SensorMessage.elements, Protobuf.Map.at_of_some hobj,
        Protobuf.Map.at_of_some hsens, bind, Except.bind, pure, Except.pure]
    rw [SensorMessage.sensor_eq hel, helems, SensorMessage.mapM_convert_eq_ok_iff,
      List.forall₂_map_left_iff, List.forall₂_map_right_iff, List.forall₂_same]
    exact fun t _ => convert_value t

end Sensor

/-! ### Agreement -/

/-- Both messages are built, and for each sensor described the readings have the
types announced. -/
def Agree (script : List Step) : Prop :=
  ∃ hm sm, HandshakeMessageBuilderImpl.built (script.flatMap handshakeCalls) = .ok hm ∧
    SensorMessageBuilderImpl.built (script.flatMap sensorCalls) = .ok sm ∧
    ∀ step ∈ script, ∃ readings, SensorMessage.sensor sm step.1.1 step.1.2 = .ok readings ∧
      HandshakeMessage.sensors hm step.1.1 step.1.2 = .ok (readings.map (·.type))

/-- **When the two messages agree**: exactly when, of the steps that describe one
sensor, all but the last are empty. -/
theorem agree_iff (script : List Step) :
    Agree script ↔
      ∀ k, ∀ step ∈ (script.filter (·.1 = k)).dropLast, step.2 = [] := by
  obtain ⟨hm, hhm, htypes⟩ := built_types script
  obtain ⟨sm, hsm, hreadings⟩ := built_elements script
  have hkey : ∀ step ∈ script, (∃ readings,
      SensorMessage.sensor sm step.1.1 step.1.2 = .ok readings ∧
        HandshakeMessage.sensors hm step.1.1 step.1.2 = .ok (readings.map (·.type))) ↔
      ∀ s ∈ (script.filter (·.1 = step.1)).dropLast, s.2 = [] := by
    intro step hstep
    obtain ⟨last, hlast, hsensor⟩ := hreadings step hstep
    obtain ⟨front, hfront⟩ := List.getLast?_eq_some_iff.mp hlast
    rw [hsensor, htypes step hstep, hfront, List.dropLast_concat, List.flatMap_append,
      List.flatMap_singleton]
    constructor
    · rintro ⟨readings, hr, ht⟩ s hs
      rw [Except.ok.injEq] at hr ht
      -- what the earlier steps announced is missing in the message
      have hlen := congrArg List.length ht
      rw [← hr, List.length_map, List.length_append, List.length_map, List.length_map] at hlen
      have hzero : (front.flatMap (·.2)).length = 0 := by omega
      exact List.flatMap_eq_nil_iff.mp (List.eq_nil_of_length_eq_zero hzero) s hs
    · intro hempty
      rw [List.flatMap_eq_nil_iff.mpr hempty, List.nil_append]
      exact ⟨_, rfl, by rw [List.map_map]; rfl⟩
  constructor
  · rintro ⟨hm', sm', hhm', hsm', hagree⟩ k s hs
    rw [hhm, Except.ok.injEq] at hhm'
    rw [hsm, Except.ok.injEq] at hsm'
    subst hhm' hsm'
    obtain ⟨hin, hk⟩ := List.mem_filter.mp (List.mem_of_mem_dropLast hs)
    obtain rfl : s.1 = k := by simpa using hk
    exact (hkey s hin).mp (hagree s hin) s hs
  · exact fun h => ⟨hm, sm, hhm, hsm, fun step hstep => (hkey step hstep).mpr (h step.1)⟩

theorem not_agree : ¬ ∀ script, Agree script := by
  intro h
  obtain ⟨hm, sm, hhm, hsm, hagree⟩ :=
    h [(([114], [115]), [.withAngle 0]), (([114], [115]), [.withTorque1d 0])]
  obtain ⟨readings, hreadings, htypes⟩ := hagree (([114], [115]), [.withAngle 0]) (by simp)
  obtain rfl := Except.ok.inj hhm
  obtain rfl := Except.ok.inj hsm
  obtain rfl := Except.ok.inj hreadings
  exact absurd htypes (by decide)

end Click.Description
