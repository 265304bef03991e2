/-
A SensorMessage carries what its chain gave.

The accessors of a built message are answered from the calls that were made while an
object was current.  A list of values is the one given last, a position or rotation the
one given first, and a named sensor has the readings that followed the last call that
chose it.

* `carries_of_built` — what a built message carries;
* `carries_built` — so it carries the same after the wire.
-/
import Click.Fluent.Parts
import Click.ObjectOrder
import Click.SensorObjects
import Click.SensorReadback

open Proto Fluent

namespace Click.SensorMessageBuilderImpl

open Protobuf (found map_found bind_found)

/-- The calls on an object, if it is opened at all. -/
def described (o : Str) (calls : List Call) : Option (List Call) :=
  if .object o ∈ calls then some (callsOn Call.enters o calls) else none

/-- The typed setter that a call is. -/
def Call.setter : Call → Option TypedSetter
  | .typed setter => some setter
  | _ => none

/-- The readings given to a named sensor among some calls on its object, after the last
call that chose it. -/
def readings (name : Str) (calls : List Call) : Option (List Sensor) :=
  ((sessions Call.opens calls).filter (·.1 = name)).getLast?.map fun session =>
    (session.2.filterMap Call.setter).map TypedSetter.reading

/-- The accessors of a message answer what the calls of a chain gave. -/
structure Carries (m : Protobuf.SensorMessage) (calls : List Call) : Prop where
  values : ∀ (k : Kind) o, k.accessor m o =
    found ((described o calls).map fun cs => (cs.filterMap (Call.values k)).getLast?.getD [])
  pose : ∀ (p : Pose) o,
    match described o calls with
    | none => p.accessor m o = .error .keyNotFound
    | some cs =>
      match (cs.filterMap (Call.pose p)).head? with
      | some vec3 => p.accessor m o = .ok vec3
      | none => Throws (p.accessor m o)
  sensor : ∀ o s, SensorMessage.sensor m o s = found ((described o calls).bind (readings s))
  simulatedTime : SensorMessage.simulatedTime m = (calls.filterMap Call.time).getLast?.getD 0

/-! ### What a chain gives -/

theorem events_eq (c : Call) : c.events = [callEvent Call.enters c] := by cases c <;> rfl

theorem actsOn_eq_callsOn (o : Str) (calls : List Call) :
    actsOn o calls = callsOn Call.enters o calls := by
  rw [actsOn, callsOn, funext events_eq, ← List.map_eq_flatMap]

/-- An object that is not opened is not there. -/
theorem object_of_not_mem {calls : List Call} {m : Protobuf.SensorMessage}
    (hm : built calls = .ok m) {o : Str} (ho : .object o ∉ calls) : m.objects[o]? = none := by
  obtain ⟨b, hb, rfl⟩ := map_eq_ok.mp hm
  have hlook := congrArg Prod.snd (simulates.look_run hb o)
  rw [show look builder o = (false, none) from by simp [look, builder], kept_run o _ (by simp),
    Bool.eq_false_iff.mpr (mt opened_iff_mem.mp ho)] at hlook
  simpa [look] using hlook

/-- The elements of a sensor are dropped when it is chosen again. -/
abbrev readingsLedger : Ledger Call (List Protobuf.SensorMessage.Sensor) :=
  Ledger.fresh [] fun l c => l ++ c.setter.toList.map fun t => ⟨some t.value⟩

theorem parts : Parts readingsLedger {} Call.effect
    fun (o : Protobuf.SensorMessage.Object) s => o.sensors[s]?.map (·.sensor) where
  init_none := by simp
  choose := by
    intro c f p he o q
    cases c with
    | withSensor name =>
      obtain ⟨rfl, hp⟩ := Effect.write.inj he
      obtain rfl : name = p := Option.some.inj hp
      by_cases hq : name = q <;> simp [Call.apply, Protobuf.Map.getElem?_insert, hq]
    | _ => exact absurd he (by simp [Call.effect, Call.opens])
  write := by
    intro c f he o q
    cases c with
    | withSensor name => exact absurd he (by simp [Call.effect, Call.opens])
    | object | withSimulatedTime | typed => exact absurd he (by simp [Call.effect])
    | _ =>
      obtain ⟨rfl, -⟩ := Effect.write.inj he
      rfl
  writePart := by
    intro c f he p o q
    cases c with
    | typed setter =>
      obtain rfl := Effect.writePart.inj he
      by_cases hq : p = q
      · subst hq
        cases hs : o.sensors[p]? <;> simp [Call.setter, hs]
      · simp [hq]
    | _ => exact absurd he (by simp [Call.effect])

/-- Calls that are no typed setters leave the sensors alone. -/
theorem foldl_partEvents (s : Str) (c : Call)
    (e : Bool × Option (List Protobuf.SensorMessage.Sensor)) :
    (partEvents Call.effect c).foldl (readingsLedger.track s) e =
      readingsLedger.track s e (callEvent Call.opens c) := by
  cases c with
  | withSensor name | typed setter => rfl
  | _ => obtain ⟨_ | _, _ | l⟩ := e <;> simp [partEvents, Call.effect, callEvent, Call.opens,
      Ledger.track, Call.setter]

theorem foldl_setters (cs : List Call) :
    cs.foldl (fun l c => l ++ c.setter.toList.map fun t => ⟨some t.value⟩) [] =
      (cs.filterMap Call.setter).map fun t =>
        (⟨some t.value⟩ : Protobuf.SensorMessage.Sensor) := by
  rw [List.foldl_append_eq_append, ← List.flatMap_def, List.nil_append,
    List.filterMap_eq_flatMap_toList, List.map_flatMap]

section Built

variable {chain : Chain interfaces} {m : Protobuf.SensorMessage}

theorem elements_of_chain (hm : built chain.calls = .ok m) (o s : Str) :
    SensorMessage.elements m o s = found ((described o chain.calls).bind fun cs =>
      ((sessions Call.opens cs).filter (·.1 = s)).getLast?.map fun session =>
        (session.2.filterMap Call.setter).map fun t => ⟨some t.value⟩) := by
  obtain ⟨b, hb, hbm⟩ := map_eq_ok.mp hm
  have hpart : (m.objects[o]?.bind fun obj => obj.sensors[s]?.map (·.sensor)) =
      ((sessions Call.opens (callsOn Call.enters o chain.calls)).filter (·.1 = s)).getLast?.map
        fun session => (session.2.filterMap Call.setter).map fun t => ⟨some t.value⟩ := by
    rw [← hbm]
    refine (Cursors.part_run executes guards parts rfl rfl
      (fun _ => Std.ExtTreeMap.getElem?_empty) chain hb o s).trans ?_
    rw [List.foldl_flatMap]
    simp only [foldl_partEvents]
    rw [← List.foldl_map, map_callEvent, List.foldl_append, track_acts, if_neg (by simp),
      fresh_sessions, Option.or_none]
    simp only [foldl_setters]
  have helements : SensorMessage.elements m o s =
      found (m.objects[o]?.bind fun obj => obj.sensors[s]?.map (·.sensor)) := by
    rw [SensorMessage.elements, ← bind_found]
    simp only [← map_found, ← Protobuf.Map.at_eq_found]
    rfl
  rw [helements, described]
  by_cases ho : .object o ∈ chain.calls
  · rw [if_pos ho, hpart]
    rfl
  · rw [if_neg ho, object_of_not_mem hm ho]
    rfl

/-- **What a built message carries.** -/
theorem carries_of_built (hm : built chain.calls = .ok m) : Carries m chain.calls where
  values k o := by
    rw [described]
    by_cases ho : .object o ∈ chain.calls
    · rw [values_of_built hm ho, if_pos ho, actsOn_eq_callsOn]
      rfl
    · rw [if_neg ho, k.accessor_eq, Protobuf.Map.at_eq_found, object_of_not_mem hm ho]
      rfl
  pose p o := by
    rw [described]
    by_cases ho : .object o ∈ chain.calls
    · rw [if_pos ho, ← actsOn_eq_callsOn]
      exact pose_of_built hm ho p
    · rw [if_neg ho]
      have hat : Protobuf.Map.at m.objects o = .error .keyNotFound := by
        rw [Protobuf.Map.at_eq_found, object_of_not_mem hm ho]
        rfl
      cases p <;> simp only [Pose.accessor, SensorMessage.objectPosition, SensorMessage.objectRPY,
        SensorMessage.objectVec3, hat] <;> rfl
  sensor o s := by
    have helements := elements_of_chain hm o s
    cases hd : described o chain.calls with
    | none =>
      rw [hd] at helements
      rw [SensorMessage.sensor, helements]
      rfl
    | some cs =>
      rw [hd, Option.bind_some] at helements
      rw [Option.bind_some, readings]
      cases hlast : ((sessions Call.opens cs).filter (·.1 = s)).getLast? with
      | none =>
        rw [hlast] at helements
        rw [SensorMessage.sensor, helements]
        rfl
      | some session =>
        rw [hlast] at helements
        exact sensor_of_elements helements
  simulatedTime := simulatedTime_of_built hm

end Built

/-! ### Before and after the wire -/

/-- **A SensorMessage carries what its chain gave.**  Each chain with valid names that
does not use an object before it opens one builds a message whose accessors answer what
its calls gave, and a SensorMessage read from any encoding of it answers the same.  It is
read back whenever it can be encoded at all. -/
theorem carries_built (chain : Chain interfaces) (hcalls : ∀ c ∈ chain.calls, c.Utf8)
    (htime : ¬ TimeFirst chain.calls) :
    ∃ m, built chain.calls = .ok m ∧ Carries m chain.calls ∧
      ∀ out, serializeToString ⟨.sensorMessage, m⟩ out →
        (∀ m', fromBytes out = .ok ⟨.sensorMessage, m'⟩ → Carries m' chain.calls) ∧
          (Protobuf.SensorMessage.schema.byteSize m < 2 ^ 31 →
            fromBytes out = .ok ⟨.sensorMessage, m⟩) := by
  obtain ⟨b, hb⟩ := run_of_eachCall exec_of_pointersSet
    ((pointersSet_iff_not_timeFirst chain).mpr htime)
  have hm : built chain.calls = .ok b.message := congrArg (Except.map _) hb
  have htag : Message.Tagged ⟨.sensorMessage, b.message⟩ := built_messageType hm
  have hu := utf8_of_built hcalls hm
  refine ⟨b.message, hm, carries_of_built hm, fun out hout => ⟨?_, ?_⟩⟩
  · intro m' hm'
    have heq := eq_of_fromBytes htag hu (by simp) hout hm' rfl
    obtain rfl : m' = b.message := by simpa using heq
    exact carries_of_built hm
  · intro hsize
    exact fromBytes_of_serializes htag hu (Nat.le_sub_one_of_lt hsize) hout

/-- An object that is opened again, with a sensor that is chosen again. -/
theorem carries_built_robot :
    let calls : List Call := [.withSimulatedTime 1, .object [114], .withAngles [1, 2],
      .withSensor [115], .typed (.withForce1d 3), .object [98], .withPosition #v[1, 2, 3],
      .object [114], .withAngles [], .withSensor [115], .typed (.withActivated false)]
    ∃ m, built calls = .ok m ∧ Carries m calls ∧
      ∀ out, serializeToString ⟨.sensorMessage, m⟩ out →
        (∀ m', fromBytes out = .ok ⟨.sensorMessage, m'⟩ → Carries m' calls) ∧
          (Protobuf.SensorMessage.schema.byteSize m < 2 ^ 31 →
            fromBytes out = .ok ⟨.sensorMessage, m⟩) := by
  intro calls
  refine carries_built ⟨calls, .addSensorBuilder, rfl⟩ (fun c hc => ?_) ?_
  · simp only [calls, List.mem_cons, List.not_mem_nil, or_false] at hc
    rcases hc with rfl | rfl | rfl | rfl | rfl | rfl | rfl | rfl | rfl | rfl | rfl <;> trivial
  · rintro ⟨_, _, _, h, hne⟩
    simp [calls] at h
    exact hne _ h.2.1.symm

end Click.SensorMessageBuilderImpl
