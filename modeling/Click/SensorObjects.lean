/-
The values of an object in a built SensorMessage.

Most setters of an object assign a list.  `withPosition` and `withRPY` append to the
list of the object's sensors instead, in which the accessors look for the first
position or rotation.

* `simulates` — the lists of an object are the entry of a ledger;
* `values_of_built`, `pose_of_built` — which of the arguments of the setters the
  accessors return;
* `lastWins_iff` — it is the last one exactly where that is also the first.
-/
import Click.SensorAccessors
import Click.SensorMessageBuilder
import Click.Fluent.Ledger

open Proto Fluent

namespace Click.SensorMessageBuilderImpl

/-! ### What the setters are given -/

/-- The lists of values an object can be given. -/
inductive Kind
  | angles
  | angularVelocities
  | torques
  deriving DecidableEq

/-- The accessor of a kind. -/
def Kind.accessor : Kind → Protobuf.SensorMessage → Str → Except Fault (List Double)
  | angles => SensorMessage.angles
  | angularVelocities => SensorMessage.angularVelocities
  | torques => SensorMessage.torques

def Kind.get : Kind → Protobuf.SensorMessage.Object → List Double
  | angles => (·.angleSensors)
  | angularVelocities => (·.angularVelocitySensors)
  | torques => (·.torqueSensors)

theorem Kind.accessor_eq (k : Kind) (m : Protobuf.SensorMessage) (name : Str) :
    k.accessor m name = (Protobuf.Map.at m.objects name).map k.get := by
  cases k <;> rfl

/-- What a call gives as values of a kind. -/
def Call.values : Kind → Call → Option (List Double)
  | .angles, .withAngles angles => some angles
  | .angularVelocities, .withAngularVelocities angles => some angles
  | .torques, .withTorques torques => some torques
  | _, _ => none

/-- What an object can be given about where it is. -/
inductive Pose
  | position
  | rpy
  deriving DecidableEq

def Pose.accessor : Pose → Protobuf.SensorMessage → Str → Except Fault Vec3
  | position => SensorMessage.objectPosition
  | rpy => SensorMessage.objectRPY

/-- The case of a sensor that the accessor looks for. -/
def Pose.has : Pose → Protobuf.SensorMessage.Sensor → Option Protobuf.SensorMessage.Vec3
  | position, ⟨some (.position vec)⟩ => some vec
  | rpy, ⟨some (.rpy vec)⟩ => some vec
  | _, _ => none

/-- The accessors look from the front. -/
theorem Pose.accessor_of_object (p : Pose) {m : Protobuf.SensorMessage} {o : Str}
    {obj : Protobuf.SensorMessage.Object} (ho : m.objects[o]? = some obj) :
    (∀ vec, obj.objectSensors.findSome? p.has = some vec → p.accessor m o = createFrom vec) ∧
      (obj.objectSensors.findSome? p.has = none → Throws (p.accessor m o)) := by
  have hhas : ∀ (f : Protobuf.SensorMessage.Sensor.Value → Option Protobuf.SensorMessage.Vec3)
      (what : String), (∀ sensor, sensor.value.bind f = p.has sensor) →
      p.accessor m o = SensorMessage.objectVec3 m f what o →
      (∀ vec, obj.objectSensors.findSome? p.has = some vec → p.accessor m o = createFrom vec) ∧
        (obj.objectSensors.findSome? p.has = none → Throws (p.accessor m o)) := by
    intro f what hf heq
    rw [heq, SensorMessage.objectVec3, Protobuf.Map.at_of_some ho]
    simp only [bind, Except.bind, funext hf]
    refine ⟨fun vec hvec => ?_, fun hnone => ?_⟩
    · rw [hvec]
    · rw [hnone]
      exact ⟨what, rfl⟩
  cases p with
  | position => exact hhas _ _ (by rintro ⟨_ | _ | _⟩ <;> rfl) rfl
  | rpy => exact hhas _ _ (by rintro ⟨_ | _ | _⟩ <;> rfl) rfl

/-- What a call gives as a position or rotation. -/
def Call.pose : Pose → Call → Option Vec3
  | .position, .withPosition vec3 => some vec3
  | .rpy, .withRPY vec3 => some vec3
  | _, _ => none

/-- The sensor a call appends to those of the object. -/
def Call.appended : Call → Option Protobuf.SensorMessage.Sensor
  | .withPosition vec3 => some ⟨some (.position (assign vec3))⟩
  | .withRPY vec3 => some ⟨some (.rpy (assign vec3))⟩
  | _ => none

theorem Call.appended_has (p : Pose) (c : Call) :
    c.appended.bind p.has = (c.pose p).map assign := by
  cases p <;> cases c <;> rfl

/-- What a call gives as simulated time. -/
def Call.time : Call → Option Double
  | .withSimulatedTime time => some time
  | _ => none

/-! ### Objects as entries of a ledger -/

def Call.events : Call → List (Event Str Call)
  | .object name => [.enter name]
  | c => [.act c]

/-- The calls made while `name` was current. -/
def actsOn (name : Str) (calls : List Call) : List Call :=
  acts name false (calls.flatMap Call.events)

/-- The object without its named sensors. -/
def bare (o : Protobuf.SensorMessage.Object) : Protobuf.SensorMessage.Object :=
  { o with sensors := ∅ }

/-- Opening an object again leaves it as it is. -/
abbrev ledger : Ledger Call Protobuf.SensorMessage.Object :=
  Ledger.kept {} fun o c => bare (c.apply o)

def look (b : SensorMessageBuilderImpl) (name : Str) :
    Bool × Option Protobuf.SensorMessage.Object :=
  (decide (b.currObject = some name), b.message.objects[name]?.map bare)

/-- The accessors return what the calls of a chain gave last. -/
structure LastWins (m : Protobuf.SensorMessage) (calls : List Call) : Prop where
  values : ∀ o, .object o ∈ calls → ∀ k : Kind, k.accessor m o =
    .ok (((actsOn o calls).filterMap (Call.values k)).getLast?.getD [])
  pose : ∀ o, .object o ∈ calls → ∀ p : Pose,
    match ((actsOn o calls).filterMap (Call.pose p)).getLast? with
    | some vec3 => p.accessor m o = .ok vec3
    | none => Throws (p.accessor m o)
  simulatedTime : SensorMessage.simulatedTime m = (calls.filterMap Call.time).getLast?.getD 0

theorem events_of_usesObject {c : Call} (h : c.usesObject = true) : c.events = [.act c] := by
  cases c <;> first | rfl | exact absurd h (by simp [Call.usesObject])

theorem bare_apply (o : Protobuf.SensorMessage.Object) (c : Call) :
    bare (c.apply (bare o)) = bare (c.apply o) := by
  cases c <;> rfl

theorem simulates : ledger.Simulates exec Call.events look where
  step := by
    intro b c b' hb name
    rcases exec_cases hb with ⟨n, rfl, rfl⟩ | ⟨time, rfl, rfl⟩ | ⟨n, hc, hn, rfl⟩ |
      ⟨setter, n, sensor, rfl, hs, rfl⟩
    · by_cases hn : n = name
      · subst hn
        rcases hob : b.message.objects[n]? with _ | obj <;>
          simp [look, object, Call.events, Ledger.track, hob, bare]
      · simp [look, object, Call.events, Ledger.track, hn]
    · -- the time is no part of an object
      show look b name = ledger.track name (look b name) (.act (.withSimulatedTime time))
      rcases hob : b.message.objects[name]? with _ | obj <;>
        by_cases hcurr : b.currObject = some name <;>
          simp [look, Ledger.track, hob, hcurr, bare, Call.apply]
    · rw [events_of_usesObject hc]
      by_cases hnn : n = name
      · subst hnn
        rcases hob : b.message.objects[n]? with _ | obj <;>
          simp [look, Ledger.track, hob, hn, bare_apply]
      · simp [look, Ledger.track, hn, hnn]
    · -- a typed setter changes a named sensor, wherever that is
      show _ = ledger.track name (look b name) (.act (.typed setter))
      by_cases hn : n = name <;> rcases hob : b.message.objects[name]? with _ | obj <;>
        by_cases hcurr : b.currObject = some name <;>
          simp [look, Ledger.track, hob, hn, hcurr, bare, Call.apply]

theorem opened_iff_mem {o : Str} {calls : List Call} :
    opened o (calls.flatMap Call.events) = true ↔ .object o ∈ calls :=
  opened_flatMap fun c => by cases c <;> simp [Call.events, eq_comm]

/-- **The lists of the objects a chain opens.** -/
theorem bare_of_built {calls : List Call} {m : Protobuf.SensorMessage} (hm : built calls = .ok m)
    {o : Str} (ho : .object o ∈ calls) :
    ∃ obj, m.objects[o]? = some obj ∧
      bare obj = (actsOn o calls).foldl (fun o c => bare (c.apply o)) {} := by
  obtain ⟨b, hb, rfl⟩ := map_eq_ok.mp hm
  have hlook := simulates.look_run hb o
  rw [show look builder o = (false, none) from by simp [look, builder]] at hlook
  have hval := congrArg Prod.snd hlook
  rw [kept_run o _ (by simp), opened_iff_mem.mpr ho] at hval
  exact Option.map_eq_some_iff.mp (by simpa [look, actsOn] using hval)

/-- **Each kind of values is assigned**, so the last setter wins. -/
theorem values_of_built {calls : List Call} {m : Protobuf.SensorMessage}
    (hm : built calls = .ok m) {o : Str} (ho : .object o ∈ calls) (k : Kind) :
    k.accessor m o = .ok (((actsOn o calls).filterMap (Call.values k)).getLast?.getD []) := by
  obtain ⟨obj, hobj, hbare⟩ := bare_of_built hm ho
  have happly : ∀ (o : Protobuf.SensorMessage.Object) (c : Call),
      k.get (bare (c.apply o)) = (c.values k).getD (k.get o) := by
    intro o c
    cases k <;> cases c <;> rfl
  have hget := get_foldl k.get _ (Call.values k) happly (actsOn o calls) {}
  rw [← hbare, show k.get (bare obj) = k.get obj from by cases k <;> rfl,
    show k.get {} = [] from by cases k <;> rfl] at hget
  rw [Kind.accessor_eq, Protobuf.Map.at_of_some hobj, ← hget]
  rfl

theorem createFrom_assign (vec3 : Vec3) : createFrom (assign vec3) = .ok vec3 := by
  have hlen : 3 ≤ (assign vec3).arr.length := by simp [assign]
  obtain ⟨v, hcopy, hcreate⟩ := SensorMessage.unpack_of_length hlen
  rw [hcreate, ← hcopy, copy_n_assign]

/-- **Positions and rotations are appended**, and the accessors look from the front,
so the first setter wins. -/
theorem pose_of_built {calls : List Call} {m : Protobuf.SensorMessage}
    (hm : built calls = .ok m) {o : Str} (ho : .object o ∈ calls) (p : Pose) :
    match ((actsOn o calls).filterMap (Call.pose p)).head? with
    | some vec3 => p.accessor m o = .ok vec3
    | none => Throws (p.accessor m o) := by
  obtain ⟨obj, hobj, hbare⟩ := bare_of_built hm ho
  have happly : ∀ (o : Protobuf.SensorMessage.Object) (c : Call),
      (bare (c.apply o)).objectSensors = o.objectSensors ++ c.appended.toList := by
    intro o c
    cases c <;> simp [bare, Call.apply, Call.appended]
  have hgather := gathered_foldl (fun o : Protobuf.SensorMessage.Object => o.objectSensors) _
    Call.appended happly (actsOn o calls) {}
  rw [← hbare] at hgather
  -- the first one the accessor finds is the first one that was given
  have hfind : obj.objectSensors.findSome? p.has =
      ((actsOn o calls).filterMap (Call.pose p)).head?.map assign := by
    rw [show obj.objectSensors = (actsOn o calls).filterMap Call.appended from hgather,
      ← List.head?_filterMap, List.filterMap_filterMap, List.head?_filterMap, List.head?_filterMap,
      List.map_findSome?]
    congr 1
    funext c
    exact c.appended_has p
  obtain ⟨hsome, hnone⟩ := p.accessor_of_object hobj
  cases hhead : ((actsOn o calls).filterMap (Call.pose p)).head? with
  | some vec3 => exact (hsome _ (by rw [hfind, hhead]; rfl)).trans (createFrom_assign vec3)
  | none => exact hnone (by rw [hfind, hhead]; rfl)

theorem simulatedTime_of_built {calls : List Call} {m : Protobuf.SensorMessage}
    (hm : built calls = .ok m) :
    SensorMessage.simulatedTime m = (calls.filterMap Call.time).getLast?.getD 0 := by
  obtain ⟨b, hb, rfl⟩ := map_eq_ok.mp hm
  refine get_run (fun b => SensorMessage.simulatedTime b.message) Call.time ?_ hb
  intro b c b' hc
  rcases exec_cases hc with ⟨name, rfl, rfl⟩ | ⟨time, rfl, rfl⟩ | ⟨name, huses, -, rfl⟩ |
    ⟨setter, name, sensor, rfl, -, rfl⟩
  · rfl
  · rfl
  · cases c <;> first | rfl | exact absurd huses (by simp [Call.usesObject])
  · rfl

/-- A chain that uses an object before it opens one builds nothing. -/
theorem not_timeFirst_of_built {chain : Chain interfaces} {m : Protobuf.SensorMessage}
    (hm : built chain.calls = .ok m) : ¬ TimeFirst chain.calls := by
  rintro ⟨time, c, rest, hcalls, hne⟩
  obtain ⟨b, hb, -⟩ := map_eq_ok.mp hm
  have hadm := chain.admitted
  rw [hcalls] at hb hadm
  obtain ⟨j, hj, hadm⟩ := Option.bind_eq_some_iff.mp hadm
  obtain rfl := Option.some.inj hj
  obtain ⟨k, hk, -⟩ := Option.bind_eq_some_iff.mp hadm
  obtain ⟨b₁, hb₁, hb⟩ := (run_cons_eq_ok exec).mp hb
  obtain ⟨b₂, hb₂, -⟩ := (run_cons_eq_ok exec).mp hb
  obtain rfl := Except.ok.inj hb₁
  rcases exec_cases hb₂ with ⟨name, rfl, -⟩ | ⟨time', rfl, -⟩ | ⟨name, -, hname, -⟩ |
    ⟨setter, name, sensor, rfl, -, -⟩
  · exact hne name rfl
  · exact absurd hk (by simp [interfaces])
  · exact absurd hname (by simp [withSimulatedTime, builder])
  · exact absurd hk (by simp [interfaces])

/-- **When the last setter wins.**  A chain builds a message whose accessors return
what was given last exactly if it opens an object before it uses one, and on each
object the first position is the last, and the first rotation is the last. -/
theorem lastWins_iff (chain : Chain interfaces) :
    (∃ m, built chain.calls = .ok m ∧ LastWins m chain.calls) ↔
      ¬ TimeFirst chain.calls ∧ ∀ (o : Str) (p : Pose),
        ((actsOn o chain.calls).filterMap (Call.pose p)).head? =
          ((actsOn o chain.calls).filterMap (Call.pose p)).getLast? := by
  constructor
  · rintro ⟨m, hm, hlast⟩
    refine ⟨not_timeFirst_of_built hm, fun o p => ?_⟩
    by_cases ho : .object o ∈ chain.calls
    · have hfirst := pose_of_built hm ho p
      have hpose := hlast.pose o ho p
      rcases hl : (actsOn o chain.calls).filterMap (Call.pose p) with _ | ⟨v, vs⟩
      · rfl
      · rw [hl, List.getLast?_cons] at hpose
        rw [hl] at hfirst
        rw [List.getLast?_cons]
        exact congrArg some (Except.ok.inj (hfirst.symm.trans hpose))
    · -- an object that is never opened is never current
      have hopen : opened o (chain.calls.flatMap Call.events) = false :=
        Bool.eq_false_iff.mpr (mt opened_iff_mem.mp ho)
      rw [actsOn, acts_eq_nil hopen]
      rfl
  · rintro ⟨htime, hfirst⟩
    obtain ⟨b, hb⟩ := run_of_eachCall exec_of_pointersSet
      ((pointersSet_iff_not_timeFirst chain).mpr htime)
    have hm : built chain.calls = .ok b.message := congrArg (Except.map _) hb
    refine ⟨b.message, hm, fun o ho k => values_of_built hm ho k, fun o ho p => ?_,
      simulatedTime_of_built hm⟩
    rw [← hfirst o p]
    exact pose_of_built hm ho p

/-- A robot that is moved. -/
theorem not_lastWins : ¬ ∀ chain : Chain interfaces, ¬ TimeFirst chain.calls →
    ∃ m, built chain.calls = .ok m ∧ LastWins m chain.calls := by
  intro h
  let calls : List Call := [.object [114], .withPosition #v[0, 0, 0], .withPosition #v[1, 0, 0]]
  obtain ⟨m, hm, hlast⟩ := h ⟨calls, .addSensorValuesBuilder, rfl⟩
    (by rintro ⟨_, _, _, h, -⟩; simp [calls] at h)
  have hfirst := pose_of_built hm (o := [114]) (by simp [calls]) .position
  have hpose := hlast.pose [114] (by simp [calls]) .position
  exact absurd (Except.ok.inj (hfirst.symm.trans hpose)) (by decide)

end Click.SensorMessageBuilderImpl
