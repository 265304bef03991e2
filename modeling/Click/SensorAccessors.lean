/-
The accessors of a single reading.

`sensor` converts a whole list of readings.  `sensorVec3`, `sensorDouble` and
`sensorBool` look at one element of it, each with a chain of cases of its own.

* `exists_converted` — where vectors are long enough, `sensor` converts every list
  whose elements carry a value;
* `accessorsAgree_iff` — the accessors agree with it on all kinds of readings but
  the three that their chains leave out.
-/
import Click.SensorMessage

open Proto

namespace Click

/-! ### Shapes -/

/-- What a reading consists of. -/
inductive Shape
  | vec3
  | double
  | bool
  deriving DecidableEq

/-- The shape of the readings of a type. -/
def ValueType.shape (t : ValueType) : Option Shape :=
  if [ValueType.Position, ValueType.RPY, ValueType.Acceleration3D, ValueType.Force3D,
      ValueType.Torque3D, ValueType.AngularAcceleration3D, ValueType.Velocity3D,
      ValueType.AngularVelocity3D].contains t then some .vec3
  else if [ValueType.Angle, ValueType.AngularVelocity1D, ValueType.Torque1D,
      ValueType.Force1D].contains t then some .double
  else if t = ValueType.Activated then some .bool
  else none

namespace SensorValue

/-- The double a reading holds. -/
def double : SensorValue → Option Double
  | .angle x | .angularVelocity1d x | .torque1d x | .force1d x => some x
  | _ => none

/-- The bool a reading holds. -/
def bool : SensorValue → Option Bool
  | .activated b => some b
  | _ => none

end SensorValue

/-- A `std::runtime_error` is thrown. -/
def Throws {A : Type} (res : Except Fault A) : Prop := ∃ what, res = .error (.runtimeError what)

namespace SensorMessage

/-- Of three results the one that fits the reading is what it holds, and the others
are exceptions. -/
def Fits (e : Sensor) (vec3 : Except Fault Vec3) (double : Except Fault Double)
    (bool : Except Fault Bool) : Prop :=
  match ValueType.shape e.type with
  | some .vec3 => (∃ v, e.value.vector = some v ∧ vec3 = .ok v) ∧ Throws double ∧ Throws bool
  | some .double => (∃ x, e.value.double = some x ∧ double = .ok x) ∧ Throws vec3 ∧ Throws bool
  | some .bool => (∃ b, e.value.bool = some b ∧ bool = .ok b) ∧ Throws vec3 ∧ Throws double
  | none => False

/-- The accessors agree with `sensor` on the element at `i`. -/
def AccessorsAgree (m : Protobuf.SensorMessage) (o s : Str) (i : ℕ) : Prop :=
  ∃ l e, sensor m o s = .ok l ∧ l[i]? = some e ∧
    Fits e (sensorVec3 m o s i) (sensorDouble m o s i) (sensorBool m o s i)

/-- The kinds of readings that were added last. -/
def Added (x : Protobuf.SensorMessage.Sensor) : Prop :=
  (∃ v, x.value = some (.velocity3d v)) ∨ (∃ v, x.value = some (.angularVelocity3d v)) ∨
    ∃ d, x.value = some (.force1d d)

/-! ### Converting a list -/

/-- Every vector of the list has three components. -/
def LongVectors (l : List Protobuf.SensorMessage.Sensor) : Prop :=
  ∀ x ∈ l, ∀ src, x.vector = some src → 3 ≤ src.arr.length

/-- Both ways to unpack a vector come to the same. -/
theorem unpack_of_length {src : Protobuf.SensorMessage.Vec3} (h : 3 ≤ src.arr.length) :
    ∃ v, copy_n src = .ok v ∧ createFrom src = .ok v := by
  obtain ⟨v, hcopy, hv⟩ := copy_n_of_length h
  obtain ⟨w, hcreate, hw⟩ := createFrom_of_length h
  obtain rfl : v = w := Vector.toList_inj.mp (hv.trans hw.symm)
  exact ⟨v, hcopy, hcreate⟩

theorem exists_convert {x : Protobuf.SensorMessage.Sensor} (hx : x.value.isSome)
    (hlong : ∀ src, x.vector = some src → 3 ≤ src.arr.length) : ∃ e, convert x = .ok e := by
  rcases convert_cases x with ⟨hnone, -⟩ | ⟨-, ⟨src, hsrc, hlt⟩, -⟩ | ⟨-, e, he, -⟩
  · exact absurd hx (by simp [hnone])
  · exact absurd (hlong src hsrc) (Nat.not_le.mpr hlt)
  · exact ⟨e, he⟩

/-- **`sensor` converts a list of elements that carry values.** -/
theorem exists_converted {l : List Protobuf.SensorMessage.Sensor} (hlong : LongVectors l)
    (hl : ∀ x ∈ l, x.value.isSome) :
    ∃ res, List.Forall₂ (fun x e => convert x = .ok e) l res := by
  induction l with
  | nil => exact ⟨[], .nil⟩
  | cons x l ih =>
    obtain ⟨hx, hl⟩ := List.forall_mem_cons.mp hl
    obtain ⟨hlx, hll⟩ := List.forall_mem_cons.mp hlong
    obtain ⟨e, he⟩ := exists_convert hx hlx
    obtain ⟨res, hres⟩ := ih hll hl
    exact ⟨e :: res, .cons he hres⟩

/-- **`sensor` throws on a list with an element that carries no value.** -/
theorem throws_mapM_convert_iff {l : List Protobuf.SensorMessage.Sensor} (hlong : LongVectors l) :
    Throws (l.mapM convert) ↔ ∃ x ∈ l, x.value = none := by
  induction l with
  | nil =>
    refine iff_of_false ?_ (by simp)
    rintro ⟨what, h⟩
    exact absurd h (by simp [pure, Except.pure])
  | cons x l ih =>
    obtain ⟨hx, hl⟩ := List.forall_mem_cons.mp hlong
    rw [List.mapM_cons, List.exists_mem_cons_iff]
    rcases convert_cases x with ⟨hnone, what, hc⟩ | ⟨-, ⟨src, hsrc, hlt⟩, -⟩ | ⟨hsome, e, hc, -⟩
    · rw [hc]
      exact iff_of_true ⟨what, rfl⟩ (.inl hnone)
    · exact absurd (hx src hsrc) (Nat.not_le.mpr hlt)
    · -- this element converts, so what is thrown is thrown in the rest of the list
      have hnot : x.value ≠ none := Option.isSome_iff_ne_none.mp hsome
      rw [hc, or_iff_right hnot, ← ih hl]
      cases hrest : l.mapM convert <;> simp [Throws, bind, Except.bind, pure, Except.pure]

/-! ### One element -/

theorem at_of_getElem? {A : Type} {l : List A} {i : ℕ} {x : A} (h : l[i]? = some x) :
    Protobuf.RepeatedField.at l i = .ok x := by
  simp [Protobuf.RepeatedField.at, h]

variable {m : Protobuf.SensorMessage} {o s : Str} {l : List Protobuf.SensorMessage.Sensor}

/-- The chains of cases, on the element they are applied to. -/
theorem fits_iff {x : Protobuf.SensorMessage.Sensor} {e : Sensor} {i : ℕ}
    (hl : elements m o s = .ok l) (hx : l[i]? = some x) (he : convert x = .ok e)
    (hlong : ∀ src, x.vector = some src → 3 ≤ src.arr.length) :
    Fits e (sensorVec3 m o s i) (sensorDouble m o s i) (sensorBool m o s i) ↔ ¬ Added x := by
  have hat : Protobuf.RepeatedField.at l i = .ok x := at_of_getElem? hx
  obtain ⟨value⟩ := x
  simp only [sensorVec3, sensorDouble, sensorBool, hl, hat, bind, Except.bind]
  rcases value with _ | value
  · exact absurd he (by simp [convert])
  · cases value with
    | position src | rpy src | acceleration3d src | force3d src | torque3d src
    | angularAcceleration3d src =>
      obtain ⟨v, hcopy, hcreate⟩ := unpack_of_length (hlong src rfl)
      simp only [convert, hcopy, bind, Except.bind, pure, Except.pure, Except.ok.injEq] at he
      obtain rfl := he
      exact iff_of_true ⟨⟨v, rfl, hcreate⟩, ⟨_, rfl⟩, ⟨_, rfl⟩⟩ (by simp [Added])
    | velocity3d src | angularVelocity3d src =>
      obtain ⟨v, hcopy, -⟩ := unpack_of_length (hlong src rfl)
      simp only [convert, hcopy, bind, Except.bind, pure, Except.pure, Except.ok.injEq] at he
      obtain rfl := he
      refine iff_of_false ?_ (by simp [Added])
      rintro ⟨⟨w, -, hw⟩, -⟩
      exact absurd hw (by simp)
    | angle x | angularVelocity1d x | torque1d x =>
      obtain rfl := Except.ok.inj he
      exact iff_of_true ⟨⟨x, rfl, rfl⟩, ⟨_, rfl⟩, ⟨_, rfl⟩⟩ (by simp [Added])
    | force1d x =>
      obtain rfl := Except.ok.inj he
      refine iff_of_false ?_ (by simp [Added])
      rintro ⟨⟨w, -, hw⟩, -⟩
      exact absurd hw (by simp)
    | activated b =>
      obtain rfl := Except.ok.inj he
      exact iff_of_true ⟨⟨b, rfl, rfl⟩, ⟨_, rfl⟩, ⟨_, rfl⟩⟩ (by simp [Added])

theorem accessorsAgree_of_converted {res : List Sensor} (hl : elements m o s = .ok l)
    (hlong : LongVectors l) (hres : List.Forall₂ (fun x e => convert x = .ok e) l res) {i : ℕ}
    {x : Protobuf.SensorMessage.Sensor} (hx : l[i]? = some x) :
    AccessorsAgree m o s i ↔ ¬ Added x := by
  have hsensor : sensor m o s = .ok res := (sensor_eq hl).trans (mapM_convert_eq_ok_iff.mpr hres)
  obtain ⟨e, he, hconv⟩ : ∃ e, res[i]? = some e ∧ convert x = .ok e := by
    obtain ⟨hi, rfl⟩ := List.getElem?_eq_some_iff.mp hx
    have hi' : i < res.length := hres.length_eq ▸ hi
    exact ⟨res[i], List.getElem?_eq_getElem hi', hres.get hi hi'⟩
  rw [← fits_iff hl hx hconv (hlong x (List.mem_of_getElem? hx))]
  constructor
  · rintro ⟨res', e', hres', he', hfits⟩
    obtain rfl := Except.ok.inj (hsensor.symm.trans hres')
    obtain rfl := Option.some.inj (he.symm.trans he')
    exact hfits
  · exact fun hfits => ⟨res, e, hsensor, he, hfits⟩

/-- **When the accessors of one element agree with the list**: exactly on readings
that are none of a velocity, an angular velocity and a one-dimensional force. -/
theorem accessorsAgree_iff (m : Protobuf.SensorMessage) (o s : Str)
    (l : List Protobuf.SensorMessage.Sensor) (hl : elements m o s = .ok l)
    (hlong : LongVectors l) (hvalues : ∀ x ∈ l, x.value.isSome) (i : ℕ)
    (x : Protobuf.SensorMessage.Sensor) (hx : l[i]? = some x) :
    AccessorsAgree m o s i ↔ ¬ Added x := by
  obtain ⟨res, hres⟩ := exists_converted hlong hvalues
  exact accessorsAgree_of_converted hl hlong hres hx

theorem accessorsAgree_iff_force :
    let l : List Protobuf.SensorMessage.Sensor :=
      [⟨some (.angle 0)⟩, ⟨some (.force3d { arr := [1, 2, 3] })⟩]
    let object : Protobuf.SensorMessage.Object :=
      { sensors := (∅ : Map _).insert [115] { sensor := l } }
    let m : Protobuf.SensorMessage := { objects := (∅ : Map _).insert [114] object }
    AccessorsAgree m [114] [115] 1 ↔ ¬ Added ⟨some (.force3d { arr := [1, 2, 3] })⟩ := by
  intro l object m
  refine accessorsAgree_iff m [114] [115] l rfl ?_ (by decide) 1 _ rfl
  intro x hx src hsrc
  rcases List.mem_pair.mp hx with rfl | rfl
  · exact absurd hsrc (by simp [Protobuf.SensorMessage.Sensor.vector])
  · obtain rfl := Option.some.inj hsrc
    decide

/-- A velocity is not found by the accessor of vectors. -/
theorem not_accessorsAgree : ¬ ∀ (m : Protobuf.SensorMessage) (o s : Str) l,
    elements m o s = .ok l → LongVectors l → (∀ x ∈ l, x.value.isSome) →
      ∀ i x, l[i]? = some x → AccessorsAgree m o s i := by
  intro h
  let l : List Protobuf.SensorMessage.Sensor := [⟨some (.velocity3d { arr := [1, 2, 3] })⟩]
  let object : Protobuf.SensorMessage.Object :=
    { sensors := (∅ : Map _).insert [115] { sensor := l } }
  let m : Protobuf.SensorMessage := { objects := (∅ : Map _).insert [114] object }
  have hlong : LongVectors l := by
    intro x hx src hsrc
    obtain rfl := List.mem_singleton.mp hx
    obtain rfl := Option.some.inj hsrc
    decide
  have hagree := h m [114] [115] l rfl hlong (by decide) 0 _ rfl
  exact (accessorsAgree_of_converted rfl hlong (.cons rfl .nil) rfl).mp hagree (.inl ⟨_, rfl⟩)

end SensorMessage

end Click
