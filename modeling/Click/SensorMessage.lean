/-
SensorMessage and its accessors.

A received vector is a list of doubles of any length.  Three pieces of code
unpack it into three components: `createFrom` and the accessors of the object's
position and rotation index the list with a check, `copy_n` follows an iterator
without one.

* `createFrom_of_length`, `copy_n_of_length` — on three components or more both
  return the first three;
* `mapM_convert_eq_ok_iff` — the loop of `sensor` returns a list exactly when
  every element converts;
* `readsInBounds_iff` — no accessor reads past the components received exactly
  when, in each list of readings, no vector that is too short stands before the
  first element without a value.
-/
import Click.Containers
import Click.MessageSerializer

open Proto

namespace Click

/-! ### Values -/

/-- `std::array<double, 3>`. -/
abbrev Vec3 := Vector Double 3

/-- `union SensorValue`, with the member that was written. -/
inductive SensorValue
  | angle (x : Double)
  | angularVelocity1d (x : Double)
  | torque1d (x : Double)
  | position (v : Vec3)
  | rpy (v : Vec3)
  | activated (b : Bool)
  | acceleration3d (v : Vec3)
  | force1d (x : Double)
  | force3d (v : Vec3)
  | torque3d (v : Vec3)
  | angularAcceleration3d (v : Vec3)
  | velocity3d (v : Vec3)
  | angularVelocity3d (v : Vec3)
  deriving DecidableEq

structure Sensor where
  type : ValueType
  value : SensorValue
  deriving DecidableEq

/-- `std::copy_n(src.arr().begin(), 3, trg.begin())`. -/
def copy_n (src : Protobuf.SensorMessage.Vec3) : Except Fault Vec3 := do
  let x ← Protobuf.RepeatedField.deref src.arr 0
  let y ← Protobuf.RepeatedField.deref src.arr 1
  let z ← Protobuf.RepeatedField.deref src.arr 2
  return #v[x, y, z]

def createFrom (src : Protobuf.SensorMessage.Vec3) : Except Fault Vec3 := do
  let x ← Protobuf.RepeatedField.at src.arr 0
  let y ← Protobuf.RepeatedField.at src.arr 1
  let z ← Protobuf.RepeatedField.at src.arr 2
  return #v[x, y, z]

namespace SensorMessage

/-! ### Accessors -/

section Accessors

variable (sensorMess : Protobuf.SensorMessage)

def angles (objectname : Str) : Except Fault (List Double) :=
  (Protobuf.Map.at sensorMess.objects objectname).map (·.angleSensors)

def angularVelocities (objectname : Str) : Except Fault (List Double) :=
  (Protobuf.Map.at sensorMess.objects objectname).map (·.angularVelocitySensors)

def torques (objectname : Str) : Except Fault (List Double) :=
  (Protobuf.Map.at sensorMess.objects objectname).map (·.torqueSensors)

/-- `simvars()` is the default message where none is present. -/
def simulatedTime : Double := (sensorMess.simVars.getD {}).simulatedTime

/-- The first object sensor that holds the vector asked for. -/
def objectVec3 (has : Protobuf.SensorMessage.Sensor.Value → Option Protobuf.SensorMessage.Vec3)
    (what : String) (objectname : Str) : Except Fault Vec3 := do
  let object ← Protobuf.Map.at sensorMess.objects objectname
  match object.objectSensors.findSome? fun sensor => sensor.value.bind has with
  | some vec => createFrom vec
  | none => .error (.runtimeError what)

def objectRPY (objectname : Str) : Except Fault Vec3 :=
  objectVec3 sensorMess (fun | .rpy vec => some vec | _ => none) "RPY not found in " objectname

def objectPosition (objectname : Str) : Except Fault Vec3 :=
  objectVec3 sensorMess (fun | .position vec3 => some vec3 | _ => none) "Position not found in "
    objectname

/-- One round of the loop of `sensor`. -/
def convert (sensor : Protobuf.SensorMessage.Sensor) : Except Fault Sensor :=
  match sensor.value with
  | some (.acceleration3d v) => do
    return ⟨ValueType.Acceleration3D, .acceleration3d (← copy_n v)⟩
  | some (.activated b) => .ok ⟨ValueType.Activated, .activated b⟩
  | some (.angle x) => .ok ⟨ValueType.Angle, .angle x⟩
  | some (.angularVelocity1d x) => .ok ⟨ValueType.AngularVelocity1D, .angularVelocity1d x⟩
  | some (.angularAcceleration3d v) => do
    return ⟨ValueType.AngularAcceleration3D, .angularAcceleration3d (← copy_n v)⟩
  | some (.torque3d v) => do return ⟨ValueType.Torque3D, .torque3d (← copy_n v)⟩
  | some (.force3d v) => do return ⟨ValueType.Force3D, .force3d (← copy_n v)⟩
  | some (.position v) => do return ⟨ValueType.Position, .position (← copy_n v)⟩
  | some (.rpy v) => do return ⟨ValueType.RPY, .rpy (← copy_n v)⟩
  | some (.torque1d x) => .ok ⟨ValueType.Torque1D, .torque1d x⟩
  | some (.force1d x) => .ok ⟨ValueType.Force1D, .force1d x⟩
  | some (.velocity3d v) => do return ⟨ValueType.Velocity3D, .velocity3d (← copy_n v)⟩
  | some (.angularVelocity3d v) => do
    return ⟨ValueType.AngularVelocity3D, .angularVelocity3d (← copy_n v)⟩
  | none => .error (.runtimeError "Return not implemented for ")

/-- The elements of a named sensor. -/
def elements (objectname sensorname : Str) :
    Except Fault (List Protobuf.SensorMessage.Sensor) := do
  let object ← Protobuf.Map.at sensorMess.objects objectname
  let sensors ← Protobuf.Map.at object.sensors sensorname
  return sensors.sensor

def sensor (objectname sensorname : Str) : Except Fault (List Sensor) := do
  let sensors ← elements sensorMess objectname sensorname
  sensors.mapM convert

def sensorVec3 (objectname sensorname : Str) (idx : ℤ) : Except Fault Vec3 := do
  let sensors ← elements sensorMess objectname sensorname
  let sensor ← Protobuf.RepeatedField.at sensors idx
  match sensor.value with
  | some (.acceleration3d v) => createFrom v
  | some (.angularAcceleration3d v) => createFrom v
  | some (.torque3d v) => createFrom v
  | some (.force3d v) => createFrom v
  | some (.position v) => createFrom v
  | some (.rpy v) => createFrom v
  | _ => .error (.runtimeError "Not a Vec3: ")

def sensorDouble (objectname sensorname : Str) (idx : ℤ) : Except Fault Double := do
  let sensors ← elements sensorMess objectname sensorname
  let sensor ← Protobuf.RepeatedField.at sensors idx
  match sensor.value with
  | some (.angle x) => .ok x
  | some (.angularVelocity1d x) => .ok x
  | some (.torque1d x) => .ok x
  | _ => .error (.runtimeError "Not a double: ")

def sensorBool (objectname sensorname : Str) (idx : ℤ) : Except Fault Bool := do
  let sensors ← elements sensorMess objectname sensorname
  let sensor ← Protobuf.RepeatedField.at sensors idx
  match sensor.value with
  | some (.activated b) => .ok b
  | _ => .error (.runtimeError "Not a bool: ")

end Accessors

/-! ### Unpacking a vector -/

/-- `v` is made of the first three components received. -/
def FirstThree (src : Protobuf.SensorMessage.Vec3) (v : Vec3) : Prop :=
  v.toList = src.arr.take 3

theorem copy_n_of_length {src : Protobuf.SensorMessage.Vec3} (h : 3 ≤ src.arr.length) :
    ∃ v, copy_n src = .ok v ∧ FirstThree src v := by
  obtain ⟨arr⟩ := src
  rcases arr with _ | ⟨x, _ | ⟨y, _ | ⟨z, arr⟩⟩⟩
  · exact absurd h (by simp)
  · exact absurd h (by simp)
  · exact absurd h (by simp)
  · exact ⟨#v[x, y, z], rfl, rfl⟩

theorem createFrom_of_length {src : Protobuf.SensorMessage.Vec3} (h : 3 ≤ src.arr.length) :
    ∃ v, createFrom src = .ok v ∧ FirstThree src v := by
  obtain ⟨arr⟩ := src
  rcases arr with _ | ⟨x, _ | ⟨y, _ | ⟨z, arr⟩⟩⟩
  · exact absurd h (by simp)
  · exact absurd h (by simp)
  · exact absurd h (by simp)
  · exact ⟨#v[x, y, z], rfl, rfl⟩

theorem copy_n_of_short {src : Protobuf.SensorMessage.Vec3} (h : src.arr.length < 3) :
    copy_n src = .error .outOfBoundsRead := by
  obtain ⟨arr⟩ := src
  rcases arr with _ | ⟨x, _ | ⟨y, _ | ⟨z, arr⟩⟩⟩
  · rfl
  · rfl
  · rfl
  · exact absurd h (by simp)

theorem createFrom_of_short {src : Protobuf.SensorMessage.Vec3} (h : src.arr.length < 3) :
    createFrom src = .error .indexOutOfRange := by
  obtain ⟨arr⟩ := src
  rcases arr with _ | ⟨x, _ | ⟨y, _ | ⟨z, arr⟩⟩⟩
  · rfl
  · rfl
  · rfl
  · exact absurd h (by simp)

/-- `createFrom` reads nothing that is not there, and returns what it should. -/
theorem createFrom_inBounds (src : Protobuf.SensorMessage.Vec3) :
    createFrom src ≠ .error .outOfBoundsRead ∧ ∀ v, createFrom src = .ok v → FirstThree src v := by
  rcases Nat.lt_or_ge src.arr.length 3 with h | h
  · rw [createFrom_of_short h]
    exact ⟨by simp, fun v hv => absurd hv (by simp)⟩
  · obtain ⟨v, hv, hsrc⟩ := createFrom_of_length h
    rw [hv]
    refine ⟨by simp, fun w hw => ?_⟩
    rwa [← Except.ok.inj hw]

/-! ### The list of readings -/

end SensorMessage

/-- The vector an element carries. -/
def Protobuf.SensorMessage.Sensor.vector (sensor : Protobuf.SensorMessage.Sensor) :
    Option Protobuf.SensorMessage.Vec3 :=
  match sensor.value with
  | some (.position v) | some (.rpy v) | some (.acceleration3d v) | some (.force3d v)
  | some (.torque3d v) | some (.angularAcceleration3d v) | some (.velocity3d v)
  | some (.angularVelocity3d v) => some v
  | _ => none

/-- The vector a reading holds. -/
def SensorValue.vector : SensorValue → Option Vec3
  | .position v | .rpy v | .acceleration3d v | .force3d v | .torque3d v
  | .angularAcceleration3d v | .velocity3d v | .angularVelocity3d v => some v
  | _ => none

namespace SensorMessage

theorem convert_of_vector {x : Protobuf.SensorMessage.Sensor} {src : Protobuf.SensorMessage.Vec3}
    (h : x.vector = some src) : ∃ (type : ValueType) (inj : Vec3 → SensorValue),
      (∀ v, (inj v).vector = some v) ∧ convert x = (copy_n src).map fun v => ⟨type, inj v⟩ := by
  obtain ⟨_ | value⟩ := x
  · exact absurd h (by simp [Protobuf.SensorMessage.Sensor.vector])
  · cases value with
    | angle | angularVelocity1d | torque1d | activated | force1d =>
      exact absurd h (by simp [Protobuf.SensorMessage.Sensor.vector])
    | _ => obtain rfl := Option.some.inj h; exact ⟨_, _, fun _ => rfl, rfl⟩

/-- What one round of the loop does: it throws on an element without a value,
runs past the end of a vector that is too short, and converts any other. -/
theorem convert_cases (x : Protobuf.SensorMessage.Sensor) :
    (x.value = none ∧ ∃ what, convert x = .error (.runtimeError what)) ∨
    (x.value.isSome ∧ (∃ src, x.vector = some src ∧ src.arr.length < 3) ∧
      convert x = .error .outOfBoundsRead) ∨
    (x.value.isSome ∧ ∃ y, convert x = .ok y ∧
      (∀ src, x.vector = some src → 3 ≤ src.arr.length) ∧
      ∀ src, x.vector = some src → ∃ v, y.value.vector = some v ∧ FirstThree src v) := by
  rcases hv : x.value with _ | value
  · obtain ⟨value⟩ := x
    obtain rfl : value = none := hv
    exact .inl ⟨rfl, _, rfl⟩
  · rcases hx : x.vector with _ | src
    · refine .inr (.inr ⟨rfl, ?_⟩)
      obtain ⟨_⟩ := x
      obtain rfl := hv
      cases value with
      | angle | angularVelocity1d | torque1d | activated | force1d =>
        exact ⟨_, rfl, fun src hsrc => absurd hsrc (by simp), fun src hsrc => absurd hsrc (by simp)⟩
      | _ => exact absurd hx (by simp [Protobuf.SensorMessage.Sensor.vector])
    · obtain ⟨type, inj, hinj, hconv⟩ := convert_of_vector hx
      rcases Nat.lt_or_ge src.arr.length 3 with h | h
      · refine .inr (.inl ⟨rfl, ⟨src, rfl, h⟩, ?_⟩)
        rw [hconv, copy_n_of_short h]
        rfl
      · obtain ⟨v, hcopy, hthree⟩ := copy_n_of_length h
        refine .inr (.inr ⟨rfl, ⟨type, inj v⟩, ?_, fun w hw => ?_, fun w hw => ?_⟩)
        · rw [hconv, hcopy]
          rfl
        · rwa [← Option.some.inj hw]
        · rw [← Option.some.inj hw]
          exact ⟨v, hinj v, hthree⟩

/-- The loop runs past the end of a vector exactly when one that is too short
stands before the first element without a value. -/
theorem mapM_convert_outOfBounds_iff (l : List Protobuf.SensorMessage.Sensor) :
    l.mapM convert = .error .outOfBoundsRead ↔
      ∃ x ∈ l.takeWhile (·.value.isSome), ∃ src, x.vector = some src ∧ src.arr.length < 3 := by
  induction l with
  | nil => simp [pure, Except.pure]
  | cons x l ih =>
    rw [List.mapM_cons, List.takeWhile_cons]
    rcases convert_cases x with ⟨hx, what, hc⟩ | ⟨hx, hshort, hc⟩ | ⟨hx, y, hc, hlong, -⟩
    · simp [hx, hc, bind, Except.bind]
    · rw [hc, if_pos hx]
      exact ⟨fun _ => ⟨x, List.mem_cons_self, hshort⟩, fun _ => rfl⟩
    · -- this element converts, so the overrun is in the rest of the list
      rw [hc, if_pos hx, List.exists_mem_cons_iff]
      have hnot : ¬ ∃ src, x.vector = some src ∧ src.arr.length < 3 := by
        rintro ⟨src, hsrc, hlt⟩
        exact absurd (hlong src hsrc) (Nat.not_le.mpr hlt)
      rw [or_iff_right hnot, ← ih]
      cases hl : l.mapM convert <;> simp [bind, Except.bind, pure, Except.pure]

/-- The loop returns a list exactly when every element converts. -/
theorem mapM_convert_eq_ok_iff {l : List Protobuf.SensorMessage.Sensor} {res : List Sensor} :
    l.mapM convert = .ok res ↔ List.Forall₂ (fun x y => convert x = .ok y) l res := by
  induction l generalizing res with
  | nil => simp [pure, Except.pure, eq_comm]
  | cons x l ih =>
    rw [List.mapM_cons]
    constructor
    · intro h
      rcases hc : convert x with f | y
      · rw [hc] at h
        exact absurd h (by simp [bind, Except.bind])
      · rcases hl : l.mapM convert with f | ys
        · rw [hc, hl] at h
          exact absurd h (by simp [bind, Except.bind])
        · rw [hc, hl] at h
          rw [← Except.ok.inj h]
          exact .cons hc (ih.mp hl)
    · intro h
      obtain ⟨y, ys, hc, hys, rfl⟩ := List.forall₂_cons_left_iff.mp h
      rw [hc, ih.mpr hys]
      rfl

/-! ### Reading within bounds -/

/-- No accessor reads past the components received, the vectors it returns are
the first three of them, and `sensor` rejects a list with a vector that is too
short. -/
structure ReadsInBounds (m : Protobuf.SensorMessage) : Prop where
  objectPosition : ∀ {o : Str} {object : Protobuf.SensorMessage.Object},
    m.objects[o]? = some object → objectPosition m o ≠ .error .outOfBoundsRead ∧
      ∀ v, objectPosition m o = .ok v →
        ∃ src, ⟨some (.position src)⟩ ∈ object.objectSensors ∧ FirstThree src v
  objectRPY : ∀ {o : Str} {object : Protobuf.SensorMessage.Object},
    m.objects[o]? = some object → objectRPY m o ≠ .error .outOfBoundsRead ∧
      ∀ v, objectRPY m o = .ok v →
        ∃ src, ⟨some (.rpy src)⟩ ∈ object.objectSensors ∧ FirstThree src v
  sensorVec3 : ∀ {o s : Str} {l : List Protobuf.SensorMessage.Sensor}, elements m o s = .ok l →
    ∀ (idx : ℤ) (x : Protobuf.SensorMessage.Sensor), Protobuf.RepeatedField.at l idx = .ok x →
      sensorVec3 m o s idx ≠ .error .outOfBoundsRead ∧
        ∀ v, sensorVec3 m o s idx = .ok v → ∃ src, x.vector = some src ∧ FirstThree src v
  sensor : ∀ {o s : Str} {l : List Protobuf.SensorMessage.Sensor}, elements m o s = .ok l →
    sensor m o s ≠ .error .outOfBoundsRead ∧
      (∀ res, sensor m o s = .ok res → List.Forall₂ (fun x y => ∀ src, x.vector = some src →
        ∃ v, y.value.vector = some v ∧ FirstThree src v) l res) ∧
      ((∃ x ∈ l, ∃ src, x.vector = some src ∧ src.arr.length < 3) →
        ∀ res, sensor m o s ≠ .ok res)

/-- In every list of readings, each vector before the first element without a
value has three components. -/
def LongVectorsFirst (m : Protobuf.SensorMessage) : Prop :=
  ∀ (o s : Str) (l : List Protobuf.SensorMessage.Sensor), elements m o s = .ok l →
    ∀ x ∈ l.takeWhile (·.value.isSome), ∀ src, x.vector = some src → 3 ≤ src.arr.length

section Bounds

variable {m : Protobuf.SensorMessage} {o s : Str}

theorem objectVec3_inBounds
    {has : Protobuf.SensorMessage.Sensor.Value → Option Protobuf.SensorMessage.Vec3}
    {inj : Protobuf.SensorMessage.Vec3 → Protobuf.SensorMessage.Sensor.Value}
    (hinj : ∀ {value src}, has value = some src → value = inj src) {what : String}
    {object : Protobuf.SensorMessage.Object} (ho : m.objects[o]? = some object) :
    objectVec3 m has what o ≠ .error .outOfBoundsRead ∧
      ∀ v, objectVec3 m has what o = .ok v →
        ∃ src, ⟨some (inj src)⟩ ∈ object.objectSensors ∧ FirstThree src v := by
  simp only [objectVec3, Protobuf.Map.at, ho, bind, Except.bind]
  split
  · next src hfind =>
    obtain ⟨⟨value⟩, hmem, hvalue⟩ := List.exists_of_findSome?_eq_some hfind
    obtain ⟨y, rfl, hy⟩ := Option.bind_eq_some_iff.mp hvalue
    obtain rfl := hinj hy
    obtain ⟨hne, hthree⟩ := createFrom_inBounds src
    exact ⟨hne, fun v hv => ⟨src, hmem, hthree v hv⟩⟩
  · exact ⟨by simp, fun v hv => absurd hv (by simp)⟩

theorem sensorVec3_inBounds {l : List Protobuf.SensorMessage.Sensor}
    (hl : elements m o s = .ok l) (idx : ℤ) (x : Protobuf.SensorMessage.Sensor)
    (hx : Protobuf.RepeatedField.at l idx = .ok x) :
    sensorVec3 m o s idx ≠ .error .outOfBoundsRead ∧
      ∀ v, sensorVec3 m o s idx = .ok v → ∃ src, x.vector = some src ∧ FirstThree src v := by
  simp only [sensorVec3, hl, hx, bind, Except.bind]
  obtain ⟨value⟩ := x
  split
  all_goals first
    | (next src h =>
        obtain rfl := h
        obtain ⟨hne, hthree⟩ := createFrom_inBounds src
        exact ⟨hne, fun v hv => ⟨src, rfl, hthree v hv⟩⟩)
    | exact ⟨by simp, fun v hv => absurd hv (by simp)⟩

theorem sensor_eq {l : List Protobuf.SensorMessage.Sensor} (hl : elements m o s = .ok l) :
    sensor m o s = l.mapM convert := by
  rw [sensor, hl]
  rfl

/-- The readings of a list that was converted. -/
theorem sensor_converted {l : List Protobuf.SensorMessage.Sensor} (hl : elements m o s = .ok l)
    {res : List Sensor} (hres : sensor m o s = .ok res) :
    (∀ x ∈ l, ∀ src, x.vector = some src → 3 ≤ src.arr.length) ∧
      List.Forall₂ (fun x y => ∀ src, x.vector = some src →
        ∃ v, y.value.vector = some v ∧ FirstThree src v) l res := by
  rw [sensor_eq hl, mapM_convert_eq_ok_iff] at hres
  rw [← List.forall₂_and_left]
  refine hres.imp fun x y hconv => ?_
  rcases convert_cases x with ⟨-, what, hc⟩ | ⟨-, -, hc⟩ | ⟨-, y', hc, hlong⟩
  · rw [hc] at hconv
    exact absurd hconv (by simp)
  · rw [hc] at hconv
    exact absurd hconv (by simp)
  · rw [hc, Except.ok.injEq] at hconv
    rwa [← hconv]

end Bounds

/-- **When the accessors stay in bounds.**  All but `sensor` always do, and
`sensor` does exactly when no vector it comes to is too short. -/
theorem readsInBounds_iff (m : Protobuf.SensorMessage) :
    ReadsInBounds m ↔ LongVectorsFirst m := by
  constructor
  · intro h o s l hl x hx src hsrc
    by_contra hlt
    have hread := (mapM_convert_outOfBounds_iff l).mpr ⟨x, hx, src, hsrc, Nat.not_le.mp hlt⟩
    exact (h.sensor hl).1 ((sensor_eq hl).trans hread)
  · intro h
    refine ⟨objectVec3_inBounds ?_, objectVec3_inBounds ?_, sensorVec3_inBounds, ?_⟩
    · intro value src hvalue
      cases value <;> simp_all
    · intro value src hvalue
      cases value <;> simp_all
    · -- only `sensor` unpacks without a check
      intro o s l hl
      refine ⟨fun hread => ?_, fun res hres => (sensor_converted hl hres).2,
        fun ⟨x, hx, src, hsrc, hlt⟩ res hres => ?_⟩
      · rw [sensor_eq hl, mapM_convert_outOfBounds_iff] at hread
        obtain ⟨x, hx, src, hsrc, hlt⟩ := hread
        exact absurd (h o s l hl x hx src hsrc) (Nat.not_le.mpr hlt)
      · exact absurd ((sensor_converted hl hres).1 x hx src hsrc) (Nat.not_le.mpr hlt)

/-- A position without components, as a peer may send it. -/
theorem not_readsInBounds : ¬ ∀ b m,
    (Protobuf.SensorMessage.schema.parseFromString b).1 = true →
      fromBytes b = .ok ⟨.sensorMessage, m⟩ → ReadsInBounds m := by
  intro h
  have hret : fromBytes [0x08, 3, 0x1a, 0x10, 0x0a, 1, 0x6f, 0x12, 0x0b, 0x32, 9, 0x0a, 1, 0x73,
      0x12, 4, 0x0a, 2, 0x22, 0] = .ok ⟨.sensorMessage,
        { messageType := 3
          objects := (∅ : Map _).insert [0x6f]
            { sensors := (∅ : Map _).insert [0x73] { sensor := [⟨some (.position {})⟩] } } }⟩ := by
    decide
  have hin := (h _ _ (by decide) hret).sensor (o := [0x6f]) (s := [0x73])
    (l := [⟨some (.position {})⟩]) rfl
  exact hin.1 rfl

end SensorMessage

end Click
