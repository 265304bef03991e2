/-
The control values of the demo client.

`--controlmessage` lists robots with their values, as in `robot1:0,0;robot2:1`.  The
client takes the argument apart, enters each robot in a message and dispatches its
values on `--controltype`, put in lower case; one of the words it is compared with
has a capital.

* `addRobot_text` — the robots and values that were typed are what is found;
* `objects_foldl` — a robot that is listed again goes on where it was;
* `sends_iff` — every value is sent unless the type is `AngularVelocity1D`.
-/
import Click.ControlMessageBuilder
import Click.MessageSerializer

open Proto Fluent

namespace Click.Pclick.DemoClient

open ControlMessageBuilderImpl (Kind)

/-! ### The client -/

/-- The exceptions a malformed argument raises. -/
inductive Error
  | valueError
  | indexError
  deriving DecidableEq

/-- The choices of `--controltype`. -/
inductive ControlType
  | Angle
  | AngularVelocity1D
  | Torque1D
  deriving DecidableEq

def ControlType.text : ControlType → List Char
  | Angle => "Angle".toList
  | AngularVelocity1D => "AngularVelocity1D".toList
  | Torque1D => "Torque1D".toList

/-- `str.lower`, on ASCII. -/
def lower (s : List Char) : List Char := s.map Char.toLower

/-- The name of a robot as the key of an entry. -/
def key (robotname : List Char) : Str := str (String.ofList robotname)

/-- The chain of `if` and `elif`, which has no `else`. -/
def dispatch (controltype : Option (List Char)) (arr : List Double)
    (robot : Protobuf.ControlMessage.Object) : Protobuf.ControlMessage.Object :=
  match controltype with
  | none => { robot with values := robot.values ++ arr }
  | some controltype =>
    if lower controltype = "angle".toList then { robot with angles := robot.angles ++ arr }
    else if lower controltype = "angularvelocity1D".toList then
      { robot with angularVelocities := robot.angularVelocities ++ arr }
    else if lower controltype = "torque1d".toList then
      { robot with torques := robot.torques ++ arr }
    else robot

/-- The built-in `float`, which raises a `ValueError` where it does not accept its
argument. -/
abbrev PyFloat := List Char → Option Double

/-- `list(map(float, arr))`. -/
def floats (float : PyFloat) (arr : List (List Char)) : Except Error (List Double) :=
  match arr.mapM float with
  | none => .error .valueError
  | some arr => .ok arr

/-- The body of the loop over the robots. -/
def addRobot (float : PyFloat) (controltype : Option (List Char))
    (message : Protobuf.ControlMessage) (arg : List Char) :
    Except Error Protobuf.ControlMessage :=
  match arg.splitOn ':' with
  | [] => .error .valueError
  | robotname :: values => do
    -- the robot is entered before its values are looked at
    let objects := Protobuf.Map.subscript message.objects (key robotname) {}
    match values with
    | [] => .error .indexError
    | value :: _ =>
      let arr ← floats float (value.splitOn ',')
      .ok { message with
        objects := Protobuf.Map.update objects (key robotname) (dispatch controltype arr) }

/-- The message for an argument that is not empty. -/
def controlmessage (float : PyFloat) (controltype : Option (List Char)) (args : List Char) :
    Except Error Protobuf.ControlMessage :=
  (args.splitOn ';').foldlM (addRobot float controltype) (create_message .controlMessage)

/-! ### What is typed -/

/-- A literal and the value `float` gives it. -/
structure Literal (float : PyFloat) where
  text : List Char
  value : Double
  reads : float text = some value

/-- A robot with its values. -/
structure Robot (float : PyFloat) where
  name : List Char
  literals : List (Literal float)
  literals_ne : literals ≠ []
  no_colon : ':' ∉ name
  no_semicolon : ';' ∉ name

/-- No separator is part of a literal. -/
def Separable (float : PyFloat) : Prop :=
  ∀ s v, float s = some v → ',' ∉ s ∧ ':' ∉ s ∧ ';' ∉ s

variable {float : PyFloat}

def Robot.values (r : Robot float) : List Double := r.literals.map (·.value)

/-- `v1,v2,...` -/
def Robot.list (r : Robot float) : List Char := [','].intercalate (r.literals.map (·.text))

/-- `name:v1,v2,...` -/
def Robot.text (r : Robot float) : List Char := [':'].intercalate [r.name, r.list]

/-- `name:v1,v2,...;name:v1,...` -/
def argument (robots : List (Robot float)) : List Char :=
  [';'].intercalate (robots.map Robot.text)

/-- The list of an object that is meant. -/
def selected : Option ControlType → Kind
  | none => .values
  | some .Angle => .angles
  | some .AngularVelocity1D => .angularVelocities
  | some .Torque1D => .torques

/-- The objects are the robots that were typed; the selected list of each holds all
the values typed for it, in order, and the other lists are empty. -/
structure Sends (m : Protobuf.ControlMessage) (choice : Option ControlType)
    (robots : List (Robot float)) : Prop where
  messageType : m.messageType = MessageType.ControlMessageType
  objects : ∀ o, o ∈ m.objects ↔ ∃ r ∈ robots, key r.name = o
  lists : ∀ r ∈ robots, ∃ obj, m.objects[key r.name]? = some obj ∧ ∀ k : Kind, k.get obj =
    if k = selected choice then (robots.filter (·.name = r.name)).flatMap Robot.values else []

/-! ### Taking the argument apart -/

theorem not_mem_intercalate {α : Type} {x y : α} (hxy : x ≠ y) {ls : List (List α)}
    (h : ∀ l ∈ ls, x ∉ l) : x ∉ [y].intercalate ls := by
  induction ls with
  | nil => simp
  | cons l ls ih =>
    obtain ⟨hl, hls⟩ := List.forall_mem_cons.mp h
    cases ls with
    | nil => simpa using hl
    | cons l' ls =>
      rw [List.intercalate_cons_cons]
      simp only [List.mem_append, List.mem_singleton, not_or]
      exact ⟨⟨hl, hxy⟩, ih hls⟩

theorem Robot.not_mem_list (hfloat : Separable float) (r : Robot float) :
    ':' ∉ r.list ∧ ';' ∉ r.list := by
  constructor
  · refine not_mem_intercalate (by decide) fun l hl => ?_
    obtain ⟨literal, -, rfl⟩ := List.mem_map.mp hl
    exact (hfloat _ _ literal.reads).2.1
  · refine not_mem_intercalate (by decide) fun l hl => ?_
    obtain ⟨literal, -, rfl⟩ := List.mem_map.mp hl
    exact (hfloat _ _ literal.reads).2.2

theorem Robot.splitOn_list (hfloat : Separable float) (r : Robot float) :
    r.list.splitOn ',' = r.literals.map (·.text) := by
  refine List.splitOn_intercalate ',' (fun l hl => ?_) (by simpa using r.literals_ne)
  obtain ⟨literal, -, rfl⟩ := List.mem_map.mp hl
  exact (hfloat _ _ literal.reads).1

theorem Robot.splitOn_text (hfloat : Separable float) (r : Robot float) :
    r.text.splitOn ':' = [r.name, r.list] :=
  List.splitOn_intercalate ':' (by simp [r.no_colon, (r.not_mem_list hfloat).1]) (by simp)

theorem Robot.not_mem_text (hfloat : Separable float) (r : Robot float) : ';' ∉ r.text :=
  not_mem_intercalate (by decide) (by simp [r.no_semicolon, (r.not_mem_list hfloat).2])

theorem splitOn_argument (hfloat : Separable float) {robots : List (Robot float)}
    (hne : robots ≠ []) : (argument robots).splitOn ';' = robots.map Robot.text := by
  refine List.splitOn_intercalate ';' (fun l hl => ?_) (by simpa using hne)
  obtain ⟨r, -, rfl⟩ := List.mem_map.mp hl
  exact r.not_mem_text hfloat

theorem floats_literals (literals : List (Literal float)) :
    floats float (literals.map (·.text)) = .ok (literals.map (·.value)) := by
  have hmap : (literals.map (·.text)).mapM float = some (literals.map (·.value)) := by
    induction literals with
    | nil => rfl
    | cons literal literals ih => simp [literal.reads, ih]
  rw [floats, hmap]

/-- What the loop does with a robot. -/
def enter (controltype : Option (List Char)) (m : Protobuf.ControlMessage) (r : Robot float) :
    Protobuf.ControlMessage :=
  let objects := Protobuf.Map.subscript m.objects (key r.name) {}
  { m with objects := Protobuf.Map.update objects (key r.name) (dispatch controltype r.values) }

/-- **The robot and its values are found as they were typed.** -/
theorem addRobot_text (hfloat : Separable float) (controltype : Option (List Char))
    (m : Protobuf.ControlMessage) (r : Robot float) :
    addRobot float controltype m r.text = .ok (enter controltype m r) := by
  rw [addRobot, r.splitOn_text hfloat]
  simp only [r.splitOn_list hfloat, floats_literals]
  rfl

theorem controlmessage_argument (hfloat : Separable float) (controltype : Option (List Char))
    {robots : List (Robot float)} (hne : robots ≠ []) :
    controlmessage float controltype (argument robots) =
      .ok (robots.foldl (enter controltype) (create_message .controlMessage)) := by
  rw [controlmessage, splitOn_argument hfloat hne]
  generalize create_message .controlMessage = m
  induction robots generalizing m with
  | nil => exact absurd rfl hne
  | cons r robots ih =>
    rw [List.map_cons, List.foldlM_cons, addRobot_text hfloat]
    by_cases hnil : robots = []
    · rw [hnil]
      rfl
    · exact ih hnil _

/-! ### The objects of the message -/

/-- A robot opens its entry, and its values are one act on it. -/
def Robot.session (r : Robot float) : Session Str (List Double) := (key r.name, [r.values])

abbrev ledger (controltype : Option (List Char)) :
    Ledger (List Double) Protobuf.ControlMessage.Object :=
  Ledger.kept {} fun o arr => dispatch controltype arr o

theorem track_foldl (controltype : Option (List Char)) (robots : List (Robot float)) (k : Str)
    {m : Protobuf.ControlMessage} {e : Bool × Option Protobuf.ControlMessage.Object}
    (he : e.2 = m.objects[k]?) :
    (((robots.map Robot.session).flatMap Session.events).foldl
      ((ledger controltype).track k) e).2 = (robots.foldl (enter controltype) m).objects[k]? := by
  induction robots generalizing m e with
  | nil => exact he
  | cons r robots ih =>
    rw [List.map_cons, List.flatMap_cons, List.foldl_append, track_session, List.foldl_cons]
    refine ih ?_
    by_cases hk : key r.name = k
    · subst hk
      simp [Robot.session, enter, he]
    · simp [Robot.session, enter, he, hk]

/-- **A robot that is listed again goes on where it was.** -/
theorem objects_foldl (controltype : Option (List Char)) (robots : List (Robot float)) (k : Str) :
    (robots.foldl (enter controltype) (create_message .controlMessage)).objects[k]? =
      if robots.any (key ·.name = k) then
        some (((robots.filter (key ·.name = k)).map Robot.values).foldl
          (fun o arr => dispatch controltype arr o) {})
      else none := by
  rw [← track_foldl controltype robots k (e := (false, none)) rfl, kept_sessions]
  simp only [List.any_map, List.filter_map, List.flatMap_map, Function.comp_def, Robot.session,
    Option.isSome_none, Bool.false_or, Option.getD_none, ← List.map_eq_flatMap]
  rfl

theorem messageType_foldl (controltype : Option (List Char)) (robots : List (Robot float))
    (m : Protobuf.ControlMessage) :
    (robots.foldl (enter controltype) m).messageType = m.messageType := by
  induction robots generalizing m with
  | nil => rfl
  | cons r robots ih => exact ih _

theorem key_injective : Function.Injective key := by
  intro a b h
  exact String.ofList_injective
    (String.toByteArray_inj.mp (ByteArray.ext (Array.toList_inj.mp h)))

/-! ### The dispatch -/

/-- The list the values go to. -/
def target : Option ControlType → Option Kind
  | some .AngularVelocity1D => none
  | choice => some (selected choice)

theorem get_dispatch (choice : Option ControlType) (arr : List Double)
    (o : Protobuf.ControlMessage.Object) (k : Kind) :
    k.get (dispatch (choice.map ControlType.text) arr o) =
      k.get o ++ if target choice = some k then arr else [] := by
  have hangle : lower ControlType.Angle.text = "angle".toList := by decide
  have hvelocity : lower ControlType.AngularVelocity1D.text ≠ "angle".toList ∧
      lower ControlType.AngularVelocity1D.text ≠ "angularvelocity1D".toList ∧
      lower ControlType.AngularVelocity1D.text ≠ "torque1d".toList := by decide
  have htorque : lower ControlType.Torque1D.text ≠ "angle".toList ∧
      lower ControlType.Torque1D.text ≠ "angularvelocity1D".toList ∧
      lower ControlType.Torque1D.text = "torque1d".toList := by decide
  rcases choice with _ | _ | _ | _
  · cases k <;> simp [dispatch, target, selected, Kind.get]
  · rw [Option.map_some, dispatch, if_pos hangle]
    cases k <;> simp [target, selected, Kind.get]
  · -- no case of the chain is met
    rw [Option.map_some, dispatch, if_neg hvelocity.1, if_neg hvelocity.2.1,
      if_neg hvelocity.2.2]
    simp [target]
  · rw [Option.map_some, dispatch, if_neg htorque.1, if_neg htorque.2.1, if_pos htorque.2.2]
    cases k <;> simp [target, selected, Kind.get]

theorem get_foldl_dispatch (choice : Option ControlType) (k : Kind) (arrs : List (List Double))
    (o : Protobuf.ControlMessage.Object) :
    k.get (arrs.foldl (fun o arr => dispatch (choice.map ControlType.text) arr o) o) =
      k.get o ++ if target choice = some k then arrs.flatten else [] := by
  induction arrs generalizing o with
  | nil => simp
  | cons arr arrs ih =>
    rw [List.foldl_cons, ih, get_dispatch, List.append_assoc]
    by_cases hk : target choice = some k <;> simp [hk]

/-- **The message that is sent**, whatever the type. -/
theorem lists_foldl (choice : Option ControlType) {robots : List (Robot float)} {r : Robot float}
    (hr : r ∈ robots) : ∃ obj, (robots.foldl (enter (choice.map ControlType.text))
        (create_message .controlMessage)).objects[key r.name]? = some obj ∧
      ∀ k : Kind, k.get obj = if target choice = some k then
        (robots.filter (·.name = r.name)).flatMap Robot.values else [] := by
  have hany : robots.any (key ·.name = key r.name) = true :=
    List.any_eq_true.mpr ⟨r, hr, decide_eq_true rfl⟩
  refine ⟨_, (objects_foldl _ robots _).trans (if_pos hany), fun k => ?_⟩
  rw [get_foldl_dispatch, show k.get {} = [] from by cases k <;> rfl, List.nil_append]
  simp only [key_injective.eq_iff, List.flatMap_def]

/-- The list that was meant stays empty, though a value was typed. -/
theorem not_sends_velocity {robots : List (Robot float)} (hne : robots ≠ []) :
    ¬ Sends (robots.foldl (enter (some ControlType.AngularVelocity1D.text))
      (create_message .controlMessage)) (some .AngularVelocity1D) robots := by
  intro hsends
  obtain ⟨r, robots, rfl⟩ := List.exists_cons_of_ne_nil hne
  obtain ⟨obj, hobj, hlists⟩ := hsends.lists r List.mem_cons_self
  obtain ⟨obj', hobj', hlists'⟩ :=
    lists_foldl (some .AngularVelocity1D) (List.mem_cons_self (a := r) (l := robots))
  obtain rfl := Option.some.inj (hobj.symm.trans hobj')
  have hnil := (hlists .angularVelocities).symm.trans (hlists' .angularVelocities)
  obtain ⟨literal, literals, hliterals⟩ := List.exists_cons_of_ne_nil r.literals_ne
  simp [selected, target, Robot.values, hliterals] at hnil

/-- **When every value is sent.**  The demo client sends all that was typed exactly
if the type is not `AngularVelocity1D`. -/
theorem sends_iff (hfloat : Separable float) (robots : List (Robot float)) (hne : robots ≠ [])
    (choice : Option ControlType) :
    (∃ m, controlmessage float (choice.map ControlType.text) (argument robots) = .ok m ∧
      Sends m choice robots) ↔ choice ≠ some .AngularVelocity1D := by
  rw [controlmessage_argument hfloat _ hne]
  constructor
  · rintro ⟨m, hm, hsends⟩ rfl
    obtain rfl := Except.ok.inj hm
    exact not_sends_velocity hne hsends
  · intro hchoice
    refine ⟨_, rfl, messageType_foldl _ _ _, fun o => ?_, fun r hr => ?_⟩
    · rw [Std.ExtTreeMap.mem_iff_isSome_getElem?, objects_foldl]
      by_cases hany : robots.any (key ·.name = o) = true
      · rw [if_pos hany]
        simpa using hany
      · rw [if_neg hany]
        simpa using hany
    · obtain ⟨obj, hobj, hlists⟩ := lists_foldl choice hr
      -- the choices that are left meet a case of the chain
      have htarget : target choice = some (selected choice) := by
        rcases choice with _ | _ | _ | _ <;> first | rfl | exact absurd rfl hchoice
      refine ⟨obj, hobj, fun k => ?_⟩
      rw [hlists, htarget]
      simp [eq_comm]

/-- `float` as far as the literal `0` goes. -/
def floatZero : PyFloat := fun s => if s = ['0'] then some 0 else none

theorem separable_floatZero : Separable floatZero := by
  intro s v h
  obtain rfl : s = ['0'] := by
    by_contra hs
    exact absurd h (by simp [floatZero, hs])
  decide

/-- A robot `r` with a `0`. -/
def robotZero : Robot floatZero where
  name := ['r']
  literals := [⟨['0'], 0, rfl⟩]
  literals_ne := by simp
  no_colon := by decide
  no_semicolon := by decide

theorem sends_iff_torque : (∃ m, controlmessage floatZero (some "Torque1D".toList)
      (argument [robotZero]) = .ok m ∧ Sends m (some .Torque1D) [robotZero]) ↔
    some ControlType.Torque1D ≠ some .AngularVelocity1D :=
  sends_iff separable_floatZero [robotZero] (by simp) (some .Torque1D)

/-- The client called with `--controlmessage r:0 --controltype AngularVelocity1D`. -/
theorem not_sends : ¬ ∀ (float : PyFloat), Separable float → ∀ robots : List (Robot float),
    robots ≠ [] → ∀ choice : Option ControlType,
      ∃ m, controlmessage float (choice.map ControlType.text) (argument robots) = .ok m ∧
        Sends m choice robots := by
  intro h
  obtain ⟨m, hm, hsends⟩ :=
    h floatZero separable_floatZero [robotZero] (by simp) (some .AngularVelocity1D)
  rw [controlmessage_argument separable_floatZero _ (by simp)] at hm
  obtain rfl := Except.ok.inj hm
  exact not_sends_velocity (by simp) hsends

end Click.Pclick.DemoClient
