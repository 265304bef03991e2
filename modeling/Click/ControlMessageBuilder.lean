/-
ControlMessageBuilder.

The builder keeps a pointer to the current object, set by `object`; the `with`
methods write through it.  The interfaces return an `AddControlEventBuilder` from
each method that sets values, on which no other such method is offered, but on
which `object` opens any object again, the current one included.

* `simulates` — an object of the message is the entry of a ledger: it holds what
  was set while it was current;
* `built_object` — each object of a built message, and no other, from the calls of
  the chain;
* `exclusive_iff` — an object ends up with one kind of values exactly when at most
  one kind was last set to something while it was current.
-/
import Click.ControlMessage
import Click.Fluent.Ledger

open Proto Fluent

namespace Click

/-- `ControlMessageBuilderImpl`; `currObject` is `none` until it is set. -/
structure ControlMessageBuilderImpl where
  message : Protobuf.ControlMessage
  currObject : Option Str
  deriving DecidableEq

namespace ControlMessageBuilderImpl

/-! ### Methods -/

def builder : ControlMessageBuilderImpl where
  message := { messageType := MessageType.ControlMessageType }
  currObject := none

variable (b : ControlMessageBuilderImpl)

/-- Write through `currObject`. -/
def onCurrObject (f : Protobuf.ControlMessage.Object → Protobuf.ControlMessage.Object) :
    Except Fault ControlMessageBuilderImpl :=
  match b.currObject with
  | none => .error .uninitializedPointer
  | some name => .ok { b with
      message := { b.message with objects := Protobuf.Map.update b.message.objects name f } }

def object (name : Str) : ControlMessageBuilderImpl where
  message := { b.message with objects := Protobuf.Map.subscript b.message.objects name {} }
  currObject := some name

def withAngles (angles : List Double) : Except Fault ControlMessageBuilderImpl :=
  b.onCurrObject fun o => { o with angles := angles }

def withValues (values : List Double) : Except Fault ControlMessageBuilderImpl :=
  b.onCurrObject fun o => { o with values := values }

def withAngularVelocities (angles : List Double) : Except Fault ControlMessageBuilderImpl :=
  b.onCurrObject fun o => { o with angularVelocities := angles }

def withTorques (torques : List Double) : Except Fault ControlMessageBuilderImpl :=
  b.onCurrObject fun o => { o with torques := torques }

def withControlEvent (name : Str) (activated : Bool) :
    Except Fault ControlMessageBuilderImpl :=
  b.onCurrObject fun o => { o with controlEvents := o.controlEvents.insert name activated }

def build : Message := ⟨.controlMessage, b.message⟩

/-! ### Interfaces -/

/-- The calls of a chain, `build` apart. -/
inductive Call
  | object (name : Str)
  | withValues (values : List Double)
  | withAngles (angles : List Double)
  | withAngularVelocities (angles : List Double)
  | withTorques (torques : List Double)
  | withControlEvent (name : Str) (activated : Bool)
  deriving DecidableEq

def exec : Call → Except Fault ControlMessageBuilderImpl
  | .object name => .ok (b.object name)
  | .withValues values => b.withValues values
  | .withAngles angles => b.withAngles angles
  | .withAngularVelocities angles => b.withAngularVelocities angles
  | .withTorques torques => b.withTorques torques
  | .withControlEvent name activated => b.withControlEvent name activated

inductive Interface
  | controlMessageBuilder
  | addControlBuilder
  | addControlEventBuilder
  deriving DecidableEq

def interfaces : Interfaces Interface Call where
  start := .controlMessageBuilder
  offers
    | .controlMessageBuilder, .object _ => some .addControlBuilder
    | .addControlBuilder, .withValues _ => some .addControlEventBuilder
    | .addControlBuilder, .withAngles _ => some .addControlEventBuilder
    | .addControlBuilder, .withAngularVelocities _ => some .addControlEventBuilder
    | .addControlBuilder, .withTorques _ => some .addControlEventBuilder
    | .addControlEventBuilder, .withControlEvent _ _ => some .addControlEventBuilder
    -- nothing keeps `object` from naming an object that has values already
    | .addControlEventBuilder, .object _ => some .addControlBuilder
    | _, _ => none
  finishes
    | .controlMessageBuilder => false
    | .addControlBuilder => true
    | .addControlEventBuilder => true

/-- The message a chain builds. -/
def built (calls : List Call) : Except Fault Protobuf.ControlMessage :=
  (run exec builder calls).map (·.message)

/-! ### The current pointer -/

/-- The call writes through `currObject`. -/
def Call.usesObject : Call → Bool
  | .object _ => false
  | _ => true

/-- The pointers the call follows have been set. -/
def PointersSet (c : Call) : Prop := c.usesObject = true → b.currObject.isSome

/-- On every interface but the first an object has been opened. -/
def Inv : Interface → ControlMessageBuilderImpl → Prop
  | .controlMessageBuilder, _ => True
  | _, b => b.currObject.isSome

/-- What a `with` method does to the object it writes to. -/
def Call.apply (o : Protobuf.ControlMessage.Object) : Call → Protobuf.ControlMessage.Object
  | .object _ => o
  | .withValues values => { o with values := values }
  | .withAngles angles => { o with angles := angles }
  | .withAngularVelocities angles => { o with angularVelocities := angles }
  | .withTorques torques => { o with torques := torques }
  | .withControlEvent name activated =>
    { o with controlEvents := o.controlEvents.insert name activated }

variable {b}

theorem exec_of_usesObject {c : Call} (h : c.usesObject = true) :
    b.exec c = b.onCurrObject c.apply := by
  cases c with
  | object name => exact absurd h (by simp [Call.usesObject])
  | _ => rfl

theorem onCurrObject_eq_ok
    {f : Protobuf.ControlMessage.Object → Protobuf.ControlMessage.Object}
    {b' : ControlMessageBuilderImpl} : b.onCurrObject f = .ok b' ↔ ∃ name,
      b.currObject = some name ∧ b' = { b with message := { b.message with
        objects := Protobuf.Map.update b.message.objects name f } } := by
  rw [onCurrObject]
  rcases b.currObject with _ | name
  · simp
  · simp [eq_comm]

/-- What a call does: it opens an object, or writes through the pointer. -/
theorem exec_cases {c : Call} {b' : ControlMessageBuilderImpl} (h : b.exec c = .ok b') :
    (∃ name, c = .object name ∧ b' = b.object name) ∨
      ∃ name, c.usesObject = true ∧ b.currObject = some name ∧ b' = { b with
        message := { b.message with
          objects := Protobuf.Map.update b.message.objects name c.apply } } := by
  rcases hc : c.usesObject with _ | _
  · cases c with
    | object name => exact .inl ⟨name, rfl, (Except.ok.inj h).symm⟩
    | _ => exact absurd hc (by simp [Call.usesObject])
  · rw [exec_of_usesObject hc] at h
    obtain ⟨name, hname, rfl⟩ := onCurrObject_eq_ok.mp h
    exact .inr ⟨name, rfl, hname, rfl⟩

theorem exec_of_pointersSet {c : Call} (h : b.PointersSet c) : ∃ b', b.exec c = .ok b' := by
  rcases hc : c.usesObject with _ | _
  · cases c with
    | object name => exact ⟨_, rfl⟩
    | _ => exact absurd hc (by simp [Call.usesObject])
  · obtain ⟨name, hname⟩ := Option.isSome_iff_exists.mp (h hc)
    rw [exec_of_usesObject hc, onCurrObject, hname]
    exact ⟨_, rfl⟩

/-- The interfaces offer a call only where its pointers have been set. -/
theorem inv_step {i j : Interface} {c : Call} (hi : Inv i b) (ho : interfaces.offers i c = some j) :
    b.PointersSet c ∧ ∀ b', b.exec c = .ok b' → Inv j b' := by
  constructor
  · intro hc
    cases i with
    | controlMessageBuilder =>
      cases c with
      | object name => exact absurd hc (by simp [Call.usesObject])
      | _ => exact absurd ho (by simp [interfaces])
    | addControlBuilder => exact hi
    | addControlEventBuilder => exact hi
  · intro b' hb
    have hset : b'.currObject.isSome := by
      rcases exec_cases hb with ⟨name, -, rfl⟩ | ⟨name, -, hname, rfl⟩
      · rfl
      · exact Option.isSome_iff_exists.mpr ⟨name, hname⟩
    cases j with
    | controlMessageBuilder => trivial
    | addControlBuilder => exact hset
    | addControlEventBuilder => exact hset

/-- Every call of a chain finds its pointers set. -/
theorem pointersSet (chain : Chain interfaces) : EachCall exec PointersSet builder chain.calls :=
  eachCall_of_invariant (P := Inv) inv_step (i := .controlMessageBuilder) trivial chain.admitted

theorem run_chain (chain : Chain interfaces) : ∃ b, run exec builder chain.calls = .ok b :=
  run_of_eachCall exec_of_pointersSet (pointersSet chain)

/-! ### messageType -/

/-- No call touches the `messageType`. -/
theorem exec_messageType {c : Call} {b' : ControlMessageBuilderImpl} (h : b.exec c = .ok b') :
    b'.message.messageType = b.message.messageType := by
  rcases exec_cases h with ⟨name, -, rfl⟩ | ⟨name, -, -, rfl⟩ <;> rfl

theorem built_messageType {calls : List Call} {m : Protobuf.ControlMessage}
    (hm : built calls = .ok m) : m.messageType = MessageType.ControlMessageType := by
  obtain ⟨b, hb, rfl⟩ := map_eq_ok.mp hm
  exact run_invariant (P := fun b => b.message.messageType = MessageType.ControlMessageType)
    (fun hs h => (exec_messageType h).trans hs) rfl hb

/-! ### Objects as entries of a ledger -/

def Call.events : Call → List (Event Str Call)
  | .object name => [.enter name]
  | c => [.act c]

theorem events_of_usesObject {c : Call} (h : c.usesObject = true) : c.events = [.act c] := by
  cases c with
  | object name => exact absurd h (by simp [Call.usesObject])
  | _ => rfl

/-- Opening an object again leaves it as it is. -/
abbrev ledger : Ledger Call Protobuf.ControlMessage.Object := Ledger.kept {} Call.apply

def look (b : ControlMessageBuilderImpl) (name : Str) :
    Bool × Option Protobuf.ControlMessage.Object :=
  (decide (b.currObject = some name), b.message.objects[name]?)

theorem simulates : ledger.Simulates exec Call.events look where
  step := by
    intro b c b' hb name
    -- the call opens an object or acts on the current one; `name` is that one or not
    rcases exec_cases hb with ⟨n, rfl, rfl⟩ | ⟨n, hc, hcurr, rfl⟩
    · by_cases hn : n = name <;> simp [look, object, Call.events, Ledger.track, hn]
    · rw [events_of_usesObject hc]
      by_cases hn : n = name <;> simp [look, Ledger.track, hcurr, hn]

/-- The `with` calls made while `name` was current. -/
def actsOn (name : Str) (calls : List Call) : List Call :=
  acts name false (calls.flatMap Call.events)

/-- **What a chain builds**: the objects it opens, each holding what was set while
it was current. -/
theorem built_object {calls : List Call} {m : Protobuf.ControlMessage}
    (hm : built calls = .ok m) (name : Str) :
    m.objects[name]? = if opened name (calls.flatMap Call.events) then
      some ((actsOn name calls).foldl Call.apply {}) else none := by
  obtain ⟨b, hb, rfl⟩ := map_eq_ok.mp hm
  have hlook := simulates.look_run hb name
  -- nothing is current, and nothing there, before the first call
  rw [show look builder name = (false, none) from by simp [look, builder]] at hlook
  have hval := congrArg Prod.snd hlook
  rw [kept_run name _ (by simp)] at hval
  simpa [look, actsOn] using hval

/-! ### Mutually exclusive values -/

/-- The kinds of values an object can be given. -/
inductive Kind
  | angles
  | angularVelocities
  | torques
  | values
  deriving DecidableEq

/-- The accessor of a kind. -/
def Kind.accessor : Kind → Protobuf.ControlMessage → Str → Except Fault (List Double)
  | angles => ControlMessage.angles
  | angularVelocities => ControlMessage.angularVelocities
  | torques => ControlMessage.torques
  | values => ControlMessage.values

def Kind.get : Kind → Protobuf.ControlMessage.Object → List Double
  | angles => (·.angles)
  | angularVelocities => (·.angularVelocities)
  | torques => (·.torques)
  | values => (·.values)

theorem Kind.accessor_eq (k : Kind) (m : Protobuf.ControlMessage) (name : Str) :
    k.accessor m name = (Protobuf.Map.at m.objects name).map k.get := by
  cases k <;> rfl

/-- What a call gives as values of a kind. -/
def Call.argument : Kind → Call → Option (List Double)
  | .angles, .withAngles angles => some angles
  | .angularVelocities, .withAngularVelocities angles => some angles
  | .torques, .withTorques torques => some torques
  | .values, .withValues values => some values
  | _, _ => none

/-- The last values of a kind among some calls, empty if there are none. -/
def lastArgument (k : Kind) (calls : List Call) : List Double :=
  (calls.filterMap (Call.argument k)).getLast?.getD []

theorem get_apply (k : Kind) (o : Protobuf.ControlMessage.Object) (c : Call) :
    k.get (c.apply o) = (c.argument k).getD (k.get o) := by
  cases k <;> cases c <;> rfl

/-- Each kind is assigned, so the last call wins. -/
theorem get_foldl_apply (k : Kind) (calls : List Call) (o : Protobuf.ControlMessage.Object) :
    k.get (calls.foldl Call.apply o) =
      (calls.filterMap (Call.argument k)).getLast?.getD (k.get o) :=
  get_foldl k.get Call.apply (Call.argument k) (get_apply k) calls o

/-- At most one of the four lists of an object holds anything. -/
def Exclusive (m : Protobuf.ControlMessage) (name : Str) : Prop :=
  ∀ k k' : Kind, ∀ xs xs', k.accessor m name = .ok xs → k'.accessor m name = .ok xs' →
    xs ≠ [] → xs' ≠ [] → k = k'

theorem accessor_of_object {m : Protobuf.ControlMessage} {name : Str} {calls : List Call}
    (h : m.objects[name]? = some ((actsOn name calls).foldl Call.apply {})) (k : Kind) :
    k.accessor m name = .ok (lastArgument k (actsOn name calls)) := by
  have hget := get_foldl_apply k (actsOn name calls) {}
  rw [show k.get {} = [] from by cases k <;> rfl] at hget
  rw [Kind.accessor_eq, Protobuf.Map.at_of_some h, lastArgument, ← hget]
  rfl

/-- **When control values are mutually exclusive.**  In the message a chain builds
each object has at most one non-empty list exactly when for each name at most one
kind was last set to a non-empty list while it was current. -/
theorem exclusive_iff (chain : Chain interfaces) :
    (∃ m, built chain.calls = .ok m ∧
      ∀ name, ControlMessage.has_object m name = true → Exclusive m name) ↔
    ∀ name, ∀ k k' : Kind, lastArgument k (actsOn name chain.calls) ≠ [] →
      lastArgument k' (actsOn name chain.calls) ≠ [] → k = k' := by
  obtain ⟨b, hb⟩ := run_chain chain
  have hbuilt : built chain.calls = .ok b.message := congrArg (Except.map _) hb
  constructor
  · rintro ⟨m, hm, hexcl⟩ name k k' hk hk'
    have hobj := built_object hm name
    rcases hopen : opened name (chain.calls.flatMap Call.events) with _ | _
    · -- an object that is never opened is never current
      rw [actsOn, acts_eq_nil hopen] at hk
      exact absurd rfl hk
    · rw [hopen, if_pos rfl] at hobj
      have hhas : ControlMessage.has_object m name = true := by
        rw [ControlMessage.has_object, Std.ExtTreeMap.contains_eq_isSome_getElem?, hobj]
        rfl
      exact hexcl name hhas k k' _ _ (accessor_of_object hobj k) (accessor_of_object hobj k') hk hk'
  · refine fun h => ⟨b.message, hbuilt, fun name hhas k k' xs xs' hxs hxs' hne hne' => ?_⟩
    rw [ControlMessage.has_object, Std.ExtTreeMap.contains_eq_isSome_getElem?] at hhas
    have hobj := built_object hbuilt name
    rcases hopen : opened name (chain.calls.flatMap Call.events) with _ | _
    · rw [hobj, hopen] at hhas
      exact absurd hhas (by simp)
    · rw [hopen, if_pos rfl] at hobj
      rw [accessor_of_object hobj, Except.ok.injEq] at hxs hxs'
      subst hxs hxs'
      exact h name k k' hne hne'

/-- The object is opened again, and the interface forgets that it has angles. -/
theorem not_exclusive : ¬ ∀ chain : Chain interfaces, ∃ m, built chain.calls = .ok m ∧
    ∀ name, ControlMessage.has_object m name = true → Exclusive m name := by
  intro h
  obtain ⟨m, hm, hexcl⟩ := h ⟨[.object [114], .withAngles [1], .object [114], .withTorques [1]],
    .addControlEventBuilder, rfl⟩
  obtain rfl := Except.ok.inj hm
  have hkind := hexcl [114] rfl .angles .torques [1] [1] rfl rfl (by simp) (by simp)
  exact absurd hkind (by decide)

end ControlMessageBuilderImpl

end Click
