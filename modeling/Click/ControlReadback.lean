/-
A ControlMessage says what its chain said.

The accessors of a built message are answered from the calls that were made while an
object was current, and a message that comes back from the wire is the one that was
sent.

* `says_of_built` — what a built message says;
* `utf8_of_built` — its strings are the names in the calls;
* `says_built` — so it says the same after the wire.
-/
import Click.ControlMessageBuilder
import Click.MessageSerializer

open Proto Fluent

namespace Click.ControlMessageBuilderImpl

/-- What a call makes of the control event `name`. -/
def Call.event (name : Str) : Call → Option Bool
  | .withControlEvent name' activated => if name' = name then some activated else none
  | _ => none

/-- The last value given to a control event among some calls. -/
def lastEvent (name : Str) (calls : List Call) : Option Bool :=
  (calls.filterMap (Call.event name)).getLast?

/-- The accessors of a message answer what the calls of a chain said. -/
structure Says (m : Protobuf.ControlMessage) (calls : List Call) : Prop where
  has_object : ∀ o, ControlMessage.has_object m o = true ↔ .object o ∈ calls
  values : ∀ o, .object o ∈ calls → ∀ k : Kind,
    k.accessor m o = .ok (lastArgument k (actsOn o calls))
  hasControlEvent : ∀ o c, ControlMessage.hasControlEvent m o c = true ↔
    ∃ activated, .withControlEvent c activated ∈ actsOn o calls
  controlEvent : ∀ o c, ControlMessage.hasControlEvent m o c = true →
    ∃ activated, lastEvent c (actsOn o calls) = some activated ∧
      ControlMessage.controlEvent m o c = .ok activated

/-- A call writes to no object but the current one. -/
def Isolated (calls : List Call) : Prop :=
  ∀ pre c, pre ++ [c] <+: calls → ∀ b b', run exec builder pre = .ok b → b.exec c = .ok b' →
    ∀ o, c ≠ .object o → (c.usesObject = true → b.currObject ≠ some o) →
      b'.message.objects[o]? = b.message.objects[o]?

/-- The names in a call are valid UTF-8. -/
def Call.Utf8 : Call → Prop
  | .object name => validUtf8 name = true
  | .withControlEvent name _ => validUtf8 name = true
  | _ => True

/-! ### What a chain says -/

theorem opened_iff_mem {o : Str} {calls : List Call} :
    opened o (calls.flatMap Call.events) = true ↔ .object o ∈ calls :=
  opened_flatMap fun c => by cases c <;> simp [Call.events, eq_comm]

theorem mem_of_mem_actsOn {o : Str} {c : Call} {calls : List Call} (h : c ∈ actsOn o calls) :
    c ∈ calls := by
  obtain ⟨c', hc', he⟩ := List.mem_flatMap.mp (mem_of_mem_acts h)
  cases c' with
  | object name => exact absurd he (by simp [Call.events])
  | _ =>
    obtain rfl := Event.act.inj (List.mem_singleton.mp he)
    exact hc'

theorem mem_filterMap_event {c : Str} {activated : Bool} {calls : List Call} :
    activated ∈ calls.filterMap (Call.event c) ↔ .withControlEvent c activated ∈ calls := by
  rw [List.mem_filterMap]
  constructor
  · rintro ⟨call, hcall, he⟩
    cases call with
    | withControlEvent name activated' =>
      obtain ⟨rfl, rfl⟩ : name = c ∧ activated' = activated := by simpa [Call.event] using he
      exact hcall
    | _ => exact absurd he (by simp [Call.event])
  · exact fun h => ⟨_, h, by simp [Call.event]⟩

/-- Control events are put into a map, so the last one of a name wins. -/
theorem controlEvents_foldl_apply (c : Str) (calls : List Call)
    (o : Protobuf.ControlMessage.Object) :
    (calls.foldl Call.apply o).controlEvents[c]? =
      (lastEvent c calls).or o.controlEvents[c]? := by
  have happly : ∀ (o : Protobuf.ControlMessage.Object) (call : Call),
      (call.apply o).controlEvents[c]? = ((call.event c).map some).getD o.controlEvents[c]? := by
    intro o call
    cases call with
    | withControlEvent name activated =>
      simp only [Call.apply, Call.event, Protobuf.Map.getElem?_insert]
      split <;> rfl
    | _ => rfl
  have hget := get_foldl (fun o : Protobuf.ControlMessage.Object => o.controlEvents[c]?) Call.apply
    (fun call => (call.event c).map some) happly calls o
  rw [hget, lastEvent, ← List.map_filterMap, List.getLast?_map]
  cases (calls.filterMap (Call.event c)).getLast? <;> rfl

theorem lastEvent_isSome {c : Str} {calls : List Call} :
    (lastEvent c calls).isSome ↔ ∃ activated, .withControlEvent c activated ∈ calls := by
  rw [lastEvent, List.getLast?_isSome]
  constructor
  · intro h
    obtain ⟨activated, hmem⟩ := List.exists_mem_of_ne_nil _ h
    exact ⟨activated, mem_filterMap_event.mp hmem⟩
  · rintro ⟨activated, hmem⟩
    exact List.ne_nil_of_mem (mem_filterMap_event.mpr hmem)

section Built

variable {calls : List Call} {m : Protobuf.ControlMessage}

/-- An object that was opened. -/
theorem object_of_mem (hm : built calls = .ok m) {o : Str} (ho : .object o ∈ calls) :
    m.objects[o]? = some ((actsOn o calls).foldl Call.apply {}) := by
  rw [built_object hm, opened_iff_mem.mpr ho, if_pos rfl]

/-- An object that was not. -/
theorem object_of_not_mem (hm : built calls = .ok m) {o : Str} (ho : .object o ∉ calls) :
    m.objects[o]? = none ∧ actsOn o calls = [] := by
  have hopen : opened o (calls.flatMap Call.events) = false :=
    Bool.eq_false_iff.mpr fun h => ho (opened_iff_mem.mp h)
  rw [built_object hm, hopen]
  exact ⟨rfl, acts_eq_nil hopen⟩

theorem controlEvents_of_mem (o c : Str) :
    ((actsOn o calls).foldl Call.apply {}).controlEvents[c]? = lastEvent c (actsOn o calls) := by
  rw [controlEvents_foldl_apply]
  exact Option.or_none

/-- **What a built message says.** -/
theorem says_of_built (hm : built calls = .ok m) : Says m calls where
  has_object o := by
    rw [ControlMessage.has_object, Std.ExtTreeMap.contains_eq_isSome_getElem?]
    by_cases ho : .object o ∈ calls
    · rw [object_of_mem hm ho]
      exact iff_of_true rfl ho
    · rw [(object_of_not_mem hm ho).1]
      exact iff_of_false (by simp) ho
  values o ho k := accessor_of_object (object_of_mem hm ho) k
  hasControlEvent o c := by
    rw [ControlMessage.hasControlEvent, ← lastEvent_isSome]
    by_cases ho : .object o ∈ calls
    · simp only [object_of_mem hm ho]
      rw [Std.ExtTreeMap.contains_eq_isSome_getElem?, controlEvents_of_mem]
    · obtain ⟨hnone, hacts⟩ := object_of_not_mem hm ho
      simp [hnone, hacts, lastEvent]
  controlEvent o c h := by
    by_cases ho : .object o ∈ calls
    · have hobj := object_of_mem hm ho
      simp only [ControlMessage.hasControlEvent, hobj] at h
      rw [Std.ExtTreeMap.contains_eq_isSome_getElem?, controlEvents_of_mem,
        Option.isSome_iff_exists] at h
      obtain ⟨activated, hlast⟩ := h
      refine ⟨activated, hlast, ?_⟩
      rw [ControlMessage.controlEvent, Protobuf.Map.at_of_some hobj]
      exact Protobuf.Map.at_of_some ((controlEvents_of_mem o c).trans hlast)
    · simp [ControlMessage.hasControlEvent, (object_of_not_mem hm ho).1] at h

/-- Its strings are the names that the calls gave. -/
theorem utf8_of_built (hcalls : ∀ c ∈ calls, c.Utf8) (hm : built calls = .ok m) :
    Protobuf.ControlMessage.schema.Utf8 m := by
  simp only [Schema.Utf8, Protobuf.ControlMessage.schema, List.forall_mem_cons]
  refine ⟨trivial, FieldCodec.map_utf8_iff.mpr fun o object hobj => ?_, by simp⟩
  by_cases ho : .object o ∈ calls
  · refine ⟨hcalls _ ho, ?_⟩
    obtain rfl := Option.some.inj ((object_of_mem hm ho).symm.trans hobj)
    have hevents : (FieldCodec.map 4 Scalar.bool.toValue).Utf8
        ((actsOn o calls).foldl Call.apply {}).controlEvents := by
      refine FieldCodec.map_utf8_iff.mpr fun c activated hc => ⟨?_, trivial⟩
      rw [controlEvents_of_mem] at hc
      have hmem := mem_filterMap_event.mp (List.mem_of_getLast? hc)
      exact hcalls _ (mem_of_mem_actsOn hmem)
    show Protobuf.ControlMessage.Object.schema.Utf8 _
    simp only [Schema.Utf8, Protobuf.ControlMessage.Object.schema, List.forall_mem_cons]
    exact ⟨trivial, trivial, trivial, hevents, trivial, by simp⟩
  · rw [(object_of_not_mem hm ho).1] at hobj
    exact absurd hobj (by simp)

end Built

/-! ### Isolation -/

theorem isolated (calls : List Call) : Isolated calls := by
  intro pre c _ b b' _ hc o hne hcurr
  rcases exec_cases hc with ⟨name, rfl, rfl⟩ | ⟨name, huses, hname, rfl⟩
  · have hname : name ≠ o := fun h => hne (by rw [h])
    simp [object, hname]
  · have hname : name ≠ o := fun h => hcurr huses (by rw [hname, h])
    simp [hname]

/-! ### Before and after the wire -/

/-- **A ControlMessage says what its chain said.**  Each chain with valid names
builds a message whose accessors answer what its calls said; calls for one object
leave the others as they are; and a ControlMessage read from any encoding of it
answers the same.  It is read back whenever it can be encoded at all. -/
theorem says_built (chain : Chain interfaces) (hcalls : ∀ c ∈ chain.calls, c.Utf8) :
    ∃ m, built chain.calls = .ok m ∧ Says m chain.calls ∧ Isolated chain.calls ∧
      ∀ out, serializeToString ⟨.controlMessage, m⟩ out →
        (∀ m', fromBytes out = .ok ⟨.controlMessage, m'⟩ → Says m' chain.calls) ∧
          (Protobuf.ControlMessage.schema.byteSize m < 2 ^ 31 →
            fromBytes out = .ok ⟨.controlMessage, m⟩) := by
  obtain ⟨b, hb⟩ := run_chain chain
  have hm : built chain.calls = .ok b.message := congrArg (Except.map _) hb
  have htag : Message.Tagged ⟨.controlMessage, b.message⟩ := built_messageType hm
  have hu := utf8_of_built hcalls hm
  refine ⟨b.message, hm, says_of_built hm, isolated chain.calls, fun out hout => ⟨?_, ?_⟩⟩
  · intro m' hm'
    have heq := eq_of_fromBytes htag hu (by simp) hout hm' rfl
    obtain rfl : m' = b.message := by simpa using heq
    exact says_of_built hm
  · intro hsize
    exact fromBytes_of_serializes htag hu (Nat.le_sub_one_of_lt hsize) hout

/-- An object that is opened again, with a false event and a list that is emptied. -/
theorem says_built_control :
    let calls : List Call := [.object [114], .withAngles [1, 2], .withControlEvent [103] false,
      .object [98], .withValues [3], .object [114], .withAngles []]
    ∃ m, built calls = .ok m ∧ Says m calls ∧ Isolated calls ∧
      ∀ out, serializeToString ⟨.controlMessage, m⟩ out →
        (∀ m', fromBytes out = .ok ⟨.controlMessage, m'⟩ → Says m' calls) ∧
          (Protobuf.ControlMessage.schema.byteSize m < 2 ^ 31 →
            fromBytes out = .ok ⟨.controlMessage, m⟩) := by
  intro calls
  refine says_built ⟨calls, .addControlEventBuilder, rfl⟩ fun c hc => ?_
  simp only [calls, List.mem_cons, List.not_mem_nil, or_false] at hc
  rcases hc with rfl | rfl | rfl | rfl | rfl | rfl | rfl <;> trivial

end Click.ControlMessageBuilderImpl
