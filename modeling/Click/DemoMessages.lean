/-
What the demo programs send.

Each message that a demo program builds carries the tag of its class, has valid names
and can be encoded, so that the other side reads back just that message.

* `DemoServer.fit_response` — the responses of the demo servers;
* `Pclick.DemoClient.fit_script` — the messages of the Python demo client, as far as
  they can be encoded.
-/
import Click.ControlReadback
import Click.DemoPrograms
import Click.HandshakeReadback
import Click.Proto.Utf8
import Click.SensorReadback

open Proto Zmq Fluent

namespace Click

/-- The message can be encoded and read back, and is not the one that is written as no
bytes. -/
structure Fit (m : Message) : Prop where
  tagged : m.Tagged
  utf8 : m.cls.schema.Utf8 m.pm
  small : m.cls.schema.byteSize m.pm ≤ maxSize
  ne_empty : m ≠ ⟨.handshakeInitMessage, {}⟩

namespace Fit

variable {m : Message}

theorem encodes (h : Fit m) (ser : Encoder) : Encodes m (ser m).1 :=
  ⟨h.tagged, h.utf8, h.small, (ser m).2⟩

theorem sound (h : Fit m) (ser : Encoder) : Sound (ser m).1 := by
  refine ⟨m, h.encodes ser, fun hnil => h.ne_empty ?_⟩
  have hb := (h.encodes ser).fromBytes_eq
  rw [hnil, fromBytes_nil] at hb
  exact (Except.ok.inj hb).symm

/-- Only a HandshakeInitMessage can be written as no bytes. -/
theorem of_cls (hcls : m.cls ≠ .handshakeInitMessage) (htag : m.Tagged)
    (hutf8 : m.cls.schema.Utf8 m.pm) (hsmall : m.cls.schema.byteSize m.pm ≤ maxSize) : Fit m :=
  ⟨htag, hutf8, hsmall, fun h => hcls (by rw [h])⟩

end Fit

/-- The encoder that writes maps in the order of their keys. -/
def canonical : Encoder := fun m =>
  if hmax : m.cls.schema.byteSize m.pm ≤ maxSize then
    ⟨m.cls.schema.serialize m.pm,
      (serializeToString_iff hmax).mpr (m.cls.schema_lawful.serializes_serialize m.pm)⟩
  else ⟨[], by
    rw [serializeToString, Message.SerializesToBytes, Schema.SerializesAsString, if_neg hmax]⟩

theorem validUtf8_str (s : String) : validUtf8 (str s) = true := validUtf8_toByteArray s

/-! ### The C++ server -/

namespace Demoserver

/-- The message that the loop starts with. -/
def sensorMessage : { m // build_sensor_message = .ok m } := ⟨_, rfl⟩

theorem sensorMessage_small :
    sensorMessage.1.cls.schema.byteSize sensorMessage.1.pm ≤ maxSize := by
  decide +kernel

theorem utf8_sensorChain : ∀ c ∈ sensorChain.calls, c.Utf8 := by
  simp only [sensorChain, List.forall_mem_cons]
  exact ⟨validUtf8_str _, trivial, trivial, trivial, validUtf8_str _, trivial, trivial,
    validUtf8_str _, trivial, trivial, by simp⟩

theorem fit_sensorMessage : Fit sensorMessage.1 := by
  have hsmall := sensorMessage_small
  generalize sensorMessage = message at hsmall ⊢
  obtain ⟨m, hm⟩ := message
  obtain ⟨pm, hpm, rfl⟩ := map_eq_ok.mp hm
  exact .of_cls (by simp) (SensorMessageBuilderImpl.built_messageType hpm)
    (SensorMessageBuilderImpl.utf8_of_built utf8_sensorChain hpm) hsmall

/-- **The C++ server responds with messages that can be read back.** -/
theorem fit_reply {request r : Message} (h : reply sensorMessage.1 request = some r) : Fit r := by
  rw [reply] at h
  split_ifs at h
  · obtain rfl := Option.some.inj h
    exact .of_cls (by simp [HandshakeMessageBuilderImpl.build]) rfl
      (HandshakeMessageBuilderImpl.utf8_of_built (List.forall_mem_nil _) rfl) (by decide)
  · obtain rfl := Option.some.inj h
    exact fit_sensorMessage
  · obtain rfl := Option.some.inj h
    refine .of_cls (by simp [ErrorMessageBuilder.build]) rfl ?_ (by decide)
    show Protobuf.ErrorMessage.schema.Utf8 ErrorMessageBuilder.builder
    simp only [Schema.Utf8, Protobuf.ErrorMessage.schema, List.forall_mem_cons]
    exact ⟨trivial, trivial, rfl, by simp⟩

end Demoserver

/-! ### The Python server -/

namespace Pclick.Demo

theorem fit_sensor_message : Fit sensor_message := by
  refine .of_cls (by decide) rfl (SensorMessageBuilderImpl.utf8_of_namesValid ?_)
    sensor_message_size.2
  intro o obj ho
  simp only [sensor_message, Protobuf.Map.getElem?_insert] at ho
  split at ho
  · next hbox =>
    obtain rfl := Option.some.inj ho
    exact ⟨by rw [← hbox]; exact validUtf8_str _, fun s sens hs => absurd hs (by simp)⟩
  · split at ho
    · next hrobot =>
      obtain rfl := Option.some.inj ho
      refine ⟨by rw [← hrobot]; exact validUtf8_str _, fun s sens hs => ?_⟩
      rw [Protobuf.Map.getElem?_insert] at hs
      split at hs
      · next hname => rw [← hname]; exact validUtf8_str _
      · exact absurd hs (by simp)
    · exact absurd ho (by simp)

theorem fit_handshake_message : Fit handshake_message := by
  refine .of_cls (by decide) rfl (HandshakeMessageBuilderImpl.utf8_of_namesValid ?_)
    handshake_message_size.2
  intro o obj ho
  simp only [handshake_message, Protobuf.Map.getElem?_insert] at ho
  split at ho
  · next hrobot =>
    obtain rfl := Option.some.inj ho
    refine ⟨by rw [← hrobot]; exact validUtf8_str _, ?_, ?_, ?_⟩
    · intro l
      cases l <;> simp [HandshakeMessageBuilderImpl.Names.get, validUtf8_str]
    · intro e type he
      rw [Protobuf.Map.getElem?_insert] at he
      split at he
      · next hname => rw [← hname]; exact validUtf8_str _
      · exact absurd he (by simp)
    · intro s sens hs
      rw [Protobuf.Map.getElem?_insert] at hs
      split at hs
      · next hname => rw [← hname]; exact validUtf8_str _
      · exact absurd hs (by simp)
  · exact absurd ho (by simp)

/-- **The Python server responds with messages that can be read back.** -/
theorem fit_response {request r : Message} (h : Demo.response request = some r) : Fit r := by
  rw [Demo.response] at h
  split_ifs at h
  · obtain rfl := Option.some.inj h
    exact fit_handshake_message
  · obtain rfl := Option.some.inj h
    exact fit_sensor_message

end Pclick.Demo

/-! ### The C++ client -/

namespace Democlient

/-- The message that is sent in every pass. -/
def controlMessage : { m // control_message = .ok m } := ⟨_, rfl⟩

theorem controlMessage_small :
    controlMessage.1.cls.schema.byteSize controlMessage.1.pm ≤ maxSize := by
  decide +kernel

theorem utf8_controlChain : ∀ c ∈ controlChain.calls, c.Utf8 := by
  simp only [controlChain, List.forall_mem_cons]
  exact ⟨validUtf8_str _, trivial, validUtf8_str _, validUtf8_str _, trivial, by simp⟩

theorem fit_controlMessage : Fit controlMessage.1 := by
  have hsmall := controlMessage_small
  generalize controlMessage = message at hsmall ⊢
  obtain ⟨m, hm⟩ := message
  obtain ⟨pm, hpm, rfl⟩ := map_eq_ok.mp hm
  exact .of_cls (by simp) (ControlMessageBuilderImpl.built_messageType hpm)
    (ControlMessageBuilderImpl.utf8_of_built utf8_controlChain hpm) hsmall

theorem fit_handshakeInit : Fit handshakeInit := by
  refine ⟨rfl, ?_, by decide, by decide⟩
  show Protobuf.HandshakeInitMessage.schema.Utf8 HandshakeInitMessageBuilder.builder
  simp only [Schema.Utf8, Protobuf.HandshakeInitMessage.schema, List.forall_mem_cons]
  exact ⟨trivial, trivial, by simp⟩

/-- **The C++ client sends messages that can be read back.** -/
theorem fit_script (blocking_receive : Bool) (n : ℤ) :
    ∀ x ∈ script blocking_receive n controlMessage.1, Fit x.1 := by
  intro x hx
  rcases List.mem_cons.mp hx with rfl | hx
  · exact fit_handshakeInit
  · rw [List.eq_of_mem_replicate hx]
    exact fit_controlMessage

end Democlient

/-! ### The Python client -/

namespace Pclick.DemoClient

theorem fit_create_message (c : MessageClass) : Fit ⟨c, create_message c⟩ := by
  refine ⟨create_message_tagged c, utf8_create_message c, ?_, ?_⟩
  · cases c <;> decide
  · cases c <;> decide

/-- The objects are robots that were typed. -/
def Typed (m : Protobuf.ControlMessage) : Prop :=
  m.messageType = MessageType.ControlMessageType ∧
    ∀ o obj, m.objects[o]? = some obj → validUtf8 o = true ∧ obj.controlEvents = ∅

variable {float : PyFloat} {controltype : Option (List Char)} {m m' : Protobuf.ControlMessage}

theorem dispatch_controlEvents (controltype : Option (List Char)) (arr : List Double)
    (robot : Protobuf.ControlMessage.Object) :
    (dispatch controltype arr robot).controlEvents = robot.controlEvents := by
  rcases controltype with _ | controltype
  · rfl
  · rw [dispatch]
    split_ifs <;> rfl

/-- A robot is entered if its values are accepted. -/
theorem addRobot_eq_ok {arg : List Char} (h : addRobot float controltype m arg = .ok m') :
    ∃ robotname arr, m' = { m with
      objects := Protobuf.Map.update (Protobuf.Map.subscript m.objects (key robotname) {})
        (key robotname) (dispatch controltype arr) } := by
  rw [addRobot] at h
  split at h
  · exact absurd h (by simp)
  · next robotname values _ =>
    cases values with
    | nil => exact absurd h (by simp)
    | cons value values =>
      obtain ⟨arr, -, hm⟩ := bind_eq_ok.mp h
      exact ⟨robotname, arr, (Except.ok.inj hm).symm⟩

theorem typed_addRobot {arg : List Char} (hm : Typed m)
    (h : addRobot float controltype m arg = .ok m') : Typed m' := by
  obtain ⟨robotname, arr, rfl⟩ := addRobot_eq_ok h
  refine ⟨hm.1, fun o obj ho => ?_⟩
  rw [Protobuf.Map.getElem?_update, Protobuf.Map.getElem?_subscript] at ho
  by_cases hk : key robotname = o
  · rw [if_pos hk, if_pos hk] at ho
    obtain rfl := Option.some.inj ho
    refine ⟨hk ▸ validUtf8_str _, ?_⟩
    rw [dispatch_controlEvents]
    rcases hob : m.objects[o]? with _ | obj
    · rfl
    · exact (hm.2 o obj hob).2
  · rw [if_neg hk, if_neg hk] at ho
    exact hm.2 o obj ho

theorem typed_controlmessage {args : List Char}
    (h : controlmessage float controltype args = .ok m) : Typed m := by
  refine run_invariant (fun hs hc => typed_addRobot hs hc) ⟨rfl, fun o obj ho => ?_⟩ h
  exact absurd ho (by simp [create_message])

theorem Typed.utf8 (h : Typed m) : Protobuf.ControlMessage.schema.Utf8 m := by
  simp only [Schema.Utf8, Protobuf.ControlMessage.schema, List.forall_mem_cons]
  refine ⟨trivial, FieldCodec.map_utf8_iff.mpr fun o obj ho => ?_, by simp⟩
  obtain ⟨hvalid, hevents⟩ := h.2 o obj ho
  refine ⟨hvalid, ?_⟩
  show Protobuf.ControlMessage.Object.schema.Utf8 obj
  simp only [Schema.Utf8, Protobuf.ControlMessage.Object.schema, List.forall_mem_cons]
  exact ⟨trivial, trivial, trivial, by rw [hevents]; exact FieldCodec.map_utf8_empty, trivial,
    by simp⟩

theorem fit_firstMessage {args : Args} {message : Message}
    (h : firstMessage float args = .ok (some message)) (hsmall : Small message) : Fit message := by
  rw [firstMessage] at h
  split_ifs at h
  · obtain ⟨m, hm, heq⟩ := map_eq_ok.mp h
    obtain rfl := Option.some.inj heq
    have htyped := typed_controlmessage hm
    exact .of_cls (by simp) htyped.1 htyped.utf8 hsmall
  · obtain rfl := Option.some.inj (Except.ok.inj h)
    exact fit_create_message .resetMessage
  · obtain rfl := Option.some.inj (Except.ok.inj h)
    exact fit_create_message .sensorRequestMessage
  · exact absurd h (by simp)
  · obtain rfl := Option.some.inj (Except.ok.inj h)
    exact fit_create_message .handshakeInitMessage

/-- **The Python client sends messages that can be read back**, if they can be encoded,
and an ErrorMessage at the end at most. -/
theorem fit_script {args : Args} {messages : List Message} {last : Option Message}
    (h : script float args = .ok (messages, last)) (hsmall : ∀ m ∈ messages, Small m) :
    (∀ m ∈ messages, Fit m) ∧ ∀ m ∈ last, m = errormessage := by
  obtain ⟨_ | message, hfirst, heq⟩ := map_eq_ok.mp h
  · obtain ⟨rfl, rfl⟩ := Prod.mk.inj heq
    exact ⟨by simp, by simp⟩
  · obtain ⟨rfl, rfl⟩ := Prod.mk.inj heq
    refine ⟨fun m hm => ?_, by split <;> simp⟩
    obtain rfl := List.eq_of_mem_replicate hm
    exact fit_firstMessage hfirst (hsmall m hm)

end Pclick.DemoClient

end Click
