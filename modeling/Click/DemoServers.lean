/-
The demo servers.

Both loop over receive and reply: the C++ one with a `switch` that has a branch for
every type of message, the Python one with an `if` for each of the two types it
knows.  Requests arrive at a loop one poll after the other; what they are encoded to
and what the replies are encoded to is given.  A loop ends when something is thrown
that it does not catch.

* `Demoserver.lockStep_main` — the C++ loop keeps the lock-step, whatever arrives;
* `Pclick.Demo.pass_of_unknown` — the Python loop takes up a request of any other
  type and goes on to receive without a reply;
* `DemoServer.lockStep_iff` — so it keeps the lock-step exactly where there is no
  such request.
-/
import Click.Builders
import Click.Server
import Click.SizeCollector
import Click.Zmq.LockStep

open Proto Zmq Fluent

namespace Click

/-- A well-formed request: bytes that some class parses, with the `messageType` of
the class. -/
structure Request where
  bytes : Bytes
  cls : MessageClass
  parses : (cls.schema.parseFromString bytes).1 = true
  tagged : cls.messageType (cls.schema.parseFromString bytes).2 = cls.tag

namespace Request

variable (request : Request)

/-- What the bytes are read as. -/
def message : Message := ⟨request.cls, (request.cls.schema.parseFromString request.bytes).2⟩

theorem wellFormed : request.cls.schema.WellFormed recursionLimit request.bytes :=
  (parses_iff request.cls request.bytes).mp request.parses

theorem header_eq : (header request.bytes).messageType = request.cls.tag :=
  (header_of_wellFormed request.wellFormed).trans request.tagged

theorem fromBytes_eq : fromBytes request.bytes = .ok request.message :=
  fromBytes_of_tag request.header_eq

/-- What a Python runtime reads, if it accepts the bytes, is of the same type. -/
theorem messageType_of_from_bytes [Pclick.Runtime] {m : Message}
    (h : Pclick.from_bytes request.bytes = .ok m) : m.messageType = request.cls.tag := by
  have hheader := (header_parses_iff request.bytes).mpr request.wellFormed.1
  exact (Pclick.tagged_of_from_bytes h).trans
    ((Pclick.header_of_from_bytes h hheader).symm.trans request.header_eq)

theorem message_messageType : request.message.messageType = request.cls.tag := request.tagged

/-- What a poll finds at the socket. -/
def arrives : Option Request → Outcome Bytes
  | none => .again
  | some request => .done request.bytes

end Request

/-- The bytes are read as an ErrorMessage. -/
def IsError (bytes : Bytes) : Prop := ∃ m, fromBytes bytes = .ok m ∧ m.cls = .errorMessage

theorem Request.isError_iff (request : Request) :
    IsError request.bytes ↔ request.cls = .errorMessage := by
  constructor
  · rintro ⟨m, hm, hcls⟩
    rw [request.fromBytes_eq, Except.ok.injEq] at hm
    rw [← hcls, ← hm]
    rfl
  · intro h
    exact ⟨_, request.fromBytes_eq, h⟩

/-- How messages are encoded. -/
abbrev Encoder := (m : Message) → { out // serializeToString m out }

/-! ### The C++ server -/

namespace Demoserver

/-- `build_sensor_message`. -/
def sensorChain : Chain SensorMessageBuilderImpl.interfaces where
  calls := [
    .object (str "robot1"),
    .withAngles [0x3ff0000000000000, 0x3ff0000000000000],  -- 1.0 each
    .withAngularVelocities [0x3ff0000000000000, 0x3ff0000000000000],
    .withTorques [0x3ff0000000000000, 0x3ff0000000000000],
    .withSensor (str "external_1"),
    -- 4, 4.1, 4.2
    .typed (.withForce3d #v[0x4010000000000000, 0x4010666666666666, 0x4010cccccccccccd]),
    -- 5, 5.1, 5.2
    .typed (.withAngularAcceleration3d
      #v[0x4014000000000000, 0x4014666666666666, 0x4014cccccccccccd]),
    .object (str "box"),
    -- 1.0, 2.0, 3.0
    .withPosition #v[0x3ff0000000000000, 0x4000000000000000, 0x4008000000000000],
    -- 4.0, 5.0, 6.0
    .withRPY #v[0x4010000000000000, 0x4014000000000000, 0x4018000000000000]]
  last := .addSensorValuesBuilder
  admitted := rfl

def build_sensor_message : Except Fault Message :=
  (SensorMessageBuilderImpl.built sensorChain.calls).map (⟨.sensorMessage, ·⟩)

/-- The `switch`: what is sent in reply, or `none` where `main` returns. -/
def reply (sensor_message request : Message) : Option Message :=
  if request.messageType = MessageType.HandshakeInitMessageType then
    some (HandshakeMessageBuilderImpl.build HandshakeMessageBuilderImpl.builder)
  else if request.messageType = MessageType.ControlMessageType then some sensor_message
  else if request.messageType = MessageType.ErrorMessageType then none
  else some (ErrorMessageBuilder.build ErrorMessageBuilder.builder)

variable (ser : Encoder) (blocking_receive : Bool) (sensor_message : Message)

/-- One pass of the loop, and whether it goes on.  A receive that finds nothing is
made again if it does not block, and otherwise goes on waiting. -/
def pass (s : System) (poll : Option Request) : System × Bool :=
  match s.receive blocking_receive (Request.arrives poll) with
  | (s, .error _) => (s, false)
  | (s, .ok none) => (s, true)
  | (s, .ok (some request)) =>
    match reply sensor_message request with
    | none => (s, false)
    | some message =>
      -- the result of `send` is not looked at
      match s.sendMessage message (ser message) (.done ()) with
      | (s, .error _) => (s, false)
      | (s, .ok _) => (s, true)

/-- `main`, while requests arrive. -/
def main (polls : List (Option Request)) : System :=
  match build_sensor_message with
  | .error _ => .bound
  | .ok sensor_message => serve (pass ser blocking_receive sensor_message) .bound polls

end Demoserver

/-! ### The Python server -/

namespace Pclick.Demo

def handshake_message : Message :=
  let handshake : Protobuf.HandshakeMessage := create_message .handshakeMessage
  ⟨.handshakeMessage, { handshake with
    controlType := ValueType.Force3D
    objects := (∅ : Map _).insert (str "robot") {
      controlsInOrder := [str "joint1", str "joint2"]
      controlTypesInOrder := [ValueType.Angle, ValueType.Angle]
      jointSensorsInOrder := [str "joint1", str "joint2"]
      controlEvents := (∅ : Map _).insert (str "gripper") ValueType.Activated
      jointSensors := [ValueType.Angle, ValueType.AngularVelocity1D, ValueType.Torque1D]
      objectSensors := [ValueType.Position]
      sensors := (∅ : Map _).insert (str "external_1")
        { types := [ValueType.Force3D, ValueType.AngularAcceleration3D] } } }⟩

def sensor_message : Message :=
  let sensor_m : Protobuf.SensorMessage := create_message .sensorMessage
  ⟨.sensorMessage, { sensor_m with
    objects := ((∅ : Map _).insert (str "robot1") {
      -- 1.0, 2.0, 3.0
      angleSensors := List.replicate 2 0x3ff0000000000000
      angularVelocitySensors := List.replicate 2 0x4000000000000000
      torqueSensors := List.replicate 2 0x4008000000000000
      sensors := (∅ : Map _).insert (str "external_1") { sensor := [
        -- 4.0, 4.1, 4.2 and 5.0, 5.1, 5.2
        { value := some (.force3d
          { arr := [0x4010000000000000, 0x4010666666666666, 0x4010cccccccccccd] }) },
        { value := some (.angularAcceleration3d
          { arr := [0x4014000000000000, 0x4014666666666666, 0x4014cccccccccccd] }) }] }
      }).insert (str "box") {
      objectSensors := [
        -- 1.0, 2.0, 3.0 and 4.0, 5.0, 6.0
        { value := some (.position
          { arr := [0x3ff0000000000000, 0x4000000000000000, 0x4008000000000000] }) },
        { value := some (.rpy
          { arr := [0x4010000000000000, 0x4014000000000000, 0x4018000000000000] }) }] } }⟩

variable (ser : Encoder) (trace_sizes : Bool)

/-- The two branches of the loop, one after the other. -/
def answer (server : Server) (request : Message) : Server × Except Raised Unit :=
  let (server, res) :=
    if request.messageType = MessageType.HandshakeInitMessageType then
      server.send handshake_message (ser handshake_message) (.done ())
    else (server, .ok ())
  match res with
  | .error e => (server, .error e)
  | .ok () =>
    if request.messageType = MessageType.ControlMessageType then
      server.send sensor_message (ser sensor_message) (.done ())
    else (server, .ok ())

/-- One pass of the loop, and whether it goes on. -/
def pass [Runtime] (server : Server) (poll : Option Request) : Server × Bool :=
  match server.recv (Request.arrives poll) with
  | (server, .error _) => (server, false)
  | (server, .ok none) => (server, true)
  | (server, .ok (some request)) =>
    match answer ser server request with
    | (server, .error _) => (server, false)
    | (server, .ok ()) =>
      if trace_sizes then
        match server.is_updated with
        | (server, .error _) => (server, false)
        | (server, .ok _) => (server, true)
      else (server, true)

/-- `main`, while requests arrive. -/
def main [Runtime] (polls : List (Option Request)) : Server :=
  serve (pass ser trace_sizes)
    ⟨if trace_sizes then .changes {} else .base, Rep.fresh⟩ polls

end Pclick.Demo

/-! ### Lock-step -/

/-- The demo servers and their options. -/
inductive DemoServer
  | cpp (blocking_receive : Bool)
  | python (trace_sizes : Bool)
  deriving DecidableEq

namespace DemoServer

/-- The history of the server's socket while requests arrive. -/
def log [Pclick.Runtime] (server : DemoServer) (ser : Encoder) (polls : List (Option Request)) :
    List (Event Bytes) :=
  match server with
  | cpp blocking_receive => (Demoserver.main ser blocking_receive polls).socket.log
  | python trace_sizes => (Pclick.Demo.main ser trace_sizes polls).socket.log

/-- The server has a reply to the request, or stops on it. -/
def Handles (server : DemoServer) (request : Request) : Prop :=
  match server with
  | cpp _ => True
  | python _ => request.cls = .handshakeInitMessage ∨ request.cls = .controlMessage

/-- The request does not end the loop before it is looked at.  In the Python server an
assertion fails on no bytes, where it traces sizes, and the runtime may refuse the bytes. -/
def accepts [Pclick.Runtime] (server : DemoServer) (request : Request) : Bool :=
  match server with
  | cpp _ => true
  | python trace_sizes => (!trace_sizes || !request.bytes.isEmpty) &&
      (Pclick.from_bytes request.bytes).toOption.isSome

/-- The requests up to one that ends the loop in this way. -/
def taken [Pclick.Runtime] (server : DemoServer) (polls : List (Option Request)) : List Request :=
  polls.reduceOption.takeWhile server.accepts

end DemoServer

/-! ### Passes of the C++ loop -/

namespace Demoserver

variable {ser : Encoder} {blocking_receive : Bool} {sensor_message : Message} {s : System}

/-- The switch has a branch for every type but one it returns on. -/
theorem reply_ne_none (sensor_message : Message) {request : Message}
    (h : request.messageType ≠ MessageType.ErrorMessageType) :
    ∃ message, reply sensor_message request = some message := by
  rw [reply]
  split_ifs
  · exact ⟨_, rfl⟩
  · exact ⟨_, rfl⟩
  · exact ⟨_, rfl⟩

theorem reply_error {request : Message} (h : request.messageType = MessageType.ErrorMessageType) :
    reply sensor_message request = none := by
  rw [reply, h]
  rfl

theorem pass_none (h : s.socket.owes = false) :
    pass ser blocking_receive sensor_message s none = (s, true) := by
  rw [pass, Request.arrives, System.receive_again h]

theorem pass_error (h : s.socket.owes = false) {request : Request}
    (hcls : request.cls = .errorMessage) :
    pass ser blocking_receive sensor_message s (some request) =
      (s.advance (.received request.bytes) h, false) := by
  have htype : request.message.messageType = MessageType.ErrorMessageType := by
    rw [request.message_messageType, hcls]
    rfl
  rw [pass, Request.arrives, System.receive_done h, request.fromBytes_eq]
  simp only [Except.map, reply_error htype]

theorem pass_some (h : s.socket.owes = false) {request : Request}
    (hcls : request.cls ≠ .errorMessage) :
    ∃ out, pass ser blocking_receive sensor_message s (some request) =
      (⟨{ sendIsNextAction := false }, s.socket.exchange h request.bytes out⟩, true) := by
  have htype : request.message.messageType ≠ MessageType.ErrorMessageType := by
    rw [request.message_messageType]
    exact fun h => hcls (MessageClass.tag_injective h)
  obtain ⟨message, hreply⟩ := reply_ne_none sensor_message htype
  have hsend := System.send_done (s := s.advance (.received request.bytes) h)
    (Rep.owes_received h request.bytes) (ser message).1 ()
  refine ⟨(ser message).1, ?_⟩
  rw [pass, Request.arrives, System.receive_done h, request.fromBytes_eq]
  simp only [Except.map, hreply, System.sendMessage_eq, hsend]
  rfl

theorem exists_sensor_message : ∃ message, build_sensor_message = .ok message := ⟨_, rfl⟩

/-- **The C++ loop keeps the lock-step.** -/
theorem lockStep_main (ser : Encoder) (blocking_receive : Bool) (polls : List (Option Request)) :
    LockStep IsError (main ser blocking_receive polls).socket.log := by
  obtain ⟨sensor_message, hbuild⟩ := exists_sensor_message
  rw [main, hbuild]
  refine serve_invariant (fun s : System => Ready IsError s.socket)
    (fun s : System => LockStep IsError s.socket.log) Ready.lockStep (fun s poll hs => ?_)
    Ready.fresh polls
  rcases poll with _ | request
  · rw [pass_none hs.owes]
    exact .inl hs
  · by_cases hcls : request.cls = .errorMessage
    · rw [pass_error hs.owes hcls]
      exact .inr ⟨rfl, hs.lockStep_received request.bytes⟩
    · obtain ⟨out, hpass⟩ := pass_some hs.owes hcls
      rw [hpass]
      exact .inl (hs.answered (mt request.isError_iff.mp hcls) out)

end Demoserver

/-! ### Passes of the Python loop -/

namespace Pclick.Demo

variable {ser : Encoder} {trace_sizes : Bool} {server : Server}

theorem accepts_iff [Runtime] {request : Request} :
    (DemoServer.python trace_sizes).accepts request = true ↔
      (trace_sizes = true → request.bytes ≠ []) ∧ ∃ m, from_bytes request.bytes = .ok m := by
  rw [DemoServer.accepts, Bool.and_eq_true]
  refine and_congr ?_ ?_
  · cases trace_sizes <;> simp
  · rcases from_bytes request.bytes with e | m <;> simp [Except.toOption]

/-- The collector is the one that the options ask for. -/
def Traces (trace_sizes : Bool) : SizeCollector → Prop
  | .base => trace_sizes = false
  | .changes _ => trace_sizes = true

theorem recvSize_of_traces {collector : SizeCollector} (h : Traces trace_sizes collector) {len : ℕ}
    (hlen : trace_sizes = true → 0 < len) :
    ∃ collector', collector.recvSize len = .ok collector' ∧ Traces trace_sizes collector' := by
  cases collector with
  | base => exact ⟨_, rfl, h⟩
  | changes c =>
    rw [SizeCollector.recvSize, SizeCollectorChanges.recvSize, if_pos (hlen h)]
    exact ⟨_, rfl, h⟩

theorem sendSize_of_traces {collector : SizeCollector} (h : Traces trace_sizes collector) {len : ℕ}
    (hlen : 0 < len) :
    ∃ collector', collector.sendSize len = .ok collector' ∧ Traces trace_sizes collector' := by
  cases collector with
  | base => exact ⟨_, rfl, h⟩
  | changes c =>
    rw [SizeCollector.sendSize, SizeCollectorChanges.sendSize, if_pos hlen]
    exact ⟨_, rfl, h⟩

theorem pass_of_owes [Runtime] (h : server.socket.owes = true) (poll : Option Request) :
    pass ser trace_sizes server poll =
      ({ server with socket := server.socket.push .refused trivial }, false) := by
  rw [pass, Server.recv, Server.socketRecv, Rep.recv_of_owes h]

theorem pass_none [Runtime] (h : server.socket.owes = false) :
    pass ser trace_sizes server none = (server, true) := by
  rw [pass, Server.recv, Server.socketRecv, Request.arrives, Rep.recv_again h]

theorem handshake_message_size :
    0 < handshake_message.cls.schema.byteSize handshake_message.pm ∧
      handshake_message.cls.schema.byteSize handshake_message.pm ≤ maxSize := by
  decide

theorem sensor_message_size :
    0 < sensor_message.cls.schema.byteSize sensor_message.pm ∧
      sensor_message.cls.schema.byteSize sensor_message.pm ≤ maxSize := by
  decide +kernel

/-- A message that is neither empty nor too large is sent. -/
theorem send_of_owes (h : server.socket.owes = true)
    (htr : Traces trace_sizes server.size_collector) {message : Message}
    (hpos : 0 < message.cls.schema.byteSize message.pm)
    (hmax : message.cls.schema.byteSize message.pm ≤ maxSize)
    (serialized : { out // Click.serializeToString message out }) :
    ∃ size_collector, Traces trace_sizes size_collector ∧
      server.send message serialized (.done ()) =
        (⟨size_collector, server.socket.push (.sent serialized.1) h⟩, .ok ()) := by
  have hser : Server.serializeToString message serialized = .ok serialized.1 := if_pos hmax
  have hlen : 0 < serialized.1.length :=
    hpos.trans_eq (Server.length_serializeToString hser).symm
  obtain ⟨size_collector, hsize, htr'⟩ := sendSize_of_traces htr hlen
  refine ⟨size_collector, htr', ?_⟩
  simp only [Server.send, hser, hsize, Rep.send_done h]

theorem recv_request [Runtime] (h : server.socket.owes = false)
    (htr : Traces trace_sizes server.size_collector) {request : Request}
    (hacc : (DemoServer.python trace_sizes).accepts request = true) :
    ∃ size_collector m, Traces trace_sizes size_collector ∧ m.messageType = request.cls.tag ∧
      server.recv (.done request.bytes) =
        (⟨size_collector, server.socket.push (.received request.bytes) h⟩, .ok (some m)) := by
  obtain ⟨hlen, m, hm⟩ := accepts_iff.mp hacc
  obtain ⟨size_collector, hsize, htr'⟩ :=
    recvSize_of_traces htr fun ht => List.length_pos_iff.mpr (hlen ht)
  refine ⟨size_collector, m, htr', request.messageType_of_from_bytes hm, ?_⟩
  rw [Server.recv, Server.socketRecv, Rep.recv_done h]
  simp only [hsize, hm]
  rfl

/-- The loop ends at a request that is not accepted. -/
theorem pass_of_refused [Runtime] (ser : Encoder) (h : server.socket.owes = false)
    (htr : Traces trace_sizes server.size_collector) {request : Request}
    (hacc : ¬ (DemoServer.python trace_sizes).accepts request = true) :
    ∃ size_collector, pass ser trace_sizes server (some request) =
      (⟨size_collector, server.socket.push (.received request.bytes) h⟩, false) := by
  rw [pass, Server.recv, Server.socketRecv, Request.arrives, Rep.recv_done h]
  rcases hsize : server.size_collector.recvSize request.bytes.length with e | size_collector
  · exact ⟨server.size_collector, by simp only [hsize]⟩
  · -- the collector was content, so it is the runtime that is not
    have hlen : trace_sizes = true → request.bytes ≠ [] := by
      rintro rfl hnil
      rcases hc : server.size_collector with _ | c <;> rw [hc] at htr hsize
      · exact absurd htr (by simp [Traces])
      · simp [SizeCollector.recvSize, SizeCollectorChanges.recvSize, hnil, Except.map] at hsize
    rcases hb : from_bytes request.bytes with e | m
    · exact ⟨size_collector, by simp only [hsize, hb, Except.map, Except.mapError]⟩
    · exact absurd (accepts_iff.mpr ⟨hlen, m, hb⟩) hacc

/-- The two types that have a branch are answered. -/
theorem answer_of_owes (ser : Encoder) (server : Server) (h : server.socket.owes = true)
    (htr : Traces trace_sizes server.size_collector) {c : MessageClass} {request : Message}
    (hrequest : request.messageType = c.tag)
    (hcls : c = .handshakeInitMessage ∨ c = .controlMessage) :
    ∃ size_collector reply, Traces trace_sizes size_collector ∧
      answer ser server request =
        (⟨size_collector, server.socket.push (.sent reply) h⟩, .ok ()) := by
  rcases hcls with hcls | hcls
  · obtain ⟨hpos, hmax⟩ := handshake_message_size
    obtain ⟨size_collector, htr', hsend⟩ := send_of_owes h htr hpos hmax (ser handshake_message)
    refine ⟨size_collector, (ser handshake_message).1, htr', ?_⟩
    have hinit : request.messageType = MessageType.HandshakeInitMessageType := by
      rw [hrequest, hcls]
      rfl
    rw [answer, if_pos hinit, hsend, hinit]
    rfl
  · obtain ⟨hpos, hmax⟩ := sensor_message_size
    obtain ⟨size_collector, htr', hsend⟩ := send_of_owes h htr hpos hmax (ser sensor_message)
    refine ⟨size_collector, (ser sensor_message).1, htr', ?_⟩
    have hcontrol : request.messageType = MessageType.ControlMessageType := by
      rw [hrequest, hcls]
      rfl
    have hinit : request.messageType ≠ MessageType.HandshakeInitMessageType := by
      rw [hcontrol]
      decide
    rw [answer, if_neg hinit]
    exact (if_pos hcontrol).trans hsend

/-- For the other types nothing is done. -/
theorem answer_of_unknown {c : MessageClass} {request : Message}
    (hrequest : request.messageType = c.tag) (hinit : c ≠ .handshakeInitMessage)
    (hcontrol : c ≠ .controlMessage) : answer ser server request = (server, .ok ()) := by
  have hinit' : c.tag ≠ MessageType.HandshakeInitMessageType :=
    fun h => hinit (MessageClass.tag_injective h)
  have hcontrol' : c.tag ≠ MessageType.ControlMessageType :=
    fun h => hcontrol (MessageClass.tag_injective h)
  rw [answer, hrequest, if_neg hinit']
  exact if_neg hcontrol'

/-- What a pass does last, if it traces sizes, cannot fail. -/
theorem read_of_traces (server : Server) (htr : Traces trace_sizes server.size_collector) :
    ∃ size_collector, Traces trace_sizes size_collector ∧
      (if trace_sizes then
        match server.is_updated with
        | (server, .error _) => (server, false)
        | (server, .ok _) => (server, true)
      else (server, true)) = (⟨size_collector, server.socket⟩, true) := by
  cases trace_sizes with
  | false => exact ⟨server.size_collector, htr, rfl⟩
  | true =>
    rw [Server.is_updated]
    cases hc : server.size_collector with
    | base =>
      rw [hc] at htr
      exact absurd htr (by simp [Traces])
    | changes c => exact ⟨.changes c.is_updated.1, rfl, rfl⟩

/-- A request that has a branch is answered, and the loop goes on. -/
theorem pass_of_handled [Runtime] (ser : Encoder) (h : server.socket.owes = false)
    (htr : Traces trace_sizes server.size_collector) {request : Request}
    (hacc : (DemoServer.python trace_sizes).accepts request = true)
    (hcls : request.cls = .handshakeInitMessage ∨ request.cls = .controlMessage) :
    ∃ size_collector reply, Traces trace_sizes size_collector ∧
      pass ser trace_sizes server (some request) =
        (⟨size_collector, server.socket.exchange h request.bytes reply⟩, true) := by
  obtain ⟨received, m, hreceived, hm, hrecv⟩ := recv_request h htr hacc
  obtain ⟨sent, reply, hsent, hanswer⟩ := answer_of_owes ser
    ⟨received, server.socket.push (.received request.bytes) h⟩
    (Rep.owes_received h request.bytes) hreceived hm hcls
  obtain ⟨size_collector, htr', hread⟩ := read_of_traces
    ⟨sent, server.socket.exchange h request.bytes reply⟩ hsent
  refine ⟨size_collector, reply, htr', ?_⟩
  rw [pass, Request.arrives, hrecv]
  simp only [hanswer]
  exact hread

/-- Any other request leaves the socket owing a reply, and the loop goes on. -/
theorem pass_of_unknown [Runtime] (ser : Encoder) (h : server.socket.owes = false)
    (htr : Traces trace_sizes server.size_collector) {request : Request}
    (hacc : (DemoServer.python trace_sizes).accepts request = true)
    (hinit : request.cls ≠ .handshakeInitMessage) (hcontrol : request.cls ≠ .controlMessage) :
    ∃ size_collector, pass ser trace_sizes server (some request) =
      (⟨size_collector, server.socket.push (.received request.bytes) h⟩, true) := by
  obtain ⟨received, m, hreceived, hm, hrecv⟩ := recv_request h htr hacc
  obtain ⟨size_collector, -, hread⟩ := read_of_traces
    ⟨received, server.socket.push (.received request.bytes) h⟩ hreceived
  refine ⟨size_collector, ?_⟩
  rw [pass, Request.arrives, hrecv]
  simp only [answer_of_unknown hm hinit hcontrol]
  exact hread

end Pclick.Demo

/-! ### The two loops -/

namespace DemoServer

variable [Pclick.Runtime]

@[simp] theorem taken_nil (server : DemoServer) : server.taken [] = [] := rfl

@[simp] theorem taken_none (server : DemoServer) (polls : List (Option Request)) :
    server.taken (none :: polls) = server.taken polls := rfl

theorem taken_some (server : DemoServer) {request : Request} (polls : List (Option Request))
    (h : server.accepts request = true) :
    server.taken (some request :: polls) = request :: server.taken polls := by
  rw [taken, List.reduceOption_cons_of_some, List.takeWhile_cons_of_pos h]
  rfl

theorem taken_refused (server : DemoServer) {request : Request} (polls : List (Option Request))
    (h : ¬ server.accepts request = true) : server.taken (some request :: polls) = [] := by
  rw [taken, List.reduceOption_cons_of_some, List.takeWhile_cons_of_neg h]

end DemoServer

namespace Pclick.Demo

variable [Runtime] {ser : Encoder} {trace_sizes : Bool} {server : Server}

/-- A loop that owes a reply receives all the same. -/
theorem serve_of_owes (h : server.socket.owes = true) (polls : List (Option Request)) :
    .refused ∈ (serve (pass ser trace_sizes) server polls).socket.log := by
  cases polls with
  | nil =>
    rw [serve, pass_of_owes h]
    simp
  | cons poll polls =>
    rw [serve, pass_of_owes h]
    simp

/-- **When the Python loop keeps the lock-step.** -/
theorem lockStep_serve (server : Server) (hready : Ready IsError server.socket)
    (htr : Traces trace_sizes server.size_collector) (polls : List (Option Request)) :
    LockStep IsError (serve (pass ser trace_sizes) server polls).socket.log ↔
      ∀ request ∈ (DemoServer.python trace_sizes).taken polls,
        (DemoServer.python trace_sizes).Handles request := by
  -- along the polls; a request without a branch is found out by the next receive
  induction polls generalizing server with
  | nil =>
    rw [serve, pass_none hready.owes]
    exact iff_of_true hready.lockStep (by simp)
  | cons poll polls ih =>
    rcases poll with _ | request
    · rw [serve, pass_none hready.owes, if_pos rfl, DemoServer.taken_none]
      exact ih _ hready htr
    · by_cases hacc : (DemoServer.python trace_sizes).accepts request = true
      · rw [serve, DemoServer.taken_some _ polls hacc, List.forall_mem_cons]
        by_cases hcls : request.cls = .handshakeInitMessage ∨ request.cls = .controlMessage
        · obtain ⟨size_collector, reply, htr', hpass⟩ :=
            pass_of_handled ser hready.owes htr hacc hcls
          have hgo : ¬ IsError request.bytes := by
            rw [request.isError_iff]
            rcases hcls with h | h <;> simp [h]
          rw [hpass, if_pos rfl, ih _ (hready.answered hgo reply) htr']
          exact (and_iff_right hcls).symm
        · obtain ⟨hinit, hcontrol⟩ := not_or.mp hcls
          obtain ⟨size_collector, hpass⟩ :=
            pass_of_unknown ser hready.owes htr hacc hinit hcontrol
          rw [hpass, if_pos rfl]
          refine iff_of_false (fun hlock => ?_) fun h => hcls h.1
          exact hlock.inTurn (serve_of_owes (Rep.owes_received hready.owes request.bytes) polls)
      · obtain ⟨size_collector, hpass⟩ := pass_of_refused ser hready.owes htr hacc
        rw [serve, hpass, DemoServer.taken_refused _ polls hacc]
        exact iff_of_true (hready.lockStep_received request.bytes) (by simp)

end Pclick.Demo

namespace DemoServer

/-- **When a demo server keeps the lock-step.**  The C++ one always does; the Python
one exactly if each request it takes up is a HandshakeInitMessage or a
ControlMessage. -/
theorem lockStep_iff [Pclick.Runtime] (server : DemoServer) (ser : Encoder)
    (polls : List (Option Request)) :
    LockStep IsError (server.log ser polls) ↔
      ∀ request ∈ server.taken polls, server.Handles request := by
  cases server with
  | cpp blocking_receive =>
    exact iff_of_true (Demoserver.lockStep_main ser blocking_receive polls) fun _ _ => trivial
  | python trace_sizes =>
    refine Pclick.Demo.lockStep_serve _ Ready.fresh ?_ polls
    cases trace_sizes <;> rfl

/-- A ResetMessage to the Python server. -/
theorem not_lockStep : let _ := Pclick.Runtime.cpp
    ¬ ∀ (server : DemoServer) (ser : Encoder) (polls : List (Option Request)),
      LockStep IsError (server.log ser polls) := by
  intro _ h
  let reset : Request := ⟨[8, 4], .resetMessage, by decide, by decide⟩
  let ser : Encoder := fun m => ⟨_, (exists_serializeToString m).choose_spec⟩
  have hhandles : ∀ request ∈ (python false).taken [some reset], (python false).Handles request :=
    (Pclick.Demo.lockStep_serve ⟨.base, Rep.fresh⟩ Ready.fresh rfl _).mp
      (h (.python false) ser [some reset])
  rw [taken_some _ [] (by decide)] at hhandles
  exact absurd (hhandles reset List.mem_cons_self) (by simp [Handles, reset])

end DemoServer

end Click
