/-
The demo programs, one operation at a time.

Each of the four programs goes from one operation at its socket to the next, with
what it does in between.  A poll hands a step what has arrived; a receive that finds
nothing is made again if it does not block, and otherwise goes on waiting.  As in
the loops of `Click.DemoServers`, a send that is in turn succeeds.

* `Demoserver.pass_eq`, `Pclick.Demo.pass_eq` — a pass of a server loop is one step,
  or two;
* `Demoserver.serves`, `Pclick.Demo.serves` — what the servers respond to;
* `Democlient.follows`, `Pclick.DemoClient.follows` — what the clients ask.
-/
import Click.Conversation
import Click.DemoArguments
import Click.DemoServers
import Click.Zmq.Dialogue

open Proto Zmq Fluent

namespace Click

/-- What a poll finds at the socket. -/
def arrived : Option Bytes → Outcome Bytes
  | none => .again
  | some b => .done b

/-- A request or reply that is no trouble: it can be read back, and has a size. -/
def Sound (b : Bytes) : Prop := ∃ m, Encodes m b ∧ b ≠ []

/-- The bytes of the response to what the bytes are read as. -/
def respondWith (ser : Encoder) (response : Message → Option Message) (b : Bytes) : Option Bytes :=
  match fromBytes b with
  | .ok m => (response m).map fun r => (ser r).1
  | .error _ => none

/-! ### The C++ server -/

namespace Demoserver

/-- Where `main` is between two operations at the socket. -/
inductive At
  | receive
  | send (message : Message)
  | returned
  | threw
  deriving DecidableEq

/-- The loop goes on to receive. -/
def At.receives : At → Bool
  | receive => true
  | send _ | returned | threw => false

structure State where
  system : System
  next : At

variable (ser : Encoder) (blocking_receive : Bool) (sensor_message : Message)

/-- `main`, up to the next operation. -/
def step (poll : Option Bytes) (s : State) : State :=
  match s.next with
  | .receive =>
    match s.system.receive blocking_receive (arrived poll) with
    | (system, .error _) => ⟨system, .threw⟩
    | (system, .ok none) => ⟨system, .receive⟩
    | (system, .ok (some request)) =>
      match reply sensor_message request with
      | none => ⟨system, .returned⟩
      | some message => ⟨system, .send message⟩
  | .send message =>
    -- the result of `send` is not looked at
    match s.system.sendMessage message (ser message) (.done ()) with
    | (system, .error _) => ⟨system, .threw⟩
    | (system, .ok _) => ⟨system, .receive⟩
  | .returned | .threw => s

/-- A step, and the one in which the reply is sent if there is one to send. -/
def stepPass (poll : Option Bytes) (s : State) : State :=
  let s' := step ser blocking_receive sensor_message poll s
  match s'.next with
  | .send _ => step ser blocking_receive sensor_message none s'
  | _ => s'

/-- **A pass of the loop** is one step, or two if there is a reply. -/
theorem pass_eq (s : System) (poll : Option Request) :
    let s' := stepPass ser blocking_receive sensor_message (poll.map (·.bytes)) ⟨s, .receive⟩
    pass ser blocking_receive sensor_message s poll = (s'.system, s'.next.receives) := by
  have hpoll : arrived (poll.map (·.bytes)) = Request.arrives poll := by cases poll <;> rfl
  simp only [stepPass, step, pass, hpoll]
  rcases s.receive blocking_receive (Request.arrives poll) with ⟨system, _ | _ | request⟩
  · rfl
  · rfl
  · rcases hreply : reply sensor_message request with _ | message
    · simp [hreply, At.receives]
    · simp only [hreply]
      rcases system.sendMessage message (ser message) (.done ()) with ⟨system, _ | _⟩ <;> rfl

def program : ServerProgram Bytes where
  State := State
  socket s := s.system.socket
  step := step ser blocking_receive sensor_message

/-- The server waits for a request. -/
def Listens (s : State) : Prop := s.next = .receive ∧ s.system.socket.owes = false

variable {s : State}

/-- What the server does with a request that comes while it listens. -/
theorem step_some (hs : s.next = .receive) (h : s.system.socket.owes = false) {b : Bytes}
    {m : Message} (hb : fromBytes b = .ok m) :
    step ser blocking_receive sensor_message (some b) s =
      ⟨s.system.advance (.received b) h,
        match reply sensor_message m with
        | none => .returned
        | some message => .send message⟩ := by
  rw [step, hs]
  simp only [arrived, System.receive_done h, hb, Except.map]
  cases reply sensor_message m <;> rfl

theorem step_none (hs : Listens s) : step ser blocking_receive sensor_message none s = s := by
  obtain ⟨system, next⟩ := s
  obtain ⟨rfl, howes⟩ := hs
  simp only [step, arrived, System.receive_again howes]

theorem step_send {message : Message} (hs : s.next = .send message)
    (h : s.system.socket.owes = true) (poll : Option Bytes) :
    step ser blocking_receive sensor_message poll s =
      ⟨s.system.advance (.sent (ser message).1) h, .receive⟩ := by
  rw [step, hs]
  simp only [System.sendMessage_eq, System.send_done h]

/-- **What the C++ server responds to.** -/
theorem serves : (program ser blocking_receive sensor_message).Serves Sound
    (respondWith ser (reply sensor_message)) Listens where
  wait := step_none ser blocking_receive sensor_message
  responds := by
    rintro s request out ⟨hs, howes⟩ ⟨m, henc, -⟩ hrespond
    rw [respondWith, henc.fromBytes_eq] at hrespond
    obtain ⟨r, hreply, rfl⟩ := Option.map_eq_some_iff.mp hrespond
    have hstep := step_some ser blocking_receive sensor_message hs howes henc.fromBytes_eq
    rw [hreply] at hstep
    have howes' : (s.system.advance (.received request) howes).socket.owes = true :=
      Rep.owes_received howes request
    let s' : State := ⟨s.system.advance (.received request) howes, .send r⟩
    have hwait := step_none ser blocking_receive sensor_message ⟨hs, howes⟩
    have hsend := step_send ser blocking_receive sensor_message (s := s') rfl howes'
    exact ⟨s', _, ⟨hwait, hstep, rfl⟩, ⟨hsend, rfl⟩, rfl, Rep.owes_push _ howes'⟩
  givesUp := by
    rintro s request ⟨hs, howes⟩ ⟨m, henc, -⟩ hrespond
    rw [respondWith, henc.fromBytes_eq] at hrespond
    have hstep := step_some ser blocking_receive sensor_message hs howes henc.fromBytes_eq
    rw [Option.map_eq_none_iff.mp hrespond] at hstep
    have hwait := step_none ser blocking_receive sensor_message ⟨hs, howes⟩
    exact ⟨_, ⟨hwait, hstep, rfl⟩, .stays fun _ => rfl⟩

end Demoserver

/-! ### The Python server -/

namespace Pclick.Demo

/-- Where `main` is between two operations at the socket. -/
inductive At
  | recv
  | answer (request : Message)
  | raised
  deriving DecidableEq

/-- The loop goes on to receive. -/
def At.receives : At → Bool
  | recv => true
  | answer _ | raised => false

structure State where
  server : Server
  next : At

variable (ser : Encoder) (trace_sizes : Bool)

/-- `main`, up to the next operation. -/
def step [Runtime] (poll : Option Bytes) (s : State) : State :=
  match s.next with
  | .recv =>
    match s.server.recv (arrived poll) with
    | (server, .error _) => ⟨server, .raised⟩
    | (server, .ok none) => ⟨server, .recv⟩
    | (server, .ok (some request)) => ⟨server, .answer request⟩
  | .answer request =>
    match answer ser s.server request with
    | (server, .error _) => ⟨server, .raised⟩
    | (server, .ok ()) =>
      if trace_sizes then
        match server.is_updated with
        | (server, .error _) => ⟨server, .raised⟩
        | (server, .ok _) => ⟨server, .recv⟩
      else ⟨server, .recv⟩
  | .raised => s

/-- A step, and the one that answers the request if there is one. -/
def stepPass [Runtime] (poll : Option Bytes) (s : State) : State :=
  let s' := step ser trace_sizes poll s
  match s'.next with
  | .answer _ => step ser trace_sizes none s'
  | _ => s'

/-- **A pass of the loop** is one step, or two if there is a request. -/
theorem pass_eq [Runtime] (server : Server) (poll : Option Request) :
    let s' := stepPass ser trace_sizes (poll.map (·.bytes)) ⟨server, .recv⟩
    pass ser trace_sizes server poll = (s'.server, s'.next.receives) := by
  have hpoll : arrived (poll.map (·.bytes)) = Request.arrives poll := by cases poll <;> rfl
  simp only [stepPass, step, pass, hpoll]
  rcases server.recv (Request.arrives poll) with ⟨server, _ | _ | request⟩
  · rfl
  · rfl
  · simp only
    rcases answer ser server request with ⟨server, _ | _⟩
    · rfl
    · cases trace_sizes with
      | false => rfl
      | true =>
        simp only [if_true]
        rcases server.is_updated with ⟨server, _ | _⟩ <;> rfl

def program [Runtime] : ServerProgram Bytes where
  State := State
  socket s := s.server.socket
  step := step ser trace_sizes

/-- The message that is sent in response. -/
def response (request : Message) : Option Message :=
  if request.messageType = MessageType.HandshakeInitMessageType then some handshake_message
  else if request.messageType = MessageType.ControlMessageType then some sensor_message
  else none

variable {trace_sizes} {server : Server} {s : State}

/-- The server waits for a request. -/
def Listens (trace_sizes : Bool) (s : State) : Prop :=
  s.next = .recv ∧ s.server.socket.owes = false ∧ Traces trace_sizes s.server.size_collector

/-- One branch at most sends. -/
theorem answer_of_response (server : Server) (h : server.socket.owes = true)
    (htr : Traces trace_sizes server.size_collector) {request r : Message}
    (hr : response request = some r) :
    ∃ size_collector, Traces trace_sizes size_collector ∧ answer ser server request =
      (⟨size_collector, server.socket.push (.sent (ser r).1) h⟩, .ok ()) := by
  rw [response] at hr
  split at hr
  · next hinit =>
    obtain rfl := Option.some.inj hr
    obtain ⟨hpos, hmax⟩ := handshake_message_size
    obtain ⟨size_collector, htr', hsend⟩ := send_of_owes h htr hpos hmax (ser handshake_message)
    refine ⟨size_collector, htr', ?_⟩
    rw [answer, if_pos hinit, hsend, hinit]
    rfl
  · next hinit =>
    split at hr
    · next hcontrol =>
      obtain rfl := Option.some.inj hr
      obtain ⟨hpos, hmax⟩ := sensor_message_size
      obtain ⟨size_collector, htr', hsend⟩ := send_of_owes h htr hpos hmax (ser sensor_message)
      refine ⟨size_collector, htr', ?_⟩
      rw [answer, if_neg hinit]
      exact (if_pos hcontrol).trans hsend
    · exact absurd hr (by simp)

theorem answer_of_no_response (server : Server) {request : Message} (hr : response request = none) :
    answer ser server request = (server, .ok ()) := by
  rw [response] at hr
  split at hr
  · exact absurd hr (by simp)
  · next hinit =>
    split at hr
    · exact absurd hr (by simp)
    · next hcontrol =>
      rw [answer, if_neg hinit]
      exact if_neg hcontrol

theorem step_none [Runtime] (hs : Listens trace_sizes s) : step ser trace_sizes none s = s := by
  obtain ⟨server, next⟩ := s
  obtain ⟨rfl, howes, -⟩ := hs
  simp only [step, Server.recv, Server.socketRecv, arrived, Rep.recv_again howes]

/-- A request that has a size is taken up. -/
theorem step_some [Runtime] (hs : s.next = .recv) (h : s.server.socket.owes = false)
    (htr : Traces trace_sizes s.server.size_collector) {b : Bytes} {m : Message} (hb : Encodes m b)
    (hne : b ≠ []) :
    ∃ size_collector, Traces trace_sizes size_collector ∧
      step ser trace_sizes (some b) s =
        ⟨⟨size_collector, s.server.socket.push (.received b) h⟩, .answer m⟩ := by
  obtain ⟨size_collector, hsize, htr'⟩ :=
    recvSize_of_traces htr fun _ => List.length_pos_iff.mpr hne
  refine ⟨size_collector, htr', ?_⟩
  rw [step, hs]
  simp only [Server.recv, Server.socketRecv, arrived, Rep.recv_done h, hsize, hb.from_bytes_eq]
  rfl

/-- Receiving while a reply is owed ends the loop. -/
theorem step_of_owes [Runtime] (hs : s.next = .recv) (h : s.server.socket.owes = true)
    (poll : Option Bytes) : step ser trace_sizes poll s =
      ⟨{ s.server with socket := s.server.socket.push .refused trivial }, .raised⟩ := by
  rw [step, hs]
  simp only [Server.recv, Server.socketRecv, Rep.recv_of_owes h]

/-- After the request is answered the sizes are read, which cannot fail. -/
theorem step_answer [Runtime] {request : Message} {server' : Server} (hs : s.next = .answer request)
    (hanswer : answer ser s.server request = (server', .ok ()))
    (htr : Traces trace_sizes server'.size_collector) :
    ∃ size_collector, Traces trace_sizes size_collector ∧
      ∀ poll, step ser trace_sizes poll s = ⟨⟨size_collector, server'.socket⟩, .recv⟩ := by
  simp only [step, hs, hanswer]
  cases trace_sizes with
  | false => exact ⟨server'.size_collector, htr, fun _ => rfl⟩
  | true =>
    rw [Server.is_updated]
    cases hc : server'.size_collector with
    | base =>
      rw [hc] at htr
      exact absurd htr (by simp [Traces])
    | changes c => exact ⟨.changes c.is_updated.1, rfl, fun _ => rfl⟩

/-- **What the Python server responds to.** -/
theorem serves [Runtime] (trace_sizes : Bool) :
    (program ser trace_sizes).Serves Sound (respondWith ser response) (Listens trace_sizes) where
  wait := step_none ser
  responds := by
    rintro s request out ⟨hs, howes, htr⟩ ⟨m, henc, hne⟩ hrespond
    rw [respondWith, henc.fromBytes_eq] at hrespond
    obtain ⟨r, hr, rfl⟩ := Option.map_eq_some_iff.mp hrespond
    obtain ⟨received, htr', hstep⟩ := step_some ser hs howes htr henc hne
    have howes' := Rep.owes_received howes request
    let s' : State := ⟨⟨received, s.server.socket.push (.received request) howes⟩, .answer m⟩
    obtain ⟨sent, hsent, hanswer⟩ := answer_of_response ser s'.server howes' htr' hr
    obtain ⟨read, hread, hstep'⟩ := step_answer ser (s := s') rfl hanswer hsent
    exact ⟨s', _, ⟨step_none ser ⟨hs, howes, htr⟩, hstep, rfl⟩, ⟨hstep', rfl⟩, rfl,
      Rep.owes_push _ howes', hread⟩
  givesUp := by
    rintro s request ⟨hs, howes, htr⟩ ⟨m, henc, hne⟩ hrespond
    rw [respondWith, henc.fromBytes_eq] at hrespond
    obtain ⟨received, htr', hstep⟩ := step_some ser hs howes htr henc hne
    have howes' := Rep.owes_received howes request
    let s' : State := ⟨⟨received, s.server.socket.push (.received request) howes⟩, .answer m⟩
    have hanswer := answer_of_no_response ser s'.server
      (Option.map_eq_none_iff.mp hrespond)
    obtain ⟨read, -, hstep'⟩ := step_answer ser (s := s') rfl hanswer htr'
    -- the loop goes on to receive, and the socket refuses
    have hend : ∀ poll, step ser trace_sizes poll ⟨⟨read, s'.server.socket⟩, .recv⟩ = _ :=
      step_of_owes ser rfl howes'
    refine ⟨s', ⟨step_none ser ⟨hs, howes, htr⟩, hstep, rfl⟩,
      .passes ⟨hstep', rfl⟩ (.passes ⟨hend, ?_⟩ (.stays fun _ => rfl))⟩
    exact (happened_append _ _).trans (List.append_nil _)

end Pclick.Demo

/-! ### The C++ client -/

namespace Democlient

/-- The handshake. -/
def handshakeInit : Message := HandshakeInitMessageBuilder.build HandshakeInitMessageBuilder.builder

def controlChain : Chain ControlMessageBuilderImpl.interfaces where
  calls := [
    .object (str "robot1"),
    .withAngles [0x3ff0000000000000, 0x4000000000000000],  -- 1, 2
    .withControlEvent (str "gripper") true,
    .object (str "robot2"),
    .withAngles [0x3ff0000000000000, 0x4000000000000000]]
  last := .addControlEventBuilder
  admitted := rfl

def control_message : Except Fault Message :=
  (ControlMessageBuilderImpl.built controlChain.calls).map (⟨.controlMessage, ·⟩)

/-- Where `main` is between two operations at the socket: the messages still to be
sent come with whether the receive after them blocks. -/
inductive At
  | send (message : Message) (block : Bool) (rest : List (Message × Bool))
  | receive (block : Bool) (rest : List (Message × Bool))
  | returned
  | threw
  deriving DecidableEq

/-- `replies` holds what was received so far; `main` keeps the last. -/
structure State where
  client : Client.Connected
  next : At
  replies : List Message

/-- What comes after a reply. -/
def proceed : List (Message × Bool) → At
  | [] => .returned
  | (message, block) :: rest => .send message block rest

variable (ser : Encoder)

/-- `sendReceiveBlocking` and `sendReceive`, up to the next operation. -/
def step (poll : Option Bytes) (s : State) : State :=
  match s.next with
  | .send message block rest =>
    -- the result of `send` is not looked at
    match s.client.sendMessage message (ser message) (.done ()) with
    | (client, .error _) => { s with client, next := .threw }
    | (client, .ok _) => { s with client, next := .receive block rest }
  | .receive true rest =>
    match poll with
    | none => s
    | some reply =>
      match s.client.blockingReceive (.done reply) with
      | (client, .error _) => { s with client, next := .threw }
      | (client, .ok response) => ⟨client, proceed rest, s.replies ++ response.toList⟩
  | .receive false rest =>
    match s.client.receive false (arrived poll) with
    | (client, .error _) => { s with client, next := .threw }
    | (client, .ok none) => { s with client }
    | (client, .ok (some response)) => ⟨client, proceed rest, s.replies ++ [response]⟩
  | .returned | .threw => s

def program : ClientProgram Bytes where
  State := State
  socket s := s.client.socket
  step := step ser

/-- The messages `main` sends: the handshake, and `n` times the control message. -/
def script (blocking_receive : Bool) (n : ℤ) (control : Message) : List (Message × Bool) :=
  (handshakeInit, true) :: List.replicate n.toNat (control, blocking_receive)

def view : (program ser).View Message where
  read b := (fromBytes b).toOption
  heard := State.replies
  Ended s := s.next = .returned

theorem step_send {client : Client.Connected} (h : client.socket.mayAsk = true) (message : Message)
    (block : Bool) (rest : List (Message × Bool)) (replies : List Message) (poll : Option Bytes) :
    step ser poll ⟨client, .send message block rest, replies⟩ =
      ⟨⟨client.socket.push (.sent (ser message).1) h⟩, .receive block rest, replies⟩ := by
  simp only [step, Client.Connected.sendMessage_done h]

theorem step_wait {client : Client.Connected} (h : client.socket.mayAsk = false) (block : Bool)
    (rest : List (Message × Bool)) (replies : List Message) :
    step ser none ⟨client, .receive block rest, replies⟩ =
      ⟨client, .receive block rest, replies⟩ := by
  cases block with
  | true => rfl
  | false => simp only [step, arrived, Client.Connected.receive_again h]

theorem step_receive {client : Client.Connected} (h : client.socket.mayAsk = false) (block : Bool)
    (rest : List (Message × Bool)) (replies : List Message) {b : Bytes} {m : Message}
    (hb : fromBytes b = .ok m) :
    step ser (some b) ⟨client, .receive block rest, replies⟩ =
      ⟨⟨client.socket.push (.received b) h⟩, proceed rest, replies ++ [m]⟩ := by
  cases block with
  | true =>
    simp only [step, Client.Connected.blockingReceive, Client.Connected.receive_done h, hb,
      Except.map, Option.toList]
  | false => simp only [step, arrived, Client.Connected.receive_done h, hb, Except.map]

/-- **What the C++ client asks.** -/
theorem follows (script : List (Message × Bool)) (client : Client.Connected)
    (h : client.socket.mayAsk = true) (replies : List Message) :
    (program ser).Follows (view ser) (script.map fun x => (ser x.1).1) none
      ⟨client, proceed script, replies⟩ := by
  induction script generalizing client replies with
  | nil => exact ⟨rfl, rfl⟩
  | cons x rest ih =>
    obtain ⟨message, block⟩ := x
    have hwait : (client.socket.push (.sent (ser message).1) h).mayAsk = false :=
      Req.mayAsk_push _ h
    refine ⟨⟨⟨client.socket.push (.sent (ser message).1) h⟩, .receive block rest, replies⟩,
      ⟨step_send ser h message block rest replies, rfl⟩, rfl, At.noConfusion,
      step_wait ser hwait block rest replies, fun reply m hm => ?_⟩
    have hb : fromBytes reply = .ok m := toOption_eq_some.mp hm
    exact ⟨_, ⟨step_wait ser hwait block rest replies,
      step_receive ser hwait block rest replies hb, rfl⟩, rfl, ih _ (Req.mayAsk_push _ hwait) _⟩

end Democlient

/-! ### The Python client -/

namespace Pclick.DemoClient

/-- The messages to which a reply is awaited, and the one that is sent at the end. -/
def script (float : PyFloat) (args : Args) : Except Error (List Message × Option Message) :=
  (firstMessage float args).map fun
    | none => ([], some errormessage)
    | some message => (List.replicate (args.range.toNat + 1) message,
      if args.end_with_errormessage then some errormessage else none)

/-- Where the program is between two operations at the socket. -/
inductive At
  | send (message : Message) (rest : List Message)
  | recv (rest : List Message)
  /-- The message that is sent at the end. -/
  | last (message : Message)
  | ended
  | raised
  deriving DecidableEq

structure State where
  client : Client
  next : At
  last : Option Message
  replies : List Message

/-- What comes after a reply. -/
def proceed (last : Option Message) : List Message → At
  | [] => last.elim .ended .last
  | message :: rest => .send message rest

variable (ser : Encoder)

/-- The program, up to the next operation. -/
def step [Runtime] (poll : Option Bytes) (s : State) : State :=
  match s.next with
  | .send message rest =>
    match s.client.send message (ser message) (.done ()) with
    | (client, .error _) => { s with client, next := .raised }
    | (client, .ok ()) => { s with client, next := .recv rest }
  | .recv rest =>
    match poll with
    | none => s
    | some reply =>
      match s.client.recv true (.done reply) with
      | (client, .error _) => { s with client, next := .raised }
      | (client, .ok response) =>
        ⟨client, proceed s.last rest, s.last, s.replies ++ response.toList⟩
  | .last message =>
    match s.client.send message (ser message) (.done ()) with
    | (client, .error _) => { s with client, next := .raised }
    | (client, .ok ()) => { s with client, next := .ended }
  | .ended | .raised => s

def program [Runtime] : ClientProgram Bytes where
  State := State
  socket s := s.client.socket
  step := step ser

def view [Runtime] : (program ser).View Message where
  read b := (from_bytes b).toOption
  heard := State.replies
  Ended s := s.next = .ended

/-- A message that can be sent. -/
abbrev Small (m : Message) : Prop := m.cls.schema.byteSize m.pm ≤ maxSize

theorem step_send [Runtime] {client : Client} (h : client.socket.mayAsk = true) {message : Message}
    (hsmall : Small message) (rest : List Message) (last : Option Message) (replies : List Message)
    (poll : Option Bytes) : step ser poll ⟨client, .send message rest, last, replies⟩ =
      ⟨⟨client.socket.push (.sent (ser message).1) h⟩, .recv rest, last, replies⟩ := by
  simp only [step, Client.send_done h hsmall]

theorem step_last [Runtime] {client : Client} (h : client.socket.mayAsk = true) {message : Message}
    (hsmall : Small message) (last : Option Message) (replies : List Message)
    (poll : Option Bytes) : step ser poll ⟨client, .last message, last, replies⟩ =
      ⟨⟨client.socket.push (.sent (ser message).1) h⟩, .ended, last, replies⟩ := by
  simp only [step, Client.send_done h hsmall]

theorem step_recv [Runtime] {client : Client} (h : client.socket.mayAsk = false)
    (rest : List Message) (last : Option Message) (replies : List Message) {b : Bytes} {m : Message}
    (hb : from_bytes b = .ok m) : step ser (some b) ⟨client, .recv rest, last, replies⟩ =
      ⟨⟨client.socket.push (.received b) h⟩, proceed last rest, last, replies ++ [m]⟩ := by
  simp only [step, Client.recv_done h, hb, Except.map, Except.mapError, Option.toList]

/-- **What the Python client asks.** -/
theorem follows [Runtime] {last : Option Message} (hlast : ∀ m ∈ last, Small m)
    {script : List Message} (hscript : ∀ m ∈ script, Small m) (client : Client)
    (h : client.socket.mayAsk = true) (replies : List Message) :
    (program ser).Follows (view ser) (script.map fun m => (ser m).1)
      (last.map fun m => (ser m).1) ⟨client, proceed last script, last, replies⟩ := by
  induction script generalizing client replies with
  | nil =>
    cases last with
    | none => exact ⟨rfl, rfl⟩
    | some m => exact ⟨_, ⟨step_last ser h (hlast m rfl) _ replies, rfl⟩, rfl, rfl, rfl⟩
  | cons message rest ih =>
    obtain ⟨hsmall, hrest⟩ := List.forall_mem_cons.mp hscript
    have hwait : (client.socket.push (.sent (ser message).1) h).mayAsk = false :=
      Req.mayAsk_push _ h
    refine ⟨⟨⟨client.socket.push (.sent (ser message).1) h⟩, .recv rest, last, replies⟩,
      ⟨step_send ser h hsmall rest last replies, rfl⟩, rfl, At.noConfusion, rfl,
      fun reply m hm => ?_⟩
    have hb : from_bytes reply = .ok m := toOption_eq_some.mp hm
    exact ⟨_, ⟨rfl, step_recv ser hwait rest last replies hb, rfl⟩, rfl,
      ih hrest _ (Req.mayAsk_push _ hwait) _⟩

end Pclick.DemoClient

end Click
