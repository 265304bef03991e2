/-
A client and a server that talk to each other.

Either of the two clients is connected to either of the two servers.  At any moment
either side may make any of its calls, in or out of turn, with any outcome at the
socket; only what a call receives is not free: it is the next message on the way.

* `Conversation.Step.link` — a call is a step of the link between the sockets, or
  none;
* `Conversation.exchanges` — so a conversation runs through exchanges: nothing is
  lost, repeated or overtaken, and there is one message on the way at most;
* `Conversation.awaited_iff` — what the flag of the C++ server says of the client;
* `Conversation.delivers` — a message that a call returns is the one that the other
  side sent.
-/
import Click.Client
import Click.Fluent.Chain
import Click.Zmq.Link

open Proto Zmq
open Fluent (map_eq_ok)

namespace Click

/-! ### Calls at the servers -/

/-- What there is to receive for the call. -/
def System.Call.arrives : System.Call → Outcome Bytes
  | .receive _ arrives | .blocking_receive arrives | .receive_bytes _ arrives => arrives
  | .send .. | .sendMessage .. => .again

theorem System.grows_exec (s : System) (call : System.Call) :
    Grows call.arrives s.socket.log (s.exec call).1.socket.log := by
  cases call with
  | send bytes outcome => exact s.socket.grows_send bytes outcome _
  | sendMessage message bytes outcome => exact s.socket.grows_send bytes.1 outcome _
  | receive block arrives => exact s.socket.grows_recv arrives
  | blocking_receive arrives => exact s.socket.grows_recv arrives
  | receive_bytes responseBytes arrives => exact s.socket.grows_recv arrives

/-- What there is to receive for the call. -/
def Pclick.Server.Call.arrives : Pclick.Server.Call → Outcome Bytes
  | .recv arrives | .recv_blocking arrives => arrives
  | .send .. | .is_updated => .again

theorem Pclick.Server.grows_exec [Pclick.Runtime] (server : Pclick.Server)
    (call : Pclick.Server.Call) :
    Grows call.arrives server.socket.log (server.exec call).1.socket.log := by
  cases call with
  | recv arrives =>
    have hgrows := server.socket.grows_recv arrives
    simp only [exec, recv, socketRecv]
    rcases hr : server.socket.recv arrives with ⟨socket, b | _ | _⟩ <;> rw [hr] at hgrows
    · simp only
      rcases server.size_collector.recvSize b.length with e | c <;> exact hgrows
    · exact hgrows
    · exact hgrows
  | recv_blocking arrives =>
    have hgrows := server.socket.grows_recv arrives
    simp only [exec, recv_blocking, socketRecv]
    rcases hr : server.socket.recv arrives with ⟨socket, _ | _ | _⟩ <;> rw [hr] at hgrows <;>
      exact hgrows
  | send message serialized outcome =>
    rcases hser : serializeToString message serialized with e | b
    · simpa only [exec, send, hser] using .stays
    · rcases hsize : server.size_collector.sendSize b.length with e | c
      · simpa only [exec, send, hser, hsize] using .stays
      · have hgrows := server.socket.grows_send b outcome .again
        simp only [exec, send, hser, hsize]
        rcases hr : server.socket.send b outcome with ⟨socket, _ | _ | _⟩ <;> rw [hr] at hgrows <;>
          exact hgrows
  | is_updated => exact .stays

/-! ### The two sides -/

/-- The message that a C++ call returned, if it returned one. -/
def System.returned : Except Fault System.Returned → Option Message
  | .ok (.message m) => m
  | .ok (.success _) | .ok (.bytes ..) | .error _ => none

/-- The message that a Python call returned, if it returned one. -/
def Pclick.Server.returned : Except Pclick.Raised Pclick.Server.Returned → Option Message
  | .ok (.received m) => m
  | .ok .sent | .ok (.updated _) | .error _ => none

inductive ClientEnd
  | cpp (client : Client.Connected)
  | python (client : Pclick.Client)

namespace ClientEnd

def socket : ClientEnd → Req Bytes
  | cpp client => client.socket
  | python client => client.socket

/-- The client makes a call, for which `arrives` is what there is to receive and
which may return a message. -/
inductive Calls [Pclick.Runtime] : ClientEnd → Outcome Bytes → Option Message → ClientEnd → Prop
  | cpp (client : Client.Connected) (call : Client.Call) :
    Calls (cpp client) call.arrives (System.returned (client.exec call).2)
      (cpp (client.exec call).1)
  | python (client : Pclick.Client) (call : Pclick.Client.Call) :
    Calls (python client) call.arrives (Pclick.Server.returned (client.exec call).2)
      (python (client.exec call).1)

/-- A client just connected. -/
def New : ClientEnd → Prop
  | cpp client => client.socket = Req.fresh
  | python client => client.socket = Req.fresh

variable {client client' : ClientEnd} {arrives : Outcome Bytes} {got : Option Message}

theorem Calls.grows [Pclick.Runtime] (h : client.Calls arrives got client') :
    Grows arrives client.socket.log client'.socket.log := by
  cases h with
  | cpp client call => exact client.grows_exec call
  | python client call => exact client.grows_exec call

theorem New.socket_eq (h : client.New) : client.socket = Req.fresh := by
  cases client <;> exact h

end ClientEnd

inductive ServerEnd
  | cpp (system : System)
  | python (server : Pclick.Server)

namespace ServerEnd

def socket : ServerEnd → Rep Bytes
  | cpp system => system.socket
  | python server => server.socket

/-- The server makes a call. -/
inductive Calls [Pclick.Runtime] : ServerEnd → Outcome Bytes → Option Message → ServerEnd → Prop
  | cpp (system : System) (call : System.Call) :
    Calls (cpp system) call.arrives (System.returned (system.exec call).2)
      (cpp (system.exec call).1)
  | python (server : Pclick.Server) (call : Pclick.Server.Call) :
    Calls (python server) call.arrives (Pclick.Server.returned (server.exec call).2)
      (python (server.exec call).1)

/-- A server just bound; any collector may trace the sizes at the Python one. -/
def New : ServerEnd → Prop
  | cpp system => system = System.bound
  | python server => server.socket = Rep.fresh

variable {server server' : ServerEnd} {arrives : Outcome Bytes} {got : Option Message}

theorem Calls.grows [Pclick.Runtime] (h : server.Calls arrives got server') :
    Grows arrives server.socket.log server'.socket.log := by
  cases h with
  | cpp system call => exact system.grows_exec call
  | python server call => exact server.grows_exec call

theorem New.socket_eq (h : server.New) : server.socket = Rep.fresh := by
  cases server with
  | cpp system => exact congrArg System.socket h
  | python server => exact h

end ServerEnd

/-! ### Conversations -/

structure Conversation where
  client : ClientEnd
  server : ServerEnd

/-- The two sides of a conversation. -/
inductive Side
  | client
  | server
  deriving DecidableEq

def Side.other : Side → Side
  | client => server
  | server => client

namespace Conversation

def link (c : Conversation) : Link Bytes := ⟨c.client.socket, c.server.socket⟩

/-- The history of a side. -/
def log (c : Conversation) : Side → List (Event Bytes)
  | .client => c.client.socket.log
  | .server => c.server.socket.log

/-- What is on the way to a side. -/
def onTheWay (c : Conversation) : Side → List Bytes
  | .client => c.link.replies
  | .server => c.link.requests

/-- One of the sides makes a call; what it receives is the next message on the way. -/
inductive Step [Pclick.Runtime] (c : Conversation) : Side → Option Message → Conversation → Prop
  | client (arrives : Outcome Bytes) (got : Option Message) (client : ClientEnd) :
    c.client.Calls arrives got client →
    (∀ reply, arrives = .done reply → (c.onTheWay .client).head? = some reply) →
    Step c .client got ⟨client, c.server⟩
  | server (arrives : Outcome Bytes) (got : Option Message) (server : ServerEnd) :
    c.server.Calls arrives got server →
    (∀ request, arrives = .done request → (c.onTheWay .server).head? = some request) →
    Step c .server got ⟨c.client, server⟩

/-- Calls of the sides, one after the other, each with the side that made it and the
message that it returned. -/
inductive Runs [Pclick.Runtime] (c : Conversation) :
    List (Side × Option Message) → Conversation → Prop
  | nil : Runs c [] c
  | snoc {calls side got c' c''} : Runs c calls c' → Step c' side got c'' →
    Runs c (calls ++ [(side, got)]) c''

/-- Neither side has made a call. -/
def New (c : Conversation) : Prop := c.client.New ∧ c.server.New

section

variable {c c' : Conversation} {calls : List (Side × Option Message)}

theorem New.link_eq (h : c.New) : c.link = Link.fresh := by
  rw [link, h.1.socket_eq, h.2.socket_eq]
  rfl

variable [Pclick.Runtime]

/-- **A call is a step of the link**, or none. -/
theorem Step.link {side : Side} {got : Option Message} (h : c.Step side got c') :
    c'.link = c.link ∨ c.link.Step c'.link := by
  cases h with
  | client arrives got client hcall hnext => exact Link.step_of_grows_req hcall.grows hnext
  | server arrives got server hcall hnext => exact Link.step_of_grows_rep hcall.grows hnext

theorem Runs.link (h : c.Runs calls c') : Relation.ReflTransGen Link.Step c.link c'.link := by
  induction h with
  | nil => exact .refl
  | snoc _ hstep ih =>
    rcases hstep.link with heq | hstep
    · rwa [heq]
    · exact ih.tail hstep

theorem tracks_of_runs (hnew : c.New) (h : c.Runs calls c') :
    ∃ x, Relation.ReflTransGen Exchanges.Step Exchanges.start x ∧ c'.link.Tracks x := by
  have hreach := h.link
  rw [hnew.link_eq] at hreach
  exact Link.tracks_of_reachable hreach

/-- **A conversation runs through exchanges.**  Whatever calls the two sides make, the
histories of their sockets are those of exchanges that go on one phase after the
other.  What one side received, followed by what is on the way to it, is what the
other side sent, and there is one message on the way at most. -/
theorem exchanges (hnew : c.New) (h : c.Runs calls c') :
    (∃ x, Relation.ReflTransGen Exchanges.Step Exchanges.start x ∧ c'.link.Tracks x) ∧
      (∀ side, receiveds (c'.log side) ++ c'.onTheWay side = sents (c'.log side.other)) ∧
      (c'.onTheWay .client).length + (c'.onTheWay .server).length ≤ 1 := by
  obtain ⟨x, hx, htracks⟩ := tracks_of_runs hnew h
  refine ⟨⟨x, hx, htracks⟩, fun side => ?_, ?_⟩
  · cases side with
    | client => exact htracks.replies_lossless
    | server => exact htracks.requests_lossless
  · rw [Nat.add_comm]
    exact htracks.onTheWay_le_one

end

/-- Two sides that have made no call yet. -/
def start : Conversation := ⟨.cpp ⟨Req.fresh⟩, .cpp .bound⟩

/-- A request that was received, and one that is refused. -/
theorem exchanges_refused : let _ := Pclick.Runtime.cpp
    ∃ c', start.Runs
      [(.client, none), (.server, some ⟨.resetMessage, { messageType := 4 }⟩), (.client, none)] c' ∧
    c'.log .client = [.sent [8, 4], .refused] ∧
    (∀ side, receiveds (c'.log side) ++ c'.onTheWay side = sents (c'.log side.other)) ∧
    (c'.onTheWay .client).length + (c'.onTheWay .server).length ≤ 1 := by
  intro _
  have h₁ := Runs.snoc (c := start) .nil
    (.client .again none _ (.cpp ⟨Req.fresh⟩ (.send [8, 4] (.done ()))) (by simp))
  have h₂ := Runs.snoc h₁ (.server (.done [8, 4]) (some ⟨.resetMessage, { messageType := 4 }⟩) _
    (.cpp .bound (.receive true (.done [8, 4]))) (by rintro _ ⟨⟩; rfl))
  have h₃ := Runs.snoc h₂ (.client .again none _ (.cpp _ (.send [8, 4] (.done ()))) (by simp))
  obtain ⟨-, hlossless, hone⟩ := exchanges (c := start) ⟨rfl, rfl⟩ h₃
  exact ⟨_, h₃, rfl, hlossless, hone⟩

/-! ### The flag of the C++ server -/

section

variable [Pclick.Runtime] {c c' : Conversation} {calls : List (Side × Option Message)}

theorem Runs.inStep (hnew : c.New) (h : c.Runs calls c') {system : System}
    (hserver : c'.server = .cpp system) : system.InStep := by
  induction h generalizing system with
  | nil =>
    have hbound := hnew.2
    rw [hserver] at hbound
    rw [show system = System.bound from hbound]
    exact System.inStep_bound
  | snoc _ hstep ih =>
    cases hstep with
    | client arrives got client hcall hnext => exact ih hserver
    | server arrives got server hcall hnext =>
      generalize hold : (_ : Conversation).server = old at hcall
      cases hcall with
      | cpp system' call =>
        obtain rfl := ServerEnd.cpp.inj hserver
        exact System.exec_inStep (ih hold) call
      | python server call => exact absurd hserver (by simp)

/-- **What `must_send` says of the other side.**  The flag of the C++ server is set
exactly while the client awaits a reply and nothing is on the way. -/
theorem awaited_iff (hnew : c.New) (h : c.Runs calls c') {system : System}
    (hserver : c'.server = .cpp system) :
    system.server.must_send = true ↔
      c'.client.socket.mayAsk = false ∧ ∀ side, c'.onTheWay side = [] := by
  obtain ⟨x, -, htracks⟩ := tracks_of_runs hnew h
  have howes : system.socket.owes = true ↔ ∃ request, x.phase = .taken request := by
    have howes := htracks.owes_iff
    rwa [link, hserver] at howes
  have hask : c'.client.socket.mayAsk = false ↔ x.phase ≠ .idle := by
    rw [← Bool.not_eq_true]
    exact not_congr htracks.mayAsk_iff
  have hway : (∀ side, c'.onTheWay side = []) ↔ x.phase.replies = [] ∧ x.phase.requests = [] := by
    rw [← htracks.replies_eq, ← htracks.requests_eq]
    exact ⟨fun h => ⟨h .client, h .server⟩, fun h side => by cases side; exacts [h.1, h.2]⟩
  rw [h.inStep hnew hserver, howes, hask, hway]
  cases x.phase <;> simp [Phase.replies, Phase.requests]

end

/-- The server has the request and is to reply. -/
theorem awaited_iff_received : let _ := Pclick.Runtime.cpp
    ∃ (c' : Conversation) (system : System),
    start.Runs [(.client, none), (.server, some ⟨.resetMessage, { messageType := 4 }⟩)] c' ∧
      c'.server = .cpp system ∧ (system.server.must_send = true ↔
        c'.client.socket.mayAsk = false ∧ ∀ side, c'.onTheWay side = []) := by
  intro _
  have h₁ := Runs.snoc (c := start) .nil
    (.client .again none _ (.cpp ⟨Req.fresh⟩ (.send [8, 4] (.done ()))) (by simp))
  have h₂ := Runs.snoc h₁ (.server (.done [8, 4]) (some ⟨.resetMessage, { messageType := 4 }⟩) _
    (.cpp .bound (.receive true (.done [8, 4]))) (by rintro _ ⟨⟩; rfl))
  exact ⟨_, _, h₂, rfl, awaited_iff (c := start) ⟨rfl, rfl⟩ h₂ rfl⟩

end Conversation

/-! ### The messages that calls return -/

/-- One of the two serializers reads the bytes as `m`. -/
def Decodes [Pclick.Runtime] (b : Bytes) (m : Message) : Prop :=
  fromBytes b = .ok m ∨ Pclick.from_bytes b = .ok m

/-- A message is taken off a socket as bytes that are read as `m`. -/
def Reads [Pclick.Runtime] (arrives : Outcome Bytes) (log log' : List (Event Bytes))
    (m : Message) : Prop :=
  ∃ b, arrives = .done b ∧ log' = log ++ [.received b] ∧ Decodes b m

theorem ok_of_mapError {ε ε' α : Type} {x : Except ε α} {f : ε → ε'} {a : α}
    (h : x.mapError f = .ok a) : x = .ok a := by
  cases x with
  | ok a' => exact congrArg Except.ok (Except.ok.inj h)
  | error e => exact absurd h (by simp [Except.mapError])

theorem Client.done_of_receive {got : Outcome Bytes} {m : Message}
    (h : Client.receive (.ofOutcome got) = .ok (some m)) :
    ∃ b, got = .done b ∧ fromBytes b = .ok m := by
  cases got with
  | done b =>
    obtain ⟨m', hm, heq⟩ := map_eq_ok.mp h
    obtain rfl := Option.some.inj heq
    exact ⟨b, rfl, hm⟩
  | again => exact absurd h (by simp [Delivery.ofOutcome, Client.receive, Delivery.recvMessage])
  | error => exact absurd h (by simp [Delivery.ofOutcome, Client.receive, Delivery.recvMessage])

theorem Server.done_of_receive {server : Server} {got : Outcome Bytes} {m : Message}
    (h : (server.receive (.ofOutcome got)).2 = .ok (some m)) :
    ∃ b, got = .done b ∧ fromBytes b = .ok m := by
  cases got with
  | done b =>
    obtain ⟨m', hm, heq⟩ := map_eq_ok.mp h
    obtain rfl := Option.some.inj heq
    exact ⟨b, rfl, hm⟩
  | again => exact absurd h (by simp [Delivery.ofOutcome, receive, Delivery.recvMessage])
  | error => exact absurd h (by simp [Delivery.ofOutcome, receive, Delivery.recvMessage])

/-- Only the calls that receive a message return one. -/
theorem System.message_of_returned {res : Except Fault System.Returned} {m : Message}
    (h : System.returned res = some m) : res = .ok (.message (some m)) := by
  rcases res with fault | _ | m' | _
  · exact absurd h (by simp [System.returned])
  · exact absurd h (by simp [System.returned])
  · exact congrArg (fun m => Except.ok (System.Returned.message m)) h
  · exact absurd h (by simp [System.returned])

theorem Pclick.Server.received_of_returned {res : Except Raised Returned} {m : Message}
    (h : returned res = some m) : res = .ok (.received (some m)) := by
  rcases res with e | m' | _ | _
  · exact absurd h (by simp [returned])
  · exact congrArg (fun m => Except.ok (Returned.received m)) h
  · exact absurd h (by simp [returned])
  · exact absurd h (by simp [returned])

section

variable [Pclick.Runtime]

/-- What a Python socket call of either side makes of the bytes. -/
theorem Pclick.from_bytes_of_decoded {b : Bytes} {m : Message}
    (h : ((from_bytes b).mapError Raised.fromBytes).map some = .ok (some m)) :
    from_bytes b = .ok m := by
  obtain ⟨_, hm, heq⟩ := map_eq_ok.mp h
  obtain rfl := Option.some.inj heq
  exact ok_of_mapError hm

theorem Client.Connected.reads_receive {client : Client.Connected} {block : Bool}
    {arrives : Outcome Bytes} {m : Message} (h : (client.receive block arrives).2 = .ok (some m)) :
    Reads arrives client.socket.log (client.receive block arrives).1.socket.log m := by
  obtain ⟨b, hgot, hb⟩ := Client.done_of_receive h
  obtain ⟨harrives, hlog⟩ := Req.log_of_recv hgot
  exact ⟨b, harrives, hlog, .inl hb⟩

theorem System.reads_receive {s : System} {block : Bool} {arrives : Outcome Bytes} {m : Message}
    (h : (s.receive block arrives).2 = .ok (some m)) :
    Reads arrives s.socket.log (s.receive block arrives).1.socket.log m := by
  obtain ⟨b, hgot, hb⟩ := Server.done_of_receive h
  obtain ⟨harrives, hlog⟩ := Rep.log_of_recv hgot
  exact ⟨b, harrives, hlog, .inl hb⟩

theorem Pclick.Client.reads_recv {client : Pclick.Client} {block : Bool} {arrives : Outcome Bytes}
    {m : Message} (h : (client.recv block arrives).2 = .ok (some m)) :
    Reads arrives client.socket.log (client.recv block arrives).1.socket.log m := by
  rw [recv] at h ⊢
  rcases hr : client.socket.recv arrives with ⟨socket, b | _ | _⟩ <;> simp only [hr] at h ⊢
  · obtain ⟨harrives, hlog⟩ := Req.log_of_recv (congrArg Prod.snd hr)
    rw [hr] at hlog
    exact ⟨b, harrives, hlog, .inr (from_bytes_of_decoded h)⟩
  · cases block <;> exact absurd h (by simp)
  · exact absurd h (by simp)

theorem Pclick.Server.reads_recv {server : Pclick.Server} {arrives : Outcome Bytes} {m : Message}
    (h : (server.recv arrives).2 = .ok (some m)) :
    Reads arrives server.socket.log (server.recv arrives).1.socket.log m := by
  rw [recv, socketRecv] at h ⊢
  rcases hr : server.socket.recv arrives with ⟨socket, b | _ | _⟩ <;> simp only [hr] at h ⊢
  · obtain ⟨harrives, hlog⟩ := Rep.log_of_recv (congrArg Prod.snd hr)
    rw [hr] at hlog
    rcases hsize : server.size_collector.recvSize b.length with e | c <;> simp only [hsize] at h ⊢
    · exact absurd h (by simp)
    · exact ⟨b, harrives, hlog, .inr (from_bytes_of_decoded h)⟩
  · exact absurd h (by simp)
  · exact absurd h (by simp)

theorem Pclick.Server.reads_recv_blocking {server : Pclick.Server} {arrives : Outcome Bytes}
    {m : Message} (h : (server.recv_blocking arrives).2 = .ok m) :
    Reads arrives server.socket.log (server.recv_blocking arrives).1.socket.log m := by
  rw [recv_blocking, socketRecv] at h ⊢
  rcases hr : server.socket.recv arrives with ⟨socket, b | _ | _⟩ <;> simp only [hr] at h ⊢
  · obtain ⟨harrives, hlog⟩ := Rep.log_of_recv (congrArg Prod.snd hr)
    rw [hr] at hlog
    exact ⟨b, harrives, hlog, .inr (ok_of_mapError h)⟩
  · exact absurd h (by simp)
  · exact absurd h (by simp)

/-- Only the calls that receive a message return one. -/
theorem Client.Connected.reads_exec {client : Client.Connected} {call : Client.Call} {m : Message}
    (h : System.returned (client.exec call).2 = some m) :
    Reads call.arrives client.socket.log (client.exec call).1.socket.log m := by
  have hres := System.message_of_returned h
  cases call with
  | send bytes outcome =>
    obtain ⟨_, -, heq⟩ := (map_eq_ok (x := (client.send bytes outcome).2)).mp hres
    exact absurd heq (by simp)
  | sendMessage message bytes outcome =>
    obtain ⟨_, -, heq⟩ := (map_eq_ok (x := (client.sendMessage message bytes outcome).2)).mp hres
    exact absurd heq (by simp)
  | receive block arrives =>
    obtain ⟨_, hrecv, heq⟩ := (map_eq_ok (x := (client.receive block arrives).2)).mp hres
    obtain rfl := System.Returned.message.inj heq
    exact reads_receive hrecv
  | blockingReceive arrives =>
    obtain ⟨_, hrecv, heq⟩ := (map_eq_ok (x := (client.receive true arrives).2)).mp hres
    obtain rfl := System.Returned.message.inj heq
    exact reads_receive hrecv
  | receive_bytes responseBytes arrives =>
    obtain ⟨_, -, heq⟩ :=
      (map_eq_ok (x := (client.receive_bytes responseBytes arrives).2.2)).mp hres
    exact absurd heq (by simp)

theorem System.reads_exec {s : System} {call : System.Call} {m : Message}
    (h : System.returned (s.exec call).2 = some m) :
    Reads call.arrives s.socket.log (s.exec call).1.socket.log m := by
  have hres := System.message_of_returned h
  cases call with
  | send bytes outcome =>
    obtain ⟨_, -, heq⟩ := (map_eq_ok (x := (s.send bytes outcome).2)).mp hres
    exact absurd heq (by simp)
  | sendMessage message bytes outcome =>
    obtain ⟨_, -, heq⟩ := (map_eq_ok (x := (s.sendMessage message bytes outcome).2)).mp hres
    exact absurd heq (by simp)
  | receive block arrives =>
    obtain ⟨_, hrecv, heq⟩ := (map_eq_ok (x := (s.receive block arrives).2)).mp hres
    obtain rfl := Returned.message.inj heq
    exact reads_receive hrecv
  | blocking_receive arrives =>
    obtain ⟨_, hrecv, heq⟩ := (map_eq_ok (x := (s.receive true arrives).2)).mp hres
    obtain rfl := Returned.message.inj heq
    exact reads_receive hrecv
  | receive_bytes responseBytes arrives =>
    obtain ⟨_, -, heq⟩ := (map_eq_ok (x := (s.receive_bytes responseBytes arrives).2.2)).mp hres
    exact absurd heq (by simp)

theorem Pclick.Client.reads_exec {client : Pclick.Client} {call : Pclick.Client.Call} {m : Message}
    (h : Server.returned (client.exec call).2 = some m) :
    Reads call.arrives client.socket.log (client.exec call).1.socket.log m := by
  have hres := Server.received_of_returned h
  cases call with
  | recv block arrives =>
    obtain ⟨_, hrecv, heq⟩ := (map_eq_ok (x := (client.recv block arrives).2)).mp hres
    obtain rfl := Server.Returned.received.inj heq
    exact reads_recv hrecv
  | send message serialized outcome =>
    obtain ⟨_, -, heq⟩ := (map_eq_ok (x := (client.send message serialized outcome).2)).mp hres
    exact absurd heq (by simp)

theorem Pclick.Server.reads_exec {server : Pclick.Server} {call : Pclick.Server.Call} {m : Message}
    (h : returned (server.exec call).2 = some m) :
    Reads call.arrives server.socket.log (server.exec call).1.socket.log m := by
  have hres := received_of_returned h
  cases call with
  | recv arrives =>
    obtain ⟨_, hrecv, heq⟩ := (map_eq_ok (x := (server.recv arrives).2)).mp hres
    obtain rfl := Returned.received.inj heq
    exact reads_recv hrecv
  | recv_blocking arrives =>
    obtain ⟨_, hrecv, heq⟩ := (map_eq_ok (x := (server.recv_blocking arrives).2)).mp hres
    obtain rfl := Option.some.inj (Returned.received.inj heq)
    exact reads_recv_blocking hrecv
  | send message serialized outcome =>
    obtain ⟨_, -, heq⟩ := (map_eq_ok (x := (server.send message serialized outcome).2)).mp hres
    exact absurd heq (by simp)
  | is_updated =>
    obtain ⟨_, -, heq⟩ := (map_eq_ok (x := server.is_updated.2)).mp hres
    exact absurd heq (by simp)

end

/-- The bytes are an encoding from which the message can be read back. -/
structure Encodes (m : Message) (b : Bytes) : Prop where
  tagged : m.Tagged
  utf8 : m.cls.schema.Utf8 m.pm
  small : m.cls.schema.byteSize m.pm ≤ maxSize
  serialized : serializeToString m b

theorem Encodes.fromBytes_eq {m : Message} {b : Bytes} (h : Encodes m b) : fromBytes b = .ok m :=
  fromBytes_of_serializes h.tagged h.utf8 h.small h.serialized

theorem Encodes.from_bytes_eq [Pclick.Runtime] {m : Message} {b : Bytes} (h : Encodes m b) :
    Pclick.from_bytes b = .ok m :=
  Pclick.from_bytes_of_serialized h.tagged h.utf8 h.small h.serialized

/-- It is the same message to both serializers. -/
theorem Encodes.eq_of_decodes [Pclick.Runtime] {m m' : Message} {b : Bytes} (h : Encodes m b)
    (hb : Decodes b m') : m' = m := by
  rcases hb with hb | hb
  · exact Except.ok.inj (hb.symm.trans h.fromBytes_eq)
  · exact Except.ok.inj (hb.symm.trans h.from_bytes_eq)

namespace Conversation

/-- The messages that the calls of a side returned, in order. -/
def returned (side : Side) (calls : List (Side × Option Message)) : List Message :=
  calls.filterMap fun call => if call.1 = side then call.2 else none

section

variable {c c' : Conversation} {calls : List (Side × Option Message)} {side : Side}

theorem returned_snoc (side side' : Side) (got : Option Message) :
    returned side (calls ++ [(side', got)]) =
      returned side calls ++ (if side' = side then got else none).toList := by
  rw [returned, List.filterMap_append, returned]
  congr 1

/-- What is on the way next follows what was received. -/
theorem getElem?_of_head?_onTheWay {b : Bytes} (h : (c.onTheWay side).head? = some b) :
    (sents (c.log side.other))[(receiveds (c.log side)).length]? = some b := by
  cases side with
  | client => rwa [onTheWay, Link.replies, List.head?_drop] at h
  | server => rwa [onTheWay, Link.requests, List.head?_drop] at h

theorem exists_getElem?_of_forall₂ {α β : Type} {R : α → β → Prop} {as : List α} {bs : List β}
    (h : List.Forall₂ R as bs) {i : ℕ} {b : β} (hb : bs[i]? = some b) :
    ∃ a, as[i]? = some a ∧ R a b := by
  induction h generalizing i with
  | nil => exact absurd hb (by simp)
  | cons hR _ ih =>
    cases i with
    | zero =>
      obtain rfl := Option.some.inj hb
      exact ⟨_, rfl, hR⟩
    | succ i => exact ih hb

variable [Pclick.Runtime]

theorem Step.isPrefix {side' : Side} {got : Option Message} (h : c.Step side' got c')
    (side : Side) : c.log side <+: c'.log side := by
  cases h with
  | client arrives got client hcall hnext =>
    cases side with
    | client => exact hcall.grows.isPrefix
    | server => exact List.prefix_rfl
  | server arrives got server hcall hnext =>
    cases side with
    | client => exact List.prefix_rfl
    | server => exact hcall.grows.isPrefix

/-- A call that returns a message takes it off the socket; it is the next on the way. -/
theorem Step.reads {m : Message} (h : c.Step side (some m) c') :
    ∃ b, (c.onTheWay side).head? = some b ∧ c'.log side = c.log side ++ [.received b] ∧
      Decodes b m := by
  generalize hgot : some m = got at h
  cases h with
  | client arrives got client hcall hnext =>
    have hreads : Reads arrives c.client.socket.log client.socket.log m := by
      generalize hold : c.client = old at hcall
      cases hcall with
      | cpp client call => exact Client.Connected.reads_exec hgot.symm
      | python client call => exact Pclick.Client.reads_exec hgot.symm
    obtain ⟨b, harrives, hlog, hb⟩ := hreads
    exact ⟨b, hnext b harrives, hlog, hb⟩
  | server arrives got server hcall hnext =>
    have hreads : Reads arrives c.server.socket.log server.socket.log m := by
      generalize hold : c.server = old at hcall
      cases hcall with
      | cpp system call => exact System.reads_exec hgot.symm
      | python server call => exact Pclick.Server.reads_exec hgot.symm
    obtain ⟨b, harrives, hlog, hb⟩ := hreads
    exact ⟨b, hnext b harrives, hlog, hb⟩

theorem returned_sublist (h : c.Runs calls c') {messages : List Message}
    {sent : List Bytes} (hbefore : sents (c'.log side.other) <+: sent)
    (hsent : List.Forall₂ Encodes messages sent) :
    (returned side calls).Sublist (messages.take (receiveds (c'.log side)).length) := by
  -- along the run; what a call receives is the next of what was sent
  induction h with
  | nil => exact List.nil_sublist _
  | @snoc calls side' got c' c'' _ hstep ih =>
    have ih := ih ((sents_isPrefix (hstep.isPrefix side.other)).trans hbefore)
    have hmore : (messages.take (receiveds (c'.log side)).length).Sublist
        (messages.take (receiveds (c''.log side)).length) :=
      (List.take_prefix_take_left (receiveds_isPrefix (hstep.isPrefix side)).length_le).sublist
    rw [returned_snoc]
    split
    · next hside =>
      obtain rfl := hside
      cases got with
      | none => simpa using ih.trans hmore
      | some m =>
        obtain ⟨b, hhead, hlog, hb⟩ := hstep.reads
        have hnext : sent[(receiveds (c'.log side')).length]? = some b := by
          have hget := getElem?_of_head?_onTheWay hhead
          obtain ⟨rest, hrest⟩ := (sents_isPrefix (hstep.isPrefix side'.other)).trans hbefore
          rw [← hrest, List.getElem?_append_left (List.getElem?_eq_some_iff.mp hget).1]
          exact hget
        obtain ⟨m', hm', henc⟩ := exists_getElem?_of_forall₂ hsent hnext
        rw [← henc.eq_of_decodes hb] at hm'
        have hlen : (receiveds (c''.log side')).length = (receiveds (c'.log side')).length + 1 := by
          rw [hlog, receiveds_append, List.length_append]
          rfl
        rw [hlen, List.take_add_one, hm']
        exact ih.append (List.Sublist.refl [m])
    · simpa using ih.trans hmore

/-- **The messages that are returned are those that were sent.**  If all that one side
sent are encodings of messages, the messages that the calls of the other side return
are among the first of these, in order and none twice; they are just these if every
message it took off its socket was returned. -/
theorem delivers (h : c.Runs calls c') (side : Side) {messages : List Message}
    (hsent : List.Forall₂ Encodes messages (sents (c'.log side.other))) :
    (returned side calls).Sublist (messages.take (receiveds (c'.log side)).length) ∧
      ((returned side calls).length = (receiveds (c'.log side)).length →
        returned side calls <+: messages) := by
  have hsub := returned_sublist h List.prefix_rfl hsent
  refine ⟨hsub, fun hlen => ?_⟩
  rw [hsub.eq_of_length_le (by rw [hlen]; exact List.length_take_le _ _)]
  exact List.take_prefix _ messages

end

/-- A ResetMessage is sent, and returned by the call that receives it. -/
theorem delivers_reset : let _ := Pclick.Runtime.cpp
    ∃ c', start.Runs
      [(.client, none), (.server, some ⟨.resetMessage, { messageType := 4 }⟩)] c' ∧
    returned .server
        [(.client, none), (.server, some ⟨.resetMessage, { messageType := 4 }⟩)] <+:
      [⟨.resetMessage, { messageType := 4 }⟩] := by
  intro _
  have h₁ := Runs.snoc (c := start) .nil
    (.client .again none _ (.cpp ⟨Req.fresh⟩ (.send [8, 4] (.done ()))) (by simp))
  have h₂ := Runs.snoc h₁ (.server (.done [8, 4]) (some ⟨.resetMessage, { messageType := 4 }⟩) _
    (.cpp .bound (.receive true (.done [8, 4]))) (by rintro _ ⟨⟩; rfl))
  have hsmall : Protobuf.ResetMessage.schema.byteSize { messageType := 4 } ≤ maxSize := by decide
  have henc : Encodes ⟨.resetMessage, { messageType := 4 }⟩ [8, 4] :=
    ⟨rfl, List.forall_mem_singleton.mpr trivial, hsmall,
      (serializeToString_iff (m := ⟨.resetMessage, { messageType := 4 }⟩) hsmall).mpr
        (Protobuf.ResetMessage.schema_lawful.serializes_serialize _)⟩
  exact ⟨_, h₂, (delivers h₂ .server (.cons henc .nil)).2 rfl⟩

end Conversation

end Click
