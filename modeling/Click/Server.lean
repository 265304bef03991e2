/-
The C++ server at its socket.

`Server` keeps a flag that shadows the state of its REP socket, set and cleared by
hand in the methods that receive and send.  Here its methods run against the socket
itself; what arrives and what becomes of a reply is handed in with each call.  A
call that throws leaves server and socket as they were at the throw, and the next
call goes on from there.

* `System.exec_of_mustSend_ne` — out of turn a call throws and changes nothing but
  the history;
* `System.exec_of_mustSend_eq` — in its turn a call moves flag and socket together,
  or neither;
* `System.mustSend_iff` — after any calls the flag tells whether a request is
  unanswered, and which calls the socket refuses.
-/
import Click.Endpoint
import Click.Zmq.Rep

open Proto Zmq

namespace Click

/-- What the socket does in a call of `recv`, by how the operation ends. -/
def Delivery.ofOutcome : Outcome Bytes → Delivery
  | .done b => .message b
  | .again => .again
  | .error => .error

namespace Server

variable (server : Server)

/-- What `Server::send` does once the socket is done with the bytes. -/
def send (sent : Outcome Unit) : Server × Except Fault Bool :=
  match sent with
  | .done _ => ({ server with sendIsNextAction := false }, .ok true)
  | .again => (server, .ok false)
  | .error => (server, .error .socketError)

/-- `Server::must_send`. -/
def must_send : Bool := server.sendIsNextAction

/-- `Server::must_recv`. -/
def must_recv : Bool := !server.sendIsNextAction

/-- `Server::blocking_receive`. -/
def blocking_receive (d : Delivery) : Server × Except Fault (Option Message) := server.receive d

end Server

/-- A server and its socket. -/
structure System where
  server : Server
  socket : Rep Bytes

namespace System

/-- After `bind`. -/
def bound : System := ⟨{}, Rep.fresh⟩

/-- The calls between `bind` and `terminate`, each with the outcome the socket has
in store for it.  A message is serialized to some encoding of it. -/
inductive Call
  | send (bytes : Bytes) (outcome : Outcome Unit)
  | sendMessage (message : Message) (bytes : { out // serializeToString message out })
      (outcome : Outcome Unit)
  | receive (block : Bool) (arrives : Outcome Bytes)
  | blocking_receive (arrives : Outcome Bytes)
  | receive_bytes (responseBytes : Bytes) (arrives : Outcome Bytes)

/-- The call is one of the two that send. -/
def Call.sends : Call → Bool
  | .send .. | .sendMessage .. => true
  | .receive .. | .blocking_receive .. | .receive_bytes .. => false

/-- What a call returns. -/
inductive Returned
  | success (sent : Bool)
  | message (m : Option Message)
  | bytes (responseBytes : Bytes) (received : Bool)
  deriving DecidableEq

variable (s : System)

/-- `Server::send(const std::string&)`. -/
def send (bytes : Bytes) (outcome : Outcome Unit) : System × Except Fault Bool :=
  let (socket, sent) := s.socket.send bytes outcome
  let (server, res) := s.server.send sent
  (⟨server, socket⟩, res)

/-- `Server::send(const Message&)`. -/
def sendMessage (message : Message) (bytes : { out // serializeToString message out })
    (outcome : Outcome Unit) : System × Except Fault Bool :=
  let (socket, sent) := s.socket.send bytes.1 outcome
  let (server, res) := s.server.send sent
  (⟨server, socket⟩, res)

/-- `Server::receive`.  Whether it may block decides what can arrive, not what is
made of it. -/
def receive (_block : Bool) (arrives : Outcome Bytes) :
    System × Except Fault (Option Message) :=
  let (socket, got) := s.socket.recv arrives
  let (server, res) := s.server.receive (.ofOutcome got)
  (⟨server, socket⟩, res)

/-- `Server::blocking_receive`. -/
def blocking_receive (arrives : Outcome Bytes) : System × Except Fault (Option Message) :=
  let (socket, got) := s.socket.recv arrives
  let (server, res) := s.server.blocking_receive (.ofOutcome got)
  (⟨server, socket⟩, res)

/-- `Server::receive_bytes`. -/
def receive_bytes (responseBytes : Bytes) (arrives : Outcome Bytes) :
    System × Bytes × Except Fault Bool :=
  let (socket, got) := s.socket.recv arrives
  let (server, dest, res) := s.server.receive_bytes (.ofOutcome got) responseBytes
  (⟨server, socket⟩, dest, res)

/-- One call. -/
def exec : Call → System × Except Fault Returned
  | .send bytes outcome =>
    let (s', res) := s.send bytes outcome
    (s', res.map .success)
  | .sendMessage message bytes outcome =>
    let (s', res) := s.sendMessage message bytes outcome
    (s', res.map .success)
  | .receive block arrives =>
    let (s', res) := s.receive block arrives
    (s', res.map .message)
  | .blocking_receive arrives =>
    let (s', res) := s.blocking_receive arrives
    (s', res.map .message)
  | .receive_bytes responseBytes arrives =>
    let (s', dest, res) := s.receive_bytes responseBytes arrives
    (s', res.map (.bytes dest))

/-- The system after calls, whether or not they threw. -/
def run (calls : List Call) : System := calls.foldl (fun s call => (s.exec call).1) bound

/-- The flag agrees with the socket. -/
def InStep : Prop := s.server.must_send = s.socket.owes

variable {s}

theorem inStep_bound : bound.InStep := rfl

/-! ### One operation -/

/-- The socket refuses an operation. -/
def refuse (s : System) : System := ⟨s.server, s.socket.push .refused trivial⟩

/-- The socket does an operation, and the flag follows it. -/
def advance (s : System) (e : Event Bytes) (h : e.InTurn s.socket.owes) : System :=
  ⟨{ s.server with sendIsNextAction := e.owes s.socket.owes }, s.socket.push e h⟩

theorem send_of_not_owes (h : s.socket.owes = false) (bytes : Bytes) (outcome : Outcome Unit) :
    s.send bytes outcome = (s.refuse, .error .socketError) := by
  rw [send, Rep.send_of_not_owes h]
  rfl

/-- A message is sent as its encoding is. -/
theorem sendMessage_eq (message : Message) (bytes : { out // serializeToString message out })
    (outcome : Outcome Unit) : s.sendMessage message bytes outcome = s.send bytes.1 outcome := rfl

theorem send_done (h : s.socket.owes = true) (bytes : Bytes) (u : Unit) :
    s.send bytes (.done u) = (s.advance (.sent bytes) h, .ok true) := by
  rw [send, Rep.send_done h]
  rfl

theorem send_of_owes (h : s.socket.owes = true) (bytes : Bytes) (outcome : Outcome Unit) :
    (s.send bytes outcome).1 = s ∨ (s.send bytes outcome).1 = s.advance (.sent bytes) h := by
  cases outcome with
  | done u => exact .inr (by rw [send_done h])
  | again => exact .inl (by rw [send, Rep.send_again h]; rfl)
  | error => exact .inl (by rw [send, Rep.send_error h]; rfl)

theorem blocking_receive_eq (arrives : Outcome Bytes) :
    s.blocking_receive arrives = s.receive true arrives := rfl

theorem receive_of_owes (h : s.socket.owes = true) (block : Bool) (arrives : Outcome Bytes) :
    s.receive block arrives = (s.refuse, .error .socketError) := by
  rw [receive, Rep.recv_of_owes h]
  rfl

/-- The system has moved on even if the request then cannot be read. -/
theorem receive_done (h : s.socket.owes = false) (block : Bool) (request : Bytes) :
    s.receive block (.done request) =
      (s.advance (.received request) h, (fromBytes request).map some) := by
  rw [receive, Rep.recv_done h]
  rfl

theorem receive_again (h : s.socket.owes = false) (block : Bool) :
    s.receive block .again = (s, .ok none) := by
  rw [receive, Rep.recv_again h]
  rfl

theorem receive_of_not_owes (h : s.socket.owes = false) (block : Bool)
    (arrives : Outcome Bytes) :
    (s.receive block arrives).1 = s ∨
      ∃ request, (s.receive block arrives).1 = s.advance (.received request) h := by
  cases arrives with
  | done request => exact .inr ⟨request, by rw [receive_done h]⟩
  | again => exact .inl (by rw [receive_again h])
  | error => exact .inl (by rw [receive, Rep.recv_error h]; rfl)

/-- Bytes are taken off the socket as a message is. -/
theorem receive_bytes_fst (responseBytes : Bytes) (arrives : Outcome Bytes) :
    (s.receive_bytes responseBytes arrives).1 = (s.receive false arrives).1 := by
  simp only [receive_bytes, receive]
  rcases s.socket.recv arrives with ⟨socket, _ | _ | _⟩ <;> rfl

theorem receive_bytes_of_owes (h : s.socket.owes = true) (responseBytes : Bytes)
    (arrives : Outcome Bytes) :
    s.receive_bytes responseBytes arrives = (s.refuse, responseBytes, .error .socketError) := by
  rw [receive_bytes, Rep.recv_of_owes h]
  rfl

/-! ### One call -/

theorem exec_of_mustSend_ne (hs : s.InStep) {call : Call} (h : call.sends ≠ s.server.must_send) :
    s.exec call = (s.refuse, .error .socketError) := by
  rw [hs] at h
  cases call with
  | send bytes outcome =>
    rw [exec, send_of_not_owes (by simpa [Call.sends] using h)]
    rfl
  | sendMessage message bytes outcome =>
    rw [exec, sendMessage_eq, send_of_not_owes (by simpa [Call.sends] using h)]
    rfl
  | receive block arrives =>
    rw [exec, receive_of_owes (by simpa [Call.sends] using h)]
    rfl
  | blocking_receive arrives =>
    rw [exec, blocking_receive_eq, receive_of_owes (by simpa [Call.sends] using h)]
    rfl
  | receive_bytes responseBytes arrives =>
    rw [exec, receive_bytes_of_owes (by simpa [Call.sends] using h)]
    rfl

/-- **What a call in its turn does to the system**: nothing, or flag and socket
move together. -/
theorem exec_of_mustSend_eq (hs : s.InStep) {call : Call} (h : call.sends = s.server.must_send) :
    (s.exec call).1 = s ∨ ∃ e he, e ≠ .refused ∧ (s.exec call).1 = s.advance e he := by
  rw [hs] at h
  cases call with
  | send bytes outcome =>
    exact (send_of_owes h.symm bytes outcome).imp_right fun heq => ⟨_, _, by simp, heq⟩
  | sendMessage message bytes outcome =>
    exact (send_of_owes h.symm bytes.1 outcome).imp_right fun heq => ⟨_, _, by simp, heq⟩
  | receive block arrives =>
    refine (receive_of_not_owes h.symm block arrives).imp_right ?_
    rintro ⟨request, heq⟩
    exact ⟨_, _, by simp, heq⟩
  | blocking_receive arrives =>
    refine (receive_of_not_owes h.symm true arrives).imp_right ?_
    rintro ⟨request, heq⟩
    exact ⟨_, _, by simp, heq⟩
  | receive_bytes responseBytes arrives =>
    have hrecv := receive_of_not_owes h.symm false arrives
    rw [← receive_bytes_fst responseBytes] at hrecv
    refine hrecv.imp_right ?_
    rintro ⟨request, heq⟩
    exact ⟨_, _, by simp, heq⟩

theorem exec_inStep (hs : s.InStep) (call : Call) : (s.exec call).1.InStep := by
  by_cases h : call.sends = s.server.must_send
  · rcases exec_of_mustSend_eq hs h with heq | ⟨e, he, -, heq⟩
    · rw [heq]
      exact hs
    · rw [heq]
      exact (Rep.owes_push e he).symm
  · rw [exec_of_mustSend_ne hs h]
    exact hs.trans (Rep.owes_push .refused trivial).symm

/-! ### Any calls -/

theorem run_inStep (calls : List Call) : (run calls).InStep := by
  -- along the calls, the latest last
  induction calls using List.reverseRecOn with
  | nil => exact inStep_bound
  | append_singleton calls call ih =>
    rw [run, List.foldl_append]
    exact exec_inStep ih call

/-- The socket refuses a call for being out of turn. -/
def Refuses (s : System) (call : Call) : Prop :=
  (s.exec call).1.socket.log = s.socket.log ++ [.refused]

theorem refuses_iff (hs : s.InStep) (call : Call) :
    s.Refuses call ↔ call.sends ≠ s.server.must_send := by
  constructor
  · intro hlog h
    rw [Refuses] at hlog
    rcases exec_of_mustSend_eq hs h with heq | ⟨e, he, hne, heq⟩
    · rw [heq] at hlog
      exact absurd hlog (by simp)
    · rw [heq] at hlog
      exact hne (List.singleton_injective (List.append_cancel_left hlog))
  · intro h
    rw [Refuses, exec_of_mustSend_ne hs h]
    rfl

/-- **The flag tracks the socket.**  After any calls, with any outcomes, `must_send`
holds exactly when the socket has received a request it has not answered, and
`must_recv` is its negation.  The socket never refuses a call the two advise; it
refuses every other call, which then throws. -/
theorem mustSend_iff (calls : List Call) :
    ((run calls).server.must_send = true ↔ Unanswered (run calls).socket.log) ∧
      (run calls).server.must_recv = !(run calls).server.must_send ∧
      ∀ call, ((run calls).Refuses call ↔ call.sends ≠ (run calls).server.must_send) ∧
        ((run calls).Refuses call → ((run calls).exec call).2 = .error .socketError) := by
  have hs := run_inStep calls
  refine ⟨?_, rfl, fun call => ⟨refuses_iff hs call, fun h => ?_⟩⟩
  · rw [hs]
    exact owes_iff (run calls).socket.log
  · rw [exec_of_mustSend_ne hs ((refuses_iff hs call).mp h)]

-- a poll that finds nothing, a request, and a second receive that throws
example : (run [.receive false .again]).server.must_send = false ∧
    (run [.receive false .again, .receive false (.done [8, 6])]).server.must_send = true ∧
    ((run [.receive false .again, .receive false (.done [8, 6])]).exec
      (.blocking_receive .again)).2 = .error .socketError := by
  decide

end System

end Click
