/-
The clients at their sockets.

Neither client keeps any state beside its REQ socket.  What arrives and what becomes
of a request is handed in with each call, as it is for the servers; a call that
throws leaves the client as it was at the throw.

* `Client.Connected.grows_exec`, `Pclick.Client.grows_exec` — a call adds one event at
  most to the history of the socket.
-/
import Click.Server
import Click.SizeCollector
import Click.Zmq.Req

open Proto Zmq

namespace Click

/-! ### The C++ client -/

namespace Client

/-- A client after `connect`. -/
structure Connected where
  socket : Req Bytes

namespace Connected

/-- What `Client::send` makes of the outcome at the socket. -/
def sendResult : Outcome Unit → Except Fault Bool
  | .done _ => .ok true
  | .again => .ok false
  | .error => .error .socketError

variable (client : Connected)

/-- `Client::send(const std::string&)`. -/
def send (bytes : Bytes) (outcome : Outcome Unit) : Connected × Except Fault Bool :=
  let (socket, sent) := client.socket.send bytes outcome
  (⟨socket⟩, sendResult sent)

/-- `Client::send(const Message&)`. -/
def sendMessage (message : Message) (bytes : { out // serializeToString message out })
    (outcome : Outcome Unit) : Connected × Except Fault Bool :=
  let (socket, sent) := client.socket.send bytes.1 outcome
  (⟨socket⟩, sendResult sent)

/-- `Client::receive(bool)`.  Whether it may block decides what can arrive, not what
is made of it. -/
def receive (_block : Bool) (arrives : Outcome Bytes) :
    Connected × Except Fault (Option Message) :=
  let (socket, got) := client.socket.recv arrives
  (⟨socket⟩, Client.receive (.ofOutcome got))

/-- `Client::blockingReceive`. -/
def blockingReceive (arrives : Outcome Bytes) : Connected × Except Fault (Option Message) :=
  client.receive true arrives

/-- `Client::receive(std::string&)`: the client, the caller's string and the result. -/
def receive_bytes (responseBytes : Bytes) (arrives : Outcome Bytes) :
    Connected × Bytes × Except Fault Bool :=
  let (socket, got) := client.socket.recv arrives
  (⟨socket⟩, Client.receive_bytes (.ofOutcome got) responseBytes)

end Connected

/-- The calls between `connect` and `terminate`, each with the outcome the socket has
in store for it. -/
inductive Call
  | send (bytes : Bytes) (outcome : Outcome Unit)
  | sendMessage (message : Message) (bytes : { out // serializeToString message out })
      (outcome : Outcome Unit)
  | receive (block : Bool) (arrives : Outcome Bytes)
  | blockingReceive (arrives : Outcome Bytes)
  | receive_bytes (responseBytes : Bytes) (arrives : Outcome Bytes)

/-- What there is to receive for the call. -/
def Call.arrives : Call → Outcome Bytes
  | .receive _ arrives | .blockingReceive arrives | .receive_bytes _ arrives => arrives
  | .send .. | .sendMessage .. => .again

namespace Connected

/-- One call. -/
def exec (client : Connected) : Call → Connected × Except Fault System.Returned
  | .send bytes outcome =>
    let (client, res) := client.send bytes outcome
    (client, res.map .success)
  | .sendMessage message bytes outcome =>
    let (client, res) := client.sendMessage message bytes outcome
    (client, res.map .success)
  | .receive block arrives =>
    let (client, res) := client.receive block arrives
    (client, res.map .message)
  | .blockingReceive arrives =>
    let (client, res) := client.blockingReceive arrives
    (client, res.map .message)
  | .receive_bytes responseBytes arrives =>
    let (client, dest, res) := client.receive_bytes responseBytes arrives
    (client, res.map (.bytes dest))

/-- **What a call does** to the history of the socket. -/
theorem grows_exec (client : Connected) (call : Call) :
    Grows call.arrives client.socket.log (client.exec call).1.socket.log := by
  cases call with
  | send bytes outcome => exact client.socket.grows_send bytes outcome _
  | sendMessage message bytes outcome => exact client.socket.grows_send bytes.1 outcome _
  | receive block arrives => exact client.socket.grows_recv arrives
  | blockingReceive arrives => exact client.socket.grows_recv arrives
  | receive_bytes responseBytes arrives => exact client.socket.grows_recv arrives

variable {client : Connected}

theorem sendMessage_done (h : client.socket.mayAsk = true) (message : Message)
    (bytes : { out // serializeToString message out }) (u : Unit) :
    client.sendMessage message bytes (.done u) =
      (⟨client.socket.push (.sent bytes.1) h⟩, .ok true) := by
  rw [sendMessage, Req.send_done h]
  rfl

theorem receive_done (h : client.socket.mayAsk = false) (block : Bool) (reply : Bytes) :
    client.receive block (.done reply) =
      (⟨client.socket.push (.received reply) h⟩, (fromBytes reply).map some) := by
  rw [receive, Req.recv_done h]
  rfl

theorem receive_again (h : client.socket.mayAsk = false) (block : Bool) :
    client.receive block .again = (client, .ok none) := by
  rw [receive, Req.recv_again h]
  rfl

end Connected

end Client

/-! ### The Python client -/

namespace Pclick

/-- A client after `connect`. -/
structure Client where
  socket : Req Bytes

namespace Client

variable (client : Client)

/-- `Client.recv`.  `zmq.Again` is caught where the call does not block. -/
def recv [Runtime] (block : Bool) (arrives : Outcome Bytes) :
    Client × Except Raised (Option Message) :=
  let (socket, got) := client.socket.recv arrives
  match got with
  | .done bytes => (⟨socket⟩, ((from_bytes bytes).mapError .fromBytes).map some)
  | .again => (⟨socket⟩, if block then .error .again else .ok none)
  | .error => (⟨socket⟩, .error .zmqError)

/-- `Client.send`. -/
def send (message : Message) (serialized : { out // Click.serializeToString message out })
    (outcome : Outcome Unit) : Client × Except Raised Unit :=
  match Server.serializeToString message serialized with
  | .error e => (client, .error e)
  | .ok serialized =>
    let (socket, sent) := client.socket.send serialized outcome
    match sent with
    | .done _ => (⟨socket⟩, .ok ())
    | .again => (⟨socket⟩, .error .again)
    | .error => (⟨socket⟩, .error .zmqError)

/-- The calls between `connect` and `stop`, each with the outcome the socket has in
store for it. -/
inductive Call
  | recv (block : Bool) (arrives : Outcome Bytes)
  | send (message : Message) (serialized : { out // Click.serializeToString message out })
      (outcome : Outcome Unit)

/-- What there is to receive for the call. -/
def Call.arrives : Call → Outcome Bytes
  | .recv _ arrives => arrives
  | .send .. => .again

def exec [Runtime] : Call → Client × Except Raised Server.Returned
  | .recv block arrives =>
    let (client, res) := client.recv block arrives
    (client, res.map .received)
  | .send message serialized outcome =>
    let (client, res) := client.send message serialized outcome
    (client, res.map fun _ => .sent)

/-- **What a call does** to the history of the socket. -/
theorem grows_exec [Runtime] (call : Call) :
    Grows call.arrives client.socket.log (client.exec call).1.socket.log := by
  cases call with
  | recv block arrives =>
    have hgrows := client.socket.grows_recv arrives
    simp only [exec, recv]
    rcases hr : client.socket.recv arrives with ⟨socket, _ | _ | _⟩ <;> rw [hr] at hgrows <;>
      exact hgrows
  | send message serialized outcome =>
    rcases hser : Server.serializeToString message serialized with e | bytes
    · simpa only [exec, send, hser] using .stays
    · have hgrows := client.socket.grows_send bytes outcome .again
      simp only [exec, send, hser]
      rcases hr : client.socket.send bytes outcome with ⟨socket, _ | _ | _⟩ <;>
        rw [hr] at hgrows <;> exact hgrows

variable {client}

theorem recv_done [Runtime] (h : client.socket.mayAsk = false) (block : Bool) (reply : Bytes) :
    client.recv block (.done reply) = (⟨client.socket.push (.received reply) h⟩,
      ((from_bytes reply).mapError .fromBytes).map some) := by
  rw [recv, Req.recv_done h]

/-- A message that is not too large is sent. -/
theorem send_done (h : client.socket.mayAsk = true) {message : Message}
    (hmax : message.cls.schema.byteSize message.pm ≤ maxSize)
    (serialized : { out // Click.serializeToString message out }) (u : Unit) :
    client.send message serialized (.done u) =
      (⟨client.socket.push (.sent serialized.1) h⟩, .ok ()) := by
  have hser : Server.serializeToString message serialized = .ok serialized.1 := if_pos hmax
  simp only [send, hser, Req.send_done h]

end Client

end Pclick

end Click
