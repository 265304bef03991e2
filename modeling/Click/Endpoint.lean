/-
Receiving at the two endpoints.

Server and client each receive in two ways: as a message, through a `zmq::message_t`
that grows to what arrives, or as bytes, into a string of the caller's.  ZeroMQ is
outside the model: each call is given what the socket delivers to it.

The calls that receive bytes end in `responseBytes.copy(dest, n)`, which copies out
of the string.

* `receiveBytes_of_message`, `receive_of_message` — what the two ways make of one
  delivery;
* `rawAgrees_iff` — they agree exactly when nothing is delivered or the string
  happens to hold the delivered bytes already.
-/
import Click.MessageSerializer

open Proto

namespace Click

/-- What the socket does in a call of `recv`. -/
inductive Delivery
  /-- A single-part message of these bytes is taken off the queue. -/
  | message (b : Bytes)
  /-- Nothing is waiting, or the wait timed out. -/
  | again
  /-- `zmq::error_t` is thrown. -/
  | error
  deriving DecidableEq

/-- `recv` into a `zmq::message_t`: the message, and the size received if any. -/
def Delivery.recvMessage : Delivery → Except Fault (Bytes × Option ℕ)
  | .message b => .ok (b, some b.length)
  | .again => .ok ([], none)
  | .error => .error .socketError

/-- `recv` into a buffer, which is not grown: what exceeds it is cut off. -/
def Delivery.recvBuffer (buf : Bytes) : Delivery → Except Fault (Bytes × Option ℕ)
  | .message b => .ok (b.take buf.length ++ buf.drop b.length, some (min b.length buf.length))
  | .again => .ok (buf, none)
  | .error => .error .socketError

/-- `std::string::copy(dest, count)`: `dest` with the front of `s` copied over
it.  The string itself is `const`. -/
def stringCopy (s dest : Bytes) (count : ℕ) : Bytes :=
  s.take count ++ dest.drop (min count s.length)

/-! ### Server -/

structure Server where
  sendIsNextAction : Bool := false
  deriving DecidableEq

namespace Server

variable (server : Server)

/-- `Server::receive_bytes`: the server, the caller's string and the result. -/
def receive_bytes (d : Delivery) (responseBytes : Bytes) : Server × Bytes × Except Fault Bool :=
  match d.recvMessage with
  | .error f => (server, responseBytes, .error f)
  | .ok (msg, res) =>
    -- the string is the source of the copy, not its destination
    let _msg := stringCopy responseBytes msg msg.length
    let server := if res.isSome then { server with sendIsNextAction := true } else server
    (server, responseBytes, .ok res.isSome)

/-- `Server::receive`; `none` is the empty pointer. -/
def receive (d : Delivery) : Server × Except Fault (Option Message) :=
  match d.recvMessage with
  | .error f => (server, .error f)
  | .ok (msg, status) =>
    if status.isSome then
      ({ server with sendIsNextAction := true }, (fromBytes msg).map some)
    else (server, .ok none)

end Server

/-! ### Client -/

namespace Client

/-- `Client::receive(std::string&)`: the caller's string and the result.  The
buffer `recv` is given is default-constructed, of size zero. -/
def receive_bytes (d : Delivery) (responseBytes : Bytes) : Bytes × Except Fault Bool :=
  match d.recvBuffer [] with
  | .error f => (responseBytes, .error f)
  | .ok (buf, res) =>
    let _buf := stringCopy responseBytes buf buf.length
    (responseBytes, .ok res.isSome)

/-- `Client::receive(bool)`. -/
def receive (d : Delivery) : Except Fault (Option Message) :=
  match d.recvMessage with
  | .error f => .error f
  | .ok (msg, status) => if status.isSome then (fromBytes msg).map some else .ok none

end Client

/-! ### The two ways to receive -/

/-- One end of the connection. -/
inductive Endpoint
  | server (srv : Server)
  | client

namespace Endpoint

/-- The caller's string and the result of receiving bytes. -/
def receiveBytes (e : Endpoint) (d : Delivery) (responseBytes : Bytes) :
    Bytes × Except Fault Bool :=
  match e with
  | .server srv => (srv.receive_bytes d responseBytes).2
  | .client => Client.receive_bytes d responseBytes

/-- The result of receiving a message. -/
def receive (e : Endpoint) (d : Delivery) : Except Fault (Option Message) :=
  match e with
  | .server srv => (srv.receive d).2
  | .client => Client.receive d

/-- Neither endpoint puts anything into the string. -/
theorem receiveBytes_of_message (e : Endpoint) (b s : Bytes) :
    e.receiveBytes (.message b) s = (s, .ok true) := by
  cases e <;> rfl

theorem receiveBytes_of_again (e : Endpoint) (s : Bytes) :
    e.receiveBytes .again s = (s, .ok false) := by
  cases e <;> rfl

theorem receiveBytes_of_error (e : Endpoint) (s : Bytes) :
    e.receiveBytes .error s = (s, .error .socketError) := by
  cases e <;> rfl

theorem receive_of_message (e : Endpoint) (b : Bytes) :
    e.receive (.message b) = (fromBytes b).map some := by
  cases e <;> rfl

/-- Receiving bytes delivers what receiving a message does: after a call that
returns true the string holds the bytes delivered, from which the message is
read, and after one that returns false it is as before. -/
def RawAgrees (e : Endpoint) (d : Delivery) (s : Bytes) : Prop :=
  ∀ s' res, e.receiveBytes d s = (s', .ok res) →
    (res = true → d = .message s' ∧ (fromBytes s').map some = e.receive d) ∧
      (res = false → s' = s)

/-- **When the two ways agree**: exactly when the string already holds the bytes
delivered, if any are. -/
theorem rawAgrees_iff (e : Endpoint) (d : Delivery) (s : Bytes) :
    RawAgrees e d s ↔ ∀ b, d = .message b → s = b := by
  cases d with
  | message b =>
    rw [RawAgrees, receiveBytes_of_message, receive_of_message]
    constructor
    · intro h c hc
      rw [← Delivery.message.inj hc]
      exact (Delivery.message.inj ((h s true rfl).1 rfl).1).symm
    · intro h s' res heq
      obtain ⟨rfl, hres⟩ := Prod.mk.inj heq
      obtain rfl := Except.ok.inj hres
      obtain rfl := h b rfl
      exact ⟨fun _ => ⟨rfl, rfl⟩, fun hc => absurd hc (by simp)⟩
  | again =>
    refine ⟨fun _ b hb => absurd hb (by simp), fun _ s' res heq => ?_⟩
    rw [receiveBytes_of_again] at heq
    obtain ⟨rfl, hres⟩ := Prod.mk.inj heq
    obtain rfl := Except.ok.inj hres
    exact ⟨fun hc => absurd hc (by simp), fun _ => rfl⟩
  | error =>
    refine ⟨fun _ b hb => absurd hb (by simp), fun _ s' res heq => ?_⟩
    rw [receiveBytes_of_error] at heq
    exact absurd (Prod.mk.inj heq).2 (by simp)

theorem not_rawAgrees : ¬ ∀ e d s, RawAgrees e d s := by
  intro h
  have hrecv := (h .client (.message [1]) [] [] true rfl).1 rfl
  exact absurd hrecv.1 (by decide)

end Endpoint

end Click
