/-
A conversation can always go on, and in one way.

Of the four operations, a send or a receive at either side, the sockets and the link
leave one at any moment, the next of the exchange under way.  Any other is refused or
finds nothing to receive.  So the two sides cannot block each other, and cannot get
ahead of each other either.

* `Conversation.next_of_can` — an operation that can be done is the next of the phase;
* `Conversation.can_next` — and that one can be done, whichever programs the sides are;
* `Conversation.goes_on` — so there is exactly one.
-/
import Click.Conversation

open Proto Zmq

namespace Click

inductive Operation
  | send
  | receive
  deriving DecidableEq

namespace Operation

/-- The event is the operation. -/
def Is : Operation → Event Bytes → Prop
  | send, e => ∃ b, e = .sent b
  | receive, e => ∃ b, e = .received b

/-- What comes next in an exchange. -/
def next : Phase Bytes → Side × Operation
  | .idle => (.client, send)
  | .asked _ => (.server, receive)
  | .taken _ => (.server, send)
  | .answered .. => (.client, receive)

end Operation

namespace Conversation

/-- Some call of the side does the operation at its socket. -/
def Can [Pclick.Runtime] (c : Conversation) (side : Side) (operation : Operation) : Prop :=
  ∃ got c' e, c.Step side got c' ∧ c'.log side = c.log side ++ [e] ∧ operation.Is e

variable {c : Conversation} {x : Exchanges Bytes}

/-! ### No other operation -/

theorem done_of_grows {arrives : Outcome Bytes} {log log' : List (Event Bytes)} {b : Bytes}
    (h : Grows arrives log log') (hlog : log' = log ++ [.received b]) : arrives = .done b := by
  cases h with
  | stays => exact absurd hlog (by simp)
  | received b' harrives =>
    obtain ⟨⟩ := List.append_cancel_left hlog
    exact harrives
  | sent b' => exact absurd (List.append_cancel_left hlog) (by simp)
  | refused => exact absurd (List.append_cancel_left hlog) (by simp)

/-- **An operation that can be done** is the next of the exchange. -/
theorem next_of_can [Pclick.Runtime] (htracks : c.link.Tracks x) {side : Side}
    {operation : Operation} (h : c.Can side operation) :
    Operation.next x.phase = (side, operation) := by
  obtain ⟨got, c', e, hstep, hlog, hop⟩ := h
  cases hstep with
  | client arrives got client hcall hnext =>
    have hturn := Link.inTurn_of_req (l := c.link) hlog
    cases operation with
    | send =>
      obtain ⟨b, rfl⟩ := hop
      rw [htracks.mayAsk_iff.mp hturn, Operation.next]
    | receive =>
      obtain ⟨b, rfl⟩ := hop
      have hhead := hnext b (done_of_grows hcall.grows hlog)
      rw [onTheWay, htracks.replies_eq] at hhead
      cases hphase : x.phase <;> simp [hphase, Phase.replies] at hhead
      rfl
  | server arrives got server hcall hnext =>
    have hturn := Link.inTurn_of_rep (l := c.link) hlog
    cases operation with
    | send =>
      obtain ⟨b, rfl⟩ := hop
      obtain ⟨request, hphase⟩ := htracks.owes_iff.mp hturn
      rw [hphase, Operation.next]
    | receive =>
      obtain ⟨b, rfl⟩ := hop
      have hhead := hnext b (done_of_grows hcall.grows hlog)
      rw [onTheWay, htracks.requests_eq] at hhead
      cases hphase : x.phase <;> simp [hphase, Phase.requests] at hhead
      rfl

/-! ### That operation -/

end Conversation

/-- A message that either program can send. -/
def resetMessage : Message := ⟨.resetMessage, { messageType := 4 }⟩

theorem resetMessage_small :
    resetMessage.cls.schema.byteSize resetMessage.pm ≤ maxSize := by
  decide

def resetBytes : { out // serializeToString resetMessage out } :=
  ⟨[8, 4], (serializeToString_iff resetMessage_small).mpr
    (Protobuf.ResetMessage.schema_lawful.serializes_serialize { messageType := 4 })⟩

namespace ClientEnd

variable [Pclick.Runtime] {client : ClientEnd}

/-- Either client can send while no reply is awaited. -/
theorem exists_calls_send (h : client.socket.mayAsk = true) :
    ∃ got client' b, client.Calls .again got client' ∧
      client'.socket.log = client.socket.log ++ [.sent b] := by
  cases client with
  | cpp client =>
    refine ⟨_, _, [8, 4], .cpp client (.sendMessage resetMessage resetBytes (.done ())), ?_⟩
    simp only [Client.Connected.exec, Client.Connected.sendMessage_done h]
    rfl
  | python client =>
    refine ⟨_, _, [8, 4], .python client (.send resetMessage resetBytes (.done ())), ?_⟩
    simp only [Pclick.Client.exec, Pclick.Client.send_done h resetMessage_small]
    rfl

/-- Either client takes a reply that is awaited, whatever the bytes. -/
theorem exists_calls_receive (h : client.socket.mayAsk = false) (reply : Bytes) :
    ∃ got client', client.Calls (.done reply) got client' ∧
      client'.socket.log = client.socket.log ++ [.received reply] := by
  cases client with
  | cpp client =>
    refine ⟨_, _, .cpp client (.receive true (.done reply)), ?_⟩
    simp only [Client.Connected.exec, Client.Connected.receive_done h]
    rfl
  | python client =>
    refine ⟨_, _, .python client (.recv true (.done reply)), ?_⟩
    simp only [Pclick.Client.exec, Pclick.Client.recv_done h]
    rfl

end ClientEnd

namespace ServerEnd

variable [Pclick.Runtime] {server : ServerEnd}

/-- Either server can send while it owes a reply. -/
theorem exists_calls_send (h : server.socket.owes = true) :
    ∃ got server' b, server.Calls .again got server' ∧
      server'.socket.log = server.socket.log ++ [.sent b] := by
  cases server with
  | cpp system =>
    refine ⟨_, _, [8, 4], .cpp system (.sendMessage resetMessage resetBytes (.done ())), ?_⟩
    simp only [System.exec, System.sendMessage_eq, System.send_done h]
    rfl
  | python server =>
    refine ⟨_, _, [8, 4], .python server (.send resetMessage resetBytes (.done ())), ?_⟩
    have hser : Pclick.Server.serializeToString resetMessage resetBytes = .ok [8, 4] :=
      if_pos resetMessage_small
    obtain ⟨size_collector, hsize⟩ : ∃ size_collector,
        server.size_collector.sendSize ([8, 4] : Bytes).length = .ok size_collector := by
      cases server.size_collector <;> exact ⟨_, rfl⟩
    have hsend : server.socket.send [8, 4] (.done ()) = _ := Rep.send_done h [8, 4] ()
    simp only [Pclick.Server.exec, Pclick.Server.send, hser, hsize, hsend]
    rfl

/-- Either server takes a request when it owes no reply, whatever the bytes. -/
theorem exists_calls_receive (h : server.socket.owes = false) (request : Bytes) :
    ∃ got server', server.Calls (.done request) got server' ∧
      server'.socket.log = server.socket.log ++ [.received request] := by
  cases server with
  | cpp system =>
    refine ⟨_, _, .cpp system (.receive true (.done request)), ?_⟩
    simp only [System.exec, System.receive_done h]
    rfl
  | python server =>
    refine ⟨_, _, .python server (.recv_blocking (.done request)), ?_⟩
    have hrecv : server.socket.recv (.done request) = _ := Rep.recv_done h request
    simp only [Pclick.Server.exec, Pclick.Server.recv_blocking, Pclick.Server.socketRecv, hrecv]
    rfl

end ServerEnd

namespace Conversation

section

variable [Pclick.Runtime] {c c' : Conversation} {x : Exchanges Bytes}

/-- **The next of the exchange** can be done. -/
theorem can_next (htracks : c.link.Tracks x) :
    c.Can (Operation.next x.phase).1 (Operation.next x.phase).2 := by
  cases hphase : x.phase with
  | idle =>
    obtain ⟨got, client', b, hcall, hlog⟩ :=
      ClientEnd.exists_calls_send (htracks.mayAsk_iff.mpr hphase)
    exact ⟨got, _, .sent b, .client .again got client' hcall (by simp), hlog, b, rfl⟩
  | asked request =>
    have howes : c.server.socket.owes = false := by
      rw [← Bool.not_eq_true]
      exact mt htracks.owes_iff.mp (by simp [hphase])
    obtain ⟨got, server', hcall, hlog⟩ := ServerEnd.exists_calls_receive howes request
    refine ⟨got, _, .received request, .server _ got server' hcall ?_, hlog, request, rfl⟩
    rintro _ ⟨⟩
    rw [onTheWay, htracks.requests_eq, hphase]
    rfl
  | taken request =>
    obtain ⟨got, server', b, hcall, hlog⟩ :=
      ServerEnd.exists_calls_send (htracks.owes_iff.mpr ⟨request, hphase⟩)
    exact ⟨got, _, .sent b, .server .again got server' hcall (by simp), hlog, b, rfl⟩
  | answered request reply =>
    have hask : c.client.socket.mayAsk = false := by
      rw [← Bool.not_eq_true]
      exact mt htracks.mayAsk_iff.mp (by simp [hphase])
    obtain ⟨got, client', hcall, hlog⟩ := ClientEnd.exists_calls_receive hask reply
    refine ⟨got, _, .received reply, .client _ got client' hcall ?_, hlog, reply, rfl⟩
    rintro _ ⟨⟩
    rw [onTheWay, htracks.replies_eq, hphase]
    rfl

/-- **A conversation goes on, and in one way.**  After any calls, exactly one of the four
operations can be done: neither side can be blocked for good, and the two can never both
be at work.  It is the next of the exchange under way. -/
theorem goes_on {calls : List (Side × Option Message)} (hnew : c.New) (h : c.Runs calls c') :
    ∃ x, c'.link.Tracks x ∧ ∀ side operation,
      c'.Can side operation ↔ (side, operation) = Operation.next x.phase := by
  obtain ⟨x, -, htracks⟩ := tracks_of_runs hnew h
  refine ⟨x, htracks, fun side operation => ⟨fun hcan => (next_of_can htracks hcan).symm, ?_⟩⟩
  intro hnext
  have hcan := can_next htracks
  rwa [← hnext] at hcan

end

/-- Once a request was sent, it can be received, and nothing else can be done. -/
theorem goes_on_asked : let _ := Pclick.Runtime.cpp
    ∃ c', start.Runs [(.client, none)] c' ∧
    ∀ side operation, c'.Can side operation ↔ (side, operation) = (.server, .receive) := by
  intro _
  have h := Runs.snoc (c := start) .nil
    (.client .again none _ (.cpp ⟨Req.fresh⟩ (.send [8, 4] (.done ()))) (by simp))
  obtain ⟨x, htracks, hcan⟩ := goes_on (c := start) ⟨rfl, rfl⟩ h
  refine ⟨_, h, fun side operation => ?_⟩
  have hrequests : x.phase.requests = [[8, 4]] := htracks.requests_eq.symm
  rw [hcan]
  cases hphase : x.phase <;> simp [hphase, Phase.requests] at hrequests
  rfl

end Conversation

end Click
