/-
The demo programs make calls.

The demo programs know nothing of their sockets but the calls of `Client` and `Server`.
So a step of a program takes a conversation on by calls of that side, whatever the
program at the other side is.

* `Demoserver.comes_step`, `Pclick.Demo.comes_step`, `Democlient.comes_step`,
  `Pclick.DemoClient.comes_step` — a step of a program is a call, or a few, or none.
-/
import Click.DemoPrograms

open Proto Zmq

namespace Click

namespace Conversation

theorem returned_append (side : Side) (calls calls' : List (Side × Option Message)) :
    returned side (calls ++ calls') = returned side calls ++ returned side calls' :=
  List.filterMap_append

variable [Pclick.Runtime]

/-- Calls lead from one state to the other, and those of the client returned the
messages. -/
def Comes (c : Conversation) (heard : List Message) (c' : Conversation) : Prop :=
  ∃ calls, c.Runs calls c' ∧ returned .client calls = heard

variable {c c' c'' : Conversation}

theorem Comes.refl (c : Conversation) : c.Comes [] c := ⟨[], .nil, rfl⟩

theorem Runs.trans {calls calls' : List (Side × Option Message)} (h : c.Runs calls c')
    (h' : c'.Runs calls' c'') : c.Runs (calls ++ calls') c'' := by
  induction h' with
  | nil => rwa [List.append_nil]
  | snoc _ hstep ih =>
    rw [← List.append_assoc]
    exact ih.snoc hstep

theorem Runs.isPrefix {calls : List (Side × Option Message)} (h : c.Runs calls c') (side : Side) :
    c.log side <+: c'.log side := by
  induction h with
  | nil => exact List.prefix_rfl
  | snoc _ hstep ih => exact ih.trans (hstep.isPrefix side)

theorem Comes.trans {heard heard' : List Message} (h : c.Comes heard c')
    (h' : c'.Comes heard' c'') : c.Comes (heard ++ heard') c'' := by
  obtain ⟨calls, hruns, rfl⟩ := h
  obtain ⟨calls', hruns', rfl⟩ := h'
  exact ⟨calls ++ calls', hruns.trans hruns', returned_append .client calls calls'⟩

variable {client client' : ClientEnd} {server server' : ServerEnd} {arrives : Outcome Bytes}
  {got : Option Message}

theorem comes_of_client (server : ServerEnd) (h : client.Calls arrives got client')
    (hnext : ∀ b, arrives = .done b →
      ((⟨client, server⟩ : Conversation).onTheWay .client).head? = some b) :
    (⟨client, server⟩ : Conversation).Comes got.toList ⟨client', server⟩ := by
  refine ⟨[(.client, got)], .snoc .nil (.client arrives got client' h hnext), ?_⟩
  cases got <;> rfl

theorem comes_of_server (client : ClientEnd) (h : server.Calls arrives got server')
    (hnext : ∀ b, arrives = .done b →
      ((⟨client, server⟩ : Conversation).onTheWay .server).head? = some b) :
    (⟨client, server⟩ : Conversation).Comes [] ⟨client, server'⟩ :=
  ⟨[(.server, got)], .snoc .nil (.server arrives got server' h hnext), rfl⟩

end Conversation

open Conversation

/-- What a poll finds is what was handed to it. -/
theorem eq_some_of_arrived {poll : Option Bytes} {b : Bytes} (h : arrived poll = .done b) :
    poll = some b := by
  cases poll with
  | none => exact absurd h (by simp [arrived])
  | some b' => exact congrArg some (Outcome.done.inj h)

/-! ### The servers -/

variable [Pclick.Runtime] (client : ClientEnd) (server : ServerEnd) (ser : Encoder)
  (poll : Option Bytes)

namespace Demoserver

/-- A step makes one call at most. -/
theorem comes_step (blocking_receive : Bool) (sensor_message : Message) (s : State)
    (hpoll : ∀ b, poll = some b →
      ((⟨client, .cpp s.system⟩ : Conversation).onTheWay .server).head? = some b) :
    (⟨client, .cpp s.system⟩ : Conversation).Comes []
      ⟨client, .cpp (step ser blocking_receive sensor_message poll s).system⟩ := by
  obtain ⟨system, next⟩ := s
  cases next with
  | receive =>
    have hcomes := comes_of_server client
      (.cpp system (.receive blocking_receive (arrived poll)))
      fun b hb => hpoll b (eq_some_of_arrived hb)
    simp only [System.exec] at hcomes
    simp only [step]
    rcases hres : system.receive blocking_receive (arrived poll) with ⟨system', _ | _ | request⟩ <;>
      rw [hres] at hcomes
    · exact hcomes
    · exact hcomes
    · simp only
      cases reply sensor_message request <;> exact hcomes
  | send message =>
    have hcomes := comes_of_server client
      (.cpp system (.sendMessage message (ser message) (.done ()))) (by simp [System.Call.arrives])
    simp only [System.exec] at hcomes
    simp only [step]
    rcases hres : system.sendMessage message (ser message) (.done ()) with ⟨system', _ | _⟩ <;>
      rw [hres] at hcomes <;> exact hcomes
  | returned => exact .refl _
  | threw => exact .refl _

end Demoserver

namespace Pclick.Demo

theorem comes_send (server : Server) (message : Message) :
    (⟨client, .python server⟩ : Conversation).Comes []
      ⟨client, .python (server.send message (ser message) (.done ())).1⟩ :=
  comes_of_server client (.python server (.send message (ser message) (.done ())))
    (by simp [Server.Call.arrives])

theorem comes_is_updated (server : Server) :
    (⟨client, .python server⟩ : Conversation).Comes [] ⟨client, .python server.is_updated.1⟩ :=
  comes_of_server client (.python server .is_updated) (by simp [Server.Call.arrives])

theorem comes_answer (server : Server) (request : Message) :
    (⟨client, .python server⟩ : Conversation).Comes []
      ⟨client, .python (answer ser server request).1⟩ := by
  have hbranch : ∀ (server : Server) (message : Message) (type : MessageType),
      (⟨client, .python server⟩ : Conversation).Comes [] ⟨client, .python
        (if request.messageType = type then server.send message (ser message) (.done ())
          else (server, .ok ())).1⟩ := by
    intro server message type
    split
    · exact comes_send client ser server message
    · exact .refl _
  have hinit := hbranch server handshake_message MessageType.HandshakeInitMessageType
  simp only [answer]
  rcases hres : (if request.messageType = MessageType.HandshakeInitMessageType then
      server.send handshake_message (ser handshake_message) (.done ())
    else (server, .ok ())) with ⟨server', _ | _⟩ <;> rw [hres] at hinit
  · exact hinit
  · exact hinit.trans (hbranch server' sensor_message MessageType.ControlMessageType)

/-- A step makes a receiving call, or the calls that answer a request. -/
theorem comes_step (trace_sizes : Bool) (s : State)
    (hpoll : ∀ b, poll = some b →
      ((⟨client, .python s.server⟩ : Conversation).onTheWay .server).head? = some b) :
    (⟨client, .python s.server⟩ : Conversation).Comes []
      ⟨client, .python (step ser trace_sizes poll s).server⟩ := by
  obtain ⟨server, next⟩ := s
  cases next with
  | recv =>
    have hcomes := comes_of_server client (.python server (.recv (arrived poll)))
      fun b hb => hpoll b (eq_some_of_arrived hb)
    simp only [Server.exec] at hcomes
    simp only [step]
    rcases hres : server.recv (arrived poll) with ⟨server', _ | _ | request⟩ <;>
      rw [hres] at hcomes <;> exact hcomes
  | answer request =>
    have hanswer := comes_answer client ser server request
    simp only [step]
    rcases hres : answer ser server request with ⟨server', _ | _⟩ <;> rw [hres] at hanswer
    · exact hanswer
    · cases trace_sizes with
      | false => exact hanswer
      | true =>
        have hread := hanswer.trans (comes_is_updated client server')
        simp only [if_true]
        rcases hup : server'.is_updated with ⟨server'', _ | _⟩ <;> rw [hup] at hread <;>
          exact hread
  | raised => exact .refl _

end Pclick.Demo

/-! ### The clients -/

namespace Democlient

/-- A step makes one call at most, and what it returns is what is heard. -/
theorem comes_step (s : State)
    (hpoll : ∀ b, poll = some b →
      ((⟨.cpp s.client, server⟩ : Conversation).onTheWay .client).head? = some b) :
    ∃ heard, (step ser poll s).replies = s.replies ++ heard ∧
      (⟨.cpp s.client, server⟩ : Conversation).Comes heard
        ⟨.cpp (step ser poll s).client, server⟩ := by
  obtain ⟨client, next, replies⟩ := s
  have hstay : ∃ heard, replies = replies ++ heard ∧
      (⟨.cpp client, server⟩ : Conversation).Comes heard ⟨.cpp client, server⟩ :=
    ⟨[], (List.append_nil replies).symm, .refl _⟩
  cases next with
  | send message block rest =>
    have hcomes := comes_of_client server
      (.cpp client (.sendMessage message (ser message) (.done ())))
      (by simp [Client.Call.arrives])
    simp only [Client.Connected.exec] at hcomes
    simp only [step]
    rcases hres : client.sendMessage message (ser message) (.done ()) with ⟨client', _ | _⟩ <;>
      rw [hres] at hcomes <;> exact ⟨[], (List.append_nil replies).symm, hcomes⟩
  | receive block rest =>
    have hcomes := comes_of_client server
      (.cpp client (.receive block (arrived poll))) fun b hb => hpoll b (eq_some_of_arrived hb)
    simp only [Client.Connected.exec] at hcomes
    cases block with
    | true =>
      cases poll with
      | none => exact hstay
      | some reply =>
        simp only [step, Client.Connected.blockingReceive]
        simp only [arrived] at hcomes
        rcases hres : client.receive true (.done reply) with ⟨client', _ | response⟩ <;>
          rw [hres] at hcomes
        · exact ⟨[], (List.append_nil replies).symm, hcomes⟩
        · exact ⟨response.toList, rfl, hcomes⟩
    | false =>
      simp only [step]
      rcases hres : client.receive false (arrived poll) with ⟨client', _ | _ | response⟩ <;>
        rw [hres] at hcomes
      · exact ⟨[], (List.append_nil replies).symm, hcomes⟩
      · exact ⟨[], (List.append_nil replies).symm, hcomes⟩
      · exact ⟨[response], rfl, hcomes⟩
  | returned => exact hstay
  | threw => exact hstay

end Democlient

namespace Pclick.DemoClient

theorem comes_send (client : Client) (message : Message) :
    (⟨.python client, server⟩ : Conversation).Comes []
      ⟨.python (client.send message (ser message) (.done ())).1, server⟩ := by
  have hcomes := comes_of_client server
    (.python client (.send message (ser message) (.done ()))) (by simp [Client.Call.arrives])
  simp only [Client.exec] at hcomes
  rcases hres : client.send message (ser message) (.done ()) with ⟨client', _ | _⟩ <;>
    rw [hres] at hcomes <;> exact hcomes

/-- A step makes one call at most, and what it returns is what is heard. -/
theorem comes_step (s : State)
    (hpoll : ∀ b, poll = some b →
      ((⟨.python s.client, server⟩ : Conversation).onTheWay .client).head? = some b) :
    ∃ heard, (step ser poll s).replies = s.replies ++ heard ∧
      (⟨.python s.client, server⟩ : Conversation).Comes heard
        ⟨.python (step ser poll s).client, server⟩ := by
  obtain ⟨client, next, last, replies⟩ := s
  have hstay : ∃ heard, replies = replies ++ heard ∧
      (⟨.python client, server⟩ : Conversation).Comes heard ⟨.python client, server⟩ :=
    ⟨[], (List.append_nil replies).symm, .refl _⟩
  cases next with
  | send message rest =>
    have hcomes := comes_send server ser client message
    simp only [step]
    rcases hres : client.send message (ser message) (.done ()) with ⟨client', _ | _⟩ <;>
      rw [hres] at hcomes <;> exact ⟨[], (List.append_nil replies).symm, hcomes⟩
  | recv rest =>
    cases poll with
    | none => exact hstay
    | some reply =>
      have hcomes := comes_of_client server (.python client (.recv true (.done reply)))
        fun b hb => hpoll b (congrArg some (Outcome.done.inj hb))
      simp only [Client.exec] at hcomes
      simp only [step]
      rcases hres : client.recv true (.done reply) with ⟨client', _ | response⟩ <;>
        rw [hres] at hcomes
      · exact ⟨[], (List.append_nil replies).symm, hcomes⟩
      · exact ⟨response.toList, rfl, hcomes⟩
  | last message =>
    have hcomes := comes_send server ser client message
    simp only [step]
    rcases hres : client.send message (ser message) (.done ()) with ⟨client', _ | _⟩ <;>
      rw [hres] at hcomes <;> exact ⟨[], (List.append_nil replies).symm, hcomes⟩
  | ended => exact hstay
  | raised => exact hstay

end Pclick.DemoClient

end Click
