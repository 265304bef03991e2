/-
What tracing sizes changes.

A server whose collector traces changes is compared with one whose collector does
nothing.  Both make the same calls, with the same outcomes in store at the socket;
reads of `is_updated`, which the collector that does nothing does not have, are left
out of the comparison.

* `Server.exec_changes` — one call on both servers;
* `Server.observe_eq_iff` — they do the same exactly as long as nothing empty is
  received or sent.
-/
import Click.SizeCollector

open Proto Zmq

namespace Click.Pclick.Server

variable [Runtime]

/-- What calls other than `is_updated` return or raise, and the history of the socket
after each. -/
def observe (server : Server) : List Call → List (Except Raised Returned × List (Event Bytes))
  | [] => []
  | .is_updated :: calls => observe (server.exec .is_updated).1 calls
  | call :: calls => ((server.exec call).2, (server.exec call).1.socket.log) ::
      observe (server.exec call).1 calls

/-- What the calls do with sizes. -/
def sizes (server : Server) : List Call → List Size
  | [] => []
  | call :: calls => call.size server.socket :: sizes (server.exec call).1 calls

variable (c : SizeCollectorChanges) (socket : Rep Bytes)

/-- The collector asserts that there is something to be told. -/
theorem exec_changes_zero {call : Call} {d : Direction}
    (h : (call.size socket).traced d = some 0) :
    ((⟨.changes c, socket⟩ : Server).exec call).2 = .error .assertionError ∧
      ((⟨.base, socket⟩ : Server).exec call).2 ≠ .error .assertionError := by
  cases call with
  | recv arrives =>
    rcases hr : socket.recv arrives with ⟨socket', serialized | _ | _⟩ <;>
      simp only [Call.size, hr] at h
    · have hlen : serialized.length = 0 := by
        cases d with
        | recv => exact Option.some.inj h
        | send => exact absurd h (by simp [Size.traced])
      constructor
      · simp [exec, recv, socketRecv, hr, SizeCollector.recvSize, SizeCollectorChanges.recvSize,
          hlen, Except.map]
      · simp only [exec, recv, socketRecv, hr, SizeCollector.recvSize]
        rcases from_bytes serialized with e | m <;> simp [Except.map, Except.mapError]
    · exact absurd h (by simp [Size.traced])
    · exact absurd h (by simp [Size.traced])
  | recv_blocking arrives =>
    rcases hr : socket.recv arrives with ⟨socket', serialized | _ | _⟩ <;>
      simp only [Call.size, hr] at h <;> exact absurd h (by cases d <;> simp [Size.traced])
  | send message serialized outcome =>
    rcases hser : serializeToString message serialized with e | out <;>
      simp only [Call.size, hser] at h
    · exact absurd h (by simp [Size.traced])
    · have hlen : out.length = 0 := by
        rcases hs : (socket.send out outcome).2 with _ | _ | _ <;> rw [hs] at h <;>
          cases d <;> first | exact Option.some.inj h | exact absurd h (by simp [Size.traced])
      constructor
      · simp [exec, send, hser, SizeCollector.sendSize, SizeCollectorChanges.sendSize, hlen,
          Except.map]
      · simp only [exec, send, hser, SizeCollector.sendSize]
        rcases socket.send out outcome with ⟨socket', _ | _ | _⟩ <;> simp [Except.map]
  | is_updated => exact absurd h (by simp [Call.size, Size.traced])

/-- **One call on both servers.** -/
theorem exec_changes {call : Call} (h : ∀ d, (call.size socket).traced d ≠ some 0) :
    ∃ c' socket' res, ((⟨.changes c, socket⟩ : Server).exec call).1 = ⟨.changes c', socket'⟩ ∧
      ((⟨.base, socket⟩ : Server).exec call).1 = ⟨.base, socket'⟩ ∧
      (call ≠ .is_updated → ((⟨.changes c, socket⟩ : Server).exec call).2 = res ∧
        ((⟨.base, socket⟩ : Server).exec call).2 = res) := by
  cases call with
  | recv arrives =>
    rcases hr : socket.recv arrives with ⟨socket', serialized | _ | _⟩ <;>
      simp only [Call.size, hr] at h
    · have hlen : 0 < serialized.length :=
        Nat.pos_of_ne_zero fun hz => h .recv (by simp [Size.traced, hz])
      simp only [exec, recv, socketRecv, hr, SizeCollector.recvSize,
        SizeCollectorChanges.recvSize, if_pos hlen, Except.map]
      exact ⟨_, _, _, rfl, rfl, fun _ => ⟨rfl, rfl⟩⟩
    · simp only [exec, recv, socketRecv, hr]
      exact ⟨_, _, _, rfl, rfl, fun _ => ⟨rfl, rfl⟩⟩
    · simp only [exec, recv, socketRecv, hr]
      exact ⟨_, _, _, rfl, rfl, fun _ => ⟨rfl, rfl⟩⟩
  | recv_blocking arrives =>
    simp only [exec, recv_blocking, socketRecv]
    rcases socket.recv arrives with ⟨socket', _ | _ | _⟩ <;>
      exact ⟨_, _, _, rfl, rfl, fun _ => ⟨rfl, rfl⟩⟩
  | send message serialized outcome =>
    rcases hser : serializeToString message serialized with e | out <;>
      simp only [Call.size, hser] at h
    · simp only [exec, send, hser]
      exact ⟨_, _, _, rfl, rfl, fun _ => ⟨rfl, rfl⟩⟩
    · have hlen : 0 < out.length := by
        refine Nat.pos_of_ne_zero fun hz => h .send ?_
        rcases (socket.send out outcome).2 with _ | _ | _ <;> simp [Size.traced, hz]
      simp only [exec, send, hser, SizeCollector.sendSize, SizeCollectorChanges.sendSize,
        if_pos hlen, Except.map]
      rcases socket.send out outcome with ⟨socket', _ | _ | _⟩ <;>
        exact ⟨_, _, _, rfl, rfl, fun _ => ⟨rfl, rfl⟩⟩
  | is_updated => exact ⟨_, _, .ok .sent, rfl, rfl, fun hne => absurd rfl hne⟩

theorem observe_cons {server : Server} {call : Call} (h : call ≠ .is_updated) (calls : List Call) :
    server.observe (call :: calls) = ((server.exec call).2, (server.exec call).1.socket.log) ::
      (server.exec call).1.observe calls := by
  cases call <;> first | rfl | exact absurd rfl h

/-- **When tracing sizes changes nothing else.**  Whatever the calls, what they return
and what happens at the socket is the same with and without tracing exactly if no empty
message is received by `recv`, nor given to `send`. -/
theorem observe_eq_iff (calls : List Call) :
    (⟨.changes c, socket⟩ : Server).observe calls = (⟨.base, socket⟩ : Server).observe calls ↔
      ∀ size ∈ (⟨.base, socket⟩ : Server).sizes calls, ∀ d, size.traced d ≠ some 0 := by
  induction calls generalizing c socket with
  | nil => exact iff_of_true rfl (by simp [sizes])
  | cons call calls ih =>
    rw [sizes, List.forall_mem_cons]
    by_cases hzero : ∀ d, (call.size socket).traced d ≠ some 0
    · obtain ⟨c', socket', res, hc, hb, hres⟩ := exec_changes c socket hzero
      rw [hb, ← ih c' socket', and_iff_right hzero]
      by_cases hcall : call = .is_updated
      · subst hcall
        rw [observe, observe, hc, hb]
      · obtain ⟨hresc, hresb⟩ := hres hcall
        rw [observe_cons hcall, observe_cons hcall, hc, hb, hresc, hresb, List.cons_inj_right]
    · -- from here on the two differ
      obtain ⟨d, hd⟩ := not_forall_not.mp hzero
      obtain ⟨hc, hb⟩ := exec_changes_zero c socket hd
      have hcall : call ≠ .is_updated := by
        rintro rfl
        exact absurd hd (by simp [Call.size, Size.traced])
      refine iff_of_false (fun heq => ?_) fun hall => hzero hall.1
      rw [observe_cons hcall, observe_cons hcall, hc] at heq
      exact hb (congrArg Prod.fst (List.cons.inj heq).1).symm

end Click.Pclick.Server
