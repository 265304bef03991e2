/-
The REQ socket of ZeroMQ.

A REQ socket does the two operations of a REP socket in the other order: it sends a
request, receives the reply to it, and sends again.  It is given by its history in
the same way, with the requests in it as what was sent and the replies as what was
received.

What one operation does to either socket is said once, for its history: `Grows`.

* `Req.send_done`, `Req.recv_done` and the lemmas beside them — what an operation
  does in its turn and out of it;
* `Rep.grows_recv`, `Rep.grows_send`, `Req.grows_recv`, `Req.grows_send` — an
  operation adds one event at most, and receives nothing but what arrives;
* `turn_happened` — refusals do not change whose turn it is.
-/
import Click.Zmq.Rep

namespace Zmq

variable {B : Type}

/-! ### The socket -/

/-- A REQ socket, by its history. -/
structure Req (B : Type) where
  log : List (Event B)
  alternates : Alternates true log

namespace Req

/-- A socket at which nothing has happened yet. -/
def fresh : Req B := ⟨[], trivial⟩

variable (socket : Req B)

/-- It is the turn to send; otherwise a reply is awaited. -/
def mayAsk : Bool := socket.log.foldl Event.owes true

/-- One more event. -/
def push (e : Event B) (h : e.InTurn socket.mayAsk) : Req B where
  log := socket.log ++ [e]
  alternates := alternates_append.mpr ⟨socket.alternates, h, trivial⟩

/-- Send a request, unless a reply is awaited. -/
def send (request : B) (outcome : Outcome Unit) : Req B × Outcome Unit :=
  if h : socket.mayAsk = true then
    match outcome with
    | .done _ => (socket.push (.sent request) h, outcome)
    | _ => (socket, outcome)
  else (socket.push .refused trivial, .error)

/-- Receive a reply, if one is awaited; `arrives` is what there is to receive. -/
def recv (arrives : Outcome B) : Req B × Outcome B :=
  if h : socket.mayAsk = false then
    match arrives with
    | .done reply => (socket.push (.received reply) h, arrives)
    | _ => (socket, arrives)
  else (socket.push .refused trivial, .error)

variable {socket}

@[simp] theorem mayAsk_fresh : (fresh : Req B).mayAsk = true := rfl

@[simp] theorem log_push (e : Event B) (h : e.InTurn socket.mayAsk) :
    (socket.push e h).log = socket.log ++ [e] := rfl

@[simp] theorem mayAsk_push (e : Event B) (h : e.InTurn socket.mayAsk) :
    (socket.push e h).mayAsk = e.owes socket.mayAsk := by
  rw [mayAsk, log_push, List.foldl_append]
  rfl

theorem send_of_not_mayAsk (h : socket.mayAsk = false) (request : B) (outcome : Outcome Unit) :
    socket.send request outcome = (socket.push .refused trivial, .error) :=
  dif_neg (by simp [h])

theorem recv_of_mayAsk (h : socket.mayAsk = true) (arrives : Outcome B) :
    socket.recv arrives = (socket.push .refused trivial, .error) :=
  dif_neg (by simp [h])

theorem send_done (h : socket.mayAsk = true) (request : B) (u : Unit) :
    socket.send request (.done u) = (socket.push (.sent request) h, .done u) :=
  dif_pos h

theorem send_again (h : socket.mayAsk = true) (request : B) :
    socket.send request .again = (socket, .again) := dif_pos h

theorem send_error (h : socket.mayAsk = true) (request : B) :
    socket.send request .error = (socket, .error) := dif_pos h

theorem recv_done (h : socket.mayAsk = false) (reply : B) :
    socket.recv (.done reply) = (socket.push (.received reply) h, .done reply) :=
  dif_pos h

theorem recv_again (h : socket.mayAsk = false) : socket.recv .again = (socket, .again) := dif_pos h

theorem recv_error (h : socket.mayAsk = false) : socket.recv .error = (socket, .error) := dif_pos h

end Req

/-! ### What an operation does to a history -/

/-- The history stays or has one more event; what is received is what arrives. -/
inductive Grows (arrives : Outcome B) (log : List (Event B)) : List (Event B) → Prop
  | stays : Grows arrives log log
  | received (b : B) : arrives = .done b → Grows arrives log (log ++ [.received b])
  | sent (b : B) : Grows arrives log (log ++ [.sent b])
  | refused : Grows arrives log (log ++ [.refused])

/-- A socket is no more than its history. -/
theorem Rep.eq_of_log {socket socket' : Rep B} (h : socket.log = socket'.log) :
    socket = socket' := by
  cases socket
  cases socket'
  cases h
  rfl

theorem Req.eq_of_log {socket socket' : Req B} (h : socket.log = socket'.log) :
    socket = socket' := by
  cases socket
  cases socket'
  cases h
  rfl

theorem Rep.grows_recv (socket : Rep B) (arrives : Outcome B) :
    Grows arrives socket.log (socket.recv arrives).1.log := by
  rcases howes : socket.owes with _ | _
  · cases arrives with
    | done request => simpa only [Rep.recv_done howes] using .received request rfl
    | again => simpa only [Rep.recv_again howes] using .stays
    | error => simpa only [Rep.recv_error howes] using .stays
  · simpa only [Rep.recv_of_owes howes] using .refused

theorem Rep.grows_send (socket : Rep B) (reply : B) (outcome : Outcome Unit)
    (arrives : Outcome B) : Grows arrives socket.log (socket.send reply outcome).1.log := by
  rcases howes : socket.owes with _ | _
  · simpa only [Rep.send_of_not_owes howes] using .refused
  · cases outcome with
    | done u => simpa only [Rep.send_done howes] using .sent reply
    | again => simpa only [Rep.send_again howes] using .stays
    | error => simpa only [Rep.send_error howes] using .stays

theorem Req.grows_recv (socket : Req B) (arrives : Outcome B) :
    Grows arrives socket.log (socket.recv arrives).1.log := by
  rcases hask : socket.mayAsk with _ | _
  · cases arrives with
    | done reply => simpa only [Req.recv_done hask] using .received reply rfl
    | again => simpa only [Req.recv_again hask] using .stays
    | error => simpa only [Req.recv_error hask] using .stays
  · simpa only [Req.recv_of_mayAsk hask] using .refused

theorem Req.grows_send (socket : Req B) (request : B) (outcome : Outcome Unit)
    (arrives : Outcome B) : Grows arrives socket.log (socket.send request outcome).1.log := by
  rcases hask : socket.mayAsk with _ | _
  · simpa only [Req.send_of_not_mayAsk hask] using .refused
  · cases outcome with
    | done u => simpa only [Req.send_done hask] using .sent request
    | again => simpa only [Req.send_again hask] using .stays
    | error => simpa only [Req.send_error hask] using .stays

/-- What a `recv` returns was there to receive, and the history has it. -/
theorem Rep.log_of_recv {socket : Rep B} {arrives : Outcome B} {request : B}
    (h : (socket.recv arrives).2 = .done request) :
    arrives = .done request ∧ (socket.recv arrives).1.log = socket.log ++ [.received request] := by
  obtain rfl := Rep.arrives_of_recv h
  refine ⟨rfl, ?_⟩
  rcases howes : socket.owes with _ | _
  · rw [Rep.recv_done howes]
    rfl
  · exact absurd h (by simp [Rep.recv_of_owes howes])

theorem Req.log_of_recv {socket : Req B} {arrives : Outcome B} {reply : B}
    (h : (socket.recv arrives).2 = .done reply) :
    arrives = .done reply ∧ (socket.recv arrives).1.log = socket.log ++ [.received reply] := by
  rcases hask : socket.mayAsk with _ | _
  · cases arrives with
    | done reply' =>
      rw [Req.recv_done hask] at h ⊢
      obtain rfl := Outcome.done.inj h
      exact ⟨rfl, rfl⟩
    | again => exact absurd h (by simp [Req.recv_again hask])
    | error => exact absurd h (by simp [Req.recv_error hask])
  · exact absurd h (by simp [Req.recv_of_mayAsk hask])

/-! ### What happened and what passed -/

/-- The event was not refused. -/
def Event.happens : Event B → Bool
  | .refused => false
  | .received _ | .sent _ => true

/-- The history without the refusals. -/
def happened (log : List (Event B)) : List (Event B) := log.filter Event.happens

def Event.receivedOnly : Event B → Option B
  | .received b => some b
  | .sent _ | .refused => none

def Event.sentOnly : Event B → Option B
  | .sent b => some b
  | .received _ | .refused => none

/-- What was received, in order. -/
def receiveds (log : List (Event B)) : List B := log.filterMap Event.receivedOnly

/-- What was sent, in order. -/
def sents (log : List (Event B)) : List B := log.filterMap Event.sentOnly

section

variable (log log' : List (Event B))

@[simp] theorem happened_append : happened (log ++ log') = happened log ++ happened log' :=
  List.filter_append log log'

@[simp] theorem receiveds_append : receiveds (log ++ log') = receiveds log ++ receiveds log' :=
  List.filterMap_append

@[simp] theorem sents_append : sents (log ++ log') = sents log ++ sents log' :=
  List.filterMap_append

theorem receiveds_isPrefix {log log' : List (Event B)} (h : log <+: log') :
    receiveds log <+: receiveds log' := h.filterMap _

theorem sents_isPrefix {log log' : List (Event B)} (h : log <+: log') : sents log <+: sents log' :=
  h.filterMap _

theorem Grows.isPrefix {arrives : Outcome B} {log log' : List (Event B)}
    (h : Grows arrives log log') : log <+: log' := by
  cases h with
  | stays => exact List.prefix_rfl
  | received b harrives => exact List.prefix_append log _
  | sent b => exact List.prefix_append log _
  | refused => exact List.prefix_append log _

theorem receiveds_happened : receiveds (happened log) = receiveds log := by
  rw [receiveds, happened, List.filterMap_filter, receiveds]
  congr 1
  funext e
  cases e <;> rfl

theorem sents_happened : sents (happened log) = sents log := by
  rw [sents, happened, List.filterMap_filter, sents]
  congr 1
  funext e
  cases e <;> rfl

/-- **Whose turn it is** does not depend on what was refused. -/
theorem turn_happened (owing : Bool) :
    (happened log).foldl Event.owes owing = log.foldl Event.owes owing := by
  rw [happened, List.foldl_filter]
  congr 1
  funext owing e
  cases e <;> rfl

end

end Zmq
