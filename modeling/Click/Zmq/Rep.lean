/-
The REP socket of ZeroMQ.

A REP socket receives a request, sends one reply to it, and receives again.  It
refuses an operation whose turn it is not, and only an operation that succeeds
moves it on.  The socket is given by the history of what was received, sent and
refused at it; a history in which requests and replies do not alternate cannot be
made.  What else decides the outcome of an operation, the peer and the network, is
handed in with each call.

* `owes_iff` — the socket owes a reply exactly when a request in its history has no
  reply after it;
* `Rep.recv_done`, `Rep.send_done` and the lemmas beside them — what an operation
  does in its turn and out of it;
* `Rep.sent_between` — where nothing was refused, exactly one reply was sent between
  two requests.
-/
import Click.Trace.Past

open Trace

namespace Zmq

/-- How an operation on a socket ends. -/
inductive Outcome (A : Type)
  | done (a : A)
  /-- It would block, or timed out. -/
  | again
  /-- Any other error. -/
  | error
  deriving DecidableEq

/-- What happens at a REP socket. -/
inductive Event (B : Type)
  | received (request : B)
  | sent (reply : B)
  /-- An operation was out of turn. -/
  | refused
  deriving DecidableEq

variable {B : Type}

/-! ### Histories -/

/-- Whether a reply is owed after an event. -/
def Event.owes (owing : Bool) : Event B → Bool
  | .received _ => true
  | .sent _ => false
  | .refused => owing

def owes (log : List (Event B)) : Bool := log.foldl Event.owes false

def Event.IsReceived (e : Event B) : Prop := ∃ request, e = .received request

def Event.IsSent (e : Event B) : Prop := ∃ reply, e = .sent reply

/-- A request of the history has no reply after it. -/
def Unanswered (log : List (Event B)) : Prop := Since (fun _ e => e.IsReceived) Event.IsSent log

@[simp] theorem owes_nil : owes ([] : List (Event B)) = false := rfl

@[simp] theorem owes_snoc (log : List (Event B)) (e : Event B) :
    owes (log ++ [e]) = e.owes (owes log) := by
  rw [owes, List.foldl_append]
  rfl

theorem owes_iff (log : List (Event B)) : owes log = true ↔ Unanswered log := by
  -- along the history, the latest event last
  induction log using List.reverseRecOn with
  | nil => exact iff_of_false (by simp) not_since_nil
  | append_singleton log e ih =>
    rw [owes_snoc, Unanswered, since_snoc, ← Unanswered, ← ih]
    cases e <;> simp [Event.owes, Event.IsReceived, Event.IsSent]

/-- The socket lets an event happen. -/
abbrev Event.InTurn (owing : Bool) : Event B → Prop
  | .received _ => owing = false
  | .sent _ => owing = true
  | .refused => True

/-- Each event was in turn, from a state in which a reply is owed or not. -/
def Alternates : Bool → List (Event B) → Prop
  | _, [] => True
  | owing, e :: log => e.InTurn owing ∧ Alternates (e.owes owing) log

theorem alternates_append {owing : Bool} {log log' : List (Event B)} :
    Alternates owing (log ++ log') ↔
      Alternates owing log ∧ Alternates (log.foldl Event.owes owing) log' := by
  induction log generalizing owing with
  | nil => exact ⟨fun h => ⟨trivial, h⟩, fun h => h.2⟩
  | cons e log ih =>
    rw [List.cons_append, Alternates, Alternates, ih, List.foldl_cons, and_assoc]

/-! ### The socket -/

/-- A REP socket, by its history. -/
structure Rep (B : Type) where
  log : List (Event B)
  alternates : Alternates false log

namespace Rep

/-- A socket at which nothing has happened yet. -/
def fresh : Rep B := ⟨[], trivial⟩

variable (socket : Rep B)

def owes : Bool := Zmq.owes socket.log

/-- One more event. -/
def push (e : Event B) (h : e.InTurn socket.owes) : Rep B where
  log := socket.log ++ [e]
  alternates := alternates_append.mpr ⟨socket.alternates, h, trivial⟩

/-- Receive a request, if it is the turn for it; `arrives` is what there is to
receive. -/
def recv (arrives : Outcome B) : Rep B × Outcome B :=
  if h : socket.owes = false then
    match arrives with
    | .done request => (socket.push (.received request) h, arrives)
    | _ => (socket, arrives)
  else (socket.push .refused trivial, .error)

/-- Send a reply, if one is owed. -/
def send (reply : B) (outcome : Outcome Unit) : Rep B × Outcome Unit :=
  if h : socket.owes = true then
    match outcome with
    | .done _ => (socket.push (.sent reply) h, outcome)
    | _ => (socket, outcome)
  else (socket.push .refused trivial, .error)

variable {socket}

@[simp] theorem owes_fresh : (fresh : Rep B).owes = false := rfl

@[simp] theorem log_push (e : Event B) (h : e.InTurn socket.owes) :
    (socket.push e h).log = socket.log ++ [e] := rfl

@[simp] theorem owes_push (e : Event B) (h : e.InTurn socket.owes) :
    (socket.push e h).owes = e.owes socket.owes := owes_snoc socket.log e

theorem owes_received (h : socket.owes = false) (request : B) :
    (socket.push (.received request) h).owes = true := owes_push _ h

/-- A request and the reply to it. -/
def exchange (socket : Rep B) (h : socket.owes = false) (request reply : B) : Rep B :=
  (socket.push (.received request) h).push (.sent reply) (owes_received h request)

@[simp] theorem log_exchange (h : socket.owes = false) (request reply : B) :
    (socket.exchange h request reply).log =
      socket.log ++ [.received request] ++ [.sent reply] := rfl

@[simp] theorem owes_exchange (h : socket.owes = false) (request reply : B) :
    (socket.exchange h request reply).owes = false := owes_push _ _

theorem recv_of_owes (h : socket.owes = true) (arrives : Outcome B) :
    socket.recv arrives = (socket.push .refused trivial, .error) :=
  dif_neg (by simp [h])

theorem send_of_not_owes (h : socket.owes = false) (reply : B) (outcome : Outcome Unit) :
    socket.send reply outcome = (socket.push .refused trivial, .error) :=
  dif_neg (by simp [h])

theorem recv_done (h : socket.owes = false) (request : B) :
    socket.recv (.done request) = (socket.push (.received request) h, .done request) :=
  dif_pos h

theorem recv_again (h : socket.owes = false) : socket.recv .again = (socket, .again) := dif_pos h

theorem recv_error (h : socket.owes = false) : socket.recv .error = (socket, .error) := dif_pos h

theorem send_done (h : socket.owes = true) (reply : B) (u : Unit) :
    socket.send reply (.done u) = (socket.push (.sent reply) h, .done u) :=
  dif_pos h

theorem send_again (h : socket.owes = true) (reply : B) :
    socket.send reply .again = (socket, .again) := dif_pos h

theorem send_error (h : socket.owes = true) (reply : B) :
    socket.send reply .error = (socket, .error) := dif_pos h

/-- What is received is what is added to the history, refusals apart. -/
theorem filterMap_recv (socket : Rep B) {C : Type} {f : Event B → Option C} (hf : f .refused = none)
    (arrives : Outcome B) :
    (socket.recv arrives).1.log.filterMap f = socket.log.filterMap f ++
      match (socket.recv arrives).2 with
      | .done request => [Event.received request].filterMap f
      | _ => [] := by
  rcases howes : socket.owes with _ | _
  · cases arrives with
    | done request => simp [recv_done howes, List.filterMap_append]
    | again => simp [recv_again howes]
    | error => simp [recv_error howes]
  · simp [recv_of_owes howes, List.filterMap_append, hf]

/-- What is sent is what is added to the history, refusals apart. -/
theorem filterMap_send (socket : Rep B) {C : Type} {f : Event B → Option C} (hf : f .refused = none)
    (reply : B) (outcome : Outcome Unit) :
    (socket.send reply outcome).1.log.filterMap f = socket.log.filterMap f ++
      match (socket.send reply outcome).2 with
      | .done _ => [Event.sent reply].filterMap f
      | _ => [] := by
  rcases howes : socket.owes with _ | _
  · simp [send_of_not_owes howes, List.filterMap_append, hf]
  · cases outcome with
    | done u => simp [send_done howes, List.filterMap_append]
    | again => simp [send_again howes]
    | error => simp [send_error howes]

theorem arrives_of_recv {arrives : Outcome B} {request : B}
    (h : (socket.recv arrives).2 = .done request) : arrives = .done request := by
  rcases howes : socket.owes with _ | _
  · cases arrives with
    | done request' => rwa [recv_done howes] at h
    | again => exact absurd h (by simp [recv_again howes])
    | error => exact absurd h (by simp [recv_error howes])
  · exact absurd h (by simp [recv_of_owes howes])

/-- A part of the history that starts after a request, in which nothing was refused
and nothing received, holds one reply at most. -/
private theorem sent_of_alternates {log : List (Event B)} (hlog : Alternates true log)
    (hrefused : .refused ∉ log) (hreceived : ∀ request, .received request ∉ log) :
    log = [] ∨ ∃ reply, log = [.sent reply] := by
  rcases log with _ | ⟨e, log⟩
  · exact .inl rfl
  · obtain ⟨hturn, hrest⟩ := hlog
    cases e with
    | received request => exact absurd List.mem_cons_self (hreceived request)
    | refused => exact absurd List.mem_cons_self hrefused
    | sent reply =>
      rcases log with _ | ⟨e, log⟩
      · exact .inr ⟨reply, rfl⟩
      · -- a second event would have to be a request
        cases e with
        | received request => exact absurd (by simp) (hreceived request)
        | refused => exact absurd (by simp) hrefused
        | sent reply' => exact absurd hrest.1 (by simp [Event.InTurn, Event.owes])

/-- **One reply between two requests.** -/
theorem sent_between {pre mid post : List (Event B)} {request request' : B}
    (hlog : socket.log = pre ++ .received request :: (mid ++ .received request' :: post))
    (hrefused : .refused ∉ socket.log) (hreceived : ∀ r, .received r ∉ mid) :
    ∃ reply, mid = [.sent reply] := by
  have halt := socket.alternates
  rw [hlog] at halt hrefused
  obtain ⟨-, -, hafter⟩ := alternates_append.mp halt
  obtain ⟨hmid, hturn, -⟩ := alternates_append.mp hafter
  have hnone : .refused ∉ mid := fun h => hrefused (by simp [h])
  rcases sent_of_alternates hmid hnone hreceived with rfl | h
  · exact absurd hturn (by simp [Event.InTurn, Event.owes])
  · exact h

end Rep

end Zmq
