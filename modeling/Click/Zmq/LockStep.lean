/-
Requests and replies in lock-step.

A server loop takes its turns at a REP socket one poll after the other.  It keeps
the lock-step if the socket never refuses an operation, each request but the last is
answered once before the next, and after a request that is to end the conversation
no other is received.

* `Ready.answered`, `Ready.lockStep`, `Ready.lockStep_received` — what a pass of such
  a loop keeps, and where the loop may end;
* `serve_invariant` — what every pass keeps, the loop keeps.
-/
import Click.Zmq.Rep

open Trace

namespace Zmq

variable {B : Type}

/-- The history of a socket at which the lock-step was kept; `isLast` picks out the
requests that end the conversation. -/
structure LockStep (isLast : B → Prop) (log : List (Event B)) : Prop where
  inTurn : .refused ∉ log
  oneReply : ∀ pre request mid request' post,
    log = pre ++ .received request :: (mid ++ .received request' :: post) →
      (∀ r, .received r ∉ mid) → ∃ reply, mid = [.sent reply]
  ended : ∀ pre request post, log = pre ++ .received request :: post → isLast request →
    ∀ r, .received r ∉ post

/-- The socket is ready for the next request, and nothing has gone wrong. -/
structure Ready (isLast : B → Prop) (socket : Rep B) : Prop where
  owes : socket.owes = false
  inTurn : .refused ∉ socket.log
  going : ∀ request, .received request ∈ socket.log → ¬ isLast request

variable {isLast : B → Prop} {socket : Rep B}

/-- Without a request that ends the conversation, turns are all that matters. -/
theorem lockStep_of_inTurn (hturn : .refused ∉ socket.log)
    (hended : ∀ pre request post, socket.log = pre ++ .received request :: post →
      isLast request → ∀ r, .received r ∉ post) : LockStep isLast socket.log where
  inTurn := hturn
  oneReply _ _ _ _ _ hlog hmid := Rep.sent_between hlog hturn hmid
  ended := hended

namespace Ready

theorem fresh : Ready isLast (Rep.fresh : Rep B) where
  owes := rfl
  inTurn := List.not_mem_nil
  going _ h := absurd h List.not_mem_nil

theorem lockStep (h : Ready isLast socket) : LockStep isLast socket.log := by
  refine lockStep_of_inTurn h.inTurn fun pre request post hlog hlast => ?_
  exact absurd hlast (h.going request (by simp [hlog]))

/-- The loop may end on a request. -/
theorem lockStep_received (h : Ready isLast socket) (request : B) :
    LockStep isLast (socket.push (.received request) h.owes).log := by
  refine lockStep_of_inTurn ?_ fun pre request' post hlog hlast r => ?_
  · simpa using h.inTurn
  · -- a request that ends the conversation can only be the last event
    rcases snoc_eq_iff.mp hlog with ⟨rfl, -, -⟩ | ⟨front, -, hfront⟩
    · exact List.not_mem_nil
    · exact absurd hlast (h.going request' (by simp [hfront]))

/-- After a request and its reply the socket is ready again. -/
theorem answered (h : Ready isLast socket) {request : B} (hgo : ¬ isLast request) (reply : B) :
    Ready isLast (socket.exchange h.owes request reply) where
  owes := by simp
  inTurn := by simpa using h.inTurn
  going r hr := by
    rcases (by simpa using hr : .received r ∈ socket.log ∨ r = request) with hr | rfl
    · exact h.going r hr
    · exact hgo

end Ready

/-! ### Loops -/

variable {S R : Type} (pass : S → Option R → S × Bool)

/-- One pass for each poll, which finds a request or nothing, until one ends the
loop.  When nothing more arrives the loop waits in one more pass. -/
def serve : S → List (Option R) → S
  | s, [] => (pass s none).1
  | s, poll :: polls =>
    if (pass s poll).2 = true then serve (pass s poll).1 polls else (pass s poll).1

variable {pass}

theorem serve_invariant (Going Ended : S → Prop) (hend : ∀ {s}, Going s → Ended s)
    (hpass : ∀ s poll, Going s →
      Going (pass s poll).1 ∨ (pass s poll).2 = false ∧ Ended (pass s poll).1)
    {s : S} (hs : Going s) (polls : List (Option R)) : Ended (serve pass s polls) := by
  induction polls generalizing s with
  | nil => exact (hpass s none hs).elim hend And.right
  | cons poll polls ih =>
    rw [serve]
    split
    · next hgo =>
      rcases hpass s poll hs with h | ⟨hstop, -⟩
      · exact ih h
      · exact absurd (hgo.symm.trans hstop) (by simp)
    · exact (hpass s poll hs).elim hend And.right

end Zmq
