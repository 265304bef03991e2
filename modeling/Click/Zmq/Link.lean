/-
A REQ socket and a REP socket joined.

One REQ socket is connected to one REP socket.  The link between them loses nothing,
repeats nothing and keeps the order, and it may take any time: an end can receive
the next of what the other end has sent, or nothing yet.  Either end may try any
operation at any moment.

What such a link is for is a sequence of exchanges, each a request and the reply to
it.  Whatever is tried at the ends, the link runs through exchanges one after the
other, and the phase of the one under way tells whose turn it is and what is on the
way.

* `Link.Step.tracks` — what happens at an end is refused there, or moves the exchange
  under way on by one phase;
* `Link.tracks_of_reachable` — so in every state that can be reached the two
  histories are those of some exchanges;
* `Link.Tracks.requests_eq`, `Link.Tracks.mayAsk_iff` and the lemmas beside them —
  what the phase says of the link and of the ends.
-/
import Click.Zmq.Req

namespace Zmq

variable {B : Type}

/-! ### Exchanges -/

/-- Where an exchange is. -/
inductive Phase (B : Type)
  | idle
  /-- The request is on the way. -/
  | asked (request : B)
  /-- The request was received and has no reply. -/
  | taken (request : B)
  /-- The reply is on the way. -/
  | answered (request reply : B)
  deriving DecidableEq

namespace Phase

/-- What has happened at the REQ socket in the exchange. -/
def atReq : Phase B → List (Event B)
  | idle => []
  | asked request | taken request | answered request _ => [.sent request]

/-- What has happened at the REP socket in the exchange. -/
def atRep : Phase B → List (Event B)
  | idle | asked _ => []
  | taken request => [.received request]
  | answered request reply => [.received request, .sent reply]

/-- The requests on the way. -/
def requests : Phase B → List B
  | asked request => [request]
  | idle | taken _ | answered .. => []

/-- The replies on the way. -/
def replies : Phase B → List B
  | answered _ reply => [reply]
  | idle | asked _ | taken _ => []

end Phase

/-- The exchanges that are over, and the one under way. -/
structure Exchanges (B : Type) where
  past : List (B × B)
  phase : Phase B
  deriving DecidableEq

namespace Exchanges

def start : Exchanges B := ⟨[], .idle⟩

/-- The history of the REQ socket. -/
def atReq (x : Exchanges B) : List (Event B) :=
  x.past.flatMap (fun e => [.sent e.1, .received e.2]) ++ x.phase.atReq

/-- The history of the REP socket. -/
def atRep (x : Exchanges B) : List (Event B) :=
  x.past.flatMap (fun e => [.received e.1, .sent e.2]) ++ x.phase.atRep

/-- The exchange under way moves on. -/
inductive Step : Exchanges B → Exchanges B → Prop
  | ask (past) (request : B) : Step ⟨past, .idle⟩ ⟨past, .asked request⟩
  | take (past) (request : B) : Step ⟨past, .asked request⟩ ⟨past, .taken request⟩
  | answer (past) (request reply : B) :
    Step ⟨past, .taken request⟩ ⟨past, .answered request reply⟩
  | hear (past) (request reply : B) :
    Step ⟨past, .answered request reply⟩ ⟨past ++ [(request, reply)], .idle⟩

variable (past : List (B × B)) (x : Exchanges B)

theorem sents_past_req : sents (past.flatMap fun e => [.sent e.1, .received e.2]) =
    past.map Prod.fst := by
  induction past with
  | nil => rfl
  | cons e past ih => rw [List.flatMap_cons, sents_append, ih]; rfl

theorem receiveds_past_req : receiveds (past.flatMap fun e => [.sent e.1, .received e.2]) =
    past.map Prod.snd := by
  induction past with
  | nil => rfl
  | cons e past ih => rw [List.flatMap_cons, receiveds_append, ih]; rfl

theorem sents_past_rep : sents (past.flatMap fun e => [.received e.1, .sent e.2]) =
    past.map Prod.snd := by
  induction past with
  | nil => rfl
  | cons e past ih => rw [List.flatMap_cons, sents_append, ih]; rfl

theorem receiveds_past_rep : receiveds (past.flatMap fun e => [.received e.1, .sent e.2]) =
    past.map Prod.fst := by
  induction past with
  | nil => rfl
  | cons e past ih => rw [List.flatMap_cons, receiveds_append, ih]; rfl

/-- Between exchanges it is the turn of the REQ socket to send. -/
theorem turn_past_req :
    (past.flatMap fun e => [Event.sent e.1, .received e.2]).foldl Event.owes true = true := by
  induction past with
  | nil => rfl
  | cons e past ih => rw [List.flatMap_cons, List.foldl_append]; exact ih

theorem turn_past_rep :
    (past.flatMap fun e => [Event.received e.1, .sent e.2]).foldl Event.owes false = false := by
  induction past with
  | nil => rfl
  | cons e past ih => rw [List.flatMap_cons, List.foldl_append]; exact ih

theorem turn_atReq : x.atReq.foldl Event.owes true = x.phase.atReq.foldl Event.owes true := by
  rw [atReq, List.foldl_append, turn_past_req]

theorem turn_atRep : x.atRep.foldl Event.owes false = x.phase.atRep.foldl Event.owes false := by
  rw [atRep, List.foldl_append, turn_past_rep]

end Exchanges

/-! ### The link -/

/-- The two ends of the link. -/
structure Link (B : Type) where
  req : Req B
  rep : Rep B

namespace Link

/-- Nothing has happened yet. -/
def fresh : Link B := ⟨Req.fresh, Rep.fresh⟩

/-- The requests on the way: sent and not yet received. -/
def requests (l : Link B) : List B := (sents l.req.log).drop (receiveds l.rep.log).length

/-- The replies on the way. -/
def replies (l : Link B) : List B := (sents l.rep.log).drop (receiveds l.req.log).length

/-- Something happens at one of the ends; what is received is the next on the way. -/
inductive Step (l : Link B) : Link B → Prop
  | req (e : Event B) (req : Req B) : req.log = l.req.log ++ [e] →
    (∀ reply, e = .received reply → l.replies.head? = some reply) → Step l ⟨req, l.rep⟩
  | rep (e : Event B) (rep : Rep B) : rep.log = l.rep.log ++ [e] →
    (∀ request, e = .received request → l.requests.head? = some request) → Step l ⟨l.req, rep⟩

section

variable {l : Link B} {arrives : Outcome B}

/-- What an operation at an end does is a step of the link, or nothing, if it receives
the next on the way. -/
theorem step_of_grows_req {req : Req B} (h : Grows arrives l.req.log req.log)
    (hnext : ∀ reply, arrives = .done reply → l.replies.head? = some reply) :
    ⟨req, l.rep⟩ = l ∨ l.Step ⟨req, l.rep⟩ := by
  generalize hlog : req.log = log at h
  cases h with
  | stays =>
    obtain rfl := Req.eq_of_log hlog
    exact .inl rfl
  | received reply harrives =>
    refine .inr (.req (.received reply) req hlog ?_)
    rintro _ ⟨⟩
    exact hnext reply harrives
  | sent request => exact .inr (.req (.sent request) req hlog (by simp))
  | refused => exact .inr (.req .refused req hlog (by simp))

theorem step_of_grows_rep {rep : Rep B} (h : Grows arrives l.rep.log rep.log)
    (hnext : ∀ request, arrives = .done request → l.requests.head? = some request) :
    ⟨l.req, rep⟩ = l ∨ l.Step ⟨l.req, rep⟩ := by
  generalize hlog : rep.log = log at h
  cases h with
  | stays =>
    obtain rfl := Rep.eq_of_log hlog
    exact .inl rfl
  | received request harrives =>
    refine .inr (.rep (.received request) rep hlog ?_)
    rintro _ ⟨⟩
    exact hnext request harrives
  | sent reply => exact .inr (.rep (.sent reply) rep hlog (by simp))
  | refused => exact .inr (.rep .refused rep hlog (by simp))

end

/-- The histories of the ends, refusals apart, are those of the exchanges. -/
structure Tracks (l : Link B) (x : Exchanges B) : Prop where
  req : happened l.req.log = x.atReq
  rep : happened l.rep.log = x.atRep

variable {l l' : Link B} {x : Exchanges B}

theorem tracks_fresh : (fresh : Link B).Tracks Exchanges.start := ⟨rfl, rfl⟩

namespace Tracks

theorem sents_req (h : l.Tracks x) :
    sents l.req.log = x.past.map Prod.fst ++ sents x.phase.atReq := by
  rw [← sents_happened, h.req, Exchanges.atReq, sents_append, Exchanges.sents_past_req]

theorem receiveds_req (h : l.Tracks x) : receiveds l.req.log = x.past.map Prod.snd := by
  rw [← receiveds_happened, h.req, Exchanges.atReq, receiveds_append, Exchanges.receiveds_past_req]
  cases x.phase <;> simp [Phase.atReq, receiveds, Event.receivedOnly]

theorem sents_rep (h : l.Tracks x) :
    sents l.rep.log = x.past.map Prod.snd ++ x.phase.replies := by
  rw [← sents_happened, h.rep, Exchanges.atRep, sents_append, Exchanges.sents_past_rep]
  cases x.phase <;> rfl

theorem receiveds_rep (h : l.Tracks x) :
    receiveds l.rep.log = x.past.map Prod.fst ++ receiveds x.phase.atRep := by
  rw [← receiveds_happened, h.rep, Exchanges.atRep, receiveds_append, Exchanges.receiveds_past_rep]

/-- **What is on the way** is what the phase says. -/
theorem requests_eq (h : l.Tracks x) : l.requests = x.phase.requests := by
  rw [requests, h.sents_req, h.receiveds_rep, List.length_append, List.drop_append,
    List.drop_eq_nil_of_le (Nat.le_add_right _ _)]
  cases x.phase <;>
    simp [Phase.atReq, Phase.atRep, Phase.requests, sents, receiveds, Event.sentOnly,
      Event.receivedOnly]

theorem replies_eq (h : l.Tracks x) : l.replies = x.phase.replies := by
  rw [replies, h.sents_rep, h.receiveds_req, List.length_map,
    List.drop_left' (List.length_map Prod.snd)]

/-- Nothing is lost, repeated or overtaken. -/
theorem requests_lossless (h : l.Tracks x) :
    receiveds l.rep.log ++ l.requests = sents l.req.log := by
  rw [h.requests_eq, h.receiveds_rep, h.sents_req, List.append_assoc]
  cases x.phase <;> rfl

theorem replies_lossless (h : l.Tracks x) :
    receiveds l.req.log ++ l.replies = sents l.rep.log := by
  rw [h.replies_eq, h.receiveds_req, h.sents_rep]

/-- There is one message on the way at most. -/
theorem onTheWay_le_one (h : l.Tracks x) : l.requests.length + l.replies.length ≤ 1 := by
  rw [h.requests_eq, h.replies_eq]
  cases x.phase <;> simp [Phase.requests, Phase.replies]

/-- The REQ socket may send exactly between exchanges. -/
theorem mayAsk_iff (h : l.Tracks x) : l.req.mayAsk = true ↔ x.phase = .idle := by
  rw [Req.mayAsk, ← turn_happened, h.req, x.turn_atReq]
  cases x.phase <;> simp [Phase.atReq, Event.owes]

/-- The REP socket owes a reply exactly while a request it received has none. -/
theorem owes_iff (h : l.Tracks x) : l.rep.owes = true ↔ ∃ request, x.phase = .taken request := by
  rw [Rep.owes, Zmq.owes, ← turn_happened, h.rep, x.turn_atRep]
  cases x.phase <;> simp [Phase.atRep, Event.owes]

end Tracks

/-- An event that is added to a history was in turn. -/
theorem inTurn_of_req {req : Req B} {e : Event B} (hlog : req.log = l.req.log ++ [e]) :
    e.InTurn l.req.mayAsk := by
  have halt := req.alternates
  rw [hlog, alternates_append] at halt
  exact halt.2.1

theorem inTurn_of_rep {rep : Rep B} {e : Event B} (hlog : rep.log = l.rep.log ++ [e]) :
    e.InTurn l.rep.owes := by
  have halt := rep.alternates
  rw [hlog, alternates_append] at halt
  exact halt.2.1

/-- **What happens at an end** is refused there, or moves the exchange on. -/
theorem Step.tracks (hstep : l.Step l') (h : l.Tracks x) :
    l'.Tracks x ∨ ∃ x', x.Step x' ∧ l'.Tracks x' := by
  obtain ⟨past, phase⟩ := x
  cases hstep with
  | req e req hlog hnext =>
    have hturn := inTurn_of_req hlog
    have hreq : happened req.log = Exchanges.atReq ⟨past, phase⟩ ++ happened [e] := by
      rw [hlog, happened_append, h.req]
    cases e with
    | refused => exact .inl ⟨hreq.trans (List.append_nil _), h.rep⟩
    | sent request =>
      -- only between exchanges
      obtain rfl : phase = .idle := h.mayAsk_iff.mp hturn
      refine .inr ⟨_, .ask past request, hreq.trans ?_, h.rep⟩
      simp [Exchanges.atReq, Phase.atReq, happened, Event.happens]
    | received reply =>
      have hhead := hnext reply rfl
      rw [h.replies_eq] at hhead
      cases phase with
      | answered request reply' =>
        obtain rfl : reply' = reply := Option.some.inj hhead
        refine .inr ⟨_, .hear past request reply', hreq.trans ?_, h.rep.trans ?_⟩
        · simp [Exchanges.atReq, Phase.atReq, happened, Event.happens]
        · simp [Exchanges.atRep, Phase.atRep]
      | idle => exact absurd hhead (by simp [Phase.replies])
      | asked request => exact absurd hhead (by simp [Phase.replies])
      | taken request => exact absurd hhead (by simp [Phase.replies])
  | rep e rep hlog hnext =>
    have hturn := inTurn_of_rep hlog
    have hrep : happened rep.log = Exchanges.atRep ⟨past, phase⟩ ++ happened [e] := by
      rw [hlog, happened_append, h.rep]
    cases e with
    | refused => exact .inl ⟨h.req, hrep.trans (List.append_nil _)⟩
    | sent reply =>
      -- only while a reply is owed
      obtain ⟨request, hphase⟩ := h.owes_iff.mp hturn
      obtain rfl : phase = .taken request := hphase
      refine .inr ⟨_, .answer past request reply, h.req, hrep.trans ?_⟩
      simp [Exchanges.atRep, Phase.atRep, happened, Event.happens]
    | received request =>
      have hhead := hnext request rfl
      rw [h.requests_eq] at hhead
      cases phase with
      | asked request' =>
        obtain rfl : request' = request := Option.some.inj hhead
        refine .inr ⟨_, .take past request', h.req, hrep.trans ?_⟩
        simp [Exchanges.atRep, Phase.atRep, happened, Event.happens]
      | idle => exact absurd hhead (by simp [Phase.requests])
      | taken request => exact absurd hhead (by simp [Phase.requests])
      | answered request reply => exact absurd hhead (by simp [Phase.requests])

/-- **The link runs through exchanges**, whatever is tried at its ends. -/
theorem tracks_of_reachable (h : Relation.ReflTransGen Step (fresh : Link B) l) :
    ∃ x, Relation.ReflTransGen Exchanges.Step Exchanges.start x ∧ l.Tracks x := by
  -- along the run: each step of the link is none or one of the exchanges
  induction h with
  | refl => exact ⟨_, .refl, tracks_fresh⟩
  | tail _ hstep ih =>
    obtain ⟨x, hx, htracks⟩ := ih
    rcases hstep.tracks htracks with h | ⟨x', hx', h⟩
    · exact ⟨x, hx, h⟩
    · exact ⟨x', hx.tail hx', h⟩

end Link

end Zmq
