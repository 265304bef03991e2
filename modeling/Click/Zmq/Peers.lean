/-
Programs at the two ends of a link.

A program at a socket goes from one operation to the next.  In a turn it makes its
next operation, for which it is handed what has arrived; a program that waits for a
message and finds none stays where it is.  The turns of the two programs come in any
order, and what is on the way may arrive at once or later.

* `ClientProgram.Asks`, `ServerProgram.Takes`, `ServerProgram.Answers`,
  `ClientProgram.Hears` — what the programs do in the phases of an exchange;
* `Peers.Talks.leads` — programs that go through exchanges together do so in one way,
  whatever the schedule;
* `Peers.leads_of_quiet` — where such a talk ends.
-/
import Click.Trace.Turns
import Click.Zmq.Link

open Turns

namespace Zmq

/-- A program at a REQ socket.  A step is handed what has arrived. -/
structure ClientProgram (B : Type) where
  State : Type
  socket : State → Req B
  step : Option B → State → State

/-- A program at a REP socket. -/
structure ServerProgram (B : Type) where
  State : Type
  socket : State → Rep B
  step : Option B → State → State

variable {B : Type}

/-! ### What a program does next -/

namespace ClientProgram

variable (C : ClientProgram B)

/-- The client sends the request. -/
structure Asks (c : C.State) (request : B) (c' : C.State) : Prop where
  step : ∀ poll, C.step poll c = c'
  log : (C.socket c').log = (C.socket c).log ++ [.sent request]

theorem Asks.mayAsk {C : ClientProgram B} {c c' : C.State} {request : B}
    (h : C.Asks c request c') : (C.socket c').mayAsk = false := by
  rw [Req.mayAsk, h.log, List.foldl_append]
  rfl

/-- The client waits until the reply arrives, and receives it. -/
structure Hears (c : C.State) (reply : B) (c' : C.State) : Prop where
  wait : C.step none c = c
  step : C.step (some reply) c = c'
  log : (C.socket c').log = (C.socket c).log ++ [.received reply]

end ClientProgram

namespace ServerProgram

variable (S : ServerProgram B)

/-- The server waits until the request arrives, and receives it. -/
structure Takes (s : S.State) (request : B) (s' : S.State) : Prop where
  wait : S.step none s = s
  step : S.step (some request) s = s'
  log : (S.socket s').log = (S.socket s).log ++ [.received request]

/-- The server sends the reply. -/
structure Answers (s : S.State) (reply : B) (s' : S.State) : Prop where
  step : ∀ poll, S.step poll s = s'
  log : (S.socket s').log = (S.socket s).log ++ [.sent reply]

/-- The server goes on, and nothing happens at its socket. -/
structure Passes (s s' : S.State) : Prop where
  step : ∀ poll, S.step poll s = s'
  log : happened (S.socket s').log = happened (S.socket s).log

end ServerProgram

/-! ### The two programs together -/

/-- Whose turn it is, and whether what is on the way to it has arrived. -/
inductive Turn
  | client (arrived : Bool)
  | server (arrived : Bool)
  deriving DecidableEq

/-- The turn of a program to which what is on the way has arrived. -/
def Turn.Arrived : Turn → Prop
  | client arrived | server arrived => arrived = true

/-- The two programs, joined by a link. -/
structure Peers (B : Type) where
  client : ClientProgram B
  server : ServerProgram B

namespace Peers

variable (P : Peers B)

abbrev State := P.client.State × P.server.State

def link (s : P.State) : Link B := ⟨P.client.socket s.1, P.server.socket s.2⟩

/-- A turn: the program goes on, with the next message on the way if it has arrived. -/
def step : Turn → P.State → P.State
  | .client arrived, s =>
    (P.client.step (if arrived then (P.link s).replies.head? else none) s.1, s.2)
  | .server arrived, s =>
    (s.1, P.server.step (if arrived then (P.link s).requests.head? else none) s.2)

/-- The programs go through exchanges, each a request and its reply. -/
inductive Talks : P.State → List (B × B) → P.State → Prop
  | nil (s : P.State) : Talks s [] s
  | cons {c c₁ c₂ : P.client.State} {s s₁ s₂ : P.server.State} {request reply : B}
    {rest : List (B × B)} {last : P.State} : P.client.Asks c request c₁ →
    P.server.Takes s request s₁ → P.server.Answers s₁ reply s₂ →
    P.client.Hears c₁ reply c₂ → P.server.step none s₂ = s₂ → Talks (c₂, s₂) rest last →
    Talks (c, s) ((request, reply) :: rest) last

variable {P} {c c' : P.client.State} {s s' : P.server.State} {request reply : B}
  {past : List (B × B)} {phase : Phase B}

/-! ### What that does to the exchange under way -/

theorem tracks_of_asks (h : P.client.Asks c request c')
    (ht : (P.link (c, s)).Tracks ⟨past, .idle⟩) :
    (P.link (c', s)).Tracks ⟨past, .asked request⟩ where
  req := by
    rw [link, h.log, happened_append, show happened (P.client.socket c).log = _ from ht.req]
    simp [Exchanges.atReq, Phase.atReq, happened, Event.happens]
  rep := ht.rep

theorem tracks_of_takes (h : P.server.Takes s request s')
    (ht : (P.link (c, s)).Tracks ⟨past, .asked request⟩) :
    (P.link (c, s')).Tracks ⟨past, .taken request⟩ where
  req := ht.req
  rep := by
    rw [link, h.log, happened_append, show happened (P.server.socket s).log = _ from ht.rep]
    simp [Exchanges.atRep, Phase.atRep, happened, Event.happens]

theorem tracks_of_answers (h : P.server.Answers s reply s')
    (ht : (P.link (c, s)).Tracks ⟨past, .taken request⟩) :
    (P.link (c, s')).Tracks ⟨past, .answered request reply⟩ where
  req := ht.req
  rep := by
    rw [link, h.log, happened_append, show happened (P.server.socket s).log = _ from ht.rep]
    simp [Exchanges.atRep, Phase.atRep, happened, Event.happens]

theorem tracks_of_hears (h : P.client.Hears c reply c')
    (ht : (P.link (c, s)).Tracks ⟨past, .answered request reply⟩) :
    (P.link (c', s)).Tracks ⟨past ++ [(request, reply)], .idle⟩ where
  req := by
    rw [link, h.log, happened_append, show happened (P.client.socket c).log = _ from ht.req]
    simp [Exchanges.atReq, Phase.atReq, happened, Event.happens]
  rep := ht.rep.trans (by simp [Exchanges.atRep, Phase.atRep])

theorem tracks_of_passes (h : P.server.Passes s s') {x : Exchanges B}
    (ht : (P.link (c, s)).Tracks x) : (P.link (c, s')).Tracks x where
  req := ht.req
  rep := by
    rw [link, h.log]
    exact ht.rep

/-! ### Turns -/

/-- A client with nothing on the way to it waits. -/
theorem client_waits (hwait : P.client.step none c = c) (ht : (P.link (c, s)).Tracks ⟨past, phase⟩)
    (hnone : phase.replies = []) (arrived : Bool) :
    P.step (.client arrived) (c, s) = (c, s) := by
  rw [step, ht.replies_eq, hnone]
  cases arrived <;> exact congrArg (·, s) hwait

theorem server_waits (hwait : P.server.step none s = s) (ht : (P.link (c, s)).Tracks ⟨past, phase⟩)
    (hnone : phase.requests = []) (arrived : Bool) :
    P.step (.server arrived) (c, s) = (c, s) := by
  rw [step, ht.requests_eq, hnone]
  cases arrived <;> exact congrArg (c, ·) hwait

variable {last : P.State}

theorem leads_of_asks (h : P.client.Asks c request c') (hwait : P.server.step none s = s)
    (ht : (P.link (c, s)).Tracks ⟨past, .idle⟩)
    (hrest : Leads P.step Turn.Arrived (c', s) last) : Leads P.step Turn.Arrived (c, s) last := by
  have hstep : ∀ arrived, P.step (.client arrived) (c, s) = (c', s) := fun arrived =>
    congrArg (·, s) (h.step _)
  refine .turn (.client true) rfl (hstep true) (fun turn => ?_) hrest
  cases turn with
  | client arrived => exact .inr (hstep arrived)
  | server arrived => exact .inl (server_waits hwait ht rfl arrived)

theorem leads_of_takes (h : P.server.Takes s request s') (hwait : P.client.step none c = c)
    (ht : (P.link (c, s)).Tracks ⟨past, .asked request⟩)
    (hrest : Leads P.step Turn.Arrived (c, s') last) : Leads P.step Turn.Arrived (c, s) last := by
  have hstep : P.step (.server true) (c, s) = (c, s') := by
    rw [step, ht.requests_eq]
    exact congrArg (c, ·) h.step
  refine .turn (.server true) rfl hstep (fun turn => ?_) hrest
  cases turn with
  | client arrived => exact .inl (client_waits hwait ht rfl arrived)
  | server arrived =>
    cases arrived with
    | true => exact .inr hstep
    | false => exact .inl (congrArg (c, ·) h.wait)

theorem leads_of_server (hstep : ∀ poll, P.server.step poll s = s')
    (hwait : P.client.step none c = c) (ht : (P.link (c, s)).Tracks ⟨past, phase⟩)
    (hnone : phase.replies = []) (hrest : Leads P.step Turn.Arrived (c, s') last) :
    Leads P.step Turn.Arrived (c, s) last := by
  have hstep : ∀ arrived, P.step (.server arrived) (c, s) = (c, s') := fun arrived =>
    congrArg (c, ·) (hstep _)
  refine .turn (.server true) rfl (hstep true) (fun turn => ?_) hrest
  cases turn with
  | client arrived => exact .inl (client_waits hwait ht hnone arrived)
  | server arrived => exact .inr (hstep arrived)

theorem leads_of_hears (h : P.client.Hears c reply c') (hwait : P.server.step none s = s)
    (ht : (P.link (c, s)).Tracks ⟨past, .answered request reply⟩)
    (hrest : Leads P.step Turn.Arrived (c', s) last) : Leads P.step Turn.Arrived (c, s) last := by
  have hstep : P.step (.client true) (c, s) = (c', s) := by
    rw [step, ht.replies_eq]
    exact congrArg (·, s) h.step
  refine .turn (.client true) rfl hstep (fun turn => ?_) hrest
  cases turn with
  | client arrived =>
    cases arrived with
    | true => exact .inr hstep
    | false => exact .inl (congrArg (·, s) h.wait)
  | server arrived => exact .inl (server_waits hwait ht rfl arrived)

/-- **Programs that talk** are led through their exchanges by any schedule. -/
theorem Talks.leads {start mid : P.State} {xs : List (B × B)} (h : P.Talks start xs mid)
    (ht : (P.link start).Tracks ⟨past, .idle⟩) :
    (P.link mid).Tracks ⟨past ++ xs, .idle⟩ ∧
      ∀ last, Leads P.step Turn.Arrived mid last → Leads P.step Turn.Arrived start last := by
  induction h generalizing past with
  | nil s => exact ⟨by rwa [List.append_nil], fun _ => id⟩
  | cons hasks htakes hanswers hhears hwait _ ih =>
    have h₁ := tracks_of_asks hasks ht
    have h₂ := tracks_of_takes htakes h₁
    have h₃ := tracks_of_answers hanswers h₂
    obtain ⟨hmid, hrest⟩ := ih (tracks_of_hears hhears h₃)
    refine ⟨by rwa [List.append_assoc] at hmid, fun last hlast => ?_⟩
    refine leads_of_asks hasks htakes.wait ht ?_
    refine leads_of_takes htakes hhears.wait h₁ ?_
    refine leads_of_server hanswers.step hhears.wait h₂ rfl ?_
    exact leads_of_hears hhears hwait h₃ (hrest last hlast)

/-- Both programs wait, and nothing is on the way. -/
theorem leads_of_quiet (hclient : P.client.step none c = c) (hserver : P.server.step none s = s)
    (ht : (P.link (c, s)).Tracks ⟨past, phase⟩) (hreplies : phase.replies = [])
    (hrequests : phase.requests = []) : Leads P.step Turn.Arrived (c, s) (c, s) := by
  refine .rest fun turn => ?_
  cases turn with
  | client arrived => exact client_waits hclient ht hreplies arrived
  | server arrived => exact server_waits hserver ht hrequests arrived

end Peers

end Zmq
