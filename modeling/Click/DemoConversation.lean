/-
The demo programs talk to each other.

Either demo client is started against either demo server, each in a process of its own
and with its own way to encode messages.  The two take turns in any order, and what is
on the way to a program may arrive at once or later.

* `Demo.converses` — whatever the order, the programs make the calls of a conversation;
* `Demo.leads` — whatever the order, the programs go through one dialogue;
* `Demo.hears_in_order` — at any time the client has received the first of the server's
  responses, in order, and its socket has refused nothing;
* `Demo.finishes` — if each program gets its turn again and again, the dialogue comes to
  an end, and the client to its own end exactly if the server knows all its messages;
  else it awaits a reply for good.
-/
import Click.DemoCalls
import Click.DemoMessages

open Proto Zmq Fluent Turns

namespace Click

open Conversation

/-! ### Servers -/

namespace DemoServer

/-- What is sent in response, if anything is. -/
def response : DemoServer → Message → Option Message
  | cpp _ => Demoserver.reply Demoserver.sensorMessage.1
  | python _ => Pclick.Demo.response

def program [Pclick.Runtime] (ser : Encoder) : DemoServer → ServerProgram Bytes
  | cpp blocking_receive => Demoserver.program ser blocking_receive Demoserver.sensorMessage.1
  | python trace_sizes => Pclick.Demo.program ser trace_sizes

/-- The server before its first operation. -/
def start [Pclick.Runtime] (ser : Encoder) : (server : DemoServer) → (server.program ser).State
  | cpp _ => (⟨.bound, .receive⟩ : Demoserver.State)
  | python trace_sizes =>
    (⟨⟨if trace_sizes then .changes {} else .base, Rep.fresh⟩, .recv⟩ : Pclick.Demo.State)

/-- The server as a side of a conversation. -/
def side [Pclick.Runtime] (ser : Encoder) :
    (server : DemoServer) → (server.program ser).State → ServerEnd
  | cpp _, s => .cpp (Demoserver.State.system s)
  | python _, s => .python (Pclick.Demo.State.server s)

/-- The server responds to messages of the class. -/
def Knows (server : DemoServer) (c : MessageClass) : Prop :=
  match server with
  | cpp _ => c ≠ .errorMessage
  | python _ => c = .handshakeInitMessage ∨ c = .controlMessage

/-- The responses to some messages, up to the first that has none. -/
def responses (server : DemoServer) : List Message → List Message
  | [] => []
  | m :: rest =>
    match server.response m with
    | none => []
    | some r => r :: responses server rest

variable (server : DemoServer) (ser : Encoder)

theorem response_isSome_iff {m : Message} (h : m.Tagged) :
    (server.response m).isSome ↔ server.Knows m.cls := by
  have htype : ∀ c : MessageClass, m.messageType = c.tag ↔ m.cls = c := fun c =>
    ⟨fun heq => MessageClass.tag_injective (h.symm.trans heq), fun heq => heq ▸ h⟩
  cases server with
  | cpp b =>
    rw [response, Knows, ← not_iff_not, not_not, Option.not_isSome_iff_eq_none]
    refine ⟨fun hnone => ?_, fun hcls => Demoserver.reply_error ((htype .errorMessage).mpr hcls)⟩
    by_contra hcls
    obtain ⟨r, hr⟩ := Demoserver.reply_ne_none Demoserver.sensorMessage.1
      (mt (htype .errorMessage).mp hcls)
    exact absurd (hr.symm.trans hnone) (by simp)
  | python b =>
    rw [response, Knows, Pclick.Demo.response, ← htype .handshakeInitMessage,
      ← htype .controlMessage]
    by_cases hinit : m.messageType = MessageType.HandshakeInitMessageType
    · rw [if_pos hinit]
      exact iff_of_true rfl (.inl hinit)
    · rw [if_neg hinit]
      by_cases hcontrol : m.messageType = MessageType.ControlMessageType
      · rw [if_pos hcontrol]
        exact iff_of_true rfl (.inr hcontrol)
      · rw [if_neg hcontrol]
        exact iff_of_false (by simp) (not_or.mpr ⟨hinit, hcontrol⟩)

/-- No server responds to an ErrorMessage. -/
theorem not_knows_errorMessage : ¬ server.Knows .errorMessage := by
  cases server <;> simp [Knows]

theorem fit_response {m r : Message} (h : server.response m = some r) : Fit r := by
  cases server with
  | cpp b => exact Demoserver.fit_reply h
  | python b => exact Pclick.Demo.fit_response h

/-- The server listens from the start. -/
theorem serves [Pclick.Runtime] : ∃ Listens,
    (server.program ser).Serves Sound (respondWith ser server.response) Listens ∧
      Listens (server.start ser) ∧
      (server.program ser).socket (server.start ser) = Rep.fresh := by
  cases server with
  | cpp b => exact ⟨_, Demoserver.serves ser b _, ⟨rfl, rfl⟩, rfl⟩
  | python b =>
    refine ⟨_, Pclick.Demo.serves ser b, ⟨rfl, rfl, ?_⟩, rfl⟩
    cases b <;> rfl

end DemoServer

/-! ### Clients -/

/-- The demo clients and what they are started with. -/
inductive DemoClient
  | cpp (blocking_receive : Bool) (n : ℤ)
  | python (float : Pclick.DemoClient.PyFloat) (args : Pclick.DemoClient.Args)

namespace DemoClient

/-- The messages to which a reply is awaited, and the one that is sent at the end. -/
def script : DemoClient → Except Pclick.DemoClient.Error (List Message × Option Message)
  | cpp blocking_receive n =>
    .ok ((Democlient.script blocking_receive n Democlient.controlMessage.1).map Prod.fst, none)
  | python float args => Pclick.DemoClient.script float args

def program [Pclick.Runtime] (ser : Encoder) : DemoClient → ClientProgram Bytes
  | cpp _ _ => Democlient.program ser
  | python _ _ => Pclick.DemoClient.program ser

def view [Pclick.Runtime] (ser : Encoder) :
    (client : DemoClient) → (client.program ser).View Message
  | cpp _ _ => Democlient.view ser
  | python _ _ => Pclick.DemoClient.view ser

/-- The client before its first operation; the Python client raises where it does not
accept its arguments. -/
def start [Pclick.Runtime] (ser : Encoder) : (client : DemoClient) →
    Except Pclick.DemoClient.Error (client.program ser).State
  | cpp blocking_receive n => .ok (⟨⟨Req.fresh⟩,
      Democlient.proceed (Democlient.script blocking_receive n Democlient.controlMessage.1), []⟩ :
        Democlient.State)
  | python float args => (Pclick.DemoClient.script float args).map fun s =>
      (⟨⟨Req.fresh⟩, Pclick.DemoClient.proceed s.2 s.1, s.2, []⟩ : Pclick.DemoClient.State)

/-- The client as a side of a conversation. -/
def side [Pclick.Runtime] (ser : Encoder) :
    (client : DemoClient) → (client.program ser).State → ClientEnd
  | cpp _ _, s => .cpp (Democlient.State.client s)
  | python _ _, s => .python (Pclick.DemoClient.State.client s)

variable {client : DemoClient} {messages : List Message} {last : Option Message}

theorem fit_script (h : client.script = .ok (messages, last))
    (hsmall : ∀ m ∈ messages, Pclick.DemoClient.Small m) :
    (∀ m ∈ messages, Fit m) ∧ ∀ m ∈ last, m = Pclick.DemoClient.errormessage := by
  cases client with
  | cpp blocking_receive n =>
    obtain ⟨rfl, rfl⟩ := Prod.mk.inj (Except.ok.inj h)
    refine ⟨fun m hm => ?_, by simp⟩
    obtain ⟨x, hx, rfl⟩ := List.mem_map.mp hm
    exact Democlient.fit_script blocking_receive n x hx
  | python float args => exact Pclick.DemoClient.fit_script h hsmall

/-- **What the demo clients ask**, from the start. -/
theorem follows [Pclick.Runtime] (ser : Encoder) (h : client.script = .ok (messages, last))
    (hsmall : ∀ m ∈ messages, Pclick.DemoClient.Small m) :
    ∃ c, client.start ser = .ok c ∧ (client.program ser).socket c = Req.fresh ∧
      (client.view ser).heard c = [] ∧
      (client.program ser).Follows (client.view ser) (messages.map fun m => (ser m).1)
        (last.map fun m => (ser m).1) c := by
  cases client with
  | cpp blocking_receive n =>
    obtain ⟨rfl, rfl⟩ := Prod.mk.inj (Except.ok.inj h)
    refine ⟨_, rfl, rfl, rfl, ?_⟩
    have hfollows := Democlient.follows ser
      (Democlient.script blocking_receive n Democlient.controlMessage.1)
      ⟨Req.fresh⟩ rfl []
    rwa [List.map_map]
  | python float args =>
    obtain ⟨-, hlast⟩ := fit_script h hsmall
    refine ⟨_, congrArg (Except.map _) h, rfl, rfl, ?_⟩
    refine Pclick.DemoClient.follows ser (fun m hm => ?_) hsmall ⟨Req.fresh⟩ rfl []
    rw [hlast m hm]
    decide

end DemoClient

/-! ### The conversation -/

namespace Demo

/-- A demo client and a demo server, joined by a link. -/
def peers [Pclick.Runtime] (client : DemoClient) (server : DemoServer) (serC serS : Encoder) :
    Peers Bytes :=
  ⟨client.program serC, server.program serS⟩

/-- The two sides of the programs. -/
def conversation [Pclick.Runtime] {client : DemoClient} {server : DemoServer} {serC serS : Encoder}
    (s : (peers client server serC serS).State) : Conversation :=
  ⟨client.side serC s.1, server.side serS s.2⟩

section

variable [Pclick.Runtime] {client : DemoClient} {server : DemoServer} {serC serS : Encoder}

theorem link_conversation (s : (peers client server serC serS).State) :
    (conversation s).link = (peers client server serC serS).link s := by
  cases client <;> cases server <;> rfl

/-- **A turn** is a call of the program whose turn it is, or a few, or none. -/
theorem comes_turn (turn : Turn) (s : (peers client server serC serS).State) :
    ∃ heard, (client.view serC).heard ((peers client server serC serS).step turn s).1 =
        (client.view serC).heard s.1 ++ heard ∧
      (conversation s).Comes heard
        (conversation ((peers client server serC serS).step turn s)) := by
  have hlink := link_conversation s
  obtain ⟨c, s⟩ := s
  cases turn with
  | client hasArrived =>
    have hpoll : ∀ b, (if hasArrived then
        ((peers client server serC serS).link (c, s)).replies.head? else none) = some b →
          ((conversation (c, s)).onTheWay .client).head? = some b := by
      rintro b hb
      cases hasArrived with
      | false => exact absurd hb (by simp)
      | true => rwa [onTheWay, hlink]
    cases client with
    | cpp blocking_receive n => exact Democlient.comes_step _ serC _ c hpoll
    | python float args => exact Pclick.DemoClient.comes_step _ serC _ c hpoll
  | server hasArrived =>
    have hpoll : ∀ b, (if hasArrived then
        ((peers client server serC serS).link (c, s)).requests.head? else none) = some b →
          ((conversation (c, s)).onTheWay .server).head? = some b := by
      rintro b hb
      cases hasArrived with
      | false => exact absurd hb (by simp)
      | true => rwa [onTheWay, hlink]
    refine ⟨[], (List.append_nil _).symm, ?_⟩
    cases server with
    | cpp blocking_receive => exact Demoserver.comes_step _ serS _ blocking_receive _ s hpoll
    | python trace_sizes => exact Pclick.Demo.comes_step _ serS _ trace_sizes s hpoll

/-- What has happened at the socket of the client, and what it has heard, only grows. -/
theorem prefix_turn (turn : Turn) (s : (peers client server serC serS).State) :
    ((client.program serC).socket s.1).log <+:
        ((client.program serC).socket ((peers client server serC serS).step turn s).1).log ∧
      (client.view serC).heard s.1 <+:
        (client.view serC).heard ((peers client server serC serS).step turn s).1 := by
  have hlog : ∀ s : (peers client server serC serS).State,
      (conversation s).log .client = ((client.program serC).socket s.1).log := by
    intro s
    cases client <;> rfl
  obtain ⟨heard, hheard, calls, hruns, -⟩ := comes_turn turn s
  have hgrows := hruns.isPrefix .client
  rw [hlog, hlog] at hgrows
  exact ⟨hgrows, hheard ▸ List.prefix_append _ _⟩

theorem new_start (server : DemoServer) (serS : Encoder) {c : (client.program serC).State}
    (h : client.start serC = .ok c) :
    (⟨client.side serC c, server.side serS (server.start serS)⟩ : Conversation).New ∧
      (client.view serC).heard c = [] := by
  have hserver : (server.side serS (server.start serS)).New := by
    cases server <;> rfl
  cases client with
  | cpp blocking_receive n =>
    obtain rfl := Except.ok.inj h
    exact ⟨⟨rfl, hserver⟩, rfl⟩
  | python float args =>
    obtain ⟨script, -, rfl⟩ := map_eq_ok.mp h
    exact ⟨⟨rfl, hserver⟩, rfl⟩

/-- **Two demo programs that talk are a conversation.**  Whatever they are started with
and whatever turns they take, they only make calls of `Client` and `Server`, and what the
client has heard is what its calls returned.  So they go through exchanges, even where a
program throws or does not know what to make of a message. -/
theorem converses {c : (client.program serC).State} (hstart : client.start serC = .ok c)
    (schedule : ℕ → Turn) (k : ℕ) :
    let start := (c, server.start serS)
    let s := after (peers client server serC serS).step schedule start k
    (∃ calls, (conversation start).Runs calls (conversation s) ∧
        returned .client calls = (client.view serC).heard s.1) ∧
      ∃ x, Relation.ReflTransGen Exchanges.Step Exchanges.start x ∧
        ((peers client server serC serS).link s).Tracks x := by
  intro start s
  obtain ⟨hnew, hheard⟩ := new_start server serS hstart
  have hcomes : (conversation start).Comes ((client.view serC).heard s.1) (conversation s) := by
    -- along the turns
    induction k with
    | zero =>
      have hrefl : (conversation start).Comes [] (conversation start) := .refl _
      rwa [← hheard] at hrefl
    | succ k ih =>
      obtain ⟨heard, hheard', hturn⟩ := comes_turn (schedule k)
        (after (peers client server serC serS).step schedule start k)
      have hall := ih.trans hturn
      rwa [← hheard'] at hall
  obtain ⟨calls, hruns, hreturned⟩ := hcomes
  refine ⟨⟨calls, hruns, hreturned⟩, ?_⟩
  rw [← link_conversation]
  exact tracks_of_runs hnew hruns

end

/-- The Python client that sends an ErrorMessage after its handshake, to the C++ server. -/
theorem converses_error :
    let _ := Pclick.Runtime.cpp
    let client := DemoClient.python Pclick.DemoClient.floatZero { end_with_errormessage := true }
    ∃ c, client.start canonical = .ok c ∧ ∀ (schedule : ℕ → Turn) (k : ℕ),
      let start := (c, (DemoServer.cpp false).start canonical)
      let s := after (peers client (.cpp false) canonical canonical).step schedule start k
      ∃ calls, (conversation start).Runs calls (conversation s) ∧
        returned .client calls = (client.view canonical).heard s.1 := by
  intro _ client
  exact ⟨_, rfl, fun schedule k => (converses rfl schedule k).1⟩

/-! ### The dialogue -/

variable {client : DemoClient} {server : DemoServer} {messages : List Message}
  {last : Option Message}

theorem respondWith_encodes {m : Message} (h : Fit m) (serC serS : Encoder) :
    respondWith serS server.response (serC m).1 =
      (server.response m).map fun r => (serS r).1 := by
  rw [respondWith, (h.encodes serC).fromBytes_eq]

/-- What the client makes of the responses. -/
theorem read_encodes [Pclick.Runtime] {r : Message} (h : Fit r) (serC serS : Encoder)
    (client : DemoClient) : (client.view serC).read (serS r).1 = some r := by
  cases client with
  | cpp _ _ => exact congrArg Except.toOption (h.encodes serS).fromBytes_eq
  | python _ _ => exact congrArg Except.toOption (h.encodes serS).from_bytes_eq

theorem replies_eq [Pclick.Runtime] (hfit : ∀ m ∈ messages, Fit m) (serC serS : Encoder)
    (client : DemoClient) :
    ClientProgram.replies (client.view serC) (respondWith serS server.response)
      (messages.map fun m => (serC m).1) = server.responses messages := by
  induction messages with
  | nil => rfl
  | cons m rest ih =>
    obtain ⟨hm, hrest⟩ := List.forall_mem_cons.mp hfit
    rw [List.map_cons, ClientProgram.replies, DemoServer.responses,
      respondWith_encodes hm serC serS]
    cases hr : server.response m with
    | none => rfl
    | some r =>
      rw [Option.map_some, Option.bind_some,
        read_encodes (server.fit_response hr) serC serS client]
      exact congrArg _ (ih hrest)

/-- **There is one dialogue**, whatever the order of turns. -/
theorem leads [Pclick.Runtime] (client : DemoClient) (server : DemoServer) (serC serS : Encoder)
    (hscript : client.script = .ok (messages, last))
    (hsmall : ∀ m ∈ messages, Pclick.DemoClient.Small m) :
    ∃ c c' s', client.start serC = .ok c ∧
      Leads (peers client server serC serS).step Turn.Arrived (c, server.start serS) (c', s') ∧
      (client.view serC).heard c' = server.responses messages ∧
      ((client.view serC).Ended c' ↔ ∀ m ∈ messages, server.Knows m.cls) ∧
      (¬ (client.view serC).Ended c' → ((client.program serC).socket c').mayAsk = false) ∧
      .refused ∉ ((client.program serC).socket c').log := by
  obtain ⟨hfit, hlast⟩ := DemoClient.fit_script hscript hsmall
  obtain ⟨c, hstart, hsocket, hheard, hfollows⟩ := DemoClient.follows serC hscript hsmall
  obtain ⟨Listens, hserves, hlistens, hfresh⟩ := server.serves serS
  have htracks : ((peers client server serC serS).link (c, server.start serS)).Tracks
      ⟨[], .idle⟩ := by
    have hlink : (peers client server serC serS).link (c, server.start serS) = Link.fresh :=
      congrArg₂ Link.mk hsocket hfresh
    rw [hlink]
    exact Link.tracks_fresh
  have hlast' : ∀ b ∈ last.map fun m => (serC m).1,
      Sound b ∧ respondWith serS server.response b = none := by
    intro b hb
    obtain ⟨m, hm, rfl⟩ := Option.map_eq_some_iff.mp hb
    rw [hlast m hm]
    have hfit : Fit Pclick.DemoClient.errormessage :=
      Pclick.DemoClient.fit_create_message .errorMessage
    refine ⟨hfit.sound serC, ?_⟩
    rw [respondWith_encodes hfit serC serS, Option.map_eq_none_iff,
      ← Option.not_isSome_iff_eq_none, server.response_isSome_iff hfit.tagged]
    exact server.not_knows_errorMessage
  have hgood : ∀ b ∈ messages.map fun m => (serC m).1, Sound b := by
    intro b hb
    obtain ⟨m, hm, rfl⟩ := List.mem_map.mp hb
    exact (hfit m hm).sound serC
  have hread : ∀ b ∈ messages.map fun m => (serC m).1, ∀ reply,
      respondWith serS server.response b = some reply →
        ((client.view serC).read reply).isSome := by
    intro b hb reply hreply
    obtain ⟨m, hm, rfl⟩ := List.mem_map.mp hb
    rw [respondWith_encodes (hfit m hm) serC serS] at hreply
    obtain ⟨r, hr, rfl⟩ := Option.map_eq_some_iff.mp hreply
    rw [read_encodes (server.fit_response hr) serC serS client]
    rfl
  obtain ⟨c', s', hleads, hheard', hended, hwaits, hrefused⟩ := Peers.leads_of_follows
    (P := peers client server serC serS) hserves hlast' hgood hread hfollows hlistens htracks
    (by rw [show (peers client server serC serS).client.socket c = Req.fresh from hsocket]
        exact List.not_mem_nil)
  refine ⟨c, c', s', hstart, hleads, ?_, hended.trans ?_, hwaits, hrefused⟩
  · refine hheard'.trans ?_
    rw [hheard, List.nil_append]
    exact replies_eq hfit serC serS client
  · simp only [List.forall_mem_map]
    refine forall₂_congr fun m hm => ?_
    rw [respondWith_encodes (hfit m hm) serC serS, Option.isSome_map,
      server.response_isSome_iff (hfit m hm).tagged]

/-- **A client hears the responses in order.**  Whatever turns the programs take, what
the client has received so far are the first of the server's responses to its messages,
up to one that has none, and its socket has never refused an operation. -/
theorem hears_in_order [Pclick.Runtime] (client : DemoClient) (server : DemoServer)
    (serC serS : Encoder)
    (hscript : client.script = .ok (messages, last))
    (hsmall : ∀ m ∈ messages, Pclick.DemoClient.Small m) :
    ∃ c, client.start serC = .ok c ∧ ∀ (schedule : ℕ → Turn) (k : ℕ),
      let s := after (peers client server serC serS).step schedule (c, server.start serS) k
      (client.view serC).heard s.1 <+: server.responses messages ∧
        .refused ∉ ((client.program serC).socket s.1).log := by
  obtain ⟨c, c', s', hstart, hleads, hheard, -, -, hrefused⟩ :=
    leads client server serC serS hscript hsmall
  refine ⟨c, hstart, fun schedule k => ⟨?_, fun hmem => hrefused ?_⟩⟩
  · rw [← hheard]
    refine hleads.prefix_after (f := fun s => (client.view serC).heard s.1) ?_ schedule k
    exact fun turn s => (prefix_turn turn s).2
  · refine List.IsPrefix.mem hmem ?_
    refine hleads.prefix_after (f := fun s => ((client.program serC).socket s.1).log) ?_ schedule k
    exact fun turn s => (prefix_turn turn s).1

/-- The C++ client that sends two control messages to the Python server. -/
theorem hears_in_order_control :
    let _ := Pclick.Runtime.cpp
    ∃ c, (DemoClient.cpp true 2).start canonical = .ok c ∧ ∀ (schedule : ℕ → Turn) (k : ℕ),
      let s := after (peers (.cpp true 2) (.python true) canonical canonical).step schedule
        (c, (DemoServer.python true).start canonical) k
      ((DemoClient.cpp true 2).view canonical).heard s.1 <+:
          [Pclick.Demo.handshake_message, Pclick.Demo.sensor_message,
            Pclick.Demo.sensor_message] ∧
        .refused ∉ (((DemoClient.cpp true 2).program canonical).socket s.1).log := by
  intro _
  have hsmall : ∀ m ∈ (Democlient.script true 2 Democlient.controlMessage.1).map Prod.fst,
      Pclick.DemoClient.Small m := by
    intro m hm
    obtain ⟨x, hx, rfl⟩ := List.mem_map.mp hm
    exact (Democlient.fit_script true 2 x hx).small
  exact hears_in_order (.cpp true 2) (.python true) canonical canonical rfl hsmall

/-- **How a dialogue ends.**  If each program gets its turn again and again, and what is
on the way to it arrives at some time, the programs come to a state that they keep.  In
it the client has received all the responses, and it is at its own end exactly if the
server responds to all its messages; if not, it awaits a reply. -/
theorem finishes [Pclick.Runtime] (client : DemoClient) (server : DemoServer)
    (serC serS : Encoder)
    (hscript : client.script = .ok (messages, last))
    (hsmall : ∀ m ∈ messages, Pclick.DemoClient.Small m) :
    ∃ c c' s', client.start serC = .ok c ∧
      (∀ schedule, Fair Turn.Arrived schedule → ∃ n, ∀ k, n ≤ k →
        after (peers client server serC serS).step schedule (c, server.start serS) k = (c', s')) ∧
      (client.view serC).heard c' = server.responses messages ∧
      ((client.view serC).Ended c' ↔ ∀ m ∈ messages, server.Knows m.cls) ∧
      (¬ (client.view serC).Ended c' → ((client.program serC).socket c').mayAsk = false) := by
  obtain ⟨c, c', s', hstart, hleads, hheard, hended, hwaits, -⟩ :=
    leads client server serC serS hscript hsmall
  exact ⟨c, c', s', hstart, fun schedule hfair => hleads.eventually hfair, hheard, hended,
    hwaits⟩

/-- The Python client that sends a ResetMessage to the Python server waits forever. -/
theorem finishes_reset :
    let _ := Pclick.Runtime.cpp
    let client := DemoClient.python Pclick.DemoClient.floatZero { resetmessage := true }
    ∃ c c' s', client.start canonical = .ok c ∧
      (∀ schedule, Fair Turn.Arrived schedule → ∃ n, ∀ k, n ≤ k →
        after (peers client (.python false) canonical canonical).step schedule
          (c, (DemoServer.python false).start canonical) k = (c', s')) ∧
      (client.view canonical).heard c' = [] ∧ ¬ (client.view canonical).Ended c' ∧
      ((client.program canonical).socket c').mayAsk = false := by
  intro _ client
  have hsmall : ∀ m ∈ [(⟨.resetMessage, Pclick.create_message .resetMessage⟩ : Message)],
      Pclick.DemoClient.Small m := by
    decide
  obtain ⟨c, c', s', hstart, hleads, hheard, hended, hwaits⟩ :=
    @finishes _ none _ client (.python false) canonical canonical rfl hsmall
  have hnever : ¬ (client.view canonical).Ended c' := by
    intro h
    rcases hended.mp h _ List.mem_cons_self with h | h <;> exact absurd h (by decide)
  exact ⟨c, c', s', hstart, hleads, hheard, hnever, hwaits hnever⟩

end Demo

end Click
