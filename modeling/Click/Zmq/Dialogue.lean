/-
A list of requests and a server that responds.

The client program goes through a list of requests, each of which it sends and then
waits for the reply, and may send one more message at the end.  The server program
listens, responds to the requests it knows, and gives up on any other.

* `ClientProgram.Follows`, `ServerProgram.Serves` — what is asked of the two
  programs;
* `Peers.leads_of_follows` — then every schedule leads through the same states, and the client
  gets to its end exactly if the server responds to each of the requests.
-/
import Click.Zmq.Peers

open Turns

namespace Zmq

variable {A B : Type}

/-! ### The client -/

namespace ClientProgram

/-- What a client has made of the replies so far, and whether it is at its end. -/
structure View (C : ClientProgram B) (A : Type) where
  read : B → Option A
  heard : C.State → List A
  Ended : C.State → Prop

variable {C : ClientProgram B} (V : C.View A)

/-- The client goes through the requests, and then sends the last message if there is
one. -/
def Follows : List B → Option B → C.State → Prop
  | [], none, c => V.Ended c ∧ C.step none c = c
  | [], some last, c =>
    ∃ c', C.Asks c last c' ∧ V.heard c' = V.heard c ∧ V.Ended c' ∧ C.step none c' = c'
  | request :: rest, last, c =>
    ∃ c', C.Asks c request c' ∧ V.heard c' = V.heard c ∧ ¬ V.Ended c' ∧ C.step none c' = c' ∧
      ∀ reply a, V.read reply = some a →
        ∃ c'', C.Hears c' reply c'' ∧ V.heard c'' = V.heard c ++ [a] ∧ Follows rest last c''

/-- What is made of the replies to the requests, up to the first that has none. -/
def replies (respond : B → Option B) : List B → List A
  | [] => []
  | request :: rest =>
    match (respond request).bind V.read with
    | none => []
    | some a => a :: replies respond rest

end ClientProgram

/-! ### The server -/

namespace ServerProgram

variable (S : ServerProgram B)

/-- After some steps nothing happens at the server any more. -/
inductive GivesUp : S.State → Prop
  | stays {s : S.State} : (∀ poll, S.step poll s = s) → GivesUp s
  | passes {s s' : S.State} : S.Passes s s' → GivesUp s' → GivesUp s

/-- While it listens the server responds to the requests that are known, and gives up
on the others. -/
structure Serves (Good : B → Prop) (respond : B → Option B) (Listens : S.State → Prop) : Prop where
  wait : ∀ {s}, Listens s → S.step none s = s
  responds : ∀ {s request reply}, Listens s → Good request → respond request = some reply →
    ∃ s' s'', S.Takes s request s' ∧ S.Answers s' reply s'' ∧ Listens s''
  givesUp : ∀ {s request}, Listens s → Good request → respond request = none →
    ∃ s', S.Takes s request s' ∧ S.GivesUp s'

end ServerProgram

/-! ### Together -/

namespace Peers

variable {P : Peers B} {V : P.client.View A} {Good : B → Prop} {respond : B → Option B}
  {Listens : P.server.State → Prop} {requests : List B} {c : P.client.State}
  {s : P.server.State} {past : List (B × B)}

/-- A server that gives up leads to an end, while nothing is on the way. -/
theorem leads_of_givesUp (h : P.server.GivesUp s) {phase : Phase B}
    (hwait : P.client.step none c = c) (ht : (P.link (c, s)).Tracks ⟨past, phase⟩)
    (hreplies : phase.replies = []) (hrequests : phase.requests = []) :
    ∃ s', Leads P.step Turn.Arrived (c, s) (c, s') := by
  induction h with
  | stays hstay => exact ⟨_, leads_of_quiet hwait (hstay none) ht hreplies hrequests⟩
  | passes hpass _ ih =>
    obtain ⟨s', hrest⟩ := ih (tracks_of_passes hpass ht)
    exact ⟨s', leads_of_server hpass.step hwait ht hreplies hrest⟩

/-- A message to which no reply is awaited, or none comes. -/
theorem leads_of_unanswered (hserves : P.server.Serves Good respond Listens)
    {c' : P.client.State} {message : B} (hasks : P.client.Asks c message c')
    (hwait : P.client.step none c' = c') (hgood : Good message)
    (hnone : respond message = none) (hlistens : Listens s)
    (ht : (P.link (c, s)).Tracks ⟨past, .idle⟩) :
    ∃ s', Leads P.step Turn.Arrived (c, s) (c', s') := by
  obtain ⟨s₁, htakes, hgives⟩ := hserves.givesUp hlistens hgood hnone
  have h₁ := tracks_of_asks hasks ht
  obtain ⟨s', hrest⟩ := leads_of_givesUp hgives hwait (tracks_of_takes htakes h₁) rfl rfl
  exact ⟨s', leads_of_asks hasks htakes.wait ht (leads_of_takes htakes hwait h₁ hrest)⟩

/-- **The dialogue.**  Every schedule leads to one last state.  In it the client has
heard the replies up to the first request that has none.  If there is no such request it
is at its end, else its socket awaits a reply; it has refused nothing. -/
theorem leads_of_follows (hserves : P.server.Serves Good respond Listens) {last : Option B}
    (hlast : ∀ message ∈ last, Good message ∧ respond message = none)
    (hgood : ∀ request ∈ requests, Good request)
    (hread : ∀ request ∈ requests, ∀ reply, respond request = some reply →
      (V.read reply).isSome)
    (h : P.client.Follows V requests last c) (hlistens : Listens s)
    (ht : (P.link (c, s)).Tracks ⟨past, .idle⟩) (hrefused : .refused ∉ (P.client.socket c).log) :
    ∃ c' s', Leads P.step Turn.Arrived (c, s) (c', s') ∧
      V.heard c' = V.heard c ++ ClientProgram.replies V respond requests ∧
      (V.Ended c' ↔ ∀ request ∈ requests, (respond request).isSome) ∧
      (¬ V.Ended c' → (P.client.socket c').mayAsk = false) ∧
      .refused ∉ (P.client.socket c').log := by
  -- along the requests; each one that is answered is an exchange
  induction requests generalizing c s past with
  | nil =>
    cases last with
    | none =>
      obtain ⟨hended, hwait⟩ := h
      exact ⟨c, s, leads_of_quiet hwait (hserves.wait hlistens) ht rfl rfl,
        by simp [ClientProgram.replies], iff_of_true hended (by simp),
        absurd hended, hrefused⟩
    | some message =>
      obtain ⟨c', hasks, hheard, hended, hwait⟩ := h
      obtain ⟨hgood, hnone⟩ := hlast message rfl
      obtain ⟨s', hleads⟩ := leads_of_unanswered hserves hasks hwait hgood hnone hlistens ht
      exact ⟨c', s', hleads, by simp [ClientProgram.replies, hheard], iff_of_true hended (by simp),
        absurd hended, by simpa [hasks.log] using hrefused⟩
  | cons request rest ih =>
    obtain ⟨c₁, hasks, hheard, hended, hwait, hhears⟩ := h
    have hgood₁ := hgood request List.mem_cons_self
    cases hrespond : respond request with
    | none =>
      obtain ⟨s', hleads⟩ := leads_of_unanswered hserves hasks hwait hgood₁ hrespond hlistens ht
      exact ⟨c₁, s', hleads, by simp [ClientProgram.replies, hrespond, hheard],
        iff_of_false hended (by simp [hrespond]), fun _ => hasks.mayAsk,
        by simpa [hasks.log] using hrefused⟩
    | some reply =>
      obtain ⟨a, ha⟩ := Option.isSome_iff_exists.mp
        (hread request List.mem_cons_self reply hrespond)
      obtain ⟨s₁, s₂, htakes, hanswers, hlistens'⟩ := hserves.responds hlistens hgood₁ hrespond
      obtain ⟨c₂, hhear, hheard₂, hfollows⟩ := hhears reply a ha
      have htalks : P.Talks (c, s) [(request, reply)] (c₂, s₂) :=
        .cons hasks htakes hanswers hhear (hserves.wait hlistens') (.nil _)
      obtain ⟨hmid, hrest⟩ := htalks.leads ht
      obtain ⟨c', s', hleads, hheard', hended', hwaits', hrefused'⟩ :=
        ih (fun r hr => hgood r (List.mem_cons_of_mem _ hr))
          (fun r hr => hread r (List.mem_cons_of_mem _ hr)) hfollows hlistens'
          hmid (by simpa [hhear.log, hasks.log] using hrefused)
      refine ⟨c', s', hrest _ hleads, ?_, ?_, hwaits', hrefused'⟩
      · simp [ClientProgram.replies, hrespond, ha, hheard', hheard₂]
      · simp [hended', hrespond]

end Peers

end Zmq
