/-
The Python server and its size collector.

`pclick.Server` tells a collector the size of what it receives and sends.  The
collector that traces changes keeps the last size of each direction and a flag that
says whether that differed from the one before; reading the flags clears both.

A run is a list of calls, each with the outcome the socket has in store for it; a
call that raises leaves the server as it was at the raise.  What the calls did with
the sizes is kept beside it as a trace, and what the collector reports is compared
with that.

* `Server.exec_size_collector` — what a call does to the collector;
* `Size.changed_of_lastDiffers` — where the collector keeps up, a flag means a change;
* `Run.passed_trace` — the trace holds what passed over the socket;
* `Run.reports_iff` — the collector reports every change exactly where it keeps up.
-/
import Click.PythonSerializer
import Click.Zmq.Rep

open Proto Zmq Trace

namespace Click.Pclick

/-- What the methods of the server may raise. -/
inductive Raised
  | assertionError
  | attributeError
  /-- The message is too large to be serialized. -/
  | encodeError
  /-- `zmq.Again`. -/
  | again
  /-- `zmq.ZMQError`. -/
  | zmqError
  | fromBytes (e : Error)
  deriving DecidableEq

/-! ### Collectors -/

structure SizeCollectorChanges where
  send_updated : Bool := false
  recv_updated : Bool := false
  send_size : Option ℕ := none
  recv_size : Option ℕ := none
  deriving DecidableEq

namespace SizeCollectorChanges

variable (c : SizeCollectorChanges)

/-- Reading the property clears both flags. -/
def is_updated : SizeCollectorChanges × Bool :=
  ({ c with send_updated := false, recv_updated := false }, c.recv_updated || c.send_updated)

def sendSize (len : ℕ) : Except Raised SizeCollectorChanges :=
  if 0 < len then
    .ok { c with send_updated := some len != c.send_size, send_size := some len }
  else .error .assertionError

def recvSize (len : ℕ) : Except Raised SizeCollectorChanges :=
  if 0 < len then
    .ok { c with recv_updated := some len != c.recv_size, recv_size := some len }
  else .error .assertionError

end SizeCollectorChanges

/-- A `SizeCollector`: the base class does nothing. -/
inductive SizeCollector
  | base
  | changes (c : SizeCollectorChanges)
  deriving DecidableEq

namespace SizeCollector

def sendSize : SizeCollector → ℕ → Except Raised SizeCollector
  | base, _ => .ok base
  | changes c, len => (c.sendSize len).map changes

def recvSize : SizeCollector → ℕ → Except Raised SizeCollector
  | base, _ => .ok base
  | changes c, len => (c.recvSize len).map changes

def is_updated : SizeCollector → SizeCollector × Except Raised Bool
  | base => (base, .error .attributeError)
  | changes c => (changes c.is_updated.1, .ok c.is_updated.2)

end SizeCollector

/-! ### The server -/

structure Server where
  size_collector : SizeCollector
  socket : Rep Bytes

namespace Server

variable (server : Server)

/-- What `socket.recv` returned or raised. -/
def socketRecv (arrives : Outcome Bytes) : Server × Except Raised Bytes :=
  let (socket, got) := server.socket.recv arrives
  let server := { server with socket }
  match got with
  | .done serialized => (server, .ok serialized)
  | .again => (server, .error .again)
  | .error => (server, .error .zmqError)

/-- `Server.recv`.  Only `zmq.Again` is caught. -/
def recv [Runtime] (arrives : Outcome Bytes) : Server × Except Raised (Option Message) :=
  match server.socketRecv arrives with
  | (server, .error .again) => (server, .ok none)
  | (server, .error e) => (server, .error e)
  | (server, .ok serialized) =>
    match server.size_collector.recvSize serialized.length with
    | .error e => (server, .error e)
    | .ok size_collector =>
      ({ server with size_collector }, ((from_bytes serialized).mapError .fromBytes).map some)

/-- `Server.recv_blocking`. -/
def recv_blocking [Runtime] (arrives : Outcome Bytes) : Server × Except Raised Message :=
  match server.socketRecv arrives with
  | (server, .error e) => (server, .error e)
  | (server, .ok serialized) => (server, (from_bytes serialized).mapError .fromBytes)

/-- `message.SerializeToString()`, where `serialized` is some encoding. -/
def serializeToString (message : Message)
    (serialized : { out // Click.serializeToString message out }) : Except Raised Bytes :=
  if message.cls.schema.byteSize message.pm ≤ maxSize then .ok serialized.1
  else .error .encodeError

/-- `Server.send`. -/
def send (message : Message) (serialized : { out // Click.serializeToString message out })
    (outcome : Outcome Unit) : Server × Except Raised Unit :=
  match serializeToString message serialized with
  | .error e => (server, .error e)
  | .ok serialized =>
    match server.size_collector.sendSize serialized.length with
    | .error e => (server, .error e)
    | .ok size_collector =>
      let (socket, sent) := server.socket.send serialized outcome
      let server := { size_collector, socket }
      match sent with
      | .done _ => (server, .ok ())
      | .again => (server, .error .again)
      | .error => (server, .error .zmqError)

/-- A read of `server.size_collector.is_updated`. -/
def is_updated : Server × Except Raised Bool :=
  let (size_collector, res) := server.size_collector.is_updated
  ({ server with size_collector }, res)

/-- The calls of a run, each with the outcome the socket has in store for it. -/
inductive Call
  | recv (arrives : Outcome Bytes)
  | recv_blocking (arrives : Outcome Bytes)
  | send (message : Message) (serialized : { out // Click.serializeToString message out })
      (outcome : Outcome Unit)
  | is_updated

/-- What a call returns. -/
inductive Returned
  | received (m : Option Message)
  | sent
  | updated (b : Bool)
  deriving DecidableEq

def exec [Runtime] : Call → Server × Except Raised Returned
  | .recv arrives =>
    let (server, res) := server.recv arrives
    (server, res.map .received)
  | .recv_blocking arrives =>
    let (server, res) := server.recv_blocking arrives
    (server, res.map fun m => .received (some m))
  | .send message serialized outcome =>
    let (server, res) := server.send message serialized outcome
    (server, res.map fun _ => .sent)
  | .is_updated =>
    let (server, res) := server.is_updated
    (server, res.map .updated)

end Server

/-! ### Traces of sizes -/

/-- What a call did with the size of a message. -/
inductive Size
  /-- A message came in, by `recv` or by `recv_blocking`. -/
  | received (len : ℕ) (blocking : Bool)
  /-- A message went out. -/
  | sent (len : ℕ)
  /-- `send` raised at the socket, after it told the collector. -/
  | failed (len : ℕ)
  /-- `is_updated` was read. -/
  | read
  | nothing
  deriving DecidableEq

inductive Direction
  | recv
  | send
  deriving DecidableEq

namespace Size

/-- The size of a message that was received or sent. -/
def passed : Direction → Size → Option ℕ
  | .recv, .received len _ => some len
  | .send, .sent len => some len
  | _, _ => none

/-- The size the collector is told. -/
def traced : Direction → Size → Option ℕ
  | .recv, .received len false => some len
  | .send, .sent len => some len
  | .send, .failed len => some len
  | _, _ => none

/-- The last size in a trace that `f` sees. -/
def last (f : Size → Option ℕ) (t : List Size) : Option ℕ := (t.filterMap f).getLast?

/-- Since the last read a message was received or sent whose size differs from that
of the message before it in the same direction. -/
def Changed (t : List Size) : Prop :=
  Since (fun pre e => ∃ d len, e.passed d = some len ∧ last (passed d) pre ≠ some len)
    (· = .read) t

/-- The last size the collector was told since the last read, in direction `d`,
differs from the one before it. -/
def LastDiffers (d : Direction) (t : List Size) : Prop :=
  Since (fun pre e => ∃ len, e.traced d = some len ∧ last (traced d) pre ≠ some len)
    (fun e => e = .read ∨ ∃ len, e.traced d = some len) t

/-- Where the collector keeps up with the messages: one that it is not told of, and
one that it is told of but that is not sent, has the size of the one before; and at
a read after a change, the last size told in one of the directions is a change. -/
def KeepsUp (pre : List Size) : Size → Prop
  | .received len true => last (passed .recv) pre = some len
  | .failed len => last (passed .send) pre = some len
  | .read => Changed pre → ∃ d, LastDiffers d pre
  | _ => True

end Size

/-- What a call does with the size of a message, by the state of the socket. -/
def Server.Call.size (socket : Rep Bytes) : Server.Call → Size
  | .recv arrives =>
    match (socket.recv arrives).2 with
    | .done serialized => .received serialized.length false
    | _ => .nothing
  | .recv_blocking arrives =>
    match (socket.recv arrives).2 with
    | .done serialized => .received serialized.length true
    | _ => .nothing
  | .send message serialized outcome =>
    match Server.serializeToString message serialized with
    | .error _ => .nothing
    | .ok serialized =>
      match (socket.send serialized outcome).2 with
      | .done _ => .sent serialized.length
      | _ => .failed serialized.length
  | .is_updated => .read

/-- A server and what its calls have done so far with the sizes. -/
structure Run where
  server : Server
  trace : List Size

namespace Run

/-- A new server whose collector traces changes. -/
def start : Run := ⟨⟨.changes {}, Rep.fresh⟩, []⟩

def step [Runtime] (r : Run) (call : Server.Call) : Run :=
  ⟨(r.server.exec call).1, r.trace ++ [call.size r.server.socket]⟩

/-- After calls, whether or not they raised. -/
def after [Runtime] (calls : List Server.Call) : Run := calls.foldl step start

end Run

/-! ### Along a trace -/

namespace SizeCollectorChanges

/-- The collector's size of a direction, and its flag. -/
def size (c : SizeCollectorChanges) : Direction → Option ℕ
  | .recv => c.recv_size
  | .send => c.send_size

def updated (c : SizeCollectorChanges) : Direction → Bool
  | .recv => c.recv_updated
  | .send => c.send_updated

/-- What the collector makes of a call. -/
def note (c : SizeCollectorChanges) : Size → SizeCollectorChanges
  | .received len false =>
    { c with recv_updated := some len != c.recv_size, recv_size := some len }
  | .sent len | .failed len =>
    { c with send_updated := some len != c.send_size, send_size := some len }
  | .read => c.is_updated.1
  | .received _ true | .nothing => c

theorem size_note (c : SizeCollectorChanges) (e : Size) (d : Direction) :
    (c.note e).size d = (e.traced d).or (c.size d) := by
  rcases e with ⟨len, _ | _⟩ | len | len | _ | _ <;> cases d <;> rfl

theorem updated_note_of_traced (c : SizeCollectorChanges) {e : Size} {d : Direction} {len : ℕ}
    (h : e.traced d = some len) : (c.note e).updated d = (some len != c.size d) := by
  rcases e with ⟨len', _ | _⟩ | len' | len' | _ | _ <;> cases d <;>
    first
      | (obtain rfl := Option.some.inj h; rfl)
      | exact absurd h (by simp [Size.traced])

theorem updated_note_of_not_traced (c : SizeCollectorChanges) {e : Size} {d : Direction}
    (h : e.traced d = none) (he : e ≠ .read) : (c.note e).updated d = c.updated d := by
  rcases e with ⟨len', _ | _⟩ | len' | len' | _ | _ <;> cases d <;>
    first
      | rfl
      | exact absurd rfl he
      | exact absurd h (by simp [Size.traced])

theorem updated_note_read (c : SizeCollectorChanges) (d : Direction) :
    (c.note .read).updated d = false := by
  cases d <;> rfl

/-- A read yields both flags. -/
theorem is_updated_snd (c : SizeCollectorChanges) :
    c.is_updated.2 = true ↔ ∃ d, c.updated d = true := by
  rw [is_updated, Bool.or_eq_true]
  constructor
  · rintro (h | h)
    · exact ⟨.recv, h⟩
    · exact ⟨.send, h⟩
  · rintro ⟨_ | _, h⟩
    · exact .inl h
    · exact .inr h

end SizeCollectorChanges

namespace Size

variable {t : List Size} {d : Direction}

@[simp] theorem last_nil (f : Size → Option ℕ) : last f [] = none := rfl

@[simp] theorem last_snoc (f : Size → Option ℕ) (t : List Size) (e : Size) :
    last f (t ++ [e]) = (f e).or (last f t) := by
  rcases hf : f e with _ | len
  · simp [last, List.filterMap_append, hf]
  · simp [last, List.filterMap_append, hf]

/-- The collector knows what it was told. -/
structure Knows (c : SizeCollectorChanges) (t : List Size) : Prop where
  size : ∀ d, c.size d = last (traced d) t
  updated : ∀ d, c.updated d = true ↔ LastDiffers d t

theorem knows_nil : Knows {} [] where
  size d := by cases d <;> rfl
  updated d := iff_of_false (by cases d <;> decide) not_since_nil

theorem Knows.note {c : SizeCollectorChanges} (h : Knows c t) (e : Size) :
    Knows (c.note e) (t ++ [e]) where
  size d := by rw [c.size_note, last_snoc, h.size]
  updated d := by
    rw [LastDiffers, since_snoc]
    rcases htr : e.traced d with _ | len
    · by_cases he : e = .read
      · subst he
        rw [c.updated_note_read]
        exact iff_of_false (by simp) (by simp)
      · rw [c.updated_note_of_not_traced htr he, h.updated]
        simp [he, LastDiffers]
    · rw [c.updated_note_of_traced htr, h.size, bne_iff_ne]
      simp [eq_comm]

/-- Where the collector keeps up, its sizes are those of the messages. -/
theorem last_traced_of_keepsUp (h : Always KeepsUp t) (d : Direction) :
    last (traced d) t = last (passed d) t := by
  induction t using List.reverseRecOn with
  | nil => rfl
  | append_singleton t e ih =>
    obtain ⟨ht, he⟩ := always_snoc.mp h
    rw [last_snoc, last_snoc, ih ht]
    -- only a message that is told of but not sent, or the other way round, matters
    rcases e with ⟨len, _ | _⟩ | len | len | _ | _ <;> cases d <;>
      first
        | rfl
        | exact he
        | exact he.symm

/-- What the collector takes for a change is one, where it keeps up. -/
theorem changed_of_lastDiffers (h : Always KeepsUp t) (hd : LastDiffers d t) : Changed t := by
  induction t using List.reverseRecOn with
  | nil => exact absurd hd not_since_nil
  | append_singleton t e ih =>
    obtain ⟨ht, he⟩ := always_snoc.mp h
    rw [Changed, since_snoc]
    rcases since_snoc.mp hd with ⟨len, htr, hne⟩ | ⟨hstop, hd⟩
    · rw [last_traced_of_keepsUp ht] at hne
      refine .inl ⟨d, len, ?_, hne⟩
      -- a message that was not sent has the size of the one before
      rcases e with ⟨len', _ | _⟩ | len' | len' | _ | _ <;> cases d <;>
        first
          | exact htr
          | exact absurd (he.trans htr) hne
          | exact absurd htr (by simp [traced])
    · exact .inr ⟨fun hread => hstop (.inl hread), ih ht hd⟩

end Size

/-! ### Along a run -/

/-- Messages are not empty. -/
def Server.Call.Positive : Server.Call → Prop
  | .recv arrives | .recv_blocking arrives => ∀ serialized, arrives = .done serialized →
      0 < serialized.length
  | .send message _ _ => 0 < message.cls.schema.byteSize message.pm
  | .is_updated => True

theorem Server.Call.eq_is_updated {socket : Rep Bytes} {call : Server.Call}
    (h : call.size socket = .read) : call = .is_updated := by
  cases call with
  | recv arrives => simp only [size] at h; split at h <;> simp at h
  | recv_blocking arrives => simp only [size] at h; split at h <;> simp at h
  | send message serialized outcome =>
    simp only [size] at h
    split at h
    · simp at h
    · split at h <;> simp at h
  | is_updated => rfl

/-- An encoding has the size that was computed for it. -/
theorem Server.length_serializeToString {message : Message}
    {serialized : { out // Click.serializeToString message out }} {b : Bytes}
    (h : serializeToString message serialized = .ok b) :
    b.length = message.cls.schema.byteSize message.pm := by
  rw [serializeToString] at h
  split at h
  · next hmax =>
    obtain rfl := Except.ok.inj h
    exact message.cls.schema_lawful.length_serializes ((serializeToString_iff hmax).mp serialized.2)
  · exact absurd h (by simp)

/-- **What a call does to the collector.** -/
theorem Server.exec_size_collector [Runtime] {server : Server} {c : SizeCollectorChanges}
    (hc : server.size_collector = .changes c) {call : Call} (hpos : call.Positive) :
    (server.exec call).1.size_collector = .changes (c.note (call.size server.socket)) := by
  cases call with
  | recv arrives =>
    simp only [exec, recv, socketRecv, Call.size]
    rcases hr : server.socket.recv arrives with ⟨socket, serialized | _ | _⟩
    · have hlen : 0 < serialized.length := hpos _ (Rep.arrives_of_recv (by rw [hr]))
      simp only [hc, SizeCollector.recvSize, SizeCollectorChanges.recvSize, if_pos hlen]
      rfl
    · exact hc
    · exact hc
  | recv_blocking arrives =>
    simp only [exec, recv_blocking, socketRecv, Call.size]
    rcases hr : server.socket.recv arrives with ⟨socket, serialized | _ | _⟩
    · exact hc
    · exact hc
    · exact hc
  | send message serialized outcome =>
    simp only [exec, send, Call.size]
    rcases hser : serializeToString message serialized with e | b
    · exact hc
    · have hlen : 0 < b.length := hpos.trans_eq (length_serializeToString hser).symm
      simp only [hc, SizeCollector.sendSize, SizeCollectorChanges.sendSize, if_pos hlen]
      rcases server.socket.send b outcome with ⟨socket, _ | _ | _⟩ <;> rfl
  | is_updated =>
    simp only [exec, is_updated, hc]
    rfl

/-- The size of a message in the history of the socket. -/
def Direction.length : Direction → Event Bytes → Option ℕ
  | .recv, .received request => some request.length
  | .send, .sent reply => some reply.length
  | _, _ => none

theorem Server.exec_log [Runtime] {server : Server} {c : SizeCollectorChanges}
    (hc : server.size_collector = .changes c) {call : Call} (hpos : call.Positive)
    (d : Direction) :
    (server.exec call).1.socket.log.filterMap d.length =
      server.socket.log.filterMap d.length ++
        [call.size server.socket].filterMap (Size.passed d) := by
  have hrefused : d.length .refused = none := by cases d <;> rfl
  cases call with
  | recv arrives =>
    have hlog := server.socket.filterMap_recv hrefused arrives
    simp only [exec, recv, socketRecv, Call.size]
    rcases hr : server.socket.recv arrives with ⟨socket, serialized | _ | _⟩ <;> rw [hr] at hlog
    · have hlen : 0 < serialized.length := hpos _ (Rep.arrives_of_recv (by rw [hr]))
      simp only [hc, SizeCollector.recvSize, SizeCollectorChanges.recvSize, if_pos hlen]
      cases d <;> exact hlog
    · cases d <;> exact hlog
    · cases d <;> exact hlog
  | recv_blocking arrives =>
    have hlog := server.socket.filterMap_recv hrefused arrives
    simp only [exec, recv_blocking, socketRecv, Call.size]
    rcases hr : server.socket.recv arrives with ⟨socket, serialized | _ | _⟩ <;> rw [hr] at hlog
    · cases d <;> exact hlog
    · cases d <;> exact hlog
    · cases d <;> exact hlog
  | send message serialized outcome =>
    simp only [exec, send, Call.size]
    rcases hser : serializeToString message serialized with e | b
    · cases d <;> simp [Size.passed]
    · have hlog := server.socket.filterMap_send hrefused b outcome
      have hlen : 0 < b.length := hpos.trans_eq (length_serializeToString hser).symm
      simp only [hc, SizeCollector.sendSize, SizeCollectorChanges.sendSize, if_pos hlen]
      rcases hr : server.socket.send b outcome with ⟨socket, _ | _ | _⟩ <;> rw [hr] at hlog
      · cases d <;> exact hlog
      · cases d <;> exact hlog
      · cases d <;> exact hlog
  | is_updated =>
    rw [exec, is_updated]
    cases d <;> simp [Call.size, Size.passed]

namespace Run

section

variable [Runtime] {calls : List Server.Call}

@[simp] theorem after_snoc (calls : List Server.Call) (call : Server.Call) :
    after (calls ++ [call]) = (after calls).step call := by
  rw [after, List.foldl_append]
  rfl

/-- The collector knows what it was told after any calls. -/
theorem knows (hpos : ∀ call ∈ calls, call.Positive) :
    ∃ c, (after calls).server.size_collector = .changes c ∧ Size.Knows c (after calls).trace := by
  induction calls using List.reverseRecOn with
  | nil => exact ⟨{}, rfl, Size.knows_nil⟩
  | append_singleton calls call ih =>
    obtain ⟨c, hc, hknows⟩ := ih fun call' h => hpos call' (by simp [h])
    rw [after_snoc]
    exact ⟨_, Server.exec_size_collector hc (hpos call (by simp)), hknows.note _⟩

/-- **The trace holds what passed over the socket.** -/
theorem passed_trace (hpos : ∀ call ∈ calls, call.Positive) (d : Direction) :
    (after calls).trace.filterMap (Size.passed d) =
      (after calls).server.socket.log.filterMap d.length := by
  induction calls using List.reverseRecOn with
  | nil => rfl
  | append_singleton calls call ih =>
    have hpos' : ∀ call' ∈ calls, call'.Positive := fun call' h => hpos call' (by simp [h])
    obtain ⟨c, hc, -⟩ := knows hpos'
    rw [after_snoc, step, Server.exec_log hc (hpos call (by simp)), List.filterMap_append, ih hpos']

/-- What the tracing of sizes owes at a call: afterwards the sizes are those of the
last messages received and sent; and a read tells whether there was a change. -/
structure ReportsAt (r : Run) (call : Server.Call) : Prop where
  sizes : ∃ c, (r.step call).server.size_collector = .changes c ∧
    ∀ d, c.size d = Size.last (Size.passed d) (r.step call).trace
  read : call = .is_updated → ∃ updated, (r.server.exec call).2 = .ok (.updated updated) ∧
    (updated = true ↔ Size.Changed r.trace)

/-- At every call. -/
def Reports (calls : List Server.Call) : Prop :=
  Always (fun pre call => (after pre).ReportsAt call) calls

/-- At one call, the collector having kept up so far. -/
theorem reportsAt_iff {r : Run} {c : SizeCollectorChanges}
    (hc : r.server.size_collector = .changes c) (hknows : Size.Knows c r.trace)
    (hup : Always Size.KeepsUp r.trace) {call : Server.Call} (hpos : call.Positive) :
    r.ReportsAt call ↔ Size.KeepsUp r.trace (call.size r.server.socket) := by
  have hc' : (r.step call).server.size_collector = .changes (c.note (call.size r.server.socket)) :=
    Server.exec_size_collector hc hpos
  have hread : call = .is_updated →
      (r.server.exec call).2 = .ok (.updated c.is_updated.2) := by
    rintro rfl
    simp only [Server.exec, Server.is_updated, hc]
    rfl
  have hflag : c.is_updated.2 = true ↔ ∃ d, Size.LastDiffers d r.trace := by
    rw [c.is_updated_snd]
    exact exists_congr hknows.updated
  constructor
  · rintro ⟨⟨c', hc'', hsizes⟩, hreport⟩
    obtain rfl := SizeCollector.changes.inj (hc'.symm.trans hc'')
    have hsize : ∀ d,
        ((call.size r.server.socket).traced d).or (Size.last (Size.passed d) r.trace) =
          ((call.size r.server.socket).passed d).or (Size.last (Size.passed d) r.trace) := by
      intro d
      have hd := hsizes d
      rw [c.size_note, hknows.size, Size.last_traced_of_keepsUp hup, step, Size.last_snoc] at hd
      exact hd
    cases hs : call.size r.server.socket with
    | received len blocking =>
      rw [hs] at hsize
      cases blocking with
      | true => exact hsize .recv
      | false => trivial
    | failed len =>
      rw [hs] at hsize
      exact (hsize .send).symm
    | read =>
      obtain ⟨updated, hupd, hiff⟩ := hreport (Server.Call.eq_is_updated hs)
      rw [hread (Server.Call.eq_is_updated hs), Except.ok.injEq, Server.Returned.updated.injEq]
        at hupd
      intro hchanged
      exact hflag.mp (hupd.trans (hiff.mpr hchanged))
    | sent len => trivial
    | nothing => trivial
  · intro hkeeps
    have hup' : Always Size.KeepsUp (r.step call).trace := always_snoc.mpr ⟨hup, hkeeps⟩
    refine ⟨⟨_, hc', fun d => ?_⟩, ?_⟩
    · rw [(hknows.note _).size]
      exact Size.last_traced_of_keepsUp hup' d
    · rintro rfl
      refine ⟨_, hread rfl, hflag.trans ⟨?_, hkeeps⟩⟩
      rintro ⟨d, hd⟩
      exact Size.changed_of_lastDiffers hup hd

/-- **When the size tracing reports every change**: exactly if it keeps up at every
call. -/
theorem reports_iff (calls : List Server.Call) (hpos : ∀ call ∈ calls, call.Positive) :
    Reports calls ↔ Always Size.KeepsUp (after calls).trace := by
  induction calls using List.reverseRecOn with
  | nil => exact iff_of_true always_nil always_nil
  | append_singleton calls call ih =>
    have hpos' : ∀ call' ∈ calls, call'.Positive := fun call' h => hpos call' (by simp [h])
    obtain ⟨c, hc, hknows⟩ := knows hpos'
    rw [Reports, always_snoc, ← Reports, ih hpos', after_snoc, step, always_snoc]
    refine and_congr_right fun hup => ?_
    exact reportsAt_iff hc hknows hup (hpos call (by simp))

end

theorem reports_iff_control :
    let _ := Runtime.cpp
    let control : Message := ⟨.controlMessage, { messageType := MessageType.ControlMessageType }⟩
    let encoded : { out // serializeToString control out } :=
      ⟨[8, 2], (serializeToString_iff (by decide)).mpr
        (control.cls.schema_lawful.serializes_serialize control.pm)⟩
    let calls : List Server.Call :=
      [.recv (.done [8, 2]), .send control encoded (.done ()), .is_updated, .recv .again]
    Reports calls ↔ Always Size.KeepsUp (after calls).trace := by
  intro _ control encoded calls
  refine reports_iff calls fun call hcall => ?_
  simp only [calls, List.mem_cons, List.not_mem_nil, or_false] at hcall
  rcases hcall with rfl | rfl | rfl | rfl
  · rintro _ ⟨⟩
    decide
  · exact show 0 < control.cls.schema.byteSize control.pm by decide
  · trivial
  · rintro _ ⟨⟩

/-- A blocking receive does not tell the collector. -/
theorem not_reports : let _ := Runtime.cpp
    ¬ ∀ calls, (∀ call ∈ calls, call.Positive) → Reports calls := by
  intro _ h
  have hpos : ∀ call ∈ [Server.Call.recv_blocking (.done [8, 2])], call.Positive := by
    intro call hcall
    obtain rfl := List.mem_singleton.mp hcall
    rintro _ ⟨⟩
    decide
  obtain ⟨⟨c, hc, hsizes⟩, -⟩ := h _ hpos [] _ [] rfl
  obtain rfl : {} = c := SizeCollector.changes.inj hc
  exact absurd (hsizes .recv) (by decide)

end Run

end Click.Pclick
