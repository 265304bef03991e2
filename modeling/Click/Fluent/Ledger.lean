/-
Ledgers: named entries, one of which is current.

A call may open an entry, which creates it if need be and makes it current, or
act on the current entry.  What an entry holds in the end depends only on its own
openings and on the acts made while it was current; the entries in between do not
matter.

* `Simulates.look_run` — an object whose calls behave like events of a ledger can
  be followed one entry at a time through a whole run;
* `kept_run` — if opening an entry again leaves it alone, it holds every act made
  on it, in order, and is there exactly when it was opened;
* `track_sessions` — where the calls come in sessions, an entry depends on its own
  sessions only: if it is kept on opening, on all of them (`kept_sessions`), if it is
  emptied, on the last (`fresh_sessions`).
-/
import Click.Fluent.Chain

namespace Fluent

/-- What a call does to the entries of one kind. -/
inductive Event (K O : Type)
  | enter (k : K)
  | act (o : O)

/-- How an entry changes: by being opened (from `none` if it is not there yet)
and by an act. -/
structure Ledger (O V : Type) where
  enter : Option V → V
  act : V → O → V

/-- Opening an entry that is there leaves it alone. -/
def Ledger.kept {O V : Type} (init : V) (act : V → O → V) : Ledger O V where
  enter v := v.getD init
  act := act

/-- Opening an entry empties it. -/
def Ledger.fresh {O V : Type} (init : V) (act : V → O → V) : Ledger O V where
  enter _ := init
  act := act

section Lemmas

variable {O V : Type} (init : V) (act : V → O → V)

@[simp] theorem kept_enter (v : Option V) : (Ledger.kept init act).enter v = v.getD init := rfl

@[simp] theorem kept_act : (Ledger.kept init act).act = act := rfl

@[simp] theorem fresh_enter (v : Option V) : (Ledger.fresh init act).enter v = init := rfl

@[simp] theorem fresh_act : (Ledger.fresh init act).act = act := rfl

end Lemmas

section Track

variable {K O V : Type} [DecidableEq K]

/-- One entry of a ledger: whether it is current, and what it holds. -/
def Ledger.track (L : Ledger O V) (k : K) (e : Bool × Option V) : Event K O → Bool × Option V
  | .enter k' => if k' = k then (true, some (L.enter e.2)) else (false, e.2)
  | .act o => if e.1 then (true, e.2.map fun v => L.act v o) else e

/-- `k` is opened. -/
def opened (k : K) : List (Event K O) → Bool
  | [] => false
  | .enter k' :: es => decide (k' = k) || opened k es
  | .act _ :: es => opened k es

/-- The acts made while `k` is current; `cur` says whether it is to begin
with. -/
def acts (k : K) : Bool → List (Event K O) → List O
  | _, [] => []
  | _, .enter k' :: es => acts k (decide (k' = k)) es
  | cur, .act o :: es => if cur then o :: acts k cur es else acts k cur es

theorem acts_eq_nil {k : K} {es : List (Event K O)} (h : opened k es = false) :
    acts k false es = [] := by
  induction es with
  | nil => rfl
  | cons e es ih =>
    cases e with
    | enter k' =>
      obtain ⟨hk, hes⟩ := Bool.or_eq_false_iff.mp h
      rw [acts, hk]
      exact ih hes
    | act o => exact ih h

theorem opened_iff {k : K} {es : List (Event K O)} : opened k es = true ↔ .enter k ∈ es := by
  induction es with
  | nil => simp [opened]
  | cons e es ih =>
    cases e with
    | enter k' => rw [opened, Bool.or_eq_true, decide_eq_true_iff, ih, List.mem_cons,
        Event.enter.injEq, @eq_comm _ k' k]
    | act o => simp [opened, ih]

/-- Where one call opens the entry and no other does. -/
theorem opened_flatMap {C : Type} {events : C → List (Event K O)} {k : K} {c : C}
    (h : ∀ c', .enter k ∈ events c' ↔ c' = c) {cs : List C} :
    opened k (cs.flatMap events) = true ↔ c ∈ cs := by
  rw [opened_iff, List.mem_flatMap]
  simp only [h, exists_eq_right]

theorem mem_of_mem_acts {k : K} {o : O} {es : List (Event K O)} :
    ∀ {cur : Bool}, o ∈ acts k cur es → .act o ∈ es := by
  induction es with
  | nil => exact fun h => absurd h List.not_mem_nil
  | cons e es ih =>
    intro cur h
    cases e with
    | enter k' => exact List.mem_cons_of_mem _ (ih h)
    | act o' =>
      cases cur with
      | false => exact List.mem_cons_of_mem _ (ih h)
      | true =>
        rcases List.mem_cons.mp h with rfl | h
        · exact List.mem_cons_self
        · exact List.mem_cons_of_mem _ (ih h)

/-- **A kept entry** is there if it was opened, and holds the acts made on it. -/
theorem kept_run {init : V} {act : V → O → V} (k : K) (es : List (Event K O)) :
    ∀ {cur : Bool} {v : Option V}, (cur = true → v.isSome) →
      (es.foldl ((Ledger.kept init act).track k) (cur, v)).2 =
        if v.isSome || opened k es then some ((acts k cur es).foldl act (v.getD init))
        else none := by
  -- the entry that is current exists, so an act on it changes something
  induction es with
  | nil =>
    intro cur v _
    cases v <;> simp [acts, opened]
  | cons e es ih =>
    intro cur v hcur
    rw [List.foldl_cons]
    cases e with
    | enter k' =>
      by_cases hk : k' = k
      · simp [Ledger.track, acts, opened, hk, ih]
      · simp [Ledger.track, acts, opened, hk, ih]
    | act o =>
      cases cur with
      | false => simp [Ledger.track, acts, opened, ih]
      | true =>
        obtain ⟨w, rfl⟩ := Option.isSome_iff_exists.mp (hcur rfl)
        simp [Ledger.track, acts, opened, ih]

/-- An entry is there once it is opened. -/
theorem track_isSome (L : Ledger O V) (k : K) (es : List (Event K O)) (e : Bool × Option V) :
    (es.foldl (L.track k) e).2.isSome = (e.2.isSome || opened k es) := by
  induction es generalizing e with
  | nil => simp [opened]
  | cons ev es ih =>
    rw [List.foldl_cons, ih]
    cases ev with
    | enter k' => by_cases hk : k' = k <;> simp [Ledger.track, opened, hk]
    | act o => obtain ⟨_ | _, v⟩ := e <;> simp [Ledger.track, opened]

/-- What an entry gets by some acts, and keeps, it has if such an act was made. -/
theorem track_iff {L : Ledger O V} {Q : V → Prop} {R : O → Prop} (hnone : ¬ Q (L.enter none))
    (hsome : ∀ v, Q (L.enter (some v)) ↔ Q v) (hact : ∀ v o, Q (L.act v o) ↔ Q v ∨ R o)
    (k : K) (es : List (Event K O)) {w : V} : ∀ {cur : Bool} {v : Option V},
      (cur = true → v.isSome) → (es.foldl (L.track k) (cur, v)).2 = some w →
        (Q w ↔ (∃ u ∈ v, Q u) ∨ ∃ o ∈ acts k cur es, R o) := by
  induction es with
  | nil =>
    rintro cur v - rfl
    simp [acts]
  | cons ev es ih =>
    intro cur v hcur hw
    cases ev with
    | enter k' =>
      by_cases hk : k' = k
      · rw [List.foldl_cons, Ledger.track, if_pos hk] at hw
        rw [ih (fun _ => rfl) hw, acts, decide_eq_true hk]
        cases v <;> simp [hnone, hsome]
      · rw [List.foldl_cons, Ledger.track, if_neg hk] at hw
        rw [ih (by simp) hw, acts, decide_eq_false hk]
    | act o =>
      cases cur with
      | false => exact ih (by simp) hw
      | true =>
        -- the entry that is current exists
        obtain ⟨u, rfl⟩ := Option.isSome_iff_exists.mp (hcur rfl)
        rw [ih (v := some (L.act u o)) (fun _ => rfl) hw, acts]
        simp [hact, or_assoc]

/-- A part of an entry that each act either assigns or leaves alone holds what was
assigned last. -/
theorem get_foldl {A : Type} (get : V → A) (act : V → O → V) (assigned : O → Option A)
    (h : ∀ v o, get (act v o) = (assigned o).getD (get v)) (os : List O) (v : V) :
    get (os.foldl act v) = (os.filterMap assigned).getLast?.getD (get v) := by
  induction os generalizing v with
  | nil => rfl
  | cons o os ih =>
    rw [List.foldl_cons, ih, h]
    rcases ho : assigned o with _ | a
    · rw [List.filterMap_cons_none ho, Option.getD_none]
    · rw [List.filterMap_cons_some ho, List.getLast?_cons, Option.getD_some, Option.getD_some]

/-- A part of an entry that each act may append to holds what was appended, in
order. -/
theorem gathered_foldl {A : Type} (get : V → List A) (act : V → O → V) (added : O → Option A)
    (h : ∀ v o, get (act v o) = get v ++ (added o).toList) (os : List O) (v : V) :
    get (os.foldl act v) = get v ++ os.filterMap added := by
  induction os generalizing v with
  | nil => simp
  | cons o os ih =>
    rw [List.foldl_cons, ih, h, List.append_assoc]
    rcases ho : added o with _ | a
    · rw [List.filterMap_cons_none ho]
      rfl
    · rw [List.filterMap_cons_some ho]
      rfl

/-! ### Sessions -/

/-- Calls that open an entry and then act on it. -/
abbrev Session (K O : Type) := K × List O

def Session.events (s : Session K O) : List (Event K O) := .enter s.1 :: s.2.map .act

theorem track_acts (L : Ledger O V) (k : K) (os : List O) (e : Bool × Option V) :
    (os.map Event.act).foldl (L.track k) e =
      if e.1 then (true, e.2.map fun v => os.foldl L.act v) else e := by
  induction os generalizing e with
  | nil => obtain ⟨_ | _, v⟩ := e <;> simp
  | cons o os ih =>
    obtain ⟨_ | _, v⟩ := e
    · simp [Ledger.track, ih]
    · simp [Ledger.track, ih, Function.comp_def]

theorem track_session (L : Ledger O V) (k : K) (s : Session K O) (e : Bool × Option V) :
    s.events.foldl (L.track k) e =
      if s.1 = k then (true, some (s.2.foldl L.act (L.enter e.2))) else (false, e.2) := by
  rw [Session.events, List.foldl_cons, track_acts, Ledger.track]
  by_cases hk : s.1 = k <;> simp [hk]

/-- **An entry depends on its own sessions only.** -/
theorem track_sessions (L : Ledger O V) (k : K) (ss : List (Session K O))
    (e : Bool × Option V) : ((ss.flatMap Session.events).foldl (L.track k) e).2 =
      (ss.filter (·.1 = k)).foldl (fun v s => some (s.2.foldl L.act (L.enter v))) e.2 := by
  induction ss generalizing e with
  | nil => rfl
  | cons s ss ih =>
    rw [List.flatMap_cons, List.foldl_append, track_session, ih]
    by_cases hk : s.1 = k
    · rw [if_pos hk, List.filter_cons_of_pos (by simpa using hk), List.foldl_cons]
    · rw [if_neg hk, List.filter_cons_of_neg (by simpa using hk)]

/-- A session at a time, a kept entry gathers the acts of all its sessions. -/
theorem kept_sessions {init : V} {act : V → O → V} (k : K) (ss : List (Session K O))
    (e : Bool × Option V) :
    ((ss.flatMap Session.events).foldl ((Ledger.kept init act).track k) e).2 =
      if e.2.isSome || ss.any (·.1 = k) then
        some (((ss.filter (·.1 = k)).flatMap (·.2)).foldl act (e.2.getD init))
      else none := by
  have hany : ss.any (·.1 = k) = (ss.filter (·.1 = k)).any fun _ => true := by
    simp [List.any_filter]
  rw [track_sessions, hany]
  generalize ss.filter (·.1 = k) = own, e.2 = v
  induction own generalizing v with
  | nil => cases v <;> rfl
  | cons s own ih =>
    rw [List.foldl_cons, ih, List.flatMap_cons, List.foldl_append]
    simp

/-- A fresh entry keeps its last session. -/
theorem fresh_sessions {init : V} {act : V → O → V} (k : K) (ss : List (Session K O))
    (e : Bool × Option V) :
    ((ss.flatMap Session.events).foldl ((Ledger.fresh init act).track k) e).2 =
      ((ss.filter (·.1 = k)).getLast?.map fun s => s.2.foldl act init).or e.2 := by
  rw [track_sessions]
  generalize ss.filter (·.1 = k) = own, e.2 = v
  induction own generalizing v with
  | nil => rfl
  | cons s own ih =>
    -- this session counts only if it is the last one
    rw [List.foldl_cons, ih, List.getLast?_cons]
    cases own.getLast? <;> rfl

end Track

/-! ### Objects that behave like a ledger -/

section Simulates

variable {K O V S C ε : Type} [DecidableEq K]

/-- `look` finds in a state what the ledger keeps about an entry, and a call does
to it what its events do. -/
structure Ledger.Simulates (L : Ledger O V) (exec : S → C → Except ε S)
    (events : C → List (Event K O)) (look : S → K → Bool × Option V) : Prop where
  step : ∀ {s c s'}, exec s c = .ok s' →
    ∀ k, look s' k = (events c).foldl (L.track k) (look s k)

variable {L : Ledger O V} {exec : S → C → Except ε S} {events : C → List (Event K O)}
  {look : S → K → Bool × Option V}

theorem Ledger.Simulates.look_run (h : L.Simulates exec events look) {s s' : S} {cs : List C}
    (hrun : run exec s cs = .ok s') (k : K) :
    look s' k = (cs.flatMap events).foldl (L.track k) (look s k) := by
  induction cs generalizing s with
  | nil =>
    obtain rfl := Except.ok.inj hrun
    rfl
  | cons c cs ih =>
    obtain ⟨t, hc, hrun⟩ := (run_cons_eq_ok exec).mp hrun
    rw [List.flatMap_cons, List.foldl_append, ← h.step hc]
    exact ih hrun

end Simulates

end Fluent
