/-
Segments.

A chain is cut where it opens an entry: first come the calls before any entry is
open, then sessions.  An object may keep a cursor on an entry and another one on a
part of an entry, which stays where it is when the first one moves on.  If its
interfaces offer writes to a part only where the part was chosen on the current
entry, the interleaving of the sessions of different entries does not matter.

* `track_of_reordered` — to a ledger the interleaving does not matter;
* `Cursors.entry_run` — through a chain that the interfaces admit, each entry can be
  followed as that of a ledger, in spite of the cursor that is left behind;
* `entry_of_reordered`, `rest_run` — two chains that differ in how the sessions are
  interleaved end with the same entries, and the same rest.
-/
import Click.Fluent.Ledger

namespace Fluent

/-! ### Cutting a chain -/

section Cut

variable {K C : Type} (opens : C → Option K)

/-- The calls before the first that opens an entry, and the sessions from there
on. -/
def cut : List C → List C × List (Session K C)
  | [] => ([], [])
  | c :: cs =>
    match opens c with
    | none => (c :: (cut cs).1, (cut cs).2)
    | some k => ([], (k, (cut cs).1) :: (cut cs).2)

def preamble (cs : List C) : List C := (cut opens cs).1

def sessions (cs : List C) : List (Session K C) := (cut opens cs).2

/-- A call as an event of a ledger. -/
def callEvent (c : C) : Event K C :=
  match opens c with
  | none => .act c
  | some k => .enter k

/-- The calls made while `k` is current. -/
def callsOn [DecidableEq K] (k : K) (cs : List C) : List C :=
  acts k false (cs.map (callEvent opens))

/-- The same calls before any entry is open, and for each entry the same sessions in
the same order. -/
structure Reordered [DecidableEq K] (cs ds : List C) : Prop where
  preamble_eq : preamble opens cs = preamble opens ds
  sessions_eq : ∀ k, (sessions opens cs).filter (·.1 = k) = (sessions opens ds).filter (·.1 = k)

variable {opens}

theorem callEvent_of_none {c : C} (h : opens c = none) : callEvent opens c = .act c := by
  rw [callEvent, h]

theorem callEvent_of_some {c : C} {k : K} (h : opens c = some k) :
    callEvent opens c = .enter k := by
  rw [callEvent, h]

theorem preamble_cons_of_none {c : C} (h : opens c = none) (cs : List C) :
    preamble opens (c :: cs) = c :: preamble opens cs := by
  rw [preamble, cut, h]
  rfl

theorem preamble_cons_of_some {c : C} {k : K} (h : opens c = some k) (cs : List C) :
    preamble opens (c :: cs) = [] := by
  rw [preamble, cut, h]

theorem sessions_cons_of_none {c : C} (h : opens c = none) (cs : List C) :
    sessions opens (c :: cs) = sessions opens cs := by
  rw [sessions, cut, h]
  rfl

theorem sessions_cons_of_some {c : C} {k : K} (h : opens c = some k) (cs : List C) :
    sessions opens (c :: cs) = (k, preamble opens cs) :: sessions opens cs := by
  rw [sessions, cut, h]
  rfl

theorem map_callEvent (cs : List C) : cs.map (callEvent opens) =
    (preamble opens cs).map .act ++ (sessions opens cs).flatMap Session.events := by
  induction cs with
  | nil => rfl
  | cons c cs ih =>
    rcases hc : opens c with _ | k
    · rw [List.map_cons, ih, callEvent_of_none hc, preamble_cons_of_none hc,
        sessions_cons_of_none hc]
      rfl
    · rw [List.map_cons, ih, callEvent_of_some hc, preamble_cons_of_some hc,
        sessions_cons_of_some hc]
      rfl

end Cut

section Track

variable {K C V : Type} [DecidableEq K] {opens : C → Option K}

theorem track_of_reordered (L : Ledger C V) {cs ds : List C} (h : Reordered opens cs ds)
    (k : K) (v : Option V) :
    ((cs.map (callEvent opens)).foldl (L.track k) (false, v)).2 =
      ((ds.map (callEvent opens)).foldl (L.track k) (false, v)).2 := by
  rw [map_callEvent, map_callEvent, List.foldl_append, List.foldl_append, track_sessions,
    track_sessions, h.sessions_eq, track_acts, track_acts]
  rfl

end Track

/-! ### Objects with cursors -/

/-- What a call that opens no entry does: it writes to the current entry, and may
choose a part of it, or it writes to the part that was chosen last. -/
inductive Effect (P V : Type)
  | write (f : V → V) (part : Option P)
  | writePart (f : P → V → V)
  | other

/-- An entry with the part of it that was chosen in this session. -/
def Effect.apply {P V : Type} (v : V × Option P) : Effect P V → V × Option P
  | .write f p => (f v.1, p.or v.2)
  | .writePart f => (v.2.elim v.1 fun p => f p v.1, v.2)
  | .other => v

def entryLedger {C P V : Type} (init : V) (effect : C → Effect P V) :
    Ledger C (V × Option P) where
  enter v := ((v.map Prod.fst).getD init, none)
  act v c := (effect c).apply v

/-- The entries of an object, and its cursors. -/
structure Cursors (S K P V : Type) where
  entry : S → K → Option V
  current : S → Option K
  part : S → Option (K × P)

section Cursors

variable {I C S K P V ε : Type} [DecidableEq K]

/-- What a call does to the entries and the cursors. -/
inductive Cursors.Step (cur : Cursors S K P V) (init : V) (opens : C → Option K)
    (effect : C → Effect P V) (s : S) (c : C) (s' : S) : Prop
  | enter (k : K) (hk : opens c = some k) (hcurr' : cur.current s' = some k)
      (hentry' : ∀ l, cur.entry s' l =
        if k = l then some ((cur.entry s l).getD init) else cur.entry s l)
  | write (f : V → V) (p : Option P) (k : K) (hk : opens c = none) (he : effect c = .write f p)
      (hcurr : cur.current s = some k) (hcurr' : cur.current s' = some k)
      (hpart' : cur.part s' = (p.map fun p => (k, p)).or (cur.part s))
      (hentry' : ∀ l, cur.entry s' l =
        if k = l then (cur.entry s l).map f else cur.entry s l)
  | writePart (f : P → V → V) (k : K) (p : P) (hk : opens c = none)
      (he : effect c = .writePart f) (hs : cur.part s = some (k, p))
      (hcurr' : cur.current s' = cur.current s) (hpart' : cur.part s' = cur.part s)
      (hentry' : ∀ l, cur.entry s' l =
        if k = l then (cur.entry s l).map (f p) else cur.entry s l)
  | other (hk : opens c = none) (he : effect c = .other)
      (hcurr' : cur.current s' = cur.current s) (hentry' : cur.entry s' = cur.entry s)

/-- Every call that succeeds takes such a step. -/
def Cursors.Executes (cur : Cursors S K P V) (init : V) (exec : S → C → Except ε S)
    (opens : C → Option K) (effect : C → Effect P V) : Prop :=
  ∀ {s c s'}, exec s c = .ok s' → cur.Step init opens effect s c s'

/-- Only the interfaces `within` offer writes to a part, and a call returns one of
them only if it chooses or writes to a part. -/
structure Interfaces.Guards (F : Interfaces I C) (opens : C → Option K)
    (effect : C → Effect P V) (within : I → Bool) : Prop where
  offered : ∀ {i j c f}, F.offers i c = some j → opens c = none → effect c = .writePart f →
    within i = true
  returned : ∀ {i j c}, F.offers i c = some j → within j = true → opens c = none ∧
    ((∃ f p, effect c = .write f (some p)) ∨ ∃ f, effect c = .writePart f)

/-- `e` is what the ledger keeps about `k`; the part chosen in this session is the
one the cursor is on wherever it may be written to. -/
structure Cursors.Follows (cur : Cursors S K P V) (within : I → Bool) (i : I) (s : S) (k : K)
    (e : Bool × Option (V × Option P)) : Prop where
  current : e.1 = decide (cur.current s = some k)
  entry : e.2.map Prod.fst = cur.entry s k
  part : within i = true → ∃ l p, cur.current s = some l ∧ cur.part s = some (l, p) ∧
    (l = k → ∀ v ∈ e.2, v.2 = some p)

variable {cur : Cursors S K P V} {init : V} {exec : S → C → Except ε S} {F : Interfaces I C}
  {opens : C → Option K} {effect : C → Effect P V} {within : I → Bool}

theorem Cursors.follows_step (hx : cur.Executes init exec opens effect)
    (hg : F.Guards opens effect within) {i j : I} {s s' : S} {c : C} {k : K}
    {e : Bool × Option (V × Option P)} (h : cur.Follows within i s k e)
    (ho : F.offers i c = some j) (hc : exec s c = .ok s') :
    cur.Follows within j s' k ((entryLedger init effect).track k e (callEvent opens c)) := by
  obtain ⟨b, v⟩ := e
  obtain ⟨rfl, hentry, hpart⟩ := h
  cases hx hc with
  | enter l hk hcurr' hentry' =>
    rw [callEvent_of_some hk]
    refine ⟨?_, ?_, fun hj => ?_⟩
    · by_cases hl : l = k <;> simp [Ledger.track, hcurr', hl]
    · rw [hentry', ← hentry]
      by_cases hl : l = k <;> simp [Ledger.track, hl, entryLedger]
    · exact absurd ((hg.returned ho hj).1.symm.trans hk) (by simp)
  | write f p l hk he hcurr hcurr' hpart' hentry' =>
    rw [callEvent_of_none hk]
    refine ⟨?_, ?_, fun hj => ?_⟩
    · by_cases hl : l = k <;> simp [Ledger.track, hcurr, hcurr', hl]
    · rw [hentry', ← hentry]
      by_cases hl : l = k <;> cases v <;>
        simp [Ledger.track, hcurr, hl, entryLedger, he, Effect.apply]
    · -- a part was chosen by this very call
      obtain ⟨-, ⟨f', p', hw⟩ | ⟨f', hw⟩⟩ := hg.returned ho hj
      · obtain ⟨rfl, rfl⟩ := Effect.write.inj (he.symm.trans hw)
        refine ⟨l, p', hcurr', hpart', fun hl => ?_⟩
        cases v <;> simp [Ledger.track, hcurr, hl, entryLedger, he, Effect.apply]
      · exact absurd (he.symm.trans hw) (by simp)
  | writePart f l p hk he hs hcurr' hpart' hentry' =>
    rw [callEvent_of_none hk]
    -- the cursor is on a part of the current entry
    obtain ⟨l', p', hcurr, hs', hown⟩ := hpart (hg.offered ho hk he)
    obtain ⟨rfl, rfl⟩ := Prod.mk.inj (Option.some.inj (hs.symm.trans hs'))
    refine ⟨?_, ?_, fun _ => ⟨l, p, hcurr'.trans hcurr, hpart'.trans hs, fun hl => ?_⟩⟩
    · by_cases hl : l = k <;> simp [Ledger.track, hcurr, hcurr', hl]
    · rw [hentry', ← hentry]
      by_cases hl : l = k
      · rcases v with _ | ⟨x, q⟩
        · simp [Ledger.track, hcurr, hl]
        · obtain rfl : q = some p := hown hl _ rfl
          simp [Ledger.track, hcurr, hl, entryLedger, he, Effect.apply]
      · simp [Ledger.track, hcurr, hl]
    · rcases v with _ | ⟨x, q⟩
      · simp [Ledger.track, hcurr, hl]
      · obtain rfl : q = some p := hown hl _ rfl
        simp [Ledger.track, hcurr, hl, entryLedger, he, Effect.apply]
  | other hk he hcurr' hentry' =>
    rw [callEvent_of_none hk]
    refine ⟨?_, ?_, fun hj => ?_⟩
    · by_cases hl : cur.current s = some k <;> simp [Ledger.track, hcurr', hl]
    · rw [hentry', ← hentry]
      by_cases hl : cur.current s = some k <;> cases v <;>
        simp [Ledger.track, hl, entryLedger, he, Effect.apply]
    · obtain ⟨-, ⟨f', p', hw⟩ | ⟨f', hw⟩⟩ := hg.returned ho hj
      · exact absurd (he.symm.trans hw) (by simp)
      · exact absurd (he.symm.trans hw) (by simp)

theorem Cursors.follows_run (hx : cur.Executes init exec opens effect)
    (hg : F.Guards opens effect within) {i j : I} {s s' : S} {cs : List C} {k : K}
    {e : Bool × Option (V × Option P)} (h : cur.Follows within i s k e)
    (hf : F.follow i cs = some j) (hrun : run exec s cs = .ok s') :
    cur.Follows within j s' k
      ((cs.map (callEvent opens)).foldl ((entryLedger init effect).track k) e) := by
  induction cs generalizing i s e with
  | nil =>
    obtain rfl := Except.ok.inj hrun
    obtain rfl := Option.some.inj hf
    exact h
  | cons c cs ih =>
    obtain ⟨m, hm, hf⟩ := Option.bind_eq_some_iff.mp hf
    obtain ⟨t, hc, hrun⟩ := (run_cons_eq_ok exec).mp hrun
    exact ih (follows_step hx hg h hm hc) hf hrun

/-- **Each entry is that of a ledger** at the end of a chain that starts with no
entry at all. -/
theorem Cursors.entry_run (hx : cur.Executes init exec opens effect)
    (hg : F.Guards opens effect within) (hstart : within F.start = false) {s s' : S}
    (hcurr : cur.current s = none) (hentry : ∀ k, cur.entry s k = none) (chain : Chain F)
    (hrun : run exec s chain.calls = .ok s') (k : K) :
    cur.entry s' k = ((chain.calls.map (callEvent opens)).foldl
      ((entryLedger init effect).track k) (false, none)).2.map Prod.fst := by
  have hinit : cur.Follows within F.start s k (false, none) :=
    ⟨by simp [hcurr], (hentry k).symm, fun h => absurd (hstart.symm.trans h) (by simp)⟩
  exact (follows_run hx hg hinit chain.admitted hrun).entry.symm

/-- **The interleaving of sessions does not matter to the entries.** -/
theorem entry_of_reordered (hx : cur.Executes init exec opens effect)
    (hg : F.Guards opens effect within) (hstart : within F.start = false) {s s₁ s₂ : S}
    (hcurr : cur.current s = none) (hentry : ∀ k, cur.entry s k = none)
    {chain₁ chain₂ : Chain F} (h : Reordered opens chain₁.calls chain₂.calls)
    (h₁ : run exec s chain₁.calls = .ok s₁) (h₂ : run exec s chain₂.calls = .ok s₂) (k : K) :
    cur.entry s₁ k = cur.entry s₂ k := by
  rw [Cursors.entry_run hx hg hstart hcurr hentry chain₁ h₁,
    Cursors.entry_run hx hg hstart hcurr hentry chain₂ h₂, track_of_reordered _ h]

end Cursors

/-! ### What is no entry -/

section Rest

variable {I C S K R ε : Type} {F : Interfaces I C} {exec : S → C → Except ε S}
  {opens : C → Option K} {rest : S → R} {inside : I → Prop}

/-- If the calls that are offered once an entry is open leave a part of the object
alone, it stays as the calls before left it. -/
theorem rest_run (h : ∀ {i j s s' c}, F.offers i c = some j → exec s c = .ok s' →
      inside i ∨ (opens c).isSome → inside j ∧ rest s' = rest s)
    {i j : I} {s s' : S} {cs : List C} (hf : F.follow i cs = some j)
    (hrun : run exec s cs = .ok s') :
    ∃ t, run exec s (preamble opens cs) = .ok t ∧ rest s' = rest t := by
  -- from an interface inside on nothing changes any more
  have hin : ∀ {cs : List C} {i : I} {s : S}, inside i → F.follow i cs = some j →
      run exec s cs = .ok s' → rest s' = rest s := by
    intro cs
    induction cs with
    | nil =>
      intro i s _ _ hrun
      rw [Except.ok.inj hrun]
    | cons c cs ih =>
      intro i s hi hf hrun
      obtain ⟨m, hm, hf⟩ := Option.bind_eq_some_iff.mp hf
      obtain ⟨t, hc, hrun⟩ := (run_cons_eq_ok exec).mp hrun
      obtain ⟨hmi, hrest⟩ := h hm hc (.inl hi)
      exact (ih hmi hf hrun).trans hrest
  induction cs generalizing i s with
  | nil =>
    obtain rfl := Except.ok.inj hrun
    exact ⟨s, rfl, rfl⟩
  | cons c cs ih =>
    rcases hk : opens c with _ | k
    · obtain ⟨m, hm, hf⟩ := Option.bind_eq_some_iff.mp hf
      obtain ⟨t, hc, hrun⟩ := (run_cons_eq_ok exec).mp hrun
      obtain ⟨u, hu, hrest⟩ := ih hf hrun
      refine ⟨u, ?_, hrest⟩
      rw [preamble_cons_of_none hk]
      exact (run_cons_eq_ok exec).mpr ⟨t, hc, hu⟩
    · obtain ⟨m, hm, hf⟩ := Option.bind_eq_some_iff.mp hf
      obtain ⟨t, hc, hrun⟩ := (run_cons_eq_ok exec).mp hrun
      obtain ⟨hmi, hrest⟩ := h hm hc (.inr (by rw [hk]; rfl))
      refine ⟨s, ?_, (hin hmi hf hrun).trans hrest⟩
      rw [preamble_cons_of_some hk]
      rfl

theorem rest_of_reordered [DecidableEq K]
    (h : ∀ {i j s s' c}, F.offers i c = some j → exec s c = .ok s' →
      inside i ∨ (opens c).isSome → inside j ∧ rest s' = rest s)
    {s s₁ s₂ : S} {chain₁ chain₂ : Chain F} (hr : Reordered opens chain₁.calls chain₂.calls)
    (h₁ : run exec s chain₁.calls = .ok s₁) (h₂ : run exec s chain₂.calls = .ok s₂) :
    rest s₁ = rest s₂ := by
  obtain ⟨t₁, ht₁, hrest₁⟩ := rest_run h chain₁.admitted h₁
  obtain ⟨t₂, ht₂, hrest₂⟩ := rest_run h chain₂.admitted h₂
  rw [hr.preamble_eq] at ht₁
  rw [hrest₁, hrest₂, Except.ok.inj (ht₁.symm.trans ht₂)]

end Rest

end Fluent
