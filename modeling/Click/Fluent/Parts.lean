/-
What entries and their parts hold.

Where an object with cursors is followed one entry at a time, something that an entry
holds can be followed on its own, if the calls change it by themselves; and if the
calls choose the parts of an entry and write to them, each part can be followed as an
entry of a ledger of its own.

* `Cursors.get_run` — what an entry holds at the end of a chain;
* `Cursors.part_run` — what its parts hold.
-/
import Click.Fluent.Segments

namespace Fluent

/-! ### Ledgers seen through a function -/

theorem track_map {K O V W : Type} [DecidableEq K] {L : Ledger O V} {L' : Ledger O W} (f : V → W)
    (henter : ∀ v, f (L.enter v) = L'.enter (v.map f))
    (hact : ∀ v o, f (L.act v o) = L'.act (f v) o) (k : K) (es : List (Event K O))
    (e : Bool × Option V) :
    (es.foldl (L.track k) e).2.map f = (es.foldl (L'.track k) (e.1, e.2.map f)).2 := by
  induction es generalizing e with
  | nil => rfl
  | cons ev es ih =>
    have hstep : (L'.track k (e.1, e.2.map f) ev) =
        ((L.track k e ev).1, (L.track k e ev).2.map f) := by
      cases ev with
      | enter k' => by_cases hk : k' = k <;> simp [Ledger.track, hk, henter]
      | act o =>
        obtain ⟨_ | _, v⟩ := e
        · rfl
        · simp [Ledger.track, Function.comp_def, hact]
    rw [List.foldl_cons, List.foldl_cons, ih, hstep]

/-- A call that neither chooses nor writes to a part returns another interface. -/
theorem Interfaces.Guards.eq_false {I C K P V : Type} {F : Interfaces I C} {opens : C → Option K}
    {effect : C → Effect P V} {within : I → Bool} (hg : F.Guards opens effect within) {i j : I}
    {c : C} (ho : F.offers i c = some j) (hchoose : ∀ f p, effect c ≠ .write f (some p))
    (hwrite : ∀ f, effect c ≠ .writePart f) : within j = false := by
  refine Bool.eq_false_iff.mpr fun hj => ?_
  obtain ⟨-, ⟨f, p, he⟩ | ⟨f, he⟩⟩ := hg.returned ho hj
  · exact hchoose f p he
  · exact hwrite f he

section Cursors

variable {I C S K P V ε : Type} [DecidableEq K] {cur : Cursors S K P V} {init : V}
  {exec : S → C → Except ε S} {F : Interfaces I C} {opens : C → Option K}
  {effect : C → Effect P V} {within : I → Bool}

/-- **What an entry holds** at the end of a chain is what the calls made while it was
current make of it. -/
theorem Cursors.get_run {A : Type} (hx : cur.Executes init exec opens effect)
    (hg : F.Guards opens effect within) (hstart : within F.start = false) {s s' : S}
    (hcurr : cur.current s = none) (hentry : ∀ k, cur.entry s k = none) (get : V → A)
    (act : A → C → A) (hget : ∀ v c, get ((effect c).apply v).1 = act (get v.1) c)
    (chain : Chain F) (hrun : run exec s chain.calls = .ok s') (k : K) :
    (cur.entry s' k).map get = if opened k (chain.calls.map (callEvent opens)) then
      some ((callsOn opens k chain.calls).foldl act (get init)) else none := by
  have henter : ∀ v, get ((entryLedger init effect).enter v).1 =
      (Ledger.kept (get init) act).enter (v.map fun w => get w.1) := by
    intro v
    cases v <;> rfl
  rw [entry_run hx hg hstart hcurr hentry chain hrun k, Option.map_map]
  refine (track_map (fun w : V × Option P => get w.1) henter hget k _ _).trans ?_
  exact (kept_run k _ (by simp)).trans (by simp [callsOn])

/-! ### Parts -/

/-- What a call does to the parts of the entry that is current. -/
def partEvents (effect : C → Effect P V) (c : C) : List (Event P C) :=
  match effect c with
  | .write _ (some p) => [.enter p]
  | .write _ none | .other => []
  | .writePart _ => [.act c]

/-- The calls that are made while `k` is current, one at a time. -/
def callOn (cur : Cursors S K P V) (opens : C → Option K) (k : K) (s : S) (c : C) : List C :=
  if cur.current s = some k ∧ opens c = none then [c] else []

/-- The calls on an entry are found one at a time. -/
theorem Cursors.acts_callEvent (hx : cur.Executes init exec opens effect) {s s' : S} {c : C}
    (k : K) (hc : exec s c = .ok s') (cs : List C) :
    acts k (decide (cur.current s = some k)) ((c :: cs).map (callEvent opens)) =
      callOn cur opens k s c ++
        acts k (decide (cur.current s' = some k)) (cs.map (callEvent opens)) := by
  rw [List.map_cons]
  cases hx hc with
  | enter l hk hcurr' _ => simp [callEvent_of_some hk, acts, callOn, hk, hcurr']
  | write f q l hk he hcurr hcurr' _ _ =>
    by_cases hl : l = k <;> simp [callEvent_of_none hk, acts, callOn, hk, hcurr, hcurr', hl]
  | writePart f l q hk he hs hcurr' _ _ =>
    by_cases hl : cur.current s = some k <;>
      simp [callEvent_of_none hk, acts, callOn, hk, hcurr', hl]
  | other hk he hcurr' _ =>
    by_cases hl : cur.current s = some k <;>
      simp [callEvent_of_none hk, acts, callOn, hk, hcurr', hl]

variable [DecidableEq P] {W : Type}

/-- The parts of an entry are those of a ledger: a part that is chosen is opened, and a
write to a part leaves the others alone. -/
structure Parts (L : Ledger C W) (init : V) (effect : C → Effect P V) (look : V → P → Option W) :
    Prop where
  init_none : ∀ p, look init p = none
  choose : ∀ {c f p}, effect c = .write f (some p) →
    ∀ v q, look (f v) q = if p = q then some (L.enter (look v p)) else look v q
  write : ∀ {c f}, effect c = .write f none → ∀ v q, look (f v) q = look v q
  writePart : ∀ {c f}, effect c = .writePart f →
    ∀ p v q, look (f p v) q = if p = q then (look v p).map (fun w => L.act w c) else look v q

variable {L : Ledger C W} {look : V → P → Option W}

/-- `e` is what the ledger keeps about part `p` of entry `k`; its flag counts wherever a
part of the current entry may be written to. -/
structure Cursors.Holds (cur : Cursors S K P V) (within : I → Bool) (look : V → P → Option W)
    (k : K) (p : P) (i : I) (s : S) (e : Bool × Option W) : Prop where
  entry : e.2 = (cur.entry s k).bind fun v => look v p
  current : ∀ l, cur.current s = some l → (cur.entry s l).isSome
  part : within i = true → ∃ l q, cur.current s = some l ∧ cur.part s = some (l, q) ∧
    (l = k → e.1 = decide (q = p))

theorem Cursors.holds_step (hx : cur.Executes init exec opens effect)
    (hg : F.Guards opens effect within) (hparts : Parts L init effect look) {i j : I} {s s' : S}
    {c : C} {k : K} {p : P} {e : Bool × Option W} (h : cur.Holds within look k p i s e)
    (ho : F.offers i c = some j) (hc : exec s c = .ok s') :
    cur.Holds within look k p j s'
      (((callOn cur opens k s c).flatMap (partEvents effect)).foldl (L.track p) e) := by
  obtain ⟨hentry, hsome, hpart⟩ := h
  cases hx hc with
  | enter l hk hcurr' hentry' =>
    rw [callOn, if_neg (by simp [hk])]
    refine ⟨?_, fun m hm => ?_, fun hj => ?_⟩
    · show e.2 = _
      rw [hentry, hentry']
      by_cases hl : l = k
      · subst hl
        cases cur.entry s l <;> simp [hparts.init_none]
      · simp [hl]
    · rw [hentry', if_pos (Option.some.inj (hcurr'.symm.trans hm))]
      rfl
    · exact absurd ((hg.returned ho hj).1.symm.trans hk) (by simp)
  | write f q l hk he hcurr hcurr' hpart' hentry' =>
    have hsome' : ∀ m, cur.current s' = some m → (cur.entry s' m).isSome := by
      intro m hm
      obtain rfl := Option.some.inj (hcurr'.symm.trans hm)
      rw [hentry', if_pos rfl, Option.isSome_map]
      exact hsome l hcurr
    by_cases hl : l = k
    · subst hl
      obtain ⟨v, hv⟩ := Option.isSome_iff_exists.mp (hsome l hcurr)
      rw [callOn, if_pos ⟨hcurr, hk⟩, List.flatMap_singleton, partEvents, he]
      have hlook : (cur.entry s' l).bind (fun v => look v p) = look (f v) p := by
        rw [hentry', if_pos rfl, hv]
        rfl
      rw [hv] at hentry
      cases q with
      | none =>
        refine ⟨?_, hsome', fun hj => ?_⟩
        · rw [hlook, hparts.write he]
          exact hentry
        · have hnot := hg.eq_false ho (by simp [he]) (by simp [he])
          exact absurd (hnot.symm.trans hj) (by simp)
      | some q =>
        refine ⟨?_, hsome', fun _ => ⟨l, q, hcurr', hpart', fun _ => ?_⟩⟩
        · rw [hlook, hparts.choose he]
          by_cases hq : q = p
          · subst hq
            simp [Ledger.track, hentry]
          · simp [Ledger.track, hq, hentry]
        · by_cases hq : q = p <;> simp [Ledger.track, hq]
    · rw [callOn, if_neg (by simp [hcurr, hl])]
      refine ⟨?_, hsome', fun hj => ?_⟩
      · rw [hentry', if_neg hl]
        exact hentry
      · -- a part of another entry was chosen
        obtain ⟨-, ⟨f', p', hw⟩ | ⟨f', hw⟩⟩ := hg.returned ho hj
        · obtain ⟨rfl, rfl⟩ := Effect.write.inj (he.symm.trans hw)
          exact ⟨l, p', hcurr', hpart', fun h => absurd h hl⟩
        · exact absurd (he.symm.trans hw) (by simp)
  | writePart f l q hk he hs hcurr' hpart' hentry' =>
    -- the cursor is on a part of the current entry
    obtain ⟨l', q', hcurr, hs', hflag⟩ := hpart (hg.offered ho hk he)
    obtain ⟨rfl, rfl⟩ := Prod.mk.inj (Option.some.inj (hs.symm.trans hs'))
    have hsome' : ∀ m, cur.current s' = some m → (cur.entry s' m).isSome := by
      intro m hm
      rw [hcurr'] at hm
      rw [hentry']
      split
      · rw [Option.isSome_map]
        exact hsome m hm
      · exact hsome m hm
    by_cases hl : l = k
    · subst hl
      obtain ⟨v, hv⟩ := Option.isSome_iff_exists.mp (hsome l hcurr)
      rw [callOn, if_pos ⟨hcurr, hk⟩, List.flatMap_singleton, partEvents, he]
      rw [hv] at hentry
      have hentry₁ : (cur.entry s' l).bind (fun v => look v p) = look (f q v) p := by
        rw [hentry', if_pos rfl, hv]
        rfl
      refine ⟨?_, hsome', fun _ => ⟨l, q, hcurr'.trans hcurr, hpart'.trans hs, fun _ => ?_⟩⟩
      · rw [hentry₁, hparts.writePart he]
        by_cases hq : q = p
        · subst hq
          simp [Ledger.track, hflag rfl, hentry]
        · simp [Ledger.track, hflag rfl, hq, hentry]
      · by_cases hq : q = p <;> simp [Ledger.track, hflag rfl, hq]
    · rw [callOn, if_neg (by simp [hcurr, hl])]
      refine ⟨?_, hsome', fun _ =>
        ⟨l, q, hcurr'.trans hcurr, hpart'.trans hs, fun h => absurd h hl⟩⟩
      rw [hentry', if_neg hl]
      exact hentry
  | other hk he hcurr' hentry' =>
    have hnone : (callOn cur opens k s c).flatMap (partEvents effect) = [] := by
      rw [callOn]
      split <;> simp [partEvents, he]
    rw [hnone]
    refine ⟨?_, fun m hm => ?_, fun hj => ?_⟩
    · rw [hentry']
      exact hentry
    · rw [hentry']
      exact hsome m (hcurr' ▸ hm)
    · have hnot := hg.eq_false ho (by simp [he]) (by simp [he])
      exact absurd (hnot.symm.trans hj) (by simp)

theorem Cursors.holds_run (hx : cur.Executes init exec opens effect)
    (hg : F.Guards opens effect within) (hparts : Parts L init effect look) {i j : I} {s s' : S}
    {cs : List C} {k : K} {p : P} {e : Bool × Option W} (h : cur.Holds within look k p i s e)
    (hf : F.follow i cs = some j) (hrun : run exec s cs = .ok s') :
    cur.Holds within look k p j s'
      (((acts k (decide (cur.current s = some k)) (cs.map (callEvent opens))).flatMap
        (partEvents effect)).foldl (L.track p) e) := by
  induction cs generalizing i s e with
  | nil =>
    obtain rfl := Except.ok.inj hrun
    obtain rfl := Option.some.inj hf
    exact h
  | cons c cs ih =>
    obtain ⟨m, hm, hf⟩ := Option.bind_eq_some_iff.mp hf
    obtain ⟨t, hc, hrun⟩ := (run_cons_eq_ok exec).mp hrun
    rw [acts_callEvent hx k hc, List.flatMap_append, List.foldl_append]
    exact ih (holds_step hx hg hparts h hm hc) hf hrun

/-- **Each part is an entry of a ledger of its own**, at the end of a chain that starts
with no entry at all. -/
theorem Cursors.part_run (hx : cur.Executes init exec opens effect)
    (hg : F.Guards opens effect within) (hparts : Parts L init effect look)
    (hstart : within F.start = false) {s s' : S} (hcurr : cur.current s = none)
    (hentry : ∀ k, cur.entry s k = none) (chain : Chain F) (hrun : run exec s chain.calls = .ok s')
    (k : K) (p : P) : (cur.entry s' k).bind (fun v => look v p) =
      (((callsOn opens k chain.calls).flatMap (partEvents effect)).foldl (L.track p)
        (false, none)).2 := by
  have hinit : cur.Holds within look k p F.start s (false, none) :=
    ⟨by rw [hentry]; rfl, fun l hl => absurd (hcurr.symm.trans hl) (by simp),
      fun h => absurd (hstart.symm.trans h) (by simp)⟩
  have hrun' := (holds_run hx hg hparts hinit chain.admitted hrun).entry
  rw [hcurr] at hrun'
  exact hrun'.symm

end Cursors

end Fluent
