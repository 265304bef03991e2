/-
A parse checks the strings.

The strings of a message that a parse has accepted are valid UTF-8, and an encoding
whose records are all well formed holds no other ones.  So the bytes of a message are
accepted exactly if its strings are valid.

* `Schema.utf8_parse` — what a parse that succeeds leaves is valid, if the message it
  started from was;
* `Schema.wellFormed_serializes_iff` — an encoding is well formed exactly if the strings
  of the message are valid;
* `ValueCodec.message_checks`, `FieldCodec.map_checks`, `FieldCodec.oneof_checks` — the
  codecs built from schemas and from codecs check their strings again.
-/
import Click.Proto.SchemaLaws

namespace Proto

/-- Reading keeps the strings valid, and so are those of a value whose encoding is well
formed. -/
structure ValueCodec.Checks {α : Type} (v : ValueCodec α) : Prop where
  init : v.Utf8 v.init
  of_read : ∀ {d x p y}, v.Utf8 x → v.read d x p = some (true, y) → v.Utf8 y
  of_ok : ∀ {d x p}, v.Writes x p → p.Fits → v.Ok d p → v.Utf8 x

structure FieldCodec.Checks {α : Type} (f : FieldCodec α) : Prop where
  init : f.Utf8 f.init
  of_read : ∀ {d x r y}, f.Utf8 x → f.read d x r = some (true, y) → f.Utf8 y
  of_ok : ∀ {d x rs}, f.Writes x rs → (∀ r ∈ rs, r.Fits) → (∀ r ∈ rs, f.Ok d r) → f.Utf8 x

def Schema.Checks {M : Type} (S : Schema M) : Prop := ∀ f ∈ S.members, f.field.Checks

/-! ### Values -/

theorem Scalar.toValue_checks {α : Type} (s : Scalar α) : s.toValue.Checks where
  init := trivial
  of_read _ _ := trivial
  of_ok _ _ _ := trivial

theorem ValueCodec.string_checks : ValueCodec.string.Checks where
  init := rfl
  of_read := by
    intro d x p y _ hr
    cases p with
    | len b =>
      obtain ⟨hvalid, rfl⟩ := Prod.mk.inj (Option.some_inj.mp hr)
      exact hvalid
    | _ => exact absurd hr (by simp [ValueCodec.string])
  of_ok := by
    rintro d x p rfl - hok
    exact hok x rfl

/-! ### Fields with one record per value -/

section Single

variable {α : Type} {v : ValueCodec α} {n : ℕ}

theorem FieldCodec.always_checks (hv : v.Checks) : (FieldCodec.always n v).Checks where
  init := hv.init
  of_read := by
    intro d x r y hx hr
    simp only [FieldCodec.always] at hr
    split at hr
    · exact hv.of_read hx hr
    · exact absurd hr (by simp)
  of_ok := by
    rintro d x rs ⟨p, hp, rfl⟩ hfit hok
    exact hv.of_ok hp (hfit _ List.mem_cons_self).2 (hok _ List.mem_cons_self rfl)

theorem FieldCodec.singular_checks [DecidableEq α] (hv : v.Checks) :
    (FieldCodec.singular n v).Checks where
  init := hv.init
  of_read := (FieldCodec.always_checks hv).of_read
  of_ok := by
    intro d x rs hw hfit hok
    simp only [FieldCodec.singular] at hw
    split at hw
    · next hx => exact hx ▸ hv.init
    · exact (FieldCodec.always_checks hv).of_ok hw hfit hok

private theorem forall₂_ok (hv : v.Checks) {d : ℕ} {xs : List α} {rs : List Record}
    (hw : List.Forall₂ (fun y r => ∃ p, v.Writes y p ∧ r = ⟨n, p⟩) xs rs)
    (hfit : ∀ r ∈ rs, r.Fits) (hok : ∀ r ∈ rs, r.num = n → v.Ok d r.payload) :
    ∀ y ∈ xs, v.Utf8 y := by
  induction hw with
  | nil => exact fun y hy => absurd hy List.not_mem_nil
  | cons hy _ ih =>
    obtain ⟨p, hp, rfl⟩ := hy
    rw [List.forall_mem_cons] at hfit hok ⊢
    exact ⟨hv.of_ok hp hfit.1.2 (hok.1 rfl), ih hfit.2 hok.2⟩

theorem FieldCodec.repeated_checks (hv : v.Checks) : (FieldCodec.repeated n v).Checks where
  init y hy := absurd hy List.not_mem_nil
  of_read := by
    intro d xs r ys hxs hr
    simp only [FieldCodec.repeated] at hr
    split at hr
    · obtain ⟨⟨ok, y⟩, hy, he⟩ := Option.map_eq_some_iff.mp hr
      obtain ⟨rfl, rfl⟩ := Prod.mk.inj he
      exact List.forall_mem_append.mpr
        ⟨hxs, List.forall_mem_singleton.mpr (hv.of_read hv.init hy)⟩
    · exact absurd hr (by simp)
  of_ok hw hfit hok := forall₂_ok hv hw hfit hok

theorem FieldCodec.optional_checks (hv : v.Checks) : (FieldCodec.optional n v).Checks where
  init y hy := absurd hy (by simp [FieldCodec.optional])
  of_read := by
    intro d x r y hx hr
    simp only [FieldCodec.optional] at hr
    split at hr
    · obtain ⟨⟨ok, z⟩, hz, he⟩ := Option.map_eq_some_iff.mp hr
      obtain ⟨rfl, rfl⟩ := Prod.mk.inj he
      have hpresent : v.Utf8 (x.getD v.init) := by
        cases x with
        | none => exact hv.init
        | some x => exact hx x rfl
      intro z' hz'
      obtain rfl := Option.some.inj hz'
      exact hv.of_read hpresent hz
    · exact absurd hr (by simp)
  of_ok hw hfit hok y hy := forall₂_ok hv hw hfit hok y (Option.mem_toList.mpr hy)

theorem FieldCodec.packed_checks (s : Scalar α) : (FieldCodec.packed n s).Checks where
  init := trivial
  of_read _ _ := trivial
  of_ok _ _ _ := trivial

end Single

/-! ### Messages -/

section Messages

variable {M : Type} {S : Schema M} {h d : ℕ}

theorem Schema.utf8_step (hS : S.Lawful h) (hc : S.Checks) {m m' : M} {r : Record}
    (hm : S.Utf8 m) (hs : S.step d m r = (true, m')) : S.Utf8 m' := by
  -- the field that takes the record stays valid, the others stay as they are
  intro f hf
  have hget := hS.get_step (d := d) hf m r
  rw [hs] at hget
  simp only at hget
  rw [hget]
  rcases hr : f.field.read d (f.get m) r with _ | ⟨ok, x⟩
  · exact hm f hf
  · have hok : ok = true :=
      ((hS.field f hf).read_some hr).mpr ((hS.step_ok_iff m r).mp (congrArg Prod.fst hs) f hf)
    subst hok
    exact (hc f hf).of_read (hm f hf) hr

theorem Schema.utf8_feed (hS : S.Lawful h) (hc : S.Checks) {rs : List Record} {m m' : M}
    (hm : S.Utf8 m) (hs : feed (S.step d) m rs = (true, m')) : S.Utf8 m' := by
  induction rs generalizing m with
  | nil =>
    obtain rfl := (Prod.mk.inj hs).2
    exact hm
  | cons r rs ih =>
    rw [feed] at hs
    rcases hr : S.step d m r with ⟨_ | _, m₁⟩ <;> rw [hr] at hs
    · exact absurd (congrArg Prod.fst hs) (by simp)
    · exact ih (utf8_step hS hc hm hr) hs

/-- **What a parse accepts has valid strings.** -/
theorem Schema.utf8_parse (hS : S.Lawful h) (hc : S.Checks) {past bs : Bytes} {m m' : M}
    (hm : S.Utf8 m) (hs : S.parse past d bs m = (true, m')) : S.Utf8 m' := by
  rw [Schema.parse, parseRecords_eq] at hs
  obtain ⟨hok, hm'⟩ := Prod.mk.inj hs
  exact utf8_feed hS hc hm (Prod.ext (Bool.and_eq_true_iff.mp hok).1 hm')

theorem Schema.utf8_empty (hS : S.Lawful h) (hc : S.Checks) : S.Utf8 S.empty := by
  intro f hf
  rw [hS.init f hf]
  exact (hc f hf).init

theorem Schema.utf8_of_writes (hc : S.Checks) {m : M} {rs : List Record} (hw : S.Writes m rs)
    (hfit : ∀ r ∈ rs, r.Fits) (hok : ∀ r ∈ rs, S.Ok d r) : S.Utf8 m := by
  obtain ⟨parts, hparts, rfl⟩ := hw
  have hall : ∀ {fs : List (Member M)} {parts : List (List Record)},
      List.Forall₂ (fun f ps => f.field.Writes (f.get m) ps) fs parts →
      (∀ f ∈ fs, f ∈ S.members) → (∀ r ∈ parts.flatten, r.Fits) →
      (∀ r ∈ parts.flatten, S.Ok d r) → ∀ f ∈ fs, f.field.Utf8 (f.get m) := by
    intro fs parts hw
    induction hw with
    | nil => exact fun _ _ _ f hf => absurd hf List.not_mem_nil
    | @cons f ps fs parts hp _ ih =>
      intro hmem hfit hok
      rw [List.flatten_cons, List.forall_mem_append] at hfit hok
      have hf := hmem f List.mem_cons_self
      exact List.forall_mem_cons.mpr
        ⟨(hc f hf).of_ok hp hfit.1 fun r hr => hok.1 r hr f hf,
          ih (fun g hg => hmem g (List.mem_cons_of_mem _ hg)) hfit.2 hok.2⟩
  exact hall hparts (fun _ hf => hf) hfit hok

/-- An encoding that a parse accepts holds valid strings only. -/
theorem Schema.utf8_of_wellFormed (hS : S.Lawful h) (hc : S.Checks) {m : M} {b : Bytes}
    (hs : S.Serializes m b) (hlen : b.length ≤ maxSize) (hwf : S.WellFormed d b) : S.Utf8 m := by
  obtain ⟨rs, hw, rfl⟩ := hs
  have hfit := hS.fits_of_writes hw hlen
  rw [Schema.WellFormed, records_encodeRecords hfit] at hwf
  exact utf8_of_writes hc hw hfit hwf.2

/-- **An encoding is well formed exactly if the strings are valid.** -/
theorem Schema.wellFormed_serializes_iff (hS : S.Lawful h) (hc : S.Checks) (hd : h ≤ d) {m : M}
    {b : Bytes} (hs : S.Serializes m b) (hlen : b.length ≤ maxSize) :
    S.WellFormed d b ↔ S.Utf8 m := by
  refine ⟨utf8_of_wellFormed hS hc hs hlen, fun hu => ?_⟩
  rw [← Schema.parse_ok_iff hS [] b S.empty, Schema.parse_serializes hS hd hu hs hlen]

theorem ValueCodec.message_checks (hS : S.Lawful h) (hc : S.Checks) :
    (ValueCodec.message S).Checks where
  init := Schema.utf8_empty hS hc
  of_read := by
    intro d x p y hx hr
    cases p with
    | len b =>
      cases d with
      | zero => exact absurd hr (by simp [ValueCodec.message])
      | succ d => exact Schema.utf8_parse hS hc hx (Option.some.inj hr)
    | _ => cases d <;> exact absurd hr (by simp [ValueCodec.message])
  of_ok := by
    rintro d x p ⟨b, hb, rfl⟩ hfit hok
    obtain ⟨d', -, hwf⟩ := hok b rfl
    exact Schema.utf8_of_wellFormed hS hc hb hfit hwf

end Messages

/-! ### Maps and oneofs -/

section Maps

variable {α : Type} {v : ValueCodec α} {h n : ℕ}

theorem entrySchema_checks (hv : v.Checks) : (entrySchema v).Checks :=
  List.forall_mem_cons.mpr ⟨FieldCodec.always_checks ValueCodec.string_checks,
    List.forall_mem_singleton.mpr (FieldCodec.always_checks hv)⟩

theorem FieldCodec.map_checks (hv : v.Lawful h) (hc : v.Checks) :
    (FieldCodec.map n v).Checks := by
  have hE := ValueCodec.message_checks (entrySchema_lawful hv) (entrySchema_checks hc)
  exact {
    init := map_utf8_empty
    of_read := by
      intro d m r m' hm hr
      simp only [FieldCodec.map] at hr
      split at hr
      · obtain ⟨⟨ok, e⟩, he, heq⟩ := Option.map_eq_some_iff.mp hr
        obtain ⟨rfl, rfl⟩ := Prod.mk.inj heq
        have hentry := hE.of_read hE.init he
        exact map_utf8_insert hm (hentry _ List.mem_cons_self)
          (hentry _ (List.mem_cons_of_mem _ List.mem_cons_self))
      · exact absurd hr (by simp)
    of_ok := by
      rintro d m rs ⟨es, hes, hw⟩ hfit hok e he
      exact (FieldCodec.repeated_checks hE).of_ok hw hfit hok e (hes.mem_iff.mpr he) }

end Maps

section Oneof

variable {V : Type} {alts : List (Alt V)} {case : V → ℕ} {h : ℕ}

/-- `proj` takes back out what `inj` put in. -/
theorem FieldCodec.oneof_checks (ha : Alt.Lawful alts case h)
    (hproj : ∀ a ∈ alts, ∀ x, a.proj (a.inj x) = some x)
    (hc : ∀ a ∈ alts, a.value.Checks) : (FieldCodec.oneof alts).Checks where
  init v hv := absurd hv (by simp [FieldCodec.oneof])
  of_read := by
    intro d o r o' ho hr
    obtain ⟨a, hma, hread⟩ := List.exists_of_findSome?_eq_some hr
    rw [Alt.read] at hread
    split at hread
    · obtain ⟨⟨ok, x⟩, hx, he⟩ := Option.map_eq_some_iff.mp hread
      obtain ⟨rfl, rfl⟩ := Prod.mk.inj he
      have hpresent : a.value.Utf8 ((o.bind a.proj).getD a.value.init) := by
        rcases hb : o.bind a.proj with _ | y
        · exact (hc a hma).init
        · obtain ⟨v, hv, hy⟩ := Option.bind_eq_some_iff.mp hb
          exact ho v hv a hma y hy
      intro v hv b hmb y hy
      obtain rfl := Option.some.inj hv
      -- only the case that was set projects
      by_cases hab : a = b
      · subst hab
        obtain rfl := Option.some.inj ((hproj a hma x).symm.trans hy)
        exact (hc a hma).of_read hpresent hx
      · exact absurd (hy.symm.trans (ha.proj_eq_none hma hmb (hproj a hma x) hab)) (by simp)
    · exact absurd hread (by simp)
  of_ok := by
    intro d o rs hw hfit hok v hv a hma x hx
    obtain rfl := hv
    obtain ⟨parts, hparts, rfl⟩ := hw
    obtain ⟨p, hp, hflat⟩ := ha.writes_flatten hma hx hparts
    rw [hflat] at hfit hok
    exact (hc a hma).of_ok hp (hfit _ List.mem_cons_self).2 (hok _ List.mem_cons_self a hma rfl)

end Oneof

end Proto
