/-
Laws of schemas.

The fields of a lawful schema take different records and keep to their own part
of the message, so a parse can be followed one field at a time.

* `Schema.parse_ok_iff` — a parse succeeds exactly on the bytes that are well
  formed for the schema, whatever the message held before;
* `Schema.parse_eq_of_declared` — records of other numbers are skipped, wherever they
  stand;
* `Schema.parse_serializes` — every encoding of a message parses back to it;
* `Schema.get_parse` — what a parse leaves in a field is what the field itself
  makes of the records accepted before the first malformed one, so two schemas
  that declare the same field agree on it;
* `ValueCodec.message_lawful`, `FieldCodec.map_lawful`, `FieldCodec.oneof_lawful`
  — the codecs built from schemas and from codecs are lawful again.
-/
import Click.Proto.Laws

namespace Proto

section Steps

variable {M : Type} {S : Schema M} {h d : ℕ}

/-- A message with a single field has nothing to keep apart. -/
theorem Schema.lawful_single {empty : M} {f : Member M} (hf : f.field.Lawful h)
    (hinit : f.get empty = f.field.init) (hset : ∀ m, f.set empty (f.get m) = m) :
    Schema.Lawful { empty := empty, members := [f] } h where
  field := List.forall_mem_singleton.mpr hf
  apart := List.pairwise_singleton _ _
  init := List.forall_mem_singleton.mpr hinit
  rebuild := hset

theorem Member.Apart.symm {f g : Member M} (hfg : f.Apart g) : g.Apart f where
  nums n hg hf := hfg.nums n hf hg
  get_left := hfg.get_right
  get_right := hfg.get_left

instance : Std.Symm (Member.Apart (M := M)) := ⟨fun _ _ => Member.Apart.symm⟩

theorem Schema.Lawful.apart_of_ne (hS : S.Lawful h) {f g : Member M} (hf : f ∈ S.members)
    (hg : g ∈ S.members) (hne : f ≠ g) : f.Apart g :=
  List.Pairwise.forall hS.apart hf hg hne

theorem Member.read_of_num {f : Member M} (hf : f.field.Lawful h) {m : M} {r : Record}
    (hr : r.num ∉ f.field.nums) : f.read d m r = none := by
  rw [Member.read, hf.read_of_num hr, Option.map_none]

private theorem findSome?_eq_of_unique {α β : Type*} {l : List α} {f : α → Option β} {a : α}
    (ha : a ∈ l) (hu : ∀ b ∈ l, b ≠ a → f b = none) : l.findSome? f = f a := by
  induction l with
  | nil => exact absurd ha List.not_mem_nil
  | cons b l ih =>
    rw [List.findSome?_cons]
    by_cases hb : b = a
    · rcases hfa : f a with _ | y
      · rw [hb, hfa]
        refine List.findSome?_eq_none_iff.mpr fun c hc => ?_
        by_cases hca : c = a
        · rw [hca, hfa]
        · exact hu c (List.mem_cons_of_mem _ hc) hca
      · rw [hb, hfa]
    · rw [hu b List.mem_cons_self hb]
      rcases List.mem_cons.mp ha with rfl | ha
      · exact absurd rfl hb
      · exact ih ha fun c hc => hu c (List.mem_cons_of_mem _ hc)

/-- A record belongs to at most one field, and that field alone stores it. -/
theorem Schema.Lawful.step_of_mem (hS : S.Lawful h) {f : Member M} (hf : f ∈ S.members)
    {r : Record} (hr : r.num ∈ f.field.nums) (m : M) :
    S.step d m r = (f.read d m r).getD (true, m) := by
  have hother : ∀ g ∈ S.members, g ≠ f → g.read d m r = none := fun g hg hne =>
    Member.read_of_num (hS.field g hg) ((hS.apart_of_ne hf hg hne.symm).nums _ hr)
  rw [Schema.step, findSome?_eq_of_unique (f := fun g : Member M => g.read d m r) hf hother]

theorem Schema.Lawful.step_of_num (hS : S.Lawful h) {r : Record}
    (hr : ∀ f ∈ S.members, r.num ∉ f.field.nums) (m : M) : S.step d m r = (true, m) := by
  have hnone : (S.members.findSome? fun f => f.read d m r) = none :=
    List.findSome?_eq_none_iff.mpr fun f hf => Member.read_of_num (hS.field f hf) (hr f hf)
  rw [Schema.step, hnone, Option.getD_none]

theorem Schema.Lawful.step_ok_iff (hS : S.Lawful h) (m : M) (r : Record) :
    (S.step d m r).1 = true ↔ S.Ok d r := by
  rw [Schema.step]
  rcases hs : S.members.findSome? fun f => f.read d m r with _ | ⟨ok, m'⟩
  · rw [hs, Option.getD_none]
    refine ⟨fun _ f hf => ?_, fun _ => rfl⟩
    have hf' := List.findSome?_eq_none_iff.mp hs f hf
    exact (hS.field f hf).read_none (Option.map_eq_none_iff.mp hf')
  · obtain ⟨f, hf, hr⟩ := List.exists_of_findSome?_eq_some hs
    obtain ⟨⟨ok', x⟩, hx, he⟩ := Option.map_eq_some_iff.mp hr
    obtain ⟨rfl, -⟩ := Prod.mk.inj he
    have hok := (hS.field f hf).read_some hx
    rw [hs, Option.getD_some]
    refine ⟨fun ht g hg => ?_, fun hall => hok.mpr (hall f hf)⟩
    by_cases hfg : f = g
    · rw [← hfg]
      exact hok.mp ht
    · -- only `f` takes the record, so `g` has nothing to object to
      have hnum : r.num ∈ f.field.nums := by
        by_contra hc
        rw [(hS.field f hf).read_of_num hc] at hx
        exact absurd hx (by simp)
      have hg' := (hS.field g hg).read_of_num (d := d) (x := g.get m)
        ((hS.apart_of_ne hf hg hfg).nums _ hnum)
      exact (hS.field g hg).read_none hg'

/-- Well-formed bytes are whole records, so there is nothing to read behind them. -/
theorem Schema.WellFormed.records_eq {bs : Bytes} (hwf : S.WellFormed d bs) (past : Bytes) :
    records past d bs = records [] d bs :=
  records_eq_of_whole past hwf.1

theorem Schema.WellFormed.ok {bs : Bytes} (hwf : S.WellFormed d bs) (past : Bytes) :
    ∀ r ∈ (records past d bs).1, S.Ok d r := by
  rw [hwf.records_eq past]
  exact hwf.2

/-- **A parse succeeds exactly on the well-formed bytes.** -/
theorem Schema.parse_ok_iff (hS : S.Lawful h) (past bs : Bytes) (m : M) :
    (S.parse past d bs m).1 = true ↔ S.WellFormed d bs := by
  rw [Schema.parse, parseRecords_eq, Bool.and_eq_true,
    feed_ok_iff (S.step d) (P := S.Ok d) (hS.step_ok_iff)]
  refine ⟨fun ⟨hok, hrec⟩ => ?_, fun hwf => ⟨hwf.ok past, ?_⟩⟩
  · have heq := records_eq_of_whole [] hrec
    exact ⟨(records_whole_iff past [] d bs).mp hrec, by rwa [heq]⟩
  · exact (records_whole_iff past [] d bs).mpr hwf.1

/-! ### Records that no field takes -/

/-- The numbers of the fields. -/
def Schema.nums (S : Schema M) : List ℕ := S.members.flatMap fun f => f.field.nums

/-- The records that are of one of the fields. -/
def Schema.declared (S : Schema M) (rs : List Record) : List Record :=
  rs.filter fun r => r.num ∈ S.nums

/-- **Other records are skipped**: they leave the message as it is, and are no failure. -/
theorem Schema.Lawful.feed_declared (hS : S.Lawful h) (m : M) (rs : List Record) :
    feed (S.step d) m (S.declared rs) = feed (S.step d) m rs := by
  induction rs generalizing m with
  | nil => rfl
  | cons r rs ih =>
    rw [declared] at ih
    rw [declared]
    by_cases hr : r.num ∈ S.nums
    · rw [List.filter_cons_of_pos (by simpa using hr), feed, feed]
      rcases S.step d m r with ⟨_ | _, m'⟩
      · rfl
      · exact ih m'
    · have hstep := hS.step_of_num (d := d) (fun f hf hn =>
        hr (List.mem_flatMap.mpr ⟨f, hf, hn⟩)) m
      rw [List.filter_cons_of_neg (by simpa using hr), feed, hstep]
      exact ih m

theorem Schema.Lawful.ok_of_undeclared (hS : S.Lawful h) {r : Record} (hr : r.num ∉ S.nums) :
    S.Ok d r :=
  (hS.step_ok_iff S.empty r).mp <| congrArg Prod.fst <|
    hS.step_of_num (fun f hf hn => hr (List.mem_flatMap.mpr ⟨f, hf, hn⟩)) S.empty

theorem Schema.Lawful.parse_eq_of_declared (hS : S.Lawful h) {past b b' : Bytes}
    (hwhole : (records past d b).2 = (records past d b').2)
    (hdeclared : S.declared (records past d b).1 = S.declared (records past d b').1) (m : M) :
    S.parse past d b m = S.parse past d b' m := by
  have hfeed := hS.feed_declared (d := d) m (records past d b).1
  rw [hdeclared, hS.feed_declared] at hfeed
  rw [Schema.parse, Schema.parse, parseRecords_eq, parseRecords_eq, hwhole, hfeed]

/-! ### One field of a parse -/

/-- What a field holds after some records, each taken or passed over. -/
def FieldCodec.scan {α : Type} (f : FieldCodec α) (d : ℕ) (x : α) (rs : List Record) : α :=
  rs.foldl (fun x r => ((f.read d x r).map Prod.snd).getD x) x

theorem Schema.Lawful.get_step (hS : S.Lawful h) {f : Member M} (hf : f ∈ S.members) (m : M)
    (r : Record) :
    f.get (S.step d m r).2 = ((f.field.read d (f.get m) r).map Prod.snd).getD (f.get m) := by
  -- the record is this field's, another's, or nobody's
  by_cases hr : r.num ∈ f.field.nums
  · rw [hS.step_of_mem hf hr, Member.read]
    rcases f.field.read d (f.get m) r with _ | ⟨ok, x⟩
    · rfl
    · exact f.get_set m x
  · rw [(hS.field f hf).read_of_num hr, Option.map_none, Option.getD_none]
    by_cases hg : ∃ g ∈ S.members, r.num ∈ g.field.nums
    · obtain ⟨g, hg, hgr⟩ := hg
      have hne : f ≠ g := fun hc => hr (hc ▸ hgr)
      rw [hS.step_of_mem hg hgr, Member.read]
      rcases g.field.read d (g.get m) r with _ | ⟨ok, x⟩
      · rfl
      · exact (hS.apart_of_ne hf hg hne).get_left m x
    · have hnum : ∀ g ∈ S.members, r.num ∉ g.field.nums := fun g hm hgr => hg ⟨g, hm, hgr⟩
      rw [hS.step_of_num hnum]

open Classical in
/-- The records before the first malformed one. -/
noncomputable def Schema.accepted (S : Schema M) (d : ℕ) (rs : List Record) : List Record :=
  rs.takeWhile fun r => decide (S.Ok d r)

theorem Schema.accepted_eq_self {rs : List Record} (hrs : ∀ r ∈ rs, S.Ok d r) :
    S.accepted d rs = rs :=
  List.takeWhile_eq_self_iff.mpr fun r hr => by simpa using hrs r hr

/-- **A field that takes any record is filled from the accepted records**, as if
the other fields were not there. -/
theorem Schema.Lawful.get_feed (hS : S.Lawful h) {f : Member M} (hf : f ∈ S.members)
    (hok : ∀ r, f.field.Ok d r) {m : M} {rs : List Record} :
    f.get (feed (S.step d) m rs).2 = f.field.scan d (f.get m) (S.accepted d rs) := by
  induction rs generalizing m with
  | nil => rfl
  | cons r rs ih =>
    have hget := hS.get_step (d := d) hf m r
    have hstep := hS.step_ok_iff (d := d) m r
    rw [feed, Schema.accepted, List.takeWhile_cons]
    rcases hs : S.step d m r with ⟨ok, m'⟩
    rw [hs] at hget hstep
    cases ok with
    | true =>
      rw [if_pos (by simpa using hstep.mp rfl), FieldCodec.scan, List.foldl_cons, ← hget]
      exact ih
    | false =>
      -- the record that ends the parse belongs to another field
      have hbad : ¬ S.Ok d r := fun hc => absurd (hstep.mpr hc) (by simp)
      have hnone : f.field.read d (f.get m) r = none := by
        rcases hr : f.field.read d (f.get m) r with _ | ⟨ok', x⟩
        · rfl
        · have hok' : ok' = true := ((hS.field f hf).read_some hr).mpr (hok r)
          have hnum : r.num ∈ f.field.nums := by
            by_contra hc
            rw [(hS.field f hf).read_of_num hc] at hr
            exact absurd hr (by simp)
          rw [hS.step_of_mem hf hnum, Member.read, hr, hok'] at hs
          exact absurd (congrArg Prod.fst hs) (by simp)
      rw [if_neg (by simpa using hbad)]
      rw [hnone] at hget
      exact hget

theorem Schema.Lawful.get_parse (hS : S.Lawful h) {f : Member M} (hf : f ∈ S.members)
    (hok : ∀ r, f.field.Ok d r) (past bs : Bytes) (m : M) :
    f.get (S.parse past d bs m).2 =
      f.field.scan d (f.get m) (S.accepted d (records past d bs).1) := by
  rw [Schema.parse, parseRecords_eq]
  exact hS.get_feed hf hok

/-! ### Parsing what was written -/

/-- The records of one field, stored one after the other. -/
theorem Schema.Lawful.feed_take (hS : S.Lawful h) {f : Member M} (hf : f ∈ S.members) {m : M}
    {rs : List Record} {y : f.α} (hnum : ∀ r ∈ rs, r.num ∈ f.field.nums)
    (ht : f.field.take d (f.get m) rs = some y) : feed (S.step d) m rs = (true, f.set m y) := by
  induction rs generalizing m with
  | nil =>
    rw [FieldCodec.take, Option.some_inj] at ht
    rw [feed, ← ht, f.set_get]
  | cons r rs ih =>
    have hstep := hS.step_of_mem (d := d) hf (hnum r List.mem_cons_self) m
    rw [FieldCodec.take] at ht
    rcases hr : f.field.read d (f.get m) r with _ | ⟨_ | _, x⟩
    · rw [hr] at ht
      exact absurd ht (by simp)
    · rw [hr] at ht
      exact absurd ht (by simp)
    · rw [hr] at ht
      rw [Member.read, hr, Option.map_some, Option.getD_some] at hstep
      rw [feed, hstep]
      have ht' : f.field.take d (f.get (f.set m x)) rs = some y := by rwa [f.get_set]
      have hrest := ih (fun r hr => hnum r (List.mem_cons_of_mem _ hr)) ht'
      rwa [f.set_set] at hrest

/-- The fields written one after the other, each over its default. -/
theorem Schema.Lawful.feed_parts (hS : S.Lawful h) (hd : h ≤ d) {m : M} (hu : S.Utf8 m)
    {fs : List (Member M)} {parts : List (List Record)}
    (hw : List.Forall₂ (fun f ps => f.field.Writes (f.get m) ps) fs parts) :
    (∀ f ∈ fs, f ∈ S.members) → fs.Pairwise Member.Apart → (∀ r ∈ parts.flatten, r.Fits) →
    ∀ acc : M, (∀ f ∈ fs, f.get acc = f.field.init) →
      feed (S.step d) acc parts.flatten =
        (true, fs.foldl (fun acc f => f.set acc (f.get m)) acc) := by
  -- each field still holds its default when its turn comes
  induction hw with
  | nil => exact fun _ _ _ _ _ => rfl
  | @cons f ps fs parts hp _ ih =>
    intro hmem hap hfit acc hinit
    have hf := hmem f List.mem_cons_self
    have hlaw := hS.field f hf
    rw [List.flatten_cons, List.forall_mem_append] at hfit
    have ht : f.field.take d (f.get acc) ps = some (f.get m) := by
      rw [hinit f List.mem_cons_self]
      exact hlaw.round_trip hd (hu f hf) hp hfit.1
    have hfeed := hS.feed_take hf (fun r hr => (hlaw.writes_num hp r hr).1) ht
    rw [List.pairwise_cons] at hap
    have hrest : ∀ g ∈ fs, g.get (f.set acc (f.get m)) = g.field.init := by
      intro g hg
      rw [(hap.1 g hg).get_right]
      exact hinit g (List.mem_cons_of_mem _ hg)
    rw [List.flatten_cons, feed_append, hfeed, if_pos rfl, List.foldl_cons]
    exact ih (fun g hg => hmem g (List.mem_cons_of_mem _ hg)) hap.2 hfit.2 _ hrest

theorem exists_of_mem_parts {m : M} {fs : List (Member M)} {parts : List (List Record)}
    (hw : List.Forall₂ (fun f ps => f.field.Writes (f.get m) ps) fs parts) {r : Record}
    (hr : r ∈ parts.flatten) : ∃ f ∈ fs, ∃ ps, f.field.Writes (f.get m) ps ∧ r ∈ ps := by
  obtain ⟨ps, hps, hrp⟩ := List.mem_flatten.mp hr
  induction hw with
  | nil => exact absurd hps List.not_mem_nil
  | @cons f ps' fs parts hp _ ih =>
    rcases List.mem_cons.mp hps with rfl | hps
    · exact ⟨f, List.mem_cons_self, ps, hp, hrp⟩
    · obtain ⟨g, hg, hrest⟩ := ih (List.mem_flatten.mpr ⟨ps, hps, hrp⟩) hps
      exact ⟨g, List.mem_cons_of_mem _ hg, hrest⟩

theorem Schema.Lawful.fits_of_writes (hS : S.Lawful h) {m : M} {rs : List Record}
    (hw : S.Writes m rs) (hlen : (encodeRecords rs).length ≤ maxSize) : ∀ r ∈ rs, r.Fits := by
  obtain ⟨parts, hparts, rfl⟩ := hw
  intro r hr
  obtain ⟨f, hf, ps, hp, hrp⟩ := exists_of_mem_parts hparts hr
  obtain ⟨hnum, hgroup⟩ := (hS.field f hf).writes_num hp r hrp
  refine ⟨(hS.field f hf).nums_valid _ hnum, ?_⟩
  obtain ⟨n, payload⟩ := r
  cases payload with
  | len b => exact (length_le_of_mem hr).trans hlen
  | group => exact absurd rfl hgroup
  | _ => trivial

/-- **Every encoding of a message parses back to it.** -/
theorem Schema.parse_serializes (hS : S.Lawful h) (hd : h ≤ d) {m : M} (hu : S.Utf8 m)
    {b : Bytes} (hs : S.Serializes m b) (hlen : b.length ≤ maxSize) (past : Bytes) :
    S.parse past d b S.empty = (true, m) := by
  obtain ⟨rs, hw, rfl⟩ := hs
  have hfit := hS.fits_of_writes hw hlen
  obtain ⟨parts, hparts, rfl⟩ := hw
  -- the records come back as written, and every field takes its own
  have hfeed := hS.feed_parts hd hu hparts (fun _ hf => hf) hS.apart hfit S.empty hS.init
  rw [hS.rebuild] at hfeed
  rw [Schema.parse, parseRecords_eq, records_encodeRecords hfit, hfeed, Bool.and_self]

/-! ### The first field, read by another schema -/

theorem FieldCodec.scan_of_take {α : Type} {f : FieldCodec α} {x y : α} {rs : List Record}
    (ht : f.take d x rs = some y) : f.scan d x rs = y := by
  induction rs generalizing x with
  | nil => exact Option.some.inj ht
  | cons r rs ih =>
    rw [FieldCodec.take] at ht
    rcases hr : f.read d x r with _ | ⟨_ | _, x'⟩ <;> rw [hr] at ht
    · exact absurd ht (by simp)
    · exact absurd ht (by simp)
    · rw [FieldCodec.scan, List.foldl_cons, hr]
      exact ih ht

theorem FieldCodec.Lawful.scan_of_num {α : Type} {f : FieldCodec α} (hf : f.Lawful h) {x : α}
    {rs : List Record} (hrs : ∀ r ∈ rs, r.num ∉ f.nums) : f.scan d x rs = x := by
  induction rs with
  | nil => rfl
  | cons r rs ih =>
    rw [FieldCodec.scan, List.foldl_cons, hf.read_of_num (hrs r List.mem_cons_self)]
    exact ih fun r hr => hrs r (List.mem_cons_of_mem _ hr)

theorem FieldCodec.scan_append {α : Type} {f : FieldCodec α} {x : α} {rs ss : List Record} :
    f.scan d x (rs ++ ss) = f.scan d (f.scan d x rs) ss :=
  List.foldl_append

/-- Only the field that a record belongs to may object to it. -/
theorem Schema.Lawful.ok_of_num (hS : S.Lawful h) {f : Member M} (hf : f ∈ S.members)
    {r : Record} (hr : r.num ∈ f.field.nums) (hok : f.field.Ok d r) : S.Ok d r := by
  intro g hg
  by_cases hfg : f = g
  · exact hfg ▸ hok
  · exact (hS.field g hg).read_none
      ((hS.field g hg).read_of_num (x := g.get S.empty) ((hS.apart_of_ne hf hg hfg).nums _ hr))

/-- What is written has the numbers of fields. -/
theorem Schema.Lawful.mem_nums (hS : S.Lawful h) {m : M} {rs : List Record}
    (hw : S.Writes m rs) : ∀ r ∈ rs, r.num ∈ S.nums := by
  obtain ⟨parts, hparts, rfl⟩ := hw
  intro r hr
  obtain ⟨f, hf, ps, hp, hrp⟩ := exists_of_mem_parts hparts hr
  exact List.mem_flatMap.mpr ⟨f, hf, ((hS.field f hf).writes_num hp r hrp).1⟩

/-- The records of the first field come first, and what follows belongs to others. -/
theorem Schema.Lawful.exists_head (hS : S.Lawful h) {f : Member M} {fs : List (Member M)}
    (hmem : S.members = f :: fs) {m : M} {rs : List Record} (hw : S.Writes m rs) :
    ∃ ps rest, rs = ps ++ rest ∧ f.field.Writes (f.get m) ps ∧
      ∀ r ∈ rest, r.num ∉ f.field.nums := by
  obtain ⟨parts, hparts, rfl⟩ := hw
  rw [hmem] at hparts
  obtain ⟨ps, parts, hp, hrest, rfl⟩ := List.forall₂_cons_left_iff.mp hparts
  refine ⟨ps, parts.flatten, List.flatten_cons, hp, fun r hr hnum => ?_⟩
  obtain ⟨g, hg, gs, hgs, hrg⟩ := exists_of_mem_parts hrest hr
  have hapart := hS.apart
  rw [hmem, List.pairwise_cons] at hapart
  exact (hapart.1 g hg).nums _ hnum
    ((hS.field g (hmem ▸ List.mem_cons_of_mem _ hg)).writes_num hgs r hrg).1

/-- **The first field of an encoding survives a parse by another schema** that has no
objection to its records, however far that parse gets. -/
theorem Schema.Lawful.scan_accepted_head (hS : S.Lawful h) (hd : h ≤ d) {f : Member M}
    {fs : List (Member M)} (hmem : S.members = f :: fs) {m : M}
    (hu : f.field.Utf8 (f.get m)) {b : Bytes} (hs : S.Serializes m b) (hlen : b.length ≤ maxSize)
    {M' : Type} {S' : Schema M'} (hok : ∀ r, r.num ∈ f.field.nums → S'.Ok d r) (past : Bytes) :
    f.field.scan d f.field.init (S'.accepted d (records past d b).1) = f.get m := by
  obtain ⟨rs, hw, rfl⟩ := hs
  have hfit := hS.fits_of_writes hw hlen
  rw [records_encodeRecords hfit]
  obtain ⟨ps, rest, rfl, hp, hrest⟩ := hS.exists_head hmem hw
  have hlaw := hS.field f (hmem ▸ List.mem_cons_self)
  -- the records of the field come first and are accepted
  have hacc : S'.accepted d (ps ++ rest) = ps ++ S'.accepted d rest :=
    List.takeWhile_append_of_pos fun r hr => by simpa using hok r (hlaw.writes_num hp r hr).1
  have htake := hlaw.round_trip hd hu hp (List.forall_mem_append.mp hfit).1
  rw [hacc, FieldCodec.scan_append, FieldCodec.scan_of_take htake]
  exact hlaw.scan_of_num fun r hr => hrest r ((List.takeWhile_sublist _).subset hr)

/-- Every encoding has the size `ByteSizeLong` computes. -/
theorem Schema.Lawful.length_serializes (hS : S.Lawful h) {m : M} {b : Bytes}
    (hs : S.Serializes m b) : b.length = S.byteSize m := by
  obtain ⟨rs, ⟨parts, hparts, rfl⟩, rfl⟩ := hs
  have hall : ∀ {fs : List (Member M)} {parts : List (List Record)},
      List.Forall₂ (fun f ps => f.field.Writes (f.get m) ps) fs parts →
      (∀ f ∈ fs, f ∈ S.members) → (encodeRecords parts.flatten).length =
        (encodeRecords (fs.flatMap fun f => f.field.write (f.get m))).length := by
    intro fs parts hw
    induction hw with
    | nil => exact fun _ => rfl
    | @cons f ps fs parts hp _ ih =>
      intro hmem
      rw [List.flatten_cons, List.flatMap_cons, encodeRecords_append, encodeRecords_append,
        List.length_append, List.length_append, (hS.field f (hmem f List.mem_cons_self)).size hp,
        ih fun g hg => hmem g (List.mem_cons_of_mem _ hg)]
  exact hall hparts fun _ hf => hf

theorem Schema.Lawful.serializes_serialize (hS : S.Lawful h) (m : M) :
    S.Serializes m (S.serialize m) := by
  refine ⟨S.write m, ⟨S.members.map fun f => f.field.write (f.get m), ?_, rfl⟩, rfl⟩
  rw [List.forall₂_map_right_iff, List.forall₂_same]
  exact fun f hf => (hS.field f hf).writes_write _

end Steps

/-! ### Submessages and maps -/

theorem ValueCodec.message_lawful {M : Type} {S : Schema M} {h : ℕ} (hS : S.Lawful h) :
    (ValueCodec.message S).Lawful (h + 1) where
  read_some := by
    intro d x p ok y hr
    cases p with
    | len b =>
      cases d with
      | zero =>
        -- no level of nesting left: the submessage is not even looked at
        obtain ⟨rfl, -⟩ := Prod.mk.inj (Option.some_inj.mp hr)
        refine ⟨fun hc => absurd hc (by simp), fun hc => ?_⟩
        obtain ⟨d', hd, -⟩ := hc b rfl
        exact absurd hd (by simp)
      | succ d =>
        have hp : S.parse [] d b x = (ok, y) := Option.some_inj.mp hr
        have hiff := Schema.parse_ok_iff hS (d := d) [] b x
        rw [hp] at hiff
        refine hiff.trans ⟨fun hw c hc => ⟨d, rfl, (Payload.len.inj hc) ▸ hw⟩, fun hc => ?_⟩
        obtain ⟨d', hd, hw⟩ := hc b rfl
        rwa [Nat.succ.inj hd]
    | _ => cases d <;> exact absurd hr (by simp [ValueCodec.message])
  read_none := by
    intro d x p hr b hp
    rw [hp] at hr
    cases d <;> exact absurd hr (by simp [ValueCodec.message])
  writes_write := fun x => ⟨_, hS.serializes_serialize x, rfl⟩
  ne_group := by
    rintro x p ⟨b, -, rfl⟩
    exact Payload.noConfusion
  size := by
    rintro x p ⟨b, hb, rfl⟩
    have hlen : b.length = (S.serialize x).length := hS.length_serializes hb
    refine ⟨rfl, ?_⟩
    simp only [ValueCodec.message, Payload.encode, List.length_append, hlen]
  round_trip := by
    rintro d x p hd hu ⟨b, hb, rfl⟩ hfit
    obtain ⟨d, rfl⟩ : ∃ d', d = d' + 1 := ⟨d - 1, by omega⟩
    exact congrArg some (Schema.parse_serializes hS (Nat.le_of_succ_le_succ hd) hu hb hfit [])

section Maps

variable {α : Type} {v : ValueCodec α} {h n : ℕ}

theorem entrySchema_lawful (hv : v.Lawful h) : (entrySchema v).Lawful h where
  field := by
    have hk := FieldCodec.always_lawful (n := 1) (ValueCodec.string_lawful.mono (Nat.zero_le h))
      (by norm_num)
    have hx := FieldCodec.always_lawful (n := 2) hv (by norm_num)
    exact List.forall_mem_cons.mpr ⟨hk, List.forall_mem_cons.mpr ⟨hx, by simp⟩⟩
  apart := by
    refine List.pairwise_pair.mpr ⟨?_, fun _ _ => rfl, fun _ _ => rfl⟩
    intro m hm hc
    rw [List.mem_singleton.mp hm] at hc
    exact absurd (List.mem_singleton.mp hc) (by norm_num)
  init := List.forall_mem_cons.mpr ⟨rfl, List.forall_mem_cons.mpr ⟨rfl, by simp⟩⟩
  rebuild _ := rfl

/-- Putting the entries of a map into an empty one, in any order, gives the map
back. -/
theorem foldl_insert_of_perm {m : Map α} {es : List (Bytes × α)} (hes : es.Perm m.toList) :
    es.foldl (fun acc e => acc.insert e.1 e.2) (∅ : Map α) = m := by
  have hdist : es.Pairwise fun a b => ¬ compare a.1 b.1 = .eq :=
    (hes.pairwise_iff fun hab hba => hab (Std.OrientedCmp.eq_symm hba)).mpr
      m.distinct_keys_toList
  rw [← Std.ExtTreeMap.ofList_eq_foldl]
  -- no key occurs twice, so no entry is replaced
  refine Std.ExtTreeMap.ext_getElem? fun k => ?_
  rcases hk : m[k]? with _ | x
  · refine Std.ExtTreeMap.getElem?_ofList_of_contains_eq_false ?_
    by_contra hc
    rw [Bool.not_eq_false, List.contains_iff_mem] at hc
    obtain ⟨e, he, rfl⟩ := List.mem_map.mp hc
    have hme := Std.ExtTreeMap.mem_toList_iff_getElem?_eq_some.mp (hes.mem_iff.mp he)
    rw [hk] at hme
    exact absurd hme (by simp)
  · have hmem : (k, x) ∈ es :=
      hes.mem_iff.mpr (Std.ExtTreeMap.mem_toList_iff_getElem?_eq_some.mpr hk)
    exact Std.ExtTreeMap.getElem?_ofList_of_mem Std.ReflCmp.compare_self hdist hmem

/-- The entries are read one by one and put into the map. -/
theorem FieldCodec.take_map (hv : v.Lawful h) {d : ℕ} (hd : h + 1 ≤ d) {es : List (Bytes × α)}
    {rs : List Record} (hu : ∀ e ∈ es, (entrySchema v).Utf8 e)
    (hw : (FieldCodec.repeated n (.message (entrySchema v))).Writes es rs)
    (hfit : ∀ r ∈ rs, r.Fits) (acc : Map α) :
    (FieldCodec.map n v).take d acc rs =
      some (es.foldl (fun acc e => acc.insert e.1 e.2) acc) := by
  have hE := ValueCodec.message_lawful (entrySchema_lawful hv)
  change List.Forall₂ _ es rs at hw
  induction hw generalizing acc with
  | nil => rfl
  | @cons e r es rs he _ ih =>
    obtain ⟨p, hp, rfl⟩ := he
    have hr := hE.round_trip hd (hu e List.mem_cons_self) hp (hfit _ List.mem_cons_self).2
    have hread : (FieldCodec.map n v).read d acc ⟨n, p⟩ = some (true, acc.insert e.1 e.2) := by
      simp only [FieldCodec.map, if_true]
      rw [show (ValueCodec.message (entrySchema v)).read d (entrySchema v).empty p =
        some (true, e) from hr]
      rfl
    rw [FieldCodec.take, hread]
    exact ih (fun e he => hu e (List.mem_cons_of_mem _ he))
      (fun r hr => hfit r (List.mem_cons_of_mem _ hr)) (acc.insert e.1 e.2)

theorem FieldCodec.map_lawful (hv : v.Lawful h) (hn : 1 ≤ n ∧ n < 2 ^ 28) :
    (FieldCodec.map n v).Lawful (h + 1) := by
  have hE := ValueCodec.message_lawful (entrySchema_lawful hv)
  have hR := FieldCodec.repeated_lawful hE hn
  exact {
    nums_valid := hR.nums_valid
    read_of_num := fun hr => if_neg fun hc => hr (List.mem_singleton.mpr hc)
    read_some := by
      intro d m r ok y hr
      simp only [FieldCodec.map] at hr ⊢
      split at hr
      · next hc =>
        obtain ⟨⟨ok', e⟩, he, heq⟩ := Option.map_eq_some_iff.mp hr
        obtain ⟨rfl, -⟩ := Prod.mk.inj heq
        exact ⟨fun hok _ => (hE.read_some he).mp hok, fun hok => (hE.read_some he).mpr (hok hc)⟩
      · exact absurd hr (by simp)
    read_none := by
      intro d m r hr hc
      simp only [FieldCodec.map, if_pos hc, Option.map_eq_none_iff] at hr
      exact hE.read_none hr
    writes_write := fun m => ⟨m.toList, List.Perm.refl _, hR.writes_write _⟩
    writes_num := by
      rintro m rs ⟨es, -, hw⟩
      exact hR.writes_num hw
    size := by
      rintro m rs ⟨es, hes, hw⟩
      rw [hR.size hw]
      exact ((hes.map _).flatMap_right _).length_eq
    round_trip := by
      rintro d m rs hd hu ⟨es, hes, hw⟩ hfit
      have hu' : ∀ e ∈ es, (entrySchema v).Utf8 e := fun e he => hu e (hes.mem_iff.mp he)
      exact (take_map hv hd hu' hw hfit ∅).trans (congrArg some (foldl_insert_of_perm hes)) }

/-- The strings of a map are its keys and those in its values. -/
theorem FieldCodec.map_utf8_iff {m : Map α} : (FieldCodec.map n v).Utf8 m ↔
    ∀ k x, m[k]? = some x → validUtf8 k = true ∧ v.Utf8 x := by
  have hentry : ∀ e, (entrySchema v).Utf8 e ↔ validUtf8 e.1 = true ∧ v.Utf8 e.2 := by
    intro e
    rw [Schema.Utf8, entrySchema, List.forall_mem_cons, List.forall_mem_singleton]
    rfl
  constructor
  · intro h k x hk
    exact (hentry (k, x)).mp (h _ (Std.ExtTreeMap.mem_toList_iff_getElem?_eq_some.mpr hk))
  · intro h e he
    exact (hentry e).mpr (h e.1 e.2 (Std.ExtTreeMap.mem_toList_iff_getElem?_eq_some.mp he))

theorem FieldCodec.map_utf8_empty : (FieldCodec.map n v).Utf8 ∅ :=
  map_utf8_iff.mpr fun k x hk => absurd hk (by simp)

theorem FieldCodec.map_utf8_insert {m : Map α} {k : Bytes} {x : α}
    (hm : (FieldCodec.map n v).Utf8 m) (hk : validUtf8 k = true) (hx : v.Utf8 x) :
    (FieldCodec.map n v).Utf8 (m.insert k x) := by
  refine map_utf8_iff.mpr fun k' x' hk' => ?_
  rw [Std.ExtTreeMap.getElem?_insert] at hk'
  by_cases hcmp : compare k k' = .eq
  · rw [if_pos hcmp] at hk'
    rw [← Std.LawfulEqOrd.eq_of_compare hcmp, ← Option.some.inj hk']
    exact ⟨hk, hx⟩
  · rw [if_neg hcmp] at hk'
    exact map_utf8_iff.mp hm k' x' hk'

end Maps

/-! ### Oneofs -/

section Oneof

variable {V : Type} {alts : List (Alt V)} {h : ℕ}

/-- The cases have different numbers, and each value belongs to exactly one of
them, which `case` names by its number (`value_case`). -/
structure Alt.Lawful (alts : List (Alt V)) (case : V → ℕ) (h : ℕ) : Prop where
  value : ∀ a ∈ alts, a.value.Lawful h
  nums_valid : ∀ a ∈ alts, 1 ≤ a.num ∧ a.num < 2 ^ 28
  nodup : (alts.map Alt.num).Nodup
  cover : ∀ v, ∃ a ∈ alts, (a.proj v).isSome
  inj_of_proj : ∀ a ∈ alts, ∀ {v x}, a.proj v = some x → v = a.inj x ∧ case v = a.num

variable {case : V → ℕ}

theorem Alt.Lawful.eq_of_num (ha : Alt.Lawful alts case h) {a b : Alt V} (hma : a ∈ alts)
    (hmb : b ∈ alts) (hab : a.num = b.num) : a = b :=
  List.inj_on_of_nodup_map ha.nodup hma hmb hab

theorem Alt.Lawful.proj_eq_none (ha : Alt.Lawful alts case h) {a b : Alt V} (hma : a ∈ alts)
    (hmb : b ∈ alts) {v : V} {x : a.α} (hx : a.proj v = some x) (hne : a ≠ b) :
    b.proj v = none := by
  rcases hy : b.proj v with _ | y
  · rfl
  · have hnum := (ha.inj_of_proj a hma hx).2.symm.trans (ha.inj_of_proj b hmb hy).2
    exact absurd (ha.eq_of_num hma hmb hnum) hne

/-- The case that is set writes one record and the others none. -/
theorem Alt.Lawful.writes_flatten (ha : Alt.Lawful alts case h) {a : Alt V} (hma : a ∈ alts)
    {v : V} {x : a.α} (hx : a.proj v = some x) {parts : List (List Record)}
    (hw : List.Forall₂ (fun a ps => a.Writes v ps) alts parts) :
    ∃ p, a.value.Writes x p ∧ parts.flatten = [⟨a.num, p⟩] := by
  -- the cases that are not set write nothing
  have hnone : ∀ {bs : List (Alt V)} {parts : List (List Record)},
      List.Forall₂ (fun b ps => b.Writes v ps) bs parts → (∀ b ∈ bs, b ∈ alts) → a ∉ bs →
      parts.flatten = [] := by
    intro bs parts hw
    induction hw with
    | nil => exact fun _ _ => rfl
    | @cons b ps bs parts hb _ ih =>
      intro hmem hnot
      have hbn := ha.proj_eq_none hma (hmem b List.mem_cons_self) hx
        fun hc => hnot (hc ▸ List.mem_cons_self)
      rw [Alt.Writes, hbn] at hb
      rw [List.flatten_cons, List.forall₂_nil_left_iff.mp hb, List.nil_append]
      exact ih (fun c hc => hmem c (List.mem_cons_of_mem _ hc))
        fun hc => hnot (List.mem_cons_of_mem _ hc)
  have hone : ∀ {bs : List (Alt V)} {parts : List (List Record)},
      List.Forall₂ (fun b ps => b.Writes v ps) bs parts → (∀ b ∈ bs, b ∈ alts) → bs.Nodup →
      a ∈ bs → ∃ p, a.value.Writes x p ∧ parts.flatten = [⟨a.num, p⟩] := by
    intro bs parts hw
    induction hw with
    | nil => exact fun _ _ hc => absurd hc List.not_mem_nil
    | @cons b ps bs parts hb hbs ih =>
      intro hmem hnd hin
      rw [List.nodup_cons] at hnd
      by_cases hab : a = b
      · subst hab
        rw [Alt.Writes, hx] at hb
        obtain ⟨r, rs, ⟨p, hp, rfl⟩, hnil, rfl⟩ := List.forall₂_cons_left_iff.mp hb
        rw [List.flatten_cons, List.forall₂_nil_left_iff.mp hnil,
          hnone hbs (fun c hc => hmem c (List.mem_cons_of_mem _ hc)) hnd.1]
        exact ⟨p, hp, rfl⟩
      · have hbn := ha.proj_eq_none hma (hmem b List.mem_cons_self) hx hab
        rw [Alt.Writes, hbn] at hb
        rw [List.flatten_cons, List.forall₂_nil_left_iff.mp hb, List.nil_append]
        exact ih (fun c hc => hmem c (List.mem_cons_of_mem _ hc)) hnd.2
          ((List.mem_cons.mp hin).resolve_left hab)
  exact hone hw (fun _ hb => hb) ha.nodup.of_map hma

private theorem flatMap_eq_of_unique {β γ : Type*} {f : β → List γ} {l : List β} {a : β}
    (ha : a ∈ l) (hnd : l.Nodup) (hu : ∀ b ∈ l, b ≠ a → f b = []) : l.flatMap f = f a := by
  induction l with
  | nil => exact absurd ha List.not_mem_nil
  | cons b l ih =>
    rw [List.nodup_cons] at hnd
    rw [List.flatMap_cons]
    by_cases hb : b = a
    · have hrest : l.flatMap f = [] := List.flatMap_eq_nil_iff.mpr fun c hc =>
        hu c (List.mem_cons_of_mem _ hc) fun hca => hnd.1 (hb.trans hca.symm ▸ hc)
      rw [hb, hrest, List.append_nil]
    · rw [hu b List.mem_cons_self hb, List.nil_append]
      exact ih ((List.mem_cons.mp ha).resolve_left fun hc => hb hc.symm) hnd.2
        fun c hc => hu c (List.mem_cons_of_mem _ hc)

theorem Alt.Lawful.read_eq (ha : Alt.Lawful alts case h) {a : Alt V} (hma : a ∈ alts) {d : ℕ}
    {o : Option V} {r : Record} (hr : r.num = a.num) :
    (FieldCodec.oneof alts).read d o r = a.read d o r := by
  refine findSome?_eq_of_unique hma fun b hb hne => if_neg fun hc => ?_
  exact hne (ha.eq_of_num hb hma (hc.symm.trans hr))

theorem FieldCodec.oneof_lawful (ha : Alt.Lawful alts case h) :
    (FieldCodec.oneof alts).Lawful h where
  nums_valid := by
    intro n hn
    obtain ⟨a, hma, rfl⟩ := List.mem_map.mp hn
    exact ha.nums_valid a hma
  read_of_num := by
    intro d o r hr
    refine List.findSome?_eq_none_iff.mpr fun a hma => if_neg fun hc => hr ?_
    exact List.mem_map.mpr ⟨a, hma, hc.symm⟩
  read_some := by
    intro d o r ok y hr
    obtain ⟨a, hma, hread⟩ := List.exists_of_findSome?_eq_some hr
    rw [Alt.read] at hread
    split at hread
    · next hnum =>
      -- the case that took the record is the only one of its number
      obtain ⟨⟨ok', x⟩, hx, he⟩ := Option.map_eq_some_iff.mp hread
      obtain ⟨rfl, -⟩ := Prod.mk.inj he
      refine ((ha.value a hma).read_some hx).trans ⟨fun hok b hmb hb => ?_, fun hok => ?_⟩
      · obtain rfl := ha.eq_of_num hma hmb (hnum.symm.trans hb)
        exact hok
      · exact hok a hma hnum
    · exact absurd hread (by simp)
  read_none := by
    intro d o r hr a hma hnum
    rw [ha.read_eq hma hnum, Alt.read, if_pos hnum, Option.map_eq_none_iff] at hr
    exact (ha.value a hma).read_none hr
  writes_write := by
    intro o
    cases o with
    | none => rfl
    | some v =>
      refine ⟨alts.map fun a => a.write v, ?_, rfl⟩
      rw [List.forall₂_map_right_iff, List.forall₂_same]
      exact fun a hma => forall₂_write (ha.value a hma) _
  writes_num := by
    intro o rs hw
    cases o with
    | none =>
      rw [show rs = [] from hw]
      exact fun r hr => absurd hr List.not_mem_nil
    | some v =>
      obtain ⟨parts, hparts, rfl⟩ := hw
      obtain ⟨a, hma, hsome⟩ := ha.cover v
      obtain ⟨x, hx⟩ := Option.isSome_iff_exists.mp hsome
      obtain ⟨p, hp, hflat⟩ := ha.writes_flatten hma hx hparts
      rw [hflat]
      intro r hr
      rw [List.mem_singleton.mp hr]
      exact ⟨List.mem_map.mpr ⟨a, hma, rfl⟩, (ha.value a hma).ne_group hp⟩
  size := by
    intro o rs hw
    cases o with
    | none => rw [show rs = [] from hw]; rfl
    | some v =>
      obtain ⟨parts, hparts, rfl⟩ := hw
      obtain ⟨a, hma, hsome⟩ := ha.cover v
      obtain ⟨x, hx⟩ := Option.isSome_iff_exists.mp hsome
      obtain ⟨p, hp, hflat⟩ := ha.writes_flatten hma hx hparts
      obtain ⟨hwt, hl⟩ := (ha.value a hma).size hp
      have hwrite : (FieldCodec.oneof alts).write (some v) = a.write v := by
        refine flatMap_eq_of_unique hma ha.nodup.of_map fun b hmb hne => ?_
        rw [Alt.write, ha.proj_eq_none hma hmb hx hne.symm]
        rfl
      rw [hflat, hwrite, Alt.write, hx]
      simp only [Option.toList_some, List.map_cons, List.map_nil, encodeRecords_cons,
        encodeRecords_nil, List.append_nil]
      exact length_encodeRecords_single hwt hl
  round_trip := by
    intro d o rs hd hu hw hfit
    cases o with
    | none =>
      rw [show rs = [] from hw]
      rfl
    | some v =>
      obtain ⟨parts, hparts, rfl⟩ := hw
      obtain ⟨a, hma, hsome⟩ := ha.cover v
      obtain ⟨x, hx⟩ := Option.isSome_iff_exists.mp hsome
      obtain ⟨p, hp, hflat⟩ := ha.writes_flatten hma hx hparts
      rw [hflat] at hfit ⊢
      have hr := (ha.value a hma).round_trip hd (hu v rfl a hma x hx) hp
        (hfit _ List.mem_cons_self).2
      have hread : (FieldCodec.oneof alts).read d none ⟨a.num, p⟩ = some (true, some v) := by
        rw [ha.read_eq hma rfl, Alt.read, if_pos rfl, Option.bind_none, Option.getD_none, hr,
          (ha.inj_of_proj a hma hx).1]
        rfl
      rw [FieldCodec.take, show (FieldCodec.oneof alts).init = none from rfl, hread]
      rfl

end Oneof

end Proto
