/-
Laws of the codecs.

A codec is lawful at height `h` when, with at least `h` levels of nesting left,

* reading accepts exactly what its grammar `Ok` describes, whatever is stored
  already, and
* reading what was written, from the default, gives the value back.

The scalars are lawful at height 0, and so are the fields made of lawful values:

* `FieldCodec.singular_lawful`, `FieldCodec.optional_lawful`,
  `FieldCodec.repeated_lawful` — one record for each value;
* `FieldCodec.packed_lawful` — all values in one record.

A schema is lawful (`Schema.Lawful`) when its fields are and do not interfere with
one another.
-/
import Click.Proto.Codec

namespace Proto

/-! ### What a codec has to satisfy -/

structure Scalar.Lawful {α : Type} (s : Scalar α) : Prop where
  wireType : ∀ x, (s.write x).wireType = s.wireType
  fits : ∀ x, (s.write x).Fits
  read_write : ∀ x, s.read (s.write x) = some x

structure ValueCodec.Lawful {α : Type} (v : ValueCodec α) (h : ℕ) : Prop where
  read_some : ∀ {d x p ok y}, v.read d x p = some (ok, y) → (ok = true ↔ v.Ok d p)
  read_none : ∀ {d x p}, v.read d x p = none → v.Ok d p
  writes_write : ∀ x, v.Writes x (v.write x)
  ne_group : ∀ {x p}, v.Writes x p → p ≠ .group
  size : ∀ {x p}, v.Writes x p →
    p.wireType = (v.write x).wireType ∧ p.encode.length = (v.write x).encode.length
  round_trip : ∀ {d x p}, h ≤ d → v.Utf8 x → v.Writes x p → p.Fits →
    v.read d v.init p = some (true, x)

/-- Store the records of one field, all of which have to be accepted. -/
def FieldCodec.take {α : Type} (f : FieldCodec α) (d : ℕ) : α → List Record → Option α
  | x, [] => some x
  | x, r :: rs =>
    match f.read d x r with
    | some (true, y) => f.take d y rs
    | _ => none

structure FieldCodec.Lawful {α : Type} (f : FieldCodec α) (h : ℕ) : Prop where
  nums_valid : ∀ n ∈ f.nums, 1 ≤ n ∧ n < 2 ^ 28
  read_of_num : ∀ {d x r}, r.num ∉ f.nums → f.read d x r = none
  read_some : ∀ {d x r ok y}, f.read d x r = some (ok, y) → (ok = true ↔ f.Ok d r)
  read_none : ∀ {d x r}, f.read d x r = none → f.Ok d r
  writes_write : ∀ x, f.Writes x (f.write x)
  writes_num : ∀ {x rs}, f.Writes x rs → ∀ r ∈ rs, r.num ∈ f.nums ∧ r.payload ≠ .group
  size : ∀ {x rs}, f.Writes x rs →
    (encodeRecords rs).length = (encodeRecords (f.write x)).length
  round_trip : ∀ {d x rs}, h ≤ d → f.Utf8 x → f.Writes x rs → (∀ r ∈ rs, r.Fits) →
    f.take d f.init rs = some x

/-- `f` and `g` take different records and are kept apart in the message. -/
structure Member.Apart {M : Type} (f g : Member M) : Prop where
  nums : ∀ n ∈ f.field.nums, n ∉ g.field.nums
  get_left : ∀ m x, f.get (g.set m x) = f.get m
  get_right : ∀ m x, g.get (f.set m x) = g.get m

structure Schema.Lawful {M : Type} (S : Schema M) (h : ℕ) : Prop where
  field : ∀ f ∈ S.members, f.field.Lawful h
  apart : S.members.Pairwise Member.Apart
  init : ∀ f ∈ S.members, f.get S.empty = f.field.init
  rebuild : ∀ m, S.members.foldl (fun acc f => f.set acc (f.get m)) S.empty = m

theorem ValueCodec.Lawful.mono {α : Type} {v : ValueCodec α} {h h' : ℕ} (hv : v.Lawful h)
    (hh : h ≤ h') : v.Lawful h' :=
  { hv with round_trip := fun hd => hv.round_trip (hh.trans hd) }

theorem FieldCodec.Lawful.mono {α : Type} {f : FieldCodec α} {h h' : ℕ} (hf : f.Lawful h)
    (hh : h ≤ h') : f.Lawful h' :=
  { hf with round_trip := fun hd => hf.round_trip (hh.trans hd) }

/-! ### Scalars and strings -/

theorem Scalar.int32_lawful : Scalar.int32.Lawful where
  wireType _ := rfl
  fits _ := trivial
  read_write x := by
    show some ((x.signExtend 64).setWidth 32) = some x
    congr 1
    ext i hi
    rw [BitVec.getElem_setWidth, BitVec.getLsbD_signExtend]
    simp [hi, show i < 64 by omega]

theorem Scalar.bool_lawful : Scalar.bool.Lawful where
  wireType _ := rfl
  fits _ := trivial
  read_write x := by cases x <;> rfl

theorem Scalar.double_lawful : Scalar.double.Lawful where
  wireType _ := rfl
  fits _ := trivial
  read_write _ := rfl

theorem Scalar.Lawful.toValue {α : Type} {s : Scalar α} (hs : s.Lawful) :
    s.toValue.Lawful 0 where
  read_some := by
    intro d x p ok y h
    obtain ⟨z, -, he⟩ := Option.map_eq_some_iff.mp h
    obtain ⟨rfl, -⟩ := Prod.mk.inj he
    exact ⟨fun _ => trivial, fun _ => rfl⟩
  read_none := fun _ => trivial
  writes_write := fun _ => rfl
  ne_group := by
    rintro x p rfl hp
    have hx := hs.fits x
    rw [hp] at hx
    exact hx
  size := by
    rintro x p rfl
    exact ⟨rfl, rfl⟩
  round_trip := by
    rintro d x p - - rfl -
    show (s.read (s.write x)).map _ = _
    rw [hs.read_write, Option.map_some]

theorem ValueCodec.string_lawful : ValueCodec.string.Lawful 0 where
  read_some := by
    intro d x p ok y h
    cases p with
    | len b =>
      obtain ⟨rfl, -⟩ := Prod.mk.inj (Option.some_inj.mp h)
      exact ⟨fun hb c hc => (Payload.len.inj hc) ▸ hb, fun hb => hb b rfl⟩
    | _ => exact absurd h (by simp [ValueCodec.string])
  read_none := by
    intro d x p h b hp
    rw [hp] at h
    exact absurd h (by simp [ValueCodec.string])
  writes_write := fun _ => rfl
  ne_group := by
    rintro x p rfl
    exact Payload.noConfusion
  size := by
    rintro x p rfl
    exact ⟨rfl, rfl⟩
  round_trip := by
    rintro d x p - hx rfl -
    show some (validUtf8 x, x) = _
    rw [show validUtf8 x = true from hx]

/-! ### Fields with one record per value -/

section Single

variable {α : Type} {v : ValueCodec α} {h n : ℕ}

theorem length_encodeRecords_single {p q : Payload} (hw : p.wireType = q.wireType)
    (hl : p.encode.length = q.encode.length) :
    (Record.encode ⟨n, p⟩).length = (Record.encode ⟨n, q⟩).length := by
  simp only [Record.encode, List.length_append, hw, hl]

theorem FieldCodec.always_lawful (hv : v.Lawful h) (hn : 1 ≤ n ∧ n < 2 ^ 28) :
    (FieldCodec.always n v).Lawful h where
  nums_valid := by
    intro m hm
    rw [List.mem_singleton.mp hm]
    exact hn
  read_of_num := fun hr => if_neg fun hc => hr (List.mem_singleton.mpr hc)
  read_some := by
    intro d x r ok y hr
    simp only [FieldCodec.always] at hr ⊢
    split at hr
    · next hc =>
      exact ⟨fun hok _ => (hv.read_some hr).mp hok, fun hok => (hv.read_some hr).mpr (hok hc)⟩
    · exact absurd hr (by simp)
  read_none := by
    intro d x r hr hc
    simp only [FieldCodec.always, if_pos hc] at hr
    exact hv.read_none hr
  writes_write := fun x => ⟨_, hv.writes_write x, rfl⟩
  writes_num := by
    rintro x rs ⟨p, hp, rfl⟩ r hr
    rw [List.mem_singleton.mp hr]
    exact ⟨List.mem_singleton.mpr rfl, hv.ne_group hp⟩
  size := by
    rintro x rs ⟨p, hp, rfl⟩
    obtain ⟨hw, hl⟩ := hv.size hp
    simp only [FieldCodec.always, encodeRecords_cons, encodeRecords_nil, List.append_nil]
    exact length_encodeRecords_single hw hl
  round_trip := by
    rintro d x rs hd hx ⟨p, hp, rfl⟩ hfit
    have hr := hv.round_trip hd hx hp (hfit _ List.mem_cons_self).2
    simp only [FieldCodec.take, FieldCodec.always, if_true, hr]

theorem FieldCodec.singular_lawful [DecidableEq α] (hv : v.Lawful h)
    (hn : 1 ≤ n ∧ n < 2 ^ 28) : (FieldCodec.singular n v).Lawful h where
  nums_valid := (FieldCodec.always_lawful hv hn).nums_valid
  read_of_num := (FieldCodec.always_lawful hv hn).read_of_num
  read_some := (FieldCodec.always_lawful hv hn).read_some
  read_none := (FieldCodec.always_lawful hv hn).read_none
  writes_write := by
    intro x
    simp only [FieldCodec.singular]
    split
    · rfl
    · exact ⟨_, hv.writes_write x, rfl⟩
  writes_num := by
    intro x rs hw
    simp only [FieldCodec.singular] at hw
    split at hw
    · rw [hw]
      exact fun r hr => absurd hr List.not_mem_nil
    · exact (FieldCodec.always_lawful hv hn).writes_num hw
  size := by
    intro x rs hw
    simp only [FieldCodec.singular] at hw ⊢
    split at hw
    · next hx => rw [hw, if_pos hx]
    · next hx =>
      rw [if_neg hx]
      exact (FieldCodec.always_lawful hv hn).size hw
  round_trip := by
    intro d x rs hd hx hw hfit
    simp only [FieldCodec.singular] at hw
    split at hw
    · next hi =>
      rw [hw, hi]
      rfl
    · obtain ⟨p, hp, rfl⟩ := hw
      have hr := hv.round_trip hd hx hp (hfit _ List.mem_cons_self).2
      simp only [FieldCodec.take, FieldCodec.singular, if_true, hr]

/-- The elements are read back one by one, after whatever stands before them. -/
private theorem take_repeated (hv : v.Lawful h) {d : ℕ} (hd : h ≤ d) :
    ∀ {xs : List α} {rs : List Record} (acc : List α), (∀ y ∈ xs, v.Utf8 y) →
      List.Forall₂ (fun y r => ∃ p, v.Writes y p ∧ r = ⟨n, p⟩) xs rs →
      (∀ r ∈ rs, r.Fits) → (FieldCodec.repeated n v).take d acc rs = some (acc ++ xs) := by
  intro xs rs acc hx hw hfit
  -- along the list, with all that was read so far in `acc`
  induction hw generalizing acc with
  | nil => rw [FieldCodec.take, List.append_nil]
  | @cons y r ys rs hy _ ih =>
    obtain ⟨p, hp, rfl⟩ := hy
    have hr := hv.round_trip hd (hx y List.mem_cons_self) hp (hfit _ List.mem_cons_self).2
    have hread : (FieldCodec.repeated n v).read d acc ⟨n, p⟩ = some (true, acc ++ [y]) := by
      simp only [FieldCodec.repeated, if_true, hr, Option.map_some]
    rw [FieldCodec.take, hread]
    simp only
    rw [ih (acc ++ [y]) (fun z hz => hx z (List.mem_cons_of_mem _ hz))
      (fun r hr => hfit r (List.mem_cons_of_mem _ hr)), List.append_assoc, List.singleton_append]

theorem forall₂_write (hv : v.Lawful h) (xs : List α) :
    List.Forall₂ (fun y r => ∃ p, v.Writes y p ∧ r = (⟨n, p⟩ : Record)) xs
      (xs.map fun y => ⟨n, v.write y⟩) := by
  rw [List.forall₂_map_right_iff]
  exact List.forall₂_same.mpr fun y _ => ⟨_, hv.writes_write y, rfl⟩

private theorem forall₂_num (hv : v.Lawful h) {xs : List α} {rs : List Record}
    (hw : List.Forall₂ (fun y r => ∃ p, v.Writes y p ∧ r = ⟨n, p⟩) xs rs) :
    ∀ r ∈ rs, r.num ∈ [n] ∧ r.payload ≠ .group := by
  induction hw with
  | nil => exact fun r hr => absurd hr List.not_mem_nil
  | cons hy _ ih =>
    obtain ⟨p, hp, rfl⟩ := hy
    rw [List.forall_mem_cons]
    exact ⟨⟨List.mem_singleton.mpr rfl, hv.ne_group hp⟩, ih⟩

private theorem forall₂_size (hv : v.Lawful h) {xs : List α} {rs : List Record}
    (hw : List.Forall₂ (fun y r => ∃ p, v.Writes y p ∧ r = ⟨n, p⟩) xs rs) :
    (encodeRecords rs).length =
      (encodeRecords (xs.map fun y => ⟨n, v.write y⟩)).length := by
  induction hw with
  | nil => rfl
  | cons hy _ ih =>
    obtain ⟨p, hp, rfl⟩ := hy
    obtain ⟨hwt, hl⟩ := hv.size hp
    rw [List.map_cons, encodeRecords_cons, encodeRecords_cons, List.length_append,
      List.length_append, ih, length_encodeRecords_single hwt hl]

theorem FieldCodec.repeated_lawful (hv : v.Lawful h) (hn : 1 ≤ n ∧ n < 2 ^ 28) :
    (FieldCodec.repeated n v).Lawful h where
  nums_valid := (FieldCodec.always_lawful hv hn).nums_valid
  read_of_num := fun hr => if_neg fun hc => hr (List.mem_singleton.mpr hc)
  read_some := by
    intro d xs r ok ys hr
    simp only [FieldCodec.repeated] at hr ⊢
    split at hr
    · next hc =>
      obtain ⟨⟨ok', y⟩, hy, he⟩ := Option.map_eq_some_iff.mp hr
      obtain ⟨rfl, -⟩ := Prod.mk.inj he
      exact ⟨fun hok _ => (hv.read_some hy).mp hok, fun hok => (hv.read_some hy).mpr (hok hc)⟩
    · exact absurd hr (by simp)
  read_none := by
    intro d x r hr hc
    simp only [FieldCodec.repeated, if_pos hc, Option.map_eq_none_iff] at hr
    exact hv.read_none hr
  writes_write := forall₂_write hv
  writes_num := forall₂_num hv
  size := forall₂_size hv
  round_trip := fun hd hx hw hfit => take_repeated hv hd [] hx hw hfit

theorem FieldCodec.optional_lawful (hv : v.Lawful h) (hn : 1 ≤ n ∧ n < 2 ^ 28) :
    (FieldCodec.optional n v).Lawful h where
  nums_valid := (FieldCodec.always_lawful hv hn).nums_valid
  read_of_num := fun hr => if_neg fun hc => hr (List.mem_singleton.mpr hc)
  read_some := by
    intro d x r ok y hr
    simp only [FieldCodec.optional] at hr ⊢
    split at hr
    · next hc =>
      obtain ⟨⟨ok', z⟩, hz, he⟩ := Option.map_eq_some_iff.mp hr
      obtain ⟨rfl, -⟩ := Prod.mk.inj he
      exact ⟨fun hok _ => (hv.read_some hz).mp hok, fun hok => (hv.read_some hz).mpr (hok hc)⟩
    · exact absurd hr (by simp)
  read_none := by
    intro d x r hr hc
    simp only [FieldCodec.optional, if_pos hc, Option.map_eq_none_iff] at hr
    exact hv.read_none hr
  writes_write := fun x => forall₂_write hv x.toList
  writes_num := forall₂_num hv
  size := forall₂_size hv
  round_trip := by
    intro d x rs hd hx hw hfit
    cases x with
    | none =>
      rw [List.forall₂_nil_left_iff.mp hw]
      rfl
    | some y =>
      obtain ⟨r, rs, ⟨p, hp, rfl⟩, hnil, rfl⟩ := List.forall₂_cons_left_iff.mp hw
      rw [List.forall₂_nil_left_iff.mp hnil]
      have hr := hv.round_trip hd (hx y rfl) hp (hfit _ List.mem_cons_self).2
      simp only [FieldCodec.take, FieldCodec.optional, if_true, Option.getD_none, hr,
        Option.map_some]

end Single

/-! ### Packed lists -/

section Packed

variable {α : Type} {s : Scalar α}

theorem Scalar.unpackOne_length {bs rest : Bytes} {x : α}
    (h : s.unpackOne bs = some (x, rest)) : rest.length < bs.length := by
  obtain ⟨⟨p, r⟩, hr, he⟩ := Option.bind_eq_some_iff.mp h
  obtain ⟨y, -, he⟩ := Option.map_eq_some_iff.mp he
  obtain ⟨-, rfl⟩ := Prod.mk.inj he
  exact readScalar_length hr

theorem Scalar.unpack_ok_iff {k : ℕ} : ∀ {bs : Bytes} {xs : List α}, bs.length ≤ k →
    ((s.unpack k bs xs).1 = true ↔ s.Packs bs) := by
  induction k with
  | zero =>
    intro bs xs hk
    have hbs : bs = [] := List.eq_nil_of_length_eq_zero (by omega)
    rw [hbs, Scalar.unpack]
    exact ⟨fun _ => .nil, fun _ => rfl⟩
  | succ k ih =>
    intro bs xs hk
    rcases bs with _ | ⟨b, bs⟩
    · rw [Scalar.unpack]
      exact ⟨fun _ => .nil, fun _ => rfl⟩
    · rw [Scalar.unpack]
      -- the first element decides which constructor the grammar has used
      rcases hu : s.unpackOne (b :: bs) with _ | ⟨x, rest⟩
      · constructor
        · intro hc
          exact absurd hc (by simp)
        · rintro (_ | ⟨hc, -⟩)
          rw [hu] at hc
          exact absurd hc (by simp)
      · have hlen := Scalar.unpackOne_length hu
        refine (ih (by omega)).trans ⟨.cons hu, ?_⟩
        rintro (_ | ⟨hc, hp⟩)
        rw [hu, Option.some_inj, Prod.mk.injEq] at hc
        rw [hc.2]
        exact hp

theorem Scalar.Lawful.unpackOne_write (hs : s.Lawful) (x : α) (rest : Bytes) :
    s.unpackOne ((s.write x).encode ++ rest) = some (x, rest) := by
  have hr : readScalar (8 * 1 + (s.write x).wireType) ((s.write x).encode ++ rest) =
      some (s.write x, rest) :=
    readScalar_encode (r := ⟨1, s.write x⟩) ⟨by norm_num, hs.fits x⟩ rest
  rw [Scalar.unpackOne, ← hs.wireType x, hr, Option.bind_some, hs.read_write, Option.map_some]

theorem Scalar.Lawful.unpack_pack (hs : s.Lawful) {k : ℕ} : ∀ {xs : List α} (acc : List α),
    (s.pack xs).length ≤ k → s.unpack k (s.pack xs) acc = (true, acc ++ xs) := by
  induction k with
  | zero =>
    intro xs acc hk
    rcases xs with _ | ⟨x, xs⟩
    · rw [List.append_nil]
      rfl
    · have hlen := Scalar.unpackOne_length (hs.unpackOne_write x (s.pack xs))
      rw [Scalar.pack] at hk
      omega
  | succ k ih =>
    intro xs acc hk
    rcases xs with _ | ⟨x, xs⟩
    · rw [List.append_nil]
      rfl
    · -- an element takes at least one byte, so the bound holds for the others
      have hu := hs.unpackOne_write x (s.pack xs)
      rw [Scalar.pack] at hk ⊢
      rcases hb : (s.write x).encode ++ s.pack xs with _ | ⟨b, bs⟩
      · rw [hb] at hu
        exact absurd (Scalar.unpackOne_length hu) (Nat.not_lt_zero _)
      · rw [hb] at hu hk
        have hlen := Scalar.unpackOne_length hu
        rw [Scalar.unpack, hu]
        simp only
        rw [ih (acc ++ [x]) (by omega), List.append_assoc, List.singleton_append]

theorem FieldCodec.packed_lawful (hs : s.Lawful) {n : ℕ} (hn : 1 ≤ n ∧ n < 2 ^ 28) :
    (FieldCodec.packed n s).Lawful 0 where
  nums_valid := (FieldCodec.always_lawful hs.toValue hn).nums_valid
  read_of_num := fun hr => if_neg fun hc => hr (List.mem_singleton.mpr hc)
  read_some := by
    intro d xs r ok ys hr
    simp only [FieldCodec.packed] at hr ⊢
    split at hr
    · next hc =>
      -- a packed record is checked to its end, a single element cannot be malformed
      split at hr
      · next b hb =>
        obtain ⟨rfl, -⟩ := Prod.mk.inj (Option.some_inj.mp hr)
        rw [Scalar.unpack_ok_iff le_rfl]
        refine ⟨fun hp _ c hcb => ?_, fun hp => hp hc b hb⟩
        rw [hb, Payload.len.injEq] at hcb
        rwa [← hcb]
      · next hb =>
        obtain ⟨y, -, he⟩ := Option.map_eq_some_iff.mp hr
        obtain ⟨rfl, -⟩ := Prod.mk.inj he
        exact ⟨fun _ _ c hcb => absurd hcb (hb c), fun _ => rfl⟩
    · exact absurd hr (by simp)
  read_none := by
    intro d xs r hr hc b hb
    simp only [FieldCodec.packed, if_pos hc, hb] at hr
    exact absurd hr (by simp)
  writes_write := fun _ => rfl
  writes_num := by
    rintro x rs rfl r hr
    split at hr
    · exact absurd hr List.not_mem_nil
    · rw [List.mem_singleton.mp hr]
      exact ⟨List.mem_singleton.mpr rfl, Payload.noConfusion⟩
  size := by
    rintro x rs rfl
    rfl
  round_trip := by
    rintro d xs rs - - rfl -
    rcases xs with _ | ⟨x, xs⟩
    · rfl
    · have hu : s.unpack _ (s.pack (x :: xs)) [] = (true, [] ++ x :: xs) := hs.unpack_pack [] le_rfl
      rw [List.nil_append] at hu
      rw [List.isEmpty_cons, if_neg (by simp)]
      simp only [FieldCodec.take, FieldCodec.packed, if_true, hu]

end Packed

end Proto
