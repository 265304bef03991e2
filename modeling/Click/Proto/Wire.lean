/-
Records: the framing layer of the protobuf wire format.

A message is a concatenation of records, each a tag (field number and wire
type) followed by a payload.  Which fields a message declares plays no part in
the framing, so every parser reads the same records off the same bytes; the
parsers differ only in what they do with them.

* `parseLoop` — the loop of a generated `_InternalParse`: read a record, hand
  it to the fields, stop at the first failure with what has been stored so far;
* `overrun` — a number that the end cuts off is read on behind the end, and stored
  before that is noticed;
* `parseRecords_eq` — the loop is a run of the field handler over the records
  that are read (`records`), so two parsers of the same bytes can be compared
  record by record;
* `records_eq_of_whole` — what lies behind the end matters only to a parse that fails;
* `records_encodeRecords` — what was written is read back.
-/
import Click.Proto.Varint

namespace Proto

/-- The payload of a record.  A group is skipped as a whole; no field of a
proto3 message reads its contents. -/
inductive Payload
  | varint (v : BitVec 64)
  | i64 (v : BitVec 64)
  | len (b : Bytes)
  | group
  | i32 (v : BitVec 32)
  deriving DecidableEq

/-- A field number and a payload. -/
structure Record where
  num : ℕ
  payload : Payload
  deriving DecidableEq

def Payload.wireType : Payload → ℕ
  | .varint _ => 0
  | .i64 _ => 1
  | .len _ => 2
  | .group => 3
  | .i32 _ => 5

/-- The bytes after the tag.  Groups are never written. -/
def Payload.encode : Payload → Bytes
  | .varint v => encodeVarint v.toNat
  | .i64 v => encodeFixed 8 v.toNat
  | .len b => encodeVarint b.length ++ b
  | .group => []
  | .i32 v => encodeFixed 4 v.toNat

def Record.encode (r : Record) : Bytes :=
  encodeVarint (8 * r.num + r.payload.wireType) ++ r.payload.encode

def encodeRecords (rs : List Record) : Bytes := rs.flatMap Record.encode

@[simp] theorem encodeRecords_nil : encodeRecords [] = [] := rfl

theorem encodeRecords_cons (r : Record) (rs : List Record) :
    encodeRecords (r :: rs) = r.encode ++ encodeRecords rs := rfl

theorem encodeRecords_append (rs ss : List Record) :
    encodeRecords (rs ++ ss) = encodeRecords rs ++ encodeRecords ss :=
  List.flatMap_append

/-! ### Reading one record -/

/-- The payload for a tag of any wire type but a group's.  Field number 0, an
end-group tag and the wire types 6 and 7 are errors. -/
def readScalar (tag : ℕ) (bs : Bytes) : Option (Payload × Bytes) :=
  if tag / 8 = 0 then none
  else match tag % 8 with
    | 0 => (readVarint bs).map fun p => (.varint p.1, p.2)
    | 1 => (readFixed 8 bs).map fun p => (.i64 (BitVec.ofNat 64 p.1), p.2)
    | 2 => (readSize bs).bind fun p =>
        if p.1 ≤ p.2.length then some (.len (p.2.take p.1), p.2.drop p.1) else none
    | 5 => (readFixed 4 bs).map fun p => (.i32 (BitVec.ofNat 32 p.1), p.2)
    | _ => none

/-- Skip records up to the end-group tag of field `num`. -/
def skipGroup (payload : ℕ → Bytes → Option (Payload × Bytes)) (num : ℕ) :
    ℕ → Bytes → Option Bytes
  | 0, _ => none
  | k + 1, bs =>
    (readTag bs).bind fun p =>
      if p.1 % 8 = 4 then
        if p.1 / 8 = num then some p.2 else none
      else (payload p.1 p.2).bind fun q => skipGroup payload num k q.2

/-- `UnknownFieldParse` without the unknown-field set: the payload for `tag`.
`d` is the recursion budget, one unit of which each level of groups takes. -/
def readPayload : ℕ → ℕ → Bytes → Option (Payload × Bytes)
  | 0, tag, bs => readScalar tag bs
  | d + 1, tag, bs =>
    if tag % 8 = 3 ∧ tag / 8 ≠ 0 then
      (skipGroup (readPayload d) (tag / 8) bs.length bs).map fun rest => (.group, rest)
    else readScalar tag bs

def readRecord (d : ℕ) (bs : Bytes) : Option (Record × Bytes) :=
  (readTag bs).bind fun p =>
    (readPayload d p.1 p.2).map fun q => (⟨p.1 / 8, q.1⟩, q.2)

/-! ### Reading past the end -/

/-- The payload is read without a look at where the bytes end. -/
def Payload.isNumber : Payload → Bool
  | .varint _ | .i64 _ | .i32 _ => true
  | .len _ | .group => false

/-- The record at the front of bytes that end within it, if it is a number.
`ReadTag`, `ReadVarint64` and `UnalignedLoad` go on behind the end, in `past`; it is
`Done`, before the next tag, that finds out. -/
def overrun (past : Bytes) (d : ℕ) (bs : Bytes) : Option Record :=
  ((readRecord d (bs ++ past)).map Prod.fst).filter fun r => r.payload.isNumber

/-! ### The parse loop -/

section Loop

variable {M : Type} (step : M → Record → Bool × M)

/-- The loop of `_InternalParse`, with `k` bounding the number of records and `past`
behind the end.  `step` stores a record in the message and says whether it was well
formed; the first failure ends the parse and leaves the message as it is. -/
def parseLoop (past : Bytes) (d : ℕ) : ℕ → Bytes → M → Bool × M
  | _, [], m => (true, m)
  | 0, _ :: _, m => (false, m)
  | k + 1, b :: bs, m =>
    match readRecord d (b :: bs) with
    | none =>
      match overrun past d (b :: bs) with
      | none => (false, m)
      | some r => (false, (step m r).2)
    | some (r, rest) =>
      match step m r with
      | (true, m') => parseLoop past d k rest m'
      | (false, m') => (false, m')

/-- A record takes at least one byte, so as many rounds as there are bytes are
enough. -/
def parseRecords (past : Bytes) (d : ℕ) (bs : Bytes) (m : M) : Bool × M :=
  parseLoop step past d bs.length bs m

/-- Store records one after the other, up to the first failure. -/
def feed : M → List Record → Bool × M
  | m, [] => (true, m)
  | m, r :: rs =>
    match step m r with
    | (true, m') => feed m' rs
    | (false, m') => (false, m')

/-- The records `bs` begins with, the last of them possibly read past the end, and
whether they are all of `bs`. -/
def recordsAux (past : Bytes) (d : ℕ) : ℕ → Bytes → List Record × Bool
  | _, [] => ([], true)
  | 0, _ :: _ => ([], false)
  | k + 1, b :: bs =>
    match readRecord d (b :: bs) with
    | none => ((overrun past d (b :: bs)).toList, false)
    | some (r, rest) => (r :: (recordsAux past d k rest).1, (recordsAux past d k rest).2)

def records (past : Bytes) (d : ℕ) (bs : Bytes) : List Record × Bool :=
  recordsAux past d bs.length bs

theorem parseLoop_eq (past : Bytes) (d k : ℕ) : ∀ (bs : Bytes) (m : M),
    parseLoop step past d k bs m =
      (((feed step m (recordsAux past d k bs).1).1 && (recordsAux past d k bs).2),
        (feed step m (recordsAux past d k bs).1).2) := by
  induction k with
  | zero =>
    intro bs m
    rcases bs with _ | ⟨b, bs⟩ <;> rfl
  | succ k ih =>
    intro bs m
    rcases bs with _ | ⟨b, bs⟩
    · rfl
    · -- both read the same record, and go on from what is left after it
      rw [parseLoop, recordsAux]
      rcases readRecord d (b :: bs) with _ | ⟨r, rest⟩
      · rcases overrun past d (b :: bs) with _ | r
        · rfl
        · simp only [Option.toList_some, feed, Bool.and_false]
          rcases step m r with ⟨_ | _, m'⟩ <;> rfl
      · rcases hs : step m r with ⟨ok, m'⟩
        simp only [feed, hs]
        cases ok
        · rfl
        · exact ih rest m'

/-- **The parse loop stores the records that are read**, and succeeds when each is
accepted and nothing is left over. -/
theorem parseRecords_eq (past : Bytes) (d : ℕ) (bs : Bytes) (m : M) :
    parseRecords step past d bs m =
      (((feed step m (records past d bs).1).1 && (records past d bs).2),
        (feed step m (records past d bs).1).2) :=
  parseLoop_eq step past d bs.length bs m

theorem feed_append (m : M) (rs ss : List Record) :
    feed step m (rs ++ ss) =
      if (feed step m rs).1 then feed step (feed step m rs).2 ss else feed step m rs := by
  induction rs generalizing m with
  | nil => rfl
  | cons r rs ih =>
    rw [List.cons_append, feed, feed]
    rcases step m r with ⟨ok, m'⟩
    cases ok
    · rfl
    · exact ih m'

theorem feed_ok_iff {P : Record → Prop} (h : ∀ m r, (step m r).1 = true ↔ P r) (m : M)
    (rs : List Record) : (feed step m rs).1 = true ↔ ∀ r ∈ rs, P r := by
  induction rs generalizing m with
  | nil => exact ⟨fun _ r hr => absurd hr List.not_mem_nil, fun _ => rfl⟩
  | cons r rs ih =>
    have hr := h m r
    rw [feed, List.forall_mem_cons]
    rcases hs : step m r with ⟨ok, m'⟩
    rw [hs] at hr
    cases ok
    · exact ⟨fun hc => absurd hc (by simp), fun hc => absurd (hr.mpr hc.1) (by simp)⟩
    · exact ⟨fun hc => ⟨hr.mp rfl, (ih m').mp hc⟩, fun hc => (ih m').mpr hc.2⟩

end Loop

/-! ### Reading a record takes at least one byte -/

theorem readScalar_length {tag : ℕ} {bs rest : Bytes} {p : Payload}
    (h : readScalar tag bs = some (p, rest)) : rest.length < bs.length := by
  unfold readScalar at h
  split at h
  · exact absurd h (by simp)
  · split at h
    · obtain ⟨⟨v, r⟩, hr, he⟩ := Option.map_eq_some_iff.mp h
      obtain ⟨-, rfl⟩ := Prod.mk.inj he
      exact readVarint_length hr
    · obtain ⟨⟨v, r⟩, hr, he⟩ := Option.map_eq_some_iff.mp h
      obtain ⟨-, rfl⟩ := Prod.mk.inj he
      exact lt_of_lt_of_eq (Nat.lt_add_of_pos_right (by omega)) (readFixed_length hr)
    · obtain ⟨⟨n, r⟩, hr, he⟩ := Option.bind_eq_some_iff.mp h
      split at he
      · obtain ⟨-, rfl⟩ := Prod.mk.inj (Option.some_inj.mp he)
        rw [List.length_drop]
        exact lt_of_le_of_lt (Nat.sub_le _ _) (readSize_length hr)
      · exact absurd he (by simp)
    · obtain ⟨⟨v, r⟩, hr, he⟩ := Option.map_eq_some_iff.mp h
      obtain ⟨-, rfl⟩ := Prod.mk.inj he
      exact lt_of_lt_of_eq (Nat.lt_add_of_pos_right (by omega)) (readFixed_length hr)
    · exact absurd h (by simp)

theorem skipGroup_length {payload : ℕ → Bytes → Option (Payload × Bytes)}
    (hp : ∀ {t bs p rest}, payload t bs = some (p, rest) → rest.length ≤ bs.length)
    {num k : ℕ} : ∀ {bs rest : Bytes}, skipGroup payload num k bs = some rest →
      rest.length ≤ bs.length := by
  induction k with
  | zero =>
    intro bs rest h
    exact absurd h (by simp [skipGroup])
  | succ k ih =>
    intro bs rest h
    obtain ⟨⟨t, r⟩, ht, he⟩ := Option.bind_eq_some_iff.mp h
    have hr : r.length < bs.length := readTag_length ht
    dsimp only at he
    -- an end-group tag ends the group, any other record is skipped
    split at he
    · split at he
      · rw [← Option.some_inj.mp he]
        exact hr.le
      · exact absurd he (by simp)
    · obtain ⟨⟨p, r'⟩, hq, he⟩ := Option.bind_eq_some_iff.mp he
      exact (ih he).trans ((hp hq).trans hr.le)

theorem readPayload_length {d : ℕ} : ∀ {tag : ℕ} {bs rest : Bytes} {p : Payload},
    readPayload d tag bs = some (p, rest) → rest.length ≤ bs.length := by
  induction d with
  | zero => exact fun h => (readScalar_length h).le
  | succ d ih =>
    intro tag bs rest p h
    rw [readPayload] at h
    split at h
    · obtain ⟨r, hr, he⟩ := Option.map_eq_some_iff.mp h
      obtain ⟨-, rfl⟩ := Prod.mk.inj he
      exact skipGroup_length ih hr
    · exact (readScalar_length h).le

theorem readRecord_length {d : ℕ} {bs rest : Bytes} {r : Record}
    (h : readRecord d bs = some (r, rest)) : rest.length < bs.length := by
  obtain ⟨⟨t, bs'⟩, ht, he⟩ := Option.bind_eq_some_iff.mp h
  obtain ⟨⟨p, rest'⟩, hp, he⟩ := Option.map_eq_some_iff.mp he
  obtain ⟨-, rfl⟩ := Prod.mk.inj he
  exact lt_of_le_of_lt (readPayload_length hp) (readTag_length ht)

/-- Spare rounds change nothing. -/
theorem recordsAux_of_le {past : Bytes} {d : ℕ} : ∀ {k l : ℕ} {bs : Bytes}, bs.length ≤ k →
    bs.length ≤ l → recordsAux past d k bs = recordsAux past d l bs := by
  intro k
  induction k with
  | zero =>
    intro l bs hk _
    have hbs : bs = [] := List.eq_nil_of_length_eq_zero (by omega)
    rw [hbs, recordsAux, recordsAux]
  | succ k ih =>
    intro l bs hk hl
    rcases bs with _ | ⟨b, bs⟩
    · rw [recordsAux, recordsAux]
    · obtain ⟨l, rfl⟩ : ∃ l', l = l' + 1 := ⟨l - 1, by simp at hl; omega⟩
      rw [recordsAux, recordsAux]
      rcases hr : readRecord d (b :: bs) with _ | ⟨r, rest⟩
      · rfl
      · have hlen : rest.length < (b :: bs).length := readRecord_length hr
        simp only
        rw [ih (l := l) (by omega) (by omega)]

theorem records_of_some {past : Bytes} {d : ℕ} {bs rest : Bytes} {r : Record}
    (h : readRecord d bs = some (r, rest)) :
    records past d bs = (r :: (records past d rest).1, (records past d rest).2) := by
  have hlen : rest.length < bs.length := readRecord_length h
  rcases bs with _ | ⟨b, bs⟩
  · exact absurd hlen (Nat.not_lt_zero _)
  · rw [records, List.length_cons, recordsAux, h]
    rw [List.length_cons] at hlen
    simp only [records]
    rw [recordsAux_of_le (by omega) le_rfl]

theorem records_of_none {past : Bytes} {d : ℕ} {b : UInt8} {bs : Bytes}
    (h : readRecord d (b :: bs) = none) :
    records past d (b :: bs) = ((overrun past d (b :: bs)).toList, false) := by
  rw [records, List.length_cons, recordsAux, h]

/-- **What lies behind the end of whole records** is not looked at. -/
theorem records_eq_of_whole {past : Bytes} (past' : Bytes) {d : ℕ} {bs : Bytes}
    (h : (records past d bs).2 = true) : records past' d bs = records past d bs := by
  -- on the number of bytes, of which every record takes one at least
  induction hn : bs.length using Nat.strong_induction_on generalizing bs with
  | _ n ih =>
    rcases bs with _ | ⟨b, bs⟩
    · rfl
    · rcases hr : readRecord d (b :: bs) with _ | ⟨r, rest⟩
      · rw [records_of_none hr] at h
        exact absurd h (by simp)
      · rw [records_of_some hr] at h ⊢
        rw [records_of_some hr, ih rest.length (hn ▸ readRecord_length hr) h rfl]

theorem records_whole_iff (past past' : Bytes) (d : ℕ) (bs : Bytes) :
    (records past d bs).2 = true ↔ (records past' d bs).2 = true :=
  ⟨fun h => by rwa [records_eq_of_whole past' h], fun h => by rwa [records_eq_of_whole past h]⟩

/-! ### Reading back what was written -/

/-- A payload a serializer may emit: its length fits in an `int`. -/
def Payload.Fits : Payload → Prop
  | .len b => b.length ≤ maxSize
  | .group => False
  | _ => True

/-- A record a serializer may emit. -/
def Record.Fits (r : Record) : Prop := (1 ≤ r.num ∧ r.num < 2 ^ 28) ∧ r.payload.Fits

theorem readPayload_of_ne_group {d tag : ℕ} (h : tag % 8 ≠ 3) (bs : Bytes) :
    readPayload d tag bs = readScalar tag bs := by
  rcases d with _ | d
  · rfl
  · rw [readPayload, if_neg (fun hc => h hc.1)]

theorem readScalar_encode {r : Record} (h : r.Fits) (rest : Bytes) :
    readScalar (8 * r.num + r.payload.wireType) (r.payload.encode ++ rest) =
      some (r.payload, rest) := by
  obtain ⟨num, payload⟩ := r
  obtain ⟨⟨h1, h2⟩, h3⟩ := h
  -- the tag splits into the field number and the wire type again
  have hdiv : ∀ w < 8, ¬ (8 * num + w) / 8 = 0 := by
    intro w hw
    rw [Nat.mul_add_div (by omega)]
    simp only at h1
    omega
  have hmod : ∀ w < 8, (8 * num + w) % 8 = w := by
    intro w hw
    omega
  cases payload with
  | varint v =>
    simp only [Payload.wireType, Payload.encode]
    rw [readScalar, if_neg (hdiv 0 (by omega)), hmod 0 (by omega), readVarint_encodeVarint]
    rfl
  | i64 v =>
    have hv : v.toNat < 256 ^ 8 := lt_of_lt_of_le v.isLt (by norm_num)
    simp only [Payload.wireType, Payload.encode]
    rw [readScalar, if_neg (hdiv 1 (by omega)), hmod 1 (by omega), readFixed_encodeFixed hv,
      Option.map_some, BitVec.ofNat_toNat, BitVec.setWidth_eq]
    rfl
  | len b =>
    -- the length is read back first, and then as many bytes are taken
    simp only [Payload.wireType, Payload.encode, List.append_assoc]
    rw [readScalar, if_neg (hdiv 2 (by omega)), hmod 2 (by omega), readSize_encodeVarint h3,
      Option.bind_some]
    simp
  | group => exact h3.elim
  | i32 v =>
    have hv : v.toNat < 256 ^ 4 := lt_of_lt_of_le v.isLt (by norm_num)
    simp only [Payload.wireType, Payload.encode]
    rw [readScalar, if_neg (hdiv 5 (by omega)), hmod 5 (by omega), readFixed_encodeFixed hv,
      Option.map_some, BitVec.ofNat_toNat, BitVec.setWidth_eq]
    rfl

theorem readRecord_encode {r : Record} (h : r.Fits) (d : ℕ) (rest : Bytes) :
    readRecord d (r.encode ++ rest) = some (r, rest) := by
  have hw : r.payload.wireType ≤ 5 ∧ r.payload.wireType ≠ 3 := by
    obtain ⟨-, h3⟩ := h
    cases hp : r.payload <;> simp [hp, Payload.wireType, Payload.Fits] at h3 ⊢
  have htag : 8 * r.num + r.payload.wireType < 2 ^ 32 := by
    have := h.1.2
    omega
  rw [readRecord, Record.encode, List.append_assoc, readTag_encodeVarint htag, Option.bind_some,
    readPayload_of_ne_group (by omega), readScalar_encode h, Option.map_some]
  have hdiv : (8 * r.num + r.payload.wireType) / 8 = r.num := by omega
  simp only [hdiv]

theorem records_encodeRecords {rs : List Record} (h : ∀ r ∈ rs, r.Fits) (past : Bytes) (d : ℕ) :
    records past d (encodeRecords rs) = (rs, true) := by
  induction rs with
  | nil => rfl
  | cons r rs ih =>
    have hr := readRecord_encode (h r List.mem_cons_self) d (encodeRecords rs)
    rw [encodeRecords_cons, records_of_some hr,
      ih fun r hr => h r (List.mem_cons_of_mem _ hr)]

/-! ### Sizes -/

/-- A payload is part of the encoding it stands in. -/
theorem length_le_of_mem {rs : List Record} {n : ℕ} {b : Bytes} (h : ⟨n, .len b⟩ ∈ rs) :
    b.length ≤ (encodeRecords rs).length := by
  obtain ⟨l₁, l₂, rfl⟩ := List.append_of_mem h
  rw [encodeRecords_append, encodeRecords_cons, Record.encode, Payload.encode]
  simp only [List.length_append]
  omega

end Proto
