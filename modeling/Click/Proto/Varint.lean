/-
Base-128 varints and little-endian words.

The scalars of the protobuf wire format: a varint carries seven bits of a
number in each byte, least significant group first, and every byte but the
last has its top bit set; a fixed-width word is stored least significant byte
first.

* `readGroups_encodeGroups` — a number that fits in `k` groups is read back
  from its encoding, whatever follows it;
* `readVarint_encodeVarint`, `readTag_encodeVarint`, `readSize_encodeVarint` —
  the three readers of the format (a 64-bit value in at most ten bytes, a tag
  and a length in at most five) undo the one writer;
* `readFixed_encodeFixed` — the same for fixed-width words.
-/
import Mathlib

namespace Proto

/-- A byte string (`std::string`). -/
abbrev Bytes := List UInt8

/-- Little-endian base-128 groups of `n`, at most `k + 1` of them. -/
def encodeGroups : ℕ → ℕ → Bytes
  | 0, n => [UInt8.ofNat n]
  | k + 1, n =>
    if n < 128 then [UInt8.ofNat n]
    else UInt8.ofNat (n % 128 + 128) :: encodeGroups k (n / 128)

/-- The varint of a 64-bit value: at most ten bytes. -/
def encodeVarint (n : ℕ) : Bytes := encodeGroups 9 n

/-- Read base-128 groups up to the first byte without a continuation bit;
`none` if there is none among the first `k` bytes. -/
def readGroups : ℕ → Bytes → Option (ℕ × Bytes)
  | 0, _ => none
  | _ + 1, [] => none
  | k + 1, b :: bs =>
    if b.toNat < 128 then some (b.toNat, bs)
    else (readGroups k bs).map fun p => (b.toNat - 128 + 128 * p.1, p.2)

/-- `VarintParse<uint64_t>`: at most ten bytes, the value modulo `2 ^ 64`. -/
def readVarint (bs : Bytes) : Option (BitVec 64 × Bytes) :=
  (readGroups 10 bs).map fun p => (BitVec.ofNat 64 p.1, p.2)

/-- `ReadTag`: at most five bytes, the value modulo `2 ^ 32`. -/
def readTag (bs : Bytes) : Option (ℕ × Bytes) :=
  (readGroups 5 bs).map fun p => (p.1 % 2 ^ 32, p.2)

/-- The largest length the format admits (`INT_MAX`). -/
def maxSize : ℕ := 2 ^ 31 - 1

/-- `ReadSize`: at most five bytes, and the length has to fit in an `int`. -/
def readSize (bs : Bytes) : Option (ℕ × Bytes) :=
  (readGroups 5 bs).filter fun p => p.1 ≤ maxSize

/-- The `k` low bytes of `n`, least significant first. -/
def encodeFixed : ℕ → ℕ → Bytes
  | 0, _ => []
  | k + 1, n => UInt8.ofNat (n % 256) :: encodeFixed k (n / 256)

/-- Read `k` bytes as a little-endian number. -/
def readFixed : ℕ → Bytes → Option (ℕ × Bytes)
  | 0, bs => some (0, bs)
  | _ + 1, [] => none
  | k + 1, b :: bs => (readFixed k bs).map fun p => (b.toNat + 256 * p.1, p.2)

/-! ### Reading back -/

private theorem toNat_ofNat_of_lt {n : ℕ} (h : n < 256) : (UInt8.ofNat n).toNat = n := by
  rw [UInt8.toNat_ofNat']
  exact Nat.mod_eq_of_lt h

theorem readGroups_encodeGroups : ∀ {k l n : ℕ}, k < l → n < 128 ^ (k + 1) →
    ∀ rest, readGroups l (encodeGroups k n ++ rest) = some (n, rest) := by
  intro k
  induction k with
  | zero =>
    intro l n hl hn rest
    obtain ⟨l, rfl⟩ : ∃ l', l = l' + 1 := ⟨l - 1, by omega⟩
    have hb : (UInt8.ofNat n).toNat = n := toNat_ofNat_of_lt (by omega)
    rw [encodeGroups, List.singleton_append, readGroups, hb, if_pos (by omega)]
  | succ k ih =>
    intro l n hl hn rest
    obtain ⟨l, rfl⟩ : ∃ l', l = l' + 1 := ⟨l - 1, by omega⟩
    rw [encodeGroups]
    by_cases h : n < 128
    · have hb : (UInt8.ofNat n).toNat = n := toNat_ofNat_of_lt (by omega)
      rw [if_pos h, List.singleton_append, readGroups, hb, if_pos h]
    · -- the low group is written with its top bit set, the rest is shorter by one
      have hb : (UInt8.ofNat (n % 128 + 128)).toNat = n % 128 + 128 :=
        toNat_ofNat_of_lt (by omega)
      have hd : n / 128 < 128 ^ (k + 1) := by
        rw [Nat.div_lt_iff_lt_mul (by omega)]
        rwa [pow_succ] at hn
      rw [if_neg h, List.cons_append, readGroups, hb, if_neg (by omega), ih (by omega) hd,
        Option.map_some]
      congr 2
      omega

theorem readVarint_encodeVarint (v : BitVec 64) (rest : Bytes) :
    readVarint (encodeVarint v.toNat ++ rest) = some (v, rest) := by
  have hv : v.toNat < 128 ^ 10 := lt_trans v.isLt (by norm_num)
  rw [readVarint, encodeVarint, readGroups_encodeGroups (by omega) hv, Option.map_some,
    BitVec.ofNat_toNat, BitVec.setWidth_eq]

/-- The writer stops at the first group that is zero from there on. -/
theorem encodeGroups_eq {j k n : ℕ} (hj : n < 128 ^ (j + 1)) (hk : n < 128 ^ (k + 1)) :
    encodeGroups j n = encodeGroups k n := by
  induction j generalizing k n with
  | zero =>
    rcases k with _ | k
    · rfl
    · rw [encodeGroups, encodeGroups, if_pos (by omega)]
  | succ j ih =>
    rcases k with _ | k
    · rw [encodeGroups, encodeGroups, if_pos (by omega)]
    · rw [encodeGroups, encodeGroups]
      by_cases h : n < 128
      · rw [if_pos h, if_pos h]
      · rw [if_neg h, if_neg h]
        have hdj : n / 128 < 128 ^ (j + 1) := by
          rw [Nat.div_lt_iff_lt_mul (by omega)]
          rwa [pow_succ] at hj
        have hdk : n / 128 < 128 ^ (k + 1) := by
          rw [Nat.div_lt_iff_lt_mul (by omega)]
          rwa [pow_succ] at hk
        rw [ih hdj hdk]

private theorem readGroups_five {n : ℕ} (hn : n < 2 ^ 32) (rest : Bytes) :
    readGroups 5 (encodeVarint n ++ rest) = some (n, rest) := by
  -- ten groups or five, the writer makes the same of a number this small
  have h5 : n < 128 ^ (4 + 1) := lt_trans hn (by norm_num)
  have h10 : n < 128 ^ (9 + 1) := lt_trans hn (by norm_num)
  rw [encodeVarint, encodeGroups_eq h10 h5]
  exact readGroups_encodeGroups (by omega) h5 rest

theorem readTag_encodeVarint {n : ℕ} (hn : n < 2 ^ 32) (rest : Bytes) :
    readTag (encodeVarint n ++ rest) = some (n, rest) := by
  rw [readTag, readGroups_five hn, Option.map_some, Nat.mod_eq_of_lt hn]

theorem readSize_encodeVarint {n : ℕ} (hn : n ≤ maxSize) (rest : Bytes) :
    readSize (encodeVarint n ++ rest) = some (n, rest) := by
  have h32 : n < 2 ^ 32 := by
    rw [maxSize] at hn
    omega
  rw [readSize, readGroups_five h32, Option.filter_some, if_pos (by simpa using hn)]

theorem readFixed_encodeFixed {k n : ℕ} (hn : n < 256 ^ k) (rest : Bytes) :
    readFixed k (encodeFixed k n ++ rest) = some (n, rest) := by
  induction k generalizing n with
  | zero =>
    have h0 : n = 0 := by omega
    rw [h0]
    rfl
  | succ k ih =>
    have hb : (UInt8.ofNat (n % 256)).toNat = n % 256 := toNat_ofNat_of_lt (by omega)
    have hd : n / 256 < 256 ^ k := by
      rw [Nat.div_lt_iff_lt_mul (by omega)]
      rwa [pow_succ] at hn
    rw [encodeFixed, List.cons_append, readFixed, ih hd, Option.map_some, hb]
    congr 2
    omega

/-! ### How much is consumed -/

theorem readGroups_length {k : ℕ} : ∀ {bs rest : Bytes} {n : ℕ},
    readGroups k bs = some (n, rest) → rest.length < bs.length := by
  induction k with
  | zero =>
    intro bs rest n h
    exact absurd h (by simp [readGroups])
  | succ k ih =>
    intro bs rest n h
    rcases bs with _ | ⟨b, bs⟩
    · exact absurd h (by simp [readGroups])
    · rw [readGroups] at h
      by_cases hb : b.toNat < 128
      · rw [if_pos hb, Option.some_inj, Prod.mk.injEq] at h
        rw [← h.2, List.length_cons]
        omega
      · rw [if_neg hb] at h
        obtain ⟨⟨m, r⟩, hr, he⟩ := Option.map_eq_some_iff.mp h
        obtain ⟨-, rfl⟩ := Prod.mk.inj he
        have hlen : (m, r).2.length < bs.length := ih hr
        rw [List.length_cons]
        omega

theorem readVarint_length {bs rest : Bytes} {v : BitVec 64}
    (h : readVarint bs = some (v, rest)) : rest.length < bs.length := by
  obtain ⟨⟨n, r⟩, hr, he⟩ := Option.map_eq_some_iff.mp h
  rw [← (Prod.mk.inj he).2]
  exact readGroups_length hr

theorem readTag_length {bs rest : Bytes} {t : ℕ}
    (h : readTag bs = some (t, rest)) : rest.length < bs.length := by
  obtain ⟨⟨n, r⟩, hr, he⟩ := Option.map_eq_some_iff.mp h
  rw [← (Prod.mk.inj he).2]
  exact readGroups_length hr

theorem readSize_length {bs rest : Bytes} {n : ℕ}
    (h : readSize bs = some (n, rest)) : rest.length < bs.length :=
  readGroups_length (Option.filter_eq_some_iff.mp h).1

theorem readFixed_length {k : ℕ} : ∀ {bs rest : Bytes} {n : ℕ},
    readFixed k bs = some (n, rest) → rest.length + k = bs.length := by
  induction k with
  | zero =>
    intro bs rest n h
    rw [readFixed, Option.some_inj, Prod.mk.injEq] at h
    rw [h.2, Nat.add_zero]
  | succ k ih =>
    intro bs rest n h
    rcases bs with _ | ⟨b, bs⟩
    · exact absurd h (by simp [readFixed])
    · rw [readFixed] at h
      obtain ⟨⟨m, r⟩, hr, he⟩ := Option.map_eq_some_iff.mp h
      obtain ⟨-, rfl⟩ := Prod.mk.inj he
      have hlen : (m, r).2.length + k = bs.length := ih hr
      rw [List.length_cons]
      omega

end Proto
