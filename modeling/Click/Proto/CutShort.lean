/-
Bytes that are cut short.

What a reader has read off the front of some bytes it reads off the front of any bytes
that go on from there.  So of an encoding that is cut short the records that are left are
the first ones of the whole, and perhaps what is read of the one in which the cut lies.

* `readRecord_append` — a record that was read is read again when more bytes follow;
* `exists_num_of_cut` — where tags are a single byte, what is read of a cut encoding has
  the numbers of records that were written.
-/
import Click.Proto.SchemaLaws

namespace Proto

/-! ### Readers and what follows -/

theorem readGroups_append {k : ℕ} : ∀ {bs rest : Bytes} {n : ℕ},
    readGroups k bs = some (n, rest) →
      ∀ more, readGroups k (bs ++ more) = some (n, rest ++ more) := by
  induction k with
  | zero =>
    intro bs rest n h
    exact absurd h (by simp [readGroups])
  | succ k ih =>
    intro bs rest n h more
    rcases bs with _ | ⟨b, bs⟩
    · exact absurd h (by simp [readGroups])
    · rw [readGroups] at h
      rw [List.cons_append, readGroups]
      by_cases hb : b.toNat < 128
      · rw [if_pos hb, Option.some_inj, Prod.mk.injEq] at h
        rw [if_pos hb, h.1, h.2]
      · rw [if_neg hb] at h
        obtain ⟨⟨m, r⟩, hr, he⟩ := Option.map_eq_some_iff.mp h
        obtain ⟨rfl, rfl⟩ := Prod.mk.inj he
        rw [if_neg hb, ih hr, Option.map_some]

theorem readVarint_append {bs rest : Bytes} {v : BitVec 64} (h : readVarint bs = some (v, rest))
    (more : Bytes) : readVarint (bs ++ more) = some (v, rest ++ more) := by
  obtain ⟨⟨n, r⟩, hr, he⟩ := Option.map_eq_some_iff.mp h
  obtain ⟨rfl, rfl⟩ := Prod.mk.inj he
  rw [readVarint, readGroups_append hr, Option.map_some]

theorem readTag_append {bs rest : Bytes} {t : ℕ} (h : readTag bs = some (t, rest))
    (more : Bytes) : readTag (bs ++ more) = some (t, rest ++ more) := by
  obtain ⟨⟨n, r⟩, hr, he⟩ := Option.map_eq_some_iff.mp h
  obtain ⟨rfl, rfl⟩ := Prod.mk.inj he
  rw [readTag, readGroups_append hr, Option.map_some]

theorem readSize_append {bs rest : Bytes} {n : ℕ} (h : readSize bs = some (n, rest))
    (more : Bytes) : readSize (bs ++ more) = some (n, rest ++ more) := by
  obtain ⟨hr, hn⟩ := Option.filter_eq_some_iff.mp h
  rw [readSize, readGroups_append hr, Option.filter_some, if_pos hn]

theorem readFixed_append {k : ℕ} : ∀ {bs rest : Bytes} {n : ℕ},
    readFixed k bs = some (n, rest) →
      ∀ more, readFixed k (bs ++ more) = some (n, rest ++ more) := by
  induction k with
  | zero =>
    intro bs rest n h more
    rw [readFixed, Option.some_inj, Prod.mk.injEq] at h
    rw [readFixed, h.1, h.2]
  | succ k ih =>
    intro bs rest n h more
    rcases bs with _ | ⟨b, bs⟩
    · exact absurd h (by simp [readFixed])
    · rw [readFixed] at h
      obtain ⟨⟨m, r⟩, hr, he⟩ := Option.map_eq_some_iff.mp h
      obtain ⟨rfl, rfl⟩ := Prod.mk.inj he
      rw [List.cons_append, readFixed, ih hr, Option.map_some]

theorem readScalar_append {tag : ℕ} {bs rest : Bytes} {p : Payload}
    (h : readScalar tag bs = some (p, rest)) (more : Bytes) :
    readScalar tag (bs ++ more) = some (p, rest ++ more) := by
  unfold readScalar at h ⊢
  split at h
  · exact absurd h (by simp)
  · next htag =>
    rw [if_neg htag]
    split at h
    · obtain ⟨⟨v, r⟩, hr, he⟩ := Option.map_eq_some_iff.mp h
      obtain ⟨rfl, rfl⟩ := Prod.mk.inj he
      simp only [readVarint_append hr, Option.map_some]
    · obtain ⟨⟨v, r⟩, hr, he⟩ := Option.map_eq_some_iff.mp h
      obtain ⟨rfl, rfl⟩ := Prod.mk.inj he
      simp only [readFixed_append hr, Option.map_some]
    · obtain ⟨⟨n, r⟩, hr, he⟩ := Option.bind_eq_some_iff.mp h
      simp only [readSize_append hr, Option.bind_some]
      split at he
      · next hn =>
        -- the bytes that are taken were there before
        obtain ⟨rfl, rfl⟩ := Prod.mk.inj (Option.some_inj.mp he)
        simp only at hn
        rw [if_pos (by rw [List.length_append]; omega), List.take_append_of_le_length hn,
          List.drop_append_of_le_length hn]
      · exact absurd he (by simp)
    · obtain ⟨⟨v, r⟩, hr, he⟩ := Option.map_eq_some_iff.mp h
      obtain ⟨rfl, rfl⟩ := Prod.mk.inj he
      simp only [readFixed_append hr, Option.map_some]
    · exact absurd h (by simp)

/-- Spare rounds change nothing, nor does what follows the group. -/
theorem skipGroup_append {payload : ℕ → Bytes → Option (Payload × Bytes)}
    (hp : ∀ {t bs p rest}, payload t bs = some (p, rest) →
      ∀ more, payload t (bs ++ more) = some (p, rest ++ more))
    {num k : ℕ} : ∀ {l : ℕ} {bs rest : Bytes}, k ≤ l → skipGroup payload num k bs = some rest →
      ∀ more, skipGroup payload num l (bs ++ more) = some (rest ++ more) := by
  induction k with
  | zero =>
    intro l bs rest _ h
    exact absurd h (by simp [skipGroup])
  | succ k ih =>
    intro l bs rest hl h more
    obtain ⟨l, rfl⟩ : ∃ l', l = l' + 1 := ⟨l - 1, by omega⟩
    obtain ⟨⟨t, r⟩, ht, he⟩ := Option.bind_eq_some_iff.mp h
    rw [skipGroup, readTag_append ht, Option.bind_some]
    dsimp only at he ⊢
    -- an end-group tag ends the group, any other record is skipped
    split at he
    · next htag =>
      rw [if_pos htag]
      split at he
      · next hnum => rw [if_pos hnum, Option.some_inj.mp he]
      · exact absurd he (by simp)
    · next htag =>
      obtain ⟨⟨p, r'⟩, hq, he⟩ := Option.bind_eq_some_iff.mp he
      rw [if_neg htag, hp hq, Option.bind_some]
      exact ih (by omega) he more

theorem readPayload_append {d : ℕ} : ∀ {tag : ℕ} {bs rest : Bytes} {p : Payload},
    readPayload d tag bs = some (p, rest) →
      ∀ more, readPayload d tag (bs ++ more) = some (p, rest ++ more) := by
  induction d with
  | zero => exact fun h => readScalar_append h
  | succ d ih =>
    intro tag bs rest p h more
    rw [readPayload] at h ⊢
    split at h
    · next htag =>
      obtain ⟨r, hr, he⟩ := Option.map_eq_some_iff.mp h
      obtain ⟨rfl, rfl⟩ := Prod.mk.inj he
      have hlen : bs.length ≤ (bs ++ more).length := by simp
      rw [if_pos htag, skipGroup_append ih hlen hr, Option.map_some]
    · next htag =>
      rw [if_neg htag]
      exact readScalar_append h more

/-- **A record that was read is read again** when more bytes follow. -/
theorem readRecord_append {d : ℕ} {bs rest : Bytes} {r : Record}
    (h : readRecord d bs = some (r, rest)) (more : Bytes) :
    readRecord d (bs ++ more) = some (r, rest ++ more) := by
  obtain ⟨⟨t, bs'⟩, ht, he⟩ := Option.bind_eq_some_iff.mp h
  obtain ⟨⟨p, rest'⟩, hp, he⟩ := Option.map_eq_some_iff.mp he
  obtain ⟨rfl, rfl⟩ := Prod.mk.inj he
  rw [readRecord, readTag_append ht, Option.bind_some]
  simp only [readPayload_append hp, Option.map_some]

/-! ### A cut encoding -/

/-- The tag is a single byte. -/
theorem num_of_readRecord {d : ℕ} {r r' : Record} (htag : r.num < 16)
    {b rest more : Bytes} (hne : b ≠ []) (hb : b <+: r.encode)
    (h : readRecord d (b ++ more) = some (r', rest)) : r'.num = r.num := by
  have hw : r.payload.wireType ≤ 5 := by
    cases r.payload <;> simp [Payload.wireType]
  have hone : encodeVarint (8 * r.num + r.payload.wireType) =
      [UInt8.ofNat (8 * r.num + r.payload.wireType)] := by
    rw [encodeVarint, encodeGroups, if_pos (by omega)]
  obtain ⟨x, b, rfl⟩ := List.exists_cons_of_ne_nil hne
  rw [Record.encode, hone, List.cons_append, List.cons_prefix_cons] at hb
  have hread : readTag (x :: b ++ more) = some (8 * r.num + r.payload.wireType, b ++ more) := by
    have hvarint := readTag_encodeVarint
      (show 8 * r.num + r.payload.wireType < 2 ^ 32 by omega) (b ++ more)
    rwa [hone, ← hb.1] at hvarint
  rw [readRecord, hread, Option.bind_some] at h
  obtain ⟨⟨p, rest'⟩, -, he⟩ := Option.map_eq_some_iff.mp h
  rw [← (Prod.mk.inj he).1]
  simp only
  omega

/-- **What is read of a cut encoding** has the numbers of records that were written. -/
theorem exists_num_of_cut {rs : List Record} (hfit : ∀ r ∈ rs, r.Fits)
    (htags : ∀ r ∈ rs, r.num < 16) {b : Bytes} (hb : b <+: encodeRecords rs) (past : Bytes)
    (d : ℕ) : ∀ r' ∈ (records past d b).1, ∃ r ∈ rs, r'.num = r.num := by
  induction rs generalizing b with
  | nil =>
    rw [encodeRecords_nil, List.prefix_nil] at hb
    subst hb
    exact fun r' hr' => absurd hr' List.not_mem_nil
  | cons r rs ih =>
    obtain ⟨hr, hrs⟩ := List.forall_mem_cons.mp hfit
    obtain ⟨htag, htags⟩ := List.forall_mem_cons.mp htags
    rw [encodeRecords_cons] at hb
    rcases List.prefix_or_prefix_of_prefix hb (List.prefix_append r.encode _) with hcut | hwhole
    · -- the cut is within the first record, or right behind it
      intro r' hr'
      refine ⟨r, List.mem_cons_self, ?_⟩
      rcases b with _ | ⟨x, b⟩
      · exact absurd hr' List.not_mem_nil
      · rcases hread : readRecord d (x :: b) with _ | ⟨q, rest⟩
        · rw [records_of_none hread, Option.mem_toList, overrun] at hr'
          obtain ⟨⟨q, rest⟩, hq, rfl⟩ :=
            Option.map_eq_some_iff.mp (Option.filter_eq_some_iff.mp hr').1
          exact num_of_readRecord htag (List.cons_ne_nil x b) hcut hq
        · -- a record that is read off the front is all of it
          obtain ⟨more, hmore⟩ := hcut
          have hall := readRecord_append hread more
          have henc := readRecord_encode hr d []
          rw [List.append_nil, ← hmore, hall, Option.some_inj, Prod.mk.injEq] at henc
          obtain ⟨rfl, hnil⟩ := henc
          rw [records_of_some hread, (List.append_eq_nil_iff.mp hnil).1] at hr'
          rw [List.mem_singleton.mp hr']
    · obtain ⟨b, rfl⟩ := hwhole
      rw [List.prefix_append_right_inj] at hb
      rw [records_of_some (readRecord_encode hr d b)]
      intro r' hr'
      rcases List.mem_cons.mp hr' with rfl | hr'
      · exact ⟨r', List.mem_cons_self, rfl⟩
      · obtain ⟨q, hq, hnum⟩ := ih hrs htags hb r' hr'
        exact ⟨q, List.mem_cons_of_mem r hq, hnum⟩

end Proto
