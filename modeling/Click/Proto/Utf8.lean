/-
Strings are valid UTF-8.

The check that a parser makes of a string field, on the encoding of a character: each
of the four lengths passes it.

* `validUtf8_toByteArray` — the check passes on the bytes of every string.
-/
import Click.Proto.Codec

namespace Proto

variable {a b c d : UInt8} (rest : Bytes)

theorem tail_of_toNat (hb : 0x80 ≤ b.toNat ∧ b.toNat ≤ 0xBF) : validUtf8.tail b = true := by
  simpa [validUtf8.tail, UInt8.le_iff_toNat_le] using hb

/-! ### One character, by its length -/

theorem validUtf8_one (ha : a.toNat ≤ 0x7F) : validUtf8 (a :: rest) = validUtf8 rest := by
  rw [validUtf8.eq_def]
  simp [UInt8.le_iff_toNat_le, ha]

theorem validUtf8_two (ha : 0xC2 ≤ a.toNat ∧ a.toNat ≤ 0xDF) (hb : validUtf8.tail b = true) :
    validUtf8 (a :: b :: rest) = validUtf8 rest := by
  rw [validUtf8.eq_def]
  simp [UInt8.le_iff_toNat_le, ha, hb]
  omega

/-- No shorter form and no surrogate. -/
theorem validUtf8_three (ha : 0xE0 ≤ a.toNat ∧ a.toNat ≤ 0xEF)
    (hlow : a.toNat = 0xE0 → 0xA0 ≤ b.toNat) (hhigh : a.toNat = 0xED → b.toNat ≤ 0x9F)
    (hb : validUtf8.tail b = true) (hc : validUtf8.tail c = true) :
    validUtf8 (a :: b :: c :: rest) = validUtf8 rest := by
  have hone : ¬ a ≤ 0x7F := by rw [UInt8.le_iff_toNat_le]; simp; omega
  have htwo : ¬ a ≤ 0xDF := by rw [UInt8.le_iff_toNat_le]; simp; omega
  have hlow' : a = 0xE0 → 0xA0 ≤ b := by
    rintro rfl
    exact UInt8.le_iff_toNat_le.mpr (hlow rfl)
  have hhigh' : a = 0xED → b ≤ 0x9F := by
    rintro rfl
    exact UInt8.le_iff_toNat_le.mpr (hhigh rfl)
  have hthree : 0xE0 ≤ a ∧ a ≤ 0xEF :=
    ⟨UInt8.le_iff_toNat_le.mpr ha.1, UInt8.le_iff_toNat_le.mpr ha.2⟩
  rw [validUtf8.eq_def]
  simp only [hone, htwo, hthree, hb, hc]
  by_cases h₁ : a = 0xE0 <;> by_cases h₂ : a = 0xED <;> simp_all

/-- No shorter form and nothing past U+10FFFF. -/
theorem validUtf8_four (ha : 0xF0 ≤ a.toNat ∧ a.toNat ≤ 0xF4)
    (hlow : a.toNat = 0xF0 → 0x90 ≤ b.toNat) (hhigh : a.toNat = 0xF4 → b.toNat ≤ 0x8F)
    (hb : validUtf8.tail b = true) (hc : validUtf8.tail c = true)
    (hd : validUtf8.tail d = true) :
    validUtf8 (a :: b :: c :: d :: rest) = validUtf8 rest := by
  have hone : ¬ a ≤ 0x7F := by rw [UInt8.le_iff_toNat_le]; simp; omega
  have htwo : ¬ a ≤ 0xDF := by rw [UInt8.le_iff_toNat_le]; simp; omega
  have hthree : ¬ a ≤ 0xEF := by rw [UInt8.le_iff_toNat_le]; simp; omega
  have hlow' : a = 0xF0 → 0x90 ≤ b := by
    rintro rfl
    exact UInt8.le_iff_toNat_le.mpr (hlow rfl)
  have hhigh' : a = 0xF4 → b ≤ 0x8F := by
    rintro rfl
    exact UInt8.le_iff_toNat_le.mpr (hhigh rfl)
  have hfour : 0xF0 ≤ a ∧ a ≤ 0xF4 :=
    ⟨UInt8.le_iff_toNat_le.mpr ha.1, UInt8.le_iff_toNat_le.mpr ha.2⟩
  rw [validUtf8.eq_def]
  simp only [hone, htwo, hthree, hfour, hb, hc, hd]
  by_cases h₁ : a = 0xF0 <;> by_cases h₂ : a = 0xF4 <;> simp_all

/-! ### Strings -/

theorem toNat_ofNat {n : ℕ} (h : n < 0x100) : (UInt8.ofNat n).toNat = n :=
  UInt8.toNat_ofNat_of_lt' h

theorem tail_ofNat (n : ℕ) : validUtf8.tail (UInt8.ofNat (n % 0x40 + 0x80)) = true := by
  refine tail_of_toNat ?_
  rw [toNat_ofNat (by omega)]
  omega

theorem validUtf8_utf8EncodeChar (c : Char) :
    validUtf8 (String.utf8EncodeChar c ++ rest) = validUtf8 rest := by
  have hvalid : c.val.toNat < 0xd800 ∨ 0xdfff < c.val.toNat ∧ c.val.toNat < 0x110000 := c.valid
  rw [String.utf8EncodeChar]
  generalize c.val.toNat = v at hvalid
  split_ifs with hone htwo hthree
  · refine validUtf8_one rest ?_
    rwa [toNat_ofNat (by omega)]
  · refine validUtf8_two rest ?_ (tail_ofNat v)
    rw [toNat_ofNat (by omega)]
    omega
  · have ha := toNat_ofNat (show v / 4096 % 0x10 + 0xe0 < 0x100 by omega)
    have hb := toNat_ofNat (show v / 64 % 0x40 + 0x80 < 0x100 by omega)
    refine validUtf8_three rest ?_ ?_ ?_ (tail_ofNat _) (tail_ofNat v) <;> rw [ha] <;> omega
  · have ha := toNat_ofNat (show v / 262144 % 0x08 + 0xf0 < 0x100 by omega)
    have hb := toNat_ofNat (show v / 4096 % 0x40 + 0x80 < 0x100 by omega)
    refine validUtf8_four rest ?_ ?_ ?_ (tail_ofNat _) (tail_ofNat _) (tail_ofNat v) <;>
      rw [ha] <;> omega

/-- **Strings are valid UTF-8.** -/
theorem validUtf8_toByteArray (s : String) : validUtf8 s.toByteArray.data.toList = true := by
  have hbytes : s.toByteArray.data.toList = s.toList.flatMap String.utf8EncodeChar := by
    rw [← String.utf8Encode_toList, List.utf8Encode, List.toList_data_toByteArray]
  rw [hbytes]
  induction s.toList with
  | nil => rfl
  | cons c cs ih => rw [List.flatMap_cons, validUtf8_utf8EncodeChar, ih]

end Proto
