import ChainQuery.Text.Utf8

/-!
# Valid texts read back

The bytes of a text are the bytes of its characters, and reading them gives the text: each character
takes the branch of its own length, in which its second byte is one that may follow the first.
-/

namespace ChainQuery.Text

theorem toList_loop (bytes : ByteArray) (i : Nat) (seen : List UInt8) :
    ByteArray.toList.loop bytes i seen = seen.reverse ++ bytes.data.toList.drop i := by
  fun_induction ByteArray.toList.loop bytes i seen with
  | case1 i seen hlt ih =>
    have hlt : i < bytes.data.toList.length := by simpa using hlt
    rw [ih, List.drop_eq_getElem_cons hlt]
    simpa [ByteArray.get!] using getElem!_pos bytes.data i (by simpa using hlt)
  | case2 i seen hge =>
    have hge : bytes.data.toList.length ≤ i := by simpa using hge
    rw [List.drop_eq_nil_of_le hge, List.append_nil]

theorem utf8_eq (s : String) : utf8 s = s.toList.flatMap String.utf8EncodeChar := by
  have h := String.toByteArray_ofList (l := s.toList)
  rw [String.ofList_toList] at h
  rw [utf8, String.toUTF8_eq_toByteArray, h, List.utf8Encode, ByteArray.toList, toList_loop,
    List.data_toByteArray]
  simp

theorem isContinuation_iff {b : UInt8} : isContinuation b = true ↔ 128 ≤ b.toNat ∧ b.toNat ≤ 191 := by
  simp [isContinuation, UInt8.le_iff_toNat_le]

theorem eq_iff_toNat (b : UInt8) (n : Nat) (hn : n < 256) : b = UInt8.ofNat n ↔ b.toNat = n := by
  rw [← UInt8.toNat_inj, UInt8.toNat_ofNat_of_lt' hn]

theorem continuesThree_of {b c : UInt8} (hc : 128 ≤ c.toNat ∧ c.toNat ≤ 191)
    (hlow : b.toNat = 224 → 160 ≤ c.toNat) (hhigh : b.toNat = 237 → c.toNat ≤ 159) :
    continuesThree b c = true := by
  unfold continuesThree
  split
  · next h =>
    have h : b.toNat = 224 := (eq_iff_toNat b 224 (by decide)).1 (eq_of_beq h)
    simpa [UInt8.le_iff_toNat_le] using ⟨hlow h, hc.2⟩
  · split
    · next h =>
      have h : b.toNat = 237 := (eq_iff_toNat b 237 (by decide)).1 (eq_of_beq h)
      simpa [UInt8.le_iff_toNat_le] using ⟨hc.1, hhigh h⟩
    · exact isContinuation_iff.2 hc

theorem continuesFour_of {b c : UInt8} (hc : 128 ≤ c.toNat ∧ c.toNat ≤ 191)
    (hlow : b.toNat = 240 → 144 ≤ c.toNat) (hhigh : b.toNat = 244 → c.toNat ≤ 143) :
    continuesFour b c = true := by
  unfold continuesFour
  split
  · next h =>
    have h : b.toNat = 240 := (eq_iff_toNat b 240 (by decide)).1 (eq_of_beq h)
    simpa [UInt8.le_iff_toNat_le] using ⟨hlow h, hc.2⟩
  · split
    · next h =>
      have h : b.toNat = 244 := (eq_iff_toNat b 244 (by decide)).1 (eq_of_beq h)
      simpa [UInt8.le_iff_toNat_le] using ⟨hc.1, hhigh h⟩
    · exact isContinuation_iff.2 hc

section Branches

variable {b c d e : UInt8} (rest : List UInt8)

theorem not_ascii (hb : 128 ≤ b.toNat) : ¬ b < 0x80 := by
  rw [UInt8.lt_iff_toNat_lt]
  exact Nat.not_lt.2 hb

theorem not_two (hb : 224 ≤ b.toNat) : (0xC2 ≤ b && b ≤ 0xDF) = false := by
  simp [UInt8.le_iff_toNat_le]
  omega

theorem decodeUtf8_one (hb : b.toNat < 128) :
    decodeUtf8 (b :: rest) = Char.ofNat b.toNat :: decodeUtf8 rest := by
  rw [decodeUtf8.eq_def]
  exact if_pos (UInt8.lt_iff_toNat_lt.2 hb)

theorem decodeUtf8_two (hb : 194 ≤ b.toNat ∧ b.toNat ≤ 223) (hc : isContinuation c = true) :
    decodeUtf8 (b :: c :: rest) = assemble (b.toNat % 32) [c] :: decodeUtf8 rest := by
  have hlarge := not_ascii (Nat.le_trans (by decide) hb.1)
  have hfirst : (0xC2 ≤ b && b ≤ 0xDF) = true := by
    simpa [UInt8.le_iff_toNat_le] using hb
  rw [decodeUtf8.eq_def]
  simp only [hlarge, hfirst, hc, if_true, if_false]

theorem decodeUtf8_three (hb : 224 ≤ b.toNat ∧ b.toNat ≤ 239) (hc : continuesThree b c = true)
    (hd : isContinuation d = true) :
    decodeUtf8 (b :: c :: d :: rest) = assemble (b.toNat % 16) [c, d] :: decodeUtf8 rest := by
  have hlarge := not_ascii (Nat.le_trans (by decide) hb.1)
  have htwo := not_two (Nat.le_trans (by decide) hb.1)
  have hfirst : (0xE0 ≤ b && b ≤ 0xEF) = true := by
    simpa [UInt8.le_iff_toNat_le] using hb
  rw [decodeUtf8.eq_def]
  simp only [hlarge, htwo, hfirst, hc, hd, if_true, if_false, Bool.false_eq_true]

theorem decodeUtf8_four (hb : 240 ≤ b.toNat ∧ b.toNat ≤ 244) (hc : continuesFour b c = true)
    (hd : isContinuation d = true) (he : isContinuation e = true) :
    decodeUtf8 (b :: c :: d :: e :: rest) =
      assemble (b.toNat % 8) [c, d, e] :: decodeUtf8 rest := by
  have hlarge := not_ascii (Nat.le_trans (by decide) hb.1)
  have htwo := not_two (Nat.le_trans (by decide) hb.1)
  have hthree : (0xE0 ≤ b && b ≤ 0xEF) = false := by
    simp [UInt8.le_iff_toNat_le]
    omega
  have hfirst : (0xF0 ≤ b && b ≤ 0xF4) = true := by
    simpa [UInt8.le_iff_toNat_le] using hb
  rw [decodeUtf8.eq_def]
  simp only [hlarge, htwo, hthree, hfirst, hc, hd, he, if_true, if_false, Bool.false_eq_true]

end Branches

/-- The bytes of a character are read as that character, by the branch of its length. -/
theorem decodeUtf8_append (c : Char) (rest : List UInt8) :
    decodeUtf8 (String.utf8EncodeChar c ++ rest) = c :: decodeUtf8 rest := by
  obtain ⟨n, hn⟩ : ∃ n, c.val.toNat = n := ⟨_, rfl⟩
  have hvalid : n < 55296 ∨ 57343 < n ∧ n < 1114112 := hn ▸ c.valid
  have hchar {m : Nat} (hm : m = n) : Char.ofNat m = c := by
    rw [hm, ← hn]
    exact Char.ofNat_toNat c
  have hbyte {m : Nat} (hm : m < 256) : (UInt8.ofNat m).toNat = m := UInt8.toNat_ofNat_of_lt' hm
  have htail (m : Nat) : (UInt8.ofNat (m % 64 + 128)).toNat = m % 64 + 128 := hbyte (by omega)
  have hcontinuation (m : Nat) : isContinuation (UInt8.ofNat (m % 64 + 128)) = true :=
    isContinuation_iff.2 (by rw [htail]; omega)
  simp only [String.utf8EncodeChar, hn]
  split
  · have hb : (UInt8.ofNat n).toNat = n := hbyte (by omega)
    refine (decodeUtf8_one rest (by omega)).trans ?_
    rw [hb, hchar rfl]
  · split
    · have hb : (UInt8.ofNat (n / 64 % 32 + 192)).toNat = n / 64 % 32 + 192 := hbyte (by omega)
      refine (decodeUtf8_two rest (by omega) (hcontinuation _)).trans ?_
      simp only [assemble, List.foldl_cons, List.foldl_nil, hb, htail]
      rw [hchar (by omega)]
    · split
      · have hb : (UInt8.ofNat (n / 4096 % 16 + 224)).toNat = n / 4096 % 16 + 224 :=
          hbyte (by omega)
        have hc := htail (n / 64)
        refine (decodeUtf8_three rest (by omega)
          (continuesThree_of (by omega) (by omega) (by omega)) (hcontinuation _)).trans ?_
        simp only [assemble, List.foldl_cons, List.foldl_nil, hb, htail]
        rw [hchar (by omega)]
      · have hb : (UInt8.ofNat (n / 262144 % 8 + 240)).toNat = n / 262144 % 8 + 240 :=
          hbyte (by omega)
        have hc := htail (n / 4096)
        refine (decodeUtf8_four rest (by omega)
          (continuesFour_of (by omega) (by omega) (by omega)) (hcontinuation _)
          (hcontinuation _)).trans ?_
        simp only [assemble, List.foldl_cons, List.foldl_nil, hb, htail]
        rw [hchar (by omega)]

theorem ofUtf8_utf8 (s : String) : ofUtf8 (utf8 s) = s := by
  have h (cs : List Char) : decodeUtf8 (cs.flatMap String.utf8EncodeChar) = cs := by
    induction cs with
    | nil => rfl
    | cons c cs ih => rw [List.flatMap_cons, decodeUtf8_append, ih]
  rw [ofUtf8, utf8_eq, h, String.ofList_toList]

end ChainQuery.Text
