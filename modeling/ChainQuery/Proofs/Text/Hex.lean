import ChainQuery.Text.Hex

/-!
# Hexadecimal texts read back

The digits of bytes, with letters of either case, are read as these bytes, and nothing else is.
-/

namespace ChainQuery.Text

theorem toUpper_toLower_ofNat {n : Nat} (h : n < 91) :
    65 ≤ n → (Char.ofNat n).toLower.toUpper = Char.ofNat n := by
  decide +revert

theorem eq_or_of_toLower {c d : Char} (h : c.toLower = d) : c = d ∨ c = d.toUpper := by
  by_cases hc : 'A'.val ≤ c.val ∧ c.val ≤ 'Z'.val
  · right
    have hbounds : 65 ≤ c.toNat ∧ c.toNat ≤ 90 := by
      simpa [UInt32.le_iff_toNat_le] using hc
    rw [← h, ← Char.ofNat_toNat c]
    exact (toUpper_toLower_ofNat (by omega) hbounds.1).symm
  · left
    rw [← h]
    delta Char.toLower
    rw [dif_neg hc]

theorem digitBelow?_cases {d : Nat} (h : d < 16) :
    digitBelow? 16 (digitChar d) = some d ∧ digitBelow? 16 (digitChar d).toUpper = some d := by
  decide +revert

theorem digitBelow?_hex {c : Char} {d : Nat} (hd : d < 16) (h : c.toLower = digitChar d) :
    digitBelow? 16 c = some d := by
  rcases eq_or_of_toLower h with rfl | rfl
  · exact (digitBelow?_cases hd).1
  · exact (digitBelow?_cases hd).2

theorem readHex?_of_toLower {bytes : List UInt8} {cs : List Char}
    (h : cs.map Char.toLower = hexChars bytes) : readHex? cs = some bytes := by
  induction bytes generalizing cs with
  | nil =>
    rw [List.map_eq_nil_iff.1 h]
    rfl
  | cons b bytes ih =>
    have hb := b.toNat_lt
    rw [hexChars, List.flatMap_cons] at h
    match cs, h with
    | [x], h => cases (List.cons.inj h).2
    | x :: y :: cs, h =>
      obtain ⟨hx, h⟩ := List.cons.inj h
      obtain ⟨hy, hrest⟩ := List.cons.inj h
      have hbyte : UInt8.ofNat (b.toNat / 16 * 16 + b.toNat % 16) = b := by
        rw [Nat.div_add_mod']
        exact UInt8.ofNat_toNat
      rw [readHex?, digitBelow?_hex (by omega) hx, digitBelow?_hex (by omega) hy, ih hrest]
      simp only [hbyte]

theorem toLower_of_digitBelow?_ofNat {n : Nat} (h : n < 123) :
    ∀ d ∈ digitBelow? 16 (Char.ofNat n), d < 16 ∧ (Char.ofNat n).toLower = digitChar d := by
  decide +revert

theorem toLower_of_digitBelow? {c : Char} {d : Nat} (h : digitBelow? 16 c = some d) :
    d < 16 ∧ c.toLower = digitChar d := by
  have hc : c.toNat < 123 := by
    obtain ⟨hvalue, -⟩ := Option.filter_eq_some_iff.1 h
    have hsize {a b : Char} : a ≤ b ↔ a.toNat ≤ b.toNat := UInt32.le_iff_toNat_le
    refine Nat.lt_of_not_le fun hlarge => ?_
    simp only [digitValue?, hsize, Char.reduceToNat] at hvalue
    rw [if_neg (by omega), if_neg (by omega), if_neg (by omega)] at hvalue
    cases hvalue
  have hall := toLower_of_digitBelow?_ofNat hc
  rw [Char.ofNat_toNat] at hall
  exact hall d h

theorem toLower_of_readHex? {cs : List Char} {bytes : List UInt8} (h : readHex? cs = some bytes) :
    cs.map Char.toLower = hexChars bytes := by
  fun_induction readHex? cs generalizing bytes with
  | case1 =>
    cases h
    rfl
  | case2 => cases h
  | case3 x y cs a b rest hrest hb ha ih =>
    obtain rfl := Option.some.inj h
    obtain ⟨ha, hx⟩ := toLower_of_digitBelow? ha
    obtain ⟨hb, hy⟩ := toLower_of_digitBelow? hb
    have hpair : hexPair (UInt8.ofNat (a * 16 + b)) = [digitChar a, digitChar b] := by
      have hbyte : (UInt8.ofNat (a * 16 + b)).toNat = a * 16 + b :=
        UInt8.toNat_ofNat_of_lt' (by simp [UInt8.size]; omega)
      have hhigh : (a * 16 + b) / 16 = a := by omega
      have hlow : (a * 16 + b) % 16 = b := by omega
      rw [hexPair, hbyte, hhigh, hlow]
    rw [hexChars, List.flatMap_cons, hpair, List.map_cons, List.map_cons, hx, hy, ih hrest]
    rfl
  | case4 => cases h

/-- What is read are the bytes with these digits, letters of either case. -/
theorem readHex?_eq_some {cs : List Char} {bytes : List UInt8} :
    readHex? cs = some bytes ↔ cs.map Char.toLower = hexChars bytes :=
  ⟨toLower_of_readHex?, readHex?_of_toLower⟩

theorem toLower_digitChar {d : Nat} (h : d < 16) : (digitChar d).toLower = digitChar d := by
  decide +revert

theorem toLower_toUpper_digitChar {d : Nat} (h : d < 16) :
    (digitChar d).toUpper.toLower = digitChar d := by
  decide +revert

theorem exists_of_mem_hexChars {bytes : List UInt8} {c : Char} (h : c ∈ hexChars bytes) :
    ∃ d < 16, c = digitChar d := by
  obtain ⟨b, -, hc⟩ := List.mem_flatMap.1 h
  have hb := b.toNat_lt
  rcases List.mem_cons.1 hc with rfl | hc
  · exact ⟨b.toNat / 16, by omega, rfl⟩
  · exact ⟨b.toNat % 16, by omega, List.mem_singleton.1 hc⟩

theorem toLower_hexChars (bytes : List UInt8) :
    (hexChars bytes).map Char.toLower = hexChars bytes := by
  refine (List.map_congr_left fun c hc => ?_).trans (List.map_id _)
  obtain ⟨d, hd, rfl⟩ := exists_of_mem_hexChars hc
  exact toLower_digitChar hd

theorem length_hexChars (bytes : List UInt8) : (hexChars bytes).length = 2 * bytes.length := by
  induction bytes with
  | nil => rfl
  | cons b bytes ih =>
    rw [hexChars, List.flatMap_cons, List.length_append, ← hexChars, ih, List.length_cons]
    exact Nat.add_comm 2 (2 * bytes.length)

end ChainQuery.Text
