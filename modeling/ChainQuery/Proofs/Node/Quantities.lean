import ChainQuery.Node.Quantity
import ChainQuery.Proofs.Text.Hex
import ChainQuery.Proofs.Text.Numerals

/-!
# Quantities that texts denote

A quantity is read as the number that its hexadecimal digits denote, whatever the case of its letters
and however many zeros stand before it, or refused when it is too large for the width. A number is
written in the fewest digits, in small letters.
-/

namespace ChainQuery

theorem Text.mapM_digitBelow?_hex {cs : List Char} {ds : List Nat} (hds : ∀ d ∈ ds, d < 16)
    (h : cs.map Char.toLower = ds.map digitChar) : cs.mapM (digitBelow? 16) = some ds := by
  induction ds generalizing cs with
  | nil =>
    rw [List.map_eq_nil_iff.mp h]
    rfl
  | cons d ds ih =>
    obtain ⟨hd, hds⟩ := List.forall_mem_cons.mp hds
    obtain ⟨c, cs, rfl, hc, hcs⟩ := List.map_eq_cons_iff.mp h
    simp [List.mapM_cons, digitBelow?_hex hd hc, ih hds hcs]

namespace Quantity

/-- The mark and hexadecimal digits of either case, perhaps with zeros in front, and the number that they
denote. -/
def Denotes (s : String) (n : Nat) : Prop :=
  ∃ cs ds, s.toList = '0' :: 'x' :: cs ∧ (∀ d ∈ ds, d < 16) ∧
    cs.map Char.toLower = ds.map Text.digitChar ∧ Text.ofDigits 16 ds = n

variable {s : String} {n m : Nat}

theorem Denotes.digits (h : Denotes s n) : ∃ cs ds, Text.dropHexMark s.toList = cs ∧
    cs.mapM (Text.digitBelow? 16) = some ds ∧ Text.ofDigits 16 ds = n := by
  obtain ⟨cs, ds, hs, hds, hcs, hn⟩ := h
  refine ⟨cs, ds, ?_, Text.mapM_digitBelow?_hex hds hcs, hn⟩
  rw [hs]
  rfl

theorem filter_below (n bound : Nat) :
    (some n).filter (fun m => m < bound) = if n < bound then some n else none := by
  simp [Option.filter_some]

theorem read_of_denotes (h : Denotes s n) :
    read s = if n < Nat.pow 2 128 then .ok n else .error (.badQuantity s) := by
  obtain ⟨cs, ds, hdrop, hds, rfl⟩ := h.digits
  rw [read, hdrop]
  cases cs with
  | nil =>
    cases hds
    rfl
  | cons c cs =>
    have hsign : (c :: cs).head? ≠ some '+' := by
      intro hplus
      obtain rfl : c = '+' := Option.some.inj hplus
      cases hds
    have hread : Text.readRun? 16 (c :: cs) = some (Text.ofDigits 16 ds) := by
      rw [Text.readRun?, hds, Option.map_some]
    simp only [List.isEmpty_cons, Bool.false_eq_true, if_false,
      Text.getD_dropStart?_of_head?_ne hsign, hread, filter_below]
    by_cases hwidth : Text.ofDigits 16 ds < Nat.pow 2 128
    · rw [if_pos hwidth, if_pos hwidth]
    · rw [if_neg hwidth, if_neg hwidth]

theorem read64_of_denotes (h : Denotes s n) : read64 s =
    if n < Nat.pow 2 64 then .ok n
    else .error (if n < Nat.pow 2 128 then .beyondWord s else .badQuantity s) := by
  rw [read64, read_of_denotes h]
  by_cases hwidth : n < Nat.pow 2 128
  · rw [if_pos hwidth, if_pos hwidth]
    rfl
  · have hlong : ¬ n < Nat.pow 2 64 := fun hshort => hwidth (Nat.lt_trans hshort (by decide))
    rw [if_neg hwidth, if_neg hwidth, if_neg hlong]
    rfl

theorem readDecimal_of_denotes (h : Denotes s n) : readDecimal s =
    if n < wordBound then .ok (Text.decimal n) else .error (.badQuantity s) := by
  obtain ⟨cs, ds, hdrop, hds, rfl⟩ := h.digits
  rw [readDecimal, hdrop, Text.readGrouped?, Text.filter_of_mapM hds, hds, Option.map_some,
    filter_below]
  by_cases hwidth : Text.ofDigits 16 ds < wordBound
  · rw [if_pos hwidth, if_pos hwidth]
  · rw [if_neg hwidth, if_neg hwidth]

theorem eq_of_read (h : Denotes s n) (hread : read s = .ok m) : m = n := by
  rw [read_of_denotes h] at hread
  split at hread
  · exact (Except.ok.inj hread).symm
  · cases hread

theorem eq_of_read64 (h : Denotes s n) (hread : read64 s = .ok m) :
    m = n ∧ n < Nat.pow 2 64 := by
  rw [read64_of_denotes h] at hread
  split at hread
  · next hwidth => exact ⟨(Except.ok.inj hread).symm, hwidth⟩
  · cases hread

theorem eq_of_readDecimal {amount : String} (h : Denotes s n) (hread : readDecimal s = .ok amount) :
    amount = Text.decimal n := by
  rw [readDecimal_of_denotes h] at hread
  split at hread
  · exact (Except.ok.inj hread).symm
  · cases hread

section Writing
variable (zeros : Nat) {cs : List Char}

/-- The digits of a number denote it with zeros before them and letters of either case. -/
theorem denotes_of_digits (h : cs.map Char.toLower = Nat.toDigits 16 n) :
    Denotes (String.ofList ('0' :: 'x' :: (List.replicate zeros '0' ++ cs))) n := by
  refine ⟨_, List.replicate zeros 0 ++ Text.digits 16 n, String.toList_ofList, ?_, ?_, ?_⟩
  · intro d hd
    obtain hd | hd := List.mem_append.mp hd
    · rw [List.eq_of_mem_replicate hd]
      decide
    · exact Text.digits_lt (by decide) n d hd
  · rw [List.map_append, List.map_append, List.map_replicate, List.map_replicate, h,
      ← Text.render_eq_toDigits (by decide)]
    rfl
  · rw [Text.ofDigits_replicate_zero, Text.ofDigits_digits]

theorem toList_text (n : Nat) : (text n).toList = '0' :: 'x' :: Nat.toDigits 16 n := by
  rw [text, String.toList_ofList, Text.render_eq_toDigits (by decide)]

theorem denotes_text (n : Nat) : Denotes (text n) n := by
  refine ⟨_, Text.digits 16 n, toList_text n, Text.digits_lt (by decide) n, ?_, Text.ofDigits_digits 16 n⟩
  rw [← Text.render_eq_toDigits (by decide), Text.render, List.map_map]
  refine List.map_congr_left fun d hd => ?_
  exact Text.toLower_digitChar (Text.digits_lt (by decide) n d hd)

/-- The first digit that is written is zero for zero only, which has no other digit. -/
theorem leading_digit (n : Nat) :
    ∃ c cs, (text n).toList = '0' :: 'x' :: c :: cs ∧ (c = '0' → n = 0 ∧ cs = []) := by
  rw [toList_text]
  by_cases hn : n = 0
  · exact ⟨'0', [], by rw [hn, Nat.toDigits_zero], fun _ => ⟨hn, rfl⟩⟩
  · obtain ⟨d, ds, hds⟩ := List.exists_cons_of_ne_nil (Text.digits_ne_nil 16 n)
    have hd : d ≠ 0 := by
      rintro rfl
      exact Text.head?_digits_ne_zero (by decide) hn (congrArg List.head? hds)
    have hsmall : d < 16 := Text.digits_lt (by decide) n d (hds ▸ List.mem_cons_self)
    refine ⟨Text.digitChar d, ds.map Text.digitChar, ?_, fun hzero => ?_⟩
    · rw [← Text.render_eq_toDigits (by decide), Text.render, hds, List.map_cons]
    · exact absurd (Text.eq_zero_of_digitChar hsmall hzero) hd

end Writing

/-- A quantity of any of the three widths is read as the number of its hexadecimal digits, with any
zeros before them and letters of either case, just if the number has that width. What is written is
read back, and has no zeros in front. -/
theorem quantities_exact :
    (∀ (n zeros : Nat) (cs : List Char), cs.map Char.toLower = Nat.toDigits 16 n →
      let s := String.ofList ('0' :: 'x' :: (List.replicate zeros '0' ++ cs))
      (readDecimal s = if n < Nat.pow 2 256 then .ok (toString n) else .error (.badQuantity s)) ∧
      (read s = if n < Nat.pow 2 128 then .ok n else .error (.badQuantity s)) ∧
      (read64 s = if n < Nat.pow 2 64 then .ok n
        else .error (if n < Nat.pow 2 128 then .beyondWord s else .badQuantity s))) ∧
    (∀ n < Nat.pow 2 64, read64 (text n) = .ok n) ∧
    ∀ n, (text n).toList = '0' :: 'x' :: Nat.toDigits 16 n ∧
      ∃ c cs, (text n).toList = '0' :: 'x' :: c :: cs ∧ (c = '0' → n = 0 ∧ cs = []) := by
  refine ⟨fun n zeros cs hcs => ?_, fun n hn => ?_, fun n => ⟨toList_text n, leading_digit n⟩⟩
  · have hs := denotes_of_digits zeros hcs
    refine ⟨?_, read_of_denotes hs, read64_of_denotes hs⟩
    rw [readDecimal_of_denotes hs, Text.decimal_eq_toString]
    rfl
  · rw [read64_of_denotes (denotes_text n), if_pos hn]

/-- A number of 68 bits with seventy zeros before it, which only the narrowest width refuses. -/
theorem quantities_exact_padded :
    let cs := "aBcDeF0123456789A".toList
    let s := String.ofList ('0' :: 'x' :: (List.replicate 70 '0' ++ cs))
    cs.map Char.toLower = Nat.toDigits 16 0xabcdef0123456789a ∧
      readDecimal s = .ok "198077019822033893530" ∧ read s = .ok 198077019822033893530 ∧
      read64 s = .error (.beyondWord s) := by
  intro cs s
  have hcs : cs.map Char.toLower = Nat.toDigits 16 0xabcdef0123456789a := by decide +kernel
  obtain ⟨hdecimal, hread, hread64⟩ := quantities_exact.1 0xabcdef0123456789a 70 cs hcs
  exact ⟨hcs, hdecimal, hread, hread64⟩

end Quantity
end ChainQuery
