import ChainQuery.Abi.Address
import ChainQuery.Proofs.Text.Hex

/-!
# Texts of addresses

A text is read as an address exactly when it has the digits of twenty bytes, with letters of either
case, and before them a mark or nothing. The text with the checksum is such a text, because the checksum
decides the case of the letters only.
-/

namespace ChainQuery

theorem length_keccak256 (message : List UInt8) : (keccak256 message).length = 32 := by
  simp [keccak256, Keccak.wordBytes, List.map_const']

namespace Abi

/-- The texts that name an address. -/
def SpellsAddress (s : String) (raw : List UInt8) : Prop :=
  raw.length = 20 ∧ ∃ mark ∈ ["", "0x", "0X"], ∃ cs,
    s.toList = mark.toList ++ cs ∧ cs.map Char.toLower = Text.hexChars raw

variable {s : String} {raw : List UInt8}

theorem dropAddressMark_of_toLower {cs : List Char} (h : cs.map Char.toLower = Text.hexChars raw) :
    dropAddressMark cs = cs := by
  have hread := Text.readHex?_eq_some.2 h
  unfold dropAddressMark
  split
  · cases hread
  · cases hread
  · rfl

theorem spellsAddress_of_readAddress? (h : readAddress? s = some raw) : SpellsAddress s raw := by
  obtain ⟨hread, hlength⟩ := Option.filter_eq_some_iff.1 h
  refine ⟨by simpa using hlength, ?_⟩
  unfold dropAddressMark at hread
  split at hread
  · next cs hs => exact ⟨"0x", by simp, cs, hs, Text.readHex?_eq_some.1 hread⟩
  · next cs hs => exact ⟨"0X", by simp, cs, hs, Text.readHex?_eq_some.1 hread⟩
  · exact ⟨"", by simp, s.toList, rfl, Text.readHex?_eq_some.1 hread⟩

theorem readAddress?_of_spells (h : SpellsAddress s raw) : readAddress? s = some raw := by
  obtain ⟨hlength, mark, hmark, cs, hs, hcs⟩ := h
  have hdrop : dropAddressMark s.toList = cs := by
    rw [hs]
    simp only [List.mem_cons, List.not_mem_nil, or_false] at hmark
    rcases hmark with rfl | rfl | rfl
    · exact dropAddressMark_of_toLower hcs
    · rfl
    · rfl
  rw [readAddress?, hdrop, Text.readHex?_eq_some.2 hcs, Option.filter_some, if_pos (by simp [hlength])]

theorem length_halfBytes (bytes : List UInt8) : (halfBytes bytes).length = 2 * bytes.length := by
  induction bytes with
  | nil => rfl
  | cons b bytes ih =>
    rw [halfBytes, List.flatMap_cons, List.length_append, ← halfBytes, ih, List.length_cons]
    exact Nat.add_comm 2 (2 * bytes.length)

/-- The checksum changes the case of letters and nothing else. -/
theorem spellsAddress_checksumText (h : raw.length = 20) : SpellsAddress (checksumText raw) raw := by
  refine ⟨h, "0x", by simp, _, String.toList_ofList, ?_⟩
  rw [List.map_map]
  have hcase : ∀ p ∈ (Text.hexChars raw).zip
      (halfBytes (keccak256 (Text.utf8 (String.ofList (Text.hexChars raw))))),
      (if 8 ≤ p.2 then p.1.toUpper else p.1).toLower = p.1 := by
    intro p hp
    obtain ⟨d, hd, hdigit⟩ := Text.exists_of_mem_hexChars (List.of_mem_zip hp).1
    rw [hdigit]
    split
    · exact Text.toLower_toUpper_digitChar hd
    · exact Text.toLower_digitChar hd
  refine (List.map_congr_left hcase).trans (List.map_fst_zip ?_)
  rw [Text.length_hexChars, length_halfBytes, length_keccak256, h]
  decide

end Abi
end ChainQuery
