import ChainQuery.Text.Ascii

/-!
# White space

The characters with the Unicode property `White_Space`, and the removal of them at both ends of a
text. Nothing else in a query text is skipped.
-/

namespace ChainQuery.Text

/-- A character with the property `White_Space`. -/
def isBlank (c : Char) : Bool :=
  let n := c.toNat
  (9 ≤ n && n ≤ 13) || n == 0x20 || n == 0x85 || n == 0xA0 || n == 0x1680 ||
    (0x2000 ≤ n && n ≤ 0x200A) || n == 0x2028 || n == 0x2029 || n == 0x202F || n == 0x205F ||
    n == 0x3000

def trimBlank (cs : List Char) : List Char :=
  ((cs.dropWhile isBlank).reverse.dropWhile isBlank).reverse

def trim (s : String) : String :=
  String.ofList (trimBlank s.toList)

theorem length_dropWhile_le (p : α → Bool) (cs : List α) : (cs.dropWhile p).length ≤ cs.length :=
  (List.dropWhile_suffix p).length_le

theorem length_trimBlank_le (cs : List Char) : (trimBlank cs).length ≤ cs.length := by
  unfold trimBlank
  have h1 := length_dropWhile_le isBlank cs
  have h2 := length_dropWhile_le isBlank (cs.dropWhile isBlank).reverse
  simp only [List.length_reverse] at *
  omega

end ChainQuery.Text
