import ChainQuery.Abi.Parameter
import ChainQuery.Proofs.Text.Blank
import ChainQuery.Proofs.Text.Decimal

/-!
# Contract types as declared types

The type that a query declares for a parameter is read off the name of its contract type. Integers
of all widths are integers, byte strings of all sizes are byte strings, a list is a list of what its
members are, and the names of tuples and of the function type stand for no declared type.
-/

namespace ChainQuery

namespace ValueType

variable {cs rest front word : List Char}

theorem ofReversed?_brackets (h : Text.trimBlank cs = ']' :: rest)
    (hw : rest.dropWhile Char.isDigit = '[' :: front) :
    ofReversed? cs = (ofReversed? front).map list := by
  rw [ofReversed?]
  split
  · next rest' hrest =>
    obtain rfl : rest' = rest := by simpa [h] using hrest.symm
    split
    · next front' hfront =>
      obtain rfl : front' = front := by simpa [hw] using hfront.symm
      rfl
    · next hno => exact absurd hw (hno front)
  · next hno => exact absurd h (hno rest)

theorem ofReversed?_word (h : Text.trimBlank cs = word) (hw : word.head? ≠ some ']') :
    ofReversed? cs = ofWord? word.reverse := by
  rw [ofReversed?]
  split
  · next rest hrest =>
    rw [← h, hrest] at hw
    exact absurd rfl hw
  · rw [h]

end ValueType

namespace AbiType

def keywordType? : AbiType → Option ValueType
  | bool => some .bool
  | int _ => some .int
  | uint _ => some .int
  | fixedBytes _ => some .bytes
  | address => some .address
  | function => none
  | bytes => some .bytes
  | string => some .str
  | array element => element.keywordType?.map .list
  | fixedArray element _ => element.keywordType?.map .list
  | tuple _ => none

def declared (t : AbiType) : ValueType :=
  t.keywordType?.getD .any

theorem name_tuple (fields : List AbiType) :
    ∃ middle : List Char, (tuple fields).name.toList = '(' :: (middle ++ [')']) := by
  match fields with
  | [] => exact ⟨[], by simp [name, names]⟩
  | [field] => exact ⟨field.name.toList ++ [','], by simp [name]⟩
  | field :: next :: fields =>
    exact ⟨(",".intercalate (names (field :: next :: fields))).toList, by simp [name]⟩

theorem head?_name : ∀ t : AbiType, ∃ c, t.name.toList.head? = some c ∧ Text.isBlank c = false
  | array element | fixedArray element _ => by
    obtain ⟨c, hc, hblank⟩ := head?_name element
    exact ⟨c, by simp [name, hc], hblank⟩
  | tuple fields => by
    obtain ⟨middle, h⟩ := name_tuple fields
    exact ⟨'(', by rw [h]; rfl, by decide⟩
  | bool | address | function | bytes | string => ⟨_, rfl, by decide⟩
  | int _ | uint _ | fixedBytes _ => by
    refine ⟨_, by rw [name, String.toList_append]; rfl, by decide⟩

theorem trimBlank_name {t : AbiType} {c : Char} (hc : Text.isBlank c = false)
    (h : t.name.toList.reverse.head? = some c) :
    Text.trimBlank t.name.toList.reverse = t.name.toList.reverse := by
  obtain ⟨d, hd, hblank⟩ := head?_name t
  exact Text.trimBlank_of_ends hc hblank h (by rw [List.getLast?_reverse, hd])

/-- The name of a type without brackets is read as one word. -/
theorem ofReversed?_name_word {t : AbiType} {c : Char} (hc : Text.isBlank c = false)
    (h : t.name.toList.reverse.head? = some c) (hword : c ≠ ']') :
    ValueType.ofReversed? t.name.toList.reverse = ValueType.ofWord? t.name.toList := by
  rw [ValueType.ofReversed?_word (trimBlank_name hc h) (by simpa [h] using hword),
    List.reverse_reverse]

theorem isBlank_of_isDigit {c : Char} (h : c.isDigit = true) :
    Text.isBlank c = false ∧ c ≠ ']' := by
  refine ⟨Text.isBlank_of_isDigit h, ?_⟩
  rintro rfl
  cases h

theorem ofWord?_sized {stem : List Char} {n : Nat} {t : ValueType}
    (hstem : (stem = "uint".toList ∨ stem = "int".toList) ∧ t = .int ∨
      stem = "bytes".toList ∧ t = .bytes) :
    ValueType.ofWord? (stem ++ Text.render 10 n) = some t := by
  obtain ⟨d, ds, hds⟩ := List.exists_cons_of_ne_nil (Text.render_ne_nil n)
  have hdigits : ∀ c ∈ d :: ds, c.isDigit = true := fun c hc =>
    Text.isDigit_of_mem_render (hds ▸ hc)
  have hall : (d :: ds).all Char.isDigit = true := by simpa using hdigits
  rw [hds]
  rcases hstem with ⟨rfl | rfl, rfl⟩ | ⟨rfl, rfl⟩ <;>
    simp_all [ValueType.ofWord?, ValueType.isSized, Text.dropStart?]

theorem ofReversed?_name_sized {t : AbiType} {stem : List Char} {n : Nat}
    (hname : t.name.toList = stem ++ Text.render 10 n) :
    ValueType.ofReversed? t.name.toList.reverse = ValueType.ofWord? (stem ++ Text.render 10 n) := by
  have hne : (Text.render 10 n).reverse ≠ [] := by simpa using Text.render_ne_nil n
  obtain ⟨c, cs, hcs⟩ := List.exists_cons_of_ne_nil hne
  have hmem : c ∈ Text.render 10 n := by
    rw [← List.mem_reverse, hcs]
    exact List.mem_cons_self
  obtain ⟨hblank, hbracket⟩ := isBlank_of_isDigit (Text.isDigit_of_mem_render hmem)
  have hhead : t.name.toList.reverse.head? = some c := by
    rw [hname, List.reverse_append, hcs]
    rfl
  rw [ofReversed?_name_word hblank hhead hbracket, hname]

theorem dropWhile_digits (n : Nat) (cs : List Char) :
    ((Text.render 10 n).reverse ++ '[' :: cs).dropWhile Char.isDigit = '[' :: cs := by
  rw [List.dropWhile_append_of_pos]
  · rfl
  · intro c hc
    exact Text.isDigit_of_mem_render (List.mem_reverse.1 hc)

theorem ofReversed?_name : ∀ t : AbiType,
    ValueType.ofReversed? t.name.toList.reverse = t.keywordType?
  | array element => by
    have hhead : (array element).name.toList.reverse = ']' :: '[' :: element.name.toList.reverse := by
      simp [name]
    have htrim := trimBlank_name (t := array element) (c := ']') (by decide) (by rw [hhead]; rfl)
    rw [ValueType.ofReversed?_brackets (htrim.trans hhead) rfl, ofReversed?_name element]
    rfl
  | fixedArray element length => by
    have hhead : (fixedArray element length).name.toList.reverse =
        ']' :: ((Text.render 10 length).reverse ++ '[' :: element.name.toList.reverse) := by
      simp [name, Text.toList_decimal]
    have htrim := trimBlank_name (t := fixedArray element length) (c := ']') (by decide)
      (by rw [hhead]; rfl)
    rw [ValueType.ofReversed?_brackets (htrim.trans hhead) (dropWhile_digits _ _),
      ofReversed?_name element]
    rfl
  | tuple fields => by
    obtain ⟨middle, h⟩ := name_tuple fields
    rw [ofReversed?_name_word (c := ')') (by decide) (by rw [h]; simp) (by decide), h]
    simp [ValueType.ofWord?, ValueType.isSized, Text.dropStart?, keywordType?]
  | bool | address | function | bytes | string => by
    rw [ofReversed?_name_word (by decide) rfl (by decide)]
    decide
  | int bits => by
    have hname : (int bits).name.toList = "int".toList ++ Text.render 10 bits := by
      simp [name, Text.toList_decimal]
    rw [ofReversed?_name_sized hname]
    exact ofWord?_sized (.inl ⟨.inr rfl, rfl⟩)
  | uint bits => by
    have hname : (uint bits).name.toList = "uint".toList ++ Text.render 10 bits := by
      simp [name, Text.toList_decimal]
    rw [ofReversed?_name_sized hname]
    exact ofWord?_sized (.inl ⟨.inl rfl, rfl⟩)
  | fixedBytes size => by
    have hname : (fixedBytes size).name.toList = "bytes".toList ++ Text.render 10 size := by
      simp [name, Text.toList_decimal]
    rw [ofReversed?_name_sized hname]
    exact ofWord?_sized (.inr ⟨rfl, rfl⟩)

end AbiType

theorem Parameter.valueType_eq (p : Parameter) : p.valueType = p.type.declared := by
  rw [valueType, ValueType.ofKeyword?, AbiType.ofReversed?_name, AbiType.declared]

end ChainQuery
