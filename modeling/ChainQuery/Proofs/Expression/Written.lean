import ChainQuery.Expression.Literal
import ChainQuery.Proofs.Results
import ChainQuery.Proofs.Text.Blank
import ChainQuery.Proofs.Text.Hex
import ChainQuery.Proofs.Text.Numerals
import Mathlib.Algebra.Group.Int.Defs

/-!
# Written literals

How the values of a type are written: scalars in their own form, strings in quotes with a backslash before
each quote and each backslash, and lists between brackets with commas between their elements, recursively
and with any white space around the elements. A scan for commas passes over a scalar as over one
character: it is outside of strings before and after it, and it finds no comma in it.
-/

namespace ChainQuery.Literal

open Text

def escape : List Char → List Char
  | [] => []
  | c :: cs => if c = '"' ∨ c = '\\' then '\\' :: c :: escape cs else c :: escape cs

def quote (cs : List Char) : List Char :=
  '"' :: (escape cs ++ ['"'])

/-- The ways to write a scalar: digits of bytes and addresses may have letters of either case. -/
inductive WritesScalar : ValueType → Value → List Char → Prop
  | bool (b : Bool) : WritesScalar .bool (.bool b) (Value.bool b).text.toList
  | int {i : Int} : -(2 ^ 127) ≤ i ∧ i < 2 ^ 256 →
      WritesScalar .int (Value.ofInt i) (signedDecimal i).toList
  | str (s : String) : WritesScalar .str (.str s) (quote s.toList)
  | bytes {data : List UInt8} {ds : List Char} : ds.map Char.toLower = hexChars data →
      WritesScalar .bytes (.bytes data) ('0' :: 'x' :: ds)
  | address {ds : List Char} : ds.length = 40 → (∀ d ∈ ds, (digitBelow? 16 d).isSome = true) →
      WritesScalar .address (.address (String.ofList ('0' :: 'x' :: ds))) ('0' :: 'x' :: ds)

inductive Padded (cs : List Char) : List Char → Prop
  | intro {before after : List Char} : Blank before → Blank after → Padded cs (before ++ cs ++ after)

/-- Elements with commas between them and white space around each; white space alone has none. -/
inductive Listed (W : Value → List Char → Prop) : List Value → List Char → Prop
  | nil {body : List Char} : Blank body → Listed W [] body
  | single {v : Value} {cs part : List Char} : W v cs → Padded cs part → Listed W [v] part
  | cons {v : Value} {cs part : List Char} {items : List Value} {body : List Char} :
      W v cs → Padded cs part → items ≠ [] → Listed W items body →
        Listed W (v :: items) (part ++ ',' :: body)

/-- The ways to write a value of a type, without white space around it. -/
def Writes : ValueType → Value → List Char → Prop
  | .list element, v, cs =>
    ∃ items body, v = .list items ∧ Listed (Writes element) items body ∧ cs = '[' :: (body ++ [']'])
  | type, v, cs => WritesScalar type v cs

/-- A character that is neither blank nor a mark of lists and strings. -/
def isPlain (c : Char) : Bool :=
  !isBlank c && c != ',' && c != '"' && c != '[' && c != ']'

/-- A text that a scan for commas passes over from outside of strings to outside of strings. -/
def Sealed (cs : List Char) : Prop :=
  ∀ part rest, splitFrom .outside part (cs ++ rest) = splitFrom .outside (cs.reverse ++ part) rest

variable {t : ValueType} {v : Value} {c : Char} {cs ds part before after : List Char} {s : String}

section Characters

theorem isPlain_iff : isPlain c = true ↔
    isBlank c = false ∧ c ≠ ',' ∧ c ≠ '"' ∧ c ≠ '[' ∧ c ≠ ']' := by
  simp [isPlain, and_assoc]

theorem isPlain_of_isDigit (h : c.isDigit = true) : isPlain c = true := by
  rw [isPlain_iff]
  refine ⟨isBlank_of_isDigit h, ?_, ?_, ?_, ?_⟩
  all_goals
    rintro rfl
    cases h

theorem isPlain_of_numeral {i : Int} (h : IntegerNumeral cs i) : ∀ c ∈ cs, isPlain c = true := by
  intro c hc
  obtain hdigit | rfl | rfl := h.digit_or_sign c hc
  · exact isPlain_of_isDigit hdigit
  · decide
  · decide

theorem isPlain_digitChar {d : Nat} (h : d < 16) :
    (isPlain (digitChar d) = true ∧ (digitChar d).val ≤ 127) ∧
      isPlain (digitChar d).toUpper = true ∧ (digitChar d).toUpper.val ≤ 127 := by
  decide +revert

/-- A hexadecimal digit, in either case, is plain and takes one byte. -/
theorem isPlain_of_toLower {d : Nat} (hd : d < 16) (h : c.toLower = digitChar d) :
    isPlain c = true ∧ c.val ≤ 127 := by
  obtain rfl | rfl := eq_or_of_toLower h
  · exact (isPlain_digitChar hd).1
  · exact (isPlain_digitChar hd).2

theorem isPlain_of_hexDigit (h : (digitBelow? 16 c).isSome = true) :
    isPlain c = true ∧ c.val ≤ 127 := by
  obtain ⟨d, hd⟩ := Option.isSome_iff_exists.1 h
  obtain ⟨hd, hc⟩ := toLower_of_digitBelow? hd
  exact isPlain_of_toLower hd hc

theorem isPlain_of_hexChars {data : List UInt8} (h : ds.map Char.toLower = hexChars data) :
    ∀ c ∈ ds, isPlain c = true ∧ c.val ≤ 127 := by
  intro c hc
  have hmem : c.toLower ∈ hexChars data := h ▸ List.mem_map_of_mem hc
  obtain ⟨d, hd, hlower⟩ := exists_of_mem_hexChars hmem
  exact isPlain_of_toLower hd hlower

theorem isPlain_marked (h : ∀ c ∈ ds, isPlain c = true) : ∀ c ∈ '0' :: 'x' :: ds, isPlain c = true :=
  List.forall_mem_cons.2 ⟨by decide, List.forall_mem_cons.2 ⟨by decide, h⟩⟩

end Characters

section Scans

theorem Sealed.nil : Sealed [] := fun _ _ => rfl

theorem Sealed.append (hcs : Sealed cs) (hds : Sealed ds) : Sealed (cs ++ ds) := by
  intro part rest
  rw [List.append_assoc, hcs, hds, List.reverse_append, List.append_assoc]

theorem sealed_singleton (hcomma : c ≠ ',') (hquote : c ≠ '"') : Sealed [c] := by
  intro part rest
  simp [splitFrom, hcomma, hquote]

theorem Sealed.cons (hcomma : c ≠ ',') (hquote : c ≠ '"') (h : Sealed cs) : Sealed (c :: cs) :=
  (sealed_singleton hcomma hquote).append h

theorem sealed_of_forall (h : ∀ c ∈ cs, c ≠ ',' ∧ c ≠ '"') : Sealed cs := by
  induction cs with
  | nil => exact Sealed.nil
  | cons c cs ih =>
    obtain ⟨⟨hcomma, hquote⟩, hcs⟩ := List.forall_mem_cons.1 h
    exact (ih hcs).cons hcomma hquote

theorem sealed_of_isPlain (h : ∀ c ∈ cs, isPlain c = true) : Sealed cs :=
  sealed_of_forall fun c hc =>
    have hplain := isPlain_iff.1 (h c hc)
    ⟨hplain.2.1, hplain.2.2.1⟩

theorem sealed_of_blank (h : Blank cs) : Sealed cs := by
  refine sealed_of_forall fun c hc => ?_
  have hblank := h c hc
  constructor
  all_goals
    rintro rfl
    revert hblank
    decide

/-- The scan stays in a string until a quote without a backslash. -/
theorem splitFrom_escape (part rest : List Char) :
    splitFrom .inString part (escape cs ++ rest) =
      splitFrom .inString ((escape cs).reverse ++ part) rest := by
  induction cs generalizing part with
  | nil => rfl
  | cons c cs ih =>
    rw [escape]
    split
    · simp [splitFrom, ih]
    · next hc =>
      obtain ⟨hquote, hbackslash⟩ := not_or.1 hc
      simp [splitFrom, hquote, hbackslash, ih]

theorem sealed_quote : Sealed (quote cs) := by
  intro part rest
  simp [quote, splitFrom, splitFrom_escape]

theorem unescape?_escape : unescape? (escape cs) = some cs := by
  induction cs with
  | nil => rfl
  | cons c cs ih =>
    rw [escape]
    split
    · rw [unescape?, ih, Option.map_some]
    · next hc =>
      have hbackslash := (not_or.1 hc).2
      rw [unescape?, ih, Option.map_some]
      · exact fun hc _ => hbackslash hc
      · exact fun _ _ hc _ => hbackslash hc

/-- A sealed text is one element, and what follows a comma after it are the others. -/
theorem splitFrom_sealed (h : Sealed cs) : splitFrom .outside [] cs = [cs] := by
  have hscan := h [] []
  rw [List.append_nil, List.append_nil] at hscan
  rw [hscan, splitFrom, List.reverse_reverse]

theorem splitFrom_sealed_comma (h : Sealed cs) (rest : List Char) :
    splitFrom .outside [] (cs ++ ',' :: rest) = cs :: splitFrom .outside [] rest := by
  rw [h, List.append_nil, splitFrom]
  simp

theorem inside?_enclosed {first last : Char} :
    inside? first last (first :: (cs ++ [last])) = some cs := by
  simp [inside?, dropStart?, dropLast?_append]

end Scans

section Elements

theorem Padded.sealed (h : Padded cs part) (hcs : Sealed cs) : Sealed part := by
  obtain ⟨hbefore, hafter⟩ := h
  exact ((sealed_of_blank hbefore).append hcs).append (sealed_of_blank hafter)

theorem Padded.trimBlank_eq (h : Padded cs part) : trimBlank part = trimBlank cs := by
  obtain ⟨hbefore, hafter⟩ := h
  exact trimBlank_pad hbefore hafter

theorem Padded.refl : Padded cs cs := by
  have h : Padded cs ([] ++ cs ++ []) := .intro blank_nil blank_nil
  rwa [List.nil_append, List.append_nil] at h

theorem trimBlank_of_blank (h : Blank cs) : trimBlank cs = [] := by
  have hpad : trimBlank (cs ++ [] ++ []) = trimBlank [] := trimBlank_pad h blank_nil
  rwa [List.append_nil, List.append_nil] at hpad

theorem trimBlank_enclosed {first last : Char} (hfirst : isBlank first = false)
    (hlast : isBlank last = false) :
    trimBlank (first :: (cs ++ [last])) = first :: (cs ++ [last]) :=
  trimBlank_of_ends hfirst hlast rfl (by rw [← List.cons_append, List.getLast?_concat])

theorem Sealed.closed (h : Sealed cs) : Sealed (cs ++ [']']) :=
  h.append (sealed_singleton (by decide) (by decide))

theorem Sealed.opened (h : Sealed cs) : Sealed ('[' :: cs) :=
  h.cons (by decide) (by decide)

/-- Apart from strings, scalars are written in plain characters. -/
theorem WritesScalar.quoted_or_plain (h : WritesScalar t v cs) :
    (∃ ds, cs = quote ds) ∨ cs ≠ [] ∧ ∀ c ∈ cs, isPlain c = true := by
  cases h with
  | bool b =>
    right
    cases b <;> exact ⟨by decide, List.all_eq_true.1 (by decide)⟩
  | @int i =>
    have hnumeral := numeral_signedDecimal i
    exact .inr ⟨hnumeral.ne_nil, isPlain_of_numeral hnumeral⟩
  | str s => exact .inl ⟨s.toList, rfl⟩
  | bytes hds =>
    exact .inr ⟨List.cons_ne_nil _ _, isPlain_marked fun c hc => (isPlain_of_hexChars hds c hc).1⟩
  | address hlength hds =>
    exact .inr ⟨List.cons_ne_nil _ _, isPlain_marked fun c hc => (isPlain_of_hexDigit (hds c hc)).1⟩

theorem WritesScalar.sealed (h : WritesScalar t v cs) : Sealed cs := by
  obtain ⟨ds, rfl⟩ | ⟨-, hplain⟩ := h.quoted_or_plain
  · exact sealed_quote
  · exact sealed_of_isPlain hplain

theorem Writes.ne_nil (h : Writes t v cs) : cs ≠ [] := by
  cases t with
  | list element =>
    obtain ⟨items, body, -, -, rfl⟩ := h
    exact List.cons_ne_nil _ _
  | _ =>
    obtain ⟨ds, rfl⟩ | ⟨hne, -⟩ := WritesScalar.quoted_or_plain h
    · exact List.cons_ne_nil _ _
    · exact hne

theorem Writes.trimBlank_eq (h : Writes t v cs) : trimBlank cs = cs := by
  cases t with
  | list element =>
    obtain ⟨items, body, -, -, rfl⟩ := h
    exact trimBlank_enclosed (by decide) (by decide)
  | _ =>
    obtain ⟨ds, rfl⟩ | ⟨-, hplain⟩ := WritesScalar.quoted_or_plain h
    · exact trimBlank_enclosed (by decide) (by decide)
    · exact trimBlank_of_forall fun c hc => (isPlain_iff.1 (hplain c hc)).1

theorem Writes.not_blank (h : Writes t v cs) : ¬ Blank cs := by
  intro hblank
  have htrim := h.trimBlank_eq
  rw [trimBlank_of_blank hblank] at htrim
  exact h.ne_nil htrim.symm

theorem Writes.trim_padded (h : Writes t v cs) (hpad : Padded cs part) : trimBlank part = cs := by
  rw [hpad.trimBlank_eq, h.trimBlank_eq]

end Elements

section Lists

variable {W : Value → List Char → Prop} {items : List Value} {body : List Char}

theorem Padded.not_blank (h : Padded cs part) (hcs : ¬ Blank cs) : ¬ Blank part := by
  obtain ⟨-, -⟩ := h
  intro hblank
  exact hcs fun c hc => hblank c (List.mem_append_left _ (List.mem_append_right _ hc))

theorem Listed.not_blank (h : Listed W items body) (hne : items ≠ [])
    (hW : ∀ v cs, W v cs → ¬ Blank cs) : ¬ Blank body := by
  cases h with
  | nil => exact absurd rfl hne
  | single hv hpad => exact hpad.not_blank (hW _ _ hv)
  | cons hv hpad =>
    exact fun hblank =>
      hpad.not_blank (hW _ _ hv) fun c hc => hblank c (List.mem_append_left _ hc)

/-- Between the commas of a list stand its elements, if each is passed over by the scan for commas. -/
theorem Listed.forall₂_splitFrom (h : Listed W items body) (hne : items ≠ [])
    (hW : ∀ v ∈ items, ∀ cs, W v cs → Sealed cs) :
    List.Forall₂ (fun v part => ∃ cs, W v cs ∧ Padded cs part) items
      (splitFrom .outside [] body) := by
  induction h with
  | nil => exact absurd rfl hne
  | @single v cs part hv hpad =>
    rw [splitFrom_sealed (hpad.sealed (hW v List.mem_cons_self cs hv))]
    exact .cons ⟨cs, hv, hpad⟩ .nil
  | @cons v cs part items body hv hpad hitems _ ih =>
    rw [splitFrom_sealed_comma (hpad.sealed (hW v List.mem_cons_self cs hv))]
    exact .cons ⟨cs, hv, hpad⟩ (ih hitems fun v hv => hW v (List.mem_cons_of_mem _ hv))

theorem elements_of_not_blank (h : ¬ Blank body) : elements body = splitFrom .outside [] body :=
  if_neg fun hall => h (List.all_eq_true.1 hall)

theorem Listed.forall₂_elements (h : Listed W items body) (hW : ∀ v cs, W v cs → ¬ Blank cs)
    (hsealed : ∀ v ∈ items, ∀ cs, W v cs → Sealed cs) :
    List.Forall₂ (fun v part => ∃ cs, W v cs ∧ Padded cs part) items (elements body) := by
  by_cases hne : items = []
  · subst hne
    cases h with
    | nil hblank =>
      rw [elements, if_pos hblank.all]
      exact .nil
  · rw [elements_of_not_blank (h.not_blank hne hW)]
    exact h.forall₂_splitFrom hne hsealed

end Lists
end ChainQuery.Literal
