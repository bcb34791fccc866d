import ChainQuery.Proofs.Expression.IntegerTexts
import ChainQuery.Proofs.Expression.Names
import ChainQuery.Proofs.Expression.Written

/-!
# Literals read back

What is written of a scalar, or of a list of scalars of one type, is read at that type as the same value,
whatever the strings hold and whatever white space stands around the elements. The type of the text can
also be told without being given, but for lists without elements and for byte strings that are as long as
addresses.
-/

namespace ChainQuery.Literal

open Text

variable {t : ValueType} {v : Value} {i : Int} {items : List Value} {cs ds text body : List Char}

section Reading

theorem dropStart?_hexMark : dropStart? ['0', 'x'] ('0' :: 'x' :: ds) = some ds := rfl

theorem scalar?_of_writes (h : WritesScalar t v cs) : scalar? t cs = some v := by
  cases h with
  | bool b => cases b <;> rfl
  | @int i hrange =>
    exact scalar?_int_eq_some.2 (.inl ⟨i, numeral_signedDecimal i, hrange, rfl⟩)
  | str s =>
    rw [scalar?, quote, inside?_enclosed, Option.bind_some, unescape?_escape, Option.map_some,
      String.ofList_toList]
  | bytes hds =>
    rw [scalar?, dropStart?_hexMark, Option.bind_some, readHex?_of_toLower hds, Option.map_some]
  | @address ds hlength hds =>
    rw [scalar?, dropStart?_hexMark, Option.bind_some, if_pos ⟨hlength, List.all_eq_true.2 hds⟩]

theorem read_scalar (h : WritesScalar t v cs) (htrim : trimBlank text = cs) :
    read t text = .ok v := by
  have hread := scalar?_of_writes h
  rw [← htrim] at hread
  cases h <;> simp only [read, hread]

theorem read_brackets (htrim : trimBlank text = '[' :: (body ++ [']'])) :
    read (.list t) text = ((elements body).mapM (read t)).map .list := by
  rw [read, htrim, inside?_enclosed]

/-- A list is read if each of its elements is read wherever it stands. -/
theorem mapM_read_of_listed (h : Listed (Writes t) items body)
    (hsealed : ∀ v ∈ items, ∀ cs, Writes t v cs → Sealed cs)
    (hread : ∀ v ∈ items, ∀ cs part, Writes t v cs → Padded cs part → read t part = .ok v) :
    (elements body).mapM (read t) = .ok items := by
  have hparts := h.forall₂_elements (fun _ _ hv => hv.not_blank) hsealed
  have hall := (List.forall₂_and_left items _).2 ⟨hread, hparts⟩
  exact except_mapM_eq_ok.2 (hall.imp fun v part ⟨hread, cs, hv, hpad⟩ => hread cs part hv hpad).flip

def isFlat : ValueType → Bool
  | .list (.list _) => false
  | _ => true

/-- The elements of a list of a flat type are scalars. -/
theorem Writes.scalar_of_flat (h : Writes t v cs) (hflat : isFlat (.list t) = true) :
    WritesScalar t v cs := by
  cases t with
  | list => cases hflat
  | _ => exact h

end Reading

section Inference

theorem looksInteger_of_numeral (h : IntegerNumeral cs i) (hplus : cs.head? ≠ some '+') :
    looksInteger cs = true := by
  have hlooks {ds : List Char} {n : Nat} (hrun : DigitRun ds n) :
      (!ds.isEmpty && ds.all Char.isDigit) = true := by
    simpa [hrun.1] using hrun.2.1
  cases h with
  | plus => exact absurd rfl hplus
  | @minus ds _ hrun =>
    have hdropped : dropStart? ['-'] ('-' :: ds) = some ds := rfl
    rw [looksInteger, hdropped, Option.getD_some]
    exact hlooks hrun
  | plain hrun =>
    rw [looksInteger, getD_dropStart?_of_head?_ne (hrun.head?_ne (.inr rfl))]
    exact hlooks hrun

theorem head?_signedDecimal (i : Int) : (signedDecimal i).toList.head? ≠ some '+' := by
  cases i with
  | ofNat n =>
    obtain ⟨c, cs, hc, hplus, -⟩ := render_eq_cons n
    rw [signedDecimal, toList_decimal, hc, List.head?_cons]
    exact fun h => hplus (Option.some.inj h)
  | negSucc n =>
    rw [signedDecimal, String.toList_ofList, List.head?_cons]
    decide

theorem utf8ByteSize_ofList (h : ∀ c ∈ cs, c.val ≤ 127) : (String.ofList cs).utf8ByteSize = cs.length := by
  induction cs with
  | nil => rfl
  | cons c cs ih =>
    obtain ⟨hc, hcs⟩ := List.forall_mem_cons.1 h
    rw [String.ofList_cons, String.utf8ByteSize_append, String.utf8ByteSize_singleton,
      Char.utf8Size_eq_one_iff.2 hc, ih hcs, List.length_cons, Nat.add_comm]

theorem inferFrom?_succ (depth : Nat) (htrim : trimBlank text = cs) :
    inferFrom? (depth + 1) text =
      if cs = "true".toList ∨ cs = "false".toList then some .bool
      else if cs.head? = some '"' then some .str
      else
        match dropStart? ['0', 'x'] cs, inside? '[' ']' cs with
        | some ds, _ => if (String.ofList ds).utf8ByteSize = 40 then some .address else some .bytes
        | none, some body =>
          (elements body).head?.bind fun first => (inferFrom? depth first).map .list
        | none, none => if looksInteger cs then some .int else none := by
  subst htrim
  rfl

theorem not_flag {c : Char} (ht : c ≠ 't') (hf : c ≠ 'f') :
    ¬ (c :: cs = "true".toList ∨ c :: cs = "false".toList) := by
  have htrue : "true".toList.head? = some 't' := by decide
  have hfalse : "false".toList.head? = some 'f' := by decide
  rintro (h | h)
  · rw [← h] at htrue
    exact ht (Option.some.inj htrue)
  · rw [← h] at hfalse
    exact hf (Option.some.inj hfalse)

theorem inferFrom?_bool {b : Bool} (depth : Nat) (htrim : trimBlank text = (Value.bool b).text.toList) :
    inferFrom? (depth + 1) text = some .bool := by
  rw [inferFrom?_succ depth htrim, if_pos]
  cases b <;> simp [Value.text]

theorem inferFrom?_quote (depth : Nat) (htrim : trimBlank text = quote cs) :
    inferFrom? (depth + 1) text = some .str := by
  rw [inferFrom?_succ depth htrim, quote, if_neg (not_flag (by decide) (by decide)),
    if_pos List.head?_cons]

/-- A text of bytes passes for an address exactly if it has as many digits as one. -/
theorem inferFrom?_hex (depth : Nat) (htrim : trimBlank text = '0' :: 'x' :: ds)
    (hds : ∀ c ∈ ds, c.val ≤ 127) :
    inferFrom? (depth + 1) text = some (if ds.length = 40 then .address else .bytes) := by
  have hquote : ('0' :: 'x' :: ds).head? ≠ some '"' := by
    rw [List.head?_cons]
    decide
  rw [inferFrom?_succ depth htrim, if_neg (not_flag (by decide) (by decide)), if_neg hquote,
    dropStart?_hexMark]
  simp only [utf8ByteSize_ofList hds]
  split <;> rfl

theorem inferFrom?_numeral (depth : Nat) (hcs : IntegerNumeral cs i) (hplus : cs.head? ≠ some '+')
    (htrim : trimBlank text = cs) : inferFrom? (depth + 1) text = some .int := by
  have hlooks := looksInteger_of_numeral hcs hplus
  have hfree (c : Char) (h : c.isDigit = false ∧ c ≠ '+' ∧ c ≠ '-') : c ∉ cs :=
    hcs.not_mem h.1 h.2.1 h.2.2
  have hquote : cs.head? ≠ some '"' := fun h => hfree '"' (by decide) (List.mem_of_head? h)
  have hmark : dropStart? ['0', 'x'] cs = none := by
    refine Option.eq_none_iff_forall_ne_some.2 fun ds hds => hfree 'x' (by decide) ?_
    rw [eq_append_of_dropStart? hds]
    simp
  have hbracket : inside? '[' ']' cs = none := by
    refine Option.bind_eq_none_iff.2 fun ds hds => absurd ?_ (hfree '[' (by decide))
    rw [eq_append_of_dropStart? hds]
    simp
  obtain ⟨c, ds, rfl⟩ := List.exists_cons_of_ne_nil hcs.ne_nil
  have ht : c ≠ 't' := by
    rintro rfl
    exact hfree 't' (by decide) List.mem_cons_self
  have hf : c ≠ 'f' := by
    rintro rfl
    exact hfree 'f' (by decide) List.mem_cons_self
  rw [inferFrom?_succ depth htrim, if_neg (not_flag ht hf), if_neg hquote, hmark, hbracket]
  simp only [hlooks, if_true]

/-- The type of a written scalar is told from its text, unless its bytes are as many as an address has. -/
theorem inferFrom?_scalar (h : WritesScalar t v cs) (hshort : ∀ data, v = .bytes data → data.length ≠ 20)
    (htrim : trimBlank text = cs) (depth : Nat) : inferFrom? (depth + 1) text = some t := by
  cases h with
  | bool b => exact inferFrom?_bool depth htrim
  | @int i =>
    exact inferFrom?_numeral depth (numeral_signedDecimal i) (head?_signedDecimal i) htrim
  | str s => exact inferFrom?_quote depth htrim
  | @bytes data ds hds =>
    have hlength : ds.length = 2 * data.length := by
      rw [← length_hexChars, ← hds, List.length_map]
    have hneq := hshort data rfl
    rw [inferFrom?_hex depth htrim fun c hc => (isPlain_of_hexChars hds c hc).2, if_neg (by omega)]
  | address hlength hds =>
    rw [inferFrom?_hex depth htrim fun c hc => (isPlain_of_hexDigit (hds c hc)).2, if_pos hlength]

/-- The type of a list is that of its first element. -/
theorem inferFrom?_brackets {first : List Char} {depth : Nat}
    (htrim : trimBlank text = '[' :: (body ++ [']'])) (hfirst : (elements body).head? = some first)
    (ht : inferFrom? depth first = some t) : inferFrom? (depth + 1) text = some (.list t) := by
  have hquote : ('[' :: (body ++ [']'])).head? ≠ some '"' := by
    rw [List.head?_cons]
    decide
  have hmark : dropStart? ['0', 'x'] ('[' :: (body ++ [']'])) = none := by simp [dropStart?]
  rw [inferFrom?_succ depth htrim, if_neg (not_flag (by decide) (by decide)), if_neg hquote, hmark,
    inside?_enclosed]
  simp only [hfirst, Option.bind_some, ht, Option.map_some]

/-- The first element of a list stands before its first comma. -/
theorem exists_first_element (h : Listed (Writes t) (v :: items) body)
    (hsealed : ∀ w ∈ v :: items, ∀ cs, Writes t w cs → Sealed cs) :
    ∃ cs part, (elements body).head? = some part ∧ Writes t v cs ∧ Padded cs part := by
  have hparts := h.forall₂_elements (fun _ _ hv => hv.not_blank) hsealed
  obtain ⟨part, parts, ⟨cs, hv, hpad⟩, -, helements⟩ := List.forall₂_cons_left_iff.1 hparts
  exact ⟨cs, part, by rw [helements, List.head?_cons], hv, hpad⟩

end Inference

section Flat

variable {element : ValueType}

theorem sealed_of_flat (hflat : isFlat (.list element) = true) :
    ∀ w ∈ items, ∀ cs, Writes element w cs → Sealed cs :=
  fun _ _ _ hw => (hw.scalar_of_flat hflat).sealed

theorem read_flat (h : Writes t v cs) (hflat : isFlat t = true) (hpad : Padded cs text) :
    read t text = .ok v := by
  have htrim := h.trim_padded hpad
  cases t with
  | list element =>
    obtain ⟨items, body, rfl, hlisted, rfl⟩ := h
    rw [read_brackets htrim, mapM_read_of_listed hlisted (sealed_of_flat hflat)]
    · rfl
    · exact fun w _ cs part hw hpart => read_scalar (hw.scalar_of_flat hflat) (hw.trim_padded hpart)
  | _ => exact read_scalar h htrim

theorem infer?_flat (h : Writes t v cs) (hflat : isFlat t = true) (hpad : Padded cs text)
    (hempty : v ≠ .list []) (hshort : ∀ data, .bytes data ∈ v.elements → data.length ≠ 20) :
    infer? text = some t := by
  have htrim := h.trim_padded hpad
  cases t with
  | list element =>
    obtain ⟨items, body, rfl, hlisted, rfl⟩ := h
    obtain ⟨first, items, rfl⟩ := List.exists_cons_of_ne_nil fun h => hempty (congrArg Value.list h)
    obtain ⟨cs, part, hhead, hfirst, hpart⟩ :=
      exists_first_element hlisted (sealed_of_flat hflat)
    have hinner (depth : Nat) : inferFrom? (depth + 1) part = some element := by
      refine inferFrom?_scalar (hfirst.scalar_of_flat hflat) ?_ (hfirst.trim_padded hpart) depth
      rintro data rfl
      exact hshort data List.mem_cons_self
    -- the text of a list is not empty, so the depth that is left suffices for the first element
    cases text with
    | nil => cases htrim
    | cons c text => exact inferFrom?_brackets htrim hhead (hinner text.length)
  | _ =>
    refine inferFrom?_scalar h ?_ htrim text.length
    rintro data rfl
    exact hshort data List.mem_cons_self

end Flat

/-- What is written of a scalar or of a list of scalars is read as the same value, and its type is told
from the text alone, unless it is a list without elements or has bytes that are as many as those of an
address. -/
theorem written_literal_round_trip (h : Writes t v cs) (hflat : isFlat t = true) (hpad : Padded cs text) :
    read t text = .ok v ∧
      (v ≠ .list [] → (∀ data, .bytes data ∈ v.elements → data.length ≠ 20) →
        infer? text = some t) :=
  ⟨read_flat h hflat hpad, infer?_flat h hflat hpad⟩

/-- A string that holds a bracket, a comma and a quote is read back from a list. -/
theorem written_string_round_trip :
    read (.list .str) "[\"],\\\"\"]".toList = .ok (.list [.str "],\""]) ∧
      infer? "[\"],\\\"\"]".toList = some (.list .str) := by
  have hitems : Listed (Writes .str) [.str "],\""] "\"],\\\"\"".toList := .single (.str "],\"") .refl
  have hlist : Writes (.list .str) (.list [.str "],\""]) "[\"],\\\"\"]".toList :=
    ⟨_, _, rfl, hitems, rfl⟩
  obtain ⟨hread, hinfer⟩ := written_literal_round_trip hlist rfl .refl
  exact ⟨hread, hinfer (by simp) (by simp [Value.elements])⟩

end ChainQuery.Literal
