import ChainQuery.Proofs.Expression.Literals
import Mathlib.Data.List.DropRight

/-!
# Lists of lists

The scan for the commas of a list knows strings but no brackets, so it also splits at the commas of inner
lists. A list of lists is therefore read back only if none of its inner lists, at any depth, has two
elements. Otherwise the text up to the first comma of such a list is taken for an element. More brackets
are opened in that text than closed, and whatever type it is read at, the reading fails: as a list it ends
in no bracket, or the text between its brackets is again one of this kind.
-/

namespace ChainQuery

/-- No list in a value has two elements, at any depth. -/
def Value.isNarrow : Value → Bool
  | .list [] => true
  | .list [item] => item.isNarrow
  | .list (_ :: _ :: _) => false
  | _ => true

namespace Literal

open Text

variable {t : ValueType} {v : Value} {items : List Value} {cs text part body before after : List Char}

/-- The texts that open one bracket more than they close: what stands before the first comma of a list. -/
inductive Unclosed : List Char → Prop
  | blank {before : List Char} : Blank before → Unclosed ('[' :: before)
  | scalar {t : ValueType} {v : Value} {cs part : List Char} :
      WritesScalar t v cs → Padded cs part → Unclosed ('[' :: part)
  | opened {cs part : List Char} : Unclosed cs → Padded cs part → Unclosed ('[' :: part)
  | closed {cs part : List Char} : Unclosed cs → Padded (cs ++ [']']) part → Unclosed ('[' :: part)

section Narrow

theorem isNarrow_of_mem_elements (h : v.isNarrow = true) : ∀ item ∈ v.elements, item.isNarrow = true := by
  match v, h with
  | .list [], _ => exact nofun
  | .list [item], h => exact fun _ hx => List.mem_singleton.1 hx ▸ h
  | .null, h | .bool _, h | .int _, h | .bigInt _, h | .str _, h | .bytes _, h | .address _, h =>
    exact fun _ hx => List.mem_singleton.1 hx ▸ h

theorem WritesScalar.isNarrow (h : WritesScalar t v cs) : v.isNarrow = true := by
  cases h with
  | int =>
    rw [Value.ofInt]
    split <;> rfl
  | _ => rfl

/-- Between the brackets of a narrow list stands white space, or one narrow element. -/
theorem Listed.cases_of_isNarrow {W : Value → List Char → Prop} (h : Listed W items body)
    (hnarrow : (Value.list items).isNarrow = true) :
    Blank body ∨ ∃ item cs, W item cs ∧ item.isNarrow = true ∧ Padded cs body := by
  cases h with
  | nil hblank => exact .inl hblank
  | single hitem hpad => exact .inr ⟨_, _, hitem, hnarrow, hpad⟩
  | cons _ _ hne =>
    obtain ⟨w, items, rfl⟩ := List.exists_cons_of_ne_nil hne
    cases hnarrow

/-- A narrow value is written without a comma outside of strings. -/
theorem Writes.sealed_of_isNarrow (h : Writes t v cs) (hnarrow : v.isNarrow = true) : Sealed cs := by
  induction t generalizing v cs with
  | list element ih =>
    obtain ⟨items, body, rfl, hlisted, rfl⟩ := h
    refine Sealed.opened (Sealed.closed ?_)
    obtain hblank | ⟨item, part, hitem, hnarrow, hpad⟩ := hlisted.cases_of_isNarrow hnarrow
    · exact sealed_of_blank hblank
    · exact hpad.sealed (ih hitem hnarrow)
  | _ => exact WritesScalar.sealed h

/-- A list, of any depth, is read back if its elements are narrow. -/
theorem read_of_narrow (h : Writes t v cs) (hnarrow : ∀ item ∈ v.elements, item.isNarrow = true)
    (hpad : Padded cs text) : read t text = .ok v := by
  have htrim := h.trim_padded hpad
  induction t generalizing v cs text with
  | list element ih =>
    obtain ⟨items, body, rfl, hlisted, rfl⟩ := h
    rw [read_brackets htrim, mapM_read_of_listed hlisted]
    · rfl
    · exact fun item hitem cs hcs => hcs.sealed_of_isNarrow (hnarrow item hitem)
    · exact fun item hitem cs part hcs hpart =>
        ih hcs (isNarrow_of_mem_elements (hnarrow item hitem)) hpart (hcs.trim_padded hpart)
  | _ => exact read_scalar h htrim

end Narrow

section Unclosed

theorem Unclosed.sealed (h : Unclosed cs) : Sealed cs := by
  induction h with
  | blank hblank => exact (sealed_of_blank hblank).opened
  | scalar hs hpad => exact (hpad.sealed hs.sealed).opened
  | opened _ hpad ih => exact (hpad.sealed ih).opened
  | closed _ hpad ih => exact (hpad.sealed ih.closed).opened

/-- A bracket before a narrow value is not closed in it. -/
theorem unclosed_of_isNarrow (h : Writes t v cs) (hnarrow : v.isNarrow = true) (hpad : Padded cs part) :
    Unclosed ('[' :: part) := by
  induction t generalizing v cs part with
  | list element ih =>
    obtain ⟨items, body, rfl, hlisted, rfl⟩ := h
    have hinner : Unclosed ('[' :: body) := by
      obtain hblank | ⟨item, inner, hitem, hnarrow, hpad⟩ := hlisted.cases_of_isNarrow hnarrow
      · exact .blank hblank
      · exact ih hitem hnarrow hpad
    exact .closed hinner hpad
  | _ => exact .scalar h hpad

/-- Before the first comma of a value that is not narrow stands a text with an unclosed bracket. -/
theorem exists_unclosed (h : Writes t v cs) (hwide : v.isNarrow = false) (hpad : Padded cs part) :
    ∃ front piece rest, Unclosed front ∧ Padded front piece ∧ part = piece ++ ',' :: rest := by
  induction t generalizing v cs part with
  | list element ih =>
    obtain ⟨items, body, rfl, hlisted, rfl⟩ := h
    obtain @⟨before, after, hbefore, hafter⟩ := hpad
    -- a comma in the list is one of the text, and the bracket of the list stands before it
    have hcomma {piece rest : List Char} (hopen : Unclosed ('[' :: piece))
        (hbody : body = piece ++ ',' :: rest) : ∃ front piece rest', Unclosed front ∧
          Padded front piece ∧
            before ++ '[' :: (body ++ [']']) ++ after = piece ++ ',' :: rest' :=
      ⟨'[' :: piece, before ++ '[' :: piece ++ [], rest ++ [']'] ++ after, hopen,
        .intro hbefore blank_nil, by simp [hbody]⟩
    cases hlisted with
    | nil => cases hwide
    | single hitem hpad =>
      obtain ⟨front, piece, rest, hfront, hpiece, hpart⟩ := ih hitem hwide hpad
      exact hcomma (.opened hfront hpiece) hpart
    | @cons item _ part items body hitem hpad =>
      cases hnarrow : item.isNarrow with
      | true => exact hcomma (unclosed_of_isNarrow hitem hnarrow hpad) rfl
      | false =>
        obtain ⟨front, piece, rest, hfront, hpiece, rfl⟩ := ih hitem hnarrow hpad
        exact hcomma (.opened hfront hpiece) (List.append_assoc _ _ _)
  | _ =>
    rw [WritesScalar.isNarrow h] at hwide
    cases hwide

theorem splitFrom_unclosed (h : Writes t v cs) (hwide : v.isNarrow = false) (hpad : Padded cs part)
    (rest : List Char) : ∃ front piece, piece ∈ splitFrom .outside [] (part ++ rest) ∧
      Unclosed front ∧ Padded front piece := by
  obtain ⟨front, piece, inner, hfront, hpiece, rfl⟩ := exists_unclosed h hwide hpad
  refine ⟨front, piece, ?_, hfront, hpiece⟩
  rw [List.append_assoc, List.cons_append, splitFrom_sealed_comma (hpiece.sealed hfront.sealed)]
  exact List.mem_cons_self

/-- If an element of a list is not narrow, the scan finds one with an unclosed bracket. -/
theorem exists_unclosed_piece (h : Listed (Writes t) items body)
    (hwide : ∃ item ∈ items, item.isNarrow = false) :
    ∃ front piece, piece ∈ splitFrom .outside [] body ∧ Unclosed front ∧ Padded front piece := by
  induction h with
  | nil =>
    obtain ⟨item, hitem, -⟩ := hwide
    cases hitem
  | @single item _ part hitem hpad =>
    obtain ⟨w, hw, hwide⟩ := hwide
    obtain rfl := List.mem_singleton.1 hw
    simpa using splitFrom_unclosed hitem hwide hpad []
  | @cons item cs part items body hitem hpad hne hlisted ih =>
    cases hnarrow : item.isNarrow with
    | true =>
      obtain ⟨w, hw, hwide⟩ := hwide
      obtain rfl | hw := List.mem_cons.1 hw
      · rw [hnarrow] at hwide
        cases hwide
      obtain ⟨front, piece, hpiece, hfront⟩ := ih ⟨w, hw, hwide⟩
      refine ⟨front, piece, ?_, hfront⟩
      rw [splitFrom_sealed_comma (hpad.sealed (hitem.sealed_of_isNarrow hnarrow))]
      exact List.mem_cons_of_mem _ hpiece
    | false => exact splitFrom_unclosed hitem hnarrow hpad _

end Unclosed

section Failures

theorem rdropWhile_append_of_ne_nil {ds : List Char} (h : ds.rdropWhile isBlank ≠ []) :
    (cs ++ ds).rdropWhile isBlank = cs ++ ds.rdropWhile isBlank := by
  have hne : (ds.reverse.dropWhile isBlank).isEmpty = false := by
    rw [Bool.eq_false_iff]
    intro hempty
    rw [List.rdropWhile, List.isEmpty_iff.1 hempty] at h
    exact h rfl
  rw [List.rdropWhile, List.reverse_append, List.dropWhile_append, hne]
  simp [List.rdropWhile]

theorem rdropWhile_append_of_blank (h : Blank after) :
    (cs ++ after).rdropWhile isBlank = cs.rdropWhile isBlank := by
  rw [List.rdropWhile, List.reverse_append,
    List.dropWhile_append_of_pos fun c hc => h c (List.mem_reverse.1 hc), List.rdropWhile]

theorem Unclosed.head (h : Unclosed cs) : ∃ part, cs = '[' :: part := by
  cases h <;> exact ⟨_, rfl⟩

theorem Unclosed.trimBlank_eq (h : Unclosed cs) : trimBlank cs = cs.rdropWhile isBlank := by
  obtain ⟨part, rfl⟩ := h.head
  rw [trimBlank, List.dropWhile_cons_of_neg (by decide), List.rdropWhile]

theorem Unclosed.not_blank (h : Unclosed cs) : ¬ Blank cs := by
  obtain ⟨part, rfl⟩ := h.head
  intro hblank
  have hbracket := hblank '[' List.mem_cons_self
  revert hbracket
  decide

theorem Unclosed.rdropWhile_ne_nil (h : Unclosed cs) : cs.rdropWhile isBlank ≠ [] :=
  fun hnil => h.not_blank (List.rdropWhile_eq_nil_iff.1 hnil)

theorem Unclosed.rdropWhile_head (h : Unclosed cs) : ∃ part, cs.rdropWhile isBlank = '[' :: part := by
  obtain ⟨part, rfl⟩ := h.head
  obtain ⟨c, ds, hcs⟩ := List.exists_cons_of_ne_nil h.rdropWhile_ne_nil
  obtain ⟨rest, hrest⟩ := List.rdropWhile_prefix isBlank ('[' :: part)
  rw [hcs, List.cons_append] at hrest
  obtain rfl := (List.cons.inj hrest).1
  exact ⟨ds, hcs⟩

theorem WritesScalar.last (h : WritesScalar t v cs) :
    ∃ ds c, cs = ds ++ [c] ∧ isBlank c = false ∧ c ≠ ']' := by
  obtain ⟨ds, rfl⟩ | ⟨hne, hplain⟩ := h.quoted_or_plain
  · exact ⟨'"' :: escape ds, '"', rfl, by decide, by decide⟩
  · have hc := isPlain_iff.1 (hplain _ (List.getLast_mem hne))
    exact ⟨cs.dropLast, cs.getLast hne, (List.dropLast_append_getLast hne).symm, hc.1, hc.2.2.2.2⟩

theorem Padded.after_blank (h : Blank before) : Padded cs (before ++ cs) := by
  have hpad : Padded cs (before ++ cs ++ []) := .intro h blank_nil
  rwa [List.append_nil] at hpad

theorem Padded.rdropWhile_bracket (h : Padded cs part) : ∃ before, Blank before ∧
    ('[' :: part).rdropWhile isBlank = ('[' :: before ++ cs).rdropWhile isBlank := by
  obtain @⟨before, after, hbefore, hafter⟩ := h
  refine ⟨before, hbefore, ?_⟩
  rw [← List.cons_append, rdropWhile_append_of_blank hafter, List.cons_append]

/-- If a text with an unclosed bracket ends in a closed one, then between its first bracket and its last
one stands again a text with an unclosed bracket. -/
theorem Unclosed.strip {front : List Char} (h : Unclosed cs)
    (hlast : cs.rdropWhile isBlank = front ++ [']']) :
    ∃ inner body, front = '[' :: body ∧ Unclosed inner ∧ Padded inner body := by
  induction h generalizing front with
  | @blank before hblank =>
    have hends : (['['] ++ before).rdropWhile isBlank = [] ++ ['['] := by
      rw [rdropWhile_append_of_blank hblank]
      exact List.rdropWhile_concat_neg isBlank [] '[' (by decide)
    have hbracket := List.append_inj_right' (hends.symm.trans hlast) rfl
    cases hbracket
  | scalar hs hpad =>
    obtain ⟨before, -, hends⟩ := hpad.rdropWhile_bracket
    obtain ⟨ds, c, rfl, hc, hbracket⟩ := hs.last
    rw [hends, ← List.append_assoc, List.rdropWhile_concat_neg _ _ _ (by simp [hc])] at hlast
    have hlast := List.append_inj_right' hlast rfl
    exact absurd (List.cons.inj hlast).1 hbracket
  | @opened cs part hcs hpad ih =>
    obtain ⟨before, hbefore, hends⟩ := hpad.rdropWhile_bracket
    -- the last bracket of the text is that of the text inside
    have hrest := List.dropLast_append_getLast hcs.rdropWhile_ne_nil
    rw [hends, rdropWhile_append_of_ne_nil hcs.rdropWhile_ne_nil, ← hrest, ← List.append_assoc] at hlast
    rw [List.append_inj_right' hlast rfl] at hrest
    obtain ⟨inner, body, hfront, hinner, hpad⟩ := ih hrest.symm
    refine ⟨(cs.rdropWhile isBlank).dropLast, before ++ (cs.rdropWhile isBlank).dropLast,
      (List.append_inj_left' hlast rfl).symm, ?_, .after_blank hbefore⟩
    rw [hfront]
    exact .opened hinner hpad
  | @closed cs part hcs hpad =>
    obtain ⟨before, hbefore, hends⟩ := hpad.rdropWhile_bracket
    rw [hends, ← List.append_assoc, List.rdropWhile_concat_neg _ _ _ (by decide)] at hlast
    obtain rfl := List.append_inj_left' hlast rfl
    exact ⟨cs, before ++ cs, rfl, hcs, .after_blank hbefore⟩

theorem scalar?_bracket : scalar? t ('[' :: cs) = none := by
  cases t with
  | bool => simp [scalar?]
  | int =>
    have hdigit : digitBelow? 10 '[' = none := by decide
    simp [scalar?, dropStart?, Value.readInteger?, readInt128?, readSigned?, readRun?, readGrouped?,
      hdigit]
  | _ => rfl

theorem eq_of_dropLast? {c : Char} {front : List Char} (h : dropLast? c cs = some front) :
    cs = front ++ [c] := by
  rw [dropLast?] at h
  split at h
  · cases h
  · next d rest hreverse =>
    split at h
    · next hd =>
      obtain rfl := Option.some.inj h
      rw [← eq_of_beq hd, ← List.reverse_cons, ← hreverse, List.reverse_reverse]
    · cases h

theorem eq_of_inside? {first last : Char} (h : inside? first last text = some cs) :
    text = first :: cs ++ [last] := by
  obtain ⟨ds, hds, hcs⟩ := Option.bind_eq_some_iff.1 h
  rw [eq_append_of_dropStart? hds, eq_of_dropLast? hcs]
  rfl

/-- A text with an unclosed bracket is read at no type. -/
theorem read_unclosed (h : Unclosed cs) (hpad : Padded cs text) : ∃ e, read t text = .error e := by
  have htrim : trimBlank text = cs.rdropWhile isBlank := by
    rw [hpad.trimBlank_eq, h.trimBlank_eq]
  induction t generalizing cs text with
  | list element ih =>
    rw [read, htrim]
    split
    · next body hbody =>
      obtain ⟨inner, body', hfront, hinner, hpad⟩ := h.strip (eq_of_inside? hbody)
      obtain rfl := (List.cons.inj hfront).2
      have helements : elements body = [body] := by
        rw [elements_of_not_blank (hpad.not_blank hinner.not_blank),
          splitFrom_sealed (hpad.sealed hinner.sealed)]
      have hbody := ih hinner hpad (by rw [hpad.trimBlank_eq, hinner.trimBlank_eq])
      obtain ⟨e, he⟩ := except_mapM_error_of_mem (List.mem_singleton_self body) hbody
      exact ⟨e, by rw [helements, he]; rfl⟩
    · exact ⟨_, rfl⟩
  | any => exact ⟨_, rfl⟩
  | _ =>
    obtain ⟨part, hpart⟩ := h.rdropWhile_head
    simp only [read, htrim, hpart, scalar?_bracket]
    exact ⟨_, rfl⟩

/-- A list with an element that is not narrow is not read. -/
theorem read_of_wide (h : Writes (.list t) v cs) (hwide : ∃ item ∈ v.elements, item.isNarrow = false)
    (hpad : Padded cs text) : ∃ e, read (.list t) text = .error e := by
  have htrim := h.trim_padded hpad
  obtain ⟨items, body, rfl, hlisted, rfl⟩ := h
  have hne : items ≠ [] := by
    obtain ⟨item, hitem, -⟩ := hwide
    exact List.ne_nil_of_mem hitem
  have hblank := hlisted.not_blank hne fun _ _ hv => hv.not_blank
  obtain ⟨front, piece, hpiece, hfront, hpad⟩ := exists_unclosed_piece hlisted hwide
  obtain ⟨e, he⟩ := except_mapM_error_of_mem hpiece (read_unclosed (t := t) hfront hpad)
  exact ⟨e, by rw [read_brackets htrim, elements_of_not_blank hblank, he]; rfl⟩

end Failures

/-- A list, of any depth, is read back exactly if none of the lists in it, at any depth, has two elements,
and any other list is refused. -/
theorem nested_list_read_iff (h : Writes (.list t) v cs) (hpad : Padded cs text) :
    (read (.list t) text = .ok v ↔ ∀ item ∈ v.elements, item.isNarrow = true) ∧
      ((∃ item ∈ v.elements, item.isNarrow = false) → ∃ e, read (.list t) text = .error e) := by
  have hfails := fun hwide => read_of_wide h hwide hpad
  refine ⟨⟨fun hread item hitem => ?_, fun hnarrow => read_of_narrow h hnarrow hpad⟩, hfails⟩
  rw [← Bool.not_eq_false]
  intro hwide
  obtain ⟨e, he⟩ := hfails ⟨item, hitem, hwide⟩
  rw [hread] at he
  cases he

theorem nested_flags_read :
    read (.list (.list .bool)) "[[true],[ ]]".toList = .ok (.list [.list [.bool true], .list []]) := by
  have hflag : Writes (.list .bool) (.list [.bool true]) "[true]".toList :=
    ⟨[.bool true], "true".toList, rfl, .single (.bool true) .refl, rfl⟩
  have hempty : Writes (.list .bool) (.list []) "[ ]".toList :=
    ⟨[], [' '], rfl, .nil (by decide), rfl⟩
  have hlists : Writes (.list (.list .bool)) (.list [.list [.bool true], .list []])
      "[[true],[ ]]".toList :=
    ⟨_, _, rfl, .cons hflag .refl (List.cons_ne_nil _ _) (.single hempty .refl), rfl⟩
  exact ((nested_list_read_iff hlists .refl).1).2 (by simp [Value.elements, Value.isNarrow])

/-- A list of one list of two elements is written but not read. -/
theorem pair_in_list_not_read :
    Writes (.list (.list .bool)) (.list [.list [.bool true, .bool false]]) "[[true,false]]".toList ∧
      read (.list (.list .bool)) "[[true,false]]".toList =
        .error (.unresolvedLiteral "[true") := by
  have hpair : Writes (.list .bool) (.list [.bool true, .bool false]) "[true,false]".toList :=
    ⟨_, _, rfl, .cons (.bool true) .refl (List.cons_ne_nil _ _) (.single (.bool false) .refl), rfl⟩
  exact ⟨⟨_, _, rfl, .single hpair .refl, rfl⟩, rfl⟩

end Literal
end ChainQuery
