import ChainQuery.Json.Printer
import ChainQuery.Json.Reader
import ChainQuery.Proofs.Text.Blank
import ChainQuery.Proofs.Text.Decimal
import Mathlib.Tactic.SplitIfs

/-!
# Texts of documents read back

A document whose numerals are written as numerals are to be written is read back from its text.
-/

namespace ChainQuery

def DigitsOnly (ds : List Char) : Prop :=
  ds ≠ [] ∧ ∀ d ∈ ds, d.isDigit = true

theorem digitsOnly_render (n : Nat) : DigitsOnly (Text.render 10 n) :=
  ⟨Text.render_ne_nil n, fun _ => Text.isDigit_of_mem_render⟩

/-- Digits stand where digits must, and no zero in front of others. -/
structure Numeral.Proper (n : Numeral) : Prop where
  whole : DigitsOnly n.whole
  leading : n.whole.head? = some '0' → n.whole = ['0']
  fraction : ∀ ds, n.fraction = some ds → DigitsOnly ds

/-- A document as it can be built: its numerals have digits where they must, and its strings are whole. -/
inductive Json.Proper : Json → Prop where
  | null : Proper null
  | bool (b : Bool) : Proper (bool b)
  | number {n : Numeral} : n.Proper → Proper (number n)
  | string (s : String) : Proper (string s)
  | array {items : List Json} : (∀ item ∈ items, Proper item) → Proper (array items)
  | object {fields : List (String × Json)} : (∀ f ∈ fields, Proper f.2) → Proper (object fields)

theorem Numeral.proper_ofInt (i : Int) : (ofInt i).Proper where
  whole := digitsOnly_render i.natAbs
  leading := by
    intro hzero
    by_cases hi : i.natAbs = 0
    · show Text.render 10 i.natAbs = _
      rw [hi, Text.render_eq_toDigits (by decide)]
      rfl
    · exfalso
      have hradix : 2 ≤ 10 := by decide
      rw [ofInt, Text.render, List.head?_map] at hzero
      obtain ⟨d, hd, hchar⟩ := Option.map_eq_some_iff.mp hzero
      have hlt : d < 10 := Text.digits_lt hradix i.natAbs d (List.mem_of_head? hd)
      rw [Text.eq_zero_of_digitChar (by omega) hchar] at hd
      exact Text.head?_digits_ne_zero hradix hi hd
  fraction := nofun

namespace Json

section Strings

/-- The piece that is read from the text of a character. -/
def pieceOf (c : Char) : Piece :=
  if c.toNat < 0x20 ∧ c ≠ '\n' ∧ c ≠ '\r' ∧ c ≠ '\t' ∧ c ≠ '\x08' ∧ c ≠ '\x0c' then .unit c.toNat
  else .char c

theorem joinPieces_unit {n : Nat} (h : n < 0x20) (pieces : List Piece) :
    joinPieces (.unit n :: pieces) = (joinPieces pieces).map (Char.ofNat n :: ·) := by
  have hlow : ¬(0xD800 ≤ n ∧ n < 0xDC00) := by omega
  have hhigh : ¬(0xDC00 ≤ n ∧ n < 0xE000) := by omega
  rw [joinPieces.eq_def]
  dsimp only
  rw [if_neg hlow, if_neg hhigh]

theorem joinPieces_pieceOf (cs : List Char) : joinPieces (cs.map pieceOf) = some cs := by
  induction cs with
  | nil => rfl
  | cons c cs ih =>
    rw [List.map_cons, pieceOf]
    split
    · next h =>
      rw [joinPieces_unit h.1, ih, Char.ofNat_toNat]
      rfl
    · rw [joinPieces, ih]
      rfl

theorem readRun?_control {n : Nat} (h : n < 0x20) :
    Text.readRun? 16 ['0', '0', Text.digitChar (n / 16), Text.digitChar (n % 16)] = some n := by
  decide +revert

theorem readPieces?_plain {c : Char} (hquote : c ≠ '"') (hslash : c ≠ '\\') (h : ¬c.toNat < 0x20)
    (cs : List Char) : readPieces? (c :: cs) =
      (readPieces? cs).map fun (pieces, rest) => (.char c :: pieces, rest) := by
  rw [readPieces?, if_neg h]
  · cases readPieces? cs <;> rfl
  · exact hquote
  · exact fun _ _ _ _ _ hc => absurd hc hslash
  · exact fun _ _ hc => absurd hc hslash

theorem readPieces?_escape {e c : Char} (h : escaped? e = some c) (cs : List Char) :
    readPieces? ('\\' :: e :: cs) =
      (readPieces? cs).map fun (pieces, rest) => (.char c :: pieces, rest) := by
  rw [readPieces?, h]
  · cases readPieces? cs <;> rfl
  · rintro a b c d cs rfl
    cases h

theorem readPieces?_unit {a b c d : Char} {n : Nat} (h : Text.readRun? 16 [a, b, c, d] = some n)
    (cs : List Char) : readPieces? ('\\' :: 'u' :: a :: b :: c :: d :: cs) =
      (readPieces? cs).map fun (pieces, rest) => (.unit n :: pieces, rest) := by
  rw [readPieces?, h]
  cases readPieces? cs <;> rfl

theorem readPieces?_stringChar (c : Char) (rest : List Char) :
    readPieces? (stringChar c ++ rest) =
      (readPieces? rest).map fun (pieces, rest) => (pieceOf c :: pieces, rest) := by
  unfold stringChar
  split_ifs with hquote hslash hline hreturn htab hback hfeed hcontrol
  · subst hquote
    exact readPieces?_escape rfl rest
  · subst hslash
    exact readPieces?_escape rfl rest
  · subst hline
    exact readPieces?_escape rfl rest
  · subst hreturn
    exact readPieces?_escape rfl rest
  · subst htab
    exact readPieces?_escape rfl rest
  · subst hback
    exact readPieces?_escape rfl rest
  · subst hfeed
    exact readPieces?_escape rfl rest
  · rw [pieceOf, if_pos ⟨hcontrol, hline, hreturn, htab, hback, hfeed⟩]
    exact readPieces?_unit (readRun?_control hcontrol) rest
  · rw [pieceOf, if_neg fun h => hcontrol h.1]
    exact readPieces?_plain hquote hslash hcontrol rest

theorem readPieces?_text (cs rest : List Char) :
    readPieces? (cs.flatMap stringChar ++ '"' :: rest) = some (cs.map pieceOf, rest) := by
  induction cs with
  | nil => rw [List.flatMap_nil, List.nil_append, readPieces?, List.map_nil]
  | cons c cs ih =>
    rw [List.flatMap_cons, List.append_assoc, readPieces?_stringChar, ih]
    rfl

theorem readString?_text (s : String) (rest : List Char) :
    readString? (s.toList.flatMap stringChar ++ '"' :: rest) = some (.string s, rest) := by
  rw [readString?, readPieces?_text, Option.map_some]
  dsimp only
  rw [joinPieces_pieceOf]
  exact congrArg (fun s => some (Json.string s, rest)) String.ofList_toList

end Strings

section Numerals
variable {ds rest : List Char}

/-- What follows does not go on with a numeral. -/
def Ended (rest : List Char) : Prop :=
  ∀ c ∈ rest.head?, c.isDigit = false ∧ c ≠ '.' ∧ c ≠ 'e' ∧ c ≠ 'E'

theorem ended_nil : Ended [] := nofun

theorem ended_cons {c : Char} (h : c.isDigit = false ∧ c ≠ '.' ∧ c ≠ 'e' ∧ c ≠ 'E') :
    Ended (c :: rest) := by
  rintro _ ⟨⟩
  exact h

theorem readDigits?_append (hds : DigitsOnly ds) (hrest : ∀ c ∈ rest.head?, c.isDigit = false) :
    readDigits? (ds ++ rest) = some (ds, rest) := by
  have htake : rest.takeWhile Char.isDigit = [] := by
    cases rest with
    | nil => rfl
    | cons c rest => exact List.takeWhile_cons_of_neg (by rw [hrest c rfl]; exact nofun)
  have hdrop : rest.dropWhile Char.isDigit = rest := by
    cases rest with
    | nil => rfl
    | cons c rest => exact List.dropWhile_cons_of_neg (by rw [hrest c rfl]; exact nofun)
  have hne : ds.isEmpty = false := List.isEmpty_eq_false_iff.mpr hds.1
  simp only [readDigits?]
  rw [List.takeWhile_append_of_pos hds.2, List.dropWhile_append_of_pos hds.2, htake, hdrop,
    List.append_nil, hne]
  rfl

theorem readWhole?_append (hds : DigitsOnly ds) (hleading : ds.head? = some '0' → ds = ['0'])
    (hrest : ∀ c ∈ rest.head?, c.isDigit = false) : readWhole? (ds ++ rest) = some (ds, rest) := by
  obtain ⟨d, ds', rfl⟩ := List.exists_cons_of_ne_nil hds.1
  by_cases hzero : d = '0'
  · subst hzero
    rw [hleading rfl]
    cases rest with
    | nil => rfl
    | cons c rest =>
      show (if c.isDigit = true then none else some (['0'], c :: rest)) = _
      rw [hrest c rfl]
      rfl
  · rw [← readDigits?_append hds hrest, List.cons_append, readWhole?]
    exact fun _ h => hzero (List.cons.inj h).1

theorem readExponent?_none (hrest : Ended rest) : readExponent? rest = some (none, rest) := by
  cases rest with
  | nil => rfl
  | cons c rest =>
    obtain ⟨-, -, hlower, hupper⟩ := hrest c rfl
    unfold readExponent?
    exact if_neg (not_or.mpr ⟨hlower, hupper⟩)

theorem readExponent?_some (e : Int) (hrest : ∀ c ∈ rest.head?, c.isDigit = false) :
    readExponent? ('e' :: (Text.signedDecimal e).toList ++ rest) = some (some e, rest) := by
  cases e with
  | ofNat n =>
    have hdigits := readDigits?_append (digitsOnly_render n) hrest
    have hread := Text.readRun?_render n
    obtain ⟨c, cs, hc, hplus, hminus⟩ := Text.render_eq_cons n
    rw [Text.signedDecimal, Text.toList_decimal]
    rw [hc] at hdigits hread ⊢
    rw [List.cons_append, readExponent?, if_pos (Or.inl rfl), hdigits, Option.bind_some]
    · exact congrArg (Option.map fun n => (some (Int.ofNat n), rest)) hread
    · exact fun _ h => hminus (List.cons.inj h).1
    · exact fun _ h => hplus (List.cons.inj h).1
  | negSucc n =>
    have hdigits := readDigits?_append (digitsOnly_render (n + 1)) hrest
    rw [Text.signedDecimal, String.toList_ofList, List.cons_append, List.cons_append, readExponent?,
      if_pos (Or.inl rfl), hdigits, Option.bind_some]
    exact congrArg (Option.map fun n => (some (-Int.ofNat n), rest)) (Text.readRun?_render (n + 1))

def fractionChars : Option (List Char) → List Char
  | some ds => '.' :: ds
  | none => []

def exponentChars : Option Int → List Char
  | some e => 'e' :: (Text.signedDecimal e).toList
  | none => []

theorem numeralChars_eq (n : Numeral) :
    numeralChars n = (if n.negative then ['-'] else []) ++
      (n.whole ++ (fractionChars n.fraction ++ exponentChars n.exponent)) := by
  rw [← List.append_assoc n.whole, ← List.append_assoc, ← List.append_assoc]
  rfl

theorem readExponent?_exponentChars (exponent : Option Int) (hrest : Ended rest) :
    readExponent? (exponentChars exponent ++ rest) = some (exponent, rest) := by
  cases exponent with
  | none => exact readExponent?_none hrest
  | some e => exact readExponent?_some e fun c hc => (hrest c hc).1

/-- The exponent does not go on with the digits before it. -/
theorem head?_exponentChars (exponent : Option Int) (hrest : Ended rest) :
    ∀ c ∈ (exponentChars exponent ++ rest).head?, c.isDigit = false ∧ c ≠ '.' := by
  intro c hc
  cases exponent with
  | none => exact ⟨(hrest c hc).1, (hrest c hc).2.1⟩
  | some e =>
    cases hc
    decide

theorem readNumeral?_append {n : Numeral} (hn : n.Proper) (hrest : Ended rest) :
    readNumeral? n.negative
      (n.whole ++ (fractionChars n.fraction ++ exponentChars n.exponent) ++ rest) =
        some (.number n, rest) := by
  obtain ⟨negative, whole, fraction, exponent⟩ := n
  have hexponent := readExponent?_exponentChars exponent hrest
  have hhead := head?_exponentChars exponent hrest
  rw [readNumeral?, List.append_assoc]
  cases fraction with
  | none =>
    have hwhole := readWhole?_append hn.whole hn.leading fun c hc => (hhead c hc).1
    simp only [fractionChars, List.nil_append, hwhole, bind, Option.bind_some, pure]
    split
    · next cs hcs => exact absurd rfl (hhead '.' (by rw [hcs]; rfl)).2
    · rw [hexponent]
      rfl
  | some ds =>
    let fractional := ds ++ (exponentChars exponent ++ rest)
    have hpoint : ∀ c ∈ ('.' :: fractional).head?, c.isDigit = false := by
      rintro _ ⟨⟩
      rfl
    have hwhole := readWhole?_append hn.whole hn.leading hpoint
    have hdigits := readDigits?_append (hn.fraction ds rfl) fun c hc => (hhead c hc).1
    simp only [fractionChars, List.cons_append, List.append_assoc, fractional] at hwhole ⊢
    simp only [hwhole, bind, Option.bind_some, pure, hdigits, Option.map_some, hexponent]

end Numerals

section Documents

theorem skipSpace_cons {c : Char} (h : isSpace c = false) (cs : List Char) :
    skipSpace (c :: cs) = c :: cs :=
  List.dropWhile_cons_of_neg (by rw [h]; exact nofun)

theorem isSpace_of_isDigit {c : Char} (h : c.isDigit = true) : isSpace c = false := by
  have hc := Text.isDigit_iff.mp h
  refine Bool.eq_false_iff.mpr fun hspace => ?_
  simp only [isSpace, Bool.or_eq_true, beq_iff_eq] at hspace
  rcases hspace with ((rfl | rfl) | rfl) | rfl <;> exact absurd hc (by decide)

theorem readValue?_digit {c : Char} (h : c.isDigit = true) (fuel : Nat) (cs : List Char) :
    readValue? (fuel + 1) (c :: cs) = readNumeral? false (c :: cs) := by
  have hne : ∀ d : Char, d.isDigit = false → c ≠ d := by
    rintro d hd rfl
    exact absurd h (by rw [hd]; exact nofun)
  rw [readValue?, skipSpace_cons (isSpace_of_isDigit h)]
  split
  case h_8 => rfl
  all_goals
    next heq => exact absurd (List.cons.inj heq).1 (hne _ rfl)

/-- The text of a document begins with a character that is neither blank nor ends a list. -/
theorem chars_eq_cons {j : Json} (hj : j.Proper) :
    ∃ c cs, chars j = c :: cs ∧ isSpace c = false ∧ c ≠ ']' := by
  cases hj with
  | null => exact ⟨_, _, rfl, by decide⟩
  | bool b => cases b <;> exact ⟨_, _, rfl, by decide⟩
  | @number n hn =>
    rw [chars, numeralChars_eq]
    cases n.negative with
    | true => exact ⟨_, _, rfl, by decide⟩
    | false =>
      obtain ⟨c, cs, hc⟩ := List.exists_cons_of_ne_nil hn.whole.1
      have hdigit : c.isDigit = true := hn.whole.2 c (hc ▸ List.mem_cons_self)
      refine ⟨c, _, by rw [hc]; rfl, isSpace_of_isDigit hdigit, ?_⟩
      rintro rfl
      cases hdigit
  | string s => exact ⟨_, _, by rw [chars, stringChars]; rfl, by decide⟩
  | array _ => exact ⟨_, _, by rw [chars]; rfl, by decide⟩
  | object _ => exact ⟨_, _, by rw [chars]; rfl, by decide⟩

theorem itemChars_eq_cons {item : Json} (hitem : item.Proper) (items : List Json) :
    ∃ c cs, itemChars (item :: items) = c :: cs ∧ isSpace c = false ∧ c ≠ ']' := by
  obtain ⟨c, cs, hc, hhead⟩ := chars_eq_cons hitem
  cases items with
  | nil => exact ⟨c, cs, hc, hhead⟩
  | cons next items =>
    rw [itemChars.eq_3 _ _ (List.cons_ne_nil _ _), hc]
    exact ⟨c, _, rfl, hhead⟩

theorem fieldChars_eq_cons (f : String × Json) (fields : List (String × Json)) :
    ∃ cs, fieldChars (f :: fields) = '"' :: cs := by
  obtain ⟨name, value⟩ := f
  cases fields with
  | nil => exact ⟨_, rfl⟩
  | cons next fields => exact ⟨_, rfl⟩

/-- A document is read back from its text, whatever comes after it. -/
def ReadsBack (j : Json) : Prop :=
  ∀ rest fuel, Ended rest → 2 * (chars j).length ≤ fuel →
    readValue? (fuel + 1) (chars j ++ rest) = some (j, rest)

theorem ended_comma (rest : List Char) : Ended (',' :: rest) := ended_cons (by decide)

theorem ended_bracket (rest : List Char) : Ended (']' :: rest) := ended_cons (by decide)

theorem ended_brace (rest : List Char) : Ended ('\x7d' :: rest) := ended_cons (by decide)

theorem readItems?_itemChars {items : List Json} (hne : items ≠ [])
    (h : ∀ item ∈ items, ReadsBack item) (rest : List Char) (fuel : Nat)
    (hfuel : 2 * (itemChars items).length + 1 < fuel) :
    readItems? fuel (itemChars items ++ ']' :: rest) = some (items, rest) := by
  induction items generalizing fuel with
  | nil => exact absurd rfl hne
  | cons item items ih =>
    -- The list takes one unit for each item, and `ReadsBack` asks for one above twice the text. For the
    -- items that follow, both are made up for by the two units of the comma.
    obtain ⟨fuel, rfl⟩ : ∃ n, fuel = n + 2 := ⟨fuel - 2, by omega⟩
    cases items with
    | nil =>
      have hread := h item List.mem_cons_self (']' :: rest) fuel (ended_bracket rest)
        (by simp only [itemChars] at hfuel; omega)
      rw [readItems?, itemChars, hread]
      rfl
    | cons next items =>
      simp only [itemChars, List.length_append, List.length_cons] at hfuel
      let more := itemChars (next :: items) ++ ']' :: rest
      have hread := h item List.mem_cons_self (',' :: more) fuel (ended_comma more) (by omega)
      have hmore : readItems? (fuel + 1) more = some (next :: items, rest) :=
        ih (List.cons_ne_nil _ _) (fun x hx => h x (List.mem_cons_of_mem _ hx)) _ (by omega)
      rw [readItems?, itemChars.eq_3 _ _ (List.cons_ne_nil _ _), List.append_assoc,
        List.cons_append, hread]
      show (readItems? (fuel + 1) more).map _ = _
      rw [hmore]
      rfl

theorem stringChars_append (s : String) (cs : List Char) :
    stringChars s ++ cs = '"' :: (s.toList.flatMap stringChar ++ '"' :: cs) := by
  rw [stringChars, List.append_assoc]
  rfl

theorem readFields?_name (name : String) (fuel : Nat) (cs : List Char) :
    readFields? (fuel + 1) (stringChars name ++ ':' :: cs) =
      match readValue? fuel cs with
      | none => none
      | some (value, rest) =>
        match skipSpace rest with
        | ',' :: rest =>
          (readFields? fuel rest).map fun (fields, rest) => ((name, value) :: fields, rest)
        | '\x7d' :: rest => some ([(name, value)], rest)
        | _ => none := by
  rw [readFields?, stringChars_append, skipSpace_cons (by decide)]
  simp only [readString?_text]
  rw [skipSpace_cons (by decide)]
  rfl

theorem readFields?_fieldChars {fields : List (String × Json)} (hne : fields ≠ [])
    (h : ∀ f ∈ fields, ReadsBack f.2) (rest : List Char) (fuel : Nat)
    (hfuel : 2 * (fieldChars fields).length + 1 < fuel) :
    readFields? fuel (fieldChars fields ++ '\x7d' :: rest) = some (fields, rest) := by
  induction fields generalizing fuel with
  | nil => exact absurd rfl hne
  | cons f fields ih =>
    obtain ⟨name, value⟩ := f
    obtain ⟨fuel, rfl⟩ : ∃ n, fuel = n + 2 := ⟨fuel - 2, by omega⟩
    have hvalue : ReadsBack value := h _ List.mem_cons_self
    cases fields with
    | nil =>
      simp only [fieldChars, List.length_append, List.length_cons] at hfuel
      have hread := hvalue ('\x7d' :: rest) fuel (ended_brace rest) (by omega)
      rw [fieldChars, List.append_assoc, List.cons_append, readFields?_name, hread]
      rfl
    | cons next fields =>
      simp only [fieldChars, List.length_append, List.length_cons] at hfuel
      let more := fieldChars (next :: fields) ++ '\x7d' :: rest
      have hread := hvalue (',' :: more) fuel (ended_comma more) (by omega)
      have hmore : readFields? (fuel + 1) more = some (next :: fields, rest) :=
        ih (List.cons_ne_nil _ _) (fun x hx => h x (List.mem_cons_of_mem _ hx)) _ (by omega)
      rw [fieldChars.eq_3 _ _ _ (List.cons_ne_nil _ _)]
      simp only [List.append_assoc, List.cons_append]
      rw [readFields?_name, hread]
      show (readFields? (fuel + 1) more).map _ = _
      rw [hmore]
      rfl

theorem readValue?_bracket (fuel : Nat) (cs : List Char) :
    readValue? (fuel + 1) ('[' :: cs) =
      match skipSpace cs with
      | ']' :: rest => some (array [], rest)
      | rest => (readItems? fuel rest).map fun (items, rest) => (array items, rest) := rfl

theorem readValue?_brace (fuel : Nat) (cs : List Char) :
    readValue? (fuel + 1) ('\x7b' :: cs) =
      match skipSpace cs with
      | '\x7d' :: rest => some (object [], rest)
      | rest => (readFields? fuel rest).map fun (fields, rest) => (object fields, rest) := rfl

theorem readsBack_number {n : Numeral} (hn : n.Proper) : ReadsBack (number n) := by
  intro rest fuel hrest hfuel
  have hread := readNumeral?_append hn hrest
  rw [chars, numeralChars_eq]
  cases hsign : n.negative with
  | true =>
    rw [hsign] at hread
    exact hread
  | false =>
    rw [hsign] at hread
    obtain ⟨c, cs, hc⟩ := List.exists_cons_of_ne_nil hn.whole.1
    have hdigit : c.isDigit = true := hn.whole.2 c (hc ▸ List.mem_cons_self)
    rw [hc] at hread ⊢
    exact (readValue?_digit hdigit fuel _).trans hread

theorem readsBack_array {items : List Json} (h : ∀ item ∈ items, item.Proper)
    (hitems : ∀ item ∈ items, ReadsBack item) : ReadsBack (array items) := by
  intro rest fuel _ hfuel
  cases items with
  | nil => rfl
  | cons item items =>
    simp only [chars, List.length_append, List.length_cons] at hfuel
    have hread := readItems?_itemChars (List.cons_ne_nil item items) hitems rest fuel (by omega)
    obtain ⟨c, cs, hc, hspace, hbracket⟩ := itemChars_eq_cons (h item List.mem_cons_self) items
    rw [hc, List.cons_append] at hread
    rw [chars, hc, List.append_assoc, List.cons_append, List.cons_append, List.singleton_append,
      readValue?_bracket, skipSpace_cons hspace]
    split
    · next heq => exact absurd (List.cons.inj heq).1 hbracket
    · rw [hread]
      rfl

theorem readsBack_object {fields : List (String × Json)} (hfields : ∀ f ∈ fields, ReadsBack f.2) :
    ReadsBack (object fields) := by
  intro rest fuel _ hfuel
  cases fields with
  | nil => rfl
  | cons f fields =>
    simp only [chars, List.length_append, List.length_cons] at hfuel
    have hread := readFields?_fieldChars (List.cons_ne_nil f fields) hfields rest fuel (by omega)
    obtain ⟨cs, hcs⟩ := fieldChars_eq_cons f fields
    rw [hcs, List.cons_append] at hread
    rw [chars, hcs, List.append_assoc, List.cons_append, List.cons_append, List.singleton_append,
      readValue?_brace, skipSpace_cons (by decide)]
    show (readFields? fuel _).map _ = _
    rw [hread]
    rfl

theorem Proper.readsBack {j : Json} (hj : j.Proper) : ReadsBack j := by
  induction hj with
  | null => exact fun _ _ _ _ => rfl
  | bool b => cases b <;> exact fun _ _ _ _ => rfl
  | number hn => exact readsBack_number hn
  | string s =>
    intro rest fuel _ _
    rw [chars, stringChars_append]
    exact readString?_text s rest
  | array h ih => exact readsBack_array h ih
  | object _ ih => exact readsBack_object ih

/-- A document is what is read from its text. -/
theorem read?_text {j : Json} (hj : j.Proper) : read? j.text = some j := by
  have hread := hj.readsBack [] (2 * (chars j).length + 1) ended_nil (by omega)
  rw [List.append_nil] at hread
  rw [read?, text, String.toList_ofList]
  simp only [hread]
  rfl

end Documents
end Json
end ChainQuery
