import ChainQuery.Proofs.Output.Markup
import ChainQuery.Text.Digits

/-!
# Reading XML 1.0

What XML 1.0 asks of a reader of tags besides: the characters that it allows, the ends of lines, which
are unified before anything is read, references by number, and tabs and ends of lines in values, which
are read as blanks. Escaping the five marks alone keeps none of these from a value.
-/

namespace ChainQuery
namespace Markup

def isXmlChar (c : Char) : Bool :=
  isBreak c || (0x20 ≤ c.toNat && c.toNat != 0xfffe && c.toNat != 0xffff)

def numbered? (radix : Nat) (digits : List Char) : Option Char :=
  (Text.readRun? radix digits).bind fun n =>
    if n.isValidChar ∧ isXmlChar (Char.ofNat n) = true then some (Char.ofNat n) else none

def character? : List Char → Option Char
  | '#' :: 'x' :: digits => numbered? 16 digits
  | '#' :: digits => numbered? 10 digits
  | _ => none

def xmlRules : Rules where
  literal c := if isBreak c then ' ' else c
  reference? name := (entity? name).or (character? name)

/-- A text in which all lines end with a line feed and nothing else. -/
def unifyLines : List Char → List Char
  | [] => []
  | c :: cs =>
    if c = '\r' then if cs.head? = some '\n' then unifyLines cs else '\n' :: unifyLines cs
    else c :: unifyLines cs

def unified (s : String) : String :=
  String.ofList (unifyLines s.toList)

/-- The tags of a text as XML 1.0 reads them: nothing is read if a character is not allowed, and the
ends of lines are unified before. -/
def xmlTags? (cs : List Char) : Option (List Tag) :=
  if cs.all isXmlChar then tags? xmlRules (unifyLines cs) else none

def xmlText (s : String) : String :=
  xmlRules.text (unified s)

theorem standard_xml : xmlRules.Standard where
  reference h := by
    show (entity? _).or _ = _
    rw [h, Option.some_or]
  literal h := if_neg (by rw [h]; decide)

section Lines

/-- Unifying the lines makes other characters of some, and the same ones of what follows. -/
def Unifies (cs ds : List Char) : Prop :=
  ∀ rest, unifyLines (cs ++ rest) = ds ++ unifyLines rest

theorem Unifies.append {cs ds cs' ds' : List Char} (h : Unifies cs ds) (h' : Unifies cs' ds') :
    Unifies (cs ++ cs') (ds ++ ds') := by
  intro rest
  rw [List.append_assoc, h, h', List.append_assoc]

theorem unifies_of_not_mem {cs : List Char} (h : '\r' ∉ cs) : Unifies cs cs := by
  induction cs with
  | nil => exact fun _ => rfl
  | cons c cs ih =>
    intro rest
    have hc : c ≠ '\r' := fun hc => h (hc ▸ List.mem_cons_self)
    rw [List.cons_append, unifyLines, if_neg hc, ih fun hmem => h (List.mem_cons_of_mem _ hmem)]
    rfl

theorem unifyLines_eq {cs : List Char} (h : '\r' ∉ cs) : unifyLines cs = cs := by
  have hcs := unifies_of_not_mem h []
  rwa [List.append_nil, unifyLines, List.append_nil] at hcs

theorem head?_escaped (as rest : List Char) :
    (as.flatMap Document.escape ++ '"' :: rest).head? = some '\n' ↔ as.head? = some '\n' := by
  cases as with
  | nil => simp
  | cons a as =>
    rcases escape_cases a with ⟨ha, name, hescape, -⟩ | ⟨-, hescape⟩
    · have hnewline : a ≠ '\n' := by
        rintro rfl
        exact absurd ha (by decide)
      simp [hescape, hnewline]
    · simp [hescape]

theorem unifies_quoted (s : String) :
    Unifies (Document.quotedChars s) (Document.quotedChars (unified s)) := by
  have hquoted : ∀ (as rest : List Char), unifyLines (as.flatMap Document.escape ++ '"' :: rest) =
      (unifyLines as).flatMap Document.escape ++ '"' :: unifyLines rest := by
    intro as rest
    induction as with
    | nil => rfl
    | cons a as ih =>
      rw [List.flatMap_cons, List.append_assoc, unifyLines]
      by_cases ha : a = '\r'
      · subst ha
        show unifyLines ('\r' :: (as.flatMap Document.escape ++ '"' :: rest)) = _
        rw [unifyLines, if_pos rfl, if_pos rfl]
        simp only [head?_escaped]
        split
        · exact ih
        · rw [ih]
          rfl
      · have hescape : '\r' ∉ Document.escape a := by
          rcases escape_cases a with ⟨-, name, hescape, hletters, -⟩ | ⟨-, hescape⟩
          · have hname : '\r' ∉ name := fun hmem => absurd (hletters _ hmem) (by decide)
            simp [hescape, hname]
          · simpa [hescape] using Ne.symm ha
        rw [if_neg ha, unifies_of_not_mem hescape, ih, List.flatMap_cons, List.append_assoc]
  intro rest
  rw [Document.quotedChars, Document.quotedChars, unified, String.toList_ofList]
  have hmark : unifyLines ('"' :: (s.toList.flatMap Document.escape ++ '"' :: rest)) =
      '"' :: unifyLines (s.toList.flatMap Document.escape ++ '"' :: rest) := rfl
  simpa [hquoted] using hmark

theorem IsName.not_mem {name : String} {c : Char} (h : IsName name) (hc : isNameChar c = false) :
    c ∉ name.toList := by
  obtain ⟨start, cs, hchars, hstart, hcs⟩ := h
  rw [hchars, List.mem_cons, not_or]
  refine ⟨?_, fun hmem => ?_⟩
  · rintro rfl
    rw [isNameChar, hstart] at hc
    cases hc
  · rw [hcs c hmem] at hc
    cases hc

theorem unifies_attributes {attributes : List (String × String)}
    (h : ∀ a ∈ attributes, IsName a.1) :
    Unifies (attributes.flatMap attributeChars)
      ((attributes.map fun a => (a.1, unified a.2)).flatMap attributeChars) := by
  induction attributes with
  | nil => exact fun _ => rfl
  | cons a attributes ih =>
    rw [List.flatMap_cons, List.map_cons, List.flatMap_cons]
    refine Unifies.append ?_ (ih fun b hb => h b (List.mem_cons_of_mem _ hb))
    have hname := (h a List.mem_cons_self).not_mem (c := '\r') (by decide)
    have hstart : '\r' ∉ ' ' :: (a.1.toList ++ ['=']) := by simp [hname]
    simpa [attributeChars] using (unifies_of_not_mem hstart).append (unifies_quoted a.2)

theorem unifies_tag {t : Tag} (ht : t.WellNamed) :
    Unifies t.chars (t.mapValues unified).chars := by
  have hname : '\r' ∉ t.name.toList := ht.name.not_mem (by decide)
  have hends : '\r' ∉ t.kind.ends.1 ∧ '\r' ∉ t.kind.ends.2 := by
    cases t.kind <;> decide
  exact ((unifies_of_not_mem hends.1).append ((unifies_of_not_mem hname).append
    (unifies_attributes ht.attributes))).append (unifies_of_not_mem hends.2)

theorem unifies_lines {lines : List (Nat × Tag)} (h : ∀ l ∈ lines, l.2.WellNamed) :
    Unifies (linesChars lines) (linesChars (lines.map fun l => (l.1, l.2.mapValues unified))) := by
  induction lines with
  | nil => exact fun _ => rfl
  | cons l lines ih =>
    have hspaces : '\r' ∉ List.replicate l.1 ' ' := by simp
    refine Unifies.append ?_ (ih fun l hl => h l (List.mem_cons_of_mem _ hl))
    exact ((unifies_of_not_mem hspaces).append (unifies_tag (h l List.mem_cons_self))).append
      (unifies_of_not_mem (by decide))

/-- XML 1.0 reads a text unchanged just if there is no tab and no end of a line in it. -/
theorem xmlText_eq_iff (s : String) : xmlText s = s ↔ ∀ c ∈ s.toList, isBreak c = false := by
  constructor
  · intro h c hc
    rw [← h, xmlText, Rules.text, String.toList_ofList] at hc
    obtain ⟨d, -, rfl⟩ := List.mem_map.mp hc
    show isBreak (if isBreak d = true then ' ' else d) = false
    split
    · rfl
    · next hd => exact Bool.eq_false_iff.mpr hd
  · intro h
    have hreturn : '\r' ∉ s.toList := fun hmem => absurd (h _ hmem) (by decide)
    rw [xmlText, unified, unifyLines_eq hreturn, String.ofList_toList]
    exact standard_xml.text_eq h

end Lines

section Allowed

theorem isXmlChar_of_isNameChar {c : Char} (h : isNameChar c = true) : isXmlChar c = true := by
  have hbetween : ∀ {low high : Char}, low.val ≤ c.val → c.val ≤ high.val →
      0x20 ≤ low.toNat → high.toNat < 0x80 → 0x20 ≤ c.toNat ∧ c.toNat < 0x80 :=
    fun hlow hhigh h h' => ⟨Nat.le_trans h hlow, Nat.lt_of_le_of_lt hhigh h'⟩
  have hbounds : 0x20 ≤ c.toNat ∧ c.toNat < 0x80 := by
    simp only [isNameChar, isNameStart, Bool.or_eq_true, beq_iff_eq] at h
    rcases h with ((((h | rfl) | rfl) | h) | rfl) | rfl
    · rcases (Bool.or_eq_true _ _).mp h with h | h
      · obtain ⟨hlow, hhigh⟩ := of_decide_eq_true h
        exact hbetween hlow hhigh (by decide) (by decide)
      · obtain ⟨hlow, hhigh⟩ := (Bool.and_eq_true _ _).mp h
        exact hbetween (of_decide_eq_true hlow) (of_decide_eq_true hhigh) (by decide) (by decide)
    · decide
    · decide
    · obtain ⟨hlow, hhigh⟩ := (Bool.and_eq_true _ _).mp h
      exact hbetween (of_decide_eq_true hlow) (of_decide_eq_true hhigh) (by decide) (by decide)
    · decide
    · decide
  have hlow : c.toNat ≠ 0xfffe ∧ c.toNat ≠ 0xffff := by omega
  simp [isXmlChar, hbounds.1, hlow]

theorem all_escape (c : Char) : (Document.escape c).all isXmlChar = isXmlChar c := by
  rcases escape_cases c with ⟨hc, name, hescape, hletters, -⟩ | ⟨-, hescape⟩
  · have hname : name.all isXmlChar = true := List.all_eq_true.mpr fun d hd =>
      isXmlChar_of_isNameChar (by simp [isNameChar, isNameStart, hletters d hd])
    have hmark : ∀ c ∈ marks, isXmlChar c = true := List.all_eq_true.mp (by decide)
    rw [hescape, List.all_append, List.all_cons, hname, hmark c hc]
    rfl
  · rw [hescape, List.all_cons, List.all_nil, Bool.and_true]

theorem all_quotedChars (s : String) :
    (Document.quotedChars s).all isXmlChar = s.toList.all isXmlChar := by
  have hquote : isXmlChar '"' = true := by decide
  simp only [Document.quotedChars, List.all_append, List.all_cons, List.all_flatMap, all_escape,
    hquote, List.all_nil, Bool.true_and, Bool.and_true]

theorem all_name {name : String} (h : IsName name) : name.toList.all isXmlChar = true := by
  obtain ⟨c, cs, hchars, hc, hcs⟩ := h
  rw [hchars]
  refine List.all_eq_true.mpr fun d hd => isXmlChar_of_isNameChar ?_
  rcases List.mem_cons.mp hd with rfl | hd
  · rw [isNameChar, hc]
    rfl
  · exact hcs d hd

theorem all_chars {t : Tag} (ht : t.WellNamed) :
    t.chars.all isXmlChar = t.attributes.all fun a => a.2.toList.all isXmlChar := by
  have hattributes : (t.attributes.flatMap attributeChars).all isXmlChar =
      t.attributes.all fun a => a.2.toList.all isXmlChar := by
    rw [List.all_flatMap, Bool.eq_iff_iff, List.all_eq_true, List.all_eq_true]
    refine forall₂_congr fun a ha => ?_
    have hmarks : isXmlChar ' ' = true ∧ isXmlChar '=' = true := by decide
    simp only [attributeChars, List.cons_append, List.all_cons, List.all_append, all_quotedChars,
      all_name (ht.attributes a ha), hmarks.1, hmarks.2, Bool.true_and]
  have hends : t.kind.ends.1.all isXmlChar = true ∧ t.kind.ends.2.all isXmlChar = true := by
    cases t.kind <;> decide
  rw [Tag.chars, List.all_append, List.all_append, List.all_append, hends.1, hends.2,
    all_name ht.name, hattributes, Bool.true_and, Bool.true_and, Bool.and_true]

theorem all_linesChars {lines : List (Nat × Tag)} (h : ∀ l ∈ lines, l.2.WellNamed) :
    (linesChars lines).all isXmlChar = true ↔
      ∀ s ∈ values lines, ∀ c ∈ s.toList, isXmlChar c = true := by
  rw [linesChars, values, List.all_flatMap, List.all_eq_true, List.forall_mem_flatMap]
  refine forall₂_congr fun l hl => ?_
  have hspaces : (List.replicate l.1 ' ').all isXmlChar = true :=
    List.all_eq_true.mpr fun c hc => by rw [List.eq_of_mem_replicate hc]; decide
  have hend : ['\n'].all isXmlChar = true := by decide
  rw [Document.line, List.all_append, List.all_append, hspaces, hend, all_chars (h l hl),
    List.forall_mem_map]
  simp only [Bool.true_and, Bool.and_true, List.all_eq_true]

/-- Tags in lines are read by XML 1.0 just if all their characters are allowed. -/
theorem xmlTags?_lines {lines : List (Nat × Tag)} (h : ∀ l ∈ lines, l.2.WellNamed) :
    xmlTags? (linesChars lines) =
      if (linesChars lines).all isXmlChar then some (lines.map fun l => l.2.mapValues xmlText)
      else none := by
  have hlines : unifyLines (linesChars lines) =
      linesChars (lines.map fun l => (l.1, l.2.mapValues unified)) := by
    have hunified := unifies_lines h []
    rwa [List.append_nil, unifyLines, List.append_nil] at hunified
  have hnamed : ∀ l ∈ lines.map fun l => (l.1, l.2.mapValues unified), l.2.WellNamed := by
    intro l hl
    obtain ⟨k, hk, rfl⟩ := List.mem_map.mp hl
    exact (h k hk).mapValues unified
  rw [xmlTags?, hlines, tags?_lines standard_xml hnamed, List.map_map]
  split
  · exact congrArg some (List.map_congr_left fun l _ => Tag.mapValues_mapValues _ _ l.2)
  · rfl

end Allowed

end Markup
end ChainQuery
