import ChainQuery.Output.Table

/-!
# Reading tables

Comma-separated values as RFC 4180 describes them: a grammar of fields, records and texts, which reads a
text in at most one way, and the texts that are written, which it reads as what they were written for.
-/

namespace ChainQuery
namespace TableRow

def isSpecial (c : Char) : Bool :=
  c == ',' || c == '"' || c == '\n' || c == '\r'

/-- What stands between quotes; two quotes stand for one. -/
inductive ReadsQuoted : List Char → List Char → Prop where
  | nil : ReadsQuoted [] []
  | quote : ReadsQuoted cs as → ReadsQuoted ('"' :: '"' :: cs) ('"' :: as)
  | char : c ≠ '"' → ReadsQuoted cs as → ReadsQuoted (c :: cs) (c :: as)

inductive ReadsField : List Char → String → Prop where
  | plain : (∀ c ∈ cs, isSpecial c = false) → ReadsField cs (String.ofList cs)
  | quoted : ReadsQuoted cs as → ReadsField ('"' :: cs ++ ['"']) (String.ofList as)

/-- Fields with commas between them. -/
inductive ReadsRecord : List Char → List String → Prop where
  | last : ReadsField cs field → ReadsRecord cs [field]
  | field : ReadsField cs field → ReadsRecord rest fields →
    ReadsRecord (cs ++ ',' :: rest) (field :: fields)

/-- Records, each one with the end of its line. -/
inductive ReadsText : List Char → List (List String) → Prop where
  | nil : ReadsText [] []
  | record : ReadsRecord cs fields → ReadsText rest records →
    ReadsText (cs ++ '\r' :: '\n' :: rest) (fields :: records)

section Unique

/-- A quoted part ends at the first quote that no other one follows. -/
theorem ReadsQuoted.unique {cs cs' as as' rest rest' : List Char} (h : ReadsQuoted cs as)
    (h' : ReadsQuoted cs' as') (hrest : rest.head? ≠ some '"') (hrest' : rest'.head? ≠ some '"')
    (heq : cs ++ '"' :: rest = cs' ++ '"' :: rest') : as = as' ∧ rest = rest' := by
  induction h generalizing cs' as' with
  | nil =>
    cases h' with
    | nil => exact ⟨rfl, (List.cons.inj heq).2⟩
    | quote h' =>
      rw [(List.cons.inj heq).2] at hrest
      exact absurd rfl hrest
    | char hc h' => exact absurd (List.cons.inj heq).1.symm hc
  | quote h ih =>
    cases h' with
    | nil =>
      rw [← (List.cons.inj heq).2] at hrest'
      exact absurd rfl hrest'
    | quote h' =>
      obtain ⟨has, hrests⟩ := ih h' (List.cons.inj (List.cons.inj heq).2).2
      exact ⟨congrArg _ has, hrests⟩
    | char hc h' => exact absurd (List.cons.inj heq).1.symm hc
  | char hc h ih =>
    cases h' with
    | nil => exact absurd (List.cons.inj heq).1 hc
    | quote h' => exact absurd (List.cons.inj heq).1 hc
    | char hc' h' =>
      obtain ⟨hchar, hchars⟩ := List.cons.inj heq
      obtain ⟨has, hrests⟩ := ih h' hchars
      exact ⟨by rw [hchar, has], hrests⟩

/-- The rest of a record after a field. -/
def Follows (rest : List Char) : Prop :=
  ∃ c cs, rest = c :: cs ∧ (c = ',' ∨ c = '\r')

theorem follows_comma (cs : List Char) : Follows (',' :: cs) :=
  ⟨_, _, rfl, .inl rfl⟩

theorem follows_return (cs : List Char) : Follows ('\r' :: cs) :=
  ⟨_, _, rfl, .inr rfl⟩

theorem Follows.head_ne_quote {rest : List Char} (h : Follows rest) : rest.head? ≠ some '"' := by
  obtain ⟨c, cs, rfl, rfl | rfl⟩ := h
  · simp
  · simp

theorem takeWhile_plain {cs rest : List Char} (hcs : ∀ c ∈ cs, isSpecial c = false)
    (hrest : Follows rest) : (cs ++ rest).takeWhile (fun c => !isSpecial c) = cs := by
  obtain ⟨c, rest, rfl, hc⟩ := hrest
  have hspecial : isSpecial c = true := by
    rcases hc with rfl | rfl
    · rfl
    · rfl
  rw [List.takeWhile_append_of_pos fun c hc => by rw [hcs c hc]; rfl]
  simp [hspecial]

theorem plain_ne_quoted {cs rest : List Char} (hcs : ∀ c ∈ cs, isSpecial c = false)
    (hrest : Follows rest) : (cs ++ rest).head? ≠ some '"' := by
  cases cs with
  | nil => exact hrest.head_ne_quote
  | cons c cs =>
    intro hhead
    have hc := hcs c List.mem_cons_self
    rw [Option.some.inj hhead] at hc
    cases hc

theorem ReadsField.unique {cs cs' rest rest' : List Char} {field field' : String}
    (h : ReadsField cs field) (h' : ReadsField cs' field') (hrest : Follows rest)
    (hrest' : Follows rest') (heq : cs ++ rest = cs' ++ rest') : field = field' ∧ rest = rest' := by
  cases h with
  | plain hcs =>
    cases h' with
    | plain hcs' =>
      have hsame := congrArg (List.takeWhile fun c => !isSpecial c) heq
      rw [takeWhile_plain hcs hrest, takeWhile_plain hcs' hrest'] at hsame
      subst hsame
      exact ⟨rfl, List.append_cancel_left heq⟩
    | quoted h' => exact absurd (congrArg List.head? heq) (plain_ne_quoted hcs hrest)
  | quoted h =>
    cases h' with
    | plain hcs' => exact absurd (congrArg List.head? heq).symm (plain_ne_quoted hcs' hrest')
    | quoted h' =>
      rw [List.append_assoc, List.append_assoc] at heq
      have hinner := (List.cons.inj heq).2
      obtain ⟨has, hrests⟩ := h.unique h' hrest.head_ne_quote hrest'.head_ne_quote hinner
      exact ⟨congrArg _ has, hrests⟩

theorem ReadsRecord.unique {cs cs' rest rest' : List Char} {fields fields' : List String}
    (h : ReadsRecord cs fields) (h' : ReadsRecord cs' fields')
    (heq : cs ++ '\r' :: rest = cs' ++ '\r' :: rest') : fields = fields' ∧ rest = rest' := by
  induction h generalizing cs' fields' with
  | last hfield =>
    cases h' with
    | last hfield' =>
      obtain ⟨rfl, hrests⟩ := hfield.unique hfield' (follows_return _) (follows_return _) heq
      exact ⟨rfl, (List.cons.inj hrests).2⟩
    | field hfield' h' =>
      rw [List.append_assoc] at heq
      obtain ⟨-, hrests⟩ := hfield.unique hfield' (follows_return _) (follows_comma _) heq
      cases (List.cons.inj hrests).1
  | field hfield h ih =>
    rw [List.append_assoc] at heq
    cases h' with
    | last hfield' =>
      obtain ⟨-, hrests⟩ := hfield.unique hfield' (follows_comma _) (follows_return _) heq
      cases (List.cons.inj hrests).1
    | field hfield' h' =>
      rw [List.append_assoc] at heq
      obtain ⟨rfl, hrests⟩ := hfield.unique hfield' (follows_comma _) (follows_comma _) heq
      obtain ⟨rfl, hrests⟩ := ih h' (List.cons.inj hrests).2
      exact ⟨rfl, hrests⟩

/-- A text is read in at most one way. -/
theorem ReadsText.unique {cs : List Char} {records records' : List (List String)}
    (h : ReadsText cs records) (h' : ReadsText cs records') : records = records' := by
  induction h generalizing records' with
  | nil =>
    generalize hcs : ([] : List Char) = cs at h'
    cases h' with
    | nil => rfl
    | record hrecord h' => exact absurd hcs.symm (List.append_ne_nil_of_right_ne_nil _ nofun)
  | @record cs fields rest records hrecord h ih =>
    generalize hcs : cs ++ '\r' :: '\n' :: rest = text at h'
    cases h' with
    | nil => exact absurd hcs (List.append_ne_nil_of_right_ne_nil _ nofun)
    | record hrecord' h' =>
      obtain ⟨rfl, hrests⟩ := hrecord.unique hrecord' hcs
      rw [← (List.cons.inj hrests).2] at h'
      rw [ih h']

end Unique

section Written

theorem readsQuoted_doubled (cs : List Char) :
    ReadsQuoted (cs.flatMap fun c => if c = '"' then ['"', '"'] else [c]) cs := by
  induction cs with
  | nil => exact .nil
  | cons c cs ih =>
    rw [List.flatMap_cons]
    by_cases hc : c = '"'
    · subst hc
      exact .quote ih
    · rw [if_neg hc]
      exact .char hc ih

theorem readsField_fieldChars (field : String) : ReadsField (fieldChars field) field := by
  have hfield : ∀ {cs : List Char}, ReadsField cs (String.ofList field.toList) →
      ReadsField cs field := by
    intro cs h
    rwa [String.ofList_toList] at h
  unfold fieldChars
  dsimp only
  split
  · exact hfield (.quoted (readsQuoted_doubled _))
  · next hquotes =>
    refine hfield (.plain fun c hc => ?_)
    have hnone : needsQuotes field.toList = false := Bool.eq_false_iff.mpr hquotes
    exact Bool.eq_false_iff.mpr fun hspecial =>
      List.any_eq_false.mp hnone c hc hspecial

theorem readsRecord_joinFields {fields : List String} (h : fields ≠ []) :
    ReadsRecord (joinFields (fields.map fieldChars)) fields := by
  induction fields with
  | nil => exact absurd rfl h
  | cons field fields ih =>
    cases fields with
    | nil => exact .last (readsField_fieldChars field)
    | cons next fields => exact .field (readsField_fieldChars field) (ih nofun)

theorem readsText_recordsText {records : List (List String)} (h : ∀ fields ∈ records, fields ≠ []) :
    ReadsText (recordsText records).toList records := by
  rw [recordsText, String.toList_ofList]
  induction records with
  | nil => exact .nil
  | cons fields records ih =>
    rw [List.flatMap_cons, recordChars, List.append_assoc]
    exact .record (readsRecord_joinFields (h fields List.mem_cons_self))
      (ih fun fields hfields => h fields (List.mem_cons_of_mem _ hfields))

/-- The text of records with the same number of fields is read as these records and as no other ones,
so other records with this number of fields have another text. -/
theorem recordsText_decodable {n : Nat} (hn : 1 ≤ n) {records : List (List String)}
    (hrecords : ∀ fields ∈ records, fields.length = n) :
    (∀ read, ReadsText (recordsText records).toList read ↔ read = records) ∧
      ∀ others : List (List String), (∀ fields ∈ others, fields.length = n) →
        recordsText others = recordsText records → others = records := by
  have hreads : ∀ {records : List (List String)}, (∀ fields ∈ records, fields.length = n) →
      ReadsText (recordsText records).toList records := by
    intro records hrecords
    refine readsText_recordsText fun fields hfields => ?_
    exact List.ne_nil_of_length_pos (by rw [hrecords fields hfields]; exact hn)
  refine ⟨fun read => ⟨fun hread => hread.unique (hreads hrecords), ?_⟩, fun others hothers heq => ?_⟩
  · rintro rfl
    exact hreads hrecords
  · have hother := hreads hothers
    rw [heq] at hother
    exact hother.unique (hreads hrecords)

/-- Fields that need quotes, and records that are one empty field. -/
theorem recordsText_decodable_quoted :
    (1 ≤ 2 ∧ (∀ fields ∈ [["a,b", "say \"hi\""], ["", "\r\n"]], fields.length = 2) ∧
      recordsText [["a,b", "say \"hi\""], ["", "\r\n"]] =
        "\"a,b\",\"say \"\"hi\"\"\"\r\n,\"\r\n\"\r\n" ∧
      ∀ read, ReadsText (recordsText [["a,b", "say \"hi\""], ["", "\r\n"]]).toList read ↔
        read = [["a,b", "say \"hi\""], ["", "\r\n"]]) ∧
    recordsText [[""], [""]] ≠ recordsText [[""]] := by
  refine ⟨⟨by decide, by decide, by decide, (recordsText_decodable (n := 2) (by decide) (by decide)).1⟩,
    fun heq => ?_⟩
  have hsame := (recordsText_decodable (n := 1) (by decide) (by decide)).2 _ (by decide) heq
  exact absurd hsame (by decide)

end Written
end TableRow
end ChainQuery
