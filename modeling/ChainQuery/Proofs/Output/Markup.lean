import ChainQuery.Output.EventLog
import Mathlib.Data.List.Basic

/-!
# Reading markup

A reader of tags, character by character, and of the elements that the tags enclose. What stands in the
value of an attribute is read by rules: the plain ones know five references by name and nothing else.
Tags that are written with escaped values are read as these tags, whatever the values are.
-/

namespace ChainQuery
namespace Markup

inductive TagKind where
  | declaration
  | opening
  | closing
  | single
deriving DecidableEq, Repr

structure Tag where
  kind : TagKind
  name : String
  attributes : List (String × String) := []
deriving DecidableEq, Repr

/-- What a character of a value stands for when it is no reference, and what a reference stands for. -/
structure Rules where
  literal : Char → Char
  reference? : List Char → Option Char

def entity? (name : List Char) : Option Char :=
  List.lookup name [("amp".toList, '&'), ("lt".toList, '<'), ("gt".toList, '>'),
    ("quot".toList, '"'), ("apos".toList, '\'')]

def marks : List Char :=
  ['&', '<', '>', '"', '\'']

/-- Five references, and all other characters for themselves. -/
def plainRules : Rules :=
  ⟨id, entity?⟩

def isBreak (c : Char) : Bool :=
  c == '\t' || c == '\n' || c == '\r'

def isSpace (c : Char) : Bool :=
  c == ' ' || isBreak c

def isNameStart (c : Char) : Bool :=
  c.isAlpha || c == ':' || c == '_'

def isNameChar (c : Char) : Bool :=
  isNameStart c || c.isDigit || c == '.' || c == '-'

/-- What is named by a name in a tag. -/
inductive Named where
  | tag (kind : TagKind)
  | attribute (of : Tag)
deriving DecidableEq, Repr

/-- Where a reader of tags is. -/
inductive Place where
  | between
  | opened
  | name (of : Named) (cs : List Char)
  /-- After the name of a tag or the value of an attribute, with or without space behind it. -/
  | inside (tag : Tag) (spaced : Bool)
  | assigned (tag : Tag) (name : String)
  | value (tag : Tag) (name : String) (cs : List Char)
  | reference (tag : Tag) (name : String) (cs entity : List Char)
  | last (tag : Tag)
deriving DecidableEq, Repr

/-- After what may be the last thing in a tag there is space, or the tag ends as tags of its kind do. -/
def leave (tag : Tag) (c : Char) : Option (Place × Option Tag) :=
  if isSpace c then some (.inside tag true, none)
  else
    match tag.kind, c with
    | .opening, '>' => some (.between, some tag)
    | .closing, '>' => some (.between, some tag)
    | .opening, '/' => some (.last { tag with kind := .single }, none)
    | .declaration, '?' => some (.last tag, none)
    | _, _ => none

/-- The place behind a character, and the tag that ends with it. -/
def step (rules : Rules) (place : Place) (c : Char) : Option (Place × Option Tag) :=
  match place with
  | .between =>
    if c = '<' then some (.opened, none) else if isSpace c then some (.between, none) else none
  | .opened =>
    if c = '/' then some (.name (.tag .closing) [], none)
    else if c = '?' then some (.name (.tag .declaration) [], none)
    else if isNameStart c then some (.name (.tag .opening) [c], none)
    else none
  | .name of [] => if isNameStart c then some (.name of [c], none) else none
  | .name of cs =>
    if isNameChar c then some (.name of (cs ++ [c]), none)
    else
      match of with
      | .tag kind => leave ⟨kind, String.ofList cs, []⟩ c
      | .attribute tag => if c = '=' then some (.assigned tag (String.ofList cs), none) else none
  | .inside tag spaced =>
    if isNameStart c then
      if spaced && tag.kind != .closing then some (.name (.attribute tag) [c], none) else none
    else leave tag c
  | .assigned tag name =>
    if c = '"' ∧ name ∉ tag.attributes.map (·.1) then some (.value tag name [], none) else none
  | .value tag name cs =>
    if c = '"' then
      some (.inside { tag with attributes := tag.attributes ++ [(name, String.ofList cs)] } false, none)
    else if c = '&' then some (.reference tag name cs [], none)
    else if c = '<' then none
    else some (.value tag name (cs ++ [rules.literal c]), none)
  | .reference tag name cs entity =>
    if c = ';' then (rules.reference? entity).map fun a => (.value tag name (cs ++ [a]), none)
    else some (.reference tag name cs (entity ++ [c]), none)
  | .last tag => if c = '>' then some (.between, some tag) else none

/-- The tags that end in a text which is read from a place on. It ends between tags. -/
def read (rules : Rules) (place : Place) : List Char → Option (List Tag)
  | [] => if place = .between then some [] else none
  | c :: cs =>
    match step rules place c with
    | none => none
    | some (next, tag) => (read rules next cs).map (tag.toList ++ ·)

/-- The tags of a text, between which there is nothing but space. -/
def tags? (rules : Rules) (cs : List Char) : Option (List Tag) :=
  read rules .between cs

inductive Node where
  | mk (name : String) (attributes : List (String × String)) (children : List Node)

/-- What has been read of elements: those that are open, the innermost one first, each with what stands
before it, and what stands in the innermost one. -/
abbrev Nesting := List (Tag × List Node) × List Node

/-- An element ends with the tag that has the name of the one it began with. -/
def enclose (read : Nesting) (tag : Tag) : Option Nesting :=
  match tag.kind, read with
  | .opening, (opened, done) => some ((tag, done) :: opened, [])
  | .single, (opened, done) => some (opened, done ++ [.mk tag.name tag.attributes []])
  | .closing, ((start, before) :: opened, done) =>
    if start.name = tag.name then some (opened, before ++ [.mk start.name start.attributes done])
    else none
  | _, _ => none

/-- The one element that the tags behind a declaration enclose. -/
def root? : List Tag → Option Node
  | ⟨.declaration, "xml", _⟩ :: tags =>
    match tags.foldlM enclose ([], []) with
    | some ([], [root]) => some root
    | _ => none
  | _ => none

def attributeChars (a : String × String) : List Char :=
  ' ' :: a.1.toList ++ '=' :: Document.quotedChars a.2

/-- What stands before the name of a tag and at its end. -/
def TagKind.ends : TagKind → List Char × List Char
  | declaration => (['<', '?'], [' ', '?', '>'])
  | opening => (['<'], ['>'])
  | closing => (['<', '/'], ['>'])
  | single => (['<'], ['/', '>'])

/-- A tag as it is written, with its values escaped. -/
def Tag.chars (t : Tag) : List Char :=
  t.kind.ends.1 ++ (t.name.toList ++ t.attributes.flatMap attributeChars) ++ t.kind.ends.2

/-- Tags in lines of their own, behind their numbers of blanks. -/
def linesChars (lines : List (Nat × Tag)) : List Char :=
  lines.flatMap fun l => Document.line l.1 l.2.chars

def values (lines : List (Nat × Tag)) : List String :=
  lines.flatMap fun l => l.2.attributes.map (·.2)

def Tag.mapValues (f : String → String) (t : Tag) : Tag :=
  { t with attributes := t.attributes.map fun a => (a.1, f a.2) }

def Tag.frame (t : Tag) : Tag :=
  t.mapValues fun _ => ""

def IsName (name : String) : Prop :=
  ∃ c cs, name.toList = c :: cs ∧ isNameStart c = true ∧ ∀ c ∈ cs, isNameChar c = true

instance (name : String) : Decidable (IsName name) :=
  match h : name.toList with
  | [] => isFalse fun ⟨_, _, hchars, _⟩ => nomatch h.symm.trans hchars
  | c :: cs =>
    decidable_of_iff (isNameStart c = true ∧ cs.all isNameChar = true)
      ⟨fun hname => ⟨c, cs, h, hname.1, List.all_eq_true.mp hname.2⟩, fun ⟨_, _, hchars, hname⟩ => by
        cases h.symm.trans hchars
        exact ⟨hname.1, List.all_eq_true.mpr hname.2⟩⟩

/-- A tag whose names are names, and no two attributes of which have the same one. -/
structure Tag.WellNamed (t : Tag) : Prop where
  name : IsName t.name
  attributes : ∀ a ∈ t.attributes, IsName a.1
  nodup : (t.attributes.map (·.1)).Nodup
  closing : t.kind = .closing → t.attributes = []

instance (t : Tag) : Decidable t.WellNamed :=
  decidable_of_iff (IsName t.name ∧ (∀ a ∈ t.attributes, IsName a.1) ∧
      (t.attributes.map (·.1)).Nodup ∧ (t.kind = .closing → t.attributes = []))
    ⟨fun ⟨hname, hattributes, hnodup, hclosing⟩ => ⟨hname, hattributes, hnodup, hclosing⟩,
      fun h => ⟨h.name, h.attributes, h.nodup, h.closing⟩⟩

theorem Tag.mapValues_mapValues (f g : String → String) (t : Tag) :
    (t.mapValues f).mapValues g = t.mapValues (g ∘ f) := by
  simp [mapValues, Function.comp_def]

theorem Tag.WellNamed.mapValues {t : Tag} (h : t.WellNamed) (f : String → String) :
    (t.mapValues f).WellNamed where
  name := h.name
  attributes a ha := by
    obtain ⟨b, hb, rfl⟩ := List.mem_map.mp ha
    exact h.attributes b hb
  nodup := by
    have hnames : (t.mapValues f).attributes.map (·.1) = t.attributes.map (·.1) := List.map_map
    rw [hnames]
    exact h.nodup
  closing hclosing := by
    rw [Tag.mapValues, h.closing hclosing]
    rfl

namespace Rules

/-- The five references are read as everywhere, and only tabs and ends of lines as something else. -/
structure Standard (rules : Rules) : Prop where
  reference : ∀ {name c}, entity? name = some c → rules.reference? name = some c
  literal : ∀ {c}, isBreak c = false → rules.literal c = c

theorem standard_plain : plainRules.Standard :=
  ⟨id, fun _ => rfl⟩

def text (rules : Rules) (s : String) : String :=
  String.ofList (s.toList.map rules.literal)

theorem text_plain (s : String) : plainRules.text s = s := by
  rw [text, plainRules, List.map_id, String.ofList_toList]

theorem Standard.text_eq {rules : Rules} (h : rules.Standard) {s : String}
    (hs : ∀ c ∈ s.toList, isBreak c = false) : rules.text s = s := by
  rw [text, List.map_congr_left fun c hc => h.literal (hs c hc), List.map_id', String.ofList_toList]

end Rules

/-- A character that ends something in markup is escaped by the name for it; others are not escaped. -/
theorem escape_cases (c : Char) :
    (c ∈ marks ∧ ∃ name, Document.escape c = '&' :: name ++ [';'] ∧
        (∀ d ∈ name, d.isAlpha = true) ∧ entity? name = some c) ∨
      (c ∉ marks ∧ Document.escape c = [c]) := by
  have hnamed : ∀ (mark : Char) (name : List Char), Document.escape mark = '&' :: name ++ [';'] →
      name.all Char.isAlpha = true → entity? name = some mark →
      ∃ name, Document.escape mark = '&' :: name ++ [';'] ∧
        (∀ d ∈ name, d.isAlpha = true) ∧ entity? name = some mark :=
    fun _ name hescape hletters hentity => ⟨name, hescape, List.all_eq_true.mp hletters, hentity⟩
  by_cases hc : c ∈ marks
  · refine .inl ⟨hc, ?_⟩
    have hmarks : c = '&' ∨ c = '<' ∨ c = '>' ∨ c = '"' ∨ c = '\'' := by simpa [marks] using hc
    rcases hmarks with rfl | rfl | rfl | rfl | rfl
    · exact hnamed '&' "amp".toList (by decide) (by decide) (by decide)
    · exact hnamed '<' "lt".toList (by decide) (by decide) (by decide)
    · exact hnamed '>' "gt".toList (by decide) (by decide) (by decide)
    · exact hnamed '"' "quot".toList (by decide) (by decide) (by decide)
    · exact hnamed '\'' "apos".toList (by decide) (by decide) (by decide)
  · have hne : ∀ mark ∈ marks, c ≠ mark := fun mark hmark heq => hc (heq ▸ hmark)
    refine .inr ⟨hc, ?_⟩
    rw [Document.escape, if_neg (hne '&' (by decide)), if_neg (hne '<' (by decide)),
      if_neg (hne '>' (by decide)), if_neg (hne '"' (by decide)), if_neg (hne '\'' (by decide))]

theorem isBreak_of_mem_marks : ∀ c ∈ marks, isBreak c = false := by
  simp [marks, isBreak]

section Reading
variable {rules : Rules} {place next last : Place} {cs ds : List Char} {tag : Tag}

/-- From a place characters lead to another one, and tags end on the way. -/
def Leads (rules : Rules) (place : Place) (cs : List Char) (next : Place) (tags : List Tag) : Prop :=
  ∀ rest, read rules place (cs ++ rest) = (read rules next rest).map (tags ++ ·)

theorem leads_nil : Leads rules place [] place [] := by
  intro rest
  cases hread : read rules place rest <;> simp [hread]

theorem Leads.append {tags more : List Tag} (h : Leads rules place cs next tags)
    (h' : Leads rules next ds last more) : Leads rules place (cs ++ ds) last (tags ++ more) := by
  intro rest
  rw [List.append_assoc, h, h', Option.map_map]
  congr 1
  funext later
  exact (List.append_assoc _ _ _).symm

theorem leads_cons {c : Char} {ended : Option Tag} {tags : List Tag}
    (h : step rules place c = some (next, ended)) (h' : Leads rules next cs last tags) :
    Leads rules place (c :: cs) last (ended.toList ++ tags) := by
  intro rest
  rw [List.cons_append, read, h]
  dsimp only
  rw [h', Option.map_map]
  congr 1
  funext later
  exact (List.append_assoc _ _ _).symm

theorem leads_skip {c : Char} {tags : List Tag} (h : step rules place c = some (next, none))
    (h' : Leads rules next cs last tags) : Leads rules place (c :: cs) last tags :=
  leads_cons h h'

theorem leads_end {c : Char} {ended : Tag} (h : step rules place c = some (next, some ended)) :
    Leads rules place [c] next [ended] :=
  leads_cons h leads_nil

/-- No tag ends in the first characters. -/
theorem Leads.before {tags : List Tag} (h : Leads rules place cs next [])
    (h' : Leads rules next ds last tags) : Leads rules place (cs ++ ds) last tags :=
  h.append h'

theorem leads_spaces (n : Nat) :
    Leads rules .between (List.replicate n ' ') .between [] := by
  induction n with
  | zero => exact leads_nil
  | succ n ih => exact leads_skip rfl ih

theorem leads_nameChars {of : Named} (hne : ds ≠ []) (h : ∀ c ∈ cs, isNameChar c = true) :
    Leads rules (.name of ds) cs (.name of (ds ++ cs)) [] := by
  induction cs generalizing ds with
  | nil =>
    rw [List.append_nil]
    exact leads_nil
  | cons c cs ih =>
    have hstep : step rules (.name of ds) c = some (.name of (ds ++ [c]), none) := by
      cases ds with
      | nil => exact absurd rfl hne
      | cons d ds => exact if_pos (h c List.mem_cons_self)
    rw [List.append_cons]
    exact leads_skip hstep
      (ih (List.append_ne_nil_of_right_ne_nil _ nofun) fun c hc => h c (List.mem_cons_of_mem _ hc))

theorem leads_referenceChars {name : String} {entity : List Char} (h : ';' ∉ entity) :
    Leads rules (.reference tag name cs ds) entity (.reference tag name cs (ds ++ entity)) [] := by
  induction entity generalizing ds with
  | nil =>
    rw [List.append_nil]
    exact leads_nil
  | cons c entity ih =>
    have hc : c ≠ ';' := fun hc => h (hc ▸ List.mem_cons_self)
    rw [List.append_cons]
    exact leads_skip (if_neg hc) (ih fun hmem => h (List.mem_cons_of_mem _ hmem))

/-- Within a value an escaped text leads on within this value, whatever it is. -/
theorem leads_escaped (hrules : rules.Standard) {name : String} (as : List Char) :
    Leads rules (.value tag name cs) (as.flatMap Document.escape)
      (.value tag name (cs ++ as.map rules.literal)) [] := by
  induction as generalizing cs with
  | nil =>
    rw [List.map_nil, List.append_nil]
    exact leads_nil
  | cons a as ih =>
    rw [List.flatMap_cons, List.map_cons, List.append_cons]
    refine Leads.before ?_ ih
    rcases escape_cases a with ⟨ha, entity, hescape, hletters, hentity⟩ | ⟨ha, hescape⟩
    · have hends : ';' ∉ entity := fun hmem => absurd (hletters _ hmem) (by decide)
      have hend : step rules (.reference tag name cs entity) ';' =
          some (.value tag name (cs ++ [rules.literal a]), none) := by
        rw [hrules.literal (isBreak_of_mem_marks a ha)]
        show (rules.reference? entity).map _ = _
        rw [hrules.reference hentity]
        rfl
      rw [hescape]
      exact leads_skip rfl ((leads_referenceChars hends).before (leads_skip hend leads_nil))
    · rw [hescape]
      have hmark : ∀ mark ∈ marks, a ≠ mark := fun mark hmark heq => ha (heq ▸ hmark)
      refine leads_skip ?_ leads_nil
      show (if a = '"' then _ else _) = _
      rw [if_neg (hmark '"' (by decide)), if_neg (hmark '&' (by decide)),
        if_neg (hmark '<' (by decide))]

/-- From a place a tag is left by any character that is not of a name. -/
def Leaves (rules : Rules) (place : Place) (tag : Tag) : Prop :=
  ∀ c, isNameChar c = false → step rules place c = leave tag c

theorem leaves_name {kind : TagKind} (hne : cs ≠ []) :
    Leaves rules (.name (.tag kind) cs) ⟨kind, String.ofList cs, []⟩ := by
  intro c hc
  cases cs with
  | nil => exact absurd rfl hne
  | cons d cs => exact if_neg (by rw [hc]; decide)

theorem leaves_inside {spaced : Bool} : Leaves rules (.inside tag spaced) tag := by
  intro c hc
  have hstart : isNameStart c = false := by
    cases hstart : isNameStart c with
    | false => rfl
    | true => rw [isNameChar, hstart] at hc; cases hc
  exact if_neg (by rw [hstart]; decide)

theorem leads_attribute (hrules : rules.Standard) (hplace : Leaves rules place tag)
    {a : String × String} (hname : IsName a.1) (hopen : tag.kind ≠ .closing)
    (hnew : a.1 ∉ tag.attributes.map (·.1)) :
    Leads rules place (attributeChars a)
      (.inside { tag with attributes := tag.attributes ++ [(a.1, rules.text a.2)] } false) [] := by
  obtain ⟨c, cs, hchars, hc, hcs⟩ := hname
  have hspace : step rules place ' ' = some (.inside tag true, none) := by
    rw [hplace ' ' (by decide)]
    rfl
  have hstart : step rules (.inside tag true) c = some (.name (.attribute tag) [c], none) := by
    rw [step, if_pos hc, if_pos]
    simpa using hopen
  have hassign : step rules (.name (.attribute tag) (c :: cs)) '=' =
      some (.assigned tag a.1, none) := by
    rw [← String.ofList_toList (s := a.1), hchars]
    rfl
  have hquote : step rules (.assigned tag a.1) '"' = some (.value tag a.1 [], none) :=
    if_pos ⟨rfl, hnew⟩
  rw [attributeChars, hchars]
  refine leads_skip hspace (leads_skip hstart ?_)
  refine (leads_nameChars (List.cons_ne_nil _ _) hcs).before
    (leads_skip hassign (leads_skip hquote ?_))
  exact (leads_escaped hrules a.2.toList).before (leads_skip rfl leads_nil)

theorem leads_attributes (hrules : rules.Standard) {attributes : List (String × String)}
    (hplace : Leaves rules place tag) (hnames : ∀ a ∈ attributes, IsName a.1)
    (hopen : attributes ≠ [] → tag.kind ≠ .closing)
    (hnodup : ((tag.attributes ++ attributes).map (·.1)).Nodup) :
    ∃ next, Leaves rules next ((⟨tag.kind, tag.name, tag.attributes ++
        attributes.map fun a => (a.1, rules.text a.2)⟩ : Tag)) ∧
      Leads rules place (attributes.flatMap attributeChars) next [] := by
  induction attributes generalizing place tag with
  | nil =>
    rw [List.map_nil, List.append_nil]
    exact ⟨place, hplace, leads_nil⟩
  | cons a attributes ih =>
    have hnew : a.1 ∉ tag.attributes.map (·.1) := by
      rw [List.map_append, List.nodup_append] at hnodup
      exact fun hmem => hnodup.2.2 _ hmem _ List.mem_cons_self rfl
    have hkind := hopen (List.cons_ne_nil _ _)
    let grown : Tag := { tag with attributes := tag.attributes ++ [(a.1, rules.text a.2)] }
    have hinside : Leaves rules (.inside grown false) grown := leaves_inside
    obtain ⟨next, hnext, hleads⟩ := ih hinside (fun b hb => hnames b (List.mem_cons_of_mem _ hb))
      (fun _ => hkind) (by simpa [grown] using hnodup)
    refine ⟨next, ?_, ?_⟩
    · rw [List.map_cons, List.append_cons]
      exact hnext
    · rw [List.flatMap_cons]
      exact (leads_attribute hrules hplace (hnames a List.mem_cons_self) hkind hnew).before hleads

theorem leads_tag (hrules : rules.Standard) {t : Tag} (ht : t.WellNamed) :
    Leads rules .between t.chars .between [t.mapValues rules.text] := by
  obtain ⟨c, cs, hchars, hc, hcs⟩ := ht.name
  have hstart : ∀ (kind : TagKind) {ending : List Char},
      (t.attributes ≠ [] → kind ≠ .closing) →
      (∀ {place}, Leaves rules place ⟨kind, t.name, (t.mapValues rules.text).attributes⟩ →
        Leads rules place ending .between [t.mapValues rules.text]) →
      Leads rules (.name (.tag kind) [c])
        (cs ++ t.attributes.flatMap attributeChars ++ ending) .between [t.mapValues rules.text] := by
    intro kind ending hopen hending
    have hplace : Leaves rules (.name (.tag kind) (c :: cs)) ⟨kind, t.name, []⟩ := by
      rw [← String.ofList_toList (s := t.name), hchars]
      exact leaves_name (List.cons_ne_nil _ _)
    obtain ⟨next, hnext, hleads⟩ := leads_attributes hrules hplace ht.attributes hopen ht.nodup
    exact ((leads_nameChars (List.cons_ne_nil _ _) hcs).before hleads).before (hending hnext)
  have hopening : step rules .opened c = some (.name (.tag .opening) [c], none) := by
    have hslash : c ≠ '/' := by rintro rfl; revert hc; decide
    have hquestion : c ≠ '?' := by rintro rfl; revert hc; decide
    rw [step, if_neg hslash, if_neg hquestion, if_pos hc]
  have hnamed : ∀ kind, step rules (.name (.tag kind) []) c = some (.name (.tag kind) [c], none) :=
    fun kind => if_pos hc
  obtain ⟨kind, name, attributes⟩ := t
  dsimp only at hchars
  cases kind with
  | declaration =>
    rw [Tag.chars, hchars]
    refine leads_skip rfl (leads_skip rfl
      (leads_skip (hnamed _) (hstart _ (fun _ => nofun) fun hplace => ?_)))
    exact leads_skip (hplace ' ' (by decide))
      (leads_skip rfl (leads_end rfl))
  | opening =>
    rw [Tag.chars, hchars]
    refine leads_skip rfl
      (leads_skip hopening (hstart _ (fun _ => nofun) fun hplace => ?_))
    exact leads_end (hplace '>' (by decide))
  | closing =>
    rw [Tag.chars, hchars]
    refine leads_skip rfl (leads_skip rfl
      (leads_skip (hnamed _)
        (hstart _ (fun hne => absurd (ht.closing rfl) hne) fun hplace => ?_)))
    exact leads_end (hplace '>' (by decide))
  | single =>
    rw [Tag.chars, hchars]
    refine leads_skip rfl
      (leads_skip hopening (hstart .opening (fun _ => nofun) fun hplace => ?_))
    exact leads_skip (hplace '/' (by decide)) (leads_end rfl)

/-- Tags in lines of their own are read as these tags. -/
theorem tags?_lines (hrules : rules.Standard) {lines : List (Nat × Tag)}
    (hlines : ∀ l ∈ lines, l.2.WellNamed) :
    tags? rules (linesChars lines) = some (lines.map fun l => l.2.mapValues rules.text) := by
  have hleads : Leads rules .between (linesChars lines) .between
      (lines.map fun l => l.2.mapValues rules.text) := by
    induction lines with
    | nil => exact leads_nil
    | cons l lines ih =>
      rw [linesChars, List.flatMap_cons, List.map_cons]
      have hend : Leads rules .between ['\n'] .between [] := leads_skip rfl leads_nil
      have hline := ((leads_spaces l.1).before
        (leads_tag hrules (hlines l List.mem_cons_self))).append hend
      exact hline.append (ih fun l hl => hlines l (List.mem_cons_of_mem _ hl))
  have hread := hleads []
  rw [List.append_nil] at hread
  rw [tags?, hread]
  simp [read]

end Reading

section Nesting

/-- In any place tags are read as elements. -/
def Encloses (tags : List Tag) (nodes : List Node) : Prop :=
  ∀ opened done, tags.foldlM enclose (opened, done) = some (opened, done ++ nodes)

theorem Encloses.append {tags more : List Tag} {nodes others : List Node} (h : Encloses tags nodes)
    (h' : Encloses more others) : Encloses (tags ++ more) (nodes ++ others) := by
  intro opened done
  rw [List.foldlM_append, h, Option.bind_eq_bind, Option.bind_some, h', List.append_assoc]

theorem encloses_flatMap {tags : α → List Tag} {node : α → Node} (as : List α)
    (h : ∀ a, Encloses (tags a) [node a]) : Encloses (as.flatMap tags) (as.map node) := by
  induction as with
  | nil =>
    intro opened done
    rw [List.map_nil, List.append_nil]
    rfl
  | cons a as ih =>
    rw [List.flatMap_cons]
    exact (h a).append ih

theorem encloses_single (name : String) (attributes : List (String × String)) :
    Encloses [⟨.single, name, attributes⟩] [.mk name attributes []] :=
  fun _ _ => rfl

/-- What is read between the tags of an element becomes its children. -/
theorem Encloses.element {tags : List Tag} {nodes : List Node} (h : Encloses tags nodes)
    (name : String) (attributes : List (String × String)) :
    Encloses (⟨.opening, name, attributes⟩ :: tags ++ [⟨.closing, name, []⟩])
      [.mk name attributes nodes] := by
  intro opened done
  rw [List.cons_append, List.foldlM_cons]
  show (tags ++ _).foldlM enclose ((⟨.opening, name, attributes⟩, done) :: opened, []) = _
  rw [List.foldlM_append, h, Option.bind_eq_bind, Option.bind_some, List.nil_append]
  show (if name = name then _ else _ : Option Nesting).bind some = _
  rw [if_pos rfl]
  rfl

theorem root?_of_encloses {tags : List Tag} {root : Node} (h : Encloses tags [root])
    (attributes : List (String × String)) :
    root? (⟨.declaration, "xml", attributes⟩ :: tags) = some root := by
  rw [root?, h [] []]
  rfl

end Nesting

end Markup
end ChainQuery
