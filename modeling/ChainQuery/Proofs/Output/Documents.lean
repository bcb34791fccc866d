import ChainQuery.Proofs.Output.Merging
import ChainQuery.Proofs.Output.OutputAccounts
import ChainQuery.Proofs.Output.Xml

/-!
# Reading process logs

A document is read tag by tag as the traces for which it was written, whatever texts they are made of.
As XML 1.0 it is read as these traces just if all texts consist of characters that XML allows and that
are neither tabs nor ends of lines. The keys in an element differ just if no emission has a key that
the document adds by itself.
-/

namespace ChainQuery

open Markup

/-- A trace as it is read: its attributes, and those of each of its events. -/
structure TraceListing where
  attributes : List Attribute
  events : List (List Attribute)
deriving DecidableEq, Repr

/-- The attributes of an event in a document. An id is the first one. -/
def TraceEvent.listing (e : TraceEvent) : List Attribute :=
  (e.id.map (⟨.string, "concept:instance", ·⟩)).toList ++ e.attributes.map (·.2)

/-- The trace of an instance in a document, with the name of the instance first. -/
def Trace.listing (instanceId : String) (t : Trace) : TraceListing where
  attributes := ⟨.string, "concept:name", instanceId⟩ :: t.attributes.map (·.2)
  events := t.events.map TraceEvent.listing

def Attribute.mapTexts (f : String → String) (a : Attribute) : Attribute :=
  ⟨a.type, f a.key, f a.text⟩

def Attribute.texts (a : Attribute) : List String :=
  [a.key, a.text]

def Attribute.tag (a : Attribute) : Tag :=
  ⟨.single, a.type.text, [("key", a.key), ("value", a.text)]⟩

def Attribute.node (a : Attribute) : Node :=
  .mk a.type.text [("key", a.key), ("value", a.text)] []

namespace TraceListing

def mapTexts (f : String → String) (t : TraceListing) : TraceListing :=
  ⟨t.attributes.map (Attribute.mapTexts f), t.events.map (·.map (Attribute.mapTexts f))⟩

def frame (t : TraceListing) : TraceListing :=
  t.mapTexts fun _ => ""

def texts (t : TraceListing) : List String :=
  t.attributes.flatMap Attribute.texts ++ t.events.flatMap (·.flatMap Attribute.texts)

def eventLines (attributes : List Attribute) : List (Nat × Tag) :=
  (4, ⟨.opening, "event", []⟩) :: attributes.map (fun a => (6, a.tag)) ++
    [(4, ⟨.closing, "event", []⟩)]

def lines (t : TraceListing) : List (Nat × Tag) :=
  (2, ⟨.opening, "trace", []⟩) :: (t.attributes.map (fun a => (4, a.tag)) ++
    t.events.flatMap eventLines) ++ [(2, ⟨.closing, "trace", []⟩)]

def node (t : TraceListing) : Node :=
  .mk "trace" [] (t.attributes.map Attribute.node ++
    t.events.map fun attributes => .mk "event" [] (attributes.map Attribute.node))

end TraceListing

namespace Document

def listings (traces : Document) : List TraceListing :=
  traces.map fun t => t.2.listing t.1

def logAttributes : List (String × String) :=
  [("xes.version", "1.0"), ("xes.features", "nested-attributes")]

def extensionAttributes : List (String × String) :=
  [("name", "Concept"), ("prefix", "concept"), ("uri", "http://www.xes-standard.org/concept.xesext")]

def openingLines : List (Nat × Tag) :=
  [(0, ⟨.declaration, "xml", [("version", "1.0"), ("encoding", "UTF-8")]⟩),
    (0, ⟨.opening, "log", logAttributes⟩), (2, ⟨.single, "extension", extensionAttributes⟩)]

/-- The tags of a document with their indents. -/
def lines (ts : List TraceListing) : List (Nat × Tag) :=
  openingLines ++ ts.flatMap TraceListing.lines ++ [(0, ⟨.closing, "log", []⟩)]

def tags (ts : List TraceListing) : List Tag :=
  (lines ts).map (·.2)

section Reader

def readAttribute? : Node → Option Attribute
  | .mk name [("key", key), ("value", text)] [] =>
    (AttributeType.ofKeyword? name).map (⟨·, key, text⟩)
  | _ => none

def readEvent? : Node → Option (List Attribute)
  | .mk "event" [] children => children.mapM readAttribute?
  | _ => none

def isEvent : Node → Bool
  | .mk name _ _ => name == "event"

/-- A trace has its attributes before its events. -/
def readTrace? : Node → Option TraceListing
  | .mk "trace" [] children =>
    match (children.takeWhile (!isEvent ·)).mapM readAttribute?,
      (children.dropWhile (!isEvent ·)).mapM readEvent? with
    | some attributes, some events => some ⟨attributes, events⟩
    | _, _ => none
  | _ => none

def readTraces? : Node → Option (List TraceListing)
  | .mk "log" _ (.mk "extension" _ [] :: traces) => traces.mapM readTrace?
  | _ => none

/-- The traces of the log that tags enclose. -/
def ofTags? (tags : List Tag) : Option (List TraceListing) :=
  (root? tags).bind readTraces?

/-- The traces of a document that is read tag by tag, with the five references and nothing else. -/
def read? (text : String) : Option (List TraceListing) :=
  (tags? plainRules text.toList).bind ofTags?

/-- The traces of a document that is read as XML 1.0. -/
def readXml? (text : String) : Option (List TraceListing) :=
  (xmlTags? text.toList).bind ofTags?

end Reader

section Layout

theorem attributeChars_eq (indent : Nat) (a : Attribute) :
    attributeChars indent a = line indent a.tag.chars := by
  have hkey : " key=".toList = ' ' :: "key".toList ++ ['='] := by decide
  have hvalue : " value=".toList = ' ' :: "value".toList ++ ['='] := by decide
  have hend : "/>".toList = ['/', '>'] := by decide
  rw [attributeChars, hkey, hvalue, hend, Attribute.tag, Tag.chars]
  simp [Markup.attributeChars, TagKind.ends]

theorem attributes_eq (indent : Nat) (attributes : List Attribute) :
    attributes.flatMap (attributeChars indent) =
      linesChars (attributes.map fun a => (indent, a.tag)) := by
  rw [linesChars, List.flatMap_map]
  exact congrArg (attributes.flatMap ·) (funext fun a => attributeChars_eq indent a)

theorem linesChars_append (ls ms : List (Nat × Tag)) :
    linesChars (ls ++ ms) = linesChars ls ++ linesChars ms :=
  List.flatMap_append

theorem eventChars_eq (e : TraceEvent) :
    eventChars e = linesChars (TraceListing.eventLines e.listing) := by
  have hends : line 4 "<event>".toList = linesChars [(4, ⟨.opening, "event", []⟩)] ∧
      line 4 "</event>".toList = linesChars [(4, ⟨.closing, "event", []⟩)] := by decide
  have hattributes : ∀ id, (eventChars ⟨id, e.attributes⟩) = line 4 "<event>".toList ++
      (TraceEvent.listing ⟨id, e.attributes⟩).flatMap (attributeChars 6) ++
        line 4 "</event>".toList := by
    intro id
    cases id with
    | none => simp [eventChars, TraceEvent.listing, attributesChars, List.flatMap_map]
    | some id => simp [eventChars, TraceEvent.listing, attributesChars, List.flatMap_map]
  refine (hattributes e.id).trans ?_
  rw [hends.1, hends.2, attributes_eq, ← linesChars_append, ← linesChars_append]
  rfl

theorem traceChars_eq (instanceId : String) (t : Trace) :
    traceChars instanceId t = linesChars (t.listing instanceId).lines := by
  have hattributes : attributesChars 4 t.attributes =
      (t.attributes.map (·.2)).flatMap (attributeChars 4) := (List.flatMap_map _ _ _).symm
  have hevents : t.events.flatMap eventChars =
      linesChars ((t.events.map TraceEvent.listing).flatMap TraceListing.eventLines) := by
    rw [linesChars, List.flatMap_assoc, List.flatMap_map]
    exact congrArg (t.events.flatMap ·) (funext eventChars_eq)
  have hends : line 2 "<trace>".toList = linesChars [(2, ⟨.opening, "trace", []⟩)] ∧
      line 2 "</trace>".toList = linesChars [(2, ⟨.closing, "trace", []⟩)] := by decide
  have hall : attributeChars 4 ⟨.string, "concept:name", instanceId⟩ ++
      (t.attributes.map (·.2)).flatMap (attributeChars 4) =
        linesChars ((t.listing instanceId).attributes.map fun a => (4, a.tag)) := by
    rw [← attributes_eq]
    rfl
  rw [traceChars, hattributes, hevents, hends.1, hends.2, List.append_assoc (linesChars _), hall,
    ← linesChars_append, ← linesChars_append, ← linesChars_append]
  rfl

theorem toList_text (traces : Document) :
    (text traces).toList = linesChars (lines traces.listings) := by
  have htraces : traces.flatMap (fun t => traceChars t.1 t.2) =
      linesChars (traces.listings.flatMap TraceListing.lines) := by
    rw [linesChars, List.flatMap_assoc, listings, List.flatMap_map]
    exact congrArg (traces.flatMap ·) (funext fun t => traceChars_eq t.1 t.2)
  have hopening : opening = linesChars openingLines := by decide +kernel
  have hclosing : line 0 "</log>".toList = linesChars [(0, ⟨.closing, "log", []⟩)] := by decide
  rw [text, String.toList_ofList, htraces, hopening, hclosing, ← linesChars_append,
    ← linesChars_append]
  rfl

end Layout

section RoundTrip

theorem wellNamed_tag (a : Attribute) : a.tag.WellNamed where
  name := by
    show IsName a.type.text
    cases a.type <;> decide
  attributes b hb := by
    rcases List.mem_pair.mp hb with rfl | rfl
    · show IsName "key"
      decide
    · show IsName "value"
      decide
  nodup := by
    show ["key", "value"].Nodup
    decide
  closing := nofun

theorem wellNamed_lines (ts : List TraceListing) : ∀ l ∈ lines ts, l.2.WellNamed := by
  have hattributes : ∀ (indent : Nat) (attributes : List Attribute),
      ∀ l ∈ attributes.map (fun a => (indent, a.tag)), l.2.WellNamed := by
    intro indent attributes l hl
    obtain ⟨a, -, rfl⟩ := List.mem_map.mp hl
    exact wellNamed_tag a
  have hevent : ∀ attributes, ∀ l ∈ TraceListing.eventLines attributes, l.2.WellNamed := by
    intro attributes
    exact List.forall_mem_append.mpr ⟨List.forall_mem_cons.mpr ⟨by decide, hattributes 6 attributes⟩,
      by decide⟩
  have htrace : ∀ t : TraceListing, ∀ l ∈ t.lines, l.2.WellNamed := by
    intro t
    refine List.forall_mem_append.mpr ⟨List.forall_mem_cons.mpr ⟨by decide,
      List.forall_mem_append.mpr ⟨hattributes 4 _, ?_⟩⟩, by decide⟩
    exact List.forall_mem_flatMap.mpr fun attributes _ => hevent attributes
  refine List.forall_mem_append.mpr ⟨List.forall_mem_append.mpr ⟨by decide +kernel, ?_⟩, by decide⟩
  exact List.forall_mem_flatMap.mpr fun t _ => htrace t

theorem lines_mapTexts (f : String → String) (t : TraceListing) :
    (t.mapTexts f).lines = t.lines.map fun l => (l.1, l.2.mapValues f) := by
  have hevent : ∀ attributes, TraceListing.eventLines (attributes.map (Attribute.mapTexts f)) =
      (TraceListing.eventLines attributes).map fun l => (l.1, l.2.mapValues f) := by
    intro attributes
    simp [TraceListing.eventLines, Attribute.mapTexts, Attribute.tag, Tag.mapValues]
  simp [TraceListing.lines, TraceListing.mapTexts, hevent, Attribute.mapTexts, Attribute.tag,
    Tag.mapValues, List.map_flatMap, List.flatMap_map]

/-- The texts of a log stand in its attributes. All other values are the same in every log. -/
theorem mapValues_lines (f : String → String) (ts : List TraceListing) :
    (lines ts).map (fun l => l.2.mapValues f) = openingLines.map (fun l => l.2.mapValues f) ++
      ((ts.map (TraceListing.mapTexts f)).flatMap TraceListing.lines).map (·.2) ++
        [⟨.closing, "log", []⟩] := by
  rw [lines, List.map_append, List.map_append, List.flatMap_map, List.map_flatMap, List.map_flatMap]
  simp only [lines_mapTexts, List.map_map]
  rfl

theorem tags_mapTexts {f : String → String} (hf : ∀ l ∈ openingLines, l.2.mapValues f = l.2)
    (ts : List TraceListing) :
    (lines ts).map (fun l => l.2.mapValues f) = tags (ts.map (TraceListing.mapTexts f)) := by
  rw [mapValues_lines, List.map_congr_left hf, tags, lines, List.map_append, List.map_append]
  rfl

theorem encloses_attributes (indent : Nat) (attributes : List Attribute) :
    Encloses ((attributes.map fun a => (indent, a.tag)).map (·.2)) (attributes.map Attribute.node) := by
  rw [List.map_map, List.map_eq_flatMap]
  exact encloses_flatMap attributes fun a => encloses_single _ _

theorem encloses_trace (t : TraceListing) : Encloses (t.lines.map (·.2)) [t.node] := by
  have hevent : ∀ attributes, Encloses ((TraceListing.eventLines attributes).map (·.2))
      [.mk "event" [] (attributes.map Attribute.node)] := by
    intro attributes
    have helement := (encloses_attributes 6 attributes).element "event" []
    rw [TraceListing.eventLines, List.map_append, List.map_cons]
    exact helement
  have hevents : Encloses ((t.events.flatMap TraceListing.eventLines).map (·.2))
      (t.events.map fun attributes => .mk "event" [] (attributes.map Attribute.node)) := by
    rw [List.map_flatMap]
    exact encloses_flatMap t.events hevent
  have helement := ((encloses_attributes 4 t.attributes).append hevents).element "trace" []
  rw [TraceListing.lines, List.map_append, List.map_cons, List.map_append]
  exact helement

theorem root?_tags (ts : List TraceListing) : root? (tags ts) = some (.mk "log" logAttributes
    (.mk "extension" extensionAttributes [] :: ts.map TraceListing.node)) := by
  have htraces : Encloses ((ts.flatMap TraceListing.lines).map (·.2)) (ts.map TraceListing.node) := by
    rw [List.map_flatMap]
    exact encloses_flatMap ts encloses_trace
  have hlog := ((encloses_single "extension" extensionAttributes).append htraces).element "log"
    logAttributes
  rw [tags, lines, List.map_append, List.map_append]
  exact root?_of_encloses hlog _

theorem mapM_map_eq_some {f : α → β} {g : β → Option α} (h : ∀ a, g (f a) = some a) (as : List α) :
    (as.map f).mapM g = some as := by
  induction as with
  | nil => rfl
  | cons a as ih => rw [List.map_cons, List.mapM_cons, h, ih]; rfl

theorem ofTags?_tags (ts : List TraceListing) : ofTags? (tags ts) = some ts := by
  have hattribute : ∀ a : Attribute, readAttribute? a.node = some a := by
    intro a
    rw [Attribute.node, readAttribute?]
    obtain ⟨type, key, text⟩ := a
    cases type <;> rfl
  have hevent : ∀ attributes : List Attribute,
      readEvent? (.mk "event" [] (attributes.map Attribute.node)) = some attributes :=
    mapM_map_eq_some hattribute
  have htrace : ∀ t : TraceListing, readTrace? t.node = some t := by
    intro t
    have hattributes : ∀ n ∈ t.attributes.map Attribute.node, (!isEvent n) = true := by
      intro n hn
      obtain ⟨a, -, rfl⟩ := List.mem_map.mp hn
      show (!(a.type.text == "event")) = true
      cases a.type <;> decide
    have hevents : ∀ es : List (List Attribute), ∀ nodes,
        nodes = es.map (fun attributes => Node.mk "event" [] (attributes.map Attribute.node)) →
          nodes.takeWhile (!isEvent ·) = [] ∧ nodes.dropWhile (!isEvent ·) = nodes := by
      rintro es nodes rfl
      cases es with
      | nil => exact ⟨rfl, rfl⟩
      | cons attributes es => exact ⟨rfl, rfl⟩
    obtain ⟨htake, hdrop⟩ := hevents t.events _ rfl
    rw [TraceListing.node, readTrace?, List.takeWhile_append_of_pos hattributes,
      List.dropWhile_append_of_pos hattributes, htake, hdrop, List.append_nil,
      mapM_map_eq_some hattribute, mapM_map_eq_some hevent]
  rw [ofTags?, root?_tags]
  exact mapM_map_eq_some htrace ts

theorem tags?_text (traces : Document) :
    tags? plainRules (text traces).toList = some (tags traces.listings) := by
  have hsame : ∀ t : Tag, t.mapValues plainRules.text = t := by
    intro t
    simp [Tag.mapValues, Rules.text_plain]
  rw [toList_text, tags?_lines Rules.standard_plain (wellNamed_lines _)]
  simp only [hsame]
  rfl

theorem read?_text (traces : Document) : read? (text traces) = some traces.listings := by
  rw [read?, tags?_text, Option.bind_some, ofTags?_tags]

/-- A document is read tag by tag as the tags of its traces, and these enclose the traces, each with the
name of its instance and its attributes and events in their order. Other texts in it change what is
read between quotes, and no tag beside that. -/
theorem text_read_back (traces : Document) :
    tags? plainRules (text traces).toList = some (tags traces.listings) ∧
      read? (text traces) = some traces.listings ∧
      ∀ others : Document,
        others.listings.map TraceListing.frame = traces.listings.map TraceListing.frame →
          (tags? plainRules (text others).toList).map (·.map Tag.frame) =
            (tags? plainRules (text traces).toList).map (·.map Tag.frame) := by
  refine ⟨tags?_text traces, read?_text traces, fun others hothers => ?_⟩
  have hframe : ∀ ts, (tags ts).map Tag.frame = openingLines.map (·.2.frame) ++
      ((ts.map TraceListing.frame).flatMap TraceListing.lines).map (·.2) ++
        [⟨.closing, "log", []⟩] := by
    intro ts
    rw [tags, List.map_map]
    exact mapValues_lines (fun _ => "") ts
  rw [tags?_text, tags?_text, Option.map_some, Option.map_some, hframe, hframe, hothers]

end RoundTrip

section Xml

def texts (traces : Document) : List String :=
  traces.listings.flatMap TraceListing.texts

theorem values_lines (ts : List TraceListing) :
    values (lines ts) = values openingLines ++ ts.flatMap TraceListing.texts := by
  have hattributes : ∀ (indent : Nat) (attributes : List Attribute),
      values (attributes.map fun a => (indent, a.tag)) = attributes.flatMap Attribute.texts :=
    fun _ _ => List.flatMap_map _ _ _
  have hevent : ∀ attributes, values (TraceListing.eventLines attributes) =
      attributes.flatMap Attribute.texts := by
    intro attributes
    rw [← hattributes 6, TraceListing.eventLines, values, List.flatMap_append]
    exact List.append_nil _
  have htrace : ∀ t : TraceListing, values t.lines = t.texts := by
    intro t
    have hevents : values (t.events.flatMap TraceListing.eventLines) =
        t.events.flatMap (·.flatMap Attribute.texts) := by
      rw [values, List.flatMap_assoc]
      exact congrArg (t.events.flatMap ·) (funext hevent)
    rw [TraceListing.texts, ← hattributes 4, ← hevents, TraceListing.lines, values,
      List.flatMap_append, List.flatMap_cons, List.flatMap_append]
    exact List.append_nil _
  have htraces : values (ts.flatMap TraceListing.lines) = ts.flatMap TraceListing.texts := by
    rw [values, List.flatMap_assoc]
    exact congrArg (ts.flatMap ·) (funext htrace)
  rw [← htraces, lines, values, List.flatMap_append, List.flatMap_append]
  exact List.append_nil _

theorem map_eq_self_iff {f : α → α} {as : List α} : as.map f = as ↔ ∀ a ∈ as, f a = a := by
  simpa using List.map_inj_left (f := f) (g := id) (l := as)

theorem xml_opening :
    (∀ s ∈ values openingLines, ∀ c ∈ s.toList, isXmlChar c = true) ∧
      ∀ l ∈ openingLines, l.2.mapValues xmlText = l.2 := by
  have hall : ∀ s ∈ values openingLines,
      (s.toList.all isXmlChar && s.toList.all (!isBreak ·)) = true := by
    decide +kernel
  simp only [Bool.and_eq_true, List.all_eq_true, Bool.not_eq_true'] at hall
  refine ⟨fun s hs => (hall s hs).1, fun l hl => ?_⟩
  have hattributes : l.2.attributes.map (fun a => (a.1, xmlText a.2)) = l.2.attributes := by
    refine map_eq_self_iff.mpr fun a ha => Prod.ext rfl ((xmlText_eq_iff a.2).mpr ?_)
    exact (hall a.2 (List.mem_flatMap.mpr ⟨l, hl, List.mem_map_of_mem ha⟩)).2
  rw [Tag.mapValues, hattributes]

/-- A document is read as XML 1.0 just if all its characters are allowed. -/
theorem readXml?_text (traces : Document) :
    readXml? (text traces) =
      if (text traces).toList.all isXmlChar then
        some (traces.listings.map (TraceListing.mapTexts xmlText))
      else none := by
  rw [readXml?, toList_text, xmlTags?_lines (wellNamed_lines _), tags_mapTexts xml_opening.2]
  split
  · rw [Option.bind_some, ofTags?_tags]
  · rfl

theorem mapTexts_eq_iff (f : String → String) (ts : List TraceListing) :
    ts.map (TraceListing.mapTexts f) = ts ↔ ∀ s ∈ ts.flatMap TraceListing.texts, f s = s := by
  have hattributes : ∀ as : List Attribute,
      as.map (Attribute.mapTexts f) = as ↔ ∀ s ∈ as.flatMap Attribute.texts, f s = s := by
    intro as
    rw [map_eq_self_iff, List.forall_mem_flatMap]
    refine forall₂_congr fun a _ => ?_
    obtain ⟨type, key, text⟩ := a
    simp [Attribute.texts, Attribute.mapTexts]
  rw [map_eq_self_iff, List.forall_mem_flatMap]
  refine forall₂_congr fun t _ => ?_
  rw [TraceListing.texts, List.forall_mem_append, ← hattributes, List.forall_mem_flatMap]
  simp only [← hattributes, ← map_eq_self_iff (f := List.map (Attribute.mapTexts f))]
  rw [TraceListing.mapTexts, TraceListing.mk.injEq]

/-- All characters of a document are allowed just if those of its texts are. -/
theorem all_text (traces : Document) : (text traces).toList.all isXmlChar = true ↔
    ∀ s ∈ texts traces, ∀ c ∈ s.toList, isXmlChar c = true := by
  rw [toList_text, all_linesChars (wellNamed_lines _), values_lines, List.forall_mem_append]
  exact and_iff_right xml_opening.1

/-- The texts of a document alone decide how it is read as XML 1.0: nothing is read just if one of them
has a character that is not allowed, a tab or an end of a line in them is read as a blank, and all else
as it is. -/
theorem xml_preserves_iff (traces : Document) :
    ((text traces).toList.all isXmlChar = true ↔
      ∀ s ∈ texts traces, ∀ c ∈ s.toList, isXmlChar c = true) ∧
    ((readXml? (text traces)).isSome = true ↔
      ∀ s ∈ texts traces, ∀ c ∈ s.toList, isXmlChar c = true) ∧
    (∀ log, readXml? (text traces) = some log →
      log = traces.listings.map (TraceListing.mapTexts xmlText)) ∧
    (readXml? (text traces) = some traces.listings ↔
      ∀ s ∈ texts traces, ∀ c ∈ s.toList, isXmlChar c = true ∧ isBreak c = false) := by
  refine ⟨all_text traces, ?_, fun log hlog => ?_, ?_⟩
  · rw [readXml?_text, ← all_text]
    split <;> simp [*]
  · rw [readXml?_text] at hlog
    split at hlog
    · exact (Option.some_inj.mp hlog).symm
    · cases hlog
  · have hsame : traces.listings.map (TraceListing.mapTexts xmlText) = traces.listings ↔
        ∀ s ∈ texts traces, ∀ c ∈ s.toList, isBreak c = false := by
      rw [mapTexts_eq_iff]
      exact forall₂_congr fun s _ => xmlText_eq_iff s
    simp only [forall_and]
    rw [readXml?_text, ← all_text, ← hsame]
    split
    · next h => simp [h]
    · next h => simp [h]

def ofText (s : String) : Document :=
  [("1", { attributes := [("note", ⟨.string, "note", s⟩)] })]

theorem tab_lost : (text (ofText "a\tb")).toList.all isXmlChar = true ∧
    readXml? (text (ofText "a\tb")) =
      some [⟨[⟨.string, "concept:name", "1"⟩, ⟨.string, "note", "a b"⟩], []⟩] ∧
    readXml? (text (ofText "a\tb")) ≠ some (listings (ofText "a\tb")) ∧
    (text (ofText "\x00")).toList.all isXmlChar = false := by
  have hall : ∀ s, (text (ofText s)).toList.all isXmlChar = true ↔
      (texts (ofText s)).all (·.toList.all isXmlChar) = true := by
    intro s
    rw [all_text]
    simp only [List.all_eq_true]
  have hallowed : (text (ofText "a\tb")).toList.all isXmlChar = true :=
    (hall _).mpr (by decide +kernel)
  have hread : readXml? (text (ofText "a\tb")) =
      some [⟨[⟨.string, "concept:name", "1"⟩, ⟨.string, "note", "a b"⟩], []⟩] := by
    rw [readXml?_text, if_pos hallowed]
    decide +kernel
  refine ⟨hallowed, hread, ?_, ?_⟩
  · rw [hread]
    decide
  · rw [Bool.eq_false_iff, Ne, hall]
    decide +kernel

end Xml

end Document

/-- No element has two attributes with the same key. -/
structure TraceListing.KeysUnique (t : TraceListing) : Prop where
  trace : (t.attributes.map (·.key)).Nodup
  events : ∀ attributes ∈ t.events, (attributes.map (·.key)).Nodup

/-- The key of the attribute that a document adds by itself. -/
def EventPart.addedKey? : EventPart → Option String
  | .trace => some "concept:name"
  | .event id => id.map fun _ => "concept:instance"

/-- No attribute has the key that the document adds. -/
def EventRecord.Apart (r : EventRecord) : Prop :=
  ∀ a ∈ r.attributes, r.part.addedKey? ≠ some a.key

section Keys

namespace Trace

theorem AttributesOf.map_key {emitted : List Attribute} {attributes : Keyed Attribute}
    (h : AttributesOf emitted attributes) :
    attributes.map (·.2.key) = (emitted.map (·.key)).eraseDups := by
  rw [← h.keys, Keyed.keys]
  refine List.map_congr_left fun item hitem => ?_
  exact of_decide_eq_true (List.mem_filter.mp (List.mem_of_getLast? (h.made_of_mem hitem))).2

theorem AttributesOf.nodup_cons_iff {emitted : List Attribute} {attributes : Keyed Attribute}
    (h : AttributesOf emitted attributes) (key : String) :
    (key :: attributes.map (·.2.key)).Nodup ↔ ∀ a ∈ emitted, a.key ≠ key := by
  rw [h.map_key, List.nodup_cons, and_iff_left (nodup_eraseDups _), List.mem_eraseDups, List.mem_map,
    not_exists]
  exact forall_congr' fun a => not_and

section Events
variable {emitted : List (Option String × List Attribute)} {events : List TraceEvent}

theorem EventsOf.attributesAt_eq (h : EventsOf emitted events) {e : TraceEvent} (he : e ∈ events)
    {id : String} (hid : e.id = some id) : attributesAt id events = e.attributes := by
  have hids : events.Pairwise fun e f => sameId f.id e.id = false := by
    have hpairwise := pairwise_eraseDupsBy sameId (emitted.map (·.1))
    rwa [← h.ids, List.pairwise_map] at hpairwise
  obtain ⟨before, after, rfl⟩ := List.append_of_mem he
  have hbefore : before.find? (fun f => f.id = some id) = none := by
    refine List.find?_eq_none.mpr fun f hf hsame => ?_
    have hother := (List.pairwise_append.mp hids).2.2 f hf e List.mem_cons_self
    rw [hid, of_decide_eq_true hsame] at hother
    simp [sameId] at hother
  rw [attributesAt, List.find?_append, hbefore, Option.none_or]
  show attributesAt id (e :: after) = e.attributes
  rw [attributesAt_cons, if_pos hid]

theorem map_key_listing (e : TraceEvent) : e.listing.map (·.key) =
    (e.id.map fun _ => "concept:instance").toList ++ e.attributes.map (·.2.key) := by
  rw [TraceEvent.listing, List.map_append, List.map_map]
  cases e.id <;> rfl

/-- The keys in events differ just if no emission for an id has the key of ids. -/
theorem EventsOf.keys_nodup_iff (h : EventsOf emitted events) :
    (∀ e ∈ events, (e.listing.map (·.key)).Nodup) ↔
      ∀ x ∈ emitted, x.1.isSome = true → ∀ a ∈ x.2, a.key ≠ "concept:instance" := by
  constructor
  · intro hevents x hx hid a ha
    obtain ⟨id, hid⟩ := Option.isSome_iff_exists.mp hid
    have hnodup : ("concept:instance" :: (attributesAt id events).map (·.2.key)).Nodup := by
      rw [attributesAt]
      cases hfind : events.find? fun e => e.id = some id with
      | none => exact List.nodup_cons.mpr ⟨List.not_mem_nil, List.nodup_nil⟩
      | some e =>
        have he := hevents e (List.mem_of_find?_eq_some hfind)
        have heid : e.id = some id := by simpa using List.find?_some hfind
        rwa [map_key_listing, heid] at he
    exact ((h.named id).nodup_cons_iff _).mp hnodup a
      (List.mem_flatMap.mpr ⟨x, List.mem_filter.mpr ⟨hx, decide_eq_true hid⟩, ha⟩)
  · intro hemitted e he
    rw [map_key_listing]
    cases hid : e.id with
    | none =>
      have hunnamed : ∀ e ∈ events.filter fun e => e.id = none, (e.attributes.map (·.2.key)).Nodup := by
        refine ((List.forall₂_and_left (R := fun e x => AttributesOf x.2 e.attributes) _ _).mp
          (h.unnamed.flip.imp fun e x hx => ⟨?_, hx⟩)).1
        exact AttributesOf.map_key hx ▸ nodup_eraseDups _
      exact hunnamed e (List.mem_filter.mpr ⟨he, decide_eq_true hid⟩)
    | some id =>
      have hnamed := h.named id
      rw [h.attributesAt_eq he hid] at hnamed
      refine (hnamed.nodup_cons_iff _).mpr fun a ha => ?_
      obtain ⟨x, hx, ha⟩ := List.mem_flatMap.mp ha
      obtain ⟨hx, hxid⟩ := List.mem_filter.mp hx
      exact hemitted x hx (by rw [of_decide_eq_true hxid]; rfl) a ha

end Events

end Trace

theorem TraceOf.keysUnique_iff {emitted : List EventRecord} {t : Trace} (h : TraceOf emitted t)
    (instanceId : String) :
    (t.listing instanceId).KeysUnique ↔ ∀ r ∈ emitted, r.Apart := by
  have hparts : (∀ r ∈ emitted, r.Apart) ↔
      (∀ a ∈ (emitted.filter fun r => r.part = .trace).flatMap (·.attributes), a.key ≠ "concept:name") ∧
        ∀ x ∈ emitted.filterMap EventRecord.event?, x.1.isSome = true →
          ∀ a ∈ x.2, a.key ≠ "concept:instance" := by
    rw [List.forall_mem_flatMap, List.forall_mem_filter, List.forall_mem_filterMap, ← forall₂_and]
    refine forall₂_congr fun r _ => ?_
    rw [EventRecord.Apart, EventRecord.event?]
    cases hpart : r.part with
    | trace => simp [EventPart.addedKey?, @eq_comm _ "concept:name"]
    | event id => cases id <;> simp [EventPart.addedKey?, @eq_comm _ "concept:instance"]
  have hkeys : (t.listing instanceId).KeysUnique ↔
      ("concept:name" :: t.attributes.map (·.2.key)).Nodup ∧
        ∀ e ∈ t.events, (e.listing.map (·.key)).Nodup := by
    have hname : (t.listing instanceId).attributes.map (·.key) =
        "concept:name" :: t.attributes.map (·.2.key) := congrArg _ List.map_map
    rw [← hname, ← List.forall_mem_map (f := TraceEvent.listing)
      (P := fun attributes => (attributes.map (·.key)).Nodup)]
    exact ⟨fun h => ⟨h.trace, h.events⟩, fun h => ⟨h.1, h.2⟩⟩
  rw [hparts, hkeys, h.attributes.nodup_cons_iff, h.events.keys_nodup_iff]

theorem DocumentOf.keysUnique_iff {emitted : List EventRecord} {traces : Document}
    (h : DocumentOf emitted traces) :
    (∀ t ∈ traces.listings, t.KeysUnique) ↔ ∀ r ∈ emitted, r.Apart := by
  rw [Document.listings, List.forall_mem_map]
  exact h.forall_iff fun item bs ht => ht.keysUnique_iff item.1

namespace EventLogs

theorem documents_endBlock (as : List Action) : (performAll {} as).endBlock.documents =
    (committed (as ++ [.endBlock])).foldl mergeRecord [] := by
  have hlast : (performAll {} as).endBlock = performAll {} (as ++ [.endBlock]) := by
    rw [performAll, performAll, List.foldl_append]
    rfl
  rw [hlast, documents_performAll, committed, ← Staging.given_eq_departures]
  rfl

theorem replace_of_mem_flushed {folder : Option String} {d : Disk} {documents : Keyed Document}
    {w : FileWrite} (hw : w ∈ flushed folder d documents) :
    w.mode = .replace ∧ ∃ document ∈ documents, w.text = Document.text document.2 := by
  induction documents generalizing d with
  | nil => exact absurd hw List.not_mem_nil
  | cons document documents ih =>
    rcases List.mem_append.mp hw with hw | hw
    · obtain ⟨f, -, rfl⟩ := FileWrite.mem_made hw
      exact ⟨rfl, document, List.mem_cons_self, rfl⟩
    · obtain ⟨hmode, other, hother, htext⟩ := ih hw
      exact ⟨hmode, other, List.mem_cons_of_mem _ hother, htext⟩

/-- A file after the end of the program is as before or holds a document. -/
theorem text?_endProgram (l : EventLogs) (folder : Option String) (d : Disk) (loc : Location) :
    (l.endProgram folder d).2.1.text? loc = d.text? loc ∨
      ∃ document ∈ l.endBlock.documents,
        (l.endProgram folder d).2.1.text? loc = some (Document.text document.2) := by
  have hlast : ∀ (ws : List FileWrite) (old : Option String),
      (ws.foldl (FileWrite.after d loc) old = old) ∨
        ∃ w ∈ ws, ∃ before, ws.foldl (FileWrite.after d loc) old =
          some (w.mode.result before w.text) := by
    intro ws
    induction ws using List.reverseRecOn with
    | nil => exact fun _ => .inl rfl
    | append_singleton ws w ih =>
      intro old
      rw [List.foldl_append, List.foldl_cons, List.foldl_nil, FileWrite.after]
      split
      · exact .inr ⟨w, by simp, _, rfl⟩
      · refine (ih old).imp_right ?_
        rintro ⟨v, hv, h⟩
        exact ⟨v, List.mem_append_left _ hv, h⟩
  show (writeDocuments folder d l.endBlock.documents).1.text? loc = _ ∨ ∃ document ∈ _,
    (writeDocuments folder d l.endBlock.documents).1.text? loc = _
  rw [(writeDocuments_flushed folder d l.endBlock.documents).text]
  refine (hlast _ _).imp_right ?_
  rintro ⟨w, hw, before, hresult⟩
  obtain ⟨hmode, document, hdocument, htext⟩ := replace_of_mem_flushed hw
  refine ⟨document, hdocument, ?_⟩
  rw [hresult, hmode, Disk.WriteMode.result, htext]

/-- The keys in the elements of a document differ just if no committed emission for it has a key that
the document adds by itself. Nothing but documents is written at the end of the program. -/
theorem attribute_keys_unique_iff (as : List Action) :
    (∀ document ∈ (performAll {} as).endBlock.documents,
      (∃ log, Document.read? (Document.text document.2) = some log ∧ ∀ t ∈ log, t.KeysUnique) ↔
        ∀ r ∈ committed (as ++ [.endBlock]), r.process = document.1 → r.Apart) ∧
    ∀ (folder : Option String) (d : Disk) (loc : Location),
      ((performAll {} as).endProgram folder d).2.1.text? loc = d.text? loc ∨
        ∃ document ∈ (performAll {} as).endBlock.documents,
          ((performAll {} as).endProgram folder d).2.1.text? loc =
            some (Document.text document.2) := by
  refine ⟨fun document hdocument => ?_, fun folder d loc => text?_endProgram _ folder d loc⟩
  have hdocuments := documentsOf_foldl (committed (as ++ [.endBlock]))
  rw [documents_endBlock] at hdocument
  have hkeys := DocumentOf.keysUnique_iff (hdocuments.made_of_mem hdocument)
  rw [List.forall_mem_filter] at hkeys
  simp only [decide_eq_true_iff] at hkeys
  rw [← hkeys, Document.read?_text]
  simp

/-- The emissions for an instance with an attribute that is named like the name of the instance. -/
def renamed : List Action :=
  [.emit ⟨"p", "1", .trace, [⟨.string, "concept:name", "x"⟩]⟩, .endBlock]

theorem name_repeated : ∃ document ∈ (performAll {} renamed).endBlock.documents,
    ((performAll {} renamed).endProgram (some ".") {}).2.1.text? ["p.xes"] =
      some (Document.text document.2) ∧
    Document.read? (Document.text document.2) =
      some [⟨[⟨.string, "concept:name", "1"⟩, ⟨.string, "concept:name", "x"⟩], []⟩] ∧
    ¬ TraceListing.KeysUnique
      ⟨[⟨.string, "concept:name", "1"⟩, ⟨.string, "concept:name", "x"⟩], []⟩ := by
  refine ⟨_, List.mem_singleton_self _, rfl, Document.read?_text _, fun hunique => ?_⟩
  exact absurd hunique.trace (by decide)

end EventLogs

end Keys

end ChainQuery
