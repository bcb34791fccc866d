import ChainQuery.Output.Attribute
import ChainQuery.Output.Folder
import ChainQuery.Output.Keyed

/-!
# Process logs

Traces of events, one document for each process. Emissions for the same trace, and those for events
of the same id, are merged: the attributes keep the order of their first emission and the value of
their last. An event without an id is always new. Documents are written at the end of the program.
-/

namespace ChainQuery

/-- What the attributes of a record belong to: the trace itself or one of its events. -/
inductive EventPart where
  | trace
  | event (id : Option String)
deriving DecidableEq, Repr, Inhabited

/-- One emission, for the trace of an instance of a process. -/
structure EventRecord where
  process : String
  instanceId : String
  part : EventPart
  attributes : List Attribute
deriving DecidableEq, Repr, Inhabited

structure TraceEvent where
  id : Option String
  attributes : Keyed Attribute := []
deriving DecidableEq, Repr, Inhabited

/-- A trace under way, merged from the records so far. -/
structure Trace where
  attributes : Keyed Attribute := []
  events : List TraceEvent := []
deriving DecidableEq, Repr, Inhabited

/-- The traces of one process by their instances. -/
abbrev Document := Keyed Trace

namespace Trace

/-- A key that is there already keeps its place and gets the new attribute. -/
def merge (old : Keyed Attribute) (attributes : List Attribute) : Keyed Attribute :=
  attributes.foldl (fun items a => Keyed.put a.key a items) old

/-- Adds attributes to the first event with an id, or to a new one. -/
def mergeEvent (id : String) (attributes : List Attribute) : List TraceEvent → List TraceEvent
  | [] => [⟨some id, merge [] attributes⟩]
  | e :: events =>
    if e.id = some id then { e with attributes := merge e.attributes attributes } :: events
    else e :: mergeEvent id attributes events

def add (t : Trace) (part : EventPart) (attributes : List Attribute) : Trace :=
  match part with
  | .trace => { t with attributes := merge t.attributes attributes }
  | .event none => { t with events := t.events ++ [⟨none, merge [] attributes⟩] }
  | .event (some id) => { t with events := mergeEvent id attributes t.events }

end Trace

namespace Document

/-- The five characters that have names are written by them, every other one as it is. -/
def escape (c : Char) : List Char :=
  if c = '&' then "&amp;".toList
  else if c = '<' then "&lt;".toList
  else if c = '>' then "&gt;".toList
  else if c = '"' then "&quot;".toList
  else if c = '\'' then "&apos;".toList
  else [c]

def quotedChars (s : String) : List Char :=
  '"' :: s.toList.flatMap escape ++ ['"']

def line (indent : Nat) (content : List Char) : List Char :=
  List.replicate indent ' ' ++ content ++ ['\n']

def attributeChars (indent : Nat) (a : Attribute) : List Char :=
  line indent <|
    '<' :: a.type.text.toList ++ " key=".toList ++ quotedChars a.key ++ " value=".toList ++
      quotedChars a.text ++ "/>".toList

def attributesChars (indent : Nat) (attributes : Keyed Attribute) : List Char :=
  attributes.flatMap fun a => attributeChars indent a.2

def eventChars (e : TraceEvent) : List Char :=
  let id := match e.id with
    | some id => attributeChars 6 ⟨.string, "concept:instance", id⟩
    | none => []
  line 4 "<event>".toList ++ id ++ attributesChars 6 e.attributes ++ line 4 "</event>".toList

def traceChars (instanceId : String) (t : Trace) : List Char :=
  line 2 "<trace>".toList ++ attributeChars 4 ⟨.string, "concept:name", instanceId⟩ ++
    attributesChars 4 t.attributes ++ t.events.flatMap eventChars ++ line 2 "</trace>".toList

def opening : List Char :=
  line 0 "<?xml version=\"1.0\" encoding=\"UTF-8\" ?>".toList ++
  line 0 "<log xes.version=\"1.0\" xes.features=\"nested-attributes\">".toList ++
  line 2
    ("<extension name=\"Concept\" prefix=\"concept\" " ++
      "uri=\"http://www.xes-standard.org/concept.xesext\"/>").toList

def text (traces : Document) : String :=
  String.ofList <|
    opening ++ traces.flatMap (fun t => traceChars t.1 t.2) ++ line 0 "</log>".toList

end Document

/-- The records of the open block, and the documents of those that are committed. -/
structure EventLogs where
  staged : List EventRecord := []
  documents : Keyed Document := []
deriving Inhabited

namespace EventLogs

def add (l : EventLogs) (r : EventRecord) : EventLogs :=
  { l with staged := l.staged ++ [r] }

/-- Adds a record to its trace. A process and an instance begin with their first record. -/
def mergeRecord (documents : Keyed Document) (r : EventRecord) : Keyed Document :=
  Keyed.modify r.process []
    (fun traces => Keyed.modify r.instanceId {} (fun t => t.add r.part r.attributes) traces)
    documents

def endBlock (l : EventLogs) : EventLogs :=
  { staged := [], documents := l.staged.foldl mergeRecord l.documents }

def discard (l : EventLogs) : EventLogs :=
  { l with staged := [] }

/-- Writes documents; one that fails does not stop the others, and the first failure is returned. -/
def writeDocuments (folder : Option String) (d : Disk) :
    Keyed Document → Disk × Option WriterError
  | [] => (d, none)
  | (process, traces) :: documents =>
    let (d, failure) := OutputFile.write d .replace folder process "xes" (Document.text traces)
    let (d, later) := writeDocuments folder d documents
    (d, failure <|> later)

/-- Commits the staged emissions and writes all documents, none of which is kept. -/
def endProgram (l : EventLogs) (folder : Option String) (d : Disk) :
    EventLogs × Disk × Option WriterError :=
  let (d, failure) := writeDocuments folder d l.endBlock.documents
  ({}, d, failure)

end EventLogs
end ChainQuery
