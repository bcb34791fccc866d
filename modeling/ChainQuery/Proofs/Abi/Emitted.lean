import ChainQuery.Proofs.Abi.Events
import ChainQuery.Proofs.Abi.RoundTrip
import ChainQuery.Proofs.Text.Hex

/-!
# Emitted events

The log entry of an emitted event has the hash of the signature and a word for each indexed parameter
in its topics, and the encoding of all other values in its data. Whatever the order of the parameters,
it is matched by the signature, and decoding gives back what the event was emitted with.
-/

namespace ChainQuery

/-- What an event is emitted with for a parameter: a value, or the hash that stands for a reference in
a topic. -/
inductive EventArgument where
  | value (v : AbiValue)
  | hash (raw : List UInt8)

namespace EventArgument

def topic : EventArgument → List UInt8
  | value v => Abi.encode v
  | hash raw => raw

def shown : EventArgument → Value
  | value v => v.toValue
  | hash raw => .bytes raw

def value? : EventArgument → Option AbiValue
  | value v => some v
  | hash _ => none

/-- The arguments of a parameter: any hash of 32 bytes if it is an indexed reference, else a value of
its type. -/
inductive Fits : Parameter → EventArgument → Prop
  | value {p : Parameter} {v : AbiValue} : (p.indexed && p.type.isReference) = false →
    p.type.Has v → Fits p (.value v)
  | hash {p : Parameter} {raw : List UInt8} : (p.indexed && p.type.isReference) = true →
    raw.length = 32 → Fits p (.hash raw)

def indexedOf (ps : List Parameter) (args : List EventArgument) : List EventArgument :=
  ((ps.zip args).filter fun q => q.1.indexed).map Prod.snd

def dataOf (ps : List Parameter) (args : List EventArgument) : List AbiValue :=
  ((ps.zip args).filter fun q => !q.1.indexed).filterMap fun q => q.2.value?

end EventArgument

/-- A text of bytes: the mark `0x` and their digits, with letters of either case. -/
def Text.Spells (text : String) (bytes : List UInt8) : Prop :=
  ∃ cs, text.toList = '0' :: 'x' :: cs ∧ cs.map Char.toLower = Text.hexChars bytes

theorem Text.readHex?_of_spells {text : String} {bytes : List UInt8} (h : Text.Spells text bytes) :
    Text.readHex? (Text.dropHexMark text.toList) = some bytes := by
  obtain ⟨cs, htext, hcs⟩ := h
  have hmark : Text.dropHexMark text.toList = cs := by
    rw [htext, Text.dropHexMark]
    rfl
  rw [hmark, Text.readHex?_of_toLower hcs]

theorem Text.spells_hex (bytes : List UInt8) :
    Text.Spells (String.ofList ('0' :: 'x' :: Text.hexChars bytes)) bytes :=
  ⟨Text.hexChars bytes, String.toList_ofList, Text.toLower_hexChars bytes⟩

namespace EventSignature

open EventArgument

/-- The log entries of an event that is emitted with given arguments. -/
structure Emits (e : EventSignature) (args : List EventArgument) (l : LogEntry) : Prop where
  fits : List.Forall₂ Fits e.parameters args
  topics : ∃ first rest, l.topics = first :: rest ∧ Text.equalFold first e.topic = true ∧
    List.Forall₂ (fun text a => Text.Spells text a.topic) rest (indexedOf e.parameters args)
  data : l.data = Abi.encodeAll (dataOf e.parameters args)

variable {p : Parameter} {ps : List Parameter} {a : EventArgument} {args : List EventArgument}

theorem decodeTopic_of_fits (h : Fits p a) (hp : p.indexed = true) {text : String}
    (htext : Text.Spells text a.topic) : decodeTopic p.type text = .ok a.shown := by
  rw [decodeTopic, Text.readHex?_of_spells htext]
  cases h with
  | value href hv =>
    rw [hp, Bool.true_and] at href
    simp only [href, EventArgument.topic, Abi.decode?_encode hv href]
    rfl
  | hash href _ =>
    rw [hp, Bool.true_and] at href
    exact if_pos href

section Arguments

theorem indexedOf_of_indexed (hp : p.indexed = true) :
    indexedOf (p :: ps) (a :: args) = a :: indexedOf ps args := by
  simp [indexedOf, hp]

theorem indexedOf_of_data (hp : p.indexed = false) :
    indexedOf (p :: ps) (a :: args) = indexedOf ps args := by
  simp [indexedOf, hp]

theorem dataOf_of_indexed (hp : p.indexed = true) :
    dataOf (p :: ps) (a :: args) = dataOf ps args := by
  simp [dataOf, hp]

theorem dataOf_of_data {v : AbiValue} (hp : p.indexed = false) :
    dataOf (p :: ps) (.value v :: args) = v :: dataOf ps args := by
  simp [dataOf, hp, value?]

end Arguments

theorem length_indexedOf (h : List.Forall₂ Fits ps args) :
    (indexedOf ps args).length = (ps.filter Parameter.indexed).length := by
  induction h with
  | nil => rfl
  | @cons p a ps args _ _ ih =>
    cases hp : p.indexed with
    | true =>
      rw [indexedOf_of_indexed hp, List.filter_cons_of_pos hp]
      exact congrArg (· + 1) ih
    | false =>
      rw [indexedOf_of_data hp, List.filter_cons_of_neg (by simp [hp])]
      exact ih

/-- Topics and values are taken from their two lists in the order of the parameters. -/
theorem collect_of_fits {event : String} {topics : List String} (h : List.Forall₂ Fits ps args)
    (htopics : List.Forall₂ (fun text a => Text.Spells text a.topic) topics (indexedOf ps args)) :
    collect event ps topics (dataOf ps args) =
      .ok ((ps.zip args).map fun (p, a) => (p.name, a.shown)) := by
  induction h generalizing topics with
  | nil => rfl
  | @cons p a ps args hfits _ ih =>
    cases hp : p.indexed with
    | true =>
      rw [indexedOf_of_indexed hp] at htopics
      obtain ⟨text, topics', htext, hrest, rfl⟩ := List.forall₂_cons_right_iff.1 htopics
      rw [dataOf_of_indexed hp, collect_indexed hp, decodeTopic_of_fits hfits hp htext, ih hrest]
      rfl
    | false =>
      rw [indexedOf_of_data hp] at htopics
      cases hfits with
      | hash href =>
        rw [hp] at href
        cases href
      | value =>
        rw [dataOf_of_data hp, collect_data hp, ih htopics]
        rfl

end EventSignature

/-- The log entry of an emitted event is matched, and decoding it gives back the arguments of the event,
one for each parameter in the order of the parameters: values as queries see them, and the hashes of
indexed references as their bytes. The decoder is taken to be inverse to the encoder on the values in
the data; `Abi.decodeAll?_encodeAll` says when it is. -/
theorem decode_of_emitted {e : EventSignature} {args : List EventArgument} {l : LogEntry}
    (h : e.Emits args l)
    (hinverse : Abi.decodeAll? e.dataTypes (Abi.encodeAll (EventArgument.dataOf e.parameters args)) =
      some (EventArgument.dataOf e.parameters args)) :
    e.isEventOf l = true ∧
      e.decode l = .ok ((e.parameters.zip args).map fun (p, a) => (p.name, a.shown)) := by
  obtain ⟨first, rest, htopics, hfirst, hrest⟩ := h.topics
  refine ⟨?_, ?_⟩
  · have hlength := hrest.length_eq.trans (EventSignature.length_indexedOf h.fits)
    exact EventSignature.isEventOf_iff.2 ⟨first, rest, htopics, hfirst, hlength⟩
  · have hvalues : (if e.dataTypes.isEmpty then some [] else Abi.decodeAll? e.dataTypes l.data) =
        some (EventArgument.dataOf e.parameters args) := by
      cases hempty : e.dataTypes.isEmpty with
      | true =>
        rw [List.isEmpty_iff] at hempty
        rw [hempty] at hinverse
        exact hinverse
      | false =>
        rw [h.data]
        exact hinverse
    rw [EventSignature.decode, hvalues, htopics]
    exact EventSignature.collect_of_fits h.fits hrest

def filledEvent : EventSignature :=
  ⟨"Filled", [⟨"maker", .string, true⟩,
    ⟨"parts", .fixedArray (.tuple [.uint 256, .array .bytes]) 2, false⟩,
    ⟨"delta", .int 8, true⟩, ⟨"done", .bool, false⟩]⟩

def filledParts : List AbiValue :=
  [.tuple [.uint 5 256, .array [.bytes [1, 2, 3], .bytes []]], .tuple [.uint 0 256, .array []]]

def filledArguments : List EventArgument :=
  [.hash (List.replicate 32 7), .value (.fixedArray filledParts), .value (.int (-1) 8),
    .value (.bool true)]

def filledEntry : LogEntry where
  topics := [filledEvent.topic,
    String.ofList ('0' :: 'x' :: Text.hexChars (List.replicate 32 7)),
    String.ofList ('0' :: 'x' :: Text.hexChars (Abi.signedWord (-1)))]
  data := Abi.encodeAll [.fixedArray filledParts, .bool true]

theorem filledParts_have :
    (AbiType.fixedArray (.tuple [.uint 256, .array .bytes]) 2).Has (.fixedArray filledParts) := by
  have hpart {n : Nat} {items : List AbiValue} (hn : n < 2 ^ 256) (hlength : items.length < 2 ^ 64)
      (hitems : ∀ v ∈ items, AbiType.bytes.Has v) :
      (AbiType.tuple [.uint 256, .array .bytes]).Has (.tuple [.uint n 256, .array items]) :=
    .tuple (.cons (.uint (by decide) hn) (.cons (.array hlength hitems) .nil))
  refine @AbiType.Has.fixedArray _ filledParts (by decide) ?_
  rw [filledParts, List.forall_mem_cons, List.forall_mem_singleton]
  refine ⟨hpart (by decide) (by decide) ?_, hpart (by decide) (by decide) (by simp)⟩
  rw [List.forall_mem_cons, List.forall_mem_singleton]
  exact ⟨.bytes, .bytes⟩

theorem filledEntry_emitted : filledEvent.Emits filledArguments filledEntry := by
  refine ⟨?_, ⟨_, _, rfl, Text.equalFold_iff.2 rfl, ?_⟩, rfl⟩
  · exact .cons (.hash rfl rfl) (.cons (.value rfl filledParts_have) (.cons (.value rfl
      (.int (by decide) (by decide) (by decide))) (.cons (.value rfl .bool) .nil)))
  · exact .cons (Text.spells_hex _) (.cons (Text.spells_hex _) .nil)

theorem decode_of_emitted_filled :
    filledEvent.Emits filledArguments filledEntry ∧
      filledEvent.isEventOf filledEntry = true ∧
      filledEvent.decode filledEntry = .ok [("maker", .bytes (List.replicate 32 7)),
        ("parts", .list [.list [.int 5, .list [.bytes [1, 2, 3], .bytes []]],
          .list [.int 0, .list []]]), ("delta", .int (-1)), ("done", .bool true)] := by
  have hvalues : AbiType.AllHave filledEvent.dataTypes [.fixedArray filledParts, .bool true] :=
    .cons filledParts_have (.cons .bool .nil)
  have hinverse := Abi.decodeAll?_encodeAll hvalues (by decide) (by decide +kernel) (.inr (by decide))
  exact ⟨filledEntry_emitted, decode_of_emitted filledEntry_emitted hinverse⟩

end ChainQuery
