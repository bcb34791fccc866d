import ChainQuery.Proofs.Abi.Decoded

/-!
# Decoding of matching log entries

The topics of a matching log entry are as many as the indexed parameters of the event, and decoded data
give one value for each of the others. So a matching log entry gives one pair for each parameter, or
fails because of a topic or of the data. Events whose data can hold nothing are the exception: their
data are decoded to no values, and then one is missing for the first parameter that is not indexed.
-/

namespace ChainQuery

namespace EventSignature

/-- What decoding gives of a parameter: under its name a value that its declared type accepts, or the
bytes of its topic if that is a hash. -/
def Gives (p : Parameter) (pair : String × Value) : Prop :=
  pair.1 = p.name ∧
    if p.indexed && p.type.isReference then ∃ raw, pair.2 = .bytes raw
    else p.valueType.accepts pair.2.type = true

inductive TopicError : ExecutionError → Prop
  | hex : TopicError (.decode .topicHex)
  | value : TopicError (.decode .topic)

/-- The well behaved results of decoding: an error of the data or of a topic, or one pair for each
parameter in the order of the parameters. -/
inductive Decodes (e : EventSignature) : Except ExecutionError (List (String × Value)) → Prop
  | data : Decodes e (.error (.decode (.eventData e.name)))
  | topic {err : ExecutionError} : TopicError err → Decodes e (.error err)
  | pairs {ps : List (String × Value)} : List.Forall₂ Gives e.parameters ps → Decodes e (.ok ps)

/-- Whether the types that the data encode hold no data, although there are some. -/
def withoutData (e : EventSignature) : Bool :=
  !e.dataTypes.isEmpty && e.dataTypes.all AbiType.isHollow

/-- Whether the topics of the indexed parameters before all others are decoded. -/
def LeadingTopics (ps : List Parameter) (topics : List String) : Prop :=
  ∀ q ∈ (ps.takeWhile Parameter.indexed).zip topics, ∃ v, decodeTopic q.1.type q.2 = .ok v

variable {event : String} {p : Parameter} {ps : List Parameter} {topic : String}
  {topics : List String} {values : List AbiValue}

/-- Decoding a topic fails because of it, or gives its bytes for a type that leaves only a hash and
an accepted value for any other one. -/
theorem decodeTopic_cases (p : Parameter) (hp : p.indexed = true) (topic : String) :
    (∃ err, decodeTopic p.type topic = .error err ∧ TopicError err) ∨
      ∃ v, decodeTopic p.type topic = .ok v ∧ Gives p (p.name, v) := by
  unfold decodeTopic
  cases Text.readHex? (Text.dropHexMark topic.toList) with
  | none => exact .inl ⟨_, rfl, .hex⟩
  | some raw =>
    by_cases href : p.type.isReference = true
    · exact .inr ⟨.bytes raw, by simp [href], rfl, by simp [hp, href]⟩
    · have href : p.type.isReference = false := by simpa using href
      cases hv : Abi.decode? p.type raw with
      | none => exact .inl ⟨_, by simp [href, hv], .value⟩
      | some v =>
        refine .inr ⟨v.toValue, by simp [href, hv], rfl, ?_⟩
        rw [href, Bool.and_false, if_neg (by decide), p.valueType_eq]
        exact Abi.accepts_of_decode? href hv

theorem collect_indexed (hp : p.indexed = true) :
    collect event (p :: ps) (topic :: topics) values =
      (do
        let v ← decodeTopic p.type topic
        return (p.name, v) :: (← collect event ps topics values)) := by
  rw [collect.eq_def]
  exact if_pos hp

theorem collect_data {value : AbiValue} (hp : p.indexed = false) :
    collect event (p :: ps) topics (value :: values) =
      (do return (p.name, value.toValue) :: (← collect event ps topics values)) := by
  rw [collect.eq_def]
  exact if_neg (by simp [hp])

/-- With a topic for each indexed parameter and a value for each other one, collecting fails because of
a topic or gives one pair for each parameter. -/
theorem collect_cases (event : String) (htopics : topics.length = (ps.filter Parameter.indexed).length)
    (hvalues : List.Forall₂ (fun p v => p.type.declared.accepts v.toValue.type = true)
      (ps.filter fun p => !p.indexed) values) :
    (∃ err, collect event ps topics values = .error err ∧ TopicError err) ∨
      ∃ pairs, collect event ps topics values = .ok pairs ∧ List.Forall₂ Gives ps pairs := by
  induction ps generalizing topics values with
  | nil => exact .inr ⟨[], rfl, .nil⟩
  | cons p ps ih =>
    cases hp : p.indexed with
    | true =>
      rw [List.filter_cons_of_pos hp] at htopics
      rw [List.filter_cons_of_neg (by simp [hp])] at hvalues
      cases topics with
      | nil => cases htopics
      | cons topic topics =>
        rw [collect_indexed hp]
        obtain ⟨err, herr, htopic⟩ | ⟨v, hv, hgives⟩ := decodeTopic_cases p hp topic
        · exact .inl ⟨err, by rw [herr]; rfl, htopic⟩
        · obtain ⟨err, herr, htopic⟩ | ⟨pairs, hpairs, hall⟩ := ih (Nat.succ.inj htopics) hvalues
          · exact .inl ⟨err, by rw [hv, herr]; rfl, htopic⟩
          · exact .inr ⟨(p.name, v) :: pairs, by rw [hv, hpairs]; rfl, .cons hgives hall⟩
    | false =>
      rw [List.filter_cons_of_neg (by simp [hp])] at htopics
      rw [List.filter_cons_of_pos (by simp [hp])] at hvalues
      obtain ⟨value, values', hvalue, hvalues', rfl⟩ := List.forall₂_cons_left_iff.1 hvalues
      have hgives : Gives p (p.name, value.toValue) := by
        refine ⟨rfl, ?_⟩
        rw [hp, Bool.false_and, if_neg (by decide), p.valueType_eq]
        exact hvalue
      rw [collect_data hp]
      obtain ⟨err, herr, htopic⟩ | ⟨pairs, hpairs, hall⟩ := ih htopics hvalues'
      · exact .inl ⟨err, by rw [herr]; rfl, htopic⟩
      · exact .inr ⟨_, by rw [hpairs]; rfl, .cons hgives hall⟩

/-- Without values, collecting fails at the first parameter that takes one, or because of a topic
before it. -/
theorem collect_without_values (event : String) (htopics : topics.length = (ps.filter Parameter.indexed).length)
    (hp : ps.find? (fun p => !p.indexed) = some p) :
    (∃ err, collect event ps topics [] = .error err ∧ TopicError err ∧ ¬ LeadingTopics ps topics) ∨
      collect event ps topics [] = .error (.decode (.missingData event p.name)) ∧
        LeadingTopics ps topics := by
  induction ps generalizing topics with
  | nil => cases hp
  | cons q ps ih =>
    cases hq : q.indexed with
    | true =>
      rw [List.filter_cons_of_pos hq] at htopics
      rw [List.find?_cons_of_neg (by simp [hq])] at hp
      cases topics with
      | nil => cases htopics
      | cons topic topics =>
        have hleading : LeadingTopics (q :: ps) (topic :: topics) ↔
            (∃ v, decodeTopic q.type topic = .ok v) ∧ LeadingTopics ps topics := by
          simp [LeadingTopics, List.takeWhile_cons_of_pos hq]
        rw [collect_indexed hq, hleading]
        obtain ⟨err, herr, htopic⟩ | ⟨v, hv, -⟩ := decodeTopic_cases q hq topic
        · exact .inl ⟨err, by rw [herr]; rfl, htopic, by simp [herr]⟩
        · obtain ⟨err, herr, htopic, hno⟩ | ⟨herr, hall⟩ := ih (Nat.succ.inj htopics) hp
          · exact .inl ⟨err, by rw [hv, herr]; rfl, htopic, fun h => hno h.2⟩
          · exact .inr ⟨by rw [hv, herr]; rfl, ⟨v, hv⟩, hall⟩
    | false =>
      rw [List.find?_cons_of_pos (by simp [hq])] at hp
      obtain rfl := Option.some.inj hp
      refine .inr ⟨by rw [collect.eq_def]; exact if_neg (by simp [hq]), ?_⟩
      simp [LeadingTopics, List.takeWhile_cons_of_neg, hq]

theorem isEventOf_iff {e : EventSignature} {l : LogEntry} :
    e.isEventOf l = true ↔ ∃ first rest, l.topics = first :: rest ∧
      Text.equalFold first e.topic = true ∧ rest.length = e.indexedCount := by
  unfold isEventOf
  split
  · next htopics => simp [htopics]
  · next first rest htopics => simp [htopics]

section Matching

variable {e : EventSignature} {l : LogEntry} (hmatch : e.isEventOf l = true)
include hmatch

theorem length_topics : (l.topics.drop 1).length = (e.parameters.filter Parameter.indexed).length := by
  obtain ⟨first, rest, htopics, -, hlength⟩ := isEventOf_iff.1 hmatch
  rw [htopics]
  exact hlength

/-- Data that hold something are decoded to a value for each parameter that takes one. -/
theorem decodes_of_data (hdata : e.withoutData = false) : e.Decodes (e.decode l) := by
  have hcollect {values : List AbiValue}
      (hvalues : List.Forall₂ (fun t v => t.declared.accepts v.toValue.type = true) e.dataTypes
        values) : e.Decodes (collect e.name e.parameters (l.topics.drop 1) values) := by
    obtain ⟨err, herr, htopic⟩ | ⟨pairs, hpairs, hall⟩ :=
      collect_cases e.name (length_topics hmatch) (List.forall₂_map_left_iff.1 hvalues)
    · rw [herr]
      exact .topic htopic
    · rw [hpairs]
      exact .pairs hall
  unfold decode
  cases hempty : e.dataTypes.isEmpty with
  | true =>
    rw [List.isEmpty_iff] at hempty
    exact hcollect (hempty ▸ .nil)
  | false =>
    cases hall : Abi.decodeAll? e.dataTypes l.data with
    | none => exact .data
    | some values =>
      obtain ⟨hollow, -⟩ | ⟨-, hvalues⟩ := Abi.forall₂_of_decodeAll? hall
      · rw [withoutData, hempty, hollow] at hdata
        cases hdata
      · exact hcollect hvalues

/-- Data that hold nothing are missing for the first parameter that takes a value from them, if no
topic before it is at fault. -/
theorem decode_without_data (hdata : e.withoutData = true) :
    (∃ err, e.decode l = .error err ∧ TopicError err ∧
        ¬ LeadingTopics e.parameters (l.topics.drop 1)) ∨
      ∃ p, e.parameters.find? (fun p => !p.indexed) = some p ∧
        e.decode l = .error (.decode (.missingData e.name p.name)) ∧
        LeadingTopics e.parameters (l.topics.drop 1) := by
  obtain ⟨hempty, hollow⟩ := Bool.and_eq_true_iff.1 hdata
  have hempty : e.dataTypes.isEmpty = false := by simpa using hempty
  have hdecode : e.decode l = collect e.name e.parameters (l.topics.drop 1) [] := by
    rw [decode, hempty, Abi.decodeAll?, if_pos hollow]
    rfl
  rw [hdecode]
  cases hp : e.parameters.find? fun p => !p.indexed with
  | none =>
    have hno : e.dataTypes = [] := by
      rw [dataTypes, List.filter_eq_nil_iff.2 (List.find?_eq_none.1 hp), List.map_nil]
    rw [hno] at hempty
    cases hempty
  | some p =>
    obtain hfail | hmissing := collect_without_values e.name (length_topics hmatch) hp
    · exact .inl hfail
    · exact .inr ⟨p, rfl, hmissing⟩

end Matching

end EventSignature

theorem accepts_of_named {ps : List Parameter} {values : List AbiValue}
    (h : List.Forall₂ (fun p v => p.type.declared.accepts v.toValue.type = true) ps values) :
    List.Forall₂ (fun p pair => pair.1 = p.name ∧ p.valueType.accepts pair.2.type = true)
      ps ((ps.zip values).map fun (p, v) => (p.name, v.toValue)) := by
  induction h with
  | nil => exact .nil
  | cons hv _ ih =>
    refine .cons ⟨rfl, ?_⟩ ih
    rw [Parameter.valueType_eq]
    exact hv

/-- The results of a read are values that the declared types of its outputs accept, one for each
output in their order, or none if the types of the outputs hold no data. -/
theorem ContractRead.accepts_of_decodeResult {r : ContractRead} {data : List UInt8}
    {pairs : List (String × Value)} (h : r.decodeResult data = .ok pairs) :
    List.Forall₂ (fun p pair => pair.1 = p.name ∧ p.valueType.accepts pair.2.type = true)
      r.outputs pairs ∨ pairs = [] ∧ (r.outputs.map Parameter.type).all AbiType.isHollow = true := by
  rw [decodeResult] at h
  split at h
  · next values hvalues =>
    obtain rfl := Except.ok.inj h
    obtain ⟨hollow, rfl⟩ | ⟨-, hall⟩ := Abi.forall₂_of_decodeAll? hvalues
    · exact .inr ⟨by simp, hollow⟩
    · exact .inl (accepts_of_named (List.forall₂_map_left_iff.1 hall))
  · cases h

/-- Decoding a matching log entry is well behaved exactly if the types of the data hold some data or
a topic before them is at fault; otherwise the data are missing for the first parameter that is not
indexed. No topic is ever missing, and the results of reads are accepted by their declared types. -/
theorem decoding_of_matching_entries (e : EventSignature) (r : ContractRead) :
    (∀ l, e.isEventOf l = true →
      (e.Decodes (e.decode l) ↔
        ¬ (e.withoutData = true ∧
          EventSignature.LeadingTopics e.parameters (l.topics.drop 1))) ∧
      (¬ e.Decodes (e.decode l) →
        ∃ p, e.parameters.find? (fun p => !p.indexed) = some p ∧
          e.decode l = .error (.decode (.missingData e.name p.name)))) ∧
    ∀ data pairs, r.decodeResult data = .ok pairs →
      List.Forall₂ (fun p pair => pair.1 = p.name ∧ p.valueType.accepts pair.2.type = true)
        r.outputs pairs ∨
      pairs = [] ∧ (r.outputs.map Parameter.type).all AbiType.isHollow = true := by
  refine ⟨fun l hmatch => ?_, fun data pairs h => r.accepts_of_decodeResult h⟩
  cases hdata : e.withoutData with
  | false =>
    have hdecodes := EventSignature.decodes_of_data hmatch hdata
    exact ⟨by simpa using hdecodes, fun hno => absurd hdecodes hno⟩
  | true =>
    obtain ⟨err, herr, htopic, hleading⟩ | ⟨p, hp, hmissing, hleading⟩ :=
      EventSignature.decode_without_data hmatch hdata
    · have hdecodes : e.Decodes (e.decode l) := herr ▸ .topic htopic
      exact ⟨⟨fun _ h => hleading h.2, fun _ => hdecodes⟩, fun hno => absurd hdecodes hno⟩
    · have hno : ¬ e.Decodes (e.decode l) := by
        rw [hmissing]
        rintro (_ | ⟨⟨⟩⟩)
      exact ⟨⟨fun h => absurd h hno, fun h => absurd ⟨rfl, hleading⟩ h⟩, fun _ => ⟨p, hp, hmissing⟩⟩

/-- The event of a transfer from an address, and a log entry of it without data. -/
theorem decoding_of_matching_entries_transfer :
    let e : EventSignature :=
      ⟨"Transfer", [⟨"from", .address, true⟩, ⟨"value", .uint 256, false⟩]⟩
    e.isEventOf { topics := [e.topic, "0x"] } = true ∧
      e.Decodes (e.decode { topics := [e.topic, "0x"] }) := by
  intro e
  have hmatch : e.isEventOf { topics := [e.topic, "0x"] } = true :=
    EventSignature.isEventOf_iff.2 ⟨e.topic, ["0x"], rfl, Text.equalFold_iff.2 rfl, rfl⟩
  have hdata : e.withoutData = false := by decide
  refine ⟨hmatch, ((decoding_of_matching_entries e ⟨"", [], []⟩).1 _ hmatch).1.2 ?_⟩
  rw [hdata]
  simp

/-- An event with a list of empty tuples: its data hold two words, and are decoded to no value. -/
theorem unit_event_lacks_data :
    ¬ ∀ (e : EventSignature) (l : LogEntry), e.isEventOf l = true → e.Decodes (e.decode l) := by
  intro h
  let e : EventSignature := ⟨"Unit", [⟨"a", .array (.tuple []), false⟩]⟩
  have hmatch : e.isEventOf { topics := [e.topic], data := Abi.word 32 ++ Abi.word 3 } = true :=
    EventSignature.isEventOf_iff.2 ⟨e.topic, [], rfl, Text.equalFold_iff.2 rfl, rfl⟩
  have hdata : e.withoutData = true := by decide
  obtain ⟨err, -, -, hleading⟩ | ⟨p, -, hmissing, -⟩ :=
    EventSignature.decode_without_data hmatch hdata
  · exact hleading (by simp [EventSignature.LeadingTopics, e])
  · have hdecodes := h e _ hmatch
    rw [hmissing] at hdecodes
    rcases hdecodes with _ | ⟨⟨⟩⟩

end ChainQuery
