import ChainQuery.Proofs.Output.Departures
import ChainQuery.Proofs.Output.TableAccounts
import Mathlib.Data.List.Forall2
import Mathlib.Data.List.Induction

/-!
# Merged process logs

What the process logs hold is told by the emissions that are committed, whatever blocks they came in:
each level of a log has one item for each key, in the order in which the keys came first, and an item
is made of the emissions with its key.
-/

namespace ChainQuery

theorem eraseDupsBy_concat (r : α → α → Bool) (as : List α) (a : α) :
    (as ++ [a]).eraseDupsBy r =
      if (as.eraseDupsBy r).any (r a) then as.eraseDupsBy r else as.eraseDupsBy r ++ [a] := by
  have hloop : ∀ bs : List α, List.eraseDupsBy.loop r (as ++ [a]) bs =
      if (List.eraseDupsBy.loop r as bs).any (r a) then List.eraseDupsBy.loop r as bs
      else List.eraseDupsBy.loop r as bs ++ [a] := by
    induction as with
    | nil =>
      intro bs
      rw [List.nil_append, List.eraseDupsBy.loop, List.eraseDupsBy.loop, List.any_reverse]
      cases bs.any (r a) with
      | true => rfl
      | false => exact List.reverse_cons
    | cons b as ih =>
      intro bs
      rw [List.cons_append, List.eraseDupsBy.loop, List.eraseDupsBy.loop]
      cases bs.any (r b) with
      | true => exact ih bs
      | false => exact ih (b :: bs)
  exact hloop []

theorem eraseDups_concat [BEq α] [LawfulBEq α] (as : List α) (a : α) [Decidable (a ∈ as)] :
    (as ++ [a]).eraseDups = if a ∈ as then as.eraseDups else as.eraseDups ++ [a] := by
  have hany : (as.eraseDups.any (a == ·)) = decide (a ∈ as) := by
    rw [Bool.eq_iff_iff, decide_eq_true_iff, ← List.mem_eraseDups, List.any_beq]
    exact List.contains_iff_mem
  rw [List.eraseDups, eraseDupsBy_concat]
  show (if as.eraseDups.any (a == ·) = true then as.eraseDups else as.eraseDups ++ [a]) = _
  rw [hany]
  simp only [decide_eq_true_iff]

/-- Of the items that are kept, none is like one before it. -/
theorem pairwise_eraseDupsBy (r : α → α → Bool) (as : List α) :
    (as.eraseDupsBy r).Pairwise fun a b => r b a = false := by
  induction as using List.reverseRecOn with
  | nil => exact List.Pairwise.nil
  | append_singleton as a ih =>
    rw [eraseDupsBy_concat]
    split
    · exact ih
    · next hnew =>
      refine List.pairwise_append.mpr ⟨ih, List.pairwise_singleton .., fun b hb c hc => ?_⟩
      rw [List.mem_singleton.mp hc]
      exact Bool.eq_false_iff.mpr fun h => hnew (List.any_eq_true.mpr ⟨b, hb, h⟩)

theorem nodup_eraseDups [BEq α] [LawfulBEq α] (as : List α) : as.eraseDups.Nodup :=
  (pairwise_eraseDupsBy (· == ·) as).imp fun h => Ne.symm (beq_eq_false_iff_ne.mp h)

namespace Keyed

theorem keys_modify (key : String) (default : α) (f : α → α) (items : Keyed α) :
    keys (modify key default f items) = if key ∈ keys items then keys items else keys items ++ [key] := by
  induction items with
  | nil => rfl
  | cons item items ih =>
    by_cases hkey : item.1 = key
    · simp [modify, keys, hkey]
    · have hcons : keys (item :: items) = item.1 :: keys items := rfl
      rw [modify, if_neg hkey, hcons]
      simp only [List.mem_cons, Ne.symm hkey, false_or]
      show item.1 :: keys (modify key default f items) = _
      rw [ih]
      split <;> rfl

theorem lookup_of_mem {items : Keyed α} (hkeys : (keys items).Nodup) {item : String × α}
    (hitem : item ∈ items) : items.lookup item.1 = some item.2 := by
  induction items with
  | nil => cases hitem
  | cons first items ih =>
    obtain ⟨hfirst, hkeys⟩ := List.nodup_cons.mp hkeys
    rcases List.mem_cons.mp hitem with rfl | hitem
    · exact List.lookup_cons_self
    · have hne : item.1 ≠ first.1 := by
        intro heq
        exact hfirst (List.mem_map.mpr ⟨item, hitem, heq⟩)
      rw [lookup_cons_of_ne hne, ih hkeys hitem]

/-- One item for each key of emissions, in the order in which the keys came first. The item of a key is
made of the emissions with this key. -/
structure Grouped (key : β → String) (Made : List β → α → Prop) (emitted : List β)
    (items : Keyed α) : Prop where
  keys : Keyed.keys items = (emitted.map key).eraseDups
  made : ∀ {k a}, items.lookup k = some a → Made (emitted.filter fun b => key b = k) a

variable {key : β → String} {Made : List β → α → Prop} {emitted : List β} {items : Keyed α}

theorem grouped_nil : Grouped key Made [] [] :=
  ⟨rfl, nofun⟩

/-- A further emission changes the item of its key, or makes it. -/
theorem Grouped.modify (h : Grouped key Made emitted items) (b : β) {default : α} {f : α → α}
    (hfirst : Made [b] (f default)) (hnext : ∀ {bs a}, Made bs a → Made (bs ++ [b]) (f a)) :
    Grouped key Made (emitted ++ [b]) (Keyed.modify (key b) default f items) := by
  have hmem : key b ∈ Keyed.keys items ↔ key b ∈ emitted.map key := by
    rw [h.keys, List.mem_eraseDups]
  refine ⟨?_, fun {k a} hlookup => ?_⟩
  · rw [keys_modify, List.map_append, List.map_singleton, eraseDups_concat, ← h.keys]
    simp only [hmem]
  · rw [lookup_modify] at hlookup
    rw [List.filter_append]
    by_cases hkey : key b = k
    · subst hkey
      rw [if_pos rfl] at hlookup
      have hb : [b].filter (fun b' => key b' = key b) = [b] := by simp
      rw [hb]
      cases hlookup
      cases hitem : items.lookup (key b) with
      | none =>
        have hnone : emitted.filter (fun b' => key b' = key b) = [] := by
          refine List.filter_eq_nil_iff.mpr fun b' hb' heq => ?_
          have hin : key b ∈ Keyed.keys items :=
            hmem.mpr (List.mem_map.mpr ⟨b', hb', of_decide_eq_true heq⟩)
          obtain ⟨item, hitem', heq'⟩ := List.mem_map.mp hin
          exact (bne_iff_ne.mp (List.lookup_eq_none_iff.mp hitem item hitem')) heq'.symm
        rw [hnone]
        exact hfirst
      | some a => exact hnext (h.made hitem)
    · rw [if_neg hkey] at hlookup
      have hb : [b].filter (fun b' => key b' = k) = [] := by simp [hkey]
      rw [hb, List.append_nil]
      exact h.made hlookup

theorem Grouped.nodup_keys (h : Grouped key Made emitted items) : (Keyed.keys items).Nodup :=
  h.keys ▸ nodup_eraseDups _

theorem Grouped.made_of_mem (h : Grouped key Made emitted items) {item : String × α}
    (hitem : item ∈ items) : Made (emitted.filter fun b => key b = item.1) item.2 :=
  h.made (lookup_of_mem h.nodup_keys hitem)

/-- If each item has a property just if the emissions of which it is made have one, then all items have
it just if all emissions do. -/
theorem Grouped.forall_iff (h : Grouped key Made emitted items) {P : String × α → Prop} {Q : β → Prop}
    (hmade : ∀ item bs, Made bs item.2 → (P item ↔ ∀ b ∈ bs, Q b)) :
    (∀ item ∈ items, P item) ↔ ∀ b ∈ emitted, Q b := by
  constructor
  · intro hitems b hb
    have hkey : key b ∈ Keyed.keys items := by
      rw [h.keys, List.mem_eraseDups]
      exact List.mem_map_of_mem hb
    obtain ⟨item, hitem, heq⟩ := List.mem_map.mp hkey
    exact (hmade item _ (h.made_of_mem hitem)).mp (hitems item hitem) b
      (List.mem_filter.mpr ⟨hb, decide_eq_true heq.symm⟩)
  · intro hemitted item hitem
    exact (hmade item _ (h.made_of_mem hitem)).mpr fun b hb => hemitted b (List.mem_of_mem_filter hb)

end Keyed

namespace Trace

/-- Each attribute is the last one that was emitted for its key. -/
abbrev AttributesOf (emitted : List Attribute) (attributes : Keyed Attribute) : Prop :=
  Keyed.Grouped Attribute.key (fun same a => same.getLast? = some a) emitted attributes

theorem AttributesOf.merge {emitted : List Attribute} {old : Keyed Attribute}
    (h : AttributesOf emitted old) (attributes : List Attribute) :
    AttributesOf (emitted ++ attributes) (merge old attributes) := by
  induction attributes generalizing emitted old with
  | nil =>
    rw [List.append_nil]
    exact h
  | cons a attributes ih =>
    rw [List.append_cons, Trace.merge, List.foldl_cons]
    exact ih (h.modify a rfl fun _ => List.getLast?_concat)

theorem attributesOf_merge (attributes : List Attribute) :
    AttributesOf attributes (merge [] attributes) :=
  AttributesOf.merge Keyed.grouped_nil attributes

/-- The same id, which is not left out. -/
def sameId (id other : Option String) : Bool :=
  id.isSome && id == other

def attributesAt (id : String) (events : List TraceEvent) : Keyed Attribute :=
  ((events.find? fun e => e.id = some id).map (·.attributes)).getD []

/-- One event for each id and one for each emission without an id, in the order in which they came
first. The attributes of an event are those of all emissions for its id, or of its own emission. -/
structure EventsOf (emitted : List (Option String × List Attribute)) (events : List TraceEvent) :
    Prop where
  ids : events.map (·.id) = (emitted.map (·.1)).eraseDupsBy sameId
  named : ∀ id, AttributesOf ((emitted.filter fun x => x.1 = some id).flatMap (·.2))
    (attributesAt id events)
  unnamed : List.Forall₂ (fun x e => AttributesOf x.2 e.attributes)
    (emitted.filter fun x => x.1 = none) (events.filter fun e => e.id = none)

section Events
variable {emitted : List (Option String × List Attribute)} {events : List TraceEvent}
variable {id : String} {attributes : List Attribute}

theorem map_id_mergeEvent : (mergeEvent id attributes events).map (·.id) =
    if some id ∈ events.map (·.id) then events.map (·.id) else events.map (·.id) ++ [some id] := by
  induction events with
  | nil => rfl
  | cons e events ih =>
    rw [mergeEvent]
    by_cases he : e.id = some id
    · simp [he]
    · rw [if_neg he, List.map_cons, ih]
      simp only [List.map_cons, List.mem_cons, Ne.symm he, false_or]
      split <;> rfl

theorem attributesAt_cons (other : String) (e : TraceEvent) : attributesAt other (e :: events) =
    if e.id = some other then e.attributes else attributesAt other events := by
  rw [attributesAt, List.find?_cons]
  by_cases he : e.id = some other
  · simp [he]
  · simp [he, attributesAt]

theorem attributesAt_mergeEvent (other : String) :
    attributesAt other (mergeEvent id attributes events) =
      if other = id then merge (attributesAt id events) attributes
      else attributesAt other events := by
  induction events with
  | nil =>
    rw [mergeEvent, attributesAt_cons]
    simp [eq_comm, attributesAt]
  | cons e events ih =>
    rw [mergeEvent]
    by_cases he : e.id = some id
    · rw [if_pos he, attributesAt_cons, attributesAt_cons, attributesAt_cons, he]
      by_cases hother : other = id
      · simp [hother]
      · simp [hother, Ne.symm hother]
    · rw [if_neg he, attributesAt_cons, attributesAt_cons, attributesAt_cons, ih]
      by_cases hother : other = id
      · simp [hother, he]
      · simp [hother]

theorem filter_mergeEvent : (mergeEvent id attributes events).filter (fun e => e.id = none) =
    events.filter fun e => e.id = none := by
  induction events with
  | nil => rfl
  | cons e events ih =>
    rw [mergeEvent]
    by_cases he : e.id = some id
    · simp [he]
    · rw [if_neg he, List.filter_cons, List.filter_cons, ih]

theorem eventsOf_nil : EventsOf [] [] :=
  ⟨rfl, fun _ => Keyed.grouped_nil, .nil⟩

theorem EventsOf.anonymous (h : EventsOf emitted events) (attributes : List Attribute) :
    EventsOf (emitted ++ [(none, attributes)]) (events ++ [⟨none, merge [] attributes⟩]) where
  ids := by
    rw [List.map_append, List.map_append, List.map_singleton, List.map_singleton,
      eraseDupsBy_concat, ← h.ids]
    simp [sameId]
  named id := by
    have hsame : attributesAt id (events ++ [⟨none, merge [] attributes⟩]) =
        attributesAt id events := by
      simp [attributesAt, List.find?_append]
    rw [hsame, List.filter_append]
    simpa using h.named id
  unnamed := by
    rw [List.filter_append, List.filter_append]
    exact List.rel_append h.unnamed (.cons (attributesOf_merge attributes) .nil)

theorem EventsOf.mergeEvent (h : EventsOf emitted events) (id : String)
    (attributes : List Attribute) :
    EventsOf (emitted ++ [(some id, attributes)]) (mergeEvent id attributes events) where
  ids := by
    rw [map_id_mergeEvent, List.map_append, List.map_singleton, eraseDupsBy_concat, ← h.ids]
    simp [sameId, @eq_comm _ (some id)]
  named other := by
    rw [attributesAt_mergeEvent, List.filter_append, List.flatMap_append]
    by_cases hother : other = id
    · have hadded : (List.filter (fun x => decide (x.1 = some id))
          [(some id, attributes)]).flatMap (·.2) = attributes := by simp
      rw [if_pos hother, hother, hadded]
      exact (h.named id).merge attributes
    · rw [if_neg hother]
      simpa [Ne.symm hother] using h.named other
  unnamed := by
    rw [List.filter_append, filter_mergeEvent]
    simpa using h.unnamed

end Events

end Trace

def EventRecord.event? (r : EventRecord) : Option (Option String × List Attribute) :=
  match r.part with
  | .trace => none
  | .event id => some (id, r.attributes)

/-- A trace has the attributes that were emitted for itself, and its events. -/
structure TraceOf (emitted : List EventRecord) (t : Trace) : Prop where
  attributes : Trace.AttributesOf
    ((emitted.filter fun r => r.part = .trace).flatMap (·.attributes)) t.attributes
  events : Trace.EventsOf (emitted.filterMap EventRecord.event?) t.events

theorem traceOf_nil : TraceOf [] {} :=
  ⟨Keyed.grouped_nil, Trace.eventsOf_nil⟩

theorem TraceOf.add {emitted : List EventRecord} {t : Trace} (h : TraceOf emitted t)
    (r : EventRecord) : TraceOf (emitted ++ [r]) (t.add r.part r.attributes) := by
  have hfilter : ∀ part, r.part = part → (emitted ++ [r]).filter (fun r => r.part = .trace) =
      emitted.filter (fun r => r.part = .trace) ++ if part = .trace then [r] else [] := by
    intro part hpart
    rw [List.filter_append, List.filter_singleton, hpart]
    simp
  have hevents : ∀ event, r.event? = event → (emitted ++ [r]).filterMap EventRecord.event? =
      emitted.filterMap EventRecord.event? ++ event.toList := by
    intro event hevent
    rw [List.filterMap_append, List.filterMap_cons, List.filterMap_nil, hevent]
    cases event <;> rfl
  cases hpart : r.part with
  | trace =>
    have hevent : r.event? = none := by rw [EventRecord.event?, hpart]
    refine ⟨?_, ?_⟩
    · rw [hfilter _ hpart, if_pos rfl, List.flatMap_append, List.flatMap_singleton]
      exact h.attributes.merge r.attributes
    · rw [hevents _ hevent]
      exact (List.append_nil _).symm ▸ h.events
  | event id =>
    have hevent : r.event? = some (id, r.attributes) := by rw [EventRecord.event?, hpart]
    have hattributes : Trace.AttributesOf
        (((emitted ++ [r]).filter fun r => r.part = .trace).flatMap (·.attributes)) t.attributes := by
      rw [hfilter _ hpart, if_neg nofun, List.append_nil]
      exact h.attributes
    cases id with
    | none =>
      refine ⟨hattributes, ?_⟩
      rw [hevents _ hevent]
      exact h.events.anonymous r.attributes
    | some id =>
      refine ⟨hattributes, ?_⟩
      rw [hevents _ hevent]
      exact h.events.mergeEvent id r.attributes

abbrev DocumentOf (emitted : List EventRecord) (traces : Document) : Prop :=
  Keyed.Grouped EventRecord.instanceId TraceOf emitted traces

abbrev DocumentsOf (emitted : List EventRecord) (documents : Keyed Document) : Prop :=
  Keyed.Grouped EventRecord.process DocumentOf emitted documents

theorem DocumentOf.add {emitted : List EventRecord} {traces : Document}
    (h : DocumentOf emitted traces) (r : EventRecord) :
    DocumentOf (emitted ++ [r])
      (Keyed.modify r.instanceId {} (fun t => t.add r.part r.attributes) traces) :=
  h.modify r (traceOf_nil.add r) fun ht => ht.add r

namespace EventLogs

theorem documentsOf_mergeRecord {emitted : List EventRecord} {documents : Keyed Document}
    (h : DocumentsOf emitted documents) (r : EventRecord) :
    DocumentsOf (emitted ++ [r]) (mergeRecord documents r) :=
  h.modify r (DocumentOf.add Keyed.grouped_nil r) fun hd => hd.add r

theorem documentsOf_foldl (rs : List EventRecord) : DocumentsOf rs (rs.foldl mergeRecord []) := by
  induction rs using List.reverseRecOn with
  | nil => exact Keyed.grouped_nil
  | append_singleton rs r ih =>
    rw [List.foldl_append]
    exact documentsOf_mergeRecord ih r

inductive Action where
  | emit (r : EventRecord)
  | endBlock
  | discard

def perform (l : EventLogs) : Action → EventLogs
  | .emit r => l.add r
  | .endBlock => l.endBlock
  | .discard => l.discard

def performAll (l : EventLogs) (as : List Action) : EventLogs :=
  as.foldl perform l

def Action.stageStep : Action → StageStep EventRecord
  | .emit r => .push r
  | .endBlock => .endBlock
  | .discard => .discard

/-- The emissions after which a block ends before one is discarded. -/
def committed (as : List Action) : List EventRecord :=
  (StageStep.departures .block (as.map fun a => (a.stageStep, ()))).map (·.1)

def stage (l : EventLogs) : Staging EventRecord :=
  { mode := .block, staged := l.staged }

theorem perform_stage (l : EventLogs) (a : Action) :
    (l.perform a).stage = (l.stage.perform a.stageStep).1 ∧
      (l.perform a).documents = (l.stage.perform a.stageStep).2.foldl mergeRecord l.documents := by
  cases a with
  | emit r => exact ⟨rfl, rfl⟩
  | endBlock => exact ⟨rfl, rfl⟩
  | discard => exact ⟨rfl, rfl⟩

theorem documents_performAll (l : EventLogs) (as : List Action) :
    (l.performAll as).documents =
      ((l.stage.given (as.map fun a => (a.stageStep, ()))).map (·.1)).foldl mergeRecord
        l.documents := by
  induction as generalizing l with
  | nil => rfl
  | cons a as ih =>
    obtain ⟨hstage, hdocuments⟩ := l.perform_stage a
    have hmarks : ∀ due : List EventRecord, (due.map (·, ())).map (·.1) = due := by
      intro due
      rw [List.map_map]
      exact List.map_id due
    rw [performAll, List.foldl_cons]
    refine (ih _).trans ?_
    rw [hstage, hdocuments, List.map_cons, Staging.given, List.map_append, List.foldl_append, hmarks]

/-- The documents are merged of the committed emissions in their order. Where the blocks end does not
matter. -/
theorem documents_of_committed (as : List Action) :
    DocumentsOf (committed as) (performAll {} as).documents ∧
      ∀ bs, committed bs = committed as →
        (performAll {} bs).documents = (performAll {} as).documents := by
  have hdocuments : ∀ as, (performAll {} as).documents = (committed as).foldl mergeRecord [] := by
    intro as
    rw [documents_performAll, committed, ← Staging.given_eq_departures]
    rfl
  refine ⟨?_, fun bs hbs => ?_⟩
  · rw [hdocuments]
    exact documentsOf_foldl _
  · rw [hdocuments, hdocuments, hbs]

end EventLogs
end ChainQuery
