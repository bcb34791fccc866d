import ChainQuery.Proofs.Execution.Paths

/-!
# What the deeds of a run tell

The deeds of a run account for the questions that it has asked, for its journal and its variables, and
for the record of its failures: how many there were and what the last messages are.
-/

namespace ChainQuery

namespace Deed

def inquiry? : Deed → Option Inquiry
  | asked i => some i
  | _ => none

def entry? : Deed → Option JournalEntry
  | noted e => some e
  | _ => none

def bindings : Deed → List (String × Value)
  | bound bindings => bindings
  | _ => []

def message? : Deed → Option String
  | recorded context e _ => some (context ++ ": " ++ e.message)
  | _ => none

def messages (deeds : List Deed) : List String :=
  (deeds.filterMap message?).reverse

theorem messages_cons (d : Deed) (deeds : List Deed) :
    messages (d :: deeds) = messages deeds ++ d.message?.toList := by
  rw [messages, List.filterMap_cons]
  cases d.message? with
  | none => exact (List.append_nil _).symm
  | some _ => exact List.reverse_cons

end Deed

namespace ErrorRecord

def kept (messages : List String) : List String :=
  messages.drop (messages.length - min capacity messages.length)

theorem remember_kept (messages : List String) (message : String) :
    remember (kept messages) message = kept (messages ++ [message]) := by
  have hlength : (kept messages).length = min capacity messages.length := by
    rw [kept, List.length_drop]
    omega
  rw [remember, hlength, kept, kept, List.length_append, List.length_singleton]
  by_cases hroom : messages.length < capacity
  · have hnone : messages.length - min capacity messages.length = 0 := by omega
    have hnone' : messages.length + 1 - min capacity (messages.length + 1) = 0 := by omega
    rw [if_pos (by omega), hnone, hnone']
    rfl
  · have hone : messages.length + 1 - min capacity (messages.length + 1) =
        messages.length - min capacity messages.length + 1 := by omega
    have hwithin : messages.length - min capacity messages.length + 1 ≤ messages.length := by
      have : 0 < capacity := by decide
      omega
    rw [if_neg (by omega), List.drop_drop, hone, List.drop_append_of_le_length hwithin]

def after (r : ErrorRecord) : Deed → ErrorRecord
  | .recorded context e ends =>
    { r with
      aborting := ends
      reported := r.reported + 1
      recent := remember r.recent (context ++ ": " ++ e.message) }
  | _ => r

theorem handle_going {r : ErrorRecord} (hr : r.aborting = false) (context : String)
    (e : ExecutionError) : (r.handle context e).2 = r.after (.recorded context e (r.ends e)) := by
  rw [handle, hr]
  cases r.ends e <;> rfl

end ErrorRecord

namespace RunState

/-- No failure was handled before the run, and its deeds begin with it. -/
structure Unspoilt (s : RunState) : Prop where
  errors : s.errors = { abortOnError := s.errors.abortOnError }
  deeds : s.deeds = []

/-- The deeds since a state account for what has changed since then. -/
structure Recounts (s t : RunState) : Prop where
  asked : t.asked = t.deeds.filterMap Deed.inquiry? ++ s.asked
  journal : t.journal = s.journal ++ (t.deeds.filterMap Deed.entry?).reverse
  bound : t.variables = s.variables.setAll (t.deeds.reverse.flatMap Deed.bindings)
  abortOnError : t.errors.abortOnError = s.errors.abortOnError
  reported : t.errors.reported = (Deed.messages t.deeds).length
  recent : t.errors.recent = ErrorRecord.kept (Deed.messages t.deeds)

theorem Unspoilt.recounts {s : RunState} (hs : s.Unspoilt) : s.Recounts s where
  asked := by rw [hs.deeds]; rfl
  journal := by rw [hs.deeds]; exact (List.append_nil _).symm
  bound := by rw [hs.deeds]; rfl
  abortOnError := rfl
  reported := by rw [hs.deeds, hs.errors]; rfl
  recent := by rw [hs.deeds, hs.errors]; rfl

structure Adds (d : Deed) (s t : RunState) : Prop where
  deeds : t.deeds = d :: s.deeds
  asked : t.asked = d.inquiry?.toList ++ s.asked
  journal : t.journal = s.journal ++ d.entry?.toList
  bound : t.variables = s.variables.setAll d.bindings
  errors : t.errors = s.errors.after d

theorem adds_perform (s : RunState) (e : JournalEntry) : s.Adds (.noted e) (s.perform e) :=
  ⟨rfl, rfl, rfl, rfl, rfl⟩

theorem Recounts.adds {s t u : RunState} {d : Deed} (h : s.Recounts t) (hd : t.Adds d u) :
    s.Recounts u where
  asked := by
    rw [hd.asked, hd.deeds, h.asked, List.filterMap_cons]
    cases d.inquiry? <;> rfl
  journal := by
    rw [hd.journal, hd.deeds, h.journal, List.append_assoc, List.filterMap_cons]
    cases d.entry? with
    | none => exact congrArg _ (List.append_nil _)
    | some e => exact congrArg _ List.reverse_cons.symm
  bound := by
    rw [hd.bound, hd.deeds, h.bound, List.reverse_cons, List.flatMap_append, List.flatMap_singleton]
    exact List.foldl_append.symm
  abortOnError := by
    rw [hd.errors, ← h.abortOnError]
    cases d <;> rfl
  reported := by
    rw [hd.errors, hd.deeds, Deed.messages_cons, List.length_append, ← h.reported]
    cases d <;> rfl
  recent := by
    rw [hd.errors, hd.deeds, Deed.messages_cons]
    cases d with
    | recorded context e ends =>
      refine Eq.trans ?_ (ErrorRecord.remember_kept _ _)
      rw [← h.recent]
      rfl
    | _ => exact h.recent.trans (congrArg _ (List.append_nil _).symm)

end RunState

def JournalEntry.failure? : JournalEntry → Option ExecutionError
  | left _ failure => failure
  | closed failure => failure
  | _ => none

namespace Flight

/-- The deeds that may be done in a flight, and the flight after them. -/
inductive Next (abort : Bool) : Flight → Deed → Flight → Prop where
  | began (i : Instruction) (view : View) : Next abort .going (.began i view) .going
  | asked (i : Inquiry) : Next abort .going (.asked i) .going
  | bound (bindings : List (String × Value)) : Next abort .going (.bound bindings) .going
  | noted {e : JournalEntry} : (∀ c failure, e ≠ .left c (some failure)) →
      (∀ failure, e ≠ .closed (some failure)) → Next abort .going (.noted e) .going
  | raised (e : ExecutionError) : Next abort .going (.raised e) (.flying e)
  | left {f : Flight} {e : ExecutionError} (c : Cursor) : f.failure? = some e →
      Next abort f (.noted (.left c (some e))) f
  | recorded (context : String) (e : ExecutionError) :
      Next abort (.flying e) (.recorded context e (e.isFatal || abort))
        (.handled (e.isFatal || abort) e)
  | passed (context : String) (e : ExecutionError) :
      Next abort (.ending e) (.passed context e) (.ending e)
  | closed (e : ExecutionError) :
      Next abort (.ending e) (.noted (.closed (some e))) (.ending e)

theorem Next.unfailed {abort : Bool} (e : JournalEntry) (h : e.failure? = none) :
    Next abort .going (.noted e) .going := by
  refine .noted ?_ ?_
  · rintro c failure rfl
    cases h
  · rintro failure rfl
    cases h

/-- The deeds from the start to a flight, the last one first. -/
inductive Story (abort : Bool) : Flight → List Deed → Prop where
  | nil : Story abort .going []
  | cons {f g : Flight} {d : Deed} {deeds : List Deed} : Story abort f deeds → Next abort f d g →
      Story abort g (d :: deeds)

end Flight

/-- A move is a deed, or the attachment of a chain. -/
theorem Move.adds {f g : Flight} {s t : RunState} (hmove : Move f s g t) :
    (∃ d, s.Adds d t ∧ Flight.Next s.errors.abortOnError f d g) ∨
      f = g ∧ ∃ chain, t = { s with chain := some chain } := by
  cases hmove with
  | began i => exact .inl ⟨_, ⟨rfl, rfl, (List.append_nil _).symm, rfl, rfl⟩, .began i _⟩
  | asked i => exact .inl ⟨_, ⟨rfl, rfl, (List.append_nil _).symm, rfl, rfl⟩, .asked i⟩
  | attached chain => exact .inr ⟨rfl, chain, rfl⟩
  | bound bindings =>
    exact .inl ⟨_, ⟨rfl, rfl, (List.append_nil _).symm, rfl, rfl⟩, .bound bindings⟩
  | entered e =>
    have hadds : s.Adds (.noted (.entered e)) (s.enter e) := by
      cases e <;> exact ⟨rfl, rfl, rfl, rfl, rfl⟩
    exact .inl ⟨_, hadds, .unfailed _ rfl⟩
  | staged => exact .inl ⟨_, s.adds_perform _, .unfailed _ rfl⟩
  | moved path => exact .inl ⟨_, s.adds_perform _, .unfailed _ rfl⟩
  | raised e => exact .inl ⟨_, ⟨rfl, rfl, (List.append_nil _).symm, rfl, rfl⟩, .raised e⟩
  | left c =>
    have hadds : s.Adds (.noted (.left c f.failure?)) (s.exit c f.failure?) := by
      cases c <;> exact ⟨rfl, rfl, rfl, rfl, rfl⟩
    refine .inl ⟨_, hadds, ?_⟩
    cases f with
    | going => exact .unfailed _ rfl
    | flying e => exact .left c rfl
    | ending e => exact .left c rfl
  | recorded context e hgoing =>
    refine .inl ⟨.recorded context e (s.errors.ends e), ⟨?_, rfl, (List.append_nil _).symm, rfl, ?_⟩,
      .recorded context e⟩
    · rw [RunState.handle, hgoing]
      rfl
    · exact ErrorRecord.handle_going hgoing context e
  | passed context e haborting =>
    refine .inl ⟨.passed context e, ⟨?_, rfl, (List.append_nil _).symm, rfl, ?_⟩, .passed context e⟩
    · rw [RunState.handle, if_pos haborting]
      rfl
    · exact congrArg Prod.snd (ErrorRecord.handle_aborting context e haborting)
  | closed _ hsettled =>
    refine .inl ⟨_, s.adds_perform _, ?_⟩
    cases f with
    | going => exact .unfailed _ rfl
    | flying e => exact absurd rfl (hsettled e)
    | ending e => exact .closed e

end ChainQuery
