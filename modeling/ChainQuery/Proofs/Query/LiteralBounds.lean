import ChainQuery.Proofs.Expression.Literals
import ChainQuery.Proofs.Query.Stacks
import ChainQuery.Proofs.Query.Typing
import ChainQuery.Proofs.Scan.Splitting

/-!
# Literal bounds of a scan

Of two bounds that are written as integers, the compiler compares those that are numbers of blocks. A
bound that is none passes: it is an integer as far as types are concerned, and the comparison skips it. So
a scan is refused for its literal bounds exactly if both are numbers of blocks and the second is smaller,
and a scan with any other integer for a bound compiles and then fails whenever it is run.
-/

namespace ChainQuery

open Text

/-- A written integer: a numeral without plus sign, or one with the type of integers. -/
def WrittenValue.Denotes : WrittenValue → Int → Prop
  | literal text, i => IntegerNumeral (trimBlank text.toList) i ∧ (trimBlank text.toList).head? ≠ some '+'
  | typed keyword text, i =>
    ValueType.ofKeyword? keyword = some .int ∧ IntegerNumeral (trimBlank text.toList) i
  | named _, _ => False

def IsLiteral (i : Int) : Prop := -(2 ^ 127) ≤ i ∧ i < 2 ^ 256

def IsBlockNumber (i : Int) : Prop := 0 ≤ i ∧ i < 2 ^ 64

theorem IsBlockNumber.isLiteral {i : Int} (h : IsBlockNumber i) : IsLiteral i := by
  obtain ⟨hlow, hhigh⟩ := h
  constructor <;> omega

instance (i : Int) : Decidable (IsLiteral i) := inferInstanceAs (Decidable (_ ∧ _))

instance (i : Int) : Decidable (IsBlockNumber i) := inferInstanceAs (Decidable (_ ∧ _))

def Bound.ofInt (i : Int) : Bound := .number (.literal (.ofInt i))

def BlockRange.ofInts (m n : Int) : BlockRange := ⟨.ofInt m, .ofInt n⟩

variable {a b w : WrittenValue} {i m n : Int}

section Reading

theorem WrittenValue.toTerm_of_denotes (h : w.Denotes i) :
    (IsLiteral i → w.toTerm = .ok (.literal (.ofInt i))) ∧
      (¬ IsLiteral i → ∃ text, w.toTerm = .error (.unresolvedLiteral text)) := by
  obtain ⟨text, hnumeral, hterm⟩ : ∃ text, IntegerNumeral (trimBlank text) i ∧
      w.toTerm = (Literal.read .int text).map .literal := by
    cases w with
    | named => cases h
    | literal text =>
      have hinfer : Literal.infer? text.toList = some .int :=
        Literal.inferFrom?_numeral _ h.1 h.2 rfl
      exact ⟨text.toList, h.1, by rw [toTerm, Literal.readUntyped, hinfer]⟩
    | typed keyword text =>
      refine ⟨text.toList, h.2, ?_⟩
      rw [toTerm, ValueType.read, h.1]
      show (Literal.read .int text.toList >>= fun v => pure (Term.literal v)) = _
      cases Literal.read .int text.toList <;> rfl
  have hread : Literal.read .int text =
      if IsLiteral i then .ok (.ofInt i)
      else .error (.unresolvedLiteral (String.ofList (trimBlank text))) :=
    Literal.read_int_of_numeral hnumeral
  constructor
  · intro hi
    rw [hterm, hread, if_pos hi]
    rfl
  · intro hi
    rw [hterm, hread, if_neg hi]
    exact ⟨_, rfl⟩

theorem TypeFacts.toBound_of_denotes (f : TypeFacts) (h : w.Denotes i) :
    (IsLiteral i → f.toBound (.number w) = .ok (.ofInt i)) ∧
      (¬ IsLiteral i → ∃ text, f.toBound (.number w) = .error (.unresolvedLiteral text)) := by
  obtain ⟨hinside, houtside⟩ := WrittenValue.toTerm_of_denotes h
  constructor
  · intro hi
    have htype : f.typeOf (.literal (.ofInt i)) = .int := (Value.holds_ofInt i).type_eq
    have haccepts : ValueType.int.accepts .int = true := rfl
    rw [toBound, hinside hi]
    show (if ValueType.int.accepts (f.typeOf (.literal (.ofInt i))) then _ else _) = _
    rw [htype, if_pos haccepts]
    rfl
  · intro hi
    obtain ⟨text, hterm⟩ := houtside hi
    exact ⟨text, by rw [toBound, hterm]; rfl⟩

/-- The compiler knows the number of a literal bound exactly if it is the number of a block. -/
theorem Bound.fixed?_ofInt (i : Int) :
    (Bound.ofInt i).fixed? = if IsBlockNumber i then some i.toNat else none := by
  rw [ofInt, fixed?, Value.ofInt_eq]
  have hbound : i < Value.blockNumberBound ↔ i < 2 ^ 64 := by simp [Value.blockNumberBound]
  by_cases hi : IsBlockNumber i
  · have hrange : -(2 ^ 127) ≤ i ∧ i < 2 ^ 127 := by
      obtain ⟨hlow, hhigh⟩ := hi
      omega
    rw [if_pos hrange, if_pos hi, Value.toBlockNumber_int hi.1 (hbound.2 hi.2)]
    rfl
  · rw [if_neg hi]
    split
    · have hnot : ¬ (0 ≤ i ∧ i < Value.blockNumberBound) := by rwa [hbound]
      rw [Value.toBlockNumber, Value.toInt]
      show (if 0 ≤ i ∧ i < Value.blockNumberBound then _ else _ : Except _ _).toOption = none
      rw [if_neg hnot]
      rfl
    · rfl

/-- Two literal bounds are refused exactly if both are numbers of blocks and the second is smaller. -/
theorem BlockRange.make_ofInts (m n : Int) :
    make (.ofInt m) (.ofInt n) =
      if IsBlockNumber m ∧ IsBlockNumber n ∧ n < m then
        .error (.invalidRange (.reversed m.toNat n.toNat))
      else .ok (ofInts m n) := by
  have hupper : Bound.ofInt n ≠ .earliest := by
    intro h
    cases h
  rw [make, if_neg hupper, Bound.fixed?_ofInt, Bound.fixed?_ofInt]
  by_cases hm : IsBlockNumber m
  · by_cases hn : IsBlockNumber n
    · have hlt : n.toNat < m.toNat ↔ n < m := by
        have := hm.1
        have := hn.1
        omega
      simp only [hm, hn, if_true, true_and, hlt]
      rfl
    · simp only [hm, hn, if_true, if_false, false_and, and_false]
      rfl
  · simp only [hm, if_false, false_and]
    rfl

theorem Draft.blocksFilter_of_denotes (f : TypeFacts) (ha : a.Denotes m) (hb : b.Denotes n) :
    (IsLiteral m ∧ IsLiteral n → blocksFilter (.number a) (.number b) f =
      if IsBlockNumber m ∧ IsBlockNumber n ∧ n < m then
        .error (.invalidRange (.reversed m.toNat n.toNat))
      else .ok (.blocks (.ofInts m n))) ∧
    (¬ (IsLiteral m ∧ IsLiteral n) →
      ∃ text, blocksFilter (.number a) (.number b) f = .error (.unresolvedLiteral text)) := by
  obtain ⟨ha, ha'⟩ := f.toBound_of_denotes ha
  obtain ⟨hb, hb'⟩ := f.toBound_of_denotes hb
  constructor
  · rintro ⟨hm, hn⟩
    rw [blocksFilter, ha hm, hb hn]
    show (BlockRange.make (.ofInt m) (.ofInt n)).map Filter.blocks = _
    rw [BlockRange.make_ofInts]
    split <;> rfl
  · intro hnot
    by_cases hm : IsLiteral m
    · obtain ⟨text, hfails⟩ := hb' fun hn => hnot ⟨hm, hn⟩
      exact ⟨text, by rw [blocksFilter, ha hm, hfails]; rfl⟩
    · obtain ⟨text, hfails⟩ := ha' hm
      exact ⟨text, by rw [blocksFilter, hfails]; rfl⟩

end Reading

section Steps

theorem Composer.grounded_iff {c : Composer} {scopes : List OpenScope} (h : c.scopes = scopes) :
    c.Grounded ↔ Grounded ⟨scopes⟩ := by
  subst h
  exact Iff.rfl

theorem Draft.Places.grounded {d d' : Draft} {p : Placement} (h : Places d d' p) (hp : p ≠ .opens)
    (hd : d.composer.Grounded) : d'.composer.Grounded := by
  cases h with
  | opens => exact absurd rfl hp
  | adds h h' =>
    have hscopes := (Composer.grounded_iff h).mp hd
    exact (Composer.grounded_iff h').mpr (hscopes.of_kind rfl)
  | closes h h' =>
    have hscopes := Composer.grounded_cons.mp ((Composer.grounded_iff h).mp hd)
    exact (Composer.grounded_iff h').mpr (hscopes.of_kind rfl)
  | ends _ h' => exact (Composer.grounded_iff h').mpr Composer.grounded_nil
  | stays h => rwa [h]

theorem Draft.grounded_of_yields {e : QueryEvent} {d d' : Draft} {result : Option Program}
    (h : Yields (compile e) d result d') (hd : d.composer.Grounded) : d'.composer.Grounded := by
  cases e with
  | enterProgram =>
    simp only [compile, yields_bind, yields_compose, yields_pure] at h
    obtain ⟨_, _, ⟨c, hopened, rfl⟩, -, rfl⟩ := h
    have hperform : d.composer.perform .openProgram = .ok (none, c) := by
      rw [Composer.perform, hopened]
      rfl
    exact hd.perform hperform
  | enterFilter kind =>
    simp only [compile, yields_bind, yields_compose, yields_pure] at h
    obtain ⟨_, _, ⟨c, hopened, rfl⟩, -, rfl⟩ := h
    have hperform : d.composer.perform (.openFilter kind) = .ok (none, c) := by
      rw [Composer.perform, hopened]
      rfl
    exact hd.perform hperform
  | _ =>
    refine (places_of_yields h).grounded (fun hopens => ?_) hd
    cases hopens

/-- After any events the outermost scope, if one is open, is that of the program. -/
theorem Compiler.grounded_after {c : Compiler} (h : c.composer.Grounded) (es : List QueryEvent) :
    (c.after es).composer.Grounded := by
  induction es generalizing c with
  | nil => exact h
  | cons e es ih =>
    refine ih ?_
    rcases hstep : (c.step e).1 with err | result
    · obtain ⟨cause, d, hfails, hd⟩ := fails_of_step hstep
      rw [hd, Draft.composer_of_fails hfails]
      exact h
    · obtain ⟨d, hyields, hd⟩ := yields_of_step hstep
      rw [hd]
      exact Draft.grounded_of_yields hyields h

/-- Around a filter that is the innermost scope another scope is open. -/
theorem Composer.Grounded.exists_outer {c : Composer} {kind : FilterKind} (h : c.Grounded)
    (hinnermost : c.innermost? = some (.filter kind)) :
    ∃ s t scopes, c.scopes = s :: t :: scopes ∧ s.kind = .filter kind := by
  obtain ⟨_ | ⟨s, _ | ⟨t, scopes⟩⟩⟩ := c
  · cases hinnermost
  · have hkind : s.kind = .filter kind := Option.some.inj hinnermost
    rw [h s rfl] at hkind
    cases hkind
  · exact ⟨s, t, scopes, rfl, Option.some.inj hinnermost⟩

/-- The end of a block scope that is the innermost one adds the filter that its bounds make to the scope
around it, or fails as they do. -/
theorem Compiler.step_exitBlocks {c : Compiler} {s t : OpenScope} {scopes : List OpenScope}
    {first last : WrittenBound} (hscopes : c.composer.scopes = s :: t :: scopes)
    (hs : s.kind = .filter .blocks) :
    c.step (.exitBlocks first last) =
      match Draft.blocksFilter first last c.toTypeFacts with
      | .ok f => (.ok none,
          { c with composer := ⟨{ t with body := t.body ++ [.filter f s.body] } :: scopes⟩ })
      | .error cause => (.error ⟨cause, c.position⟩, c) := by
  cases hfilter : Draft.blocksFilter first last c.toTypeFacts with
  | ok f =>
    have hhead : (WrittenHead.blocks first last).toFilter c.toTypeFacts = .ok f := hfilter
    have hkind : f.kind = .blocks := WrittenHead.kind_of_toFilter hhead
    have hclose : c.composer.closeFilter f =
        .ok ⟨{ t with body := t.body ++ [.filter f s.body] } :: scopes⟩ := by
      rw [Composer.closeFilter, hscopes]
      show (if s.kind = .filter f.kind then _ else _) = _
      rw [if_pos (by rw [hs, hkind])]
      rfl
    exact step_eq_ok.mpr ⟨_, Draft.yields_then_none.mpr
      (Draft.yields_close.mpr ⟨f, _, hfilter, hclose, rfl⟩), rfl⟩
  | error cause =>
    refine step_eq_error.mpr ⟨cause, c.toDraft, Draft.fails_then_none.mpr ?_, rfl, rfl⟩
    rw [Draft.close, fails_get_bind, fails_bind]
    exact .inl (Compiling.fails_check.mpr ⟨hfilter, rfl⟩)

/-- The end of a block scope with two literal bounds: the filter between them, a range in reverse order, or a
literal out of range. -/
theorem Compiler.step_literal_bounds {es : List QueryEvent} {c : Compiler}
    (hc : ({} : Compiler).after es = c) (hinnermost : c.composer.innermost? = some (.filter .blocks))
    (ha : a.Denotes m) (hb : b.Denotes n) :
    ((IsLiteral m ∧ IsLiteral n) ∧ ¬ (IsBlockNumber m ∧ IsBlockNumber n ∧ n < m) ∧
      ∃ c' body, c.step (.exitBlocks (.number a) (.number b)) = (.ok none, c') ∧
        c'.composer.newest? = some (.filter (.blocks (.ofInts m n)) body)) ∨
    ((IsBlockNumber m ∧ IsBlockNumber n ∧ n < m) ∧
      (c.step (.exitBlocks (.number a) (.number b))).1 =
        .error ⟨.invalidRange (.reversed m.toNat n.toNat), c.position⟩) ∨
    (¬ (IsLiteral m ∧ IsLiteral n) ∧ ∃ text,
      (c.step (.exitBlocks (.number a) (.number b))).1 =
        .error ⟨.unresolvedLiteral text, c.position⟩) := by
  have hgrounded : c.composer.Grounded := by
    rw [← hc]
    exact grounded_after Composer.grounded_nil es
  obtain ⟨s, t, scopes, hscopes, hs⟩ := hgrounded.exists_outer hinnermost
  obtain ⟨hliteral, hwide⟩ := Draft.blocksFilter_of_denotes c.toTypeFacts ha hb
  rw [step_exitBlocks hscopes hs]
  by_cases hrange : IsLiteral m ∧ IsLiteral n
  · rw [hliteral hrange]
    by_cases hreversed : IsBlockNumber m ∧ IsBlockNumber n ∧ n < m
    · rw [if_pos hreversed]
      exact .inr (.inl ⟨hreversed, rfl⟩)
    · rw [if_neg hreversed]
      refine .inl ⟨hrange, hreversed, _, s.body, rfl, ?_⟩
      simp [Composer.newest?]
  · obtain ⟨text, hfails⟩ := hwide hrange
    rw [hfails]
    exact .inr (.inr ⟨hrange, text, rfl⟩)

end Steps

section Scans

theorem Bound.run_resolve_ofInt (i : Int) (s : RunState) :
    (Bound.ofInt i).resolve.run s =
      match (Value.ofInt i).toBlockNumber with
      | .ok n => some (.ok (some n), s)
      | .error e => some (.error e, s.log (.raised e)) := by
  have hread : Run.inView (Term.literal (.ofInt i)).eval = return .ofInt i := rfl
  have hresolve : (Bound.ofInt i).resolve = some <$> Run.ofExcept (Value.ofInt i).toBlockNumber := by
    rw [ofInt, resolve, hread, pure_bind]
    split
    · next hnull =>
      have htype := (Value.holds_ofInt i).type_eq
      rw [hnull] at htype
      cases htype
    · rfl
  rw [hresolve]
  cases (Value.ofInt i).toBlockNumber <;> rfl

/-- A bound that is no number of a block cannot be resolved. -/
theorem Bound.run_resolve_fails (h : ¬ IsBlockNumber i) (s : RunState) :
    ∃ e, (Bound.ofInt i).resolve.run s = some (.error e, s.log (.raised e)) := by
  have hfixed := Bound.fixed?_ofInt i
  rw [if_neg h, ofInt, fixed?] at hfixed
  rw [run_resolve_ofInt]
  cases hnumber : (Value.ofInt i).toBlockNumber with
  | error e => exact ⟨e, rfl⟩
  | ok n =>
    rw [hnumber] at hfixed
    cases hfixed

theorem Instruction.execute_ofInts (hm : IsBlockNumber m) (hn : IsBlockNumber n) (hle : m ≤ n)
    (looks : Nat) (body : List Instruction) :
    (filter (.blocks (.ofInts m n)) body).execute looks =
      Scan.walk (executeAll looks body) m.toNat (n.toNat - m.toNat + 1) := by
  have hfixed {i : Int} (hi : IsBlockNumber i) : (Bound.ofInt i).fixed? = some i.toNat := by
    rw [Bound.fixed?_ofInt, if_pos hi]
  have horder : m.toNat ≤ n.toNat := Int.toNat_le_toNat hle
  rw [← Nat.sub_add_comm horder]
  exact execute_blocks (hfixed hm) (hfixed hn) horder looks body

/-- A scan with a literal bound that is no number of a block fails before it looks at the chain. -/
theorem Instruction.execute_ofInts_fails (h : ¬ (IsBlockNumber m ∧ IsBlockNumber n)) (looks : Nat)
    (body : List Instruction) {s : RunState} (hs : s.cancelled = false) :
    ∃ e, ((filter (.blocks (.ofInts m n)) body).execute looks).run s =
      some (.error e, s.log (.raised e)) := by
  have hbound : Bound.ofInt n ≠ .continuous := by
    intro h
    cases h
  rw [execute, Filter.run, BlockRange.ofInts, Scan.run_bounded hbound, Bound.resolveFirst,
    Run.run_bind, Run.run_bind]
  by_cases hm : IsBlockNumber m
  · obtain ⟨e, hlast⟩ := Bound.run_resolve_fails (fun hn => h ⟨hm, hn⟩) s
    have hfirst : (Bound.ofInt m).resolve = return some m.toNat :=
      Bound.resolve_of_fixed? (by rw [Bound.fixed?_ofInt, if_pos hm])
    refine ⟨e, ?_⟩
    rw [hfirst]
    show (do
      if (← get).cancelled then return
      Scan.sweep _ m.toNat (← (Bound.ofInt n).resolve) : Run Unit).run s = _
    rw [Run.run_get_bind, hs, if_neg Bool.false_ne_true, Run.run_bind, hlast]
  · obtain ⟨e, hfirst⟩ := Bound.run_resolve_fails hm s
    exact ⟨e, by rw [hfirst]⟩

end Scans

/-- Two literal bounds of a block scope, at the end of it and with no other scope open inside, succeed
exactly for numbers of blocks in order, and fail as an invalid range otherwise, exactly if both are numbers
of blocks. Of two integers that literals can have only two numbers of blocks in reverse order are refused,
so a bound that is none gets into the program. A scan between numbers of blocks in order is a walk of at
least one number, and one with another integer for a bound fails before it looks at the chain. -/
theorem literal_bounds_checked_iff {es : List QueryEvent} {c : Compiler}
    (hc : ({} : Compiler).after es = c) (hinnermost : c.composer.innermost? = some (.filter .blocks))
    (ha : a.Denotes m) (hb : b.Denotes n) :
    ((((c.step (.exitBlocks (.number a) (.number b))).1 = .ok none ↔
          IsBlockNumber m ∧ IsBlockNumber n ∧ m ≤ n) ∧
        ∀ e, (c.step (.exitBlocks (.number a) (.number b))).1 = .error e →
          ∃ cause, e.cause = .invalidRange cause) ↔
      IsBlockNumber m ∧ IsBlockNumber n) ∧
    ((c.step (.exitBlocks (.number a) (.number b))).1 = .ok none ↔
      IsLiteral m ∧ IsLiteral n ∧ ¬ (IsBlockNumber m ∧ IsBlockNumber n ∧ n < m)) ∧
    ((c.step (.exitBlocks (.number a) (.number b))).1 = .ok none →
      ∃ body, (c.step (.exitBlocks (.number a) (.number b))).2.composer.newest? =
        some (.filter (.blocks (.ofInts m n)) body)) ∧
    (IsBlockNumber m ∧ IsBlockNumber n ∧ m ≤ n → ∀ looks body,
      (Instruction.filter (.blocks (.ofInts m n)) body).execute looks =
        Scan.walk (executeAll looks body) m.toNat (n.toNat - m.toNat + 1)) ∧
    (¬ (IsBlockNumber m ∧ IsBlockNumber n) → ∀ looks body s, s.cancelled = false →
      ∃ e, ((Instruction.filter (.blocks (.ofInts m n)) body).execute looks).run s =
        some (.error e, s.log (.raised e))) := by
  have hwalk := fun (h : IsBlockNumber m ∧ IsBlockNumber n ∧ m ≤ n) =>
    Instruction.execute_ofInts h.1 h.2.1 h.2.2
  have hfails := fun (h : ¬ (IsBlockNumber m ∧ IsBlockNumber n)) looks body s =>
    Instruction.execute_ofInts_fails (s := s) h looks body
  obtain ⟨hrange, hordered, c', body, hstep, hnewest⟩ | ⟨⟨hm, hn, hlt⟩, herror⟩ |
    ⟨hrange, text, herror⟩ := Compiler.step_literal_bounds hc hinnermost ha hb
  · rw [hstep]
    refine ⟨⟨fun ⟨hok, _⟩ => ?_, fun ⟨hm, hn⟩ => ⟨⟨fun _ => ⟨hm, hn, ?_⟩, fun _ => rfl⟩, nofun⟩⟩,
      ⟨fun _ => ⟨hrange.1, hrange.2, hordered⟩, fun _ => rfl⟩, fun _ => ⟨body, hnewest⟩, hwalk, hfails⟩
    · obtain ⟨hm, hn, -⟩ := hok.1 rfl
      exact ⟨hm, hn⟩
    · exact Int.not_lt.1 fun hlt => hordered ⟨hm, hn, hlt⟩
  · rw [herror]
    refine ⟨⟨fun _ => ⟨hm, hn⟩, fun _ => ⟨⟨nofun, fun h => ?_⟩, fun e he => ?_⟩⟩,
      ⟨nofun, fun h => ?_⟩, nofun, hwalk, hfails⟩
    · exact absurd h.2.2 (Int.not_le.2 hlt)
    · obtain rfl := Except.error.inj he
      exact ⟨_, rfl⟩
    · exact absurd ⟨hm, hn, hlt⟩ h.2.2
  · rw [herror]
    refine ⟨⟨fun ⟨_, hcause⟩ => ?_, fun ⟨hm, hn⟩ => ?_⟩, ⟨nofun, fun h => ?_⟩, nofun, hwalk, hfails⟩
    · obtain ⟨cause, hcause⟩ := hcause _ rfl
      cases hcause
    · exact absurd ⟨hm.isLiteral, hn.isLiteral⟩ hrange
    · exact absurd ⟨h.1, h.2.1⟩ hrange

/-- The bounds 1 and 5 are checked. -/
theorem literal_bounds_checked_in_order :
    ((({} : Compiler).after [.enterProgram, .enterFilter .blocks]).step
      (.exitBlocks (.number (.literal "1")) (.number (.literal "5")))).1 = .ok none := by
  have hone : (WrittenValue.literal "1").Denotes 1 :=
    ⟨.plain (by decide), by decide⟩
  have hfive : (WrittenValue.literal "5").Denotes 5 :=
    ⟨.plain (by decide), by decide⟩
  have hafter : ({} : Compiler).after [.enterProgram, .enterFilter .blocks] = _ := rfl
  have hchecked := literal_bounds_checked_iff hafter rfl hone hfive
  exact (hchecked.1.2 (by decide)).1.2 (by decide)

/-- The bounds -1 and 5 are accepted, and a scan between them fails. -/
theorem negative_bound_accepted :
    ((({} : Compiler).after [.enterProgram, .enterFilter .blocks]).step
      (.exitBlocks (.number (.literal "-1")) (.number (.literal "5")))).1 = .ok none ∧
    ∃ e, ((Instruction.filter (.blocks ⟨.number (.literal (.int (-1))), .number (.literal (.int 5))⟩)
      []).execute 0).run singleStart = some (.error e, singleStart.log (.raised e)) :=
  ⟨rfl, _, rfl⟩

end ChainQuery
