import ChainQuery.Expression.Term
import ChainQuery.Program.Addresses
import ChainQuery.Proofs.Results

/-!
# Names in address criteria

A term reads a reserved name from what is current and any other name from the variables; a criterion
reads every name from the variables. So a criterion accepts the addresses that a term of the same name
gives if the name is not a reserved one, and otherwise only if the variables happen to hold the same
addresses under that name, which no assignment can make them do.
-/

namespace ChainQuery

namespace Value

inductive Spells : Value → String → Prop
  | address (s : String) : Spells (.address s) s
  | str (s : String) : Spells (.str s) s

/-- The items of a list, and any other value alone. -/
def elements : Value → List Value
  | list items => items
  | v => [v]

/-- A value is an address, a string or a list of such, with given texts. -/
def Gives (v : Value) (texts : List String) : Prop :=
  List.Forall₂ Spells v.elements texts

theorem toText_eq_ok {v : Value} {s : String} : v.toText = .ok s ↔ v.Spells s := by
  constructor
  · intro h
    cases v with
    | address t =>
      obtain rfl := Except.ok.inj h
      exact .address t
    | str t =>
      obtain rfl := Except.ok.inj h
      exact .str t
    | _ => cases h
  · rintro (s | s) <;> rfl

end Value

/-- Whether an address is among given ones, without regard to the case of letters. -/
def Text.among (texts : List String) (a : String) : Bool :=
  texts.any fun t => equalFold t a

/-- Some address is not among given ones. -/
theorem Text.exists_not_among (texts : List String) : ∃ a, among texts a = false := by
  -- two texts that are equal up to case have the same length
  obtain ⟨n, hn⟩ : ∃ n, ∀ t ∈ texts, t.toList.length < n := by
    induction texts with
    | nil => exact ⟨0, nofun⟩
    | cons t texts ih =>
      obtain ⟨n, hn⟩ := ih
      refine ⟨max n (t.toList.length + 1), List.forall_mem_cons.mpr ⟨by omega, fun u hu => ?_⟩⟩
      have := hn u hu
      omega
  refine ⟨String.ofList (List.replicate n 'x'), List.any_eq_false.mpr fun t ht hfold => ?_⟩
  have hlength := congrArg List.length (equalFold_iff.mp hfold)
  simp only [foldCase, List.length_map, String.toList_ofList, List.length_replicate] at hlength
  have hshort := hn t ht
  omega

namespace AddressCriterion

variable {a name : String} {xs : List Value} {texts : List String}

theorem amongValues_of_spells (h : List.Forall₂ Value.Spells xs texts) (a : String) :
    amongValues a xs = .ok (Text.among texts a) := by
  induction h with
  | nil => rfl
  | @cons x t xs texts hx _ ih =>
    rw [amongValues, Value.toText_eq_ok.mpr hx, Text.among, List.any_cons]
    show (if Text.equalFold t a then pure true else amongValues a xs) = _
    cases Text.equalFold t a with
    | true => rfl
    | false => exact ih

/-- A search that does not find an address has gone through all values. -/
theorem spells_of_amongValues (h : amongValues a xs = .ok false) :
    ∃ texts, List.Forall₂ Value.Spells xs texts := by
  induction xs with
  | nil => exact ⟨[], .nil⟩
  | cons x xs ih =>
    obtain ⟨t, ht, h⟩ := except_bind_eq_ok.mp h
    split at h
    · cases h
    · obtain ⟨texts, htexts⟩ := ih h
      exact ⟨t :: texts, .cons (Value.toText_eq_ok.mp ht) htexts⟩

variable {m : NameMap Value} {v : Value}

/-- A criterion looks through what the variables hold under its name. -/
theorem accepts_held (hm : m.get? name = some v) (a : String) :
    (held name).accepts m (some a) = amongValues a v.elements := by
  rw [accepts, hm]
  cases v <;> rfl

theorem accepts_of_gives (hm : m.get? name = some v) (hv : v.Gives texts) (a : String) :
    (held name).accepts m (some a) = .ok (Text.among texts a) := by
  rw [accepts_held hm]
  exact amongValues_of_spells hv a

theorem accepts_unheld (hm : m.get? name = none) (a : String) :
    (held name).accepts m (some a) = .error (.unknownVariable name) := by
  rw [accepts, hm]

/-- A criterion that turns an address down has found nothing but addresses. -/
theorem gives_of_accepts (h : (held name).accepts m (some a) = .ok false) :
    ∃ v texts, m.get? name = some v ∧ v.Gives texts := by
  cases hm : m.get? name with
  | none => cases (accepts_unheld hm a).symm.trans h
  | some v =>
    obtain ⟨texts, htexts⟩ := spells_of_amongValues ((accepts_held hm a).symm.trans h)
    exact ⟨v, texts, rfl, htexts⟩

end AddressCriterion

theorem View.get?_of_eval {view : View} {name : String} {v : Value}
    (hfree : ChainField.ofName? name = none) (hread : (Term.ofName name).eval view = .ok v) :
    view.variables.get? name = some v := by
  rw [Term.ofName, hfree, Term.eval, View.read] at hread
  split at hread
  · next hm => exact hm.trans (congrArg some (Except.ok.inj hread))
  · cases hread

open AddressCriterion in
/-- A criterion accepts the addresses that a term of the same name gives exactly if the name is not
reserved or the variables hold the same addresses under it. A reserved name that the variables do not
hold makes the criterion fail for every address. -/
theorem held_criterion_iff {view : View} {name : String} {v : Value} {texts : List String}
    (hread : (Term.ofName name).eval view = .ok v) (hv : v.Gives texts) :
    ((∀ a, ∃ passes, (held name).accepts view.variables (some a) = .ok passes ∧
        (passes = true ↔ ∃ t ∈ texts, Text.equalFold t a = true)) ↔
      ChainField.ofName? name = none ∨
        ∃ u others, view.variables.get? name = some u ∧ u.Gives others ∧
          ∀ a, (∃ t ∈ others, Text.equalFold t a = true) ↔ ∃ t ∈ texts, Text.equalFold t a = true) ∧
    (view.variables.get? name = none → ∀ a,
      (held name).accepts view.variables (some a) = .error (.unknownVariable name)) := by
  refine ⟨⟨fun h => ?_, ?_⟩, accepts_unheld⟩
  · -- an address that the term does not give makes the criterion look through all that is held
    obtain ⟨a, ha⟩ := Text.exists_not_among texts
    obtain ⟨passes, hpasses, hiff⟩ := h a
    have hnot : passes = false := by
      rw [Bool.eq_false_iff, ne_eq, hiff, ← List.any_eq_true]
      exact ne_true_of_eq_false ha
    obtain ⟨u, others, hu, hothers⟩ := gives_of_accepts (hpasses.trans (congrArg Except.ok hnot))
    refine .inr ⟨u, others, hu, hothers, fun b => ?_⟩
    obtain ⟨passes, hpasses, hiff⟩ := h b
    obtain rfl := Except.ok.inj ((accepts_of_gives hu hothers b).symm.trans hpasses)
    rw [← hiff]
    exact List.any_eq_true.symm
  · rintro (hfree | ⟨u, others, hu, hothers, hsame⟩) a
    · exact ⟨_, accepts_of_gives (View.get?_of_eval hfree hread) hv a, List.any_eq_true⟩
    · exact ⟨_, accepts_of_gives hu hothers a, List.any_eq_true.trans (hsame a)⟩

def watchingView : View where
  «variables» := NameMap.set ∅ "watched" (.list [.address "0xA", .str "0xb"])
  transaction := some { sender := "0xA" }

theorem held_criterion_watched :
    ∃ passes, (AddressCriterion.held "watched").accepts watchingView.variables (some "0xB") =
      .ok passes ∧ passes = true := by
  have hread : (Term.ofName "watched").eval watchingView =
      .ok (.list [.address "0xA", .str "0xb"]) := by
    have hfree : ChainField.ofName? "watched" = none := by decide
    rw [Term.ofName, hfree, Term.eval, View.read, watchingView, NameMap.get?_set_self]
  have hgives : (Value.list [.address "0xA", .str "0xb"]).Gives ["0xA", "0xb"] :=
    .cons (.address _) (.cons (.str _) .nil)
  obtain ⟨passes, hpasses, hiff⟩ :=
    (held_criterion_iff hread hgives).1.mpr (.inl (by decide)) "0xB"
  exact ⟨passes, hpasses, hiff.mpr ⟨"0xb", by decide, by decide⟩⟩

/-- The sender of the current transaction can be read, but not in a criterion. -/
theorem reserved_criterion_fails :
    (Term.ofName "tx.from").eval watchingView = .ok (.address "0xA") ∧
    (AddressCriterion.held "tx.from").accepts watchingView.variables (some "0xa") =
      .error (.unknownVariable "tx.from") := by
  have hunheld : watchingView.variables.get? "tx.from" = none := by
    rw [watchingView, NameMap.get?_set_of_ne _ _ (by decide)]
    exact NameMap.get?_empty _
  exact ⟨by rfl, AddressCriterion.accepts_unheld hunheld "0xa"⟩

end ChainQuery
