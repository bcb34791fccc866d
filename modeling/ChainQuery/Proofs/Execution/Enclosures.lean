import Mathlib.Data.List.Infix
import ChainQuery.Proofs.Execution.Traces

/-!
# The visits around a point of a run

A journal says at each of its points which visits are open. The cursors can be read off them: the
current element of a kind is that of the innermost open visit of the kind, unless another element of
the kind was visited inside it, whose end has cleared the cursor.
-/

namespace ChainQuery

/-- A visited transaction is one of the innermost block around it. -/
def Element.BelongsTo (e : Element) (around : List Element) : Prop :=
  ∀ x, e = .transaction x →
    ∃ b, around.find? (fun o => o.cursor = .block) = some (.block b) ∧ x ∈ b.transactions

def JournalEntry.brackets : JournalEntry → Bool
  | entered _ => true
  | left _ _ => true
  | _ => false

/-- Journals of closed visits, inside the visits of other elements, the innermost one first. -/
inductive Within : List Element → Journal → Prop where
  | nil {around : List Element} : Within around []
  | single {around : List Element} {entry : JournalEntry} :
      entry.brackets = false → Within around [entry]
  | append {around : List Element} {j k : Journal} :
      Within around j → Within around k → Within around (j ++ k)
  | visit {around : List Element} {e : Element} {j : Journal}
      (failure : Option ExecutionError) : e.BelongsTo around → Within (e :: around) j →
      Within around (Journal.visit e j failure)

/-- The visit of an element that is not over yet, with the journal since it began. -/
structure Enclosure where
  element : Element
  since : Journal

namespace Enclosure

/-- Another element of the kind has been visited inside. -/
def overtaken (s : Enclosure) : Bool :=
  s.since.visits s.element.cursor

def extend (entry : JournalEntry) (s : Enclosure) : Enclosure :=
  { s with since := s.since ++ [entry] }

/-- The open visits after an entry of the journal, the innermost one first. -/
def follow (scopes : List Enclosure) (entry : JournalEntry) : List Enclosure :=
  match entry with
  | .entered e => ⟨e, []⟩ :: scopes.map (extend entry)
  | .left _ _ => scopes.tail.map (extend entry)
  | _ => scopes.map (extend entry)

def innermost? (c : Cursor) (scopes : List Enclosure) : Option Enclosure :=
  scopes.find? fun s => s.element.cursor = c

def current? (scopes : List Enclosure) (c : Cursor) : Option Element :=
  (innermost? c scopes).bind fun s => if s.overtaken then none else some s.element

end Enclosure

/-- The visits that a journal has begun and not ended. -/
def Journal.enclosing (j : Journal) : List Enclosure :=
  j.foldl Enclosure.follow []

def JournalEntry.point (c : Cursor) (current : Option Element) : JournalEntry → Option Element
  | entered e => if e.cursor = c then some e else current
  | left k _ => if k = c then none else current
  | _ => current

namespace Enclosure
variable {scopes : List Enclosure} {c : Cursor} {e : Element} {entry : JournalEntry}

theorem element_extend (entry : JournalEntry) :
    element ∘ extend entry = element := rfl

theorem innermost_extend (entry : JournalEntry) :
    innermost? c (scopes.map (extend entry)) = (innermost? c scopes).map (extend entry) := by
  rw [innermost?, List.find?_map]
  rfl

theorem visits_extend (entry : JournalEntry) (s : Enclosure) :
    (s.extend entry).since.visits c = (s.since.visits c || entry.enters c) := by
  show List.any (_ ++ [_]) _ = _
  rw [List.any_append, List.any_cons, List.any_nil, Bool.or_false]
  rfl

theorem current_extend (h : entry.enters c = false) :
    current? (scopes.map (extend entry)) c = current? scopes c := by
  rw [current?, innermost_extend, current?]
  cases hinnermost : innermost? c scopes with
  | none => rfl
  | some s =>
    have hkind : s.element.cursor = c := by
      simpa using List.find?_some hinnermost
    have hovertaken : (s.extend entry).overtaken = s.overtaken := by
      show (s.extend entry).since.visits s.element.cursor = _
      rw [visits_extend, hkind, h, Bool.or_false, overtaken, hkind]
    show ite _ _ _ = ite _ _ _
    rw [hovertaken]
    rfl

/-- Open visits as a run nests them: each lies in the body of the next one. -/
inductive Sound : List Enclosure → Prop where
  | nil : Sound []
  | cons {s : Enclosure} {scopes : List Enclosure} : s.element.BelongsTo (scopes.map element) →
      (∀ o ∈ scopes, o.since.visits s.element.cursor = true) → Sound scopes → Sound (s :: scopes)

theorem Sound.extend (h : Sound scopes) (entry : JournalEntry) :
    Sound (scopes.map (Enclosure.extend entry)) := by
  induction h with
  | nil => exact .nil
  | @cons s scopes hbelongs hinside _ ih =>
    rw [List.map_cons]
    refine .cons ?_ ?_ ih
    · rw [List.map_map, element_extend]
      exact hbelongs
    · intro o ho
      obtain ⟨o', ho', rfl⟩ := List.mem_map.mp ho
      rw [visits_extend]
      show (_ || _) = true
      rw [show o'.since.visits (s.extend entry).element.cursor = true from hinside o' ho']
      rfl

theorem Sound.entered (h : Sound scopes) (hbelongs : e.BelongsTo (scopes.map element)) :
    Sound (follow scopes (.entered e)) := by
  refine .cons ?_ ?_ (h.extend _)
  · rw [List.map_map, element_extend]
    exact hbelongs
  · intro o ho
    obtain ⟨o', -, rfl⟩ := List.mem_map.mp ho
    rw [visits_extend]
    simp [JournalEntry.enters]

/-- The open visits tell the cursors. -/
structure Tells (scopes : List Enclosure) (current : Cursor → Option Element) : Prop where
  sound : Sound scopes
  current : ∀ c, current? scopes c = current c

variable {current : Cursor → Option Element}

theorem Tells.entered (h : Tells scopes current) (hbelongs : e.BelongsTo (scopes.map element)) :
    Tells (follow scopes (.entered e))
      (fun c => JournalEntry.point c (current c) (.entered e)) where
  sound := h.sound.entered hbelongs
  current := by
    intro c
    show current? (⟨e, []⟩ :: scopes.map (extend (.entered e))) c = ite _ _ _
    by_cases hc : e.cursor = c
    · rw [current?, innermost?, List.find?_cons_of_pos (by simpa using hc), if_pos hc]
      rfl
    · have hskip : current? (⟨e, []⟩ :: scopes.map (extend (.entered e))) c =
          current? (scopes.map (extend (.entered e))) c := by
        rw [current?, innermost?, List.find?_cons_of_neg (by simpa using hc)]
        rfl
      rw [hskip, current_extend (by simpa [JournalEntry.enters] using hc), h.current, if_neg hc]

theorem Tells.left {s : Enclosure} (h : Tells (s :: scopes) current)
    (failure : Option ExecutionError) :
    Tells (follow (s :: scopes) (.left s.element.cursor failure))
      (fun c => JournalEntry.point c (current c) (.left s.element.cursor failure)) where
  sound := by
    cases h.sound with
    | cons _ _ hrest => exact hrest.extend _
  current := by
    intro c
    show current? (scopes.map (extend (.left s.element.cursor failure))) c = ite _ _ _
    rw [current_extend rfl]
    by_cases hc : s.element.cursor = c
    · -- the visit that ends has overtaken all others of its kind
      rw [if_pos hc, current?]
      cases hinnermost : innermost? c scopes with
      | none => rfl
      | some o =>
        have hkind : o.element.cursor = c := by
          simpa using List.find?_some hinnermost
        have hovertaken : o.overtaken = true := by
          cases h.sound with
          | cons _ hinside _ =>
            rw [overtaken, hkind, ← hc]
            exact hinside o (List.mem_of_find?_eq_some hinnermost)
        show ite _ _ _ = _
        rw [if_pos hovertaken]
    · rw [if_neg hc, ← h.current]
      show _ = current? (s :: scopes) c
      rw [current?, current?, innermost?, innermost?, List.find?_cons_of_neg (by simpa using hc)]

theorem follow_single (hentry : entry.brackets = false) :
    follow scopes entry = scopes.map (extend entry) := by
  cases entry <;> first | rfl | cases hentry

theorem Tells.single (h : Tells scopes current) (hentry : entry.brackets = false) :
    Tells (follow scopes entry) (fun c => entry.point c (current c)) := by
  rw [follow_single hentry]
  refine ⟨h.sound.extend entry, fun c => ?_⟩
  have henters : entry.enters c = false := by
    cases entry <;> first | rfl | cases hentry
  have hpoint : entry.point c (current c) = current c := by
    cases entry <;> first | rfl | cases hentry
  rw [current_extend henters, h.current, hpoint]

theorem elements_extend (scopes : List Enclosure) (entry : JournalEntry) :
    (scopes.map (extend entry)).map element = scopes.map element := by
  rw [List.map_map, element_extend]

end Enclosure

def Journal.pointed (j : Journal) (current : Cursor → Option Element) (c : Cursor) :
    Option Element :=
  j.foldl (JournalEntry.point c) (current c)

theorem Journal.pointed_append (j k : Journal) (current : Cursor → Option Element) :
    (j ++ k).pointed current = k.pointed (j.pointed current) := by
  funext c
  exact List.foldl_append

/-- What the open visits tell holds all along a journal, which leaves the visits open that were open
before it. -/
def Journal.Told (around : List Element) (j : Journal) : Prop :=
  ∀ (scopes : List Enclosure) (current : Cursor → Option Element), Enclosure.Tells scopes current →
    scopes.map Enclosure.element = around →
      (j.foldl Enclosure.follow scopes).map Enclosure.element = around ∧
        ∀ pre, pre <+: j →
          Enclosure.Tells (pre.foldl Enclosure.follow scopes) (Journal.pointed pre current)

namespace Journal

theorem told_nil (around : List Element) : Told around [] := by
  intro scopes current htells haround
  refine ⟨haround, fun pre hpre => ?_⟩
  obtain rfl := List.prefix_nil.mp hpre
  exact htells

theorem told_single (around : List Element) {entry : JournalEntry} (hentry : entry.brackets = false) :
    Told around [entry] := by
  intro scopes current htells haround
  constructor
  · rw [← haround, List.foldl_cons, List.foldl_nil, Enclosure.follow_single hentry,
      Enclosure.elements_extend]
  · intro pre hpre
    obtain rfl | ⟨_, rfl, hnil⟩ := List.prefix_cons_iff.mp hpre
    · exact htells
    · obtain rfl := List.prefix_nil.mp hnil
      exact htells.single hentry

theorem Told.append {around : List Element} {j k : Journal} (hj : Told around j)
    (hk : Told around k) : Told around (j ++ k) := by
  intro scopes current htells haround
  obtain ⟨haroundj, htellsj⟩ := hj scopes current htells haround
  obtain ⟨haroundk, htellsk⟩ := hk _ _ (htellsj j (List.prefix_refl j)) haroundj
  constructor
  · rw [List.foldl_append]
    exact haroundk
  · intro pre hpre
    obtain hpre' | ⟨k', rfl⟩ := List.prefix_or_prefix_of_prefix hpre (List.prefix_append j k)
    · exact htellsj pre hpre'
    · rw [List.foldl_append, pointed_append]
      exact htellsk k' ((List.prefix_append_right_inj j).mp hpre)

theorem pointed_visit (e : Element) (body : Journal) (failure : Option ExecutionError)
    (current : Cursor → Option Element) :
    (visit e body failure).pointed current = fun c => JournalEntry.point c
      (body.pointed (fun c => JournalEntry.point c (current c) (.entered e)) c)
      (.left e.cursor failure) := by
  funext c
  rw [pointed, visit, List.foldl_cons, List.foldl_append]
  rfl

theorem Told.visit {around : List Element} {e : Element} {body : Journal}
    (hbelongs : e.BelongsTo around) (hbody : Told (e :: around) body)
    (failure : Option ExecutionError) : Told around (Journal.visit e body failure) := by
  intro scopes current htells haround
  have hentered := htells.entered (haround ▸ hbelongs)
  have haround' : (Enclosure.follow scopes (.entered e)).map Enclosure.element = e :: around := by
    rw [← haround]
    exact congrArg _ (Enclosure.elements_extend scopes _)
  obtain ⟨hend, htellsBody⟩ := hbody _ _ hentered haround'
  have hlast := htellsBody body (List.prefix_refl body)
  -- the visit is the innermost open one when it ends
  cases hopen : body.foldl Enclosure.follow (Enclosure.follow scopes (.entered e)) with
  | nil =>
    rw [hopen] at hend
    cases hend
  | cons last rest =>
    rw [hopen] at hend hlast
    obtain ⟨hkind, hrest⟩ := List.cons.inj hend
    have hleft := hlast.left failure
    rw [hkind] at hleft
    have hvisit : (Journal.visit e body failure).foldl Enclosure.follow scopes =
        Enclosure.follow (last :: rest) (.left e.cursor failure) := by
      rw [Journal.visit, List.foldl_cons, List.foldl_append, hopen]
      rfl
    constructor
    · rw [hvisit, ← hrest]
      exact Enclosure.elements_extend rest _
    · intro pre hpre
      obtain rfl | ⟨pre', rfl, hpre'⟩ := List.prefix_cons_iff.mp hpre
      · exact htells
      · obtain rfl | hinside := List.prefix_concat_iff.mp hpre'
        · show Enclosure.Tells ((Journal.visit e body failure).foldl _ scopes)
            ((Journal.visit e body failure).pointed current)
          rw [hvisit, pointed_visit]
          exact hleft
        · exact htellsBody pre' hinside

end Journal

/-- What the open visits tell holds all along a journal of closed visits. -/
theorem Within.tells {around : List Element} {j : Journal} (h : Within around j) :
    j.Told around := by
  induction h with
  | nil => exact Journal.told_nil _
  | single hentry => exact Journal.told_single _ hentry
  | append _ _ ihj ihk => exact ihj.append ihk
  | visit failure hbelongs _ ih => exact .visit hbelongs ih failure

end ChainQuery
