import ChainQuery.Text.Blank

/-!
# White space around texts

White space before and after a text is skipped, and a text that neither begins nor ends with white space
is kept as it is.
-/

namespace ChainQuery.Text

def Blank (cs : List Char) : Prop :=
  ∀ c ∈ cs, isBlank c = true

instance (cs : List Char) : Decidable (Blank cs) :=
  decidable_of_iff (cs.all isBlank = true) List.all_eq_true

variable {cs before after : List Char} {c d : Char}

theorem blank_nil : Blank [] := nofun

theorem Blank.all (h : Blank cs) : cs.all isBlank = true :=
  List.all_eq_true.2 h

theorem trimBlank_pad (hbefore : Blank before) (hafter : Blank after) :
    trimBlank (before ++ cs ++ after) = trimBlank cs := by
  have hreverse : ∀ a ∈ after.reverse, isBlank a = true := fun a ha => hafter a (List.mem_reverse.1 ha)
  have hall : after.dropWhile isBlank = [] := by
    rw [← List.append_nil after]
    exact List.dropWhile_append_of_pos hafter
  rw [trimBlank, trimBlank, List.append_assoc, List.dropWhile_append_of_pos hbefore,
    List.dropWhile_append]
  split
  · next hblank => rw [List.isEmpty_iff.1 hblank, hall]
  · rw [List.reverse_append, List.dropWhile_append_of_pos hreverse]

theorem trimBlank_of_ends (hc : isBlank c = false) (hd : isBlank d = false)
    (hhead : cs.head? = some c) (hlast : cs.getLast? = some d) : trimBlank cs = cs := by
  have hfirst : cs.dropWhile isBlank = cs := by
    cases cs with
    | nil => rfl
    | cons a cs =>
      obtain rfl := Option.some.inj hhead
      rw [List.dropWhile_cons_of_neg (by simp [hc])]
  have hrest : cs.reverse.dropWhile isBlank = cs.reverse := by
    rw [← List.head?_reverse] at hlast
    cases hcs : cs.reverse with
    | nil => rfl
    | cons a as =>
      rw [hcs] at hlast
      obtain rfl := Option.some.inj hlast
      rw [List.dropWhile_cons_of_neg (by simp [hd])]
  rw [trimBlank, hfirst, hrest, List.reverse_reverse]

theorem trimBlank_of_forall (h : ∀ c ∈ cs, isBlank c = false) : trimBlank cs = cs := by
  cases hhead : cs.head? with
  | none =>
    rw [List.head?_eq_none_iff.1 hhead]
    rfl
  | some c =>
    have hne : cs ≠ [] := List.ne_nil_of_mem (List.mem_of_head? hhead)
    exact trimBlank_of_ends (h c (List.mem_of_head? hhead)) (h _ (List.getLast_mem hne)) hhead
      (List.getLast?_eq_some_getLast hne)

theorem isDigit_iff : c.isDigit = true ↔ 48 ≤ c.toNat ∧ c.toNat ≤ 57 := by
  simp [Char.isDigit, UInt32.le_iff_toNat_le]

theorem isBlank_of_isDigit (h : c.isDigit = true) : isBlank c = false := by
  have hbounds := isDigit_iff.1 h
  simp [isBlank]
  omega

end ChainQuery.Text
