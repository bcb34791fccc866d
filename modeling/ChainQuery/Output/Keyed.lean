/-!
# Keyed items in order

Items with different keys in the order in which their keys came first. Changing an item keeps its
place.
-/

namespace ChainQuery

/-- Items by key, in the order of the first appearance of their keys. -/
abbrev Keyed (α : Type) := List (String × α)

namespace Keyed

/-- Changes the item with a key, or appends the changed default when there is none. -/
def modify (key : String) (default : α) (f : α → α) : Keyed α → Keyed α
  | [] => [(key, f default)]
  | item :: items =>
    if item.1 = key then (item.1, f item.2) :: items else item :: modify key default f items

def put (key : String) (a : α) (items : Keyed α) : Keyed α :=
  modify key a (fun _ => a) items

def keys (items : Keyed α) : List String :=
  items.map (·.1)

theorem mem_keys_modify {key other : String} {default : α} {f : α → α} {items : Keyed α} :
    other ∈ keys (modify key default f items) ↔ other = key ∨ other ∈ keys items := by
  induction items with
  | nil => simp [modify, keys]
  | cons item items ih =>
    by_cases h : item.1 = key
    · simp [modify, keys, h]
    · simp only [modify, h, if_false, keys, List.map_cons, List.mem_cons]
      simp only [keys] at ih
      rw [ih]
      exact or_left_comm

theorem nodup_keys_modify {key : String} {default : α} {f : α → α} {items : Keyed α}
    (h : (keys items).Nodup) : (keys (modify key default f items)).Nodup := by
  induction items with
  | nil => simp [modify, keys]
  | cons item items ih =>
    simp only [keys, List.map_cons, List.nodup_cons] at h
    by_cases hk : item.1 = key
    · simpa [modify, keys, hk] using h
    · simp only [modify, hk, if_false, keys, List.map_cons, List.nodup_cons]
      refine ⟨fun hm => ?_, ih h.2⟩
      rcases mem_keys_modify.1 hm with he | he
      · exact hk he
      · exact h.1 he

theorem lookup_cons_of_ne {key other : String} {a : α} {items : Keyed α} (h : other ≠ key) :
    List.lookup other ((key, a) :: items) = items.lookup other := by
  rw [List.lookup_cons, beq_false_of_ne h]

theorem lookup_eq_none {key : String} {items : Keyed α} (h : key ∉ keys items) :
    items.lookup key = none := by
  apply List.lookup_eq_none_iff.mpr
  intro item hitem
  apply bne_iff_ne.mpr
  intro heq
  apply h
  rw [heq]
  exact List.mem_map.mpr ⟨item, hitem, rfl⟩

end Keyed
end ChainQuery
