import Std.Data.ExtTreeMap

/-!
# Finite maps from names

Maps in which only the value of each name counts: two maps that give every name the same value are
the same map.
-/

namespace ChainQuery

/-- A finite map from names. Two maps with the same values are equal. -/
structure NameMap (α : Type) where
  entries : Std.ExtTreeMap String α

namespace NameMap

def empty : NameMap α := ⟨∅⟩

instance : EmptyCollection (NameMap α) := ⟨empty⟩

instance : Inhabited (NameMap α) := ⟨empty⟩

def get? (m : NameMap α) (name : String) : Option α :=
  m.entries[name]?

def set (m : NameMap α) (name : String) (a : α) : NameMap α :=
  ⟨m.entries.insert name a⟩

def erase (m : NameMap α) (name : String) : NameMap α :=
  ⟨m.entries.erase name⟩

/-- Gives several names values, later ones over earlier ones. -/
def setAll (m : NameMap α) (bindings : List (String × α)) : NameMap α :=
  bindings.foldl (fun m b => m.set b.1 b.2) m

@[simp] theorem get?_empty (name : String) : (empty : NameMap α).get? name = none := by
  simp [get?, empty]

theorem get?_set (m : NameMap α) (name other : String) (a : α) :
    (m.set name a).get? other = if name = other then some a else m.get? other := by
  simp [get?, set, Std.ExtTreeMap.getElem?_insert]

@[simp] theorem get?_set_self (m : NameMap α) (name : String) (a : α) :
    (m.set name a).get? name = some a := by
  simp [get?_set]

theorem get?_set_of_ne (m : NameMap α) {name other : String} (a : α) (h : name ≠ other) :
    (m.set name a).get? other = m.get? other := by
  simp [get?_set, h]

theorem get?_erase (m : NameMap α) (name other : String) :
    (m.erase name).get? other = if name = other then none else m.get? other := by
  simp [get?, erase, Std.ExtTreeMap.getElem?_erase]

theorem ext_get? {m n : NameMap α} (h : ∀ name, m.get? name = n.get? name) : m = n := by
  cases m
  cases n
  simp only [NameMap.mk.injEq]
  exact Std.ExtTreeMap.ext_getElem? h

end NameMap
end ChainQuery
