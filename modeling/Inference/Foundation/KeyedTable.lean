import Mathlib.Data.List.Basic

/-! # Tables of keys

A table gives some keys a value. A pass over a structure extends a table by entries, and
an entry without a value says that its key stays without one.
-/

namespace Inference.Foundation

variable {key value : Type} {first second third : key → Option value}
  {entries more : List (key × Option value)}

/-- The table has the entries. -/
def Holds (table : key → Option value) (entries : List (key × Option value)) : Prop :=
  ∀ entry ∈ entries, table entry.1 = entry.2

/-- The table says nothing about the keys of the entries. -/
def Unset (table : key → Option value) (entries : List (key × Option value)) : Prop :=
  ∀ entry ∈ entries, table entry.1 = none

/-- The second table has the entries and agrees with the first one on other keys. -/
structure Extends (first second : key → Option value) (entries : List (key × Option value)) :
    Prop where
  holds : Holds second entries
  same : ∀ name, name ∉ entries.map Prod.fst → second name = first name

namespace Extends

theorem of_holds (holds : Holds first entries) : Extends first first entries :=
  ⟨holds, fun _ _ => rfl⟩

theorem nil : Extends first first [] :=
  of_holds (by simp [Holds])

theorem append (disjoint : ∀ entry ∈ entries, entry.1 ∉ more.map Prod.fst)
    (left : Extends first second entries) (right : Extends second third more) :
    Extends first third (entries ++ more) := by
  constructor
  · intro entry member
    rcases List.mem_append.mp member with member | member
    · rw [right.same entry.1 (disjoint entry member)]
      exact left.holds entry member
    · exact right.holds entry member
  · intro name outside
    rw [List.map_append, List.mem_append, not_or] at outside
    rw [right.same name outside.2, left.same name outside.1]

/-- One more key, which the entries do not have. -/
theorem cons {name : key} {found : Option value} (fresh : name ∉ entries.map Prod.fst)
    (extended : Extends first second entries)
    (same : ∀ other, other ≠ name → third other = second other) (now : third name = found) :
    Extends first third ((name, found) :: entries) := by
  constructor
  · intro entry member
    rcases List.mem_cons.mp member with rfl | member
    · exact now
    · have different : entry.1 ≠ name := fun equal =>
        fresh (equal ▸ List.mem_map_of_mem member)
      rw [same entry.1 different]
      exact extended.holds entry member
  · intro other outside
    rw [List.map_cons, List.mem_cons, not_or] at outside
    rw [same other outside.1, extended.same other outside.2]

/-- A pass that touches only the keys of the entries may come before. -/
theorem after_within (within : ∀ name, name ∉ entries.map Prod.fst → second name = first name)
    (extended : Extends second third entries) : Extends first third entries :=
  ⟨extended.holds, fun name outside => (extended.same name outside).trans (within name outside)⟩

end Extends

theorem Holds.of_same (holds : Holds first entries)
    (same : ∀ entry ∈ entries, second entry.1 = first entry.1) : Holds second entries :=
  fun entry member => (same entry member).trans (holds entry member)

theorem Unset.of_same (unset : Unset first entries)
    (same : ∀ entry ∈ entries, second entry.1 = first entry.1) : Unset second entries :=
  fun entry member => (same entry member).trans (unset entry member)

end Inference.Foundation
