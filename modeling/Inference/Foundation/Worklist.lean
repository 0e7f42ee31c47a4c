import Mathlib.Logic.Relation
import Mathlib.Order.WellFounded
import Mathlib.Data.List.Nodup

/-! # Searches with a worklist

A search takes an element from a stack, keeps it or drops it, and puts what comes next onto the
stack. It ends where nothing comes next forever, and it finds an element once where there is one way
to each element.
-/

namespace Inference.Worklist

variable {α : Type} (next : α → List α) (keep : α → Bool)

/-- The first element of the stack is its top. -/
def search : Nat → List α → List α → Option (List α)
  | _, [], found => some found
  | 0, _ :: _, _ => none
  | fuel + 1, current :: stack, found =>
      search fuel (next current ++ stack) (if keep current then found ++ [current] else found)

/-- What is found from a stack, in order. -/
inductive Finds : List α → List α → Prop
  | nil : Finds [] []
  | kept {current : α} {stack found : List α} (isKept : keep current = true)
      (rest : Finds (next current ++ stack) found) : Finds (current :: stack) (current :: found)
  | dropped {current : α} {stack found : List α} (isDropped : keep current = false)
      (rest : Finds (next current ++ stack) found) : Finds (current :: stack) found

/-- `target` is `start` or comes behind it. -/
def Leads (start target : α) : Prop :=
  Relation.ReflTransGen (fun here there => there ∈ next here) start target

variable {next keep}

theorem Finds.search_eq {stack found : List α} (finds : Finds next keep stack found)
    (before : List α) :
    ∃ enough, ∀ fuel, enough ≤ fuel →
      search next keep fuel stack before = some (before ++ found) := by
  induction finds generalizing before with
  | nil => exact ⟨0, fun fuel _ => by rw [search, List.append_nil]⟩
  | @kept current stack found isKept rest induction =>
      rcases induction (before ++ [current]) with ⟨enough, searched⟩
      refine ⟨enough + 1, fun fuel isEnough => ?_⟩
      cases fuel with
      | zero => exact absurd isEnough (Nat.not_succ_le_zero _)
      | succ fuel =>
          rw [search, if_pos isKept, searched fuel (Nat.le_of_succ_le_succ isEnough),
            List.append_assoc, List.singleton_append]
  | @dropped current stack found isDropped rest induction =>
      rcases induction before with ⟨enough, searched⟩
      refine ⟨enough + 1, fun fuel isEnough => ?_⟩
      cases fuel with
      | zero => exact absurd isEnough (Nat.not_succ_le_zero _)
      | succ fuel =>
          rw [search, if_neg (Bool.not_eq_true _ ▸ isDropped),
            searched fuel (Nat.le_of_succ_le_succ isEnough)]

theorem finds_of_search {fuel : Nat} {stack before found : List α}
    (searched : search next keep fuel stack before = some found) :
    ∃ new, found = before ++ new ∧ Finds next keep stack new := by
  induction fuel generalizing stack before with
  | zero =>
      cases stack with
      | nil => exact ⟨[], by cases searched; rw [List.append_nil], .nil⟩
      | cons current stack => cases searched
  | succ fuel induction =>
      cases stack with
      | nil => exact ⟨[], by cases searched; rw [List.append_nil], .nil⟩
      | cons current stack =>
          rw [search] at searched
          rcases induction searched with ⟨new, rfl, finds⟩
          cases isKept : keep current with
          | true =>
              exact ⟨current :: new, by rw [if_pos rfl, List.append_assoc]; rfl,
                .kept isKept finds⟩
          | false => exact ⟨new, by rw [if_neg Bool.false_ne_true], .dropped isKept finds⟩

theorem Finds.append {first second found behind : List α} (finds : Finds next keep first found)
    (rest : Finds next keep second behind) :
    Finds next keep (first ++ second) (found ++ behind) := by
  induction finds with
  | nil => exact rest
  | kept isKept _ induction => exact .kept isKept (by rwa [List.append_assoc] at induction)
  | dropped isDropped _ induction =>
      exact .dropped isDropped (by rwa [List.append_assoc] at induction)

/-- A search ends where no element comes behind itself forever. -/
theorem exists_finds (wellFounded : WellFounded fun there here => there ∈ next here)
    (start : α) : ∃ found, Finds next keep [start] found := by
  induction start using wellFounded.induction with
  | _ start induction =>
    have behind : ∀ stack : List α, (∀ there ∈ stack, there ∈ next start) →
        ∃ found, Finds next keep stack found := by
      intro stack
      induction stack with
      | nil => exact fun _ => ⟨[], .nil⟩
      | cons there stack rest =>
          intro inside
          rcases induction there (inside there List.mem_cons_self) with ⟨found, finds⟩
          rcases rest fun other member => inside other (List.mem_cons_of_mem _ member) with
            ⟨later, findsLater⟩
          exact ⟨found ++ later, finds.append findsLater⟩
    rcases behind (next start) fun _ member => member with ⟨found, finds⟩
    rw [← List.append_nil (next start)] at finds
    cases isKept : keep start with
    | true => exact ⟨start :: found, .kept isKept finds⟩
    | false => exact ⟨found, .dropped isKept finds⟩

theorem leads_cons {current target : α} :
    Leads next current target ↔
      target = current ∨ ∃ there ∈ next current, Leads next there target := by
  rw [Leads, Relation.ReflTransGen.cases_head_iff]
  exact or_congr eq_comm Iff.rfl

theorem Finds.mem_iff {stack found : List α} (finds : Finds next keep stack found)
    (target : α) :
    target ∈ found ↔ keep target = true ∧ ∃ start ∈ stack, Leads next start target := by
  induction finds with
  | nil => exact iff_of_false List.not_mem_nil fun ⟨_, _, member, _⟩ => List.not_mem_nil member
  | @kept current stack found isKept _ induction =>
      rw [List.mem_cons, induction]
      simp only [List.mem_append, or_and_right, exists_or, List.exists_mem_cons_iff,
        @leads_cons _ next current]
      constructor
      · intro member
        rcases member with rfl | ⟨targetKept, behind | later⟩
        · exact ⟨isKept, .inl (.inl rfl)⟩
        · exact ⟨targetKept, .inl (.inr behind)⟩
        · exact ⟨targetKept, .inr later⟩
      · intro there
        rcases there with ⟨targetKept, (rfl | behind) | later⟩
        · exact .inl rfl
        · exact .inr ⟨targetKept, .inl behind⟩
        · exact .inr ⟨targetKept, .inr later⟩
  | @dropped current stack found isDropped _ induction =>
      rw [induction]
      simp only [List.mem_append, or_and_right, exists_or, List.exists_mem_cons_iff,
        @leads_cons _ next current]
      refine and_congr_right fun targetKept => ?_
      have other : target ≠ current := by
        rintro rfl
        cases isDropped.symm.trans targetKept
      simp only [other, false_or]

/-! ## One way to each element -/

theorem inside_next {root current : α} {stack : List α}
    (inside : ∀ start ∈ current :: stack, Leads next root start) :
    ∀ start ∈ next current ++ stack, Leads next root start := by
  intro start member
  rcases List.mem_append.mp member with isNext | inStack
  · exact (inside current List.mem_cons_self).tail isNext
  · exact inside start (List.mem_cons_of_mem _ inStack)

section Unique

variable {root : α} (wellFounded : WellFounded fun there here => there ∈ next here)
  (oneWay : ∀ here other there, Leads next root here → Leads next root other →
    there ∈ next here → there ∈ next other → here = other)

include oneWay in
/-- Of two elements that lead to a third one, one leads to the other. -/
theorem leads_total {first second target : α} (rootFirst : Leads next root first)
    (rootSecond : Leads next root second) (leads : Leads next first target)
    (others : Leads next second target) : Leads next first second ∨ Leads next second first := by
  induction leads with
  | refl => exact .inr others
  | @tail between last leads step induction =>
      rcases Relation.ReflTransGen.cases_tail others with rfl | ⟨before, reached, lastStep⟩
      · exact .inl (leads.tail step)
      · have same := oneWay before between last (rootSecond.trans reached)
          (rootFirst.trans leads) lastStep step
        exact induction (same ▸ reached)

include wellFounded oneWay in
/-- Two elements that come next to one are apart. -/
theorem next_apart {here first second target : α} (reached : Leads next root here)
    (isNext : first ∈ next here) (isOther : second ∈ next here) (different : first ≠ second)
    (leads : Leads next first target) (others : Leads next second target) : False := by
  have noWay : ∀ {one two : α}, one ∈ next here → two ∈ next here → one ≠ two →
      ¬ Leads next one two := by
    intro one two oneNext twoNext apart leadsOn
    rcases Relation.ReflTransGen.cases_tail leadsOn with same | ⟨before, upTo, lastStep⟩
    · exact apart same.symm
    · have rootBefore := (reached.tail oneNext).trans upTo
      have same := oneWay before here two rootBefore reached lastStep twoNext
      have circle : Relation.TransGen (fun there here => there ∈ next here) here here :=
        Relation.transGen_swap.mp (Relation.TransGen.head' oneNext (same ▸ upTo))
      exact wellFounded.transGen.irrefl.irrefl here circle
  rcases leads_total oneWay (reached.tail isNext) (reached.tail isOther) leads others with
    onward | backward
  · exact noWay isNext isOther different onward
  · exact noWay isOther isNext (Ne.symm different) backward

/-- Nothing comes behind two elements of a stack or behind itself. -/
def Apart (next : α → List α) (stack : List α) : Prop :=
  stack.Pairwise fun first second => ∀ target, Leads next first target → ¬ Leads next second target

include wellFounded oneWay in
theorem Apart.step {current : α} {stack : List α} (reached : Leads next root current)
    (nodup : (next current).Nodup) (apart : Apart next (current :: stack)) :
    Apart next (next current ++ stack) := by
  rcases List.pairwise_cons.mp apart with ⟨fromCurrent, others⟩
  refine List.pairwise_append.mpr ⟨?_, others, ?_⟩
  · refine List.Pairwise.imp_of_mem ?_ nodup
    intro first second isNext isOther different target leads leadsOther
    exact next_apart wellFounded oneWay reached isNext isOther different leads leadsOther
  · intro there isNext other inStack target leads
    exact fromCurrent other inStack target (leads_cons.mpr (.inr ⟨there, isNext, leads⟩))

include wellFounded oneWay in
theorem Finds.nodup {stack found : List α}
    (nodups : ∀ here, Leads next root here → (next here).Nodup)
    (finds : Finds next keep stack found) (inside : ∀ start ∈ stack, Leads next root start)
    (apart : Apart next stack) : found.Nodup := by
  induction finds with
  | nil => exact List.nodup_nil
  | @kept current stack found isKept rest induction =>
      have reached := inside current List.mem_cons_self
      refine List.nodup_cons.mpr ⟨?_, induction (inside_next inside)
        (apart.step wellFounded oneWay reached (nodups current reached))⟩
      intro again
      rcases (rest.mem_iff current).mp again with ⟨_, start, member, leads⟩
      rcases List.mem_append.mp member with isNext | inStack
      · have circle : Relation.TransGen (fun there here => there ∈ next here) current current :=
          Relation.transGen_swap.mp (Relation.TransGen.head' isNext leads)
        exact wellFounded.transGen.irrefl.irrefl current circle
      · exact (List.pairwise_cons.mp apart).1 start inStack current .refl leads
  | @dropped current stack found isDropped rest induction =>
      have reached := inside current List.mem_cons_self
      exact induction (inside_next inside)
        (apart.step wellFounded oneWay reached (nodups current reached))

end Unique

end Inference.Worklist
