import Mathlib.Data.List.Induction

/-! # Maxima and stable sorting by a comparison

The comparison may hold different elements for equal. Then a list can have several highest elements:
a maximum takes the last one of them, and a stable sort puts the first one of them first.
-/

namespace Inference.Foundation

variable {α : Type*} (compare : α → α → Ordering)

/-- The last one of the highest elements. -/
def maxBy : List α → Option α
  | [] => none
  | first :: rest =>
      some (rest.foldl (fun best next => if compare best next = .gt then best else next) first)

/-- A stable sort. -/
def sortBy (elements : List α) : List α :=
  elements.mergeSort fun element element' => (compare element element').isLE

def isHighest (elements : List α) (element : α) : Bool :=
  elements.all fun other => (compare other element).isLE

/-- The elements that no other one is higher than. -/
def highest (elements : List α) : List α :=
  elements.filter (isHighest compare elements)

variable {compare}

theorem isHighest_iff {elements : List α} {element : α} :
    isHighest compare elements element = true ↔
      ∀ other ∈ elements, (compare other element).isLE :=
  List.all_eq_true

/-- Lower elements than one of the list are not among the highest. -/
theorem filter_isHighest_lower {elements lower : List α} {element : α} (member : element ∈ elements)
    (below : ∀ other ∈ lower, compare element other = .gt) :
    lower.filter (isHighest compare elements) = [] := by
  rw [List.filter_eq_nil_iff]
  intro other isLower highest
  have impossible := isHighest_iff.mp highest element member
  rw [below other isLower] at impossible
  cases impossible

section Orders

variable [Std.TransCmp compare]

/-- The fold of `maxBy` over a list that ends in one more element. -/
theorem maxBy_splits (elements : List α) (nonempty : elements ≠ []) :
    ∃ front element back, elements = front ++ element :: back ∧
      maxBy compare elements = some element ∧
      (∀ other ∈ front, (compare other element).isLE) ∧
      ∀ other ∈ back, compare element other = .gt := by
  cases elements with
  | nil => exact absurd rfl nonempty
  | cons first rest =>
      clear nonempty
      induction rest using List.reverseRecOn with
      | nil =>
          refine ⟨[], first, [], rfl, rfl, ?_, ?_⟩ <;> intro other member <;> cases member
      | append_singleton rest next induction =>
          rcases induction with ⟨front, best, back, split, found, notAbove, below⟩
          have foldFound := Option.some.inj found
          rw [maxBy, List.foldl_append, foldFound, List.foldl_cons, List.foldl_nil,
            ← List.cons_append, split]
          split
          · rename_i higher
            refine ⟨front, best, back ++ [next], by simp, rfl, notAbove, ?_⟩
            intro other member
            rcases List.mem_append.mp member with inBack | isNext
            · exact below other inBack
            · rw [List.mem_singleton.mp isNext]
              exact higher
          · rename_i notHigher
            refine ⟨front ++ best :: back, next, [], by simp, rfl, ?_,
              fun other member => by cases member⟩
            have bestLE : (compare best next).isLE := by
              cases compared : compare best next with
              | lt | eq => rfl
              | gt => exact absurd compared notHigher
            intro other member
            rcases List.mem_append.mp member with inFront | inBack
            · exact Std.TransCmp.isLE_trans (notAbove other inFront) bestLE
            · rcases List.mem_cons.mp inBack with rfl | inBack
              · exact bestLE
              · have lower := Std.OrientedCmp.lt_of_gt (below other inBack)
                exact Std.TransCmp.isLE_trans (Ordering.isLE_of_eq_lt lower) bestLE

theorem isHighest_of_split {front back : List α} {element : α}
    (inFront : ∀ other ∈ front, (compare other element).isLE)
    (inBack : ∀ other ∈ back, (compare other element).isLE) :
    isHighest compare (front ++ element :: back) element = true := by
  rw [isHighest_iff]
  intro other member
  rcases List.mem_append.mp member with isFront | isBack
  · exact inFront other isFront
  · rcases List.mem_cons.mp isBack with rfl | isBack
    · exact Std.ReflCmp.isLE_rfl
    · exact inBack other isBack

theorem isLE_of_gt {element other : α} (higher : compare element other = .gt) :
    (compare other element).isLE :=
  Ordering.isLE_of_eq_lt (Std.OrientedCmp.lt_of_gt higher)

variable (compare) in
/-- A maximum takes the last one of the highest elements. -/
theorem maxBy_eq (elements : List α) :
    maxBy compare elements = (highest compare elements).getLast? := by
  cases elements with
  | nil => rfl
  | cons first rest =>
      rcases @maxBy_splits _ compare _ (first :: rest) (List.cons_ne_nil _ _) with
        ⟨front, element, back, split, found, notAbove, below⟩
      have isHighest :=
        isHighest_of_split notAbove fun other member => isLE_of_gt (below other member)
      rw [found, split, highest, List.filter_append, List.filter_cons, if_pos isHighest,
        filter_isHighest_lower (List.mem_append_right _ List.mem_cons_self) below]
      exact List.getLast?_concat.symm

/-- Where an element comes in a list that is sorted downwards. -/
theorem sortBy_cons (element : α) (elements : List α) :
    ∃ above below,
      sortBy (fun element element' => compare element' element) (element :: elements) =
          above ++ element :: below ∧
        sortBy (fun element element' => compare element' element) elements = above ++ below ∧
        (∀ other ∈ above, compare other element = .gt) ∧
        ∀ other ∈ below, (compare other element).isLE := by
  have trans : ∀ first second third : α, (compare second first).isLE = true →
      (compare third second).isLE = true → (compare third first).isLE = true :=
    fun _ _ _ upper lower => Std.TransCmp.isLE_trans lower upper
  have total : ∀ first second : α,
      ((compare second first).isLE || (compare first second).isLE) = true := by
    intro first second
    cases compared : compare second first with
    | lt | eq => rfl
    | gt => simpa using isLE_of_gt compared
  rcases List.mergeSort_cons trans total element elements with
    ⟨above, below, inserted, sorted, higher⟩
  refine ⟨above, below, inserted, sorted, ?_, ?_⟩
  · intro other member
    have notLE := higher other member
    cases compared : compare other element with
    | gt => rfl
    | lt | eq =>
        rw [compared] at notLE
        cases notLE
  · have ordered := List.pairwise_mergeSort trans total (element :: elements)
    rw [inserted] at ordered
    exact (List.pairwise_cons.mp (List.pairwise_append.mp ordered).2.1).1

/-- What is found first in a list that is sorted downwards. -/
theorem find?_sortBy_splits (accepts : α → Bool) (elements : List α) :
    ((sortBy (fun element element' => compare element' element) elements).find? accepts = none ∧
        ∀ element ∈ elements, ¬ accepts element = true) ∨
      ∃ front element back, elements = front ++ element :: back ∧ accepts element = true ∧
        (sortBy (fun element element' => compare element' element) elements).find? accepts =
          some element ∧
        (∀ other ∈ front, accepts other = true → compare element other = .gt) ∧
        ∀ other ∈ back, accepts other = true → (compare other element).isLE := by
  induction elements with
  | nil =>
      left
      exact ⟨congrArg _ List.mergeSort_nil, fun element member => by cases member⟩
  | cons first rest induction =>
      rcases @sortBy_cons _ compare _ first rest with
        ⟨above, below, inserted, sorted, higher, notHigher⟩
      rw [sorted, List.find?_append] at induction
      rw [inserted, List.find?_append, List.find?_cons]
      cases inAbove : above.find? accepts with
      | some element =>
          -- The element found stays in front of the one that is inserted.
          have isAbove : element ∈ above := List.mem_of_find?_eq_some inAbove
          rw [inAbove] at induction
          rcases induction with
            ⟨impossible, _⟩ | ⟨front, found, back, split, accepted, isFound, parts⟩
          · cases impossible
          · cases isFound
            right
            refine ⟨first :: front, element, back, by rw [split]; rfl, accepted, rfl, ?_, parts.2⟩
            intro other member
            rcases List.mem_cons.mp member with rfl | inFront
            · exact fun _ => higher element isAbove
            · exact parts.1 other inFront
      | none =>
          rw [inAbove] at induction
          cases accepted : accepts first with
          | true =>
              right
              refine ⟨[], first, rest, rfl, accepted, rfl, by simp, ?_⟩
              intro other member acceptsOther
              have inSorted : other ∈ above ++ below := by
                rw [← sorted]
                exact List.mem_mergeSort.mpr member
              rcases List.mem_append.mp inSorted with isAbove | isBelow
              · exact absurd acceptsOther (List.find?_eq_none.mp inAbove other isAbove)
              · exact notHigher other isBelow
          | false =>
              have refused : ¬ accepts first = true := by simp [accepted]
              rcases induction with ⟨isNone, refuses⟩ | ⟨front, found, back, split, rest⟩
              · left
                refine ⟨isNone, ?_⟩
                intro other member
                rcases List.mem_cons.mp member with rfl | inRest
                · exact refused
                · exact refuses other inRest
              · right
                refine ⟨first :: front, found, back, by rw [split]; rfl, rest.1, rest.2.1, ?_,
                  rest.2.2.2⟩
                intro other member acceptsOther
                rcases List.mem_cons.mp member with rfl | inFront
                · exact absurd acceptsOther refused
                · exact rest.2.2.1 other inFront acceptsOther

variable (compare) in
/-- Sorting downwards brings the first one of the highest elements to the front, also among those
that are looked for. -/
theorem find?_sortBy (accepts : α → Bool) (elements : List α) :
    (sortBy (fun element element' => compare element' element) elements).find? accepts =
      (highest compare (elements.filter accepts)).head? := by
  rcases @find?_sortBy_splits _ compare _ accepts elements with
    ⟨isNone, refuses⟩ | ⟨front, element, back, split, accepted, isFound, below, notAbove⟩
  · have none : elements.filter accepts = [] := List.filter_eq_nil_iff.mpr refuses
    rw [isNone, none]
    rfl
  · have lower : ∀ other ∈ front.filter accepts, compare element other = .gt := by
      intro other member
      exact below other (List.mem_filter.mp member).1 (List.mem_filter.mp member).2
    have isHighest := isHighest_of_split (fun other member => isLE_of_gt (lower other member))
      (fun other (member : other ∈ back.filter accepts) =>
        notAbove other (List.mem_filter.mp member).1 (List.mem_filter.mp member).2)
    rw [isFound, split, List.filter_append, List.filter_cons, if_pos accepted, highest,
      List.filter_append, filter_isHighest_lower (List.mem_append_right _ List.mem_cons_self) lower,
      List.nil_append, List.filter_cons, if_pos isHighest]
    rfl

variable (compare) in
/-- The front of a list that is sorted downwards. -/
theorem head?_sortBy (elements : List α) :
    (sortBy (fun element element' => compare element' element) elements).head? =
      (highest compare elements).head? := by
  have all := find?_sortBy compare (fun _ => true) elements
  rw [List.filter_eq_self.mpr fun _ _ => rfl] at all
  rw [← all]
  cases sortBy (fun element element' => compare element' element) elements <;> rfl

end Orders

end Inference.Foundation
