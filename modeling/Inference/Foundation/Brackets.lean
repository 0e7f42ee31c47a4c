import Mathlib.Data.List.Induction
import Mathlib.Data.List.Count

/-! # Open brackets

Some items of a list open a bracket and some close one. Behind a prefix of the list the brackets
that are still open form a stack of positions. A position is on it exactly when nothing behind it
has closed it, and its place on the stack counts the brackets opened and not closed behind it.
-/

namespace Inference.Brackets

inductive Bracket
  | opens
  | closes
  | neither
  deriving DecidableEq, Repr

variable {Item : Type} (bracket : Item → Bracket)

/-- The stack behind an item at the given position. A closing item without a partner does
nothing. -/
def advance (position : Nat) (stack : List Nat) (item : Item) : List Nat :=
  match bracket item with
  | .opens => position :: stack
  | .closes => stack.tail
  | .neither => stack

def openFrom : Nat → List Nat → List Item → List Nat
  | _, stack, [] => stack
  | position, stack, item :: rest =>
      openFrom (position + 1) (advance bracket position stack item) rest

/-- The positions of the brackets open behind the items, innermost first. -/
def enclosing (items : List Item) : List Nat :=
  openFrom bracket 0 [] items

def count (kind : Bracket) (items : List Item) : Nat :=
  items.countP fun item => bracket item = kind

/-- Nothing in the list closes a bracket that was opened in front of it. -/
def NeverBelow (items : List Item) : Prop :=
  ∀ before after, items = before ++ after →
    count bracket .closes before ≤ count bracket .opens before

theorem openFrom_append (position : Nat) (stack : List Nat) (first second : List Item) :
    openFrom bracket position stack (first ++ second) =
      openFrom bracket (position + first.length) (openFrom bracket position stack first)
        second := by
  induction first generalizing position stack with
  | nil => rfl
  | cons item rest induction =>
      have shifted : position + (item :: rest).length = position + 1 + rest.length := by
        rw [List.length_cons]
        omega
      rw [List.cons_append, openFrom, openFrom, induction, shifted]

@[simp] theorem enclosing_nil : enclosing bracket [] = [] := rfl

theorem enclosing_append_singleton (items : List Item) (item : Item) :
    enclosing bracket (items ++ [item]) =
      advance bracket items.length (enclosing bracket items) item := by
  rw [enclosing, openFrom_append, Nat.zero_add]
  rfl

theorem count_append (kind : Bracket) (first second : List Item) :
    count bracket kind (first ++ second) = count bracket kind first + count bracket kind second :=
  List.countP_append

theorem count_singleton (kind : Bracket) (item : Item) :
    count bracket kind [item] = if bracket item = kind then 1 else 0 := by
  rw [count, List.countP_singleton]
  simp

theorem neverBelow_nil : NeverBelow bracket ([] : List Item) := by
  intro before after split
  have empty := (List.append_eq_nil_iff.mp split.symm).1
  rw [empty]
  exact Nat.le_refl _

theorem neverBelow_append_singleton (items : List Item) (item : Item) :
    NeverBelow bracket (items ++ [item]) ↔
      NeverBelow bracket items ∧
        count bracket .closes (items ++ [item]) ≤ count bracket .opens (items ++ [item]) := by
  constructor
  · intro holds
    refine ⟨?_, holds (items ++ [item]) [] (List.append_nil _).symm⟩
    intro before after split
    exact holds before (after ++ [item]) (by rw [split, List.append_assoc])
  · rintro ⟨holds, whole⟩ before after split
    rcases List.eq_nil_or_concat after with rfl | ⟨front, last, rfl⟩
    · rw [List.append_nil] at split
      rw [← split]
      exact whole
    · rw [List.concat_eq_append, ← List.append_assoc] at split
      exact holds before front (List.append_inj_left' split rfl)

/-- What the place of a position on the stack says about the items behind it. -/
theorem enclosing_getElem {items : List Item} {place position : Nat}
    (found : (enclosing bracket items)[place]? = some position) :
    ∃ before item after, items = before ++ item :: after ∧ before.length = position ∧
      bracket item = .opens ∧ NeverBelow bracket after ∧
        count bracket .opens after = count bracket .closes after + place := by
  induction items using List.reverseRecOn generalizing place with
  | nil => cases found
  | append_singleton items last induction =>
      rw [enclosing_append_singleton, advance] at found
      cases kind : bracket last with
      | opens =>
          rw [kind] at found
          cases place with
          | zero =>
              have here := Option.some.inj found
              exact ⟨items, last, [], rfl, here, kind, neverBelow_nil bracket, rfl⟩
          | succ place =>
              rcases induction found with ⟨before, item, after, rfl, atPosition, opens, inside, depth⟩
              have counts : count bracket .opens (after ++ [last]) =
                  count bracket .closes (after ++ [last]) + (place + 1) := by
                rw [count_append, count_append, count_singleton, count_singleton, kind, depth]
                simp
                omega
              refine ⟨before, item, after ++ [last], by simp, atPosition, opens, ?_, counts⟩
              exact (neverBelow_append_singleton bracket after last).mpr ⟨inside, by omega⟩
      | closes =>
          rw [kind] at found
          dsimp only at found
          rw [List.getElem?_tail] at found
          rcases induction found with ⟨before, item, after, rfl, atPosition, opens, inside, depth⟩
          have counts : count bracket .opens (after ++ [last]) =
              count bracket .closes (after ++ [last]) + place := by
            rw [count_append, count_append, count_singleton, count_singleton, kind, depth]
            simp
            omega
          refine ⟨before, item, after ++ [last], by simp, atPosition, opens, ?_, counts⟩
          exact (neverBelow_append_singleton bracket after last).mpr ⟨inside, by omega⟩
      | neither =>
          rw [kind] at found
          rcases induction found with ⟨before, item, after, rfl, atPosition, opens, inside, depth⟩
          have counts : count bracket .opens (after ++ [last]) =
              count bracket .closes (after ++ [last]) + place := by
            rw [count_append, count_append, count_singleton, count_singleton, kind, depth]
            simp
          refine ⟨before, item, after ++ [last], by simp, atPosition, opens, ?_, counts⟩
          exact (neverBelow_append_singleton bracket after last).mpr ⟨inside, by omega⟩

theorem enclosing_length_le (items : List Item) :
    (enclosing bracket items).length ≤ items.length := by
  induction items using List.reverseRecOn with
  | nil => exact Nat.le_refl _
  | append_singleton items item induction =>
      rw [enclosing_append_singleton, advance, List.length_append, List.length_singleton]
      cases bracket item with
      | opens =>
          dsimp only
          rw [List.length_cons]
          omega
      | closes =>
          dsimp only
          rw [List.length_tail]
          omega
      | neither => exact Nat.le_succ_of_le induction

/-! ## Other lists with the same brackets -/

theorem enclosing_congr {Other : Type} {bracket : Item → Bracket} {otherBracket : Other → Bracket}
    {items : List Item} {others : List Other}
    (same : items.map bracket = others.map otherBracket) :
    enclosing bracket items = enclosing otherBracket others := by
  have generalized : ∀ position stack,
      openFrom bracket position stack items = openFrom otherBracket position stack others := by
    induction items generalizing others with
    | nil =>
        intro position stack
        rw [List.map_eq_nil_iff.mp same.symm]
        rfl
    | cons item rest induction =>
        cases others with
        | nil => cases same
        | cons other others =>
            rcases List.cons.inj same with ⟨here, later⟩
            intro position stack
            have step : advance bracket position stack item =
                advance otherBracket position stack other := by
              rw [advance, advance, here]
            rw [openFrom, openFrom, step, induction later]
  exact generalized 0 []

/-! ## Balance -/

theorem enclosing_length {items : List Item} (inside : NeverBelow bracket items) :
    (enclosing bracket items).length + count bracket .closes items =
      count bracket .opens items := by
  induction items using List.reverseRecOn with
  | nil => rfl
  | append_singleton items item induction =>
      rcases (neverBelow_append_singleton bracket items item).mp inside with ⟨earlier, whole⟩
      have before := induction earlier
      rw [count_append, count_append, count_singleton, count_singleton] at whole ⊢
      rw [enclosing_append_singleton, advance]
      cases kind : bracket item with
      | opens =>
          simp only [if_true, reduceCtorEq, if_false, Nat.add_zero, List.length_cons]
          omega
      | closes =>
          rw [kind] at whole
          simp only [reduceCtorEq, if_false, if_true, Nat.add_zero, List.length_tail] at whole ⊢
          omega
      | neither =>
          simp only [reduceCtorEq, if_false, Nat.add_zero]
          exact before

variable {bracket}

theorem NeverBelow.take {items : List Item} (inside : NeverBelow bracket items) (position : Nat) :
    NeverBelow bracket (items.take position) := by
  intro before after split
  apply inside before (after ++ items.drop position)
  rw [← List.append_assoc, ← split, List.take_append_drop]

theorem NeverBelow.append {first second : List Item} (inFirst : NeverBelow bracket first)
    (inSecond : NeverBelow bracket second) : NeverBelow bracket (first ++ second) := by
  induction second using List.reverseRecOn with
  | nil =>
      rw [List.append_nil]
      exact inFirst
  | append_singleton second item induction =>
      rcases (neverBelow_append_singleton bracket second item).mp inSecond with ⟨earlier, whole⟩
      rw [← List.append_assoc, neverBelow_append_singleton]
      refine ⟨induction earlier, ?_⟩
      have front := inFirst first [] (List.append_nil _).symm
      rw [List.append_assoc, count_append bracket .closes first, count_append bracket .opens first]
      omega

theorem neverBelow_singleton {item : Item} (kind : bracket item ≠ .closes) :
    NeverBelow bracket [item] := by
  apply (neverBelow_append_singleton bracket [] item).mpr
  refine ⟨neverBelow_nil bracket, ?_⟩
  rw [List.nil_append, count_singleton, if_neg kind]
  exact Nat.zero_le _

/-- An opening and a closing item may stand around such a list. -/
theorem NeverBelow.enclose {items : List Item} {opening closing : Item}
    (inside : NeverBelow bracket items) (opens : bracket opening = .opens)
    (closes : bracket closing = .closes) :
    NeverBelow bracket (opening :: (items ++ [closing])) := by
  have notClosing : bracket opening ≠ .closes := by
    rw [opens]
    decide
  have front : NeverBelow bracket ([opening] ++ items) :=
    (neverBelow_singleton notClosing).append inside
  have whole := inside items [] (List.append_nil _).symm
  apply (neverBelow_append_singleton bracket (opening :: items) closing).mpr
  refine ⟨front, ?_⟩
  have split : opening :: items = [opening] ++ items := rfl
  rw [split, count_append, count_append, count_append, count_append, count_singleton,
    count_singleton, count_singleton, count_singleton, opens, closes]
  simp only [reduceCtorEq, if_false, if_true]
  omega

end Inference.Brackets
