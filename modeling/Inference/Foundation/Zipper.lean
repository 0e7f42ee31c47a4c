import Mathlib.Data.List.DropRight

/-! # Texts with a cursor

What stands in front of a cursor and what stands behind it, and how editing changes the two.
-/

namespace Inference.Foundation

structure Zipper (α : Type*) where
  before : List α := []
  after : List α := []
  deriving DecidableEq, Repr

namespace Zipper

variable {α : Type*} (zipper : Zipper α)

def text : List α :=
  zipper.before ++ zipper.after

/-- A text with the cursor behind it. -/
def ending (text : List α) : Zipper α :=
  ⟨text, []⟩

@[simp] theorem text_ending (text : List α) : (ending text).text = text :=
  List.append_nil text

/-! ## Editing -/

def insert (inserted : α) : Zipper α :=
  { zipper with before := zipper.before ++ [inserted] }

def removeBefore : Zipper α :=
  { zipper with before := zipper.before.dropLast }

def removeAfter : Zipper α :=
  { zipper with after := zipper.after.tail }

/-! ## Moving -/

def moveLeft : Zipper α :=
  ⟨zipper.before.dropLast, zipper.before.getLast?.toList ++ zipper.after⟩

def moveRight : Zipper α :=
  ⟨zipper.before ++ zipper.after.head?.toList, zipper.after.tail⟩

def moveToStart : Zipper α :=
  ⟨[], zipper.text⟩

def moveToEnd : Zipper α :=
  ending zipper.text

section Words

variable (isBlank : α → Bool)

/-- What stands in front of the last word, which blanks may follow. -/
def beforeLastWord (text : List α) : List α :=
  (text.rdropWhile isBlank).rdropWhile (!isBlank ·)

/-- What follows the first word and the blanks behind it. -/
def behindFirstWord (text : List α) : List α :=
  (text.dropWhile (!isBlank ·)).dropWhile isBlank

def moveWordLeft : Zipper α :=
  ⟨beforeLastWord isBlank zipper.before,
    zipper.before.drop (beforeLastWord isBlank zipper.before).length ++ zipper.after⟩

def moveWordRight : Zipper α :=
  ⟨zipper.before ++
      zipper.after.take (zipper.after.length - (behindFirstWord isBlank zipper.after).length),
    behindFirstWord isBlank zipper.after⟩

theorem beforeLastWord_starts (text : List α) : beforeLastWord isBlank text <+: text :=
  (List.rdropWhile_prefix ..).trans (List.rdropWhile_prefix ..)

theorem behindFirstWord_suffix (text : List α) : behindFirstWord isBlank text <:+ text :=
  (List.dropWhile_suffix _).trans (List.dropWhile_suffix _)

/-- Some character is passed: a blank at the end, or else a character of the last word. -/
theorem beforeLastWord_ne {text : List α} (nonempty : text ≠ []) :
    beforeLastWord isBlank text ≠ text := by
  intro same
  have short := (List.rdropWhile_prefix (!isBlank ·) (text.rdropWhile isBlank)).length_le
  have long : text.length ≤ (text.rdropWhile isBlank).length := by
    rw [← congrArg List.length same]
    exact short
  have kept : text.rdropWhile isBlank = text :=
    (List.rdropWhile_prefix isBlank text).eq_of_length_le long
  have notBlank := List.rdropWhile_eq_self_iff.mp kept nonempty
  unfold beforeLastWord at same
  rw [kept] at same
  have blank := List.rdropWhile_eq_self_iff.mp same nonempty
  cases found : isBlank (text.getLast nonempty) with
  | true => exact notBlank found
  | false => exact blank (by simp [found])

end Words

/-! ## The text -/

@[simp] theorem text_moveLeft : zipper.moveLeft.text = zipper.text := by
  have whole : zipper.before.dropLast ++ zipper.before.getLast?.toList = zipper.before := by
    cases nonempty : zipper.before with
    | nil => rfl
    | cons first rest =>
        rw [List.getLast?_eq_getLast_of_ne_nil (List.cons_ne_nil first rest)]
        exact List.dropLast_append_getLast (List.cons_ne_nil first rest)
  rw [moveLeft, text, text, ← List.append_assoc, whole]

@[simp] theorem text_moveRight : zipper.moveRight.text = zipper.text := by
  have whole : zipper.after.head?.toList ++ zipper.after.tail = zipper.after := by
    cases zipper.after <;> rfl
  rw [moveRight, text, text, List.append_assoc, whole]

@[simp] theorem text_moveToStart : zipper.moveToStart.text = zipper.text :=
  rfl

@[simp] theorem text_moveToEnd : zipper.moveToEnd.text = zipper.text :=
  text_ending zipper.text

@[simp] theorem text_moveWordLeft (isBlank : α → Bool) :
    (zipper.moveWordLeft isBlank).text = zipper.text := by
  have whole := List.prefix_iff_eq_append.mp (beforeLastWord_starts isBlank zipper.before)
  rw [moveWordLeft, text, text, ← List.append_assoc, whole]

@[simp] theorem text_moveWordRight (isBlank : α → Bool) :
    (zipper.moveWordRight isBlank).text = zipper.text := by
  have whole := List.suffix_iff_eq_append.mp (behindFirstWord_suffix isBlank zipper.after)
  rw [moveWordRight, text, text, List.append_assoc, whole]

end Zipper

end Inference.Foundation
