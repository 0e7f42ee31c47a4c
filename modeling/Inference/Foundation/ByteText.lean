import Mathlib.Algebra.Ring.Nat
import Mathlib.Data.List.Basic

/-! # Texts addressed by bytes

A text is a list of characters, and a position in it counts the bytes of its UTF-8 form. A position
inside a character or behind the end is none of the text.
-/

namespace Inference.Foundation.ByteText

def size (text : List Char) : Nat :=
  (text.map Char.utf8Size).sum

@[simp] theorem size_nil : size [] = 0 :=
  rfl

@[simp] theorem size_cons (next : Char) (rest : List Char) :
    size (next :: rest) = next.utf8Size + size rest :=
  rfl

@[simp] theorem size_append (front back : List Char) :
    size (front ++ back) = size front + size back := by
  simp [size]

variable {text : List Char}

theorem eq_nil_of_size_eq_zero (empty : size text = 0) : text = [] := by
  cases text with
  | nil => rfl
  | cons next rest =>
      have := next.utf8Size_pos
      rw [size_cons] at empty
      omega

/-- Of two beginnings of a text the shorter one begins the longer one. -/
theorem begins_of_size_le {front back before behind : List Char}
    (same : front ++ back = before ++ behind) (shorter : size front ≤ size before) :
    ∃ between, before = front ++ between ∧ back = between ++ behind := by
  rcases List.append_eq_append_iff.mp same with longer | ⟨extra, rfl, more⟩
  · exact longer
  · have empty : extra = [] := by
      apply eq_nil_of_size_eq_zero
      rw [size_append] at shorter
      omega
    subst empty
    exact ⟨[], by simp, by simpa using more.symm⟩

/-- The text before a position and behind it. -/
def split : List Char → Nat → Option (List Char × List Char)
  | text, 0 => some ([], text)
  | [], _ + 1 => none
  | next :: rest, position + 1 =>
      if next.utf8Size ≤ position + 1 then
        (split rest (position + 1 - next.utf8Size)).map fun (front, back) =>
          (next :: front, back)
      else none

/-- The text from one position to another. -/
def slice (text : List Char) (first last : Nat) : Option (List Char) :=
  if first ≤ last then do
    let (_, behind) ← split text first
    let (inner, _) ← split behind (last - first)
    return inner
  else none

theorem split_eq_some_iff {front back : List Char} {position : Nat} :
    split text position = some (front, back) ↔ text = front ++ back ∧ size front = position := by
  induction text generalizing front position with
  | nil =>
      cases position with
      | zero =>
          simp only [split, Option.some.injEq, Prod.mk.injEq]
          constructor
          · rintro ⟨rfl, rfl⟩
            exact ⟨rfl, rfl⟩
          · rintro ⟨empty, _⟩
            exact ⟨(List.nil_eq_append_iff.mp empty).1.symm, (List.nil_eq_append_iff.mp empty).2.symm⟩
      | succ position =>
          simp only [split, reduceCtorEq, false_iff]
          rintro ⟨empty, long⟩
          rw [(List.nil_eq_append_iff.mp empty).1] at long
          cases long
  | cons next rest induction =>
      have positive := next.utf8Size_pos
      cases position with
      | zero =>
          simp only [split, Option.some.injEq, Prod.mk.injEq]
          constructor
          · rintro ⟨rfl, rfl⟩
            exact ⟨rfl, rfl⟩
          · rintro ⟨parts, empty⟩
            cases front with
            | nil => exact ⟨rfl, parts⟩
            | cons head tail =>
                have := head.utf8Size_pos
                rw [size_cons] at empty
                omega
      | succ position =>
          rw [split]
          constructor
          · intro found
            split at found
            · rename_i fits
              rcases Option.map_eq_some_iff.mp found with ⟨⟨rest, behind⟩, restFound, same⟩
              cases same
              rcases induction.mp restFound with ⟨rfl, long⟩
              refine ⟨rfl, ?_⟩
              rw [size_cons]
              omega
            · cases found
          · rintro ⟨parts, long⟩
            cases front with
            | nil => cases long
            | cons head tail =>
                rcases List.cons.inj parts with ⟨rfl, restParts⟩
                rw [size_cons] at long
                rw [if_pos (by omega), induction.mpr ⟨restParts, by omega⟩]
                rfl

variable {first last : Nat}

theorem slice_eq_some_iff {inner : List Char} :
    slice text first last = some inner ↔
      ∃ front back, text = front ++ inner ++ back ∧ size front = first ∧
        first + size inner = last := by
  rw [slice]
  constructor
  · intro found
    split at found
    · rename_i ordered
      rcases Option.bind_eq_some_iff.mp found with ⟨⟨front, behind⟩, atFirst, rest⟩
      rcases Option.bind_eq_some_iff.mp rest with ⟨⟨text, back⟩, atLast, same⟩
      cases same
      rcases split_eq_some_iff.mp atFirst with ⟨rfl, frontLong⟩
      rcases split_eq_some_iff.mp atLast with ⟨rfl, innerLong⟩
      exact ⟨front, back, (List.append_assoc ..).symm, frontLong, by omega⟩
    · cases found
  · rintro ⟨front, back, rfl, rfl, rfl⟩
    have inside : split (inner ++ back) (size inner) = some (inner, back) :=
      split_eq_some_iff.mpr ⟨rfl, rfl⟩
    rw [if_pos (Nat.le_add_right ..), split_eq_some_iff.mpr ⟨List.append_assoc .., rfl⟩,
      Nat.add_sub_cancel_left]
    simp [inside]

/-- A position at the edge of a character. -/
def Edge (text : List Char) (position : Nat) : Prop :=
  ∃ front back, text = front ++ back ∧ size front = position

theorem edge_iff {position : Nat} :
    Edge text position ↔ (split text position).isSome := by
  constructor
  · rintro ⟨front, back, parts⟩
    rw [split_eq_some_iff.mpr parts]
    rfl
  · intro found
    rcases Option.isSome_iff_exists.mp found with ⟨⟨front, back⟩, found⟩
    exact ⟨front, back, split_eq_some_iff.mp found⟩

theorem exists_slice (firstEdge : Edge text first)
    (lastEdge : Edge text last) (ordered : first ≤ last) :
    ∃ inner, slice text first last = some inner := by
  rcases firstEdge with ⟨front, behind, rfl, rfl⟩
  rcases lastEdge with ⟨before, back, same, rfl⟩
  rcases begins_of_size_le same ordered with ⟨inner, rfl, rfl⟩
  exact ⟨inner, slice_eq_some_iff.mpr
    ⟨front, back, (List.append_assoc ..).symm, rfl, (size_append ..).symm⟩⟩

/-- A slice between the ends of another one is a slice of it. -/
theorem slice_slice {outer inner : List Char} {start stop : Nat}
    (outerFound : slice text first last = some outer)
    (innerFound : slice text start stop = some inner) (starts : first ≤ start)
    (stops : stop ≤ last) : slice outer (start - first) (stop - first) = some inner := by
  rcases slice_eq_some_iff.mp outerFound with ⟨front, back, rfl, rfl, rfl⟩
  rcases slice_eq_some_iff.mp innerFound with ⟨before, behind, same, rfl, rfl⟩
  rw [List.append_assoc, List.append_assoc] at same
  rcases begins_of_size_le same starts with ⟨skipped, rfl, rest⟩
  rw [← List.append_assoc] at rest
  have shorter : size (skipped ++ inner) ≤ size outer := by
    simp only [size_append] at stops ⊢
    omega
  rcases begins_of_size_le rest.symm shorter with ⟨after, rfl, _⟩
  refine slice_eq_some_iff.mpr ⟨skipped, after, rfl, ?_, ?_⟩
  · rw [size_append, Nat.add_sub_cancel_left]
  · simp only [size_append]
    omega

/-- The bytes from one position to another as a text, in which a character that is cut is
replaced: one replacement for the bytes it begins with, one for every other byte. -/
def decodeLossy : List Char → Nat → Nat → List Char
  | [], _, _ => []
  | next :: rest, skipped, taken =>
      if next.utf8Size ≤ skipped then decodeLossy rest (skipped - next.utf8Size) taken
      else
        let shown := min (next.utf8Size - skipped) taken
        let decoded :=
          if shown = next.utf8Size then [next]
          else if skipped = 0 then List.replicate (min shown 1) '\uFFFD'
          else List.replicate shown '\uFFFD'
        decoded ++ decodeLossy rest 0 (taken - shown)

def sliceLossy (text : List Char) (first last : Nat) : Option (List Char) :=
  if first ≤ last ∧ last ≤ size text then some (decodeLossy text first (last - first)) else none

end Inference.Foundation.ByteText
