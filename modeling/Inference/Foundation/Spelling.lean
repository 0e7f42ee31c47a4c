import Mathlib.Data.List.Basic

/-! # Spellings of tokens

A text spells tokens if a reader reads it as these tokens wherever a boundary follows. The
spelling of a text is put together from the spellings of its parts.
-/

namespace Inference.Foundation

/-- A reader that turns a text into tokens, or fails on it. -/
structure Reader (symbol token result : Type) where
  read : List symbol → result
  push : List token → result → result
  /-- Where every token that was begun ends. -/
  boundary : List symbol → Prop
  push_nil : ∀ rest, push [] rest = rest
  push_append : ∀ first second rest, push (first ++ second) rest = push first (push second rest)

namespace Reader

variable {symbol token result : Type}

/-- A reader that reads every text. -/
def total (read : List symbol → List token) (boundary : List symbol → Prop) :
    Reader symbol token (List token) where
  read := read
  push := (· ++ ·)
  boundary := boundary
  push_nil := List.nil_append
  push_append := List.append_assoc

/-- A reader that fails on some texts. -/
def fallible (read : List symbol → Option (List token)) (boundary : List symbol → Prop) :
    Reader symbol token (Option (List token)) where
  read := read
  push := fun tokens => Option.map (tokens ++ ·)
  boundary := boundary
  push_nil rest := by
    cases rest <;> rfl
  push_append first second rest := by
    cases rest with
    | none => rfl
    | some known => exact congrArg some (List.append_assoc first second known)

variable (reader : Reader symbol token result)

/-- The text is read as the tokens in front of every boundary. -/
def Spells (text : List symbol) (tokens : List token) : Prop :=
  ∀ rest, reader.boundary rest → reader.read (text ++ rest) = reader.push tokens (reader.read rest)

/-- The text may follow every token. -/
def Bounds (text : List symbol) : Prop :=
  ∀ rest, reader.boundary rest → reader.boundary (text ++ rest)

variable {reader} {first second text layout : List symbol} {left right tokens : List token}

namespace Spells

theorem nil : reader.Spells [] [] := by
  intro rest _
  rw [reader.push_nil, List.nil_append]

theorem append (front : reader.Spells first left) (back : reader.Spells second right)
    (bounds : reader.Bounds second) : reader.Spells (first ++ second) (left ++ right) := by
  intro rest atBoundary
  rw [List.append_assoc, front _ (bounds rest atBoundary), back rest atBoundary,
    reader.push_append]

/-- Text that is read as nothing. -/
theorem skip (skips : ∀ rest, reader.read (layout ++ rest) = reader.read rest)
    (back : reader.Spells text tokens) : reader.Spells (layout ++ text) tokens := by
  intro rest atBoundary
  rw [List.append_assoc, skips, back rest atBoundary]

/-- The end of the text is a boundary. -/
theorem read_eq (spells : reader.Spells text tokens) (atEnd : reader.boundary []) :
    reader.read text = reader.push tokens (reader.read []) := by
  have read := spells [] atEnd
  rwa [List.append_nil] at read

end Spells

namespace Bounds

theorem nil : reader.Bounds [] :=
  fun _ atBoundary => atBoundary

theorem append (front : reader.Bounds first) (back : reader.Bounds second) :
    reader.Bounds (first ++ second) := by
  intro rest atBoundary
  rw [List.append_assoc]
  exact front _ (back rest atBoundary)

/-- Text that starts with a boundary. -/
theorem start (starts : ∀ rest, reader.boundary (layout ++ rest)) :
    reader.Bounds (layout ++ text) := by
  intro rest _
  rw [List.append_assoc]
  exact starts _

end Bounds

end Reader

end Inference.Foundation
