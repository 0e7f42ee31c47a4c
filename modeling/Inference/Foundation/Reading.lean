import Mathlib.Control.Monad.Basic

/-! # Reading from a buffer

Programs that read from a buffer at a position. What a program reads is stated for every buffer that
has the items at the position of the program, whatever stands before and behind them, so the rules for
single programs compose to rules for sequences of them.
-/

namespace Inference.Reading

/-- `originalOffset` is where the buffer starts in what it was taken from. -/
structure Cursor (α : Type) where
  buffer : List α
  position : Nat
  originalOffset : Nat
  deriving DecidableEq, Repr

namespace Cursor

variable {α : Type}

def originalPosition (cursor : Cursor α) : Nat :=
  cursor.originalOffset + cursor.position

def eof (cursor : Cursor α) : Bool :=
  cursor.buffer.length ≤ cursor.position

end Cursor

abbrev Reader (α ε β : Type) := StateT (Cursor α) (Except ε) β

variable {α ε β γ : Type}

/-! ## Programs -/

/-- `missing` is the failure at the end of the buffer. -/
def next (missing : Nat → ε) : Reader α ε α := fun cursor =>
  match cursor.buffer[cursor.position]? with
  | some item => .ok (item, { cursor with position := cursor.position + 1 })
  | none => .error (missing cursor.originalPosition)

def peek (missing : Nat → ε) : Reader α ε α := fun cursor =>
  match cursor.buffer[cursor.position]? with
  | some item => .ok (item, cursor)
  | none => .error (missing cursor.originalPosition)

def originalPosition : Reader α ε Nat := fun cursor =>
  .ok (cursor.originalPosition, cursor)

/-- `missing` is told the position and how many items are missing. -/
def take (count : Nat) (missing : Nat → Nat → ε) : Reader α ε (List α) := fun cursor =>
  if cursor.position + count ≤ cursor.buffer.length then
    .ok ((cursor.buffer.drop cursor.position).take count,
      { cursor with position := cursor.position + count })
  else
    .error (missing cursor.originalPosition (cursor.position + count - cursor.buffer.length))

/-- Read ahead on a copy, which is where the program ends. -/
def scan (program : Reader α ε β) : Reader α ε (β × Cursor α) := fun cursor =>
  match program cursor with
  | .ok (value, ahead) => .ok ((value, ahead), cursor)
  | .error error => .error error

/-- The cursor over what the program has passed. -/
def skip (program : Reader α ε Unit) : Reader α ε (Cursor α) := fun cursor =>
  match program cursor with
  | .ok (_, behind) =>
      .ok (⟨(behind.buffer.take behind.position).drop cursor.position, 0,
        cursor.originalOffset + cursor.position⟩, behind)
  | .error error => .error error

def mapError (change : ε → ε) (program : Reader α ε β) : Reader α ε β := fun cursor =>
  match program cursor with
  | .ok result => .ok result
  | .error error => .error (change error)

def times : Nat → Reader α ε β → Reader α ε Unit
  | 0, _ => pure ()
  | count + 1, program => do
      let _ ← program
      times count program

/-! ## What a program reads -/

def Reads (program : Reader α ε β) (items : List α) (value : β) : Prop :=
  ∀ before after originalOffset,
    program ⟨before ++ (items ++ after), before.length, originalOffset⟩ =
      .ok (value, ⟨before ++ (items ++ after), before.length + items.length, originalOffset⟩)

/-- The program fails at the items, whatever follows them. -/
def Fails (program : Reader α ε β) (items : List α) : Prop :=
  ∀ before after originalOffset,
    ∃ error, program ⟨before ++ (items ++ after), before.length, originalOffset⟩ = .error error

theorem reads_pure (value : β) : Reads (pure value : Reader α ε β) [] value := by
  intro before after originalOffset
  rfl

theorem Reads.bind {program : Reader α ε β} {continue_ : β → Reader α ε γ} {first second : List α}
    {value : β} {result : γ} (reads : Reads program first value)
    (continues : Reads (continue_ value) second result) :
    Reads (program >>= continue_) (first ++ second) result := by
  intro before after originalOffset
  have one := reads before (second ++ after) originalOffset
  have two := continues (before ++ first) after originalOffset
  simp only [List.append_assoc, List.length_append] at two
  show Except.bind (program _) _ = _
  rw [List.append_assoc, one, List.length_append, ← Nat.add_assoc]
  exact two

theorem Reads.bind_pure {program : Reader α ε β} {items : List α} {value : β}
    (reads : Reads program items value) (change : β → γ) :
    Reads (program >>= fun value => pure (change value)) items (change value) := by
  rw [← List.append_nil items]
  exact reads.bind (reads_pure (change value))

theorem fails_throw (error : ε) : Fails (throw error : Reader α ε β) [] := by
  intro before after originalOffset
  exact ⟨error, rfl⟩

theorem Fails.bind {program : Reader α ε β} {items : List α} (fails : Fails program items)
    (continue_ : β → Reader α ε γ) : Fails (program >>= continue_) items := by
  intro before after originalOffset
  rcases fails before after originalOffset with ⟨error, failed⟩
  refine ⟨error, ?_⟩
  show Except.bind (program _) _ = _
  rw [failed]
  rfl

theorem Reads.bind_fails {program : Reader α ε β} {continue_ : β → Reader α ε γ}
    {first second : List α} {value : β} (reads : Reads program first value)
    (fails : Fails (continue_ value) second) : Fails (program >>= continue_) (first ++ second) := by
  intro before after originalOffset
  have one := reads before (second ++ after) originalOffset
  rcases fails (before ++ first) after originalOffset with ⟨error, two⟩
  simp only [List.append_assoc, List.length_append] at two
  refine ⟨error, ?_⟩
  show Except.bind (program _) _ = _
  rw [List.append_assoc, one]
  exact two

/-- What fails at the first items fails at all of them. -/
theorem Fails.append {program : Reader α ε β} {first : List α} (fails : Fails program first)
    (second : List α) : Fails program (first ++ second) := by
  intro before after originalOffset
  rcases fails before (second ++ after) originalOffset with ⟨error, failed⟩
  rw [List.append_assoc]
  exact ⟨error, failed⟩

/-! ## Rules of the programs -/

theorem getElem?_here (before : List α) (item : α) (after : List α) :
    (before ++ (item :: after))[before.length]? = some item := by
  rw [List.getElem?_append_right (Nat.le_refl _), Nat.sub_self]
  rfl

theorem reads_next (missing : Nat → ε) (item : α) : Reads (next missing) [item] item := by
  intro before after originalOffset
  have here := getElem?_here before item after
  simp only [next, List.singleton_append, here]
  rfl

/-- What is looked at is still to be read. -/
theorem Reads.peek {missing : Nat → ε} {continue_ : α → Reader α ε β} {item : α} {rest : List α}
    {value : β} (continues : Reads (continue_ item) (item :: rest) value) :
    Reads (peek missing >>= continue_) (item :: rest) value := by
  intro before after originalOffset
  have here := getElem?_here before item (rest ++ after)
  show Except.bind (Reading.peek missing _) _ = _
  simp only [Reading.peek, List.cons_append, here]
  exact continues before after originalOffset

theorem Fails.peek {missing : Nat → ε} {continue_ : α → Reader α ε β} {item : α} {rest : List α}
    (continues : Fails (continue_ item) (item :: rest)) :
    Fails (Reading.peek missing >>= continue_) (item :: rest) := by
  intro before after originalOffset
  have here := getElem?_here before item (rest ++ after)
  rcases continues before after originalOffset with ⟨error, failed⟩
  refine ⟨error, ?_⟩
  show Except.bind (Reading.peek missing _) _ = _
  simp only [Reading.peek, List.cons_append, here]
  exact failed

theorem Reads.originalPosition {continue_ : Nat → Reader α ε β} {items : List α} {value : β}
    (continues : ∀ position, Reads (continue_ position) items value) :
    Reads (originalPosition >>= continue_) items value := by
  intro before after originalOffset
  exact continues _ before after originalOffset

theorem Fails.originalPosition {continue_ : Nat → Reader α ε β} {items : List α}
    (continues : ∀ position, Fails (continue_ position) items) :
    Fails (Reading.originalPosition >>= continue_) items := by
  intro before after originalOffset
  exact continues _ before after originalOffset

theorem reads_take (missing : Nat → Nat → ε) (items : List α) :
    Reads (take items.length missing) items items := by
  intro before after originalOffset
  have fits : before.length + items.length ≤ (before ++ (items ++ after)).length := by
    rw [List.length_append, List.length_append]
    omega
  simp only [take, if_pos fits, List.drop_left, List.take_left]

theorem Reads.mapError {program : Reader α ε β} {items : List α} {value : β}
    (reads : Reads program items value) (change : ε → ε) :
    Reads (mapError change program) items value := by
  intro before after originalOffset
  simp only [Reading.mapError, reads before after originalOffset]

theorem Fails.mapError {program : Reader α ε β} {items : List α} (fails : Fails program items)
    (change : ε → ε) : Fails (Reading.mapError change program) items := by
  intro before after originalOffset
  rcases fails before after originalOffset with ⟨error, failed⟩
  exact ⟨change error, by simp only [Reading.mapError, failed]⟩

/-- A program that does not take over the copy reads the same items again. -/
theorem Reads.scan {program : Reader α ε β} {continue_ : β × Cursor α → Reader α ε γ}
    {first rest : List α} {value : β} {result : γ} (reads : Reads program first value)
    (continues : ∀ ahead, Reads (continue_ (value, ahead)) (first ++ rest) result) :
    Reads (scan program >>= continue_) (first ++ rest) result := by
  intro before after originalOffset
  have one := reads before (rest ++ after) originalOffset
  show Except.bind (Reading.scan program _) _ = _
  rw [List.append_assoc]
  simp only [Reading.scan, one]
  rw [← List.append_assoc first]
  exact continues _ before after originalOffset

/-- A program that takes over the copy goes on behind the items. -/
theorem Reads.scan_set {program : Reader α ε β} {continue_ : β × Cursor α → Reader α ε γ}
    {next : Reader α ε γ} {first second : List α} {value : β} {result : γ}
    (reads : Reads program first value)
    (takesOver : ∀ ahead, continue_ (value, ahead) = set ahead >>= fun _ => next)
    (continues : Reads next second result) :
    Reads (Reading.scan program >>= continue_) (first ++ second) result := by
  intro before after originalOffset
  have one := reads before (second ++ after) originalOffset
  have two := continues (before ++ first) after originalOffset
  simp only [List.append_assoc, List.length_append] at two
  show Except.bind (Reading.scan program _) _ = _
  rw [List.append_assoc]
  simp only [Reading.scan, one]
  show continue_ _ _ = _
  rw [takesOver, List.length_append, ← Nat.add_assoc]
  exact two

theorem Fails.scan_set {program : Reader α ε β} {continue_ : β × Cursor α → Reader α ε γ}
    {next : Reader α ε γ} {first second : List α} {value : β} (reads : Reads program first value)
    (takesOver : ∀ ahead, continue_ (value, ahead) = set ahead >>= fun _ => next)
    (continues : Fails next second) :
    Fails (Reading.scan program >>= continue_) (first ++ second) := by
  intro before after originalOffset
  have one := reads before (second ++ after) originalOffset
  rcases continues (before ++ first) after originalOffset with ⟨error, two⟩
  simp only [List.append_assoc, List.length_append] at two
  refine ⟨error, ?_⟩
  show Except.bind (Reading.scan program _) _ = _
  rw [List.append_assoc]
  simp only [Reading.scan, one]
  show continue_ _ _ = _
  rw [takesOver]
  exact two

theorem Reads.skip {program : Reader α ε Unit} {continue_ : Cursor α → Reader α ε γ}
    {first second : List α} {result : γ} (reads : Reads program first ())
    (continues : ∀ originalOffset,
      Reads (continue_ ⟨first, 0, originalOffset⟩) second result) :
    Reads (skip program >>= continue_) (first ++ second) result := by
  intro before after originalOffset
  have one := reads before (second ++ after) originalOffset
  have two := continues (originalOffset + before.length) (before ++ first) after originalOffset
  simp only [List.append_assoc, List.length_append] at two
  have passed : ((before ++ (first ++ (second ++ after))).take
      (before.length + first.length)).drop before.length = first := by
    rw [← List.append_assoc before, ← List.length_append, List.take_left, List.drop_left]
  show Except.bind (Reading.skip program _) _ = _
  rw [List.append_assoc]
  simp only [Reading.skip, one, passed]
  rw [List.length_append, ← Nat.add_assoc]
  exact two

/-- The copies of a program read what its items are in turn. -/
theorem reads_times {program : Reader α ε β} {pieces : List (List α)}
    (reads : ∀ piece ∈ pieces, ∃ value, Reads program piece value) :
    Reads (times pieces.length program) pieces.flatten () := by
  induction pieces with
  | nil => exact reads_pure ()
  | cons piece pieces ih =>
      rcases reads piece (List.mem_cons_self ..) with ⟨value, first⟩
      exact first.bind (ih fun other listed => reads other (List.mem_cons_of_mem _ listed))

end Inference.Reading
