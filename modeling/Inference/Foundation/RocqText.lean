import Inference.Foundation.Delimiter

/-! # Literals and comments of Rocq

How the lexer reads string literals and leaves out comments. A quote inside a
literal is doubled. Comments nest, and literals inside them hide delimiters.
-/

namespace Inference.Foundation

/-! ## String literals -/

/-- What a literal denotes and what follows it, read from behind its opening
quote. -/
def readLiteral : List Char → Option (List Char × List Char)
  | [] => none
  | '"' :: '"' :: rest => (readLiteral rest).map fun (content, rest) => ('"' :: content, rest)
  | '"' :: rest => some ([], rest)
  | symbol :: rest => (readLiteral rest).map fun (content, rest) => (symbol :: content, rest)

theorem readLiteral_symbol {symbol : Char} (notQuote : symbol ≠ '"') (rest : List Char) :
    readLiteral (symbol :: rest) =
      (readLiteral rest).map fun (content, rest) => (symbol :: content, rest) := by
  rw [readLiteral]
  · intro later same _
    exact notQuote same
  · intro same
    exact notQuote same

variable {rest : List Char}

theorem readLiteral_end (noQuote : rest.head? ≠ some '"') :
    readLiteral ('"' :: rest) = some ([], rest) := by
  rw [readLiteral]
  rintro later rfl
  exact noQuote rfl

variable {content : List Char}

/-- A content without quotes is read back. -/
theorem readLiteral_plain (plain : '"' ∉ content) (noQuote : rest.head? ≠ some '"') :
    readLiteral (content ++ '"' :: rest) = some (content, rest) := by
  induction content with
  | nil => exact readLiteral_end noQuote
  | cons symbol others induction =>
      rw [List.mem_cons, not_or] at plain
      rw [List.cons_append, readLiteral_symbol (Ne.symm plain.1), induction plain.2]
      rfl

/-- A content as it has to be spelled in a literal. -/
def doubleQuotes (content : List Char) : List Char :=
  content.flatMap fun symbol => if symbol = '"' then ['"', '"'] else [symbol]

theorem doubleQuotes_plain (plain : '"' ∉ content) :
    doubleQuotes content = content := by
  induction content with
  | nil => rfl
  | cons symbol rest induction =>
      rw [List.mem_cons, not_or] at plain
      rw [doubleQuotes, List.flatMap_cons, if_neg (Ne.symm plain.1)]
      exact congrArg (symbol :: ·) (induction plain.2)

variable {text : List Char}

/-- A literal that denotes a content spells it with every quote doubled. -/
theorem readLiteral_spelled (reads : readLiteral text = some (content, rest)) :
    text = doubleQuotes content ++ '"' :: rest := by
  induction text using readLiteral.induct generalizing content rest with
  | case1 => cases reads
  | case2 later induction =>
      rw [readLiteral] at reads
      rcases Option.map_eq_some_iff.mp reads with ⟨⟨others, remaining⟩, readsLater, assembled⟩
      cases assembled
      rw [induction readsLater]
      simp [doubleQuotes]
  | case3 later notDoubled =>
      rw [readLiteral] at reads
      · cases reads
        rfl
      · exact notDoubled
  | case4 symbol later notDoubled notEnd induction =>
      rw [readLiteral] at reads
      · rcases Option.map_eq_some_iff.mp reads with ⟨⟨others, remaining⟩, readsLater, assembled⟩
        cases assembled
        have other : symbol ≠ '"' := fun same => notEnd same
        rw [induction readsLater]
        simp [doubleQuotes, other]
      · exact notDoubled
      · exact notEnd

/-- A content cannot be followed by a quote only, behind more quotes than it is
spelled with. -/
private theorem quotes_ahead {later : List Char} (count : Nat) (equal : content ++ '"' :: rest =
      List.replicate (count + 1) '"' ++ (doubleQuotes content ++ '"' :: later)) :
    rest.head? = some '"' := by
  induction content generalizing count with
  | nil =>
      rw [List.replicate_succ, List.cons_append, List.nil_append] at equal
      rw [(List.cons.inj equal).2]
      cases count <;> simp [doubleQuotes, List.replicate_succ]
  | cons symbol others induction =>
      rw [List.replicate_succ, List.cons_append, List.cons_append] at equal
      rcases List.cons.inj equal with ⟨rfl, tails⟩
      apply induction (count + 1)
      rw [tails, doubleQuotes, List.flatMap_cons, if_pos rfl, List.append_assoc,
        ← List.append_assoc, ← List.replicate_append_replicate (n := count) (m := 2)]
      simp [doubleQuotes, List.replicate_succ]

/-- A text that reads as itself holds no quote. -/
theorem readLiteral_exact {later : List Char} (noQuote : rest.head? ≠ some '"')
    (reads : readLiteral (content ++ '"' :: rest) = some (content, later)) :
    '"' ∉ content ∧ later = rest := by
  have plain : '"' ∉ content := by
    intro member
    rcases List.eq_append_cons_of_mem member with ⟨front, back, rfl, frontPlain⟩
    have spelled := readLiteral_spelled reads
    have doubled : doubleQuotes (front ++ '"' :: back) =
        front ++ '"' :: '"' :: doubleQuotes back := by
      rw [doubleQuotes, List.flatMap_append, List.flatMap_cons, if_pos rfl]
      exact congrArg (· ++ _) (doubleQuotes_plain frontPlain)
    rw [doubled, List.append_assoc, List.append_assoc] at spelled
    have ahead := (List.cons.inj (List.append_cancel_left spelled)).2
    exact noQuote (quotes_ahead 0 ahead)
  rw [readLiteral_plain plain noQuote] at reads
  exact ⟨plain, (Prod.mk.inj (Option.some.inj reads)).2.symm⟩

/-! ## Comments -/

/-- What follows a comment, read from inside it: the number of comments around
the one that is read, and whether the reader is in a literal. -/
def afterComment : Bool → Nat → List Char → Option (List Char)
  | _, _, [] => none
  | true, depth, symbol :: rest => afterComment (symbol ≠ '"') depth rest
  | false, depth, '(' :: '*' :: rest => afterComment false (depth + 1) rest
  | false, 0, '*' :: ')' :: rest => some rest
  | false, depth + 1, '*' :: ')' :: rest => afterComment false depth rest
  | false, depth, symbol :: rest => afterComment (symbol = '"') depth rest

/-- The inside of a comment closes the comments and literals that it opens, and
no others. -/
def balanced : Bool → Nat → List Char → Bool
  | quoted, depth, [] => !quoted && depth = 0
  | true, depth, symbol :: rest => balanced (symbol ≠ '"') depth rest
  | false, depth, '(' :: '*' :: rest => balanced false (depth + 1) rest
  | false, 0, '*' :: ')' :: _ => false
  | false, depth + 1, '*' :: ')' :: rest => balanced false depth rest
  | false, _, ['('] => false
  | false, depth, symbol :: rest => balanced (symbol = '"') depth rest

variable {quoted : Bool} {depth : Nat}

theorem afterComment_shorter
    (reads : afterComment quoted depth text = some rest) : rest.length + 2 ≤ text.length := by
  induction quoted, depth, text using afterComment.induct with
  | case1 => simp [afterComment] at reads
  | case2 depth symbol later induction =>
      rw [afterComment] at reads
      have shorter := induction reads
      rw [List.length_cons]
      omega
  | case3 depth later induction =>
      rw [afterComment] at reads
      have shorter := induction reads
      simp only [List.length_cons]
      omega
  | case4 later =>
      rw [afterComment] at reads
      cases reads
      simp
  | case5 depth later induction =>
      rw [afterComment] at reads
      have shorter := induction reads
      simp only [List.length_cons]
      omega
  | case6 depth symbol later notOpening notClosing notInnerClosing induction =>
      rw [afterComment] at reads
      · have shorter := induction reads
        rw [List.length_cons]
        omega
      all_goals assumption

/-- A symbol that starts no delimiter with what follows it. -/
theorem afterComment_symbol {symbol : Char} (depth : Nat)
    (notOpening : symbol = '(' → text.head? ≠ some '*')
    (notClosing : symbol = '*' → text.head? ≠ some ')') :
    afterComment false depth (symbol :: text) = afterComment (symbol = '"') depth text := by
  rw [afterComment]
  · rintro rest rfl rfl
    exact notOpening rfl rfl
  · rintro rest _ rfl rfl
    exact notClosing rfl rfl
  · rintro outer rest _ rfl rfl
    exact notClosing rfl rfl

theorem afterComment_ne {following : List Char} (short : text.length < following.length + 2) :
    afterComment quoted depth text ≠ some following := by
  intro reads
  have shorter := afterComment_shorter reads
  omega

/-- A comment ends at the delimiter behind its inside exactly when the inside is
balanced. -/
theorem afterComment_iff (quoted : Bool) (depth : Nat) (inside following : List Char) :
    afterComment quoted depth (inside ++ '*' :: ')' :: following) = some following ↔
      balanced quoted depth inside = true := by
  induction quoted, depth, inside using balanced.induct with
  | case1 quoted depth =>
      cases quoted with
      | true =>
          rw [List.nil_append, afterComment]
          exact iff_of_false (afterComment_ne (by simp)) (by simp [balanced])
      | false =>
          cases depth with
          | zero => simp [afterComment, balanced]
          | succ depth =>
              rw [List.nil_append, afterComment]
              exact iff_of_false (afterComment_ne (by simp)) (by simp [balanced])
  | case2 depth symbol rest induction =>
      rw [List.cons_append, afterComment, balanced]
      exact induction
  | case3 depth rest induction =>
      rw [List.cons_append, List.cons_append, afterComment, balanced]
      exact induction
  | case4 rest =>
      rw [List.cons_append, List.cons_append, afterComment, balanced]
      refine iff_of_false ?_ (by simp)
      intro same
      have lengths := congrArg List.length (Option.some.inj same)
      simp only [List.length_append, List.length_cons] at lengths
      omega
  | case5 depth rest induction =>
      rw [List.cons_append, List.cons_append, afterComment, balanced]
      exact induction
  | case6 depth =>
      rw [List.cons_append, List.nil_append, afterComment, balanced]
      exact iff_of_false (afterComment_ne (by simp)) (by simp)
  | case7 depth symbol rest notOpening notClosing notInnerClosing notLast induction =>
      have step : afterComment false depth (symbol :: (rest ++ '*' :: ')' :: following)) =
          afterComment (symbol = '"') depth (rest ++ '*' :: ')' :: following) := by
        apply afterComment_symbol
        · rintro rfl head
          cases rest with
          | nil => exact notLast rfl rfl
          | cons next others =>
              cases head
              exact notOpening others rfl rfl
        · rintro rfl head
          cases rest with
          | nil => cases head
          | cons next others =>
              cases head
              cases depth with
              | zero => exact notClosing others rfl rfl rfl
              | succ outer => exact notInnerClosing outer others rfl rfl rfl
      rw [List.cons_append, step, balanced]
      · exact induction
      all_goals assumption

/-! ## Leaving out comments -/

inductive ReaderMode where
  | code
  | literal
  | comment (quoted : Bool) (depth : Nat)
  deriving DecidableEq, Repr

/-- A text without its comments. -/
def stripComments : ReaderMode → List Char → List Char
  | _, [] => []
  | .code, '(' :: '*' :: rest => stripComments (.comment false 0) rest
  | .code, symbol :: rest =>
      symbol :: stripComments (if symbol = '"' then .literal else .code) rest
  | .literal, symbol :: rest =>
      symbol :: stripComments (if symbol = '"' then .code else .literal) rest
  | .comment true depth, symbol :: rest => stripComments (.comment (symbol ≠ '"') depth) rest
  | .comment false depth, '(' :: '*' :: rest => stripComments (.comment false (depth + 1)) rest
  | .comment false 0, '*' :: ')' :: rest => stripComments .code rest
  | .comment false (depth + 1), '*' :: ')' :: rest => stripComments (.comment false depth) rest
  | .comment false depth, symbol :: rest => stripComments (.comment (symbol = '"') depth) rest

theorem stripComments_after (reads : afterComment quoted depth text = some rest) :
    stripComments (.comment quoted depth) text = stripComments .code rest := by
  induction quoted, depth, text using afterComment.induct with
  | case1 => simp [afterComment] at reads
  | case2 depth symbol later induction =>
      rw [afterComment] at reads
      rw [stripComments]
      exact induction reads
  | case3 depth later induction =>
      rw [afterComment] at reads
      rw [stripComments]
      exact induction reads
  | case4 later =>
      rw [afterComment] at reads
      cases reads
      rw [stripComments]
  | case5 depth later induction =>
      rw [afterComment] at reads
      rw [stripComments]
      exact induction reads
  | case6 depth symbol later notOpening notClosing notInnerClosing induction =>
      rw [afterComment] at reads
      · rw [stripComments]
        · exact induction reads
        all_goals assumption
      all_goals assumption

/-- A text that neither opens a comment nor a literal is kept. -/
theorem stripComments_plain {front : List Char} (noStar : '*' ∉ front) (noQuote : '"' ∉ front)
    (apart : front.getLast? = some '(' → rest.head? ≠ some '*') :
    stripComments .code (front ++ rest) = front ++ stripComments .code rest := by
  induction front with
  | nil => rfl
  | cons symbol others induction =>
      rw [List.mem_cons, not_or] at noStar noQuote
      have later : others.getLast? = some '(' → rest.head? ≠ some '*' := by
        intro last
        apply apart
        rw [List.getLast?_cons, last]
        rfl
      rw [List.cons_append, stripComments, if_neg (Ne.symm noQuote.1),
        induction noStar.2 noQuote.2 later]
      · rfl
      · rintro following rfl head
        cases others with
        | nil =>
            rw [List.nil_append] at head
            exact apart rfl (by rw [head]; rfl)
        | cons next more =>
            rw [(List.cons.inj head).1] at noStar
            exact noStar.2 List.mem_cons_self

/-- A comment with a balanced inside is left out. -/
theorem stripComments_comment {inside : List Char} (isBalanced : balanced false 0 inside = true)
    (rest : List Char) :
    stripComments .code ('(' :: '*' :: (inside ++ '*' :: ')' :: rest)) =
      stripComments .code rest := by
  rw [stripComments]
  exact stripComments_after ((afterComment_iff false 0 inside rest).mpr isBalanced)

example : stripComments .code ("a (* b (* \"*)\" *) *) c".toList) = "a  c".toList := by
  decide +kernel

end Inference.Foundation
