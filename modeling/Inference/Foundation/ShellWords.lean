import Inference.Foundation.Utf8Text
import Mathlib.Data.List.Induction

/-! # The words of shells

How a shell takes a text apart into commands and words, one character after the other. A reading
stops where the shell would do more than split and unquote: at an expansion, a substitution, a pipe
or a redirection. Of the variables only those in double quotes of the Bourne family are read, as
pieces of their own.
-/

namespace Inference.Foundation.ShellWords

inductive Piece
  | plain (c : Char)
  | quoted (c : Char)
  | variable (name : List Char)
  deriving DecidableEq, Repr

abbrev Word := List Piece

def Piece.letters : Piece → List Char
  | .plain c | .quoted c => [c]
  | .variable _ => []

@[simp] theorem Piece.letters_plain (c : Char) : (Piece.plain c).letters = [c] :=
  rfl

@[simp] theorem Piece.letters_quoted (c : Char) : (Piece.quoted c).letters = [c] :=
  rfl

/-- The characters of a word. -/
def letters (word : Word) : List Char :=
  word.flatMap Piece.letters

@[simp] theorem letters_append (front back : Word) :
    letters (front ++ back) = letters front ++ letters back :=
  List.flatMap_append

@[simp] theorem letters_plain (text : List Char) : letters (text.map .plain) = text := by
  induction text with
  | nil => rfl
  | cons next rest induction => exact congrArg (next :: ·) induction

@[simp] theorem letters_quoted (text : List Char) : letters (text.map .quoted) = text := by
  induction text with
  | nil => rfl
  | cons next rest induction => exact congrArg (next :: ·) induction

inductive Mode
  | plain
  | comment
  | ampersand
  | escaped
  | single
  | singleEscaped
  | double
  | doubleEscaped
  | name (letters : List Char)
  deriving DecidableEq, Repr

/-- What is read so far: a word that has begun, the words of the command, and the commands. -/
structure Reading where
  mode : Mode
  word : Option Word
  words : List Word
  commands : List (List Word)
  deriving DecidableEq, Repr

namespace Reading

def start : Reading := ⟨.plain, none, [], []⟩

def put (reading : Reading) (piece : Piece) (mode : Mode) : Reading :=
  { reading with mode := mode, word := some (reading.word.getD [] ++ [piece]) }

/-- A quote begins a word, even an empty one. -/
def openWord (reading : Reading) (mode : Mode) : Reading :=
  { reading with mode := mode, word := some (reading.word.getD []) }

def endWord (reading : Reading) : Reading :=
  { reading with mode := .plain, word := none, words := reading.words ++ reading.word.toList }

def endCommand (reading : Reading) : Reading :=
  { mode := .plain
    word := none
    words := []
    commands :=
      if reading.endWord.words = [] then reading.commands
      else reading.commands ++ [reading.endWord.words] }

/-- The commands at the end of the text, when no quote is open. -/
def finish (reading : Reading) : Option (List (List Word)) :=
  match reading.mode with
  | .plain | .comment => some reading.endCommand.commands
  | _ => none

/-- All characters of all words read so far. -/
def content (reading : Reading) : List Char :=
  letters (reading.commands.flatten.flatten ++ reading.words.flatten ++ reading.word.getD [])

@[simp] theorem mode_put (reading : Reading) (piece : Piece) (mode : Mode) :
    (reading.put piece mode).mode = mode :=
  rfl

@[simp] theorem mode_openWord (reading : Reading) (mode : Mode) :
    (reading.openWord mode).mode = mode :=
  rfl

@[simp] theorem mode_endWord (reading : Reading) : reading.endWord.mode = .plain :=
  rfl

@[simp] theorem mode_endCommand (reading : Reading) : reading.endCommand.mode = .plain :=
  rfl

@[simp] theorem content_put (reading : Reading) (piece : Piece) (mode : Mode) :
    (reading.put piece mode).content = reading.content ++ piece.letters := by
  simp [put, content, letters]

@[simp] theorem content_openWord (reading : Reading) (mode : Mode) :
    (reading.openWord mode).content = reading.content :=
  rfl

@[simp] theorem content_withMode (reading : Reading) (mode : Mode) :
    ({ reading with mode := mode } : Reading).content = reading.content :=
  rfl

@[simp] theorem content_endWord (reading : Reading) :
    reading.endWord.content = reading.content := by
  cases found : reading.word <;> simp [endWord, content, found]

@[simp] theorem content_endCommand (reading : Reading) :
    reading.endCommand.content = reading.content := by
  cases found : reading.word with
  | none =>
      cases words : reading.words <;> simp [endCommand, endWord, content, found, words]
  | some word => simp [endCommand, endWord, content, found]

theorem letters_finish {reading : Reading} {commands : List (List Word)}
    (finished : reading.finish = some commands) :
    letters commands.flatten.flatten = reading.content := by
  have same : reading.endCommand.commands = commands := by
    rw [finish] at finished
    split at finished
    · exact Option.some.inj finished
    · exact Option.some.inj finished
    · cases finished
  rw [← content_endCommand, ← same]
  simp [content, endCommand]

end Reading

/-! ## One character after the other -/

variable {front text : List Char}

section Folding

variable {step : Reading → Char → Option Reading} {reading reading' : Reading}

theorem foldlM_cons_eq_some {c : Char} {rest : List Char} :
    (c :: rest).foldlM step reading = some reading' ↔
      ∃ between, step reading c = some between ∧ rest.foldlM step between = some reading' := by
  rw [List.foldlM_cons]
  exact Option.bind_eq_some_iff

theorem foldlM_append_of_some {back : List Char}
    (read : front.foldlM step reading = some reading') :
    (front ++ back).foldlM step reading = back.foldlM step reading' := by
  rw [List.foldlM_append, read]
  rfl

theorem foldlM_append_eq_some {back : List Char} :
    (front ++ back).foldlM step reading = some reading' ↔
      ∃ between, front.foldlM step reading = some between ∧
        back.foldlM step between = some reading' := by
  rw [List.foldlM_append]
  exact Option.bind_eq_some_iff

/-- A text with a character that is always refused cannot be read. -/
theorem foldlM_eq_none {c : Char} (refused : ∀ reading, step reading c = none)
    (member : c ∈ text) (reading : Reading) : text.foldlM step reading = none := by
  rcases List.append_of_mem member with ⟨front, back, rfl⟩
  rw [List.foldlM_append]
  cases front.foldlM step reading with
  | none => rfl
  | some between =>
      change (c :: back).foldlM step between = none
      rw [List.foldlM_cons, refused]
      rfl

end Folding

/-! ## The Bourne family -/

/-- What has a meaning of its own outside quotes. -/
def posixSpecial : List Char :=
  "$`;&|<>()*?[]{}~!^".toList

def isNameChar (letters : List Char) (c : Char) : Bool :=
  c.isAlpha || c = '_' || (c.isDigit && letters ≠ [])

def posixDoubleStep (reading : Reading) (c : Char) : Option Reading :=
  if c = '"' then some { reading with mode := .plain }
  else if c = '\\' then some { reading with mode := .doubleEscaped }
  else if c = '$' then some { reading with mode := .name [] }
  else if c = '`' then none
  else some (reading.put (.quoted c) .double)

/-- A character read by bash or zsh. No word of theirs has a NUL. -/
def posixStep (reading : Reading) (c : Char) : Option Reading :=
  if c = '\x00' then none
  else
    match reading.mode with
    | .plain =>
        if c = ' ' ∨ c = '\t' then some reading.endWord
        else if c = '\n' then some reading.endCommand
        else if c = '#' ∧ reading.word = none then some { reading with mode := .comment }
        else if c = '"' then some (reading.openWord .double)
        else if c = '\'' then some (reading.openWord .single)
        else if c = '\\' then some { reading with mode := .escaped }
        else if c ∈ posixSpecial then none
        else some (reading.put (.plain c) .plain)
    | .comment => if c = '\n' then some reading.endCommand else some reading
    | .escaped =>
        if c = '\n' then some { reading with mode := .plain }
        else some (reading.put (.quoted c) .plain)
    | .single =>
        if c = '\'' then some { reading with mode := .plain }
        else some (reading.put (.quoted c) .single)
    | .double => posixDoubleStep reading c
    | .doubleEscaped =>
        if c = '$' ∨ c = '`' ∨ c = '"' ∨ c = '\\' then some (reading.put (.quoted c) .double)
        else if c = '\n' then some { reading with mode := .double }
        else some ((reading.put (.quoted '\\') .double).put (.quoted c) .double)
    | .name letters =>
        if isNameChar letters c then some { reading with mode := .name (letters ++ [c]) }
        else if letters = [] then none
        else posixDoubleStep (reading.put (.variable letters) .double) c
    | .ampersand | .singleEscaped => none

def commandsOf (step : Reading → Char → Option Reading) (text : List Char) :
    Option (List (List Word)) := do
  let reading ← text.foldlM step .start
  reading.finish

/-- The bytes a word stands for. -/
def value (variableValue : List Char → List UInt8) (word : Word) : List UInt8 :=
  word.flatMap fun piece =>
    match piece with
    | .plain c | .quoted c => String.utf8EncodeChar c
    | .variable name => variableValue name

theorem value_append (variableValue : List Char → List UInt8) (front back : Word) :
    value variableValue (front ++ back) = value variableValue front ++ value variableValue back :=
  List.flatMap_append

theorem value_quoted (variableValue : List Char → List UInt8) (text : List Char) :
    value variableValue (text.map .quoted) = Utf8Text.encode text :=
  List.flatMap_map ..

/-- How a character is written in double quotes. -/
def posixEscape (c : Char) : List Char :=
  if c = '\\' ∨ c = '$' ∨ c = '`' ∨ c = '"' then ['\\', c] else [c]

section Posix

variable {words : List Word} {commands : List (List Word)}

/-- An escaped character stands for itself in double quotes. -/
theorem posix_escape {c : Char} (notNul : c ≠ '\x00') (word : Word) :
    (posixEscape c).foldlM posixStep ⟨.double, some word, words, commands⟩ =
      some ⟨.double, some (word ++ [.quoted c]), words, commands⟩ := by
  rw [posixEscape]
  split
  · rename_i special
    have unescaped : c = '$' ∨ c = '`' ∨ c = '"' ∨ c = '\\' := by
      tauto
    simp [posixStep, posixDoubleStep, notNul, unescaped, Reading.put]
  · rename_i ordinary
    simp only [not_or] at ordinary
    simp [posixStep, posixDoubleStep, notNul, ordinary, Reading.put]

theorem posix_escapes (noNul : '\x00' ∉ text) (word : Word) :
    (text.flatMap posixEscape).foldlM posixStep ⟨.double, some word, words, commands⟩ =
      some ⟨.double, some (word ++ text.map .quoted), words, commands⟩ := by
  induction text generalizing word with
  | nil => simp
  | cons next rest induction =>
      rw [List.mem_cons, not_or] at noNul
      rw [List.flatMap_cons, List.foldlM_append, posix_escape (Ne.symm noNul.1)]
      have continued := induction noNul.2 (word ++ [.quoted next])
      rw [List.append_assoc] at continued
      exact continued

end Posix

/-! ## Fish -/

/-- What differs between installations of fish: which characters beyond ASCII its C library counts
as white space, and whether an ampersand inside a word is part of it. -/
structure Fish where
  isSpace : Char → Bool
  ampersandInWord : Bool

/-- What ends a word. -/
def fishSeparators : List Char :=
  [' ', '\t', '\r', '\n', ';', '|', '<', '>']

namespace Fish

variable (fish : Fish)

/-- What is skipped in front of a word. -/
def isBlank (c : Char) : Bool :=
  c = '\x0B' || c = '\x0C' || (128 ≤ c.toNat && fish.isSpace c)

def plainStep (reading : Reading) (c : Char) : Option Reading :=
  if c = ' ' ∨ c = '\t' ∨ c = '\r' then some reading.endWord
  else if c = '\n' ∨ c = ';' then some reading.endCommand
  else if c = '|' ∨ c = '<' ∨ c = '>' then none
  else if c = '&' then
    if reading.word = none ∨ fish.ampersandInWord = false then none
    else some { reading with mode := .ampersand }
  else if reading.word = none ∧ fish.isBlank c = true then some reading
  else if reading.word = none ∧ c = '#' then some { reading with mode := .comment }
  else if reading.word = none ∧ c = '~' then none
  else if c = '"' then some (reading.openWord .double)
  else if c = '\'' then some (reading.openWord .single)
  else if c = '\\' then some { reading with mode := .escaped }
  else if c ∈ ['$', '*', '?', '(', ')', '\x7b', '\x7d'] then none
  else some (reading.put (.plain c) .plain)

/-- A character read by fish. An escape that stands for another character is an expansion. -/
def step (reading : Reading) (c : Char) : Option Reading :=
  if c = '\x00' then none
  else
    match reading.mode with
    | .plain => fish.plainStep reading c
    | .comment => if c = '\n' then some reading.endCommand else some reading
    | .ampersand =>
        if c ∈ fishSeparators ∨ c = '&' then none
        else fish.plainStep (reading.put (.plain '&') .plain) c
    | .escaped =>
        if c = '\n' then some { reading with mode := .plain }
        else if c.isAlphanum then none
        else some (reading.put (.quoted c) .plain)
    | .single =>
        if c = '\'' then some { reading with mode := .plain }
        else if c = '\\' then some { reading with mode := .singleEscaped }
        else some (reading.put (.quoted c) .single)
    | .singleEscaped =>
        if c = '\'' ∨ c = '\\' then some (reading.put (.quoted c) .single)
        else some ((reading.put (.quoted '\\') .single).put (.quoted c) .single)
    | .double =>
        if c = '"' then some { reading with mode := .plain }
        else if c = '\\' then some { reading with mode := .doubleEscaped }
        else if c = '$' then none
        else some (reading.put (.quoted c) .double)
    | .doubleEscaped =>
        if c = '"' ∨ c = '$' ∨ c = '\\' then some (reading.put (.quoted c) .double)
        else if c = '\n' then some { reading with mode := .double }
        else some ((reading.put (.quoted '\\') .double).put (.quoted c) .double)
    | .name _ => none

/-! ### Single quotes -/

/-- How a character is written that may be an apostrophe. -/
def singleEscape (c : Char) : List Char :=
  if c = '\'' then ['\\', '\''] else [c]

theorem count_singleEscape (text : List Char) :
    (text.flatMap singleEscape).count '\'' = text.count '\'' := by
  induction text with
  | nil => rfl
  | cons c rest induction =>
      rw [List.flatMap_cons, List.count_append, induction, singleEscape]
      by_cases apostrophe : c = '\''
      · subst apostrophe
        simp
        omega
      · simp [apostrophe]

/-- No backslash stands in front of a backslash, an apostrophe or the end. -/
def survivesSingle : List Char → Bool
  | [] => true
  | c :: rest =>
      (c ≠ '\\' || rest.head?.any fun next => next ≠ '\\' && next ≠ '\'') && survivesSingle rest

section Single

variable {fish : Fish} {word : Option Word} {words : List Word} {commands : List (List Word)}

theorem step_single {c : Char} (notNul : c ≠ '\x00') (notQuote : c ≠ '\'')
    (notBackslash : c ≠ '\\') :
    fish.step ⟨.single, word, words, commands⟩ c =
      some ⟨.single, some (word.getD [] ++ [.quoted c]), words, commands⟩ := by
  simp [step, notNul, notQuote, notBackslash, Reading.put]

theorem step_singleEscaped {c : Char} (notNul : c ≠ '\x00') (notQuote : c ≠ '\'')
    (notBackslash : c ≠ '\\') :
    fish.step ⟨.singleEscaped, word, words, commands⟩ c =
      some ⟨.single, some (word.getD [] ++ [.quoted '\\', .quoted c]), words, commands⟩ := by
  simp [step, notNul, notQuote, notBackslash, Reading.put]

/-- An escaped apostrophe. -/
theorem steps_apostrophe :
    (singleEscape '\'').foldlM fish.step ⟨.single, word, words, commands⟩ =
      some ⟨.single, some (word.getD [] ++ [.quoted '\'']), words, commands⟩ := by
  simp [step, singleEscape, Reading.put]

/-- A text that survives is read back from single quotes. -/
theorem single_escapes (noNul : '\x00' ∉ text)
    (survives : survivesSingle text = true) (word : Word) :
    (text.flatMap singleEscape).foldlM fish.step ⟨.single, some word, words, commands⟩ =
      some ⟨.single, some (word ++ text.map .quoted), words, commands⟩ := by
  induction long : text.length using Nat.strongRecOn generalizing text word with
  | ind length induction =>
      subst long
      cases text with
      | nil => simp
      | cons c rest =>
          rw [List.mem_cons, not_or] at noNul
          rw [survivesSingle, Bool.and_eq_true] at survives
          by_cases apostrophe : c = '\''
          · subst apostrophe
            rw [List.flatMap_cons, List.foldlM_append, steps_apostrophe]
            have continued := induction rest.length (by simp) noNul.2 survives.2
              (word ++ [.quoted '\'']) rfl
            rw [List.append_assoc] at continued
            exact continued
          · by_cases backslash : c = '\\'
            · subst backslash
              cases rest with
              | nil => simp at survives
              | cons next rest =>
                  rw [List.mem_cons, not_or] at noNul
                  simp only [ne_eq, not_true_eq_false, decide_false, List.head?_cons,
                    Option.any_some, Bool.false_or, Bool.and_eq_true, decide_eq_true_eq,
                    survivesSingle] at survives
                  have continued := induction rest.length
                    (by simp only [List.length_cons]; omega) noNul.2.2 survives.2.2
                    (word ++ [.quoted '\\', .quoted next]) rfl
                  rw [List.append_assoc] at continued
                  rw [List.flatMap_cons, List.flatMap_cons, singleEscape, if_neg (by decide),
                    singleEscape, if_neg survives.1.2, List.singleton_append, List.singleton_append,
                    List.foldlM_cons]
                  change List.foldlM fish.step ⟨.singleEscaped, some word, words, commands⟩ _ = _
                  rw [List.foldlM_cons,
                    step_singleEscaped (Ne.symm noNul.2.1) survives.1.2 survives.1.1]
                  exact continued
            · rw [List.flatMap_cons, singleEscape, if_neg apostrophe, List.singleton_append,
                List.foldlM_cons, step_single (Ne.symm noNul.1) apostrophe backslash]
              have continued := induction rest.length (by simp) noNul.2 survives.2
                (word ++ [.quoted c]) rfl
              rw [List.append_assoc] at continued
              exact continued

end Single

/-! ### What a text adds to the words -/

section Content

variable {fish : Fish} {reading reading' : Reading} {c : Char}

/-- Outside quotes a character is added to a word, or it has a meaning. -/
theorem plainStep_content (stepped : fish.plainStep reading c = some reading') :
    reading'.content = reading.content ∨
      reading'.content = reading.content ++ [c] ∧ c ≠ '\'' := by
  rw [plainStep] at stepped
  repeat' split at stepped
  all_goals
    simp only [Option.some.injEq, reduceCtorEq] at stepped
  all_goals
    subst stepped
  all_goals
    first
    | (refine .inl ?_; simp; done)
    | (refine .inr ⟨?_, by assumption⟩; simp)

/-- An apostrophe is read only where one is written. -/
theorem step_content (stepped : fish.step reading c = some reading') :
    ∃ added, reading'.content = reading.content ++ added ∧
      added.count '\'' ≤ [c].count '\'' := by
  rw [step] at stepped
  split at stepped
  · cases stepped
  · cases found : reading.mode <;> rw [found] at stepped <;> dsimp only at stepped
    case plain =>
      rcases plainStep_content stepped with same | ⟨added, notQuote⟩
      · exact ⟨[], by simpa using same, by simp⟩
      · exact ⟨[c], added, Nat.le_refl _⟩
    case ampersand =>
      split at stepped
      · cases stepped
      · rcases plainStep_content stepped with same | ⟨added, notQuote⟩
        · exact ⟨['&'], by simpa using same, by simp⟩
        · exact ⟨['&', c], by simpa using added, by simp [notQuote]⟩
    case name letters => cases stepped
    all_goals
      repeat' split at stepped
    all_goals
      simp only [Option.some.injEq, reduceCtorEq] at stepped
    all_goals
      subst stepped
    all_goals
      first
      | (refine ⟨[], ?_, by simp⟩; simp; done)
      | (refine ⟨[c], ?_, Nat.le_refl _⟩; simp; done)
      | (refine ⟨['\\', c], ?_, by simp⟩; simp)

theorem steps_content (read : text.foldlM fish.step reading = some reading') :
    ∃ added, reading'.content = reading.content ++ added ∧
      added.count '\'' ≤ text.count '\'' := by
  induction text generalizing reading with
  | nil =>
      cases read
      exact ⟨[], by simp, Nat.le_refl _⟩
  | cons c rest induction =>
      rcases foldlM_cons_eq_some.mp read with ⟨between, stepped, later⟩
      rcases step_content stepped with ⟨first, isFirst, firstCount⟩
      rcases induction later with ⟨second, isSecond, secondCount⟩
      refine ⟨first ++ second, by rw [isSecond, isFirst, List.append_assoc], ?_⟩
      rw [List.count_append, ← List.singleton_append, List.count_append]
      omega

/-- Only a backslash escapes. -/
theorem step_escaped (stepped : fish.step reading c = some reading')
    (escaped : reading'.mode = .escaped) : c = '\\' := by
  by_contra notBackslash
  have plain {reading : Reading} (stepped : fish.plainStep reading c = some reading')
      (inPlain : reading.mode = .plain) : False := by
    rw [plainStep] at stepped
    repeat' split at stepped
    all_goals
      simp only [Option.some.injEq, reduceCtorEq] at stepped
    all_goals
      subst stepped
      simp_all [Reading.put, Reading.endWord, Reading.endCommand, Reading.openWord]
  rw [step] at stepped
  split at stepped
  · cases stepped
  · cases found : reading.mode <;> rw [found] at stepped <;> dsimp only at stepped
    case plain => exact plain stepped found
    case ampersand =>
      split at stepped
      · cases stepped
      · exact plain stepped rfl
    case name letters => cases stepped
    all_goals
      repeat' split at stepped
    all_goals
      simp only [Option.some.injEq, reduceCtorEq] at stepped
    all_goals
      subst stepped
      simp_all [Reading.put, Reading.endCommand]

theorem plainStep_apostrophe : fish.plainStep reading '\'' = some (reading.openWord .single) := by
  simp [plainStep, isBlank]

theorem plainStep_newline : fish.plainStep reading '\n' = some reading.endCommand := by
  simp [plainStep]

/-- What the closing quote and the end of the line may add. -/
theorem closing_content (read : ['\'', '\n'].foldlM fish.step reading = some reading')
    (finished : reading'.finish ≠ none) :
    reading'.content = reading.content ∨
      reading.mode = .escaped ∧ reading'.content = reading.content ++ ['\''] := by
  rcases foldlM_cons_eq_some.mp read with ⟨quoted, quoteStep, later⟩
  rcases foldlM_cons_eq_some.mp later with ⟨ended, endStep, same⟩
  cases same
  rw [step, if_neg (by decide)] at quoteStep endStep
  cases found : reading.mode <;> rw [found] at quoteStep <;> dsimp only at quoteStep
  case plain =>
    rw [plainStep_apostrophe] at quoteStep
    cases quoteStep
    cases endStep
    exact absurd rfl finished
  case comment =>
    cases quoteStep
    rw [found] at endStep
    cases endStep
    exact .inl (by simp)
  case ampersand =>
    rw [if_neg (by decide), plainStep_apostrophe] at quoteStep
    cases quoteStep
    cases endStep
    exact absurd rfl finished
  case escaped =>
    cases quoteStep
    change fish.plainStep (reading.put (.quoted '\'') .plain) '\n' = some reading' at endStep
    rw [plainStep_newline] at endStep
    cases endStep
    exact .inr ⟨rfl, by simp⟩
  case single =>
    cases quoteStep
    dsimp only at endStep
    rw [plainStep_newline] at endStep
    cases endStep
    exact .inl (by simp)
  case name letters => cases quoteStep
  all_goals
    cases quoteStep
    cases endStep
    exact absurd rfl finished

/-- Once the quote is closed too early, the text is not read back with an apostrophe in front. -/
theorem not_read_outside
    (read : (text.flatMap singleEscape ++ ['\'', '\n']).foldlM fish.step reading = some reading')
    (finished : reading'.finish ≠ none) (outside : reading.mode = .plain)
    (apostrophe : '\'' ∈ front) :
    reading'.content ≠ reading.content ++ (front ++ text) := by
  intro copied
  rcases foldlM_append_eq_some.mp read with ⟨between, textRead, closing⟩
  rcases steps_content textRead with ⟨added, isAdded, few⟩
  have present : 0 < front.count '\'' := List.count_pos_iff.mpr apostrophe
  rw [count_singleEscape] at few
  rcases closing_content closing finished with nothing | ⟨escaped, quoteAdded⟩
  · rw [nothing, isAdded, List.append_cancel_left_eq] at copied
    have counted := congrArg (List.count '\'') copied
    rw [List.count_append] at counted
    omega
  · rw [quoteAdded, isAdded, List.append_assoc, List.append_cancel_left_eq] at copied
    rcases List.eq_nil_or_concat text with rfl | ⟨texts, last, rfl⟩
    · cases textRead
      rw [outside] at escaped
      cases escaped
    · -- the last character read is an apostrophe, so nothing is left to be escaped
      rw [List.concat_eq_append, ← List.append_assoc] at copied
      have isLast := List.append_inj_right' copied rfl
      cases isLast
      rw [List.concat_eq_append, List.flatMap_append] at textRead
      rcases foldlM_append_eq_some.mp textRead with ⟨_, _, lastRead⟩
      rcases foldlM_cons_eq_some.mp lastRead with ⟨_, _, quoteRead⟩
      rcases foldlM_cons_eq_some.mp quoteRead with ⟨_, stepped, same⟩
      cases same
      cases step_escaped stepped escaped

theorem replicate_cons {α : Type} (count : Nat) (value : α) (rest : List α) :
    List.replicate count value ++ value :: rest =
      value :: (List.replicate count value ++ rest) := by
  rw [← List.cons_append, ← List.replicate_succ, List.replicate_succ', List.append_assoc]
  rfl

section Quoted

variable {word : Option Word} {words : List Word} {commands : List (List Word)}

theorem content_added (mode : Mode) (more : Word) :
    (Reading.mk mode (some (word.getD [] ++ more)) words commands).content =
      (Reading.mk .single word words commands).content ++ letters more := by
  simp [Reading.content]

/-- The rest of what is read, behind the pieces of its beginning. -/
theorem rest_of_read {expected : List Char} {mode : Mode} {more : Word}
    (read : text.foldlM fish.step ⟨mode, some (word.getD [] ++ more), words, commands⟩ =
      some reading')
    (copied : reading'.content = (Reading.mk .single word words commands).content ++ expected) :
    ∃ added, letters more ++ added = expected ∧
      reading'.content =
        (Reading.mk mode (some (word.getD [] ++ more)) words commands).content ++ added := by
  rcases steps_content read with ⟨added, isAdded, _⟩
  refine ⟨added, ?_, isAdded⟩
  rw [isAdded, content_added, List.append_assoc, List.append_cancel_left_eq] at copied
  exact copied

/-- What single quotes give back survives them. The backslashes in front are those that were lost
so far. -/
theorem survivesSingle_of_read (lost : Nat)
    (read : (text.flatMap singleEscape ++ ['\'', '\n']).foldlM fish.step
      ⟨.single, word, words, commands⟩ = some reading')
    (finished : reading'.finish ≠ none)
    (copied : reading'.content = (Reading.mk .single word words commands).content ++
      (List.replicate lost '\\' ++ text)) :
    lost = 0 ∧ survivesSingle text = true := by
  induction long : text.length using Nat.strongRecOn generalizing text lost word with
  | ind length induction =>
      subst long
      cases text with
      | nil =>
          rcases closing_content read finished with nothing | ⟨escaped, _⟩
          · exact ⟨by simpa [nothing] using copied, rfl⟩
          · cases escaped
      | cons c rest =>
          by_cases apostrophe : c = '\''
          · subst apostrophe
            rw [List.flatMap_cons, List.append_assoc, List.foldlM_append, steps_apostrophe] at read
            rcases rest_of_read read copied with ⟨added, parts, isAdded⟩
            cases lost with
            | zero =>
                have same : added = rest := (List.cons.inj parts).2
                subst same
                have later := induction added.length (by simp) 0 read isAdded rfl
                rw [survivesSingle, later.2]
                exact ⟨rfl, rfl⟩
            | succ lost => cases (List.cons.inj parts).1
          · by_cases backslash : c = '\\'
            · subst backslash
              cases rest with
              | nil =>
                  cases read
                  exact absurd rfl finished
              | cons next rest =>
                  by_cases again : next = '\\'
                  · subst again
                    -- two backslashes are read as one
                    have first : (singleEscape '\\' ++ singleEscape '\\').foldlM fish.step
                        ⟨.single, word, words, commands⟩ =
                          some ⟨.single, some (word.getD [] ++ [.quoted '\\']), words, commands⟩ :=
                      rfl
                    rw [List.flatMap_cons, List.flatMap_cons, ← List.append_assoc,
                      List.append_assoc, List.foldlM_append, first] at read
                    rcases rest_of_read read copied with ⟨added, parts, isAdded⟩
                    have same : added = List.replicate (lost + 1) '\\' ++ rest := by
                      rw [replicate_cons, replicate_cons] at parts
                      exact (List.cons.inj parts).2
                    subst same
                    cases (induction rest.length (by simp only [List.length_cons]; omega)
                      (lost + 1) read isAdded rfl).1
                  · by_cases quote : next = '\''
                    · subst quote
                      -- the apostrophe closes the quote
                      have first : (singleEscape '\\' ++ singleEscape '\'').foldlM fish.step
                          ⟨.single, word, words, commands⟩ =
                            some ⟨.plain, some (word.getD [] ++ [.quoted '\\']), words, commands⟩ :=
                        rfl
                      rw [List.flatMap_cons, List.flatMap_cons, ← List.append_assoc,
                        List.append_assoc, List.foldlM_append, first] at read
                      rcases rest_of_read read copied with ⟨added, parts, isAdded⟩
                      have same : added = (List.replicate lost '\\' ++ ['\'']) ++ rest := by
                        rw [replicate_cons] at parts
                        rw [List.append_assoc]
                        exact (List.cons.inj parts).2
                      subst same
                      exact absurd isAdded (not_read_outside read finished rfl (by simp))
                    · have notNul : next ≠ '\x00' := by
                        rintro rfl
                        cases read
                      have first : (singleEscape '\\' ++ singleEscape next).foldlM fish.step
                          ⟨.single, word, words, commands⟩ =
                            some ⟨.single, some (word.getD [] ++ [.quoted '\\', .quoted next]),
                              words, commands⟩ := by
                        rw [singleEscape, if_neg (by decide), singleEscape, if_neg quote]
                        change [next].foldlM fish.step ⟨.singleEscaped, word, words, commands⟩ = _
                        rw [List.foldlM_cons, step_singleEscaped notNul quote again]
                        rfl
                      rw [List.flatMap_cons, List.flatMap_cons, ← List.append_assoc,
                        List.append_assoc, List.foldlM_append, first] at read
                      rcases rest_of_read read copied with ⟨added, parts, isAdded⟩
                      cases lost with
                      | zero =>
                          have same : added = rest :=
                            (List.cons.inj (List.cons.inj parts).2).2
                          subst same
                          have later := induction added.length
                            (by simp only [List.length_cons]; omega) 0 read
                            isAdded rfl
                          simp [survivesSingle, again, quote, later.2]
                      | succ lost =>
                          rw [replicate_cons] at parts
                          have second := (List.cons.inj parts).2
                          cases lost with
                          | zero => exact absurd (List.cons.inj second).1 again
                          | succ lost => exact absurd (List.cons.inj second).1 again
            · have notNul : c ≠ '\x00' := by
                rintro rfl
                cases read
              rw [List.flatMap_cons, List.append_assoc, singleEscape, if_neg apostrophe,
                List.singleton_append, List.foldlM_cons, step_single notNul apostrophe backslash]
                at read
              rcases rest_of_read read copied with ⟨added, parts, isAdded⟩
              cases lost with
              | zero =>
                  have same : added = rest := (List.cons.inj parts).2
                  subst same
                  have later := induction added.length (by simp) 0 read isAdded rfl
                  simp [survivesSingle, backslash, later.2]
              | succ lost => exact absurd (List.cons.inj parts).1 backslash

end Quoted

end Content

/-! ### Without quotes -/

/-- What has a meaning of its own anywhere in a word of fish. -/
def special : List Char :=
  ['"', '\'', '\\', '$', '*', '?', '(', ')', '\x7b', '\x7d']

/-- Whether the inside of a word is read as it is. An ampersand may stand in front of a character
of the same word. -/
def survivesPlain : List Char → Bool
  | [] => true
  | c :: rest =>
      (if c = '&' then
        fish.ampersandInWord && rest.head?.any fun next => next ∉ fishSeparators && next ≠ '&'
      else c ≠ '\x00' && c ∉ fishSeparators && c ∉ special) && survivesPlain rest

/-- Whether a word can begin with a character. -/
def beginsWord (c : Char) : Bool :=
  c ≠ '&' && !fish.isBlank c && c ≠ '#' && c ≠ '~'

section Plain

variable {fish : Fish} {word : Option Word} {words : List Word} {commands : List (List Word)}
  {reading reading' : Reading} {c : Char}

theorem plainStep_ordinary (notAmpersand : c ≠ '&') (inside : c ∉ fishSeparators)
    (ordinary : c ∉ special) (first : reading.word = none → fish.beginsWord c = true) :
    fish.plainStep reading c = some (reading.put (.plain c) .plain) := by
  simp only [fishSeparators, special, List.mem_cons, List.not_mem_nil, or_false, not_or]
    at inside ordinary
  rcases inside with ⟨notSpace, notTab, notReturn, notNewline, notSemicolon, notPipe, notLess,
    notGreater⟩
  rcases ordinary with ⟨notDouble, notSingle, notBackslash, notExpanded⟩
  simp only [beginsWord, Bool.and_eq_true, decide_eq_true_eq, Bool.not_eq_true'] at first
  rw [plainStep, if_neg (by simp [notSpace, notTab, notReturn]),
    if_neg (by simp [notNewline, notSemicolon]), if_neg (by simp [notPipe, notLess, notGreater]),
    if_neg notAmpersand, if_neg ?blank, if_neg ?comment, if_neg ?home, if_neg notDouble,
    if_neg notSingle, if_neg notBackslash, if_neg (by simpa using notExpanded)]
  case blank =>
    rintro ⟨outside, blank⟩
    rw [(first outside).1.1.2] at blank
    cases blank
  case comment => exact fun opens => (first opens.1).1.2 opens.2
  case home => exact fun opens => (first opens.1).2 opens.2

theorem step_ampersand (inside : c ∉ fishSeparators) (notAmpersand : c ≠ '&') :
    fish.step ⟨.ampersand, word, words, commands⟩ c =
      fish.step ⟨.plain, some (word.getD [] ++ [.plain '&']), words, commands⟩ c := by
  simp [step, inside, notAmpersand, Reading.put]

/-- Behind an ampersand that is part of a word, reading goes on as if it had been added. -/
theorem read_ampersand
    (goesOn : text.head?.any (fun next => next ∉ fishSeparators && next ≠ '&') = true) :
    text.foldlM fish.step ⟨.ampersand, word, words, commands⟩ =
      text.foldlM fish.step ⟨.plain, some (word.getD [] ++ [.plain '&']), words, commands⟩ := by
  cases text with
  | nil => cases goesOn
  | cons next rest =>
      simp only [List.head?_cons, Option.any_some, Bool.and_eq_true, decide_eq_true_eq] at goesOn
      rw [List.foldlM_cons, List.foldlM_cons, step_ampersand goesOn.1 goesOn.2]

theorem plainStep_ampersand (inWord : reading.word ≠ none) (flag : fish.ampersandInWord = true) :
    fish.plainStep reading '&' = some { reading with mode := .ampersand } := by
  simp [plainStep, inWord, flag]

/-- One character of a word. -/
theorem step_ordinary (notAmpersand : c ≠ '&')
    (survives : (c ≠ '\x00' && c ∉ fishSeparators && c ∉ special) = true)
    (first : word = none → fish.beginsWord c = true) :
    fish.step ⟨.plain, word, words, commands⟩ c =
      some ⟨.plain, some (word.getD [] ++ [.plain c]), words, commands⟩ := by
  simp only [Bool.and_eq_true, decide_eq_true_eq] at survives
  rw [step, if_neg survives.1.1]
  exact plainStep_ordinary notAmpersand survives.1.2 survives.2 first

/-- A text that survives is read as it is. -/
theorem plain_survives (survives : fish.survivesPlain text = true) (word : Word) :
    text.foldlM fish.step ⟨.plain, some word, words, commands⟩ =
      some ⟨.plain, some (word ++ text.map .plain), words, commands⟩ := by
  induction text generalizing word with
  | nil => simp
  | cons c rest induction =>
      rw [survivesPlain, Bool.and_eq_true] at survives
      have continued := induction survives.2 (word ++ [.plain c])
      rw [List.append_assoc] at continued
      by_cases ampersand : c = '&'
      · subst ampersand
        rw [if_pos rfl, Bool.and_eq_true] at survives
        rw [List.foldlM_cons, step, if_neg (by decide)]
        change (fish.plainStep _ '&' >>= _) = _
        rw [plainStep_ampersand (by simp) survives.1.1]
        exact (read_ampersand survives.1.2).trans continued
      · rw [if_neg ampersand] at survives
        rw [List.foldlM_cons, step_ordinary ampersand survives.1 (by simp)]
        exact continued

/-- A word that begins with a text. -/
theorem unquoted_survives {rest : List Char} (begins : fish.beginsWord c = true)
    (survives : fish.survivesPlain (c :: rest) = true) :
    (c :: rest).foldlM fish.step ⟨.plain, none, words, commands⟩ =
      some ⟨.plain, some ((c :: rest).map .plain), words, commands⟩ := by
  have notAmpersand : c ≠ '&' := by
    rintro rfl
    simp [beginsWord] at begins
  rw [survivesPlain, Bool.and_eq_true, if_neg notAmpersand] at survives
  rw [List.foldlM_cons, step_ordinary notAmpersand survives.1 fun _ => begins]
  exact plain_survives survives.2 [.plain c]

/-- The modes that are reached without apostrophes and backslashes. -/
def unescapedModes : List Mode :=
  [.plain, .comment, .ampersand, .double]

/-- What is still to be added. -/
def pending (mode : Mode) : Nat :=
  if mode = .ampersand then 1 else 0

theorem plainStep_length (stepped : fish.plainStep reading c = some reading')
    (inPlain : reading.mode = .plain) (notQuote : c ≠ '\'') (notBackslash : c ≠ '\\') :
    reading'.mode ∈ unescapedModes ∧
      reading'.content.length + pending reading'.mode ≤ reading.content.length + 1 := by
  rw [plainStep, if_neg notQuote, if_neg notBackslash] at stepped
  repeat' split at stepped
  all_goals
    simp only [Option.some.injEq, reduceCtorEq] at stepped
  all_goals
    subst stepped
    simp [unescapedModes, pending, inPlain]

/-- A character adds itself at most, now or with the next one. -/
theorem step_length (stepped : fish.step reading c = some reading')
    (unescaped : reading.mode ∈ unescapedModes) (notQuote : c ≠ '\'') (notBackslash : c ≠ '\\') :
    reading'.mode ∈ unescapedModes ∧
      reading'.content.length + pending reading'.mode ≤
        reading.content.length + pending reading.mode + 1 := by
  simp only [unescapedModes, List.mem_cons, List.not_mem_nil, or_false] at unescaped
  rw [step] at stepped
  split at stepped
  · cases stepped
  · rcases unescaped with plain | comment | ampersand | double
    · rw [plain] at stepped ⊢
      exact plainStep_length stepped plain notQuote notBackslash
    · rw [comment] at stepped ⊢
      dsimp only at stepped
      split at stepped
      all_goals
        cases stepped
        simp [unescapedModes, pending, comment]
    · rw [ampersand] at stepped ⊢
      dsimp only at stepped
      split at stepped
      · cases stepped
      · have behind := plainStep_length stepped rfl notQuote notBackslash
        simpa [pending] using behind
    · rw [double] at stepped ⊢
      dsimp only at stepped
      repeat' split at stepped
      all_goals
        simp only [Option.some.injEq, reduceCtorEq] at stepped
      all_goals
        subst stepped
        simp [unescapedModes, pending]

theorem steps_length (read : text.foldlM fish.step reading = some reading')
    (unescaped : reading.mode ∈ unescapedModes) (noQuote : '\'' ∉ text)
    (noBackslash : '\\' ∉ text) :
    reading'.mode ∈ unescapedModes ∧
      reading'.content.length + pending reading'.mode ≤
        reading.content.length + pending reading.mode + text.length := by
  induction text generalizing reading with
  | nil =>
      cases read
      exact ⟨unescaped, Nat.le_refl _⟩
  | cons c rest induction =>
      rw [List.mem_cons, not_or] at noQuote noBackslash
      rcases foldlM_cons_eq_some.mp read with ⟨between, stepped, later⟩
      rcases step_length stepped unescaped (Ne.symm noQuote.1) (Ne.symm noBackslash.1) with
        ⟨betweenUnescaped, first⟩
      rcases induction later betweenUnescaped noQuote.2 noBackslash.2 with ⟨inModes, second⟩
      exact ⟨inModes, by rw [List.length_cons]; omega⟩

theorem line_length (read : (text ++ ['\n']).foldlM fish.step reading = some reading')
    (finished : reading'.finish ≠ none) (unescaped : reading.mode ∈ unescapedModes)
    (noQuote : '\'' ∉ text) (noBackslash : '\\' ∉ text) :
    reading'.content.length ≤
      reading.content.length + pending reading.mode + text.length := by
  rcases foldlM_append_eq_some.mp read with ⟨between, textRead, closing⟩
  rcases steps_length textRead unescaped noQuote noBackslash with ⟨inModes, short⟩
  rcases foldlM_cons_eq_some.mp closing with ⟨_, stepped, same⟩
  cases same
  have nothing : reading'.content = between.content := by
    simp only [unescapedModes, List.mem_cons, List.not_mem_nil, or_false] at inModes
    rw [step, if_neg (by decide)] at stepped
    rcases inModes with plain | comment | ampersand | double
    · rw [plain] at stepped
      dsimp only at stepped
      rw [plainStep_newline] at stepped
      cases stepped
      simp
    · rw [comment] at stepped
      cases stepped
      simp
    · rw [ampersand] at stepped
      cases stepped
    · rw [double] at stepped
      cases stepped
      exact absurd rfl finished
  rw [nothing]
  omega

/-- What is not a character of a word adds nothing. -/
theorem plainStep_lost (stepped : fish.plainStep reading c = some reading')
    (inPlain : reading.mode = .plain) (notAmpersand : c ≠ '&') (notQuote : c ≠ '\'')
    (notBackslash : c ≠ '\\')
    (lost : c ∈ fishSeparators ∨ c ∈ special ∨ reading.word = none ∧ fish.beginsWord c = false) :
    reading'.content = reading.content ∧ pending reading'.mode = 0 := by
  rw [plainStep, if_neg notQuote, if_neg notBackslash, if_neg notAmpersand] at stepped
  repeat' split at stepped
  all_goals
    simp only [Option.some.injEq, reduceCtorEq] at stepped
  all_goals
    subst stepped
  all_goals
    first
    | (simp [pending, inPlain]; done)
    | simp_all [fishSeparators, special, beginsWord]

/-- What is read back without quotes survives. -/
theorem survivesPlain_of_read
    (read : (text ++ ['\n']).foldlM fish.step ⟨.plain, word, words, commands⟩ = some reading')
    (finished : reading'.finish ≠ none) (noQuote : '\'' ∉ text) (noBackslash : '\\' ∉ text)
    (copied : reading'.content = (Reading.mk .plain word words commands).content ++ text) :
    fish.survivesPlain text = true ∧
      (word = none → ∀ c, text.head? = some c → fish.beginsWord c = true) := by
  induction text generalizing word with
  | nil => exact ⟨rfl, fun _ c first => by cases first⟩
  | cons c rest induction =>
      rw [List.mem_cons, not_or] at noQuote noBackslash
      rcases foldlM_cons_eq_some.mp read with ⟨between, stepped, later⟩
      have notNul : c ≠ '\x00' := by
        rintro rfl
        cases stepped
      rw [step, if_neg notNul] at stepped
      have further (piece : Piece) (isLetter : piece.letters = [c])
          (goesOn : (rest ++ ['\n']).foldlM fish.step
            ⟨.plain, some (word.getD [] ++ [piece]), words, commands⟩ = some reading') :
          fish.survivesPlain rest = true := by
        refine (induction goesOn noQuote.2 noBackslash.2 ?_).1
        rw [copied]
        simp [Reading.content, letters, isLetter]
      by_cases ampersand : c = '&'
      · subst ampersand
        have begun : word ≠ none ∧ fish.ampersandInWord = true := by
          by_contra outside
          rw [not_and_or, not_not, Bool.not_eq_true] at outside
          simp [plainStep, outside] at stepped
        rw [plainStep_ampersand begun.1 begun.2] at stepped
        cases stepped
        have goesOn :
            rest.head?.any (fun next => next ∉ fishSeparators && next ≠ '&') = true := by
          by_contra ends
          cases rest with
          | nil => cases later
          | cons next rest =>
              rcases foldlM_cons_eq_some.mp later with ⟨_, nextStep, _⟩
              simp only [List.head?_cons, Option.any_some, Bool.and_eq_true, decide_eq_true_eq,
                not_and_or, not_not] at ends
              rw [step] at nextStep
              simp [ends] at nextStep
        refine ⟨?_, fun outside => absurd outside begun.1⟩
        rw [survivesPlain, if_pos rfl, begun.2, goesOn, further (.plain '&') rfl ?_]
        · rfl
        · rw [← read_ampersand (by cases rest <;> simp_all)]
          exact later
      · by_cases lost : c ∈ fishSeparators ∨ c ∈ special ∨ word = none ∧ fish.beginsWord c = false
        · have notQuote := Ne.symm noQuote.1
          have notBackslash := Ne.symm noBackslash.1
          rcases plainStep_lost stepped rfl ampersand notQuote notBackslash lost with
            ⟨same, nothing⟩
          have inModes := (plainStep_length stepped rfl notQuote notBackslash).1
          have short := line_length later finished inModes noQuote.2 noBackslash.2
          have long := congrArg List.length copied
          rw [List.length_append, List.length_cons] at long
          rw [same, nothing] at short
          omega
        · rw [not_or, not_or] at lost
          have first : word = none → fish.beginsWord c = true := by
            intro outside
            by_contra starts
            exact lost.2.2 ⟨outside, Bool.eq_false_iff.mpr starts⟩
          rw [plainStep_ordinary ampersand lost.1 lost.2.1 first] at stepped
          cases stepped
          refine ⟨?_, ?_⟩
          · rw [survivesPlain, if_neg ampersand, further (.plain c) rfl later]
            simp [notNul, lost.1, lost.2.1]
          · intro outside _ isFirst
            cases isFirst
            exact first outside

end Plain

end Fish

/-- The argument a word of fish is, unless it is expanded. -/
def fishArgument (word : Word) : Option (List Char) :=
  if word = "%self".toList.map .plain then none else some (letters word)

end Inference.Foundation.ShellWords
