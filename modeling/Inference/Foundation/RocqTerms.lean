import Mathlib.Data.Char
import Inference.Foundation.Decimal
import Inference.Foundation.RocqText

/-! # Terms of Rocq

How a term is read: symbols first, and then a stack of open parentheses. A minus
behind an operand is a subtraction, and the sign of a number only where an
operand starts. Application binds closest, then subtraction, then the cons of
lists. Other notations and keywords are not read.
-/

namespace Inference.Foundation.Rocq

/-! ## Symbols -/

inductive Symbol where
  | name (text : List Char)
  | numeral (value : Nat)
  | scope (key : List Char)
  | opening
  | closing
  | cons
  | comma
  | minus
  deriving DecidableEq, Repr

def startsName (letter : Char) : Bool :=
  letter.isAlpha || letter = '_'

def continuesName (letter : Char) : Bool :=
  letter.isAlphanum || letter = '_' || letter = '\''

/-- The symbol that is being read. -/
inductive Pending where
  | nothing
  | name (text : List Char)
  | numeral (digits : List Char)
  | scope (key : List Char)
  | percent
  | colon
  deriving DecidableEq, Repr

namespace Pending

/-- A letter that belongs to the symbol. -/
def extend : Pending → Char → Option Pending
  | .name text, letter => if continuesName letter then some (.name (text ++ [letter])) else none
  | .numeral digits, letter =>
      if letter.isDigit then some (.numeral (digits ++ [letter])) else none
  | .scope key, letter => if continuesName letter then some (.scope (key ++ [letter])) else none
  | .percent, letter => if startsName letter then some (.scope [letter]) else none
  | .nothing, _ | .colon, _ => none

/-- The symbol in front of a letter that does not belong to it. A name cannot
start right behind a numeral. -/
def ends : Pending → Char → Option (List Symbol)
  | .nothing, _ => some []
  | .name text, _ => some [.name text]
  | .numeral digits, letter =>
      if startsName letter then none else some [.numeral (Nat.ofDigitChars 10 digits 0)]
  | .scope key, _ => some [.scope key]
  | .percent, _ | .colon, _ => none

/-- What a letter starts. -/
def begins (letter : Char) : Option (Pending × List Symbol) :=
  if letter.isDigit then some (.numeral [letter], [])
  else if startsName letter then some (.name [letter], [])
  else if letter.isWhitespace then some (.nothing, [])
  else
    match letter with
    | '(' => some (.nothing, [.opening])
    | ')' => some (.nothing, [.closing])
    | ',' => some (.nothing, [.comma])
    | '-' => some (.nothing, [.minus])
    | '%' => some (.percent, [])
    | ':' => some (.colon, [])
    | _ => none

/-- What is pending behind a letter, and the symbols that it completes. -/
def read (pending : Pending) (letter : Char) : Option (Pending × List Symbol) :=
  match pending.extend letter with
  | some longer => some (longer, [])
  | none =>
      if pending = .colon ∧ letter = ':' then some (.nothing, [.cons])
      else
        (pending.ends letter).bind fun completed =>
          (begins letter).map fun begun => (begun.1, completed ++ begun.2)

end Pending

/-- The symbols of a text behind a pending one, and what is pending at its end. -/
def scan : Pending → List Char → Option (Pending × List Symbol)
  | pending, [] => some (pending, [])
  | pending, letter :: rest =>
      (pending.read letter).bind fun first =>
        (scan first.1 rest).map fun later => (later.1, first.2 ++ later.2)

/-! ## Terms -/

inductive Term where
  | name (text : List Char)
  | numeral (value : Nat)
  | delimited (term : Term) (key : List Char)
  | apply (function argument : Term)
  | negative (term : Term)
  | minus (left right : Term)
  | cons (head tail : Term)
  | pair (first second : Term)
  deriving DecidableEq, Repr

/-- The number that a numeral with its sign and scope denotes. -/
def Term.value : Term → Option Int
  | .numeral value => some value
  | .negative (.numeral value) => some (-value)
  | .delimited term _ => term.value
  | _ => none

/-- What has been read since a parenthesis, every list latest first: components
of a pair, elements of a list, the left operand of a subtraction, the sign, and
a function with its arguments. -/
structure Level where
  pairs : List Term
  heads : List Term
  minuend : Option Term
  negated : Bool
  spine : List Term
  deriving DecidableEq, Repr

namespace Level

/-- Behind elements of a list. -/
def opened (heads : List Term) : Level where
  pairs := []
  heads := heads
  minuend := none
  negated := false
  spine := []

/-- Behind elements of a list, a function and arguments. -/
def applying (heads spine : List Term) : Level where
  pairs := []
  heads := heads
  minuend := none
  negated := false
  spine := spine

def push (level : Level) (term : Term) : Level :=
  { level with spine := term :: level.spine }

def applied : List Term → Option Term
  | [] => none
  | [function] => some function
  | argument :: spine => (applied spine).map (.apply · argument)

/-- The operand of a cons. -/
def operand (level : Level) : Option Term :=
  (applied level.spine).map fun term =>
    let signed := if level.negated then .negative term else term
    level.minuend.elim signed (.minus · signed)

/-- The component of a pair. -/
def component (level : Level) : Option Term :=
  level.operand.map fun last => level.heads.foldl (fun tail head => .cons head tail) last

def whole (level : Level) : Option Term :=
  level.component.map fun last =>
    match level.pairs.reverse with
    | [] => last
    | first :: others => (others ++ [last]).foldl .pair first

end Level

/-- What a symbol does to the open levels, innermost first. A pair stands in
parentheses. -/
def step : List Level → Symbol → Option (List Level)
  | [], _ => none
  | level :: outer, symbol =>
      match symbol with
      | .name text => some (level.push (.name text) :: outer)
      | .numeral value => some (level.push (.numeral value) :: outer)
      | .scope key =>
          match level.spine with
          | [] => none
          | last :: spine => some ({ level with spine := .delimited last key :: spine } :: outer)
      | .opening => some (.opened [] :: level :: outer)
      | .closing =>
          match outer with
          | [] => none
          | enclosing :: others => level.whole.map fun term => enclosing.push term :: others
      | .cons =>
          level.operand.map fun head =>
            { level with heads := head :: level.heads, minuend := none, negated := false,
                         spine := [] } :: outer
      | .comma =>
          if outer.isEmpty then none
          else level.component.map fun component =>
            { Level.opened [] with pairs := component :: level.pairs } :: outer
      | .minus =>
          if level.spine.isEmpty then
            if level.negated then none else some ({ level with negated := true } :: outer)
          else
            level.operand.map fun left =>
              { level with minuend := some left, negated := false, spine := [] } :: outer

def run (levels : List Level) (symbols : List Symbol) : Option (List Level) :=
  symbols.foldlM step levels

/-- The levels behind a text that does not end inside a symbol. -/
def runText (levels : List Level) (text : List Char) : Option (List Level) :=
  match scan .nothing text with
  | some (.nothing, symbols) => run levels symbols
  | _ => none

/-- The term of the only level. -/
def finished : List Level → Option Term
  | [level] => level.whole
  | _ => none

/-- The term that a text without comments denotes. The end of the text ends the
last symbol. -/
def readCode (text : List Char) : Option Term :=
  (runText [.opened []] (text ++ ['\n'])).bind finished

def readTerm (text : List Char) : Option Term :=
  readCode (stripComments .code text)

example : readTerm "f (* g *) (a, 2%N) - 1 :: nil".toList =
    some (.cons (.minus (.apply (.name ['f'])
      (.pair (.name ['a']) (.delimited (.numeral 2) ['N']))) (.numeral 1)) (.name ['n', 'i', 'l'])) := by
  decide +kernel

example : readTerm "f (-1)".toList =
    some (.apply (.name ['f']) (.negative (.numeral 1))) := by
  decide +kernel

/-! ## Texts in sequence -/

theorem scan_append (pending : Pending) (front back : List Char) :
    scan pending (front ++ back) =
      (scan pending front).bind fun first =>
        (scan first.1 back).map fun later => (later.1, first.2 ++ later.2) := by
  induction front generalizing pending with
  | nil =>
      rw [List.nil_append, scan, Option.bind_some]
      cases scan pending back <;> rfl
  | cons letter rest induction =>
      rw [List.cons_append, scan, scan]
      cases pending.read letter with
      | none => rfl
      | some first =>
          rw [Option.bind_some, Option.bind_some, induction first.1]
          cases scan first.1 rest with
          | none => rfl
          | some middle =>
              rw [Option.bind_some, Option.map_some, Option.bind_some]
              cases scan middle.1 back with
              | none => rfl
              | some later => simp [List.append_assoc]

theorem run_append (levels : List Level) (front back : List Symbol) :
    run levels (front ++ back) = (run levels front).bind fun middle => run middle back :=
  List.foldlM_append

variable {levels result : List Level} {text : List Char}

theorem runText_eq_some :
    runText levels text = some result ↔
      ∃ symbols, scan .nothing text = some (.nothing, symbols) ∧
        run levels symbols = some result := by
  constructor
  · intro ran
    unfold runText at ran
    split at ran
    case h_1 symbols scanned => exact ⟨symbols, scanned, ran⟩
    case h_2 => cases ran
  · rintro ⟨symbols, scanned, ran⟩
    rw [runText, scanned]
    exact ran

theorem runText_append {middle : List Level} {front : List Char}
    (ran : runText levels front = some middle) (back : List Char) :
    runText levels (front ++ back) = runText middle back := by
  rcases runText_eq_some.mp ran with ⟨symbols, scanned, here⟩
  rw [runText, scan_append, scanned, Option.bind_some, runText]
  cases scan .nothing back with
  | none => rfl
  | some ending =>
      rcases ending with ⟨pending, later⟩
      cases pending with
      | nothing => exact (run_append levels symbols later).trans (by rw [here]; rfl)
      | _ => rfl

/-! ## Numerals -/

variable {letter : Char}

/-- A letter that does not belong to the pending symbol completes it. -/
theorem read_ended {pending : Pending} (ended : pending.extend letter = none)
    (notColon : pending ≠ .colon) :
    pending.read letter =
      (pending.ends letter).bind fun completed =>
        (Pending.begins letter).map fun begun => (begun.1, completed ++ begun.2) := by
  rw [Pending.read, ended]
  exact if_neg fun both => notColon both.1

theorem read_nothing (letter : Char) : Pending.nothing.read letter = Pending.begins letter := by
  rw [read_ended rfl (by simp)]
  cases Pending.begins letter <;> rfl

theorem scan_digits {digits : List Char} (allDigits : ∀ letter ∈ digits, letter.isDigit = true)
    (front : List Char) : scan (.numeral front) digits = some (.numeral (front ++ digits), []) := by
  induction digits generalizing front with
  | nil =>
      rw [List.append_nil]
      rfl
  | cons letter rest induction =>
      have readLetter : (Pending.numeral front).read letter =
          some (.numeral (front ++ [letter]), []) := by
        rw [Pending.read, Pending.extend, if_pos (allDigits letter List.mem_cons_self)]
      rw [scan, readLetter, Option.bind_some,
        induction fun other member => allDigits other (List.mem_cons_of_mem _ member)]
      simp

theorem scan_number (number : Nat) :
    scan .nothing (toString number).toList = some (.numeral (toString number).toList, []) := by
  have allDigits := toList_toString_nat_isDigit number
  have nonempty : (toString number).toList ≠ [] := by
    rw [Nat.toString_eq_repr, Nat.toList_repr]
    exact Nat.toDigits_ne_nil
  cases spelled : (toString number).toList with
  | nil => exact absurd spelled nonempty
  | cons digit rest =>
      rw [spelled] at allDigits
      have begun : Pending.nothing.read digit = some (.numeral [digit], []) :=
        (read_nothing digit).trans (if_pos (allDigits digit List.mem_cons_self))
      rw [scan, begun, Option.bind_some,
        scan_digits fun other member => allDigits other (List.mem_cons_of_mem _ member)]
      rfl

/-- A letter that ends a numeral. -/
def EndsNumber (letter : Char) : Prop :=
  letter.isDigit = false ∧ startsName letter = false

instance (letter : Char) : Decidable (EndsNumber letter) :=
  inferInstanceAs (Decidable (_ ∧ _))

theorem scan_afterDigits (ends : EndsNumber letter) (digits rest : List Char) :
    scan (.numeral digits) (letter :: rest) =
      (scan .nothing (letter :: rest)).map fun later =>
        (later.1, .numeral (Nat.ofDigitChars 10 digits 0) :: later.2) := by
  have readLetter : (Pending.numeral digits).read letter =
      (Pending.begins letter).map fun later =>
        (later.1, .numeral (Nat.ofDigitChars 10 digits 0) :: later.2) := by
    have ended : (Pending.numeral digits).extend letter = none := if_neg (by simp [ends.1])
    rw [read_ended ended (by simp), Pending.ends, if_neg (by simp [ends.2])]
    rfl
  rw [scan, scan, readLetter, read_nothing]
  cases Pending.begins letter with
  | none => rfl
  | some later =>
      simp only [Option.map_some, Option.bind_some]
      cases scan later.1 rest <;> rfl

/-- A number is read as one numeral. -/
theorem runText_number (level : Level) (outer : List Level) (number : Nat)
    (ends : EndsNumber letter) (rest : List Char) :
    runText (level :: outer) ((toString number).toList ++ letter :: rest) =
      runText (level.push (.numeral number) :: outer) (letter :: rest) := by
  have denoted : Nat.ofDigitChars 10 (toString number).toList 0 = number := by
    rw [Nat.toString_eq_repr, Nat.toList_repr, Nat.ofDigitChars_ten_toDigits]
  rw [runText, scan_append, scan_number, Option.bind_some, scan_afterDigits ends, denoted,
    runText]
  cases scan .nothing (letter :: rest) with
  | none => rfl
  | some later =>
      rcases later with ⟨pending, symbols⟩
      cases pending <;> rfl

/-! ## Texts in context -/

/-- The levels of a text that stands behind elements of a list, with more levels
around it. -/
def under (heads : List Term) (outer : List Level) : List Level → List Level
  | [] => outer
  | [level] => { level with heads := level.heads ++ heads } :: outer
  | level :: next :: others => level :: under heads outer (next :: others)

section Context

variable (heads : List Term) (outer : List Level)

theorem under_cons (level next : Level) (others : List Level) :
    under heads outer (level :: next :: others) =
      level :: under heads outer (next :: others) :=
  rfl

theorem under_push (level : Level) (others : List Level) (term : Term) :
    ∃ base enclosing, under heads outer (level :: others) = base :: enclosing ∧
      under heads outer (level.push term :: others) = base.push term :: enclosing := by
  cases others with
  | nil => exact ⟨_, _, rfl, rfl⟩
  | cons next others => exact ⟨_, _, rfl, rfl⟩

/-- A symbol does the same in every context. -/
theorem step_under {symbol : Symbol} (stepped : step levels symbol = some result) :
    step (under heads outer levels) symbol = some (under heads outer result) := by
  cases levels with
  | nil => cases stepped
  | cons level others =>
      cases symbol with
      | name text =>
          cases stepped
          cases others <;> rfl
      | numeral value =>
          cases stepped
          cases others <;> rfl
      | scope key =>
          cases spine : level.spine with
          | nil => simp [step, spine] at stepped
          | cons last rest =>
              simp only [step, spine, Option.some.injEq] at stepped
              subst stepped
              cases others <;> simp [under, step, spine]
      | opening =>
          cases stepped
          cases others <;> rfl
      | closing =>
          cases others with
          | nil => cases stepped
          | cons next others =>
              rcases Option.map_eq_some_iff.mp stepped with ⟨term, closed, assembled⟩
              rcases under_push heads outer next others term with ⟨base, enclosing, same, pushed⟩
              rw [under_cons, same, ← assembled, pushed]
              simp [step, closed]
      | cons =>
          rcases Option.map_eq_some_iff.mp stepped with ⟨head, operand, assembled⟩
          subst assembled
          cases others with
          | nil =>
              have same : ({ level with heads := level.heads ++ heads } : Level).operand =
                  some head := operand
              simp [under, step, same]
          | cons next others => simp [under, step, operand]
      | comma =>
          cases others with
          | nil => cases stepped
          | cons next others =>
              have enclosed : (under heads outer (next :: others)).isEmpty = false := by
                cases others <;> rfl
              simp only [step, List.isEmpty_cons, Bool.false_eq_true, if_false] at stepped
              rcases Option.map_eq_some_iff.mp stepped with ⟨component, read, assembled⟩
              subst assembled
              simp [under_cons, step, enclosed, read]
      | minus =>
          cases empty : level.spine.isEmpty with
          | true =>
              cases negated : level.negated with
              | true => simp [step, empty, negated] at stepped
              | false =>
                  simp only [step, empty, negated, if_true, Bool.false_eq_true, if_false,
                    Option.some.injEq] at stepped
                  subst stepped
                  cases others <;> simp [under, step, empty, negated]
          | false =>
              simp only [step, empty, Bool.false_eq_true, if_false] at stepped
              rcases Option.map_eq_some_iff.mp stepped with ⟨left, operand, assembled⟩
              subst assembled
              cases others with
              | nil =>
                  have same : ({ level with heads := level.heads ++ heads } : Level).operand =
                      some left := operand
                  simp [under, step, empty, same]
              | cons next others => simp [under, step, empty, operand]

theorem run_under {symbols : List Symbol} (ran : run levels symbols = some result) :
    run (under heads outer levels) symbols = some (under heads outer result) := by
  induction symbols generalizing levels with
  | nil =>
      cases ran
      rfl
  | cons symbol rest induction =>
      rcases Option.bind_eq_some_iff.mp ran with ⟨middle, stepped, ranRest⟩
      exact Option.bind_eq_some_iff.mpr
        ⟨_, step_under heads outer stepped, induction ranRest⟩

theorem runText_under (ran : runText levels text = some result) :
    runText (under heads outer levels) text = some (under heads outer result) := by
  rcases runText_eq_some.mp ran with ⟨symbols, scanned, here⟩
  exact runText_eq_some.mpr ⟨symbols, scanned, run_under heads outer here⟩

end Context

theorem under_opened (heads : List Term) (outer : List Level) :
    under heads outer [.opened []] = .opened heads :: outer :=
  rfl

/-- An element of a list is read behind the others. -/
theorem runText_element {latest : List Term}
    (ran : runText [.opened []] text = some [.opened latest]) (heads : List Term)
    (outer : List Level) :
    runText (.opened heads :: outer) text = some (.opened (latest ++ heads) :: outer) := by
  rw [← under_opened]
  exact runText_under heads outer ran

/-! ## Applications -/

variable {spine : List Term}

theorem applied_push {function : Term}
    (applied : Level.applied spine = some function) (argument : Term) :
    Level.applied (argument :: spine) = some (.apply function argument) := by
  cases spine with
  | nil => cases applied
  | cons last others =>
      rw [Level.applied, applied]
      · rfl
      · simp

theorem applied_cons (term : Term) (spine : List Term) :
    ∃ whole, Level.applied (term :: spine) = some whole := by
  induction spine generalizing term with
  | nil => exact ⟨term, rfl⟩
  | cons next others induction =>
      rcases induction next with ⟨function, applied⟩
      exact ⟨.apply function term, applied_push applied term⟩

theorem push_applying (heads spine : List Term) (term : Term) :
    (Level.applying heads spine).push term = .applying heads (term :: spine) :=
  rfl

theorem operand_applying {heads : List Term} {term : Term}
    (applied : Level.applied spine = some term) :
    (Level.applying heads spine).operand = some term := by
  rw [Level.operand, Level.applying, applied]
  rfl

/-! ## Parentheses -/

/-- The end of a text completes the same symbol as a parenthesis behind it. -/
theorem scan_closing {pending : Pending} {symbols : List Symbol}
    (ended : scan pending ['\n'] = some (.nothing, symbols)) (rest : List Char) :
    scan pending (')' :: rest) =
      (scan .nothing rest).map fun later => (later.1, symbols ++ .closing :: later.2) := by
  have notColon : pending ≠ .colon := by
    rintro rfl
    have unfinished : scan .colon ['\n'] = none := by decide
    rw [unfinished] at ended
    cases ended
  have lineEnd : pending.extend '\n' = none := by
    cases pending <;> rfl
  have closing : pending.extend ')' = none := by
    cases pending <;> rfl
  have same : pending.ends ')' = pending.ends '\n' := by
    cases pending <;> rfl
  rw [scan, read_ended lineEnd notColon] at ended
  rw [scan, read_ended closing notColon, same]
  cases completed : pending.ends '\n' with
  | none => simp [completed] at ended
  | some done =>
      have begun : Pending.begins '\n' = some (.nothing, []) := by decide
      have begunClosing : Pending.begins ')' = some (.nothing, [.closing]) := by decide
      rw [completed, begun] at ended
      rw [begunClosing]
      have sameSymbols : done = symbols := by simpa [scan] using ended
      subst sameSymbols
      simp

/-- A text that is read as a term is read as an argument in parentheses. -/
theorem runText_argument {term : Term} (reads : readCode text = some term)
    (level : Level) (outer : List Level) (rest : List Char) :
    runText (.opened [] :: level :: outer) (text ++ ')' :: rest) =
      runText (level.push term :: outer) rest := by
  rcases Option.bind_eq_some_iff.mp reads with ⟨levels, ran, isFinished⟩
  rcases runText_eq_some.mp ran with ⟨symbols, scanned, here⟩
  rw [scan_append] at scanned
  rcases Option.bind_eq_some_iff.mp scanned with ⟨⟨pending, front⟩, scannedText, scannedEnd⟩
  rcases Option.map_eq_some_iff.mp scannedEnd with ⟨⟨last, completed⟩, ended, assembled⟩
  cases assembled
  have only : ∃ inner, levels = [inner] ∧ inner.whole = some term := by
    unfold finished at isFinished
    split at isFinished
    case h_1 inner => exact ⟨inner, rfl, isFinished⟩
    case h_2 => cases isFinished
  rcases only with ⟨inner, rfl, closed⟩
  have inside := run_under [] (level :: outer) here
  rw [under_opened] at inside
  have sameInner : under [] (level :: outer) [inner] = inner :: level :: outer := by
    simp [under]
  rw [sameInner] at inside
  rw [runText, scan_append, scannedText, Option.bind_some, scan_closing ended, runText]
  cases scan .nothing rest with
  | none => rfl
  | some later =>
      rcases later with ⟨pendingLater, symbols⟩
      cases pendingLater with
      | nothing =>
          have behind : run (.opened [] :: level :: outer)
              (front ++ (completed ++ .closing :: symbols)) =
                run (level.push term :: outer) symbols := by
            rw [← List.append_assoc, run_append, inside, Option.bind_some]
            simp [run, step, closed]
          exact behind
      | _ => rfl

/-- A list behind its elements. -/
def listTerm (heads : List Term) (last : Term) : Term :=
  heads.foldl (fun tail head => .cons head tail) last

theorem finished_applying {heads : List Term} {last : Term}
    (applied : Level.applied spine = some last) :
    finished [.applying heads spine] = some (listTerm heads last) := by
  rw [finished, Level.whole, Level.component, operand_applying applied]
  rfl

end Inference.Foundation.Rocq
