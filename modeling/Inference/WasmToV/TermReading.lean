import Inference.Foundation.RocqTerms
import Inference.WasmToV.NameEscaping

/-! # Lines as terms

Every line of an expression is read as an element of a list of instructions. A
word is checked once, and its immediates are read behind it.
-/

namespace Inference.WasmToV

open Foundation
open Foundation.Rocq (Level Symbol runText run)

/-! ## Words -/

/-- What the word of a head leaves open: the end of its line, more arguments, or
an argument in parentheses. Words of constants are read with their numbers. -/
inductive WordForm where
  | line
  | application
  | argument
  | constant
  deriving DecidableEq, Repr

def Head.form : Head → WordForm
  | .plain _ | .fixed _ => .line
  | .number .f32Const | .number .f64Const | .integer _ => .constant
  | .number _ | .lane _ | .callIndirect => .application
  | .opener _ | .memory _ | .storeLane _ | .brTable => .argument

/-- Whether a word is read in its form. -/
def WordForm.reads (form : WordForm) (word : List Char) : Bool :=
  match form with
  | .line =>
      match runText [.opened []] (word ++ [':', '\n']) with
      | some [level] => level = .opened level.heads && level.heads.length = 1
      | _ => false
  | .application =>
      match runText [.opened []] word with
      | some [level] => level = .applying [] level.spine && !level.spine.isEmpty
      | _ => false
  | .argument =>
      match runText [.opened []] word with
      | some [inner, level] =>
          inner = .opened [] && level = .applying [] level.spine && !level.spine.isEmpty
      | _ => false
  | .constant => true

private theorem reads_literal {form : WordForm} {text ending : List Char}
    (checked : form.reads (text ++ ending) = true) :
    form.reads ((String.ofList text).toList ++ ending) = true := by
  rw [String.toList_ofList]
  exact checked

theorem sortedHeads_read : ∀ head ∈ sortedHeads, head.form.reads head.word = true := by
  unfold sortedHeads
  repeat' first
    | refine List.forall_mem_cons.mpr ⟨reads_literal (by decide +kernel), ?_⟩
    | exact fun _ member => absurd member List.not_mem_nil

section Forms

variable {word : List Char}

theorem reads_line (checked : WordForm.reads .line word = true) :
    ∃ term, runText [.opened []] (word ++ [':', '\n']) = some [.opened [term]] := by
  simp only [WordForm.reads] at checked
  split at checked
  case h_1 level ran =>
      rcases (Bool.and_eq_true _ _).mp checked with ⟨same, one⟩
      rcases List.length_eq_one_iff.mp (of_decide_eq_true one) with ⟨term, heads⟩
      exact ⟨term, by rw [ran, of_decide_eq_true same, heads]⟩
  case h_2 => cases checked

theorem reads_application (checked : WordForm.reads .application word = true) :
    ∃ last spine, runText [.opened []] word = some [.applying [] (last :: spine)] := by
  simp only [WordForm.reads] at checked
  split at checked
  case h_1 level ran =>
      rcases (Bool.and_eq_true _ _).mp checked with ⟨same, nonempty⟩
      rw [ran, of_decide_eq_true same]
      cases spine : level.spine with
      | nil => simp [spine] at nonempty
      | cons last others => exact ⟨last, others, rfl⟩
  case h_2 => cases checked

theorem reads_argument (checked : WordForm.reads .argument word = true) :
    ∃ last spine, runText [.opened []] word = some [.opened [], .applying [] (last :: spine)] := by
  simp only [WordForm.reads] at checked
  split at checked
  case h_1 inner level ran =>
      rcases (Bool.and_eq_true _ _).mp checked with ⟨both, nonempty⟩
      rcases (Bool.and_eq_true _ _).mp both with ⟨sameInner, same⟩
      rw [ran, of_decide_eq_true sameInner, of_decide_eq_true same]
      cases spine : level.spine with
      | nil => simp [spine] at nonempty
      | cons last others => exact ⟨last, others, rfl⟩
  case h_2 => cases checked

end Forms

/-! ## Words behind numbers -/

variable {levels result : List Level}

theorem runText_word (symbols : List Symbol) {word : List Char}
    (scanned : Rocq.scan .nothing word = some (.nothing, symbols))
    (ran : run levels symbols = some result) (rest : List Char) :
    runText levels (word ++ rest) = runText result rest :=
  Rocq.runText_append (Rocq.runText_eq_some.mpr ⟨symbols, scanned, ran⟩) rest

theorem runText_end (symbols : List Symbol) {word : List Char}
    (scanned : Rocq.scan .nothing word = some (.nothing, symbols))
    (ran : run levels symbols = some result) : runText levels word = some result :=
  Rocq.runText_eq_some.mpr ⟨symbols, scanned, ran⟩

/-- Behind the arguments of an element. -/
theorem run_cons {last : Rocq.Term} {heads spine : List Rocq.Term} {outer : List Level}
    {term : Rocq.Term} (applied : Level.applied (last :: spine) = some term) :
    run (.applying heads (last :: spine) :: outer) [.cons] =
      some (.opened (term :: heads) :: outer) := by
  rw [run, List.foldlM_cons, Rocq.step, Rocq.operand_applying applied]
  rfl

/-- A number in the scope of naturals. -/
def naturalTerm (number : Nat) : Rocq.Term :=
  .delimited (.numeral number) ['N']

/-- What stands between the last number of an element and its end. -/
inductive NumberEnd : List Char → Prop
  | plain : NumberEnd [' ', ':', ':', '\n']
  | natural : NumberEnd ['%', 'N', ' ', ':', ':', '\n']
  | commented : NumberEnd ['%', 'N', ' ', ' ', ':', ':', '\n']

variable {tail : List Char}

/-- An application to a number at the end of its line. -/
theorem runText_lastNumber {spine : List Rocq.Term} (number : Nat) (ends : NumberEnd tail) :
    ∃ term, runText [.applying [] spine] ((toString number).toList ++ tail) =
      some [.opened [term]] := by
  cases ends with
  | plain =>
      rcases Rocq.applied_cons (.numeral number) spine with ⟨term, applied⟩
      rw [Rocq.runText_number _ _ _ (by decide), Rocq.push_applying]
      exact ⟨term, runText_end [.cons] (by decide) (run_cons applied)⟩
  | natural | commented =>
      rcases Rocq.applied_cons (naturalTerm number) spine with ⟨term, applied⟩
      rw [Rocq.runText_number _ _ _ (by decide), Rocq.push_applying]
      exact ⟨term, runText_end [.scope ['N'], .cons] (by decide)
        (run_cons applied)⟩

/-- A memory argument with its parenthesis. -/
theorem runText_access (access : Access) (level : Level) (outer : List Level)
    (rest : List Char) :
    runText (.opened [] :: level :: outer) (access.text ++ rest) =
      runText (level.push (.apply (.apply (.name ['M', 'a']) (naturalTerm access.offset))
        (naturalTerm access.align)) :: outer) rest := by
  have opened : run (.opened [] :: level :: outer) [.name ['M', 'a']] =
      some (.applying [] [.name ['M', 'a']] :: level :: outer) := rfl
  have offset : run (.applying [] [.numeral access.offset, .name ['M', 'a']] :: level :: outer)
      [.scope ['N']] =
        some (.applying [] [naturalTerm access.offset, .name ['M', 'a']] :: level :: outer) := rfl
  have align : run (.applying [] [.numeral access.align, naturalTerm access.offset,
      .name ['M', 'a']] :: level :: outer) [.scope ['N'], .closing] =
        some (level.push (.apply (.apply (.name ['M', 'a']) (naturalTerm access.offset))
          (naturalTerm access.align)) :: outer) := rfl
  simp only [Access.text, List.append_assoc]
  rw [runText_word [.name ['M', 'a']] (by decide) opened]
  rw [List.cons_append, Rocq.runText_number _ _ _ (by decide), Rocq.push_applying,
    ← List.cons_append]
  rw [runText_word [.scope ['N']] (by decide) offset]
  rw [List.cons_append, Rocq.runText_number _ _ _ (by decide), Rocq.push_applying,
    ← List.cons_append]
  exact runText_word [.scope ['N'], .closing] (by decide) align rest

/-! ## Lists in parentheses -/

def nilTerm : Rocq.Term :=
  .name ['n', 'i', 'l']

/-- The end of a list that is an argument. -/
theorem runText_listEnd (heads : List Rocq.Term) (level : Level) (outer : List Level)
    (rest : List Char) :
    runText (.opened heads :: level :: outer) (['n', 'i', 'l', ')'] ++ rest) =
      runText (level.push (Rocq.listTerm heads nilTerm) :: outer) rest :=
  runText_word [.name ['n', 'i', 'l'], .closing] (by decide) rfl rest

theorem runText_targets (targets : List Nat) (heads : List Rocq.Term) (outer : List Level)
    (rest : List Char) :
    ∃ latest, runText (.opened heads :: outer)
      (targets.flatMap (fun target => (toString target).toList ++ [' ', ':', ':', ' ']) ++ rest) =
        runText (.opened latest :: outer) rest := by
  induction targets generalizing heads with
  | nil => exact ⟨heads, rfl⟩
  | cons target others induction =>
      rcases induction (.numeral target :: heads) with ⟨latest, later⟩
      refine ⟨latest, ?_⟩
      have element : run (.applying heads [.numeral target] :: outer) [.cons] =
          some (.opened (.numeral target :: heads) :: outer) := rfl
      rw [List.flatMap_cons, List.append_assoc, List.append_assoc, List.cons_append,
        Rocq.runText_number _ _ _ (by decide), ← List.cons_append, ← later]
      exact runText_word [.cons] (by decide) element _

/-! ## Lines of operators -/

/-- An argument at the end of its line. -/
theorem runText_lastArgument (argument : Rocq.Term) (spine : List Rocq.Term)
    (scanned : Rocq.scan .nothing tail = some (.nothing, [.cons])) :
    ∃ term, runText [.applying [] (argument :: spine)] tail = some [.opened [term]] := by
  rcases Rocq.applied_cons argument spine with ⟨term, applied⟩
  exact ⟨term, runText_end _ scanned (run_cons applied)⟩

section Lines

variable {word : List Char}

/-- A word, a number, and the end of the line. -/
theorem runText_numberLine (checked : WordForm.reads .application word = true) (number : Nat)
    (ends : NumberEnd tail) :
    ∃ term, runText [.opened []] (word ++ ((toString number).toList ++ tail)) =
      some [.opened [term]] := by
  rcases reads_application checked with ⟨last, spine, read⟩
  rw [Rocq.runText_append read]
  exact runText_lastNumber number ends

theorem runText_callIndirect (checked : WordForm.reads .application word = true)
    (indices : Nat × Nat) :
    ∃ term, runText [.opened []]
      (word ++ (((toString indices.1).toList ++ [' ']) ++
        ((toString indices.2).toList ++ [' ', ':', ':', '\n']))) = some [.opened [term]] := by
  rcases reads_application checked with ⟨last, spine, read⟩
  have between : run [.applying [] (.numeral indices.1 :: last :: spine)] [] =
      some [.applying [] (.numeral indices.1 :: last :: spine)] := rfl
  rw [Rocq.runText_append read, List.append_assoc, List.cons_append,
    Rocq.runText_number _ _ _ (by decide), Rocq.push_applying, ← List.cons_append,
    runText_word [] (by decide) between]
  exact runText_lastNumber indices.2 .plain

theorem runText_memory (checked : WordForm.reads .argument word = true) (access : Access) :
    ∃ term, runText [.opened []] (word ++ (access.text ++ [':', ':', '\n'])) =
      some [.opened [term]] := by
  rcases reads_argument checked with ⟨last, spine, read⟩
  rw [Rocq.runText_append read, runText_access, Rocq.push_applying]
  exact runText_lastArgument _ _ (by decide)

theorem runText_storeLane (checked : WordForm.reads .argument word = true)
    (immediates : Access × Nat) :
    ∃ term, runText [.opened []] (word ++ (immediates.1.text ++
      ((toString immediates.2).toList ++ [' ', ':', ':', '\n']))) = some [.opened [term]] := by
  rcases reads_argument checked with ⟨last, spine, read⟩
  rw [Rocq.runText_append read, runText_access, Rocq.push_applying]
  exact runText_lastNumber immediates.2 .plain

theorem runText_brTable (checked : WordForm.reads .argument word = true) (targets : List Nat) :
    ∃ term, runText [.opened []] (word ++
      (targets.flatMap (fun target => (toString target).toList ++ [' ', ':', ':', ' ']) ++
        ['n', 'i', 'l', ')', ' ', ':', ':', '\n'])) = some [.opened [term]] := by
  rcases reads_argument checked with ⟨last, spine, read⟩
  rcases runText_targets targets [] [.applying [] (last :: spine)]
    ['n', 'i', 'l', ')', ' ', ':', ':', '\n'] with ⟨latest, labels⟩
  have closed := runText_listEnd latest (.applying [] (last :: spine)) [] [' ', ':', ':', '\n']
  rw [Rocq.runText_append read, labels]
  rw [List.cons_append, List.cons_append, List.cons_append, List.cons_append,
    List.nil_append] at closed
  rw [closed, Rocq.push_applying]
  exact runText_lastArgument _ _ (by decide)

end Lines

/-- Operators that access no local and are no constants fill their lines. -/
def Head.Ordinary : Head → Prop
  | .opener _ | .integer _ => False
  | .number opcode =>
      opcode ≠ .localGet ∧ opcode ≠ .localSet ∧ opcode ≠ .localTee ∧ opcode ≠ .f32Const ∧
        opcode ≠ .f64Const
  | _ => True

theorem runText_ordinary {term : Term} (member : term.1 ∈ sortedHeads)
    (ordinary : term.1.Ordinary) :
    ∃ read, runText [.opened []] term.text = some [.opened [read]] := by
  have checked := sortedHeads_read _ member
  rcases term with ⟨head, immediates⟩
  rw [Term.text]
  cases head with
  | plain _ | fixed _ => exact reads_line checked
  | opener _ | integer _ => exact absurd ordinary id
  | number opcode =>
      cases opcode with
      | br | call | memoryInit | dataDrop => exact runText_numberLine checked immediates .plain
      | brIf | globalGet | globalSet | refFunc | tableFill | tableGet | tableSet | tableGrow
      | tableSize => exact runText_numberLine checked immediates .natural
      | localGet | localSet | localTee | f32Const | f64Const =>
          simp [Head.Ordinary] at ordinary
  | lane _ => exact runText_numberLine checked immediates .plain
  | callIndirect => exact runText_callIndirect checked immediates
  | brTable => exact runText_brTable checked immediates
  | memory _ => exact runText_memory checked immediates
  | storeLane _ => exact runText_storeLane checked immediates

/-! ## Constants -/

/-- The constructors of a constant, outermost first, and its immediate. -/
def Operator.constant : Operator → Option (List String × Int)
  | .i32Const value => some (["BI_const_num", "Vi32"], value)
  | .i64Const value => some (["BI_const_num", "Vi64"], value)
  | .f32Const bits => some (["BI_const_num", "VAL_float32"], bits)
  | .f64Const bits => some (["BI_const_num", "VAL_float64"], bits)
  | .v128Const value => some (["BI_const_vec"], value)
  | _ => none

def constructed (constructors : List String) (argument : Rocq.Term) : Rocq.Term :=
  constructors.foldr (fun name argument => .apply (.name name.toList) argument) argument

/-- The constructors are applied to one numeral, which denotes the value. -/
def DenotesValue (constructors : List String) (value : Int) (term : Rocq.Term) : Prop :=
  ∃ numeral, term = constructed constructors numeral ∧ numeral.value = some value

/-- A term denotes an operator if that is a constant. -/
def DenotesConstant (op : Operator) (term : Rocq.Term) : Prop :=
  ∀ constructors value, op.constant = some (constructors, value) →
    DenotesValue constructors value term

def Operator.NonNegative (op : Operator) : Prop :=
  ∀ constructors value, op.constant = some (constructors, value) → 0 ≤ value

variable {op : Operator}

theorem denotesConstant_iff {constructors : List String} {value : Int}
    (isConstant : op.constant = some (constructors, value)) {term : Rocq.Term}
    (denotes : DenotesValue constructors value term ↔ 0 ≤ value) :
    DenotesConstant op term ↔ op.NonNegative := by
  constructor
  · intro all others other same
    rw [isConstant] at same
    cases same
    exact denotes.mp (all _ _ isConstant)
  · intro nonNegative others other same
    rw [isConstant] at same
    cases same
    exact denotes.mpr (nonNegative _ _ isConstant)

section Constants

variable {word : List Char} {constructor : String}

private theorem positive_spelled {value : Int} (nonNegative : 0 ≤ value) :
    (Rocq.Term.numeral value.toNat).value = some value := by
  rw [Rocq.Term.value, Int.toNat_of_nonneg nonNegative]

private theorem runText_minus (ran : run levels [.minus] = some result) (rest : List Char) :
    runText levels ('-' :: rest) = runText result rest := by
  have scanned : Rocq.scan .nothing ['-'] = some (.nothing, [.minus]) := by decide
  exact runText_word _ scanned ran rest

/-- A number behind two constructors is their argument, and a negative one is
subtracted from the inner constructor. -/
theorem runText_number_constant
    (scanned : Rocq.scan .nothing word =
      some (.nothing, [.name "BI_const_num".toList, .opening, .name constructor.toList]))
    (value : Int) :
    ∃ term, runText [.opened []]
        (word ++ ((toString value).toList ++ [')', ' ', ':', ':', '\n'])) =
          some [.opened [term]] ∧
      (DenotesValue ["BI_const_num", constructor] value term ↔ 0 ≤ value) := by
  have opened : run [.opened []]
      [.name "BI_const_num".toList, .opening, .name constructor.toList] =
        some [.applying [] [.name constructor.toList],
          .applying [] [.name "BI_const_num".toList]] := rfl
  rw [runText_word _ scanned opened]
  by_cases nonNegative : 0 ≤ value
  · have closed : run [.applying [] [.numeral value.toNat, .name constructor.toList],
        .applying [] [.name "BI_const_num".toList]] [.closing, .cons] =
          some [.opened [constructed ["BI_const_num", constructor] (.numeral value.toNat)]] := rfl
    refine ⟨_, ?_, iff_of_true ⟨_, rfl, positive_spelled nonNegative⟩ nonNegative⟩
    rw [toList_toString_int_of_nonneg nonNegative, Rocq.runText_number _ _ _ (by decide),
      Rocq.push_applying]
    exact runText_end [.closing, .cons] (by decide) closed
  · have subtracted : run [.applying [] [.name constructor.toList],
        .applying [] [.name "BI_const_num".toList]] [.minus] =
          some [⟨[], [], some (.name constructor.toList), false, []⟩,
            .applying [] [.name "BI_const_num".toList]] := rfl
    have closed : run [⟨[], [], some (.name constructor.toList), false,
        [.numeral (-value).toNat]⟩, .applying [] [.name "BI_const_num".toList]]
          [.closing, .cons] = some [.opened [.apply (.name "BI_const_num".toList)
            (.minus (.name constructor.toList) (.numeral (-value).toNat))]] := rfl
    have different : ¬ DenotesValue ["BI_const_num", constructor] value
        (.apply (.name "BI_const_num".toList)
          (.minus (.name constructor.toList) (.numeral (-value).toNat))) := by
      rintro ⟨numeral, same, _⟩
      cases same
    refine ⟨_, ?_, iff_of_false different nonNegative⟩
    rw [toList_toString_int_of_neg (by omega), List.cons_append, runText_minus subtracted,
      Rocq.runText_number _ _ _ (by decide)]
    exact runText_end [.closing, .cons] (by decide) closed

/-- A negative number behind the only constructor is subtracted from it. -/
theorem runText_vector_constant
    (scanned : Rocq.scan .nothing word = some (.nothing, [.name "BI_const_vec".toList]))
    (value : Int) :
    ∃ term, runText [.opened []] (word ++ ((toString value).toList ++ [' ', ':', ':', '\n'])) =
        some [.opened [term]] ∧ (DenotesValue ["BI_const_vec"] value term ↔ 0 ≤ value) := by
  have opened : run [.opened []] [.name "BI_const_vec".toList] =
      some [.applying [] [.name "BI_const_vec".toList]] := rfl
  rw [runText_word _ scanned opened]
  by_cases nonNegative : 0 ≤ value
  · have closed : run [.applying [] [.numeral value.toNat, .name "BI_const_vec".toList]]
        [.cons] = some [.opened [constructed ["BI_const_vec"] (.numeral value.toNat)]] := rfl
    refine ⟨_, ?_, iff_of_true ⟨_, rfl, positive_spelled nonNegative⟩ nonNegative⟩
    rw [toList_toString_int_of_nonneg nonNegative, Rocq.runText_number _ _ _ (by decide),
      Rocq.push_applying]
    exact runText_end [.cons] (by decide) closed
  · have subtracted : run [.applying [] [.name "BI_const_vec".toList]] [.minus] =
        some [⟨[], [], some (.name "BI_const_vec".toList), false, []⟩] := rfl
    have closed : run [⟨[], [], some (.name "BI_const_vec".toList), false,
        [.numeral (-value).toNat]⟩] [.cons] =
          some [.opened [.minus (.name "BI_const_vec".toList)
            (.numeral (-value).toNat)]] := rfl
    have different : ¬ DenotesValue ["BI_const_vec"] value
        (.minus (.name "BI_const_vec".toList) (.numeral (-value).toNat)) := by
      rintro ⟨numeral, same, _⟩
      cases same
    refine ⟨_, ?_, iff_of_false different nonNegative⟩
    rw [toList_toString_int_of_neg (by omega), List.cons_append, runText_minus subtracted,
      Rocq.runText_number _ _ _ (by decide)]
    exact runText_end [.cons] (by decide) closed

end Constants

/-! ## Kept lines -/

theorem ordinary_of_term {term : Term} (hasTerm : op.term = some term)
    (role : op.role = .ordinary) (noLocal : op.localIndex = none)
    (noConstant : op.constant = none) : term.1.Ordinary := by
  cases op with
  | block _ | loop _ | if_ _ | forall_ _ | exists_ _ | assume _ | unique _ => cases role
  | else_ | end_ | atomicFence | atomicMemory _ _ | atomicIndex _ _ _ | atomicField _ _ _ _
  | unimplemented _ _ => cases hasTerm
  | localGet _ | localSet _ | localTee _ => cases noLocal
  | i32Const _ | i64Const _ | f32Const _ | f64Const _ | v128Const _ => cases noConstant
  | memory opcode memarg =>
      cases hasTerm
      cases opcode <;> trivial
  | brTable targets =>
      rcases Option.map_eq_some_iff.mp hasTerm with ⟨values, _, rfl⟩
      cases values <;> trivial
  | memorySize mem | memoryGrow mem =>
      rw [Operator.term] at hasTerm
      split at hasTerm
      · cases hasTerm
        trivial
      · cases hasTerm
  | plain _ | lane _ _ | callIndirect _ _ | memoryLane _ _ _ | memoryCopy _ _ | memoryFill _ =>
      cases hasTerm
      trivial
  | br _ | brIf _ | call _ | globalGet _ | globalSet _ | memoryInit _ _ | dataDrop _ | refFunc _
  | tableFill _ | tableGet _ | tableSet _ | tableGrow _ | tableSize _ =>
      cases hasTerm
      simp [Head.Ordinary]

theorem keptTail_none (role : op.role = .ordinary)
    (noLocal : op.localIndex = none) (names : Option NameMap) : op.keptTail names = [] := by
  have noComment : op.comment names = none := by
    rw [Operator.comment, noLocal]
    rfl
  rw [Operator.keptTail, noComment, Option.isSome_none, if_neg Bool.false_ne_true,
    Operator.lineTail, role, noLocal]

/-- The kept end of a line with a local, with the scope of its number. -/
theorem keptTail_some {localIndex : Nat} (role : op.role = .ordinary)
    (accesses : op.localIndex = some localIndex) (names : Option NameMap) :
    NumberEnd (['%', 'N', ' '] ++ op.keptTail names) := by
  rw [Operator.keptTail]
  cases known : op.comment names with
  | some name => exact .commented
  | none =>
      rw [Option.isSome_none, if_neg Bool.false_ne_true, Operator.lineTail, role, accesses, known]
      exact .natural

theorem runText_local {opcode : NumberOpcode} (suffix : opcode.suffix = ['%', 'N', ' '])
    (form : (Head.number opcode).form = .application) (member : .number opcode ∈ sortedHeads)
    (localIndex : Nat) (ends : NumberEnd (['%', 'N', ' '] ++ tail)) :
    ∃ term, runText [.opened []] (Term.text ⟨.number opcode, localIndex⟩ ++ tail) =
      some [.opened [term]] := by
  have checked := sortedHeads_read _ member
  rw [form] at checked
  rw [Term.text, Head.immediatesText, suffix, List.append_assoc, List.append_assoc]
  exact runText_numberLine checked localIndex ends

private theorem scanned_i32 : Rocq.scan .nothing (Head.integer .i32Const).word =
    some (.nothing, [.name "BI_const_num".toList, .opening, .name "Vi32".toList]) := by
  decide +kernel

private theorem scanned_i64 : Rocq.scan .nothing (Head.integer .i64Const).word =
    some (.nothing, [.name "BI_const_num".toList, .opening, .name "Vi64".toList]) := by
  decide +kernel

private theorem scanned_f32 : Rocq.scan .nothing (Head.number .f32Const).word =
    some (.nothing, [.name "BI_const_num".toList, .opening, .name "VAL_float32".toList]) := by
  decide +kernel

private theorem scanned_f64 : Rocq.scan .nothing (Head.number .f64Const).word =
    some (.nothing, [.name "BI_const_num".toList, .opening, .name "VAL_float64".toList]) := by
  decide +kernel

private theorem scanned_v128 : Rocq.scan .nothing (Head.integer .v128Const).word =
    some (.nothing, [.name "BI_const_vec".toList]) := by
  decide +kernel

/-- The line of an operator is an element, which denotes a constant exactly when
its immediate is not negative. -/
theorem runText_line (role : op.role = .ordinary)
    (supported : op.support = .supported) (names : Option NameMap) :
    ∃ term, runText [.opened []] ((Token.line op).kept names) = some [.opened [term]] ∧
      (DenotesConstant op term ↔ op.NonNegative) := by
  rcases term_exists supported (by simp [role]) with ⟨term, hasTerm⟩
  rw [Token.kept, hasTerm, Option.elim_some]
  have unchecked : op.constant = none → ∀ read, DenotesConstant op read ↔ op.NonNegative := by
    intro noConstant read
    exact iff_of_true (fun _ _ same => by simp [noConstant] at same)
      (fun _ _ same => by simp [noConstant] at same)
  cases accesses : op.localIndex with
  | some localIndex =>
      have ends := keptTail_some role accesses names
      have enough : ∀ opcode : NumberOpcode, opcode.suffix = ['%', 'N', ' '] →
          (Head.number opcode).form = .application → .number opcode ∈ sortedHeads →
          op.constant = none → term = ⟨.number opcode, localIndex⟩ →
          ∃ read, runText [.opened []] (term.text ++ op.keptTail names) =
            some [.opened [read]] ∧ (DenotesConstant op read ↔ op.NonNegative) := by
        rintro opcode suffix form member noConstant rfl
        rcases runText_local suffix form member localIndex ends with ⟨read, ran⟩
        exact ⟨read, ran, unchecked noConstant read⟩
      cases op with
      | localGet _ | localSet _ | localTee _ =>
          cases accesses
          cases hasTerm
          exact enough _ rfl rfl (by decide) rfl rfl
      | _ => cases accesses
  | none =>
      rw [keptTail_none role accesses, List.append_nil]
      cases isConstant : op.constant with
      | none =>
          rcases runText_ordinary (term_mem hasTerm)
            (ordinary_of_term hasTerm role accesses isConstant) with ⟨read, ran⟩
          exact ⟨read, ran, unchecked isConstant read⟩
      | some constant =>
          rcases constant with ⟨constructors, value⟩
          have enough : (∃ read, runText [.opened []] term.text = some [.opened [read]] ∧
              (DenotesValue constructors value read ↔ 0 ≤ value)) →
              ∃ read, runText [.opened []] term.text = some [.opened [read]] ∧
                (DenotesConstant op read ↔ op.NonNegative) := by
            rintro ⟨read, ran, denotes⟩
            exact ⟨read, ran, denotesConstant_iff isConstant denotes⟩
          apply enough
          cases op with
          | i32Const value =>
              cases isConstant
              cases hasTerm
              exact runText_number_constant scanned_i32 value
          | i64Const value =>
              cases isConstant
              cases hasTerm
              exact runText_number_constant scanned_i64 value
          | f32Const bits =>
              cases isConstant
              cases hasTerm
              exact runText_number_constant scanned_f32 bits
          | f64Const bits =>
              cases isConstant
              cases hasTerm
              exact runText_number_constant scanned_f64 bits
          | v128Const _ =>
              cases isConstant
              cases hasTerm
              exact runText_vector_constant scanned_v128 value
          | _ => cases isConstant

end Inference.WasmToV
