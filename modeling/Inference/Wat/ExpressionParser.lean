import Mathlib.Data.List.Basic

/-! # The parser of expressions

An expression is parsed into a flat list of instructions in one loop over its tokens. Folded forms are
kept on a stack of levels instead of being parsed by recursion, and a level says what its closing
parenthesis does. How the arguments of an instruction are read is given to this model, apart from the
rows of the instruction table that the loop tells apart.
-/

namespace Inference.Wat.Expr

/-- A token behind white space, comments and unknown annotations. -/
inductive Token
  | lparen
  | rparen
  | keyword (text : String)
  | id (name : String)
  | string (bytes : List UInt8)
  | annotation (name : String)
  | other (text : String)
  deriving DecidableEq, Repr

/-- An identifier of a text, which is never a generated one. -/
structure Id where
  name : String
  deriving DecidableEq, Repr

inductive ParseError
  | message (text : String)
  | panicked
  | exhausted
  deriving DecidableEq, Repr

/-- A block type comes with the label of its block. -/
inductive Instruction (BlockType TryTable Row : Type)
  | block (blockType : BlockType)
  | if_ (blockType : BlockType)
  | else_ (label : Option Id)
  | loop (blockType : BlockType)
  | end_ (label : Option Id)
  | forall_ (blockType : BlockType)
  | exists_ (blockType : BlockType)
  | assume (blockType : BlockType)
  | unique (blockType : BlockType)
  | tryTable (tryTable : TryTable)
  | i32Uzumaki
  | i64Uzumaki
  | row (row : Row)
  deriving DecidableEq, Repr

/-- The readers of arguments. A keyword without a row is no instruction. -/
structure Arguments (BlockType TryTable Row : Type) where
  blockType : List Token → Except ParseError (BlockType × List Token)
  tryTable : List Token → Except ParseError (TryTable × List Token)
  row : String → Option (List Token → Except ParseError (Row × List Token))

variable {BlockType TryTable Row : Type}

/-- The rows of the instruction table with a block type. -/
def blockRow : String → Option (BlockType → Instruction BlockType TryTable Row)
  | "block" => some .block
  | "if" => some .if_
  | "loop" => some .loop
  | "forall" => some .forall_
  | "exists" => some .exists_
  | "assume" => some .assume
  | "unique" => some .unique
  | _ => none

def parseId : List Token → Option Id × List Token
  | .id name :: rest => (some ⟨name⟩, rest)
  | tokens => (none, tokens)

/-- An instruction and the tokens behind it. -/
def parseInstruction (arguments : Arguments BlockType TryTable Row) :
    List Token → Except ParseError (Instruction BlockType TryTable Row × List Token)
  | .keyword text :: rest =>
      match blockRow text with
      | some opener => do
          let (blockType, rest) ← arguments.blockType rest
          return (opener blockType, rest)
      | none =>
          match text with
          | "else" => return (.else_ (parseId rest).1, (parseId rest).2)
          | "end" => return (.end_ (parseId rest).1, (parseId rest).2)
          | "try_table" => do
              let (tryTable, rest) ← arguments.tryTable rest
              return (.tryTable tryTable, rest)
          | "i32.uzumaki" => return (.i32Uzumaki, rest)
          | "i64.uzumaki" => return (.i64Uzumaki, rest)
          | text =>
              match arguments.row text with
              | some read => do
                  let (row, rest) ← read rest
                  return (.row row, rest)
              | none => throw (.message "unknown operator or unexpected token")
  | _ => throw (.message "expected an instruction")

/-- How far an `if` has been parsed. -/
inductive If (BlockType TryTable Row : Type)
  | clause (instruction : Instruction BlockType TryTable Row)
  | then_
  | else_

/-- What is being parsed inside of. -/
inductive Level (BlockType TryTable Row : Type)
  | endWith (instruction : Instruction BlockType TryTable Row)
  | if_ (state : If BlockType TryTable Row)
  | ifArm
  | branchHint

structure BranchHint where
  instrIndex : Nat
  value : Nat
  deriving DecidableEq, Repr

/-- The state of the parser with the tokens that are left. The innermost level is the first one. -/
structure ExpressionParser (BlockType TryTable Row : Type) where
  rawInstrs : List (Instruction BlockType TryTable Row)
  stack : List (Level BlockType TryTable Row)
  branchHints : List BranchHint
  tokens : List Token

namespace ExpressionParser

def pushInstr (parser : ExpressionParser BlockType TryTable Row)
    (instruction : Instruction BlockType TryTable Row) : ExpressionParser BlockType TryTable Row :=
  { parser with rawInstrs := parser.rawInstrs ++ [instruction] }

def pushLevel (parser : ExpressionParser BlockType TryTable Row)
    (level : Level BlockType TryTable Row) : ExpressionParser BlockType TryTable Row :=
  { parser with stack := level :: parser.stack }

end ExpressionParser

/-- The tokens of the enclosing form are not looked at. -/
def isEmpty : List Token → Bool
  | [] | .rparen :: _ => true
  | _ => false

inductive Paren
  | none
  | left
  | right
  deriving DecidableEq

/-- A closing parenthesis counts only when a level is open. -/
def paren (stack : List (Level BlockType TryTable Row)) : List Token → Paren × List Token
  | .lparen :: rest => (.left, rest)
  | .rparen :: rest => if stack.isEmpty then (.none, .rparen :: rest) else (.right, rest)
  | tokens => (.none, tokens)

/-- The step of an `if` at an opening parenthesis, or nothing when a folded instruction follows. -/
def handleIfLparen (parser : ExpressionParser BlockType TryTable Row) :
    Except ParseError (Option (ExpressionParser BlockType TryTable Row)) :=
  match parser.stack with
  | .if_ (.clause instruction) :: outer =>
      match parser.tokens with
      | .keyword "then" :: rest =>
          return some (ExpressionParser.pushInstr
            { parser with stack := .ifArm :: .if_ .then_ :: outer, tokens := rest } instruction)
      | _ => return none
  | .if_ .then_ :: outer =>
      match parser.tokens with
      | .keyword "else" :: rest =>
          return some (ExpressionParser.pushInstr
            { parser with stack := .ifArm :: .if_ .else_ :: outer, tokens := rest } (.else_ none))
      | _ => throw (.message "expected keyword `else`")
  | .if_ .else_ :: _ =>
      throw (.message "unexpected token: too many payloads inside of `(if)`")
  | _ => return none

def branchHintAnnotation : String := "metadata.code.branch_hint"

/-- A hint is a string of one byte, which applies to the next instruction. -/
def parseBranchHint (parser : ExpressionParser BlockType TryTable Row) :
    Except ParseError (ExpressionParser BlockType TryTable Row) :=
  match parser.tokens.tail with
  | .string bytes :: rest => do
      let value ←
        if bytes = [0] then pure 0
        else if bytes = [1] then pure 1
        else if ByteArray.validateUTF8 ⟨bytes.toArray⟩ then
          throw (.message "invalid value for branch hint")
        else throw (.message "malformed UTF-8 encoding")
      return { parser with
        branchHints := parser.branchHints ++ [⟨parser.rawInstrs.length, value⟩], tokens := rest }
  | _ => throw (.message "expected a string")

/-- A folded instruction has been opened. Blocks begin here, other instructions come at the end. -/
def openFolded (parser : ExpressionParser BlockType TryTable Row) :
    Instruction BlockType TryTable Row → ExpressionParser BlockType TryTable Row
  | .block blockType => (parser.pushInstr (.block blockType)).pushLevel (.endWith (.end_ none))
  | .loop blockType => (parser.pushInstr (.loop blockType)).pushLevel (.endWith (.end_ none))
  | .forall_ blockType => (parser.pushInstr (.forall_ blockType)).pushLevel (.endWith (.end_ none))
  | .exists_ blockType => (parser.pushInstr (.exists_ blockType)).pushLevel (.endWith (.end_ none))
  | .assume blockType => (parser.pushInstr (.assume blockType)).pushLevel (.endWith (.end_ none))
  | .unique blockType => (parser.pushInstr (.unique blockType)).pushLevel (.endWith (.end_ none))
  | .tryTable tryTable => (parser.pushInstr (.tryTable tryTable)).pushLevel (.endWith (.end_ none))
  | .i32Uzumaki => (parser.pushInstr .i32Uzumaki).pushLevel (.endWith (.end_ none))
  | .i64Uzumaki => (parser.pushInstr .i64Uzumaki).pushLevel (.endWith (.end_ none))
  | .if_ blockType => parser.pushLevel (.if_ (.clause (.if_ blockType)))
  | other => parser.pushLevel (.endWith other)

def parseLeft (arguments : Arguments BlockType TryTable Row)
    (parser : ExpressionParser BlockType TryTable Row) :
    Except ParseError (ExpressionParser BlockType TryTable Row) := do
  match ← handleIfLparen parser with
  | some parser => return parser
  | none =>
      if parser.tokens.head? = some ( Token.annotation branchHintAnnotation) then do
        let parser ← parseBranchHint parser
        return parser.pushLevel .branchHint
      else do
        let (instruction, rest) ← parseInstruction arguments parser.tokens
        return openFolded { parser with tokens := rest } instruction

/-- What the innermost level does at its closing parenthesis. -/
def parseRight (parser : ExpressionParser BlockType TryTable Row) :
    Except ParseError (ExpressionParser BlockType TryTable Row) :=
  match parser.stack with
  | [] => throw .panicked
  | .endWith instruction :: outer => return { parser with stack := outer }.pushInstr instruction
  | .ifArm :: outer | .branchHint :: outer => return { parser with stack := outer }
  | .if_ (.clause _) :: _ => throw (.message "previous `if` had no `then`")
  | .if_ _ :: outer => return { parser with stack := outer }.pushInstr (.end_ none)

/-- Whether an `if` goes on with something that is not in parentheses. -/
def misplacedInIf (parser : ExpressionParser BlockType TryTable Row) : Bool :=
  match parser.stack with
  | .if_ _ :: _ => !isEmpty parser.tokens && parser.tokens.head? ≠ some .lparen
  | _ => false

/-- One pass of the loop. -/
def parseStep (arguments : Arguments BlockType TryTable Row)
    (parser : ExpressionParser BlockType TryTable Row) :
    Except ParseError (ExpressionParser BlockType TryTable Row) :=
  if misplacedInIf parser then throw (.message "expected `(`")
  else
    match paren parser.stack parser.tokens with
    | (.none, tokens) => do
        let (instruction, rest) ← parseInstruction arguments tokens
        return { parser with tokens := rest }.pushInstr instruction
    | (.left, rest) => parseLeft arguments { parser with tokens := rest }
    | (.right, rest) => parseRight { parser with tokens := rest }

def parseLoop (arguments : Arguments BlockType TryTable Row) :
    Nat → ExpressionParser BlockType TryTable Row →
      Except ParseError (ExpressionParser BlockType TryTable Row)
  | 0, _ => throw .exhausted
  | fuel + 1, parser =>
      if isEmpty parser.tokens && parser.stack.isEmpty then return parser
      else do
        let parser ← parseStep arguments parser
        parseLoop arguments fuel parser

structure Expression (BlockType TryTable Row : Type) where
  instrs : List (Instruction BlockType TryTable Row)
  branchHints : List BranchHint

/-- The expression and the tokens behind it. Each pass takes at least one token. -/
def parse (arguments : Arguments BlockType TryTable Row) (tokens : List Token) :
    Except ParseError (Expression BlockType TryTable Row × List Token) := do
  let parser ← parseLoop arguments (tokens.length + 1) ⟨[], [], [], tokens⟩
  return (⟨parser.rawInstrs, parser.branchHints⟩, parser.tokens)

end Inference.Wat.Expr
