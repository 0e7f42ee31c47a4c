import Inference.Wat.ExpressionParser

/-! # Folded and flat forms

The grammar of bodies in folded form, the text they are written as, and the flat list of instructions
that the text format unfolds them to: operands before their instruction, blocks as opener, body and
`end`. The parser emits exactly that list unless an uzumaki is folded.
-/

namespace Inference.Wat.Expr

variable {BlockType TryTable Row : Type}

/-- The instructions of a block in one pair of parentheses, apart from `if`. -/
inductive Opener (BlockType TryTable : Type)
  | block (blockType : BlockType)
  | loop (blockType : BlockType)
  | forall_ (blockType : BlockType)
  | exists_ (blockType : BlockType)
  | assume (blockType : BlockType)
  | unique (blockType : BlockType)
  | tryTable (tryTable : TryTable)

def Opener.instruction : Opener BlockType TryTable → Instruction BlockType TryTable Row
  | .block blockType => .block blockType
  | .loop blockType => .loop blockType
  | .forall_ blockType => .forall_ blockType
  | .exists_ blockType => .exists_ blockType
  | .assume blockType => .assume blockType
  | .unique blockType => .unique blockType
  | .tryTable table => .tryTable table

/-- The instructions with operands. -/
inductive Operation (Row : Type)
  | i32Uzumaki
  | i64Uzumaki
  | row (row : Row)

def Operation.instruction : Operation Row → Instruction BlockType TryTable Row
  | .i32Uzumaki => .i32Uzumaki
  | .i64Uzumaki => .i64Uzumaki
  | .row named => .row named

def Operation.isUzumaki : Operation Row → Bool
  | .row _ => false
  | _ => true

/-- Whether a list of instructions is folded throughout, or instructions can stand in it as they
are. -/
inductive Layout
  | folded
  | mixed

/-- A list of folded and flat instructions: the first one, and the rest of them. -/
inductive Body (BlockType TryTable Row : Type) : Layout → Type
  | nil : Body BlockType TryTable Row layout
  | flat (instruction : Instruction BlockType TryTable Row)
      (rest : Body BlockType TryTable Row .mixed) : Body BlockType TryTable Row .mixed
  | folded (operation : Operation Row) (operands : Body BlockType TryTable Row .folded)
      (rest : Body BlockType TryTable Row layout) : Body BlockType TryTable Row layout
  | block (opener : Opener BlockType TryTable) (body : Body BlockType TryTable Row .mixed)
      (rest : Body BlockType TryTable Row layout) : Body BlockType TryTable Row layout
  | ifThen (blockType : BlockType) (clause : Body BlockType TryTable Row .folded)
      (then_ : Body BlockType TryTable Row .mixed)
      (rest : Body BlockType TryTable Row layout) : Body BlockType TryTable Row layout
  | ifElse (blockType : BlockType) (clause : Body BlockType TryTable Row .folded)
      (then_ else_ : Body BlockType TryTable Row .mixed)
      (rest : Body BlockType TryTable Row layout) : Body BlockType TryTable Row layout

namespace Body

/-- The flat form: operands, then the instruction; blocks as opener, body and `end`. -/
def unfold : {layout : Layout} → Body BlockType TryTable Row layout →
    List (Instruction BlockType TryTable Row)
  | _, .nil => []
  | _, .flat instruction rest => instruction :: rest.unfold
  | _, .folded operation operands rest => operands.unfold ++ operation.instruction :: rest.unfold
  | _, .block opener body rest => opener.instruction :: body.unfold ++ .end_ none :: rest.unfold
  | _, .ifThen blockType clause then_ rest =>
      clause.unfold ++ .if_ blockType :: then_.unfold ++ .end_ none :: rest.unfold
  | _, .ifElse blockType clause then_ else_ rest =>
      clause.unfold ++ .if_ blockType :: then_.unfold ++ .else_ none :: else_.unfold ++
        .end_ none :: rest.unfold

/-- The `end`s of a body: one for each block, and those it has as they are. -/
def ends : {layout : Layout} → Body BlockType TryTable Row layout → Nat
  | _, .nil => 0
  | _, .flat (.end_ _) rest => rest.ends + 1
  | _, .flat _ rest => rest.ends
  | _, .folded _ operands rest => operands.ends + rest.ends
  | _, .block _ body rest => body.ends + 1 + rest.ends
  | _, .ifThen _ clause then_ rest => clause.ends + then_.ends + 1 + rest.ends
  | _, .ifElse _ clause then_ else_ rest => clause.ends + then_.ends + else_.ends + 1 + rest.ends

/-- How many uzumakis are folded. -/
def foldedUzumakis : {layout : Layout} → Body BlockType TryTable Row layout → Nat
  | _, .nil => 0
  | _, .flat _ rest => rest.foldedUzumakis
  | _, .folded operation operands rest =>
      (if operation.isUzumaki then 1 else 0) + operands.foldedUzumakis + rest.foldedUzumakis
  | _, .block _ body rest => body.foldedUzumakis + rest.foldedUzumakis
  | _, .ifThen _ clause then_ rest =>
      clause.foldedUzumakis + then_.foldedUzumakis + rest.foldedUzumakis
  | _, .ifElse _ clause then_ else_ rest =>
      clause.foldedUzumakis + then_.foldedUzumakis + else_.foldedUzumakis + rest.foldedUzumakis

/-- What the parser emits: a folded uzumaki comes before its operands, and has an `end`. -/
def emitted : {layout : Layout} → Body BlockType TryTable Row layout →
    List (Instruction BlockType TryTable Row)
  | _, .nil => []
  | _, .flat instruction rest => instruction :: rest.emitted
  | _, .folded operation operands rest =>
      if operation.isUzumaki then
        operation.instruction :: operands.emitted ++ .end_ none :: rest.emitted
      else operands.emitted ++ operation.instruction :: rest.emitted
  | _, .block opener body rest => opener.instruction :: body.emitted ++ .end_ none :: rest.emitted
  | _, .ifThen blockType clause then_ rest =>
      clause.emitted ++ .if_ blockType :: then_.emitted ++ .end_ none :: rest.emitted
  | _, .ifElse blockType clause then_ else_ rest =>
      clause.emitted ++ .if_ blockType :: then_.emitted ++ .else_ none :: else_.emitted ++
        .end_ none :: rest.emitted

/-- A flat list of instructions. -/
def ofInstructions (instructions : List (Instruction BlockType TryTable Row)) :
    Body BlockType TryTable Row .mixed :=
  instructions.foldr .flat .nil

end Body

/-! ## Texts -/

/-- How arguments are written. -/
structure Texts (BlockType TryTable Row : Type) where
  blockType : BlockType → List Token
  tryTable : TryTable → List Token
  keyword : Row → String
  arguments : Row → List Token

def writeId : Option Id → List Token
  | none => []
  | some label => [.id label.name]

namespace Texts

variable (texts : Texts BlockType TryTable Row)

def instruction : Instruction BlockType TryTable Row → List Token
  | .block blockType => .keyword "block" :: texts.blockType blockType
  | .if_ blockType => .keyword "if" :: texts.blockType blockType
  | .else_ label => .keyword "else" :: writeId label
  | .loop blockType => .keyword "loop" :: texts.blockType blockType
  | .end_ label => .keyword "end" :: writeId label
  | .forall_ blockType => .keyword "forall" :: texts.blockType blockType
  | .exists_ blockType => .keyword "exists" :: texts.blockType blockType
  | .assume blockType => .keyword "assume" :: texts.blockType blockType
  | .unique blockType => .keyword "unique" :: texts.blockType blockType
  | .tryTable tryTable => .keyword "try_table" :: texts.tryTable tryTable
  | .i32Uzumaki => [.keyword "i32.uzumaki"]
  | .i64Uzumaki => [.keyword "i64.uzumaki"]
  | .row row => .keyword (texts.keyword row) :: texts.arguments row

/-- The text of a body, in front of other tokens. -/
def write : {layout : Layout} → Body BlockType TryTable Row layout → List Token →
    List Token
  | _, .nil, later => later
  | _, .flat instruction rest, later => texts.instruction instruction ++ write rest later
  | _, .folded operation operands rest, later =>
      .lparen :: texts.instruction operation.instruction ++
        write operands (.rparen :: write rest later)
  | _, .block opener body rest, later =>
      .lparen :: texts.instruction opener.instruction ++
        write body (.rparen :: write rest later)
  | _, .ifThen blockType clause then_ rest, later =>
      .lparen :: texts.instruction (.if_ blockType) ++ write clause
        (.lparen :: .keyword "then" :: write then_
          (.rparen :: .rparen :: write rest later))
  | _, .ifElse blockType clause then_ else_ rest, later =>
      .lparen :: texts.instruction (.if_ blockType) ++ write clause
        (.lparen :: .keyword "then" :: write then_
          (.rparen :: .lparen :: .keyword "else" :: write else_
            (.rparen :: .rparen :: write rest later)))

end Texts

/-- Whether an instruction begins with the keyword. -/
def Arguments.isInstruction (arguments : Arguments BlockType TryTable Row) (text : String) : Bool :=
  (blockRow text : Option (BlockType → Instruction BlockType TryTable Row)).isSome ||
    text ∈ ["else", "end", "try_table", "i32.uzumaki", "i64.uzumaki"] ||
    (arguments.row text).isSome

/-- What can stand behind the arguments of an instruction: the next one, or a parenthesis of a folded
form. -/
def EndsArguments (arguments : Arguments BlockType TryTable Row) : List Token → Prop
  | [] | .rparen :: _ => True
  | .keyword text :: _ => arguments.isInstruction text = true
  | .lparen :: .keyword text :: _ =>
      arguments.isInstruction text = true ∨ text = "then" ∨ text = "else"
  | .lparen :: Token.annotation name :: _ => name = branchHintAnnotation
  | _ => False

/-- Arguments are read as they are written. -/
structure Reads (arguments : Arguments BlockType TryTable Row)
    (texts : Texts BlockType TryTable Row) : Prop where
  blockType : ∀ blockType later, EndsArguments arguments later →
    arguments.blockType (texts.blockType blockType ++ later) = .ok (blockType, later)
  tryTable : ∀ tryTable later, EndsArguments arguments later →
    arguments.tryTable (texts.tryTable tryTable ++ later) = .ok (tryTable, later)
  row : ∀ row, ∃ read, arguments.row (texts.keyword row) = some read ∧
    ∀ later, EndsArguments arguments later → read (texts.arguments row ++ later) = .ok (row, later)
  keyword : ∀ row, texts.keyword row ∉ ["block", "if", "loop", "forall", "exists", "assume",
    "unique", "else", "end", "try_table", "i32.uzumaki", "i64.uzumaki", "then"]

end Inference.Wat.Expr
