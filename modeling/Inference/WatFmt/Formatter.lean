import Mathlib.Data.List.TakeDrop
import Mathlib.Data.List.DropRight

/-! # The formatter of WebAssembly texts

The formatter reads a text as tokens, the tokens as nodes, and prints the nodes with
indentation.
-/

namespace Inference.WatFmt

abbrev Text := List Char

/-! ## Tokens -/

inductive Token where
  | lParen
  | rParen
  | atom (text : Text)
deriving DecidableEq, Repr

/-- The characters with the Unicode property White_Space. -/
def isWhitespace (c : Char) : Bool :=
  (0x09 ≤ c.toNat && c.toNat ≤ 0x0D) || (0x2000 ≤ c.toNat && c.toNat ≤ 0x200A) ||
    c.toNat ∈ [0x20, 0x85, 0xA0, 0x1680, 0x2028, 0x2029, 0x202F, 0x205F, 0x3000]

/-- Whether an atom that is no string ends in front of the character. -/
def endsAtom (next : Char) : Bool :=
  isWhitespace next || next = '(' || next = ')'

/-- The rest of a string up to the closing quote, and what follows. -/
def readString : Text → Text × Text
  | [] => ([], [])
  | next :: rest =>
      if next = '"' then ([next], rest)
      else (next :: (readString rest).1, (readString rest).2)

theorem readString_length (input : Text) : (readString input).2.length ≤ input.length := by
  induction input with
  | nil => exact Nat.le_refl _
  | cons next rest induction =>
      rw [readString]
      split
      · exact Nat.le_succ _
      · exact Nat.le_succ_of_le induction

def tokenize : Text → List Token
  | [] => []
  | c :: rest =>
      if isWhitespace c then tokenize rest
      else if c = '(' then .lParen :: tokenize rest
      else if c = ')' then .rParen :: tokenize rest
      else if c = '"' then
        .atom (c :: (readString rest).1) :: tokenize (readString rest).2
      else
        .atom (c :: rest.takeWhile (!endsAtom ·)) :: tokenize (rest.dropWhile (!endsAtom ·))
termination_by input => input.length
decreasing_by
  · exact Nat.lt_succ_self _
  · exact Nat.lt_succ_self _
  · exact Nat.lt_succ_self _
  · exact Nat.lt_succ_of_le (readString_length rest)
  · exact Nat.lt_succ_of_le (List.dropWhile_suffix _).length_le

/-! ## Nodes -/

inductive Node where
  | atom (text : Text)
  | list (children : List Node)

mutual

/-- Reads a node; `steps` bounds the depth of the recursion. -/
def parseNode : Nat → List Token → Node × List Token
  | 0, tokens => (.atom [], tokens)
  | _ + 1, [] => (.atom [], [])
  | steps + 1, .lParen :: rest =>
      (.list (parseChildren steps rest).1, (parseChildren steps rest).2)
  | _ + 1, .rParen :: rest => (.atom [')'], rest)
  | _ + 1, .atom s :: rest => (.atom s, rest)

/-- Reads the nodes of a list and its closing parenthesis. -/
def parseChildren : Nat → List Token → List Node × List Token
  | 0, tokens => ([], tokens)
  | _ + 1, [] => ([], [])
  | _ + 1, .rParen :: rest => ([], rest)
  | steps + 1, tokens =>
      let (child, behind) := parseNode steps tokens
      let (children, rest) := parseChildren steps behind
      (child :: children, rest)

end

def parseAllFrom : Nat → List Token → List Node
  | 0, _ => []
  | _ + 1, [] => []
  | steps + 1, tokens =>
      let (node, rest) := parseNode steps tokens
      node :: parseAllFrom steps rest

/-- Every node takes a token, so that the steps are enough. -/
def parseAll (tokens : List Token) : List Node :=
  parseAllFrom (2 * tokens.length + 1) tokens

/-! ## Printing on a line -/

def indentStr (indent : Nat) : Text :=
  (List.replicate indent [' ', ' ']).flatten

mutual

def isFlatNode : Node → Bool
  | .atom _ => true
  | .list children => isFlatList children

def isFlatList : List Node → Bool
  | [] => true
  | node :: rest => isFlatNode node && isFlatList rest

end

mutual

def formatNodeInline : Node → Text
  | .atom s => s
  | .list children => '(' :: (formatChildrenInline true children ++ [')'])

def formatChildrenInline (first : Bool) : List Node → Text
  | [] => []
  | child :: rest =>
      (if first then [] else [' ']) ++ formatNodeInline child ++ formatChildrenInline false rest

end

def Node.isKeyword (keyword : String) : Node → Bool
  | .atom s => s = keyword.toList
  | .list _ => false

def isInlineSignature : Node → Bool
  | .list (first :: _) => ["export", "param", "result"].any first.isKeyword
  | .list [] | .atom _ => false

def isAsciiDigit (c : Char) : Bool :=
  '0' ≤ c && c ≤ '9'

/-- Whether a token looks like an opcode and not like a parameter or a literal. -/
def isOpcode (token : Text) : Bool :=
  match token with
  | [] => true
  | first :: rest =>
      if first = '$' || first = '"' then false
      else if (first = '-' || first = '+') && rest.all isAsciiDigit then false
      else if isAsciiDigit first && token.all isAsciiDigit then false
      else true

/-! ## Printing with indentation -/

/-- What follows an opcode on its line. -/
def isArgument : Node → Bool
  | .atom next => !(isOpcode next || next = "if".toList || next = "else".toList ||
      next = "end".toList)
  | .list _ => false

/-- What follows `func` on its line. -/
def inSignature : Node → Bool
  | .atom tok => !isOpcode tok
  | .list children => isInlineSignature (.list children)

def argumentsText (arguments : List Node) : Text :=
  arguments.flatMap fun node => ' ' :: formatNodeInline node

def lineStart (indent : Nat) : Text :=
  '\n' :: indentStr indent

theorem sizeOf_dropWhile (p : Node → Bool) (nodes : List Node) :
    sizeOf (nodes.dropWhile p) ≤ sizeOf nodes := by
  induction nodes with
  | nil => exact Nat.le_refl _
  | cons node rest induction =>
      rw [List.dropWhile_cons]
      split
      · simp only [List.cons.sizeOf_spec]
        omega
      · exact Nat.le_refl _

/-! The printers below recurse on these parts of a node. -/

theorem sizeOf_behindAtom (token : Text) (rest : List Node) :
    sizeOf rest < sizeOf (Node.atom token :: rest) := by
  simp only [List.cons.sizeOf_spec]
  omega

theorem sizeOf_behindArguments (token : Text) (rest : List Node) :
    sizeOf (rest.dropWhile isArgument) < sizeOf (Node.atom token :: rest) :=
  lt_of_le_of_lt (sizeOf_dropWhile isArgument rest) (sizeOf_behindAtom token rest)

theorem sizeOf_front (node : Node) (rest : List Node) : sizeOf node < sizeOf (node :: rest) := by
  simp only [List.cons.sizeOf_spec]
  omega

theorem sizeOf_frontList (children rest : List Node) :
    sizeOf (Node.list children) < sizeOf (Node.list children :: rest) :=
  sizeOf_front (.list children) rest

theorem sizeOf_behind (node : Node) (rest : List Node) : sizeOf rest < sizeOf (node :: rest) := by
  simp only [List.cons.sizeOf_spec]
  omega

theorem sizeOf_behindList (children rest : List Node) :
    sizeOf rest < sizeOf (Node.list children :: rest) :=
  sizeOf_behind (.list children) rest

theorem sizeOf_first (first : Node) (rest : List Node) :
    sizeOf first < sizeOf (Node.list (first :: rest)) := by
  simp only [Node.list.sizeOf_spec, List.cons.sizeOf_spec]
  omega

theorem sizeOf_others (first : Node) (rest : List Node) :
    sizeOf rest < sizeOf (Node.list (first :: rest)) := by
  simp only [Node.list.sizeOf_spec, List.cons.sizeOf_spec]
  omega

theorem sizeOf_behindSignature (first : Node) (rest : List Node) :
    sizeOf (rest.dropWhile inSignature) < sizeOf (Node.list (first :: rest)) :=
  lt_of_le_of_lt (sizeOf_dropWhile inSignature rest) (sizeOf_others first rest)

mutual

/-- Prints the nodes of a body; `none` stands for the underflow of the indentation. -/
def formatInstructions : List Node → Nat → Option Text
  | [], _ => some []
  | .atom token :: rest, current =>
      if token = "if".toList then
        (formatInstructions rest (current + 1)).map (lineStart current ++ "if".toList ++ ·)
      else if token = "else".toList then
        if current = 0 then none
        else (formatInstructions rest current).map (lineStart (current - 1) ++ "else".toList ++ ·)
      else if token = "end".toList then
        (formatInstructions rest (current - 1)).map (lineStart (current - 1) ++ "end".toList ++ ·)
      else if isOpcode token then
        (formatInstructions (rest.dropWhile isArgument) current).map
          (lineStart current ++ token ++ argumentsText (rest.takeWhile isArgument) ++ ·)
      else
        (formatInstructions rest current).map (lineStart current ++ token ++ ·)
  | .list children :: rest, current => do
      let node ← formatNode (.list children) current
      let behind ← formatInstructions rest current
      some (lineStart current ++ node ++ behind)
termination_by nodes => sizeOf nodes
decreasing_by
  · exact sizeOf_behindAtom token rest
  · exact sizeOf_behindAtom token rest
  · exact sizeOf_behindAtom token rest
  · exact sizeOf_behindArguments token rest
  · exact sizeOf_behindAtom token rest
  · exact sizeOf_frontList children rest
  · exact sizeOf_behindList children rest

def formatNode : Node → Nat → Option Text
  | .atom s, _ => some s
  | .list [], _ => some "()".toList
  | .list (first :: rest), indent =>
      if first.isKeyword "module" then
        (formatLines rest (indent + 1)).map fun lines =>
          "(module".toList ++ lines ++ lineStart indent ++ [')']
      else if first.isKeyword "func" then
        (formatInstructions (rest.dropWhile inSignature) (indent + 1)).map fun body =>
          '(' :: formatNodeInline first ++ argumentsText (rest.takeWhile inSignature) ++ body ++
            lineStart indent ++ [')']
      else if ["forall", "exists", "assume", "unique"].any first.isKeyword then
        (formatInstructions rest (indent + 1)).map fun body =>
          '(' :: formatNodeInline first ++ body ++ lineStart indent ++ [')']
      else if isFlatList (first :: rest) then
        some (formatNodeInline (.list (first :: rest)))
      else do
        let head ← formatNode first (indent + 1)
        let lines ← formatLines rest (indent + 1)
        some ('(' :: head ++ lines ++ lineStart indent ++ [')'])
termination_by node => sizeOf node
decreasing_by
  · exact sizeOf_others first rest
  · exact sizeOf_behindSignature first rest
  · exact sizeOf_others first rest
  · exact sizeOf_first first rest
  · exact sizeOf_others first rest

/-- Prints nodes on lines of their own. -/
def formatLines : List Node → Nat → Option Text
  | [], _ => some []
  | node :: rest, indent => do
      let text ← formatNode node indent
      let lines ← formatLines rest indent
      some (lineStart indent ++ text ++ lines)
termination_by nodes => sizeOf nodes
decreasing_by
  · exact sizeOf_front node rest
  · exact sizeOf_behind node rest

end

/-- Prints nodes that are no single module, each with a line break behind it. -/
def formatAll : List Node → Option Text
  | [] => some []
  | node :: rest => do
      let text ← formatNode node 0
      let behind ← formatAll rest
      some (text ++ ['\n'] ++ behind)

def format (input : Text) : Option Text :=
  match parseAll (tokenize input) with
  | [node] => formatNode node 0
  | nodes => formatAll nodes

end Inference.WatFmt
