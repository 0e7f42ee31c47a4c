import Inference.Ast.SyntaxTree
import Inference.Foundation.Collecting

/-! # What the builders share

A builder takes ids from a counter, stores nodes in the arena and collects errors. A panic stops it.
For every stored node the state also keeps the node of the concrete tree it was built for, which no
builder reads. What no modelled pass reads of a node is not built: the mutability of parameters, the
mark of undefined variables, the file that a directive loads and the visibility of constants and
types.
-/

namespace Inference.Ast

open Inference.Foundation

/-- The node of the concrete tree that a stored node was built for, and the text it is in. -/
structure Origin where
  code : Text
  node : SyntaxNode

structure BuilderState where
  arena : Arena := {}
  nextId : Nat
  origins : Nat → Option Origin := fun _ => none

abbrev Building (result : Type) : Type :=
  Collecting BuilderState String result

namespace Builder

open Collecting

/-- The counter wraps around. -/
def getNodeId : Building Nat := do
  let id ← read (·.nextId)
  update fun state => { state with nextId := (state.nextId + 1) % 2 ^ 32 }
  return id

def getLocation (node : SyntaxNode) : Location where
  offsetStart := node.startByte % 2 ^ 32
  offsetEnd := node.endByte % 2 ^ 32
  startLine := (node.startPosition.row + 1) % 2 ^ 32
  startColumn := (node.startPosition.column + 1) % 2 ^ 32
  endLine := (node.endPosition.row + 1) % 2 ^ 32
  endColumn := (node.endPosition.column + 1) % 2 ^ 32

/-- The error for an `ERROR` child. -/
def collectError (code : Text) (child : SyntaxNode) : Building Unit := do
  let location := getLocation child
  let sourceSnippet ← expect (ByteText.sliceLossy code location.offsetStart location.offsetEnd)
  report (s!"Parse error: invalid syntax at line {location.startLine}:{location.startColumn} near '"
    ++ String.ofList (sourceSnippet.take 30) ++ "'")

def collectErrors (node : SyntaxNode) (code : Text) : Building Unit :=
  (node.children.filter (·.isError)).forM (collectError code)

/-- Adds the node that was built for `origin` to the arena. -/
def addNode (stored : AstNode) (parentId : Nat) (origin : Origin) : Building Unit := do
  let arena ← read (·.arena)
  let added ← expect (arena.addNode stored parentId)
  update fun state => {
    state with
    arena := added
    origins := Function.update state.origins stored.id (some origin) }

/-- Reports a problem at a node. -/
def reportAt (problem : String) (node : SyntaxNode) : Building Unit :=
  report (problem ++ " at " ++ (getLocation node).toString)

/-- How almost all nodes are built: the errors of the children are collected, an id is taken, the
parts are built below it, and the node is stored. -/
def buildNode {built : Type} (stored : built → AstNode) (parentId : Nat) (node : SyntaxNode)
    (code : Text) (parts : Node → Building built) : Building built := do
  collectErrors node code
  let id ← getNodeId
  let location := getLocation node
  let value ← parts { id, location }
  addNode (stored value) parentId ⟨code, node⟩
  return value

/-- A list that is left out when it is empty. -/
def nonEmpty {item : Type} (items : List item) : Option (List item) :=
  if items.isEmpty then none else some items

/-- Builds a field that has to be there. -/
def buildField {built : Type} (node : SyntaxNode) (field : String)
    (build : SyntaxNode → Building built) : Building built := do
  let child ← expect (node.childByFieldName field)
  build child

/-- Builds a field that may be left out. -/
def buildOptional {built : Type} (node : SyntaxNode) (field : String)
    (build : SyntaxNode → Building built) : Building (Option built) :=
  match node.childByFieldName field with
  | some child => do return some (← build child)
  | none => return none

/-- Builds all children with a field. -/
def buildFields {built : Type} (node : SyntaxNode) (field : String)
    (build : SyntaxNode → Building built) : Building (List built) :=
  (node.childrenByFieldName field).mapM' build

end Builder

end Inference.Ast
