import Mathlib.Logic.Relation
import Inference.Ast.Arena
import Inference.Foundation.ByteText

/-! # Concrete syntax trees

The trees that the parser hands to the builder. A node tells its kind, the field it fills in its
parent, and its bytes and positions in the source text.
-/

namespace Inference.Ast

open Inference.Foundation

structure Point where
  row : Nat
  column : Nat
deriving DecidableEq, Repr

structure SyntaxNode where
  kind : String
  field : Option String := none
  isNamed : Bool := true
  isError : Bool := false
  startByte : Nat
  endByte : Nat
  startPosition : Point := ⟨0, 0⟩
  endPosition : Point := ⟨0, 0⟩
  children : List SyntaxNode := []

variable {found : SyntaxNode}

namespace SyntaxNode

variable (node : SyntaxNode)

def child (index : Nat) : Option SyntaxNode :=
  node.children[index]?

def namedChildren : List SyntaxNode :=
  node.children.filter (·.isNamed)

def namedChild (index : Nat) : Option SyntaxNode :=
  node.namedChildren[index]?

def childrenByFieldName (field : String) : List SyntaxNode :=
  node.children.filter (·.field = some field)

def childByFieldName (field : String) : Option SyntaxNode :=
  node.children.find? (·.field = some field)

/-- The text of the node in its source. -/
def utf8Text (code : Text) : Option Text :=
  ByteText.slice code node.startByte node.endByte

/-- The node is in the tree below the root, or the root itself. -/
def In (node root : SyntaxNode) : Prop :=
  Relation.ReflTransGen (fun parent child => child ∈ parent.children) root node

variable {node}

theorem child_mem {index : Nat} (isChild : node.child index = some found) :
    found ∈ node.children :=
  List.mem_of_getElem? isChild

theorem mem_namedChildren (isChild : found ∈ node.namedChildren) :
    found ∈ node.children :=
  (List.mem_filter.mp isChild).1

theorem namedChild_mem {index : Nat}
    (isChild : node.namedChild index = some found) : found ∈ node.children :=
  mem_namedChildren (List.mem_of_getElem? isChild)

theorem mem_childrenByFieldName {field : String}
    (isChild : found ∈ node.childrenByFieldName field) : found ∈ node.children :=
  (List.mem_filter.mp isChild).1

theorem childByFieldName_mem {field : String}
    (isChild : node.childByFieldName field = some found) : found ∈ node.children :=
  List.mem_of_find?_eq_some isChild

theorem In.refl (root : SyntaxNode) : root.In root :=
  Relation.ReflTransGen.refl

theorem In.of_mem {root : SyntaxNode} (isChild : found ∈ root.children) : found.In root :=
  .single isChild

theorem In.trans {inner middle outer : SyntaxNode} (innerIn : inner.In middle)
    (middleIn : middle.In outer) : inner.In outer :=
  Relation.ReflTransGen.trans middleIn innerIn

end SyntaxNode

/-- What the parser promises of a tree and its text: the bytes of the root are bytes of the text,
those of a child are among those of its parent, and no node begins or ends inside a character. -/
structure Parses (code : Text) (root : SyntaxNode) : Prop where
  ordered : root.startByte ≤ root.endByte
  covered : root.endByte ≤ ByteText.size code
  nested : ∀ parent child : SyntaxNode, parent.In root → child ∈ parent.children →
    parent.startByte ≤ child.startByte ∧ child.startByte ≤ child.endByte ∧
      child.endByte ≤ parent.endByte
  edges : ∀ node : SyntaxNode, node.In root →
    ByteText.Edge code node.startByte ∧ ByteText.Edge code node.endByte

namespace Parses

variable {code : Text} {root : SyntaxNode}

open SyntaxNode

theorem within (parses : Parses code root) {inner outer : SyntaxNode} (outerIn : outer.In root)
    (innerIn : inner.In outer) (ordered : outer.startByte ≤ outer.endByte) :
    outer.startByte ≤ inner.startByte ∧ inner.startByte ≤ inner.endByte ∧
      inner.endByte ≤ outer.endByte := by
  induction innerIn with
  | refl => exact ⟨le_rfl, ordered, le_rfl⟩
  | @tail parent child parentIn isChild induction =>
      have inParent := parses.nested parent child (In.trans parentIn outerIn) isChild
      exact ⟨induction.1.trans inParent.1, inParent.2.1, inParent.2.2.trans induction.2.2⟩

theorem ordered_of_in (parses : Parses code root) {node : SyntaxNode} (nodeIn : node.In root) :
    node.startByte ≤ node.endByte :=
  (parses.within (.refl root) nodeIn parses.ordered).2.1

theorem endByte_le (parses : Parses code root) {node : SyntaxNode} (nodeIn : node.In root) :
    node.endByte ≤ ByteText.size code :=
  (parses.within (.refl root) nodeIn parses.ordered).2.2.trans parses.covered

theorem exists_utf8Text (parses : Parses code root) {node : SyntaxNode} (nodeIn : node.In root) :
    ∃ text, node.utf8Text code = some text :=
  ByteText.exists_slice (parses.edges node nodeIn).1 (parses.edges node nodeIn).2
    (parses.ordered_of_in nodeIn)

theorem of_children (ordered : root.startByte ≤ root.endByte)
    (covered : root.endByte ≤ ByteText.size code)
    (edges : ByteText.Edge code root.startByte ∧ ByteText.Edge code root.endByte)
    (children : ∀ child ∈ root.children, Parses code child ∧ root.startByte ≤ child.startByte ∧
      child.endByte ≤ root.endByte) : Parses code root where
  ordered := ordered
  covered := covered
  nested parent child parentIn isChild := by
    rcases Relation.ReflTransGen.cases_head parentIn with rfl | ⟨between, isBetween, below⟩
    · rcases children child isChild with ⟨parses, starts, stops⟩
      exact ⟨starts, parses.ordered, stops⟩
    · exact (children between isBetween).1.nested parent child below isChild
  edges node nodeIn := by
    rcases Relation.ReflTransGen.cases_head nodeIn with rfl | ⟨between, isBetween, below⟩
    · exact edges
    · exact (children between isBetween).1.edges node below

/-- A tree whose children have no children of their own. -/
theorem of_leaves (ordered : root.startByte ≤ root.endByte)
    (covered : root.endByte ≤ ByteText.size code)
    (leaves : ∀ child ∈ root.children, child.children = [])
    (nested : ∀ child ∈ root.children, root.startByte ≤ child.startByte ∧
      child.startByte ≤ child.endByte ∧ child.endByte ≤ root.endByte)
    (edges : ∀ node ∈ root :: root.children, (ByteText.split code node.startByte).isSome ∧
      (ByteText.split code node.endByte).isSome) : Parses code root := by
  simp only [← ByteText.edge_iff] at edges
  refine .of_children ordered covered (edges root List.mem_cons_self) fun child isChild => ?_
  rcases nested child isChild with ⟨starts, childOrdered, stops⟩
  refine ⟨.of_children childOrdered (stops.trans covered)
    (edges child (List.mem_cons_of_mem _ isChild)) fun inner isInner => ?_, starts, stops⟩
  rw [leaves child isChild] at isInner
  cases isInner

/-- The text of a node is a part of the text of every node it is below. -/
theorem utf8Text_slice (parses : Parses code root) {inner outer : SyntaxNode} {innerText outerText : Text}
    (outerIn : outer.In root) (innerIn : inner.In outer)
    (innerFound : inner.utf8Text code = some innerText)
    (outerFound : outer.utf8Text code = some outerText) :
    ByteText.slice outerText (inner.startByte - outer.startByte)
      (inner.endByte - outer.startByte) = some innerText := by
  have nested := parses.within outerIn innerIn (parses.ordered_of_in outerIn)
  exact ByteText.slice_slice outerFound innerFound nested.1 nested.2.2

end Parses

end Inference.Ast
