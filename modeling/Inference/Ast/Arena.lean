import Mathlib.Logic.Function.Basic
import Inference.Ast.Nodes
import Inference.Foundation.Worklist

/-! # The arena

Every node of the syntax tree is stored under its id, with the id of the node it belongs to. A root
has no parent. `getChildrenCmp` looks for nodes below a node with a worklist.
-/

namespace Inference.Ast

open Worklist

/-! ## Stored nodes -/

abbrev Text := List Char

/-- A source file as it is stored, with its text. -/
structure SourceFileNode extends Node where
  source : Text
  file : SourceFile

def BlockType.node : BlockType → Node
  | .mk _ node _ => node

def Statement.id : Statement → Nat
  | .block inner => inner.node.id
  | .expression inner => inner.id
  | .assign node _ _ | .return_ node _ | .loop node _ _ | .break_ node => node.id
  | .if_ node _ _ _ | .variableDefinition node _ _ _ | .typeDefinition node _ _ => node.id
  | .assert node _ => node.id
  | .constantDefinition inner => inner.id

def Statement.location : Statement → Location
  | .block inner => inner.node.location
  | .expression inner => inner.location
  | .assign node _ _ | .return_ node _ | .loop node _ _ | .break_ node => node.location
  | .if_ node _ _ _ | .variableDefinition node _ _ _ => node.location
  | .typeDefinition node _ _ | .assert node _ => node.location
  | .constantDefinition inner => inner.location

def ArgumentType.id : ArgumentType → Nat
  | .selfReference node | .ignoreArgument node _ | .argument node _ _ => node.id
  | .type_ type => type.id

def ArgumentType.location : ArgumentType → Location
  | .selfReference node | .ignoreArgument node _ | .argument node _ _ => node.location
  | .type_ type => type.location

def Definition.id : Definition → Nat
  | .spec node _ _ | .module_ node _ _ => node.id
  | .struct_ definition => definition.id
  | .enum definition => definition.id
  | .constant definition => definition.id
  | .function definition => definition.id
  | .externalFunction definition => definition.id
  | .type_ definition => definition.id

def Definition.location : Definition → Location
  | .spec node _ _ | .module_ node _ _ => node.location
  | .struct_ definition => definition.location
  | .enum definition => definition.location
  | .constant definition => definition.location
  | .function definition => definition.location
  | .externalFunction definition => definition.location
  | .type_ definition => definition.location

inductive AstNode where
  | sourceFile (file : SourceFileNode)
  | directive (directive : UseDirective)
  | definition (definition : Definition)
  | blockType (block : BlockType)
  | statement (statement : Statement)
  | expression (expression : Expression)
  | literal (literal : Literal)
  | type_ (type : Type_)
  | argumentType (argumentType : ArgumentType)
  | misc (field : StructField)

def AstNode.id : AstNode → Nat
  | .sourceFile stored => stored.id
  | .directive stored => stored.id
  | .definition stored => stored.id
  | .blockType stored => stored.node.id
  | .statement stored => stored.id
  | .expression stored => stored.id
  | .literal stored => stored.id
  | .type_ stored => stored.id
  | .argumentType stored => stored.id
  | .misc stored => stored.id

def AstNode.location : AstNode → Location
  | .sourceFile stored => stored.location
  | .directive stored => stored.location
  | .definition stored => stored.location
  | .blockType stored => stored.node.location
  | .statement stored => stored.location
  | .expression stored => stored.location
  | .literal stored => stored.location
  | .type_ stored => stored.location
  | .argumentType stored => stored.location
  | .misc stored => stored.location

structure Arena where
  nodes : Nat → Option AstNode := fun _ => none
  parentMap : Nat → Option Nat := fun _ => none
  childrenMap : Nat → Option (List Nat) := fun _ => none

variable {arena : Arena} {comparator : AstNode → Bool}

namespace Arena

/-- Stores a node. `noId` as the parent is that of a root. Nothing is returned for the panics: an id
that is zero or that is used already. -/
def addNode (arena : Arena) (node : AstNode) (parentId : Nat) : Option Arena :=
  if node.id = 0 then none
  else if (arena.nodes node.id).isSome then none
  else if parentId = noId then
    some { arena with nodes := Function.update arena.nodes node.id (some node) }
  else
    some {
      nodes := Function.update arena.nodes node.id (some node)
      parentMap := Function.update arena.parentMap node.id (some parentId)
      childrenMap := Function.update arena.childrenMap parentId
        (some ((arena.childrenMap parentId).getD [] ++ [node.id])) }

def findNode (arena : Arena) (id : Nat) : Option AstNode :=
  arena.nodes id

/-- The stored children of a node. -/
def listNodesChildren (arena : Arena) (id : Nat) : List AstNode :=
  match arena.childrenMap id with
  | some children => children.filterMap arena.nodes
  | none => []

/-- What is put onto the stack for a node, the top first. -/
def matchingChildren (arena : Arena) (comparator : AstNode → Bool) (node : AstNode) :
    List AstNode :=
  ((arena.listNodesChildren node.id).filter comparator).reverse

/-- Nothing is returned when the loop takes more steps. -/
def getChildrenCmp (steps : Nat) (arena : Arena) (id : Nat) (comparator : AstNode → Bool) :
    Option (List AstNode) :=
  search (arena.matchingChildren comparator) comparator steps (arena.findNode id).toList []

/-! ## Well-formed arenas -/

def IsChild (arena : Arena) (parent child : Nat) : Prop :=
  ∃ children, arena.childrenMap parent = some children ∧ child ∈ children

/-- The nodes are stored under their own ids and are a forest: parents and children are stored, a
child has one parent and is listed once, and no node is below itself. -/
structure WellFormed (arena : Arena) : Prop where
  keyed : ∀ id node, arena.nodes id = some node → node.id = id
  childStored : ∀ parent child, arena.IsChild parent child → ∃ node, arena.nodes child = some node
  parentStored : ∀ parent child, arena.IsChild parent child →
    ∃ node, arena.nodes parent = some node
  parent_iff : ∀ parent child, arena.IsChild parent child ↔ arena.parentMap child = some parent
  listedOnce : ∀ parent children, arena.childrenMap parent = some children → children.Nodup
  forest : WellFounded fun child parent => arena.IsChild parent child

/-- The node is the root of the subtree or below it. -/
def Below (arena : Arena) (root id : Nat) : Prop :=
  Relation.ReflTransGen arena.IsChild root id

theorem WellFormed.one_parent (wellFormed : arena.WellFormed)
    {first second child : Nat} (isFirst : arena.IsChild first child)
    (isSecond : arena.IsChild second child) : first = second :=
  Option.some.inj (((wellFormed.parent_iff first child).mp isFirst).symm.trans
    ((wellFormed.parent_iff second child).mp isSecond))

theorem WellFormed.mem_listNodesChildren (wellFormed : arena.WellFormed)
    {id : Nat} {child : AstNode} :
    child ∈ arena.listNodesChildren id ↔
      arena.IsChild id child.id ∧ arena.nodes child.id = some child := by
  rw [listNodesChildren, IsChild]
  cases found : arena.childrenMap id with
  | none => simp
  | some children =>
      simp only [List.mem_filterMap, Option.some.injEq, exists_eq_left']
      constructor
      · rintro ⟨childId, listed, stored⟩
        have own := wellFormed.keyed childId child stored
        exact ⟨own ▸ listed, own ▸ stored⟩
      · rintro ⟨listed, stored⟩
        exact ⟨child.id, listed, stored⟩

theorem WellFormed.mem_matchingChildren (wellFormed : arena.WellFormed)
    {node child : AstNode} :
    child ∈ arena.matchingChildren comparator node ↔
      arena.IsChild node.id child.id ∧ arena.nodes child.id = some child ∧
        comparator child = true := by
  rw [matchingChildren, List.mem_reverse, List.mem_filter, wellFormed.mem_listNodesChildren,
    and_assoc]

theorem WellFormed.matchingChildren_nodup (wellFormed : arena.WellFormed)
    (comparator : AstNode → Bool) (node : AstNode) :
    (arena.matchingChildren comparator node).Nodup := by
  refine List.nodup_reverse.mpr (List.Nodup.filter _ ?_)
  rw [listNodesChildren]
  cases found : arena.childrenMap node.id with
  | none => exact List.nodup_nil
  | some children =>
      refine List.Nodup.filterMap ?_ (wellFormed.listedOnce node.id children found)
      intro first second child isFirst isSecond
      exact (wellFormed.keyed first child isFirst).symm.trans
        (wellFormed.keyed second child isSecond)

/-- Every node on the way from the root to a node matches, the root itself apart. -/
def AllMatch (arena : Arena) (comparator : AstNode → Bool) (root id : Nat) : Prop :=
  ∀ between, Relation.TransGen arena.IsChild root between → arena.Below between id →
    ∃ node, arena.nodes between = some node ∧ comparator node = true

theorem WellFormed.leads_iff (wellFormed : arena.WellFormed)
    {root node : AstNode} (rootStored : arena.nodes root.id = some root) :
    Leads (arena.matchingChildren comparator) root node ↔
      arena.nodes node.id = some node ∧ arena.Below root.id node.id ∧
        arena.AllMatch comparator root.id node.id := by
  constructor
  · intro leads
    induction leads with
    | refl =>
        refine ⟨rootStored, .refl, fun between below above => ?_⟩
        exact absurd (below.trans_left above)
          fun circle => wellFormed.forest.transGen.irrefl.irrefl root.id
            (Relation.transGen_swap.mp circle)
    | @tail parent child _ step induction =>
        rcases wellFormed.mem_matchingChildren.mp step with ⟨isChild, stored, isMatch⟩
        refine ⟨stored, induction.2.1.tail isChild, fun between below above => ?_⟩
        rcases Relation.ReflTransGen.cases_tail above with same | ⟨before, upTo, last⟩
        · exact ⟨child, same ▸ stored, isMatch⟩
        · have same := wellFormed.one_parent last isChild
          exact induction.2.2 between below (same ▸ upTo)
  · intro ⟨stored, below, allMatch⟩
    generalize isId : node.id = id at stored below allMatch
    induction below generalizing node with
    | refl =>
        rw [Option.some.inj (stored.symm.trans rootStored)]
        exact .refl
    | @tail parent child above isChild induction =>
        rcases wellFormed.parentStored parent child isChild with ⟨parentNode, parentStored⟩
        have leads := induction (wellFormed.keyed parent parentNode parentStored) parentStored
          fun between below upTo => allMatch between below (upTo.tail isChild)
        rcases allMatch child (.tail' above isChild) .refl with ⟨other, otherStored, isMatch⟩
        cases Option.some.inj (stored.symm.trans otherStored)
        refine leads.tail (wellFormed.mem_matchingChildren.mpr ⟨?_, isId ▸ stored, isMatch⟩)
        rwa [wellFormed.keyed parent parentNode parentStored, isId]

theorem WellFormed.matching_wellFounded (wellFormed : arena.WellFormed)
    (comparator : AstNode → Bool) :
    WellFounded fun there here => there ∈ arena.matchingChildren comparator here :=
  Subrelation.wf (fun member => (wellFormed.mem_matchingChildren.mp member).1)
    (InvImage.wf AstNode.id wellFormed.forest)

theorem WellFormed.oneWay (wellFormed : arena.WellFormed)
    {root : AstNode} (rootStored : arena.nodes root.id = some root)
    (here other there : AstNode) (leads : Leads (arena.matchingChildren comparator) root here)
    (leadsOther : Leads (arena.matchingChildren comparator) root other)
    (next : there ∈ arena.matchingChildren comparator here)
    (nextOther : there ∈ arena.matchingChildren comparator other) : here = other := by
  have stored := ((wellFormed.leads_iff rootStored).mp leads).1
  have otherStored := ((wellFormed.leads_iff rootStored).mp leadsOther).1
  have same := wellFormed.one_parent (wellFormed.mem_matchingChildren.mp next).1
    (wellFormed.mem_matchingChildren.mp nextOther).1
  exact Option.some.inj (stored.symm.trans (same ▸ otherStored))

/-! ## What is found -/

/-- What is returned: the nodes that are reached over matching ones, each of them once. -/
theorem WellFormed.getChildrenCmp_mem (wellFormed : arena.WellFormed)
    {steps id : Nat} {result : List AstNode}
    (returned : arena.getChildrenCmp steps id comparator = some result) :
    (result.map AstNode.id).Nodup ∧
      ∀ node, node ∈ result ↔ comparator node = true ∧ arena.nodes node.id = some node ∧
        arena.Below id node.id ∧ arena.AllMatch comparator id node.id := by
  rcases finds_of_search returned with ⟨_, rfl, finds⟩
  cases stored : arena.findNode id with
  | none =>
      rw [stored] at finds
      cases finds
      refine ⟨List.nodup_nil, fun node => iff_of_false List.not_mem_nil ?_⟩
      intro ⟨_, nodeStored, below, _⟩
      rcases Relation.ReflTransGen.cases_head below with same | ⟨child, isChild, _⟩
      · cases stored.symm.trans (same ▸ nodeStored)
      · rcases wellFormed.parentStored id child isChild with ⟨parent, parentStored⟩
        cases stored.symm.trans parentStored
  | some root =>
      rw [stored] at finds
      have isId := wellFormed.keyed id root stored
      have rootStored : arena.nodes root.id = some root := isId.symm ▸ stored
      have members : ∀ node, node ∈ result ↔ comparator node = true ∧
          arena.nodes node.id = some node ∧ arena.Below id node.id ∧
            arena.AllMatch comparator id node.id := by
        intro node
        rw [finds.mem_iff, ← isId, ← wellFormed.leads_iff rootStored]
        simp
      refine ⟨?_, members⟩
      have nodup : result.Nodup := by
        refine finds.nodup (wellFormed.matching_wellFounded comparator)
          (wellFormed.oneWay rootStored)
          (fun here _ => wellFormed.matchingChildren_nodup comparator here) ?_
          (List.pairwise_singleton _ _)
        intro start member
        rw [List.mem_singleton.mp member]
        exact .refl
      refine List.Nodup.map_on ?_ nodup
      intro first isFirst second isSecond same
      have firstStored := ((members first).mp isFirst).2.1
      have secondStored := ((members second).mp isSecond).2.1
      exact Option.some.inj (firstStored.symm.trans (same ▸ secondStored))

theorem WellFormed.getChildrenCmp_returns (wellFormed : arena.WellFormed)
    (id : Nat) (comparator : AstNode → Bool) :
    ∃ steps result, arena.getChildrenCmp steps id comparator = some result := by
  rw [show (∃ steps result, arena.getChildrenCmp steps id comparator = some result) ↔
    ∃ steps result, search (arena.matchingChildren comparator) comparator steps
      (arena.findNode id).toList [] = some result from Iff.rfl]
  cases arena.findNode id with
  | none => exact ⟨0, [], rfl⟩
  | some root =>
      rcases @exists_finds _ _ comparator (wellFormed.matching_wellFounded comparator) root
        with ⟨found, finds⟩
      rcases finds.search_eq [] with ⟨enough, searched⟩
      exact ⟨enough, _, searched enough le_rfl⟩

/-- The search ends, and returns the matching nodes of the subtree, each of them once. -/
def FindsSubtree (arena : Arena) (id : Nat) (comparator : AstNode → Bool) : Prop :=
  (∃ steps result, arena.getChildrenCmp steps id comparator = some result) ∧
    ∀ steps result, arena.getChildrenCmp steps id comparator = some result →
      (result.map AstNode.id).Nodup ∧
        ∀ node, node ∈ result ↔ comparator node = true ∧
          ∃ below, arena.Below id below ∧ arena.nodes below = some node

/-- The whole subtree is found exactly if no matching node has one above it that does not match,
below the root. -/
theorem findsSubtree_iff {arena : Arena} (wellFormed : arena.WellFormed) (id : Nat)
    (comparator : AstNode → Bool) :
    arena.FindsSubtree id comparator ↔
      ∀ below node, arena.Below id below → arena.nodes below = some node →
        comparator node = true → ∀ between, Relation.TransGen arena.IsChild id between →
          arena.Below between below →
            ∃ above, arena.nodes between = some above ∧ comparator above = true := by
  constructor
  · intro finds below node isBelow stored isMatch
    rcases finds.1 with ⟨steps, result, returned⟩
    have member := ((finds.2 steps result returned).2 node).mpr ⟨isMatch, below, isBelow, stored⟩
    have own := wellFormed.keyed below node stored
    exact own ▸ (((wellFormed.getChildrenCmp_mem returned).2 node).mp member).2.2.2
  · intro allMatch
    refine ⟨wellFormed.getChildrenCmp_returns id comparator, fun steps result returned => ?_⟩
    rcases wellFormed.getChildrenCmp_mem returned with ⟨nodup, members⟩
    refine ⟨nodup, fun node => (members node).trans (and_congr_right fun isMatch => ?_)⟩
    constructor
    · exact fun ⟨stored, isBelow, _⟩ => ⟨node.id, isBelow, stored⟩
    · intro ⟨below, isBelow, stored⟩
      have own := wellFormed.keyed below node stored
      exact ⟨own ▸ stored, own ▸ isBelow, own ▸ allMatch below node isBelow stored isMatch⟩

/-- `return (x);` with the nodes of its expression. -/
private def returnArena : Arena where
  nodes
    | 1 => some (.statement (.return_ ⟨1, {}⟩ (.parenthesized ⟨2, {}⟩ (.identifier ⟨⟨3, {}⟩, "x"⟩))))
    | 2 => some (.expression (.parenthesized ⟨2, {}⟩ (.identifier ⟨⟨3, {}⟩, "x"⟩)))
    | 3 => some (.expression (.identifier ⟨⟨3, {}⟩, "x"⟩))
    | _ => none
  parentMap
    | 2 => some 1
    | 3 => some 2
    | _ => none
  childrenMap
    | 1 => some [2]
    | 2 => some [3]
    | _ => none

private def isIdentifier : AstNode → Bool
  | .expression (.identifier _) => true
  | _ => false

private theorem returnArena_isChild {parent child : Nat} :
    returnArena.IsChild parent child ↔ parent = 1 ∧ child = 2 ∨ parent = 2 ∧ child = 3 := by
  constructor
  · intro ⟨children, found, member⟩
    rcases parent with _ | _ | _ | _
    · cases found
    · cases found
      exact .inl ⟨rfl, List.mem_singleton.mp member⟩
    · cases found
      exact .inr ⟨rfl, List.mem_singleton.mp member⟩
    · cases found
  · intro isChild
    rcases isChild with ⟨rfl, rfl⟩ | ⟨rfl, rfl⟩
    · exact ⟨[2], rfl, List.mem_singleton_self 2⟩
    · exact ⟨[3], rfl, List.mem_singleton_self 3⟩

private theorem returnArena_wellFormed : returnArena.WellFormed where
  keyed id node stored := by
    rcases id with _ | _ | _ | _ | _ <;> cases stored <;> rfl
  childStored parent child isChild := by
    rcases returnArena_isChild.mp isChild with ⟨rfl, rfl⟩ | ⟨rfl, rfl⟩ <;> exact ⟨_, rfl⟩
  parentStored parent child isChild := by
    rcases returnArena_isChild.mp isChild with ⟨rfl, rfl⟩ | ⟨rfl, rfl⟩ <;> exact ⟨_, rfl⟩
  parent_iff parent child := by
    rw [returnArena_isChild]
    rcases child with _ | _ | _ | _ | _ <;> simp [returnArena, eq_comm]
  listedOnce parent children found := by
    rcases parent with _ | _ | _ | _ <;> cases found <;> exact List.nodup_singleton _
  forest := by
    refine Subrelation.wf (fun isChild => ?_) (measure (3 - ·)).wf
    change 3 - _ < 3 - _
    rcases returnArena_isChild.mp isChild with ⟨rfl, rfl⟩ | ⟨rfl, rfl⟩ <;> decide

/-- Below the parenthesized expression alone, where every node matches or is the root. -/
theorem findsSubtree_iff_parenthesized : returnArena.FindsSubtree 2 isIdentifier := by
  refine (findsSubtree_iff returnArena_wellFormed 2 isIdentifier).mpr ?_
  intro below node _ _ _ between isBetween _
  rcases Relation.TransGen.head'_iff.mp isBetween with ⟨child, isChild, rest⟩
  rcases returnArena_isChild.mp isChild with ⟨same, _⟩ | ⟨_, rfl⟩
  · cases same
  · rcases Relation.ReflTransGen.cases_head rest with rfl | ⟨next, isNext, _⟩
    · exact ⟨_, rfl, rfl⟩
    · rcases returnArena_isChild.mp isNext with ⟨same, _⟩ | ⟨same, _⟩ <;> cases same

/-- The identifier below a statement is not found, because the expression around it is none. -/
theorem nestedIdentifier_notFound :
    ¬ ∀ arena : Arena, arena.WellFormed → ∀ id comparator, arena.FindsSubtree id comparator := by
  intro complete
  have finds := complete returnArena returnArena_wellFormed 1 isIdentifier
  have returned : returnArena.getChildrenCmp 1 1 isIdentifier = some [] := rfl
  refine absurd (((finds.2 1 [] returned).2 (.expression (.identifier ⟨⟨3, {}⟩, "x"⟩))).mpr ?_)
    List.not_mem_nil
  refine ⟨rfl, 3, ?_, rfl⟩
  exact (Relation.ReflTransGen.single (returnArena_isChild.mpr (.inl ⟨rfl, rfl⟩))).tail
    (returnArena_isChild.mpr (.inr ⟨rfl, rfl⟩))

end Arena

end Inference.Ast
