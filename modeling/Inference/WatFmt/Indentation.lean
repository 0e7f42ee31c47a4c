import Inference.WatFmt.Printing

/-! # Indentation of bodies

An `else` takes one from the indentation without a look at it, so that the formatter fails on
an `else` behind as many `end`s as there are levels.
-/

namespace Inference.WatFmt

mutual

/-- No `else` of a body in the node stands at indentation zero. -/
def Node.fits : Node → Nat → Bool
  | .atom _, _ => true
  | .list [], _ => true
  | .list (first :: rest), indent =>
      if first.isKeyword "module" then linesFit rest (indent + 1)
      else if ["func", "forall", "exists", "assume", "unique"].any first.isKeyword then
        bodyFits rest (indent + 1)
      else true

def linesFit : List Node → Nat → Bool
  | [], _ => true
  | node :: rest, indent => node.fits indent && linesFit rest indent

/-- An `if` opens a level, an `end` closes one, and an `else` needs one. -/
def bodyFits : List Node → Nat → Bool
  | [], _ => true
  | .atom token :: rest, current =>
      if token = "if".toList then bodyFits rest (current + 1)
      else if token = "else".toList then current != 0 && bodyFits rest current
      else if token = "end".toList then bodyFits rest (current - 1)
      else bodyFits rest current
  | .list children :: rest, current =>
      Node.fits (.list children) current && bodyFits rest current

end

def nodesFit (nodes : List Node) : Bool :=
  nodes.all (·.fits 0)

/-! ## Nodes that keep the indentation -/

theorem isFlatNode_true (node : Node) : isFlatNode node = true := by
  induction node using Node.induct with
  | atom s => rfl
  | list children induction =>
      rw [isFlatNode]
      induction children with
      | nil => rfl
      | cons first rest tail =>
          rw [isFlatList, induction first List.mem_cons_self, Bool.true_and]
          exact tail fun child member => induction child (List.mem_cons_of_mem _ member)

/-- Nodes that leave the indentation and are never formatted in lines. -/
theorem bodyFits_dropWhile {p : Node → Bool}
    (keeps : ∀ node rest current, p node = true →
      bodyFits (node :: rest) current = bodyFits rest current)
    (nodes : List Node) (current : Nat) :
    bodyFits (nodes.dropWhile p) current = bodyFits nodes current := by
  induction nodes with
  | nil => rfl
  | cons node rest induction =>
      rw [List.dropWhile_cons]
      split
      · rename_i passes
        rw [induction, keeps node rest current passes]
      · rfl

theorem bodyFits_operand {token : Text} (notOpcode : isOpcode token = false) (rest : List Node)
    (current : Nat) : bodyFits (.atom token :: rest) current = bodyFits rest current := by
  have opcodes : ∀ keyword ∈ ["if", "else", "end"], isOpcode keyword.toList = true := by decide
  have different : ∀ keyword ∈ ["if", "else", "end"], token ≠ keyword.toList := by
    intro keyword member same
    rw [same, opcodes keyword member] at notOpcode
    cases notOpcode
  rw [bodyFits, if_neg (different "if" (by simp)), if_neg (different "else" (by simp)),
    if_neg (different "end" (by simp))]

theorem bodyFits_arguments (nodes : List Node) (current : Nat) :
    bodyFits (nodes.dropWhile isArgument) current = bodyFits nodes current := by
  apply bodyFits_dropWhile
  intro node rest current isArgument_
  cases node with
  | list children => cases isArgument_
  | atom next =>
      apply bodyFits_operand
      simp only [isArgument, Bool.not_eq_true', Bool.or_eq_false_iff] at isArgument_
      exact isArgument_.1.1.1

theorem isKeyword_unique {node : Node} {first second : String}
    (isFirst : node.isKeyword first = true) (isSecond : node.isKeyword second = true) :
    first = second := by
  cases node with
  | list children => cases isFirst
  | atom s =>
      have left : s = first.toList := of_decide_eq_true isFirst
      have right : s = second.toList := of_decide_eq_true isSecond
      exact String.toList_inj.mp (left.symm.trans right)

theorem bodyFits_signature (nodes : List Node) (current : Nat) :
    bodyFits (nodes.dropWhile inSignature) current = bodyFits nodes current := by
  apply bodyFits_dropWhile
  intro node rest current isSignature
  cases node with
  | atom tok =>
      apply bodyFits_operand
      simpa [inSignature] using isSignature
  | list children =>
      cases children with
      | nil => cases isSignature
      | cons first children =>
          have isWord : ["export", "param", "result"].any first.isKeyword = true := isSignature
          rcases List.any_eq_true.mp isWord with ⟨word, isOne, isKeyword⟩
          have others : ∀ keyword, keyword ∉ ["export", "param", "result"] →
              first.isKeyword keyword = false := by
            intro keyword notOne
            by_contra isOther
            have same := isKeyword_unique isKeyword (Bool.not_eq_false _ |>.mp isOther)
            exact notOne (same ▸ isOne)
          have fits : Node.fits (.list (first :: children)) current = true := by
            rw [Node.fits, others "module" (by decide)]
            simp [others "func" (by decide), others "forall" (by decide),
              others "exists" (by decide), others "assume" (by decide),
              others "unique" (by decide)]
          rw [bodyFits, fits, Bool.true_and]

/-! ## Success of the formatter -/

/-- What the printer of nodes does with the nodes of a list. -/
def FitsNode (node : Node) : Prop :=
  ∀ indent, (formatNode node indent).isSome = node.fits indent

theorem formatLines_isSome {nodes : List Node} (fits : ∀ node ∈ nodes, FitsNode node)
    (indent : Nat) : (formatLines nodes indent).isSome = linesFit nodes indent := by
  induction nodes with
  | nil => rw [formatLines]; rfl
  | cons node rest induction =>
      have first := fits node List.mem_cons_self indent
      have tail := induction fun other member => fits other (List.mem_cons_of_mem _ member)
      rw [formatLines, linesFit, ← first, ← tail]
      cases formatNode node indent <;> cases formatLines rest indent <;> rfl

theorem formatInstructions_isSome {nodes : List Node} (fits : ∀ node ∈ nodes, FitsNode node)
    (current : Nat) : (formatInstructions nodes current).isSome = bodyFits nodes current := by
  induction size : nodes.length using Nat.strongRecOn generalizing nodes current with
  | ind length induction =>
      cases nodes with
      | nil => rw [formatInstructions]; rfl
      | cons node rest =>
          have tailFits : ∀ other ∈ rest, FitsNode other :=
            fun other member => fits other (List.mem_cons_of_mem _ member)
          have behind : ∀ next, (formatInstructions rest next).isSome = bodyFits rest next :=
            fun next => induction rest.length (by rw [← size]; exact Nat.lt_succ_self _) tailFits
              next rfl
          cases node with
          | list children =>
              rw [formatInstructions, bodyFits, ← fits _ List.mem_cons_self, ← behind]
              cases formatNode (.list children) current <;>
                cases formatInstructions rest current <;> rfl
          | atom token =>
              rw [formatInstructions, bodyFits]
              split
              · rw [Option.isSome_map, behind]
              split
              · split
                · rename_i isZero
                  rw [isZero]
                  rfl
                · rename_i isPositive
                  rw [Option.isSome_map, behind]
                  simp [isPositive]
              split
              · rw [Option.isSome_map, behind]
              split
              · have shorter : (rest.dropWhile isArgument).length < length := by
                  rw [← size]
                  exact Nat.lt_succ_of_le (List.dropWhile_suffix _).length_le
                rw [Option.isSome_map, induction _ shorter
                  (fun other member => tailFits other ((List.dropWhile_suffix _).subset member))
                  current rfl, bodyFits_arguments]
              · rw [Option.isSome_map, behind]

theorem formatNode_isSome (node : Node) : FitsNode node := by
  induction node using Node.induct with
  | atom s =>
      intro indent
      rw [formatNode]
      rfl
  | list children induction =>
      intro indent
      cases children with
      | nil =>
          rw [formatNode]
          rfl
      | cons first rest =>
          have tailFits : ∀ other ∈ rest, FitsNode other :=
            fun other member => induction other (List.mem_cons_of_mem _ member)
          have flat : isFlatList (first :: rest) = true := isFlatNode_true (.list (first :: rest))
          rw [formatNode, Node.fits]
          split
          · rw [Option.isSome_map, formatLines_isSome tailFits]
          have words : ["func", "forall", "exists", "assume", "unique"].any first.isKeyword =
              (first.isKeyword "func" ||
                ["forall", "exists", "assume", "unique"].any first.isKeyword) := List.any_cons
          rw [words]
          split
          · rename_i isFunc
            rw [Option.isSome_map, isFunc, Bool.true_or, if_pos rfl, formatInstructions_isSome
              (fun other member => tailFits other ((List.dropWhile_suffix _).subset member)),
              bodyFits_signature]
          · rename_i notFunc
            rw [Bool.not_eq_true _ |>.mp notFunc, Bool.false_or]
            split
            · rw [Option.isSome_map, formatInstructions_isSome tailFits]
            · rfl

theorem formatAll_isSome (nodes : List Node) :
    (formatAll nodes).isSome = nodes.all (·.fits 0) := by
  induction nodes with
  | nil => rfl
  | cons node rest induction =>
      rw [formatAll, List.all_cons, ← induction, ← formatNode_isSome node 0]
      cases formatNode node 0 <;> cases formatAll rest <;> rfl

theorem format_isSome (input : Text) :
    (format input).isSome = nodesFit (parseAll (tokenize input)) := by
  rw [format, nodesFit]
  generalize parseAll (tokenize input) = nodes
  split
  · rw [formatNode_isSome, List.all_cons, List.all_nil, Bool.and_true]
  · exact formatAll_isSome nodes

end Inference.WatFmt
