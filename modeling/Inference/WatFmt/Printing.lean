import Inference.Foundation.Spelling
import Inference.WatFmt.Formatter

/-! # What the formatter prints

A reader that skips the layout and reads the atoms and the parentheses of a node reads the
printed node as these, whatever way the node is printed.
-/

namespace Inference.WatFmt

open Inference.Foundation

/-! ## Nodes -/

/-- What holds of atoms and of lists whose children have it holds of all nodes. -/
theorem Node.induct {motive : Node → Prop} (atom : ∀ s, motive (.atom s))
    (list : ∀ children, (∀ child ∈ children, motive child) → motive (.list children)) :
    ∀ node, motive node
  | .atom s => atom s
  | .list children => list children fun child _ => Node.induct atom list child

mutual

/-- The atoms and the parentheses of a node, in order. -/
def Node.spelling {token : Type} (words : Text → List token) (opening closing : List token) :
    Node → List token
  | .atom s => words s
  | .list children => opening ++ nodeListSpelling words opening closing children ++ closing

def nodeListSpelling {token : Type} (words : Text → List token) (opening closing : List token) :
    List Node → List token
  | [] => []
  | node :: rest =>
      node.spelling words opening closing ++ nodeListSpelling words opening closing rest

end

mutual

def Node.atoms : Node → List Text
  | .atom s => [s]
  | .list children => nodeListAtoms children

def nodeListAtoms : List Node → List Text
  | [] => []
  | node :: rest => node.atoms ++ nodeListAtoms rest

end

variable {nodes : List Node}

theorem mem_nodeListAtoms {s : Text} :
    s ∈ nodeListAtoms nodes ↔ ∃ node ∈ nodes, s ∈ node.atoms := by
  induction nodes with
  | nil => simp [nodeListAtoms]
  | cons node rest induction => simp [nodeListAtoms, induction]

theorem nodeListSpelling_append {token : Type} (words : Text → List token)
    (opening closing : List token) (first second : List Node) :
    nodeListSpelling words opening closing (first ++ second) =
      nodeListSpelling words opening closing first ++
        nodeListSpelling words opening closing second := by
  induction first with
  | nil => rfl
  | cons node rest induction =>
      rw [List.cons_append, nodeListSpelling, nodeListSpelling, induction, List.append_assoc]

/-! ## Readers of printed nodes -/

/-- The reader skips layout and reads parentheses, where the text behind an opening one allows
it. -/
structure ReadsLists {token result : Type} (reader : Reader Char token result)
    (allows : Text → Prop) (opening closing : List token) : Prop where
  newline : ∀ rest, reader.read ('\n' :: rest) = reader.read rest
  space : ∀ rest, reader.read (' ' :: rest) = reader.read rest
  lParen : ∀ rest, allows rest →
    reader.read ('(' :: rest) = reader.push opening (reader.read rest)
  rParen : ∀ rest, reader.read (')' :: rest) = reader.push closing (reader.read rest)
  boundary : ∀ c ∈ ['\n', ' ', '(', ')'], ∀ rest, reader.boundary (c :: rest)
  allowed : ∀ c ∈ ['\n', '(', ')'], ∀ rest, allows (c :: rest)

/-- The printed text of a node or of a list of nodes. -/
structure Printed {token result : Type} (reader : Reader Char token result)
    (allows : Text → Prop) (text : Text) (tokens : List token) : Prop where
  spells : reader.Spells text tokens
  allowed : ∀ rest, allows (text ++ rest)

/-- Printed text that may follow another one. -/
structure PrintedBehind {token result : Type} (reader : Reader Char token result)
    (text : Text) (tokens : List token) : Prop where
  spells : reader.Spells text tokens
  bounds : reader.Bounds text

variable {text : Text}

section

variable {token result : Type} {reader : Reader Char token result} {allows : Text → Prop}
  {opening closing : List token}
  (lists : ReadsLists reader allows opening closing)

include lists

/-! ## Layout -/

theorem read_lineStart (indent : Nat) (rest : Text) :
    reader.read (lineStart indent ++ rest) = reader.read rest := by
  have indented : reader.read (indentStr indent ++ rest) = reader.read rest := by
    induction indent with
    | zero => rfl
    | succ indent induction =>
        have unfolded : indentStr (indent + 1) ++ rest =
            ' ' :: ' ' :: (indentStr indent ++ rest) := rfl
        rw [unfolded, lists.space, lists.space, induction]
  have unfolded : lineStart indent ++ rest = '\n' :: (indentStr indent ++ rest) := rfl
  rw [unfolded, lists.newline, indented]

theorem bounds_lineStart (indent : Nat) (text : Text) :
    reader.Bounds (lineStart indent ++ text) := by
  apply Reader.Bounds.start
  intro rest
  exact lists.boundary '\n' (by simp) _

/-- A printed text on a line of its own. -/
theorem Printed.line {tokens : List token} (printed : Printed reader allows text tokens)
    (indent : Nat) : PrintedBehind reader (lineStart indent ++ text) tokens where
  spells := .skip (read_lineStart lists indent) printed.spells
  bounds := bounds_lineStart lists indent text

omit lists in
theorem PrintedBehind.append {first second : Text} {left right : List token}
    (front : PrintedBehind reader first left) (back : PrintedBehind reader second right) :
    PrintedBehind reader (first ++ second) (left ++ right) where
  spells := front.spells.append back.spells back.bounds
  bounds := front.bounds.append back.bounds

omit lists in
theorem Printed.append {first second : Text} {left right : List token}
    (front : Printed reader allows first left) (back : PrintedBehind reader second right) :
    Printed reader allows (first ++ second) (left ++ right) where
  spells := front.spells.append back.spells back.bounds
  allowed rest := by
    rw [List.append_assoc]
    exact front.allowed _

omit lists in
theorem PrintedBehind.nil : PrintedBehind reader [] ([] : List token) :=
  ⟨.nil, .nil⟩

/-- A printed text behind a blank. -/
theorem Printed.blank {tokens : List token} (printed : Printed reader allows text tokens) :
    PrintedBehind reader (' ' :: text) tokens := by
  constructor
  · have skips : ∀ rest, reader.read ([' '] ++ rest) = reader.read rest := lists.space
    exact .skip skips printed.spells
  · have starts : ∀ rest, reader.boundary ([' '] ++ rest) := lists.boundary ' ' (by simp)
    exact .start starts

/-- The closing parenthesis behind the rest of a list. -/
theorem closing_printed : PrintedBehind reader [')'] closing := by
  constructor
  · intro rest _
    exact lists.rParen rest
  · intro rest _
    exact lists.boundary ')' (by simp) _

/-- The closing parenthesis on a line of its own. -/
theorem closingLine_printed (indent : Nat) :
    PrintedBehind reader (lineStart indent ++ [')']) closing where
  spells := .skip (read_lineStart lists indent) (closing_printed lists).spells
  bounds := bounds_lineStart lists indent _

/-- A list from its text behind the opening parenthesis. -/
theorem Printed.enclose {tokens : List token} (spells : reader.Spells text tokens)
    (allowed : ∀ rest, allows (text ++ rest)) :
    Printed reader allows ('(' :: text) (opening ++ tokens) where
  spells := by
    intro rest atBoundary
    rw [List.cons_append, lists.lParen _ (allowed rest), spells rest atBoundary,
      reader.push_append]
  allowed rest := lists.allowed '(' (by simp) _

/-! ## Nodes on a line -/

variable {words : Text → List token}

theorem formatChildrenInline_printed {children : List Node}
    (printed : ∀ child ∈ children, Printed reader allows (formatNodeInline child)
      (child.spelling words opening closing)) :
    PrintedBehind reader (formatChildrenInline false children)
      (nodeListSpelling words opening closing children) := by
  induction children with
  | nil => exact .nil
  | cons child rest induction =>
      have head := (printed child List.mem_cons_self).blank lists
      have tail := induction fun other member => printed other (List.mem_cons_of_mem _ member)
      exact head.append tail

/-- The children of a list and its closing parenthesis. -/
theorem formatChildrenInline_closed {children : List Node}
    (printed : ∀ child ∈ children, Printed reader allows (formatNodeInline child)
      (child.spelling words opening closing)) :
    Printed reader allows (formatChildrenInline true children ++ [')'])
      (nodeListSpelling words opening closing children ++ closing) := by
  cases children with
  | nil =>
      constructor
      · exact (closing_printed lists).spells
      · exact fun rest => lists.allowed ')' (by simp) rest
  | cons child rest =>
      have head := printed child List.mem_cons_self
      have tail := formatChildrenInline_printed lists fun other member =>
        printed other (List.mem_cons_of_mem _ member)
      exact (head.append tail).append (closing_printed lists)

theorem formatNodeInline_printed (node : Node)
    (atoms : ∀ s ∈ node.atoms, Printed reader allows s (words s)) :
    Printed reader allows (formatNodeInline node) (node.spelling words opening closing) := by
  induction node using Node.induct with
  | atom s => exact atoms s (List.mem_singleton_self s)
  | list children induction =>
      have printed := formatChildrenInline_closed lists fun child member =>
        induction child member fun s isAtom =>
          atoms s (mem_nodeListAtoms.mpr ⟨child, member, isAtom⟩)
      rw [formatNodeInline, Node.spelling, List.append_assoc]
      exact .enclose lists printed.spells printed.allowed

/-! ## Nodes on several lines -/

omit lists in
theorem argumentsText_eq (arguments : List Node) :
    argumentsText arguments = formatChildrenInline false arguments := by
  induction arguments with
  | nil => rfl
  | cons node rest induction =>
      rw [formatChildrenInline, ← induction]
      rfl

/-- What the printer of nodes keeps for the nodes of a list. -/
def PrintsNode (reader : Reader Char token result) (allows : Text → Prop)
    (words : Text → List token) (opening closing : List token) (node : Node) : Prop :=
  (∀ s ∈ node.atoms, Printed reader allows s (words s)) ∧
    ∀ {indent text}, formatNode node indent = some text →
      Printed reader allows text (node.spelling words opening closing)

theorem arguments_printed {arguments : List Node}
    (prints : ∀ node ∈ arguments, PrintsNode reader allows words opening closing node) :
    PrintedBehind reader (argumentsText arguments)
      (nodeListSpelling words opening closing arguments) := by
  rw [argumentsText_eq]
  exact formatChildrenInline_printed lists fun node member =>
    formatNodeInline_printed lists node (prints node member).1

theorem formatLines_printed
    (prints : ∀ node ∈ nodes, PrintsNode reader allows words opening closing node)
    {indent : Nat} (formatted : formatLines nodes indent = some text) :
    PrintedBehind reader text (nodeListSpelling words opening closing nodes) := by
  induction nodes generalizing text with
  | nil =>
      rw [formatLines] at formatted
      cases formatted
      exact .nil
  | cons node rest induction =>
      rw [formatLines] at formatted
      rcases Option.bind_eq_some_iff.mp formatted with ⟨head, isHead, behind⟩
      rcases Option.bind_eq_some_iff.mp behind with ⟨lines, isLines, same⟩
      cases same
      have first := ((prints node List.mem_cons_self).2 isHead).line lists indent
      have tail := induction (fun other member => prints other (List.mem_cons_of_mem _ member))
        isLines
      exact first.append tail

omit lists in
theorem formatNodeInline_keyword {keyword : String} {node : Node}
    (isKeyword : node.isKeyword keyword = true) : formatNodeInline node = keyword.toList := by
  cases node with
  | atom s => exact of_decide_eq_true isKeyword
  | list children => cases isKeyword

omit lists in
theorem spelling_split (p : Node → Bool) (nodes : List Node) :
    nodeListSpelling words opening closing nodes =
      nodeListSpelling words opening closing (nodes.takeWhile p) ++
        nodeListSpelling words opening closing (nodes.dropWhile p) := by
  rw [← nodeListSpelling_append, List.takeWhile_append_dropWhile]

theorem formatInstructions_printed
    (prints : ∀ node ∈ nodes, PrintsNode reader allows words opening closing node)
    {current : Nat} (formatted : formatInstructions nodes current = some text) :
    PrintedBehind reader text (nodeListSpelling words opening closing nodes) := by
  induction size : nodes.length using Nat.strongRecOn generalizing nodes current text with
  | ind length induction =>
      cases nodes with
      | nil =>
          rw [formatInstructions] at formatted
          cases formatted
          exact .nil
      | cons node rest =>
          have tailPrints : ∀ other ∈ rest,
              PrintsNode reader allows words opening closing other :=
            fun other member => prints other (List.mem_cons_of_mem _ member)
          have behind : ∀ {next lines}, formatInstructions rest next = some lines →
              PrintedBehind reader lines (nodeListSpelling words opening closing rest) :=
            fun formatted => induction rest.length (by rw [← size]; exact Nat.lt_succ_self _)
              tailPrints formatted rfl
          cases node with
          | list children =>
              rw [formatInstructions] at formatted
              rcases Option.bind_eq_some_iff.mp formatted with ⟨head, isHead, tail⟩
              rcases Option.bind_eq_some_iff.mp tail with ⟨lines, isLines, same⟩
              cases same
              have first := ((prints _ List.mem_cons_self).2 isHead).line lists current
              exact first.append (behind isLines)
          | atom token =>
              have printed : Printed reader allows token (words token) :=
                (prints _ List.mem_cons_self).1 token (List.mem_singleton_self token)
              rw [formatInstructions] at formatted
              split at formatted
              · rename_i isIf
                rcases Option.map_eq_some_iff.mp formatted with ⟨lines, isLines, rfl⟩
                rw [← isIf]
                exact (printed.line lists current).append (behind isLines)
              split at formatted
              · rename_i isElse
                split at formatted
                · cases formatted
                · rcases Option.map_eq_some_iff.mp formatted with ⟨lines, isLines, rfl⟩
                  rw [← isElse]
                  exact (printed.line lists _).append (behind isLines)
              split at formatted
              · rename_i isEnd
                rcases Option.map_eq_some_iff.mp formatted with ⟨lines, isLines, rfl⟩
                rw [← isEnd]
                exact (printed.line lists _).append (behind isLines)
              split at formatted
              · rcases Option.map_eq_some_iff.mp formatted with ⟨lines, isLines, rfl⟩
                have shorter : (rest.dropWhile isArgument).length < length := by
                  rw [← size]
                  exact Nat.lt_succ_of_le (List.dropWhile_suffix _).length_le
                have arguments : PrintedBehind reader (argumentsText (rest.takeWhile isArgument))
                    (nodeListSpelling words opening closing (rest.takeWhile isArgument)) :=
                  arguments_printed lists fun other member =>
                    tailPrints other ((List.takeWhile_prefix _).subset member)
                have first := (printed.line lists current).append arguments
                have tail := induction _ shorter
                  (fun other member => tailPrints other ((List.dropWhile_suffix _).subset member))
                  isLines rfl
                rw [nodeListSpelling, Node.spelling, spelling_split isArgument rest,
                  ← List.append_assoc]
                exact first.append tail
              · rcases Option.map_eq_some_iff.mp formatted with ⟨lines, isLines, rfl⟩
                exact (printed.line lists current).append (behind isLines)

theorem formatNode_printed (node : Node)
    (atoms : ∀ s ∈ node.atoms, Printed reader allows s (words s)) {indent : Nat}
    (formatted : formatNode node indent = some text) :
    Printed reader allows text (node.spelling words opening closing) := by
  induction node using Node.induct generalizing indent text with
  | atom s =>
      rw [formatNode] at formatted
      cases formatted
      exact atoms s (List.mem_singleton_self s)
  | list children induction =>
      have prints : ∀ child ∈ children, PrintsNode reader allows words opening closing child := by
        intro child member
        have childAtoms : ∀ s ∈ child.atoms, Printed reader allows s (words s) :=
          fun s isAtom => atoms s (mem_nodeListAtoms.mpr ⟨child, member, isAtom⟩)
        exact ⟨childAtoms, induction child member childAtoms⟩
      cases children with
      | nil =>
          rw [formatNode] at formatted
          cases formatted
          exact formatNodeInline_printed lists (.list []) atoms
      | cons first rest =>
          have head : Printed reader allows (formatNodeInline first)
              (first.spelling words opening closing) :=
            formatNodeInline_printed lists first (prints first List.mem_cons_self).1
          have tailPrints : ∀ other ∈ rest,
              PrintsNode reader allows words opening closing other :=
            fun other member => prints other (List.mem_cons_of_mem _ member)
          -- What stands between the first child and the closing parenthesis, on lines of its own.
          have enclosed : ∀ {start body : Text} {tokens : List token},
              Printed reader allows start (first.spelling words opening closing) →
              PrintedBehind reader body tokens →
              tokens = nodeListSpelling words opening closing rest →
                Printed reader allows ('(' :: (start ++ (body ++ (lineStart indent ++ [')']))))
                  (Node.spelling words opening closing (.list (first :: rest))) := by
            intro start body tokens isStart isBody same
            have inside := isStart.append (isBody.append (closingLine_printed lists indent))
            rw [Node.spelling, nodeListSpelling, ← same, List.append_assoc, List.append_assoc]
            exact .enclose lists inside.spells inside.allowed
          rw [formatNode] at formatted
          split at formatted
          · rename_i isModule
            rcases Option.map_eq_some_iff.mp formatted with ⟨lines, isLines, rfl⟩
            have keyword := formatNodeInline_keyword isModule
            have body := formatLines_printed lists tailPrints isLines
            have printed := enclosed head body rfl
            rw [keyword] at printed
            have same : "(module".toList ++ lines ++ lineStart indent ++ [')'] =
                '(' :: ("module".toList ++ (lines ++ (lineStart indent ++ [')']))) := by
              rw [List.append_assoc, List.append_assoc]
              rfl
            rw [same]
            exact printed
          split at formatted
          · rcases Option.map_eq_some_iff.mp formatted with ⟨body, isBody, rfl⟩
            have signature : PrintedBehind reader (argumentsText (rest.takeWhile inSignature))
                (nodeListSpelling words opening closing (rest.takeWhile inSignature)) :=
              arguments_printed lists fun other member =>
                tailPrints other ((List.takeWhile_prefix _).subset member)
            have instructions := formatInstructions_printed lists
              (fun other member => tailPrints other ((List.dropWhile_suffix _).subset member))
              isBody
            have printed := enclosed head (signature.append instructions)
              (spelling_split inSignature rest).symm
            simpa only [List.append_assoc, List.cons_append] using printed
          split at formatted
          · rcases Option.map_eq_some_iff.mp formatted with ⟨body, isBody, rfl⟩
            have instructions := formatInstructions_printed lists tailPrints isBody
            have printed := enclosed head instructions rfl
            simpa only [List.append_assoc, List.cons_append] using printed
          split at formatted
          · cases formatted
            exact formatNodeInline_printed lists _ atoms
          · rcases Option.bind_eq_some_iff.mp formatted with ⟨start, isStart, behind⟩
            rcases Option.bind_eq_some_iff.mp behind with ⟨lines, isLines, same⟩
            cases same
            have first := (prints first List.mem_cons_self).2 isStart
            have body := formatLines_printed lists tailPrints isLines
            have printed := enclosed first body rfl
            simpa only [List.append_assoc, List.cons_append] using printed

theorem formatAll_printed (nodes : List Node)
    (atoms : ∀ s ∈ nodeListAtoms nodes, Printed reader allows s (words s))
    (formatted : formatAll nodes = some text) :
    reader.Spells text (nodeListSpelling words opening closing nodes) := by
  induction nodes generalizing text with
  | nil =>
      cases formatted
      exact .nil
  | cons node rest induction =>
      rcases Option.bind_eq_some_iff.mp formatted with ⟨head, isHead, tail⟩
      rcases Option.bind_eq_some_iff.mp tail with ⟨behind, isBehind, same⟩
      cases same
      have first := formatNode_printed lists node
        (fun s isAtom => atoms s (List.mem_append_left _ isAtom)) isHead
      have rest := induction (fun s isAtom => atoms s (List.mem_append_right _ isAtom)) isBehind
      have skips : ∀ rest, reader.read (['\n'] ++ rest) = reader.read rest := lists.newline
      have starts : ∀ rest, reader.boundary (['\n'] ++ rest) := lists.boundary '\n' (by simp)
      rw [nodeListSpelling, List.append_assoc]
      exact first.spells.append (.skip skips rest) (.start starts)

/-- The whole formatted text. -/
theorem format_printed {input : Text}
    (atoms : ∀ s ∈ nodeListAtoms (parseAll (tokenize input)), Printed reader allows s (words s))
    (formatted : format input = some text) :
    reader.Spells text
      (nodeListSpelling words opening closing (parseAll (tokenize input))) := by
  rw [format] at formatted
  generalize parseAll (tokenize input) = nodes at atoms formatted ⊢
  split at formatted
  · rename_i node
    have printed := formatNode_printed lists node
      (fun s isAtom => atoms s (List.mem_append_left _ isAtom)) formatted
    rw [nodeListSpelling, nodeListSpelling, List.append_nil]
    exact printed.spells
  · exact formatAll_printed lists nodes atoms formatted

end

end Inference.WatFmt
