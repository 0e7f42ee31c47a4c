import Inference.WatFmt.Indentation
import Inference.WatFmt.TokenRoundTrip

/-! # Where the formatter returns

The parsers end on every input. The printer fails where an `else` stands at indentation zero, which
the counts of `if` and `end` in front of it decide.
-/

namespace Inference.WatFmt

/-! ## Steps of the parsers -/

theorem parseNode_length {steps : Nat} (token : Token) (rest : List Token)
    (enough : 2 * (rest.length + 1) ≤ steps) :
    (parseNode steps (token :: rest)).2.length ≤ rest.length := by
  by_cases isClosing : token = .rParen
  · subst isClosing
    cases steps with
    | zero => omega
    | succ steps => exact le_rfl
  · exact ((parse_readsOff (fun s => [s]) [] [] steps).1 0 token rest isClosing enough).2

theorem parseChildren_cons {token : Token} (notClosing : token ≠ .rParen) (steps : Nat)
    (rest : List Token) :
    parseChildren (steps + 1) (token :: rest) =
      ((parseNode steps (token :: rest)).1 ::
          (parseChildren steps (parseNode steps (token :: rest)).2).1,
        (parseChildren steps (parseNode steps (token :: rest)).2).2) := by
  cases token with
  | rParen => exact absurd rfl notClosing
  | lParen => rfl
  | atom s => rfl

theorem parseAllFrom_cons (steps : Nat) (token : Token) (rest : List Token) :
    parseAllFrom (steps + 1) (token :: rest) =
      (parseNode steps (token :: rest)).1 ::
        parseAllFrom steps (parseNode steps (token :: rest)).2 :=
  rfl

/-- A step more changes nothing where the steps are enough. -/
theorem parse_succ (steps : Nat) :
    (∀ tokens : List Token, 2 * tokens.length ≤ steps →
        parseNode (steps + 1) tokens = parseNode steps tokens) ∧
      ∀ tokens : List Token, 2 * tokens.length + 1 ≤ steps →
        parseChildren (steps + 1) tokens = parseChildren steps tokens := by
  induction steps with
  | zero =>
      constructor
      · intro tokens enough
        cases tokens with
        | nil => rfl
        | cons token rest =>
            rw [List.length_cons] at enough
            omega
      · intro tokens enough
        omega
  | succ steps induction =>
      rcases induction with ⟨node, children⟩
      constructor
      · intro tokens enough
        cases tokens with
        | nil => rfl
        | cons token rest =>
            rw [List.length_cons] at enough
            cases token with
            | rParen => rfl
            | atom s => rfl
            | lParen => rw [parseNode, parseNode, children rest (by omega)]
      · intro tokens enough
        cases tokens with
        | nil => rfl
        | cons token rest =>
            have shorter := @parseNode_length steps token rest
            rw [List.length_cons] at enough
            have sameNode := node (token :: rest) (by rw [List.length_cons]; omega)
            have sameChildren := children (parseNode steps (token :: rest)).2 (by omega)
            by_cases isClosing : token = .rParen
            · subst isClosing
              rfl
            · rw [parseChildren_cons isClosing, parseChildren_cons isClosing, sameNode,
                sameChildren]

theorem parseAllFrom_succ {steps : Nat} {tokens : List Token}
    (enough : 2 * tokens.length + 1 ≤ steps) :
    parseAllFrom (steps + 1) tokens = parseAllFrom steps tokens := by
  induction steps generalizing tokens with
  | zero => omega
  | succ steps induction =>
      cases tokens with
      | nil => rfl
      | cons token rest =>
          rw [List.length_cons] at enough
          have shorter := @parseNode_length steps token rest (by omega)
          have sameNode := (parse_succ steps).1 (token :: rest) (by rw [List.length_cons]; omega)
          rw [parseAllFrom_cons, parseAllFrom_cons, sameNode, induction (by omega)]

theorem parseAllFrom_enough {steps : Nat} {tokens : List Token}
    (enough : 2 * tokens.length + 1 ≤ steps) : parseAllFrom steps tokens = parseAll tokens := by
  induction steps, enough using Nat.le_induction with
  | base => rfl
  | succ steps enough induction => rw [parseAllFrom_succ enough, induction]

/-! ## The counter of a body -/

def countKeyword (keyword : String) (nodes : List Node) : Nat :=
  nodes.countP (·.isKeyword keyword)

def levelStep (level : Nat) (node : Node) : Nat :=
  if node.isKeyword "if" then level + 1
  else if node.isKeyword "end" then level - 1
  else level

/-- The indentation behind nodes of a body. -/
def levelBehind (base : Nat) (front : List Node) : Nat :=
  front.foldl levelStep base

/-- The indentation stays above a bound when the nodes close too little, or when the last of them
open more than they close. -/
theorem lt_levelBehind (bound base : Nat) (front : List Node) :
    bound < levelBehind base front ↔
      bound + countKeyword "end" front < base + countKeyword "if" front ∨
        ∃ stretch, stretch <:+ front ∧
          bound + countKeyword "end" stretch < countKeyword "if" stretch := by
  induction front using List.reverseRecOn generalizing bound with
  | nil =>
      simp [levelBehind, countKeyword]
  | append_singleton front node induction =>
      have step : levelBehind base (front ++ [node]) =
          levelStep (levelBehind base front) node := by
        rw [levelBehind, List.foldl_append]
        rfl
      have counts : ∀ keyword (nodes : List Node), countKeyword keyword (nodes ++ [node]) =
          countKeyword keyword nodes + if node.isKeyword keyword then 1 else 0 := by
        intro keyword nodes
        rw [countKeyword, List.countP_append, List.countP_singleton]
        rfl
      have stretches : (∃ stretch, stretch <:+ front ++ [node] ∧
          bound + countKeyword "end" stretch < countKeyword "if" stretch) ↔
            ∃ stretch, stretch <:+ front ∧
              bound + countKeyword "end" (stretch ++ [node]) <
                countKeyword "if" (stretch ++ [node]) := by
        constructor
        · intro ⟨stretch, isEnd, opens⟩
          rcases List.suffix_concat_iff.mp isEnd with rfl | ⟨shorter, rfl, isShorter⟩
          · simp [countKeyword] at opens
          · exact ⟨shorter, isShorter, opens⟩
        · intro ⟨stretch, isEnd, opens⟩
          exact ⟨stretch ++ [node], List.suffix_concat_iff.mpr (.inr ⟨stretch, rfl, isEnd⟩), opens⟩
      rw [step, stretches]
      simp only [counts, levelStep]
      by_cases opens : node.isKeyword "if" = true
      · have notEnd : node.isKeyword "end" = false :=
          Bool.eq_false_iff.mpr fun closes => absurd (isKeyword_unique opens closes) (by decide)
        simp only [opens, notEnd, if_true, Bool.false_eq_true, if_false, Nat.add_zero]
        cases bound with
        | zero =>
            refine iff_of_true (Nat.succ_pos _) (.inr ⟨[], List.nil_suffix, ?_⟩)
            simp [countKeyword]
        | succ bound =>
            rw [Nat.add_lt_add_iff_right, induction bound]
            refine or_congr (by omega) (exists_congr fun stretch => and_congr_right fun _ => ?_)
            omega
      · rw [Bool.not_eq_true] at opens
        by_cases closes : node.isKeyword "end" = true
        · simp only [opens, closes, if_true, Bool.false_eq_true, if_false, Nat.add_zero]
          rw [Nat.lt_sub_iff_add_lt, induction (bound + 1)]
          refine or_congr (by omega) (exists_congr fun stretch => and_congr_right fun _ => ?_)
          omega
        · rw [Bool.not_eq_true] at closes
          simp only [opens, closes, Bool.false_eq_true, if_false, Nat.add_zero]
          exact induction bound

/-! ## Bodies -/

abbrev bodyKeywords : List String :=
  ["func", "forall", "exists", "assume", "unique"]

/-- The body that is formatted from a level where a node is formatted at an indentation: its own
one, one of a module's, or one that is nested in its own. -/
inductive HasBody : Node → Nat → List Node → Nat → Prop
  | own {first : Node} {rest : List Node} {indent : Nat}
      (isBody : bodyKeywords.any first.isKeyword = true) :
      HasBody (.list (first :: rest)) indent rest (indent + 1)
  | inModule {first child : Node} {rest body : List Node} {indent base : Nat}
      (isModule : first.isKeyword "module" = true) (member : child ∈ rest)
      (inside : HasBody child (indent + 1) body base) :
      HasBody (.list (first :: rest)) indent body base
  | nested {first : Node} {front children behind body : List Node} {indent base : Nat}
      (isBody : bodyKeywords.any first.isKeyword = true)
      (inside : HasBody (.list children) (levelBehind (indent + 1) front) body base) :
      HasBody (.list (first :: (front ++ .list children :: behind))) indent body base

def elseAtom : Node :=
  .atom "else".toList

/-- Every `else` of a body stands above zero. -/
def ElsesFit (body : List Node) (base : Nat) : Prop :=
  ∀ front behind, body = front ++ elseAtom :: behind → 0 < levelBehind base front

theorem linesFit_iff (nodes : List Node) (indent : Nat) :
    linesFit nodes indent = true ↔ ∀ node ∈ nodes, node.fits indent = true := by
  induction nodes with
  | nil => exact iff_of_true rfl fun _ member => absurd member List.not_mem_nil
  | cons node rest induction => rw [linesFit, Bool.and_eq_true, induction, List.forall_mem_cons]

theorem elsesFit_cons {node : Node} (notElse : node ≠ elseAtom) (rest : List Node) (level : Nat) :
    ElsesFit (node :: rest) level ↔ ElsesFit rest (levelStep level node) := by
  constructor
  · intro fits front behind split
    exact fits (node :: front) behind (congrArg (node :: ·) split)
  · intro fits front behind split
    cases front with
    | nil =>
        cases split
        exact absurd rfl notElse
    | cons first front =>
        cases split
        exact fits front behind rfl

theorem elsesFit_else (rest : List Node) (level : Nat) :
    ElsesFit (elseAtom :: rest) level ↔ 0 < level ∧ ElsesFit rest level := by
  have same : levelStep level elseAtom = level := rfl
  constructor
  · intro fits
    refine ⟨fits [] rest rfl, fun front behind split => ?_⟩
    have behindElse := fits (elseAtom :: front) behind (congrArg (elseAtom :: ·) split)
    rwa [levelBehind, List.foldl_cons, same] at behindElse
  · intro ⟨positive, fits⟩ front behind split
    cases front with
    | nil => exact positive
    | cons first front =>
        cases split
        rw [levelBehind, List.foldl_cons, same]
        exact fits front behind rfl

/-- Every list in a body fits at the level where it stands. -/
def ListsFit (body : List Node) (base : Nat) : Prop :=
  ∀ front children behind, body = front ++ .list children :: behind →
    Node.fits (.list children) (levelBehind base front) = true

theorem listsFit_atom (token : Text) (rest : List Node) (level : Nat) :
    ListsFit (.atom token :: rest) level ↔ ListsFit rest (levelStep level (.atom token)) := by
  constructor
  · intro fits front children behind split
    exact fits (.atom token :: front) children behind (congrArg (.atom token :: ·) split)
  · intro fits front children behind split
    cases front with
    | nil => cases split
    | cons first front =>
        cases split
        exact fits front children behind rfl

theorem listsFit_list (children rest : List Node) (level : Nat) :
    ListsFit (.list children :: rest) level ↔
      Node.fits (.list children) level = true ∧ ListsFit rest level := by
  constructor
  · intro fits
    refine ⟨fits [] children rest rfl, fun front other behind split => ?_⟩
    exact fits (.list children :: front) other behind (congrArg (.list children :: ·) split)
  · intro ⟨first, fits⟩ front other behind split
    cases front with
    | nil =>
        cases split
        exact first
    | cons node front =>
        cases split
        exact fits front other behind rfl

theorem bodyFits_iff (nodes : List Node) (level : Nat) :
    bodyFits nodes level = true ↔ ElsesFit nodes level ∧ ListsFit nodes level := by
  induction nodes generalizing level with
  | nil =>
      refine iff_of_true (by rw [bodyFits]) ⟨fun front behind split => ?_,
        fun front children behind split => ?_⟩
      · cases front <;> cases split
      · cases front <;> cases split
  | cons node rest induction =>
      cases node with
      | list children =>
          rw [bodyFits, Bool.and_eq_true, induction, listsFit_list,
            elsesFit_cons (by intro same; cases same)]
          exact and_left_comm
      | atom token =>
          rw [listsFit_atom]
          by_cases isElse : token = "else".toList
          · subst isElse
            change _ ↔ ElsesFit (elseAtom :: rest) level ∧ ListsFit rest level
            rw [elsesFit_else, bodyFits, if_neg (by decide), if_pos rfl, Bool.and_eq_true,
              induction, and_assoc, bne_iff_ne, Nat.pos_iff_ne_zero]
          · have notElse : Node.atom token ≠ elseAtom := fun same => isElse (Node.atom.inj same)
            rw [elsesFit_cons notElse, ← induction, bodyFits, levelStep, if_neg isElse]
            simp only [Node.isKeyword, decide_eq_true_eq]
            split
            · rfl
            · split <;> rfl

/-- Where the bodies of a node fit, the node does. -/
theorem fits_iff (node : Node) (indent : Nat) :
    node.fits indent = true ↔ ∀ body base, HasBody node indent body base → ElsesFit body base := by
  induction node using Node.induct generalizing indent with
  | atom s => exact iff_of_true (by rw [Node.fits]) fun body base inside => by cases inside
  | list children induction =>
      cases children with
      | nil => exact iff_of_true (by rw [Node.fits]) fun body base inside => by cases inside
      | cons first rest =>
          have inRest := fun child member => induction child (List.mem_cons_of_mem first member)
          rw [Node.fits]
          by_cases isModule : first.isKeyword "module" = true
          · have notBody : ¬ bodyKeywords.any first.isKeyword = true := by
              rw [List.any_eq_true]
              rintro ⟨keyword, listed, isKeyword⟩
              rw [isKeyword_unique isKeyword isModule] at listed
              exact absurd listed (by decide)
            rw [if_pos isModule, linesFit_iff]
            constructor
            · intro fits body base inside
              cases inside with
              | own isBody => exact absurd isBody notBody
              | inModule _ member inside =>
                  exact (inRest _ member _).mp (fits _ member) body base inside
              | nested isBody _ => exact absurd isBody notBody
            · intro fits child member
              exact (inRest child member _).mpr fun body base inside =>
                fits body base (.inModule isModule member inside)
          · rw [if_neg isModule]
            by_cases isBody : bodyKeywords.any first.isKeyword = true
            · rw [if_pos isBody, bodyFits_iff]
              constructor
              · intro fits body base inside
                cases inside with
                | own _ => exact fits.1
                | inModule isOther _ _ => exact absurd isOther isModule
                | @nested _ front children behind _ _ _ _ inside =>
                    have inList := inRest (.list children)
                      (List.mem_append_right _ List.mem_cons_self)
                    exact (inList _).mp (fits.2 front children behind rfl) body base inside
              · intro fits
                refine ⟨fits _ _ (.own isBody), fun front children behind split => ?_⟩
                subst split
                have inList := inRest (.list children)
                  (List.mem_append_right _ List.mem_cons_self)
                exact (inList _).mpr fun body base inside =>
                  fits body base (.nested isBody inside)
            · rw [if_neg isBody]
              refine iff_of_true rfl fun body base inside => ?_
              cases inside with
              | own isOther => exact absurd isOther isBody
              | inModule isOther _ _ => exact absurd isOther isModule
              | nested isOther _ => exact absurd isOther isBody

/-! ## Returning -/

/-- The parsers end, and the printer returns a text. -/
def Formats (input : Text) : Prop :=
  (∃ enough, ∀ steps, enough ≤ steps →
      parseAllFrom steps (tokenize input) = parseAll (tokenize input)) ∧
    (format input).isSome

/-- The formatter returns exactly if in front of every `else` of a body there are fewer `end`s than
`if`s and levels of the body, or if the last nodes in front of it open more than they close. -/
theorem formats_iff (input : Text) :
    Formats input ↔
      ∀ node ∈ parseAll (tokenize input), ∀ body base, HasBody node 0 body base →
        ∀ front behind, body = front ++ elseAtom :: behind →
          countKeyword "end" front < base + countKeyword "if" front ∨
            ∃ stretch, stretch <:+ front ∧
              countKeyword "end" stretch < countKeyword "if" stretch := by
  have parses : ∃ enough, ∀ steps, enough ≤ steps →
      parseAllFrom steps (tokenize input) = parseAll (tokenize input) :=
    ⟨_, fun _ enough => parseAllFrom_enough enough⟩
  rw [Formats, and_iff_right parses, format_isSome, nodesFit, List.all_eq_true]
  refine forall₂_congr fun node _ => (fits_iff node 0).trans ?_
  refine forall₂_congr fun body base => forall_congr' fun _ => forall₂_congr fun front behind =>
    forall_congr' fun _ => (lt_levelBehind 0 base front).trans ?_
  simp only [Nat.zero_add]

/-- The second `end` keeps the indentation at zero, and the `else` takes one from it. -/
theorem elseAtZero_fails : ¬ ∀ input : Text, Formats input := by
  intro formats
  have fails : format "(func end else)".toList = none := by decide +kernel
  have returns := (formats "(func end else)".toList).2
  rw [fails] at returns
  cases returns

end Inference.WatFmt
