import Inference.WasmToV.CanonicalOperator
import Inference.WasmToV.ModuleTranslation

/-! # Faithfulness of the translation

Which operators and which bodies the emitted text tells apart. For operators the
canonical form decides. For bodies it is the canonical form of their lines, the
printed local names, and whether an operator is rejected.
-/

namespace Inference.WasmToV

/-! ## Operators -/

/-- One of two operators is rejected, or they are translated to different texts. -/
def OperatorsDistinguished (first second : Operator) (firstNames secondNames : Option NameMap) :
    Prop :=
  (∃ error, translateBasicOperator first firstNames = Outcome.fail error) ∨
    (∃ error, translateBasicOperator second secondNames = Outcome.fail error) ∨
    ∃ firstText secondText, translateBasicOperator first firstNames = .ok firstText ∧
      translateBasicOperator second secondNames = .ok secondText ∧ firstText ≠ secondText

/-- One of two operators is rejected, or both are supported and differ in what
the translator keeps. -/
def OperatorsDiffer (first second : Operator) : Prop :=
  first.support = .rejected ∨ second.support = .rejected ∨
    (first.support = .supported ∧ second.support = .supported ∧
      first.canonical ≠ second.canonical)

variable {names : Option NameMap}

theorem rejected_of_fail {op : Operator} {error : TranslationError}
    (fails : translateBasicOperator op names = Outcome.fail error) : op.support = .rejected := by
  cases support : op.support with
  | rejected => rfl
  | supported =>
      obtain ⟨text, translated⟩ := translateBasicOperator_ok support names
      rw [translated] at fails
      cases fails
  | unimplemented =>
      rw [translateBasicOperator_panic support] at fails
      cases fails

theorem operatorsDistinguished_iff {first second : Operator} (different : first ≠ second)
    (firstNames secondNames : Option NameMap) :
    OperatorsDistinguished first second firstNames secondNames ↔ OperatorsDiffer first second := by
  constructor
  · rintro (⟨error, fails⟩ | ⟨error, fails⟩ | ⟨_, _, firstTranslated, secondTranslated, apart⟩)
    · exact .inl (rejected_of_fail fails)
    · exact .inr (.inl (rejected_of_fail fails))
    · refine .inr (.inr ⟨supported_of_translated firstTranslated,
        supported_of_translated secondTranslated, fun same => apart ?_⟩)
      refine (translated_eq_iff firstTranslated secondTranslated).mpr ⟨same, ?_⟩
      -- Different operators with one canonical form do not access locals.
      have noLocal : first.localIndex = none := by
        cases accesses : first.localIndex with
        | none => rfl
        | some localIndex => exact absurd (eq_of_canonical_local accesses same) different
      have otherNoLocal : second.localIndex = none := by
        rw [← canonical_localIndex, ← same, canonical_localIndex, noLocal]
      rw [Operator.comment, Operator.comment, noLocal, otherNoLocal]
      rfl
  · rintro (rejected | rejected | ⟨firstSupported, secondSupported, apart⟩)
    · exact .inl (translateBasicOperator_fail rejected firstNames)
    · exact .inr (.inl (translateBasicOperator_fail rejected secondNames))
    · obtain ⟨firstText, firstTranslated⟩ := translateBasicOperator_ok firstSupported firstNames
      obtain ⟨secondText, secondTranslated⟩ :=
        translateBasicOperator_ok secondSupported secondNames
      refine .inr (.inr ⟨firstText, secondText, firstTranslated, secondTranslated, fun same => ?_⟩)
      exact apart ((translated_eq_iff firstTranslated secondTranslated).mp same).1

/-! ## Lines -/

namespace Token

def canonical : Token → Token
  | .line op => .line op.canonical
  | .opened label => .opened label.canonical
  | .nextArm => .nextArm
  | .closed => .closed

/-- The name printed on a line. -/
def comment (names : Option NameMap) : Token → Option String
  | .line op => op.comment names
  | _ => none

/-- A line holds an ordinary operator, an opened line one that opens a nested
expression, and both are supported. -/
inductive Printable : Token → Prop
  | line (role : op.role = .ordinary) (supported : op.support = .supported) :
      Printable (.line op)
  | opened (role : label.role = .opensBlock ∨ label.role = .opensCondition)
      (supported : label.support = .supported) : Printable (.opened label)
  | nextArm : Printable .nextArm
  | closed : Printable .closed

/-- The symbols of a line behind its offset. -/
def content (names : Option NameMap) : Token → List Char
  | .line op => (op.term.elim [] Term.text) ++ op.lineTail names
  | .opened label => (label.term.elim [] Term.text) ++ [' ', '(', '\n']
  | .nextArm => ['n', 'i', 'l', ')', ' ', '(', '\n']
  | .closed => ['n', 'i', 'l', ')', ' ', ':', ':', '\n']

theorem depthAfter_canonical (token : Token) (depth : Nat) :
    token.canonical.depthAfter depth = token.depthAfter depth := by
  cases token <;> rfl

end Token

theorem toList_offsetText (tabsCount : Nat) :
    (offsetText tabsCount).toList = List.replicate (2 * tabsCount) ' ' := by
  have spaces : "  ".toList = List.replicate 2 ' ' := String.toList_ofList
  rw [offsetText, String.toList_join, List.flatMap_def, List.map_replicate, spaces,
    List.flatten_replicate_replicate, Nat.mul_comm]

/-- A printable line can be rendered, and its text is its offset and content. -/
theorem Token.Printable.render {token : Token} (printable : token.Printable)
    (names : Option NameMap) (tabs depth : Nat) :
    ∃ text, token.render names tabs depth = .ok text ∧
      text.toList = (offsetText (tabs + depth)).toList ++ token.content (namesAt names depth) := by
  cases printable with
  | line role supported =>
      rename_i op
      obtain ⟨text, translated⟩ := translateBasicOperator_ok supported (namesAt names depth)
      obtain ⟨term, hasTerm⟩ := term_exists supported (by simp [role])
      refine ⟨_, by rw [Token.render, translated]; rfl, ?_⟩
      have separator : listExt.toList = [' ', ':', ':', '\n'] := String.toList_ofList
      rw [String.toList_append, String.toList_append, separator, List.append_assoc,
        term_text hasTerm translated, Token.content, hasTerm]
      rfl
  | opened role supported =>
      rename_i label
      obtain ⟨text, translated⟩ := translateBasicOperator_ok supported (namesAt names depth)
      obtain ⟨term, hasTerm⟩ := term_exists supported (by rcases role with role | role <;> simp [role])
      refine ⟨_, by rw [Token.render, translated]; rfl, ?_⟩
      have separator : " (\n".toList = [' ', '(', '\n'] := String.toList_ofList
      rw [String.toList_append, String.toList_append, separator, List.append_assoc,
        opener_text role hasTerm translated, Token.content, hasTerm]
      rfl
  | nextArm =>
      refine ⟨_, rfl, ?_⟩
      have nothing : "nil".toList = ['n', 'i', 'l'] := String.toList_ofList
      have separator : ") (\n".toList = [')', ' ', '(', '\n'] := String.toList_ofList
      rw [String.toList_append, String.toList_append, nothing, separator, List.append_assoc]
      rfl
  | closed =>
      refine ⟨_, rfl, ?_⟩
      have nothing : "nil".toList = ['n', 'i', 'l'] := String.toList_ofList
      have closing : ") ".toList = [')', ' '] := String.toList_ofList
      have separator : "::\n".toList = [':', ':', '\n'] := String.toList_ofList
      rw [String.toList_append, String.toList_append, String.toList_append, nothing, closing,
        separator, List.append_assoc]
      rfl

/-! ## Reading lines back -/

/-- The symbols behind the name of a local. -/
def nameEnd : List Char := ['*', ')', ' ', ':', ':', '\n']

/-- Of two names, neither starts with the other one closed by the end of its line. -/
def LegibleNames (first second : Option String) : Prop :=
  ∀ name otherName, first = some name → second = some otherName →
    name = otherName ∨ (¬ name.toList ++ nameEnd <+: otherName.toList ∧
      ¬ otherName.toList ++ nameEnd <+: name.toList)

/-- Where lines first differ, it is not in a name that spells out the end of the other line. -/
def Legible (names otherNames : Option NameMap) : Nat → List Token → List Token → Prop
  | depth, token :: rest, other :: otherRest =>
      token.canonical = other.canonical →
        LegibleNames (token.comment (namesAt names depth))
            (other.comment (namesAt otherNames depth)) ∧
          (token.comment (namesAt names depth) = other.comment (namesAt otherNames depth) →
            Legible names otherNames (token.depthAfter depth) rest otherRest)
  | _, _, _ => True

theorem namesAt_none (depth : Nat) : namesAt none depth = none := by
  cases depth <;> rfl

theorem comment_unnamed (token : Token) : token.comment none = none := by
  cases token with
  | line op =>
      rw [Token.comment, Operator.comment]
      cases op.localIndex <;> rfl
  | opened _ | nextArm | closed => rfl

/-- Lines without names are legible. -/
theorem legible_unnamed (depth : Nat) (tokens others : List Token) :
    Legible none none depth tokens others := by
  induction tokens generalizing depth others with
  | nil => trivial
  | cons token rest induction =>
      cases others with
      | nil => trivial
      | cons other otherRest =>
          intro _
          refine ⟨fun name otherName named => ?_, fun _ => induction _ _⟩
          rw [namesAt_none, comment_unnamed] at named
          cases named

variable {firstRest secondRest : List Char}

/-- The end of a name stands behind itself only when it stands there completely. -/
private theorem nameEnd_overlap {front : List Char}
    (equal : nameEnd ++ firstRest = front ++ (nameEnd ++ secondRest)) :
    front = [] ∨ nameEnd <+: front := by
  rcases front with _ | ⟨_, _ | ⟨_, _ | ⟨_, _ | ⟨_, _ | ⟨_, _ | ⟨_, rest⟩⟩⟩⟩⟩⟩ <;>
    simp [nameEnd] at equal
  · exact .inl rfl
  · obtain ⟨rfl, rfl, rfl, rfl, rfl, rfl, _⟩ := equal
    exact .inr (List.prefix_append nameEnd rest)

variable {otherRest : List Char}

private theorem commentName_cancel {name otherName : String} {rest : List Char}
    (legible : name = otherName ∨ (¬ name.toList ++ nameEnd <+: otherName.toList ∧
      ¬ otherName.toList ++ nameEnd <+: name.toList))
    (equal : name.toList ++ (nameEnd ++ rest) = otherName.toList ++ (nameEnd ++ otherRest)) :
    name = otherName := by
  rcases legible with rfl | ⟨notPrefix, otherNotPrefix⟩
  · rfl
  rcases List.append_eq_append_iff.mp equal with ⟨front, spelled, behind⟩ | ⟨front, spelled, behind⟩
  · rcases nameEnd_overlap behind with rfl | closed
    · exact String.toList_inj.mp (by rw [spelled, List.append_nil])
    · exact absurd (spelled ▸ (List.prefix_append_right_inj _).mpr closed) notPrefix
  · rcases nameEnd_overlap behind with rfl | closed
    · exact String.toList_inj.mp (by rw [spelled, List.append_nil])
    · exact absurd (spelled ▸ (List.prefix_append_right_inj _).mpr closed) otherNotPrefix

private theorem commentTail_cancel {first second : Option String}
    (legible : LegibleNames first second)
    (equal : commentTail first ++ firstRest = commentTail second ++ secondRest) :
    first = second ∧ firstRest = secondRest := by
  cases first with
  | none =>
      cases second with
      | none => exact ⟨rfl, List.append_cancel_left equal⟩
      | some name => simp [commentTail] at equal
  | some name =>
      cases second with
      | none => simp [commentTail] at equal
      | some otherName =>
          simp only [commentTail, List.append_assoc] at equal
          have named := List.append_cancel_left equal
          obtain rfl := commentName_cancel (legible name otherName rfl rfl) named
          exact ⟨rfl, List.append_cancel_left (List.append_cancel_left named)⟩

variable {otherNames : Option NameMap} {token : Token}

namespace Token

theorem content_line {op : Operator} (role : op.role = .ordinary)
    (supported : op.support = .supported) (names : Option NameMap) :
    ∃ rest, (line op).content names = 'B' :: rest := by
  have printed : op.role ≠ .closes := by simp [role]
  obtain ⟨text, translated⟩ := translateBasicOperator_ok supported names
  obtain ⟨term, hasTerm⟩ := term_exists supported printed
  obtain ⟨rest, spelled⟩ := startsTerm_translated printed translated
  have written := term_text hasTerm translated
  rw [spelled, List.cons_append] at written
  refine ⟨rest ++ [' ', ':', ':', '\n'], ?_⟩
  rw [content, hasTerm]
  exact written.symm

theorem content_opened {label : Operator}
    (role : label.role = .opensBlock ∨ label.role = .opensCondition)
    (supported : label.support = .supported) (names : Option NameMap) :
    ∃ rest, (opened label).content names = 'B' :: rest := by
  have printed : label.role ≠ .closes := by rcases role with role | role <;> simp [role]
  obtain ⟨text, translated⟩ := translateBasicOperator_ok supported names
  obtain ⟨term, hasTerm⟩ := term_exists supported printed
  obtain ⟨rest, spelled⟩ := startsTerm_translated printed translated
  refine ⟨rest ++ [' ', '(', '\n'], ?_⟩
  rw [content, hasTerm, Option.elim, ← opener_text role hasTerm translated, spelled]
  rfl

/-- Two terms with one text stand for one canonical operator. -/
private theorem canonical_of_text {first second : Operator} {firstTerm secondTerm : Term}
    (firstHas : first.term = some firstTerm) (secondHas : second.term = some secondTerm)
    (equal : firstTerm.text ++ firstRest = secondTerm.text ++ secondRest) :
    first.canonical = second.canonical ∧ firstRest = secondRest := by
  obtain ⟨same, rest⟩ := Term.cancel (term_mem firstHas) (term_mem secondHas) equal
  exact ⟨(term_eq_iff firstHas secondHas).mp same, rest⟩

private theorem lineTail_cancel {first second : Operator}
    (legible : LegibleNames (first.comment names) (second.comment otherNames))
    (role : first.role = .ordinary) (same : first.canonical = second.canonical) {rest : List Char}
    (equal : first.lineTail names ++ rest = second.lineTail otherNames ++ otherRest) :
    first.comment names = second.comment otherNames ∧ rest = otherRest := by
  have otherRole : second.role = .ordinary := by
    rw [← canonical_role, ← same, canonical_role, role]
  have sameLocal : second.localIndex = first.localIndex := by
    rw [← canonical_localIndex, ← same, canonical_localIndex]
  rw [Operator.lineTail, Operator.lineTail, role, otherRole, sameLocal] at equal
  cases accesses : first.localIndex with
  | none =>
      rw [accesses] at equal
      rw [Operator.comment, Operator.comment, sameLocal, accesses]
      exact ⟨rfl, equal⟩
  | some localIndex =>
      rw [accesses] at equal
      exact commentTail_cancel legible equal

/-- A line determines its canonical operator, the name printed on it, and what
follows it. -/
theorem Printable.content_cancel {other : Token} (printable : token.Printable)
    (otherPrintable : other.Printable) (legible : token.canonical = other.canonical →
      LegibleNames (token.comment names) (other.comment otherNames)) {rest : List Char}
    (equal : token.content names ++ rest = other.content otherNames ++ otherRest) :
    token.canonical = other.canonical ∧ token.comment names = other.comment otherNames ∧
      rest = otherRest := by
  have notOpened : ∀ {op label : Operator}, op.role = .ordinary →
      label.role = .opensBlock ∨ label.role = .opensCondition → op.canonical ≠ label.canonical := by
    intro op label role opens same
    rw [← canonical_role, same, canonical_role] at role
    rcases opens with opens | opens <;>
      rw [role] at opens <;>
      cases opens
  cases printable with
  | line role supported =>
      rename_i op
      cases otherPrintable with
      | line otherRole otherSupported =>
          rename_i otherOp
          obtain ⟨term, hasTerm⟩ := term_exists supported (by simp [role])
          obtain ⟨otherTerm, otherHas⟩ := term_exists otherSupported (by simp [otherRole])
          simp only [content, hasTerm, otherHas, Option.elim, List.append_assoc] at equal
          obtain ⟨same, tails⟩ := canonical_of_text hasTerm otherHas equal
          have sameToken : (Token.line op).canonical = (Token.line otherOp).canonical :=
            congrArg Token.line same
          exact ⟨sameToken, lineTail_cancel (legible sameToken) role same tails⟩
      | opened otherRole otherSupported =>
          obtain ⟨term, hasTerm⟩ := term_exists supported (by simp [role])
          obtain ⟨otherTerm, otherHas⟩ := term_exists otherSupported
            (by rcases otherRole with otherRole | otherRole <;> simp [otherRole])
          simp only [content, hasTerm, otherHas, Option.elim, List.append_assoc] at equal
          exact absurd (canonical_of_text hasTerm otherHas equal).1 (notOpened role otherRole)
      | nextArm | closed =>
          obtain ⟨_, spelled⟩ := content_line role supported names
          rw [spelled] at equal
          simp [content] at equal
  | opened role supported =>
      cases otherPrintable with
      | line otherRole otherSupported =>
          obtain ⟨term, hasTerm⟩ := term_exists supported
            (by rcases role with role | role <;> simp [role])
          obtain ⟨otherTerm, otherHas⟩ := term_exists otherSupported (by simp [otherRole])
          simp only [content, hasTerm, otherHas, Option.elim, List.append_assoc] at equal
          exact absurd (canonical_of_text otherHas hasTerm equal.symm).1 (notOpened otherRole role)
      | opened otherRole otherSupported =>
          obtain ⟨term, hasTerm⟩ := term_exists supported
            (by rcases role with role | role <;> simp [role])
          obtain ⟨otherTerm, otherHas⟩ := term_exists otherSupported
            (by rcases otherRole with otherRole | otherRole <;> simp [otherRole])
          simp only [content, hasTerm, otherHas, Option.elim, List.append_assoc] at equal
          obtain ⟨same, tails⟩ := canonical_of_text hasTerm otherHas equal
          exact ⟨congrArg Token.opened same, rfl, List.append_cancel_left tails⟩
      | nextArm | closed =>
          obtain ⟨_, spelled⟩ := content_opened role supported names
          rw [spelled] at equal
          simp [content] at equal
  | nextArm =>
      cases otherPrintable with
      | nextArm => exact ⟨rfl, rfl, List.append_cancel_left equal⟩
      | closed => simp [content] at equal
      | line otherRole otherSupported =>
          obtain ⟨_, spelled⟩ := content_line otherRole otherSupported otherNames
          rw [spelled] at equal
          simp [content] at equal
      | opened otherRole otherSupported =>
          obtain ⟨_, spelled⟩ := content_opened otherRole otherSupported otherNames
          rw [spelled] at equal
          simp [content] at equal
  | closed =>
      cases otherPrintable with
      | closed => exact ⟨rfl, rfl, List.append_cancel_left equal⟩
      | nextArm => simp [content] at equal
      | line otherRole otherSupported =>
          obtain ⟨_, spelled⟩ := content_line otherRole otherSupported otherNames
          rw [spelled] at equal
          simp [content] at equal
      | opened otherRole otherSupported =>
          obtain ⟨_, spelled⟩ := content_opened otherRole otherSupported otherNames
          rw [spelled] at equal
          simp [content] at equal

/-- Lines with one canonical operator and one name have the same symbols. -/
theorem content_eq {other : Token} (same : token.canonical = other.canonical)
    (sameComment : token.comment names = other.comment otherNames) :
    token.content names = other.content otherNames := by
  cases token with
  | line op =>
      cases other with
      | line otherOp =>
          have sameOp : op.canonical = otherOp.canonical := Token.line.inj same
          rw [content, content, ← canonical_term op, sameOp, canonical_term,
            lineTail_eq sameOp sameComment]
      | opened _ | nextArm | closed => cases same
  | opened label =>
      cases other with
      | opened otherLabel =>
          have sameLabel : label.canonical = otherLabel.canonical := Token.opened.inj same
          rw [content, content, ← canonical_term label, sameLabel, canonical_term]
      | line _ | nextArm | closed => cases same
  | nextArm =>
      cases other with
      | nextArm => rfl
      | line _ | opened _ | closed => cases same
  | closed =>
      cases other with
      | closed => rfl
      | line _ | opened _ | nextArm => cases same

end Token

/-- The names printed on lines from a depth on. -/
def commentsFrom (names : Option NameMap) : Nat → List Token → List (Option String)
  | _, [] => []
  | depth, token :: rest =>
      token.comment (namesAt names depth) :: commentsFrom names (token.depthAfter depth) rest

/-- Closing lines stand inside nested expressions only. -/
def ClosersNested : Nat → List Token → Prop
  | _, [] => True
  | depth, token :: rest =>
      (token = .nextArm ∨ token = .closed → 0 < depth) ∧
        ClosersNested (token.depthAfter depth) rest

theorem closersNested_closing (frame : Frame) (outer : List Frame) (closer : Option Operator)
    (following : List Token)
    (nested : ClosersNested (frame.resumed closer ++ outer).length following) :
    ClosersNested (frame :: outer).length (frame.closing closer ++ following) := by
  have inside : 0 < (frame :: outer).length := Nat.succ_pos _
  cases frame with
  | block | elseArm => exact ⟨fun _ => inside, nested⟩
  | thenArm =>
      cases closer with
      | none => exact ⟨fun _ => inside, fun _ => inside, nested⟩
      | some op => cases op <;> first
          | exact ⟨fun _ => inside, nested⟩
          | exact ⟨fun _ => inside, fun _ => inside, nested⟩

variable {tokens : List Token}

/-- The scanner closes only what it has opened. -/
theorem skeleton_closersNested {frames : List Frame} {items : List OperatorItem}
    (lines : skeleton frames items = some tokens) :
    ClosersNested frames.length tokens := by
  induction items generalizing frames tokens with
  | nil =>
      simp only [skeleton, Option.some.injEq] at lines
      subst lines
      induction frames with
      | nil => trivial
      | cons frame outer induction =>
          rw [List.flatMap_cons]
          apply closersNested_closing
          cases frame <;> exact induction
  | cons item rest induction =>
      cases item with
      | error error => simp [skeleton] at lines
      | ok op =>
          cases role : op.role with
          | opensBlock =>
              simp only [skeleton, role, Option.map_eq_some_iff] at lines
              rcases lines with ⟨later, laterLines, rfl⟩
              exact ⟨by simp, induction laterLines⟩
          | opensCondition =>
              simp only [skeleton, role] at lines
              split at lines
              · cases lines
              · rcases Option.map_eq_some_iff.mp lines with ⟨later, laterLines, rfl⟩
                exact ⟨by simp, induction laterLines⟩
          | ordinary =>
              simp only [skeleton, role, Option.map_eq_some_iff] at lines
              rcases lines with ⟨later, laterLines, rfl⟩
              exact ⟨by simp, induction laterLines⟩
          | closes =>
              cases frames with
              | nil =>
                  simp only [skeleton, role, Option.some.injEq] at lines
                  subst lines
                  trivial
              | cons frame outer =>
                  simp only [skeleton, role, Option.map_eq_some_iff] at lines
                  rcases lines with ⟨later, laterLines, rfl⟩
                  exact closersNested_closing frame outer (some op) later (induction laterLines)

variable {tabs depth : Nat}

/-- The end of a body is not the start of another line, whatever follows it. -/
private theorem finish_ne (printable : token.Printable)
    (inside : token = .nextArm ∨ token = .closed → 0 < depth) (names : Option NameMap)
    (rest otherRest : List Char) :
    (offsetText tabs).toList ++ ('n' :: 'i' :: 'l' :: rest) ≠
      (offsetText (tabs + depth)).toList ++ (token.content names ++ otherRest) := by
  intro equal
  rw [toList_offsetText, toList_offsetText, Nat.mul_add, List.replicate_add,
    List.append_assoc] at equal
  have behind := List.append_cancel_left equal
  cases depth with
  | succ depth => simp [Nat.mul_add, List.replicate_succ] at behind
  | zero =>
      cases printable with
      | line role supported =>
          rcases Token.content_line role supported names with ⟨_, spelled⟩
          rw [spelled] at behind
          simp at behind
      | opened role supported =>
          rcases Token.content_opened role supported names with ⟨_, spelled⟩
          rw [spelled] at behind
          simp at behind
      | nextArm => exact absurd (inside (.inl rfl)) (Nat.lt_irrefl 0)
      | closed => exact absurd (inside (.inr rfl)) (Nat.lt_irrefl 0)

variable {text : String}

/-- Lines with one text agree in their canonical operators and their names, and
in what follows them. -/
theorem renderTokens_cancel
    {others : List Token} (legible : Legible names otherNames depth tokens others)
    (printable : ∀ token ∈ tokens, token.Printable)
    (otherPrintable : ∀ token ∈ others, token.Printable)
    (nested : ClosersNested depth tokens) (otherNested : ClosersNested depth others)
    {otherText : String} (rendered : renderTokens names tabs depth tokens = .ok text)
    (otherRendered : renderTokens otherNames tabs depth others = .ok otherText)
    {following otherFollowing : List Char}
    (equal : text.toList ++ ((offsetText tabs).toList ++ ('n' :: 'i' :: 'l' :: following)) =
      otherText.toList ++ ((offsetText tabs).toList ++ ('n' :: 'i' :: 'l' :: otherFollowing))) :
    tokens.map Token.canonical = others.map Token.canonical ∧
      commentsFrom names depth tokens = commentsFrom otherNames depth others ∧
      following = otherFollowing := by
  induction tokens generalizing depth others text otherText with
  | nil =>
      cases rendered
      cases others with
      | nil =>
          cases otherRendered
          have ends := List.append_cancel_left (List.append_cancel_left equal)
          simp only [List.cons.injEq, true_and] at ends
          exact ⟨rfl, rfl, ends⟩
      | cons other otherRest =>
          obtain ⟨line, lineRendered, remaining⟩ := bind_ok otherRendered
          obtain ⟨restText, restRendered, assembled⟩ := bind_ok remaining
          cases assembled
          have otherHere := otherPrintable other (by simp)
          obtain ⟨otherLine, otherLineRendered, spelled⟩ := otherHere.render otherNames tabs depth
          obtain rfl := Except.ok.inj (otherLineRendered.symm.trans lineRendered)
          rw [String.toList_append, spelled, List.append_assoc, List.append_assoc] at equal
          exact absurd equal (finish_ne otherHere otherNested.1 _ _ _)
  | cons token rest induction =>
      have here := printable token (by simp)
      obtain ⟨line, lineRendered, remaining⟩ := bind_ok rendered
      obtain ⟨restText, restRendered, assembled⟩ := bind_ok remaining
      cases assembled
      obtain ⟨_, sameLine, spelled⟩ := here.render names tabs depth
      obtain rfl := Except.ok.inj (sameLine.symm.trans lineRendered)
      rw [String.toList_append, spelled, List.append_assoc, List.append_assoc] at equal
      cases others with
      | nil =>
          cases otherRendered
          exact absurd equal.symm (finish_ne here nested.1 _ _ _)
      | cons other otherRest =>
          have otherHere := otherPrintable other (by simp)
          obtain ⟨otherLine, otherLineRendered, otherRemaining⟩ := bind_ok otherRendered
          obtain ⟨otherRestText, otherRestRendered, otherAssembled⟩ := bind_ok otherRemaining
          cases otherAssembled
          obtain ⟨_, otherSameLine, otherSpelled⟩ := otherHere.render otherNames tabs depth
          obtain rfl := Except.ok.inj (otherSameLine.symm.trans otherLineRendered)
          rw [String.toList_append, otherSpelled, List.append_assoc, List.append_assoc] at equal
          obtain ⟨sameToken, sameComment, behind⟩ := here.content_cancel otherHere
            (fun same => (legible same).1) (List.append_cancel_left equal)
          have sameDepth : other.depthAfter depth = token.depthAfter depth := by
            rw [← Token.depthAfter_canonical, ← sameToken, Token.depthAfter_canonical]
          rw [sameDepth] at otherRestRendered
          have restNested := nested.2
          have otherRestNested := otherNested.2
          rw [sameDepth] at otherRestNested
          obtain ⟨sameTokens, sameComments, sameFollowing⟩ := induction
            ((legible sameToken).2 sameComment) (fun token member => printable token (by simp [member]))
            (fun token member => otherPrintable token (by simp [member]))
            restNested otherRestNested restRendered otherRestRendered behind
          exact ⟨by rw [List.map_cons, List.map_cons, sameToken, sameTokens],
            by rw [commentsFrom, commentsFrom, sameComment, sameDepth, sameComments],
            sameFollowing⟩

/-- Lines that agree in their canonical operators and their names have one text. -/
theorem renderTokens_eq
    {others : List Token} (printable : ∀ token ∈ tokens, token.Printable)
    (otherPrintable : ∀ token ∈ others, token.Printable)
    (sameTokens : tokens.map Token.canonical = others.map Token.canonical)
    (sameComments : commentsFrom names depth tokens = commentsFrom otherNames depth others) :
    renderTokens names tabs depth tokens = renderTokens otherNames tabs depth others := by
  induction tokens generalizing depth others with
  | nil =>
      obtain rfl := List.map_eq_nil_iff.mp sameTokens.symm
      rfl
  | cons token rest induction =>
      cases others with
      | nil => cases sameTokens
      | cons other otherRest =>
          obtain ⟨sameToken, sameRest⟩ := List.cons.inj sameTokens
          have sameDepth : other.depthAfter depth = token.depthAfter depth := by
            rw [← Token.depthAfter_canonical, ← sameToken, Token.depthAfter_canonical]
          rw [commentsFrom, commentsFrom, sameDepth] at sameComments
          obtain ⟨sameComment, sameLater⟩ := List.cons.inj sameComments
          obtain ⟨line, lineRendered, spelled⟩ :=
            (printable token (by simp)).render names tabs depth
          obtain ⟨otherLine, otherLineRendered, otherSpelled⟩ :=
            (otherPrintable other (by simp)).render otherNames tabs depth
          have sameLine : line = otherLine := by
            rw [Token.content_eq sameToken sameComment, ← otherSpelled] at spelled
            exact String.toList_inj.mp spelled
          rw [renderTokens, renderTokens, lineRendered, otherLineRendered, sameLine, sameDepth,
            induction (fun token member => printable token (by simp [member]))
              (fun token member => otherPrintable token (by simp [member])) sameRest sameLater]

/-! ## Renditions -/

/-- What the translation makes of the operators of a body. -/
inductive Rendition where
  | missing
  | misrendered
  | lines (tokens : List Token)
  deriving DecidableEq, Repr

/-- The first unsupported operator of the lines decides: a rejected one turns
the whole body into an error text, an unimplemented one stops the translation. -/
def rendition (items : List OperatorItem) : Rendition :=
  match skeleton [] items with
  | none => .missing
  | some tokens =>
      match (tokens.flatMap Token.operators).find? (·.support ≠ .supported) with
      | none => .lines tokens
      | some op => if op.support = .rejected then .misrendered else .missing

theorem rendition_skeleton {items : List OperatorItem}
    (printed : rendition items = .lines tokens) : skeleton [] items = some tokens := by
  rw [rendition] at printed
  split at printed
  case h_1 => cases printed
  case h_2 lines =>
      split at printed
      · cases printed
        exact lines
      · split at printed <;> cases printed

theorem closing_printable {frame : Frame} {closer : Option Operator}
    (member : token ∈ frame.closing closer) : token.Printable := by
  unfold Frame.closing at member
  split at member
  · rw [List.mem_singleton.mp member]
    exact .nextArm
  · rcases List.mem_cons.mp member with rfl | later
    · exact .nextArm
    · rw [List.mem_singleton.mp later]
      exact .closed
  · rw [List.mem_singleton.mp member]
    exact .closed

/-- Lines with supported operators only are printable. -/
theorem skeleton_printable {frames : List Frame} {items : List OperatorItem}
    (lines : skeleton frames items = some tokens) (member : token ∈ tokens)
    (supported : ∀ op ∈ token.operators, op.support = .supported) : token.Printable := by
  induction items generalizing frames tokens with
  | nil =>
      simp only [skeleton, Option.some.injEq] at lines
      subst lines
      obtain ⟨frame, _, closing⟩ := List.mem_flatMap.mp member
      exact closing_printable closing
  | cons item rest induction =>
      cases item with
      | error error => simp [skeleton] at lines
      | ok op =>
          cases role : op.role with
          | opensBlock =>
              simp only [skeleton, role, Option.map_eq_some_iff] at lines
              obtain ⟨later, laterLines, rfl⟩ := lines
              rcases List.mem_cons.mp member with rfl | laterMember
              · exact .opened (.inl role) (supported op (by simp [Token.operators]))
              · exact induction laterLines laterMember
          | opensCondition =>
              simp only [skeleton, role] at lines
              split at lines
              · cases lines
              · obtain ⟨later, laterLines, rfl⟩ := Option.map_eq_some_iff.mp lines
                rcases List.mem_cons.mp member with rfl | laterMember
                · exact .opened (.inr role) (supported op (by simp [Token.operators]))
                · exact induction laterLines laterMember
          | ordinary =>
              simp only [skeleton, role, Option.map_eq_some_iff] at lines
              obtain ⟨later, laterLines, rfl⟩ := lines
              rcases List.mem_cons.mp member with rfl | laterMember
              · exact .line role (supported op (by simp [Token.operators]))
              · exact induction laterLines laterMember
          | closes =>
              cases frames with
              | nil =>
                  simp only [skeleton, role, Option.some.injEq] at lines
                  subst lines
                  cases member
              | cons frame outer =>
                  simp only [skeleton, role, Option.map_eq_some_iff] at lines
                  obtain ⟨later, laterLines, rfl⟩ := lines
                  rcases List.mem_append.mp member with closing | laterMember
                  · exact closing_printable closing
                  · exact induction laterLines laterMember

/-- The first unsupported operator settles how rendering fails. -/
theorem renderTokens_unsupported {op : Operator}
    (first : (tokens.flatMap Token.operators).find? (·.support ≠ .supported) = some op)
    (names : Option NameMap) (tabs depth : Nat) :
    (op.support = .rejected ∧ ∃ error, renderTokens names tabs depth tokens = Outcome.fail error) ∨
      (op.support = .unimplemented ∧ renderTokens names tabs depth tokens = Outcome.panic) := by
  induction tokens generalizing depth with
  | nil => cases first
  | cons token rest induction =>
      rw [List.flatMap_cons, List.find?_append] at first
      have later : token.operators.find? (·.support ≠ .supported) = none →
          (∃ line, token.render names tabs depth = .ok line) →
          (op.support = .rejected ∧
            ∃ error, renderTokens names tabs depth (token :: rest) = Outcome.fail error) ∨
          (op.support = .unimplemented ∧
            renderTokens names tabs depth (token :: rest) = Outcome.panic) := by
        rintro noneHere ⟨line, rendered⟩
        rw [noneHere, Option.none_or] at first
        rcases induction first (token.depthAfter depth) with ⟨rejected, error, fails⟩ |
          ⟨unimplemented, panics⟩
        · exact .inl ⟨rejected, error, by rw [renderTokens, rendered, ok_bind, fails]; rfl⟩
        · exact .inr ⟨unimplemented, by rw [renderTokens, rendered, ok_bind, panics]; rfl⟩
      cases token with
      | nextArm | closed => exact later rfl ⟨_, rfl⟩
      | line here | opened here =>
          cases support : here.support with
          | supported =>
              obtain ⟨text, translated⟩ :=
                translateBasicOperator_ok support (namesAt names depth)
              exact later (by simp [Token.operators, support])
                ⟨_, by rw [Token.render, translated, ok_bind]; rfl⟩
          | rejected =>
              simp only [Token.operators, ne_eq, decide_not, support, reduceCtorEq,
                decide_false, Bool.not_false, List.find?_cons_of_pos, Option.some_or,
                Option.some.injEq] at first
              obtain ⟨error, fails⟩ := translateBasicOperator_fail support (namesAt names depth)
              refine .inl ⟨by rw [← first, support], error, ?_⟩
              rw [renderTokens, Token.render, fails]
              rfl
          | unimplemented =>
              simp only [Token.operators, ne_eq, decide_not, support, reduceCtorEq,
                decide_false, Bool.not_false, List.find?_cons_of_pos, Option.some_or,
                Option.some.injEq] at first
              refine .inr ⟨by rw [← first, support], ?_⟩
              rw [renderTokens, Token.render,
                translateBasicOperator_panic support (namesAt names depth)]
              rfl

/-- The translation of a body, from its rendition. -/
def Rendition.Describes (names : Option NameMap) (outcome : Outcome String) : Rendition → Prop
  | .missing => ∃ failure, outcome = .error failure
  | .misrendered => outcome = .ok "Error rendering expression"
  | .lines tokens => (∀ token ∈ tokens, token.Printable) ∧
      ∃ text, renderTokens names 2 0 tokens = .ok text ∧
        outcome = .ok (text ++ offsetText 2 ++ "nil")

theorem rendition_describes (items : List OperatorItem) (names : Option NameMap) :
    (rendition items).Describes names (translateExpr items names) := by
  rw [translateExpr_scan, rendition]
  cases lines : skeleton [] items with
  | none => exact ⟨_, rfl⟩
  | some tokens =>
      dsimp only
      cases first : (tokens.flatMap Token.operators).find? (·.support ≠ .supported) with
      | none =>
          have supported : ∀ op ∈ tokens.flatMap Token.operators, op.support = .supported := by
            intro op member
            simpa using List.find?_eq_none.mp first op member
          obtain ⟨text, rendered⟩ := renderTokens_ok names 2 0 supported
          refine ⟨fun token member => skeleton_printable lines member fun op opMember =>
            supported op (List.mem_flatMap.mpr ⟨token, member, opMember⟩), text, rendered, ?_⟩
          rw [rendered, finishText]
      | some op =>
          rcases renderTokens_unsupported first names 2 0 with
            ⟨rejected, error, fails⟩ | ⟨unimplemented, panics⟩
          · simp only [rejected, if_true, fails]
            rfl
          · simp only [unimplemented, panics]
            exact ⟨_, rfl⟩

/-- One of two bodies is missing, or only one of them turns into the error text,
or their lines differ in what the translator keeps or in the printed names. -/
def Rendition.Differ (firstNames secondNames : Option NameMap) : Rendition → Rendition → Prop
  | .misrendered, .misrendered => False
  | .lines tokens, .lines others =>
      tokens.map Token.canonical ≠ others.map Token.canonical ∨
        commentsFrom firstNames 0 tokens ≠ commentsFrom secondNames 0 others
  | _, _ => True

def Rendition.Legible (names otherNames : Option NameMap) : Rendition → Rendition → Prop
  | .lines tokens, .lines others => WasmToV.Legible names otherNames 0 tokens others
  | _, _ => True

theorem Rendition.legible_unnamed (first second : Rendition) : first.Legible none none second := by
  cases first with
  | missing | misrendered => trivial
  | lines tokens =>
      cases second with
      | missing | misrendered => trivial
      | lines others => exact WasmToV.legible_unnamed 0 tokens others

private theorem toList_finished (text : String) (following : List Char) :
    (text ++ offsetText 2 ++ "nil").toList ++ following =
      text.toList ++ ((offsetText 2).toList ++ ('n' :: 'i' :: 'l' :: following)) := by
  have nothing : "nil".toList = ['n', 'i', 'l'] := String.toList_ofList
  rw [String.toList_append, String.toList_append, nothing, List.append_assoc, List.append_assoc]
  rfl

/-- The error text does not start like lines. -/
private theorem finished_ne_error (printable : ∀ token ∈ tokens, token.Printable)
    (rendered : renderTokens names 2 0 tokens = .ok text) (following otherFollowing : List Char) :
    (text ++ offsetText 2 ++ "nil").toList ++ following ≠
      "Error rendering expression".toList ++ otherFollowing := by
  intro equal
  have error : "Error rendering expression".toList =
      ['E', 'r', 'r', 'o', 'r', ' ', 'r', 'e', 'n', 'd', 'e', 'r', 'i', 'n', 'g', ' ', 'e', 'x',
        'p', 'r', 'e', 's', 's', 'i', 'o', 'n'] := String.toList_ofList
  rw [toList_finished, error] at equal
  cases tokens with
  | nil =>
      cases rendered
      rw [toList_offsetText] at equal
      simp [List.replicate_succ] at equal
  | cons token rest =>
      obtain ⟨line, lineRendered, remaining⟩ := bind_ok rendered
      obtain ⟨restText, _, assembled⟩ := bind_ok remaining
      cases assembled
      obtain ⟨sameLine, sameRendered, spelled⟩ :=
        (printable token List.mem_cons_self).render names 2 0
      rw [sameRendered] at lineRendered
      cases lineRendered
      rw [String.toList_append, spelled, toList_offsetText] at equal
      simp [List.replicate_succ] at equal

/-- Renditions that do not differ have one text. -/
theorem Rendition.texts_of_not_differ {first second : Rendition} {outcome other : Outcome String}
    (same : ¬ first.Differ names otherNames second) (described : first.Describes names outcome)
    (otherDescribed : second.Describes otherNames other) :
    ∃ text, outcome = .ok text ∧ other = .ok text := by
  cases first with
  | missing => exact absurd trivial same
  | misrendered =>
      cases second with
      | missing | lines _ => exact absurd trivial same
      | misrendered => exact ⟨_, described, otherDescribed⟩
  | lines tokens =>
      cases second with
      | missing | misrendered => exact absurd trivial same
      | lines others =>
          obtain ⟨printable, text, rendered, result⟩ := described
          obtain ⟨otherPrintable, otherText, otherRendered, otherResult⟩ := otherDescribed
          simp only [Rendition.Differ, ne_eq, not_or, not_not] at same
          rw [renderTokens_eq printable otherPrintable same.1 same.2, otherRendered] at rendered
          cases rendered
          exact ⟨_, result, otherResult⟩

/-- What an expression shows can be read back from its text, together with what
follows the text. -/
theorem translateExpr_cancel {items others : List OperatorItem}
    (legible : (rendition items).Legible names otherNames (rendition others))
    {otherText : String} (translated : translateExpr items names = .ok text)
    (otherTranslated : translateExpr others otherNames = .ok otherText)
    {following otherFollowing : List Char}
    (equal : text.toList ++ following = otherText.toList ++ otherFollowing) :
    ¬ (rendition items).Differ names otherNames (rendition others) ∧
      following = otherFollowing := by
  have described := rendition_describes items names
  have otherDescribed := rendition_describes others otherNames
  rw [translated] at described
  rw [otherTranslated] at otherDescribed
  cases kind : rendition items with
  | missing =>
      rw [kind] at described
      obtain ⟨_, fails⟩ := described
      cases fails
  | misrendered =>
      rw [kind] at described
      cases described
      cases otherKind : rendition others with
      | missing =>
          rw [otherKind] at otherDescribed
          obtain ⟨_, fails⟩ := otherDescribed
          cases fails
      | misrendered =>
          rw [otherKind] at otherDescribed
          cases otherDescribed
          exact ⟨id, List.append_cancel_left equal⟩
      | lines otherTokens =>
          rw [otherKind] at otherDescribed
          obtain ⟨otherPrintable, lines, otherRendered, spelled⟩ := otherDescribed
          cases spelled
          exact absurd equal.symm (finished_ne_error otherPrintable otherRendered _ _)
  | lines tokens =>
      rw [kind] at described
      obtain ⟨printable, lines, rendered, spelled⟩ := described
      cases spelled
      cases otherKind : rendition others with
      | missing =>
          rw [otherKind] at otherDescribed
          obtain ⟨_, fails⟩ := otherDescribed
          cases fails
      | misrendered =>
          rw [otherKind] at otherDescribed
          cases otherDescribed
          exact absurd equal (finished_ne_error printable rendered _ _)
      | lines otherTokens =>
          rw [otherKind] at otherDescribed
          obtain ⟨otherPrintable, otherLines, otherRendered, otherSpelled⟩ := otherDescribed
          cases otherSpelled
          rw [toList_finished, toList_finished] at equal
          have isLegible : Legible names otherNames 0 tokens otherTokens := by
            rw [kind, otherKind] at legible
            exact legible
          obtain ⟨sameTokens, sameComments, sameFollowing⟩ :=
            renderTokens_cancel isLegible printable otherPrintable
              (skeleton_closersNested (rendition_skeleton kind))
              (skeleton_closersNested (rendition_skeleton otherKind)) rendered otherRendered equal
          refine ⟨?_, sameFollowing⟩
          rintro (apart | apart)
          · exact apart sameTokens
          · exact apart sameComments

/-! ## Bodies -/

/-- No text is the Rocq body of both functions. -/
def BodiesDistinguished (parsed : WasmParseData) (firstIndex secondIndex : Nat)
    (first second : FunctionBody) : Prop :=
  ∀ text, ¬ (translateFunctionBody parsed firstIndex first = .ok text ∧
    translateFunctionBody parsed secondIndex second = .ok text)

def bodyRendition (body : FunctionBody) : Rendition :=
  match body.operators with
  | .ok items => rendition items
  | .error _ => .missing

def BodiesDiffer (parsed : WasmParseData) (firstIndex secondIndex : Nat)
    (first second : FunctionBody) : Prop :=
  (bodyRendition first).Differ (functionLocalNames parsed firstIndex)
    (functionLocalNames parsed secondIndex) (bodyRendition second)

def BodiesLegible (parsed : WasmParseData) (firstIndex secondIndex : Nat)
    (first second : FunctionBody) : Prop :=
  (bodyRendition first).Legible (functionLocalNames parsed firstIndex)
    (functionLocalNames parsed secondIndex) (bodyRendition second)

theorem bodyRendition_describes (parsed : WasmParseData) (index : Nat) (body : FunctionBody) :
    (bodyRendition body).Describes (functionLocalNames parsed index)
      (translateFunctionBody parsed index body) := by
  unfold bodyRendition translateFunctionBody
  cases body.operators with
  | error error => exact ⟨_, rfl⟩
  | ok items => exact rendition_describes items _

theorem BodiesDiffer.of_distinguished {parsed : WasmParseData} {firstIndex secondIndex : Nat}
    {first second : FunctionBody}
    (distinguished : BodiesDistinguished parsed firstIndex secondIndex first second) :
    BodiesDiffer parsed firstIndex secondIndex first second := by
  by_contra same
  have firstText := bodyRendition_describes parsed firstIndex first
  have secondText := bodyRendition_describes parsed secondIndex second
  rcases Rendition.texts_of_not_differ same firstText secondText with ⟨text, firstOk, secondOk⟩
  exact distinguished text ⟨firstOk, secondOk⟩

theorem BodiesDiffer.distinguished {parsed : WasmParseData} {firstIndex secondIndex : Nat}
    {first second : FunctionBody}
    (legible : BodiesLegible parsed firstIndex secondIndex first second)
    (differ : BodiesDiffer parsed firstIndex secondIndex first second) :
    BodiesDistinguished parsed firstIndex secondIndex first second := by
  rintro text ⟨firstTranslated, secondTranslated⟩
  rcases bind_ok firstTranslated with ⟨items, firstItems, firstText⟩
  rcases bind_ok secondTranslated with ⟨others, secondItems, secondText⟩
  rw [BodiesDiffer, bodyRendition, bodyRendition] at differ
  rw [BodiesLegible, bodyRendition, bodyRendition] at legible
  cases firstOperators : first.operators with
  | error error =>
      rw [firstOperators] at firstItems
      cases firstItems
  | ok firstList =>
      cases secondOperators : second.operators with
      | error error =>
          rw [secondOperators] at secondItems
          cases secondItems
      | ok secondList =>
          rw [firstOperators] at firstItems differ legible
          rw [secondOperators] at secondItems differ legible
          cases firstItems
          cases secondItems
          have equal : text.toList ++ [] = text.toList ++ [] := rfl
          exact (translateExpr_cancel legible firstText secondText equal).1 differ

/-- The translator tells two operators apart exactly when one is rejected or both
are supported with different canonical forms. Two bodies are told apart only when
what their texts show differs, and then always, unless they first differ in the names
printed for one local and one name spells out the end of the other line. -/
theorem translation_distinguishes {first second : Operator} (different : first ≠ second)
    (firstNames secondNames : Option NameMap) (parsed : WasmParseData)
    (firstIndex secondIndex : Nat) (firstBody secondBody : FunctionBody) :
    (OperatorsDistinguished first second firstNames secondNames ↔ OperatorsDiffer first second) ∧
      (BodiesDistinguished parsed firstIndex secondIndex firstBody secondBody →
        BodiesDiffer parsed firstIndex secondIndex firstBody secondBody) ∧
      (BodiesLegible parsed firstIndex secondIndex firstBody secondBody →
        BodiesDiffer parsed firstIndex secondIndex firstBody secondBody →
        BodiesDistinguished parsed firstIndex secondIndex firstBody secondBody) :=
  ⟨operatorsDistinguished_iff different firstNames secondNames, .of_distinguished,
    fun legible differ => differ.distinguished legible⟩

/-- A module in which the name of a local of the second function spells out the end of a line behind
the name that the first function has for it. -/
def spelledNames : WasmParseData :=
  { WasmParseData.new "m" with
    funcLocalsNameMap := some [(0, [(0, "a")]), (1, [(0, "a*) ::\n")])] }

/-- Branches with different labels are told apart, alone and as bodies, whatever names there are for
locals that the bodies do not access. -/
theorem translation_distinguishes_br :
    OperatorsDistinguished (.br 0) (.br 1) none none ∧
      BodiesDistinguished spelledNames 0 1
        { locals := .ok [], operators := .ok [.ok (.br 0), .ok .end_] }
        { locals := .ok [], operators := .ok [.ok (.br 1), .ok .end_] } := by
  have distinguishes := translation_distinguishes (show Operator.br 0 ≠ .br 1 by decide) none none
    spelledNames 0 1 { locals := .ok [], operators := .ok [.ok (.br 0), .ok .end_] }
    { locals := .ok [], operators := .ok [.ok (.br 1), .ok .end_] }
  refine ⟨distinguishes.1.mpr (.inr (.inr ⟨rfl, rfl, by decide⟩)), distinguishes.2.2 ?_ (.inl ?_)⟩
  · intro same
    exact absurd same (by decide)
  · decide

/-- The default label of a `br_table` is lost: the operators get one text, and so
do the bodies that hold them. -/
theorem brTableDefault_notDistinguished :
    Operator.brTable ⟨[.ok 0], 0⟩ ≠ .brTable ⟨[.ok 0], 1⟩ ∧
      ¬ OperatorsDistinguished (.brTable ⟨[.ok 0], 0⟩) (.brTable ⟨[.ok 0], 1⟩) none none ∧
      ¬ BodiesDistinguished (WasmParseData.new "m") 0 1
        { locals := .ok [], operators := .ok [.ok (.brTable ⟨[.ok 0], 0⟩), .ok .end_] }
        { locals := .ok [], operators := .ok [.ok (.brTable ⟨[.ok 0], 1⟩), .ok .end_] } := by
  refine ⟨by decide, ?_, ?_⟩
  · intro distinguished
    rcases (operatorsDistinguished_iff (by decide) none none).mp distinguished with
      rejected | rejected | ⟨_, _, apart⟩
    · cases rejected
    · cases rejected
    · exact apart rfl
  · intro distinguished
    rcases BodiesDiffer.of_distinguished distinguished with apart | apart
    · exact apart rfl
    · exact apart rfl

end Inference.WasmToV
