import Inference.WasmToV.Reconstruction

/-! # Nesting of operator sequences

A scan over the operators with a stack of open frames. It says, for any
sequence and without building a tree, which lines the printed body has and what
stands behind the operator that closes the body.
-/

namespace Inference.WasmToV

/-! ## Scanning -/

inductive Frame where
  | block
  | thenArm
  | elseArm
  deriving DecidableEq, Repr

/-- One line of a printed body. -/
inductive Token where
  | line (op : Operator)
  | opened (label : Operator)
  | nextArm
  | closed
  deriving DecidableEq, Repr

namespace Frame

/-- The frame entered when an operator, or the end of the sequence, closes a frame. -/
def resumed : Frame → Option Operator → List Frame
  | .thenArm, some .else_ => [.elseArm]
  | _, _ => []

/-- The lines that closing a frame prints. A condition without else prints an
empty else arm. -/
def closing : Frame → Option Operator → List Token
  | .thenArm, some .else_ => [.nextArm]
  | .thenArm, _ => [.nextArm, .closed]
  | _, _ => [.closed]

end Frame

/-- The operator that closes the sequence, if there is one, and the items behind
it. -/
def scan : List Frame → List OperatorItem → Option Operator × List OperatorItem
  | _, [] => (none, [])
  | _, .error _ :: _ => (none, [])
  | frames, .ok op :: rest =>
      match op.role with
      | .opensBlock => scan (.block :: frames) rest
      | .opensCondition => scan (.thenArm :: frames) rest
      | .closes =>
          match frames with
          | [] => (some op, rest)
          | frame :: outer => scan (frame.resumed (some op) ++ outer) rest
      | .ordinary => scan frames rest

/-- The lines of the printed sequence. There are none when the builder panics:
on an item that cannot be read, and on a condition at the very end. -/
def skeleton : List Frame → List OperatorItem → Option (List Token)
  | frames, [] => some (frames.flatMap (·.closing none))
  | _, .error _ :: _ => none
  | frames, .ok op :: rest =>
      match op.role with
      | .opensBlock => (skeleton (.block :: frames) rest).map (.opened op :: ·)
      | .opensCondition =>
          if rest.isEmpty then none
          else (skeleton (.thenArm :: frames) rest).map (.opened op :: ·)
      | .closes =>
          match frames with
          | [] => some []
          | frame :: outer =>
              (skeleton (frame.resumed (some op) ++ outer) rest).map
                (frame.closing (some op) ++ ·)
      | .ordinary => (skeleton frames rest).map (.line op :: ·)

/-! ## Scanning under an outer frame -/

section Decomposition

variable (frame : Frame) (outer : List Frame)

@[simp] theorem resumed_block (closer : Option Operator) : Frame.resumed .block closer = [] :=
  rfl

@[simp] theorem resumed_elseArm (closer : Option Operator) :
    Frame.resumed .elseArm closer = [] :=
  rfl

@[simp] theorem closing_block (closer : Option Operator) :
    Frame.closing .block closer = [.closed] :=
  rfl

@[simp] theorem closing_elseArm (closer : Option Operator) :
    Frame.closing .elseArm closer = [.closed] :=
  rfl

@[simp] theorem resumed_thenArm_none : Frame.resumed .thenArm none = [] :=
  rfl

@[simp] theorem resumed_thenArm_end : Frame.resumed .thenArm (some .end_) = [] :=
  rfl

@[simp] theorem resumed_thenArm_else : Frame.resumed .thenArm (some .else_) = [.elseArm] :=
  rfl

@[simp] theorem closing_thenArm_none :
    Frame.closing .thenArm none = [.nextArm, .closed] :=
  rfl

@[simp] theorem closing_thenArm_end :
    Frame.closing .thenArm (some .end_) = [.nextArm, .closed] :=
  rfl

@[simp] theorem closing_thenArm_else :
    Frame.closing .thenArm (some .else_) = [.nextArm] :=
  rfl

/-- Under more frames, scanning goes on behind the operator that closes the
inner ones. -/
theorem scan_append (inner : List Frame) (items : List OperatorItem) :
    scan (inner ++ frame :: outer) items =
      scan (frame.resumed (scan inner items).1 ++ outer) (scan inner items).2 := by
  induction items generalizing inner with
  | nil => simp [scan]
  | cons item rest induction =>
      cases item with
      | error error => simp [scan]
      | ok op =>
          cases role : op.role with
          | opensBlock => simpa [scan, role] using induction (.block :: inner)
          | opensCondition => simpa [scan, role] using induction (.thenArm :: inner)
          | ordinary => simpa [scan, role] using induction inner
          | closes =>
              cases inner with
              | nil => simp [scan, role]
              | cons innerFrame innerOuter =>
                  simpa [scan, role] using
                    induction (innerFrame.resumed (some op) ++ innerOuter)

private theorem appended_bind (front : List Token) (tokens following : Option (List Token))
    (closing : List Token) :
    (do
      let inner ← tokens
      let later ← following
      return inner ++ (closing ++ later)).map (front ++ ·) = (do
        let inner ← tokens.map (front ++ ·)
        let later ← following
        return inner ++ (closing ++ later)) := by
  cases tokens <;> cases following <;> simp

private theorem prefixed_bind (first : Token) (tokens following : Option (List Token))
    (closing : List Token) :
    (do
      let inner ← tokens
      let later ← following
      return inner ++ (closing ++ later)).map (first :: ·) = (do
        let inner ← tokens.map (first :: ·)
        let later ← following
        return inner ++ (closing ++ later)) :=
  appended_bind [first] tokens following closing

/-- The lines of a sequence under more frames. -/
theorem skeleton_append (inner : List Frame) (items : List OperatorItem) :
    skeleton (inner ++ frame :: outer) items = (do
      let tokens ← skeleton inner items
      let following ← skeleton (frame.resumed (scan inner items).1 ++ outer) (scan inner items).2
      return tokens ++ (frame.closing (scan inner items).1 ++ following)) := by
  induction items generalizing inner with
  | nil => cases frame <;> simp [skeleton, scan, Frame.resumed, Frame.closing]
  | cons item rest induction =>
      cases item with
      | error error => simp [skeleton]
      | ok op =>
          cases role : op.role with
          | opensBlock =>
              have later := induction (.block :: inner)
              simp only [List.cons_append] at later
              simp only [skeleton, scan, role, later]
              exact prefixed_bind _ _ _ _
          | opensCondition =>
              have later := induction (.thenArm :: inner)
              simp only [List.cons_append] at later
              simp only [skeleton, scan, role, later]
              cases rest.isEmpty with
              | true => rfl
              | false => exact prefixed_bind _ _ _ _
          | ordinary =>
              simp only [skeleton, scan, role, induction inner]
              exact prefixed_bind _ _ _ _
          | closes =>
              cases inner with
              | nil =>
                  simp only [List.nil_append, skeleton, scan, role]
                  cases skeleton (frame.resumed (some op) ++ outer) rest <;> rfl
              | cons innerFrame innerOuter =>
                  have later := induction (innerFrame.resumed (some op) ++ innerOuter)
                  simp only [List.append_assoc] at later
                  simp only [List.cons_append, skeleton, scan, role, later]
                  exact appended_bind _ _ _ _

end Decomposition

theorem Operator.closes_cases {op : Operator} (closes : op.role = .closes) :
    op = .else_ ∨ op = .end_ := by
  cases op <;> simp_all [Operator.role]

/-- A sequence is closed by an else or an end. Without one everything is read. -/
theorem scan_closer (frames : List Frame) (items : List OperatorItem) :
    scan frames items = (none, []) ∨
      (scan frames items).1 = some .else_ ∨ (scan frames items).1 = some .end_ := by
  induction items generalizing frames with
  | nil => exact .inl (by simp [scan])
  | cons item rest induction =>
      cases item with
      | error error => exact .inl (by simp [scan])
      | ok op =>
          cases role : op.role with
          | opensBlock => simpa [scan, role] using induction (.block :: frames)
          | opensCondition => simpa [scan, role] using induction (.thenArm :: frames)
          | ordinary => simpa [scan, role] using induction frames
          | closes =>
              cases frames with
              | nil => exact .inr (by simpa [scan, role] using Operator.closes_cases role)
              | cons frame outer =>
                  simpa [scan, role] using induction (frame.resumed (some op) ++ outer)

/-! ## Operators of the scanned lines -/

/-- The operators that the printer prints. Else and end only shape the tree. -/
def printedOperators : List OperatorItem → List Operator
  | [] => []
  | .error _ :: rest => printedOperators rest
  | .ok op :: rest =>
      if op.role = .closes then printedOperators rest else op :: printedOperators rest

def Token.operators : Token → List Operator
  | .line op => [op]
  | .opened label => [label]
  | _ => []

theorem closing_operators (frame : Frame) (closer : Option Operator) :
    (frame.closing closer).flatMap Token.operators = [] := by
  cases frame with
  | block | elseArm => rfl
  | thenArm =>
      unfold Frame.closing
      split <;> rfl

theorem printedOperators_printed (items : List OperatorItem) :
    ∀ op ∈ printedOperators items, op.role ≠ .closes := by
  induction items with
  | nil => simp [printedOperators]
  | cons item rest induction =>
      cases item with
      | error error => simpa [printedOperators] using induction
      | ok op =>
          by_cases closes : op.role = .closes
          · simpa [printedOperators, closes] using induction
          · simpa [printedOperators, closes] using induction

variable {items : List OperatorItem}

/-- The printed operators are those of the lines, then those behind the end. -/
theorem printedOperators_scan {frames : List Frame}
    {tokens : List Token} (lines : skeleton frames items = some tokens) :
    printedOperators items =
      tokens.flatMap Token.operators ++ printedOperators (scan frames items).2 := by
  induction items generalizing frames tokens with
  | nil =>
      simp only [skeleton, Option.some.injEq] at lines
      subst lines
      simp [printedOperators, scan, List.flatMap_assoc, closing_operators]
  | cons item rest induction =>
      cases item with
      | error error => simp [skeleton] at lines
      | ok op =>
          cases role : op.role with
          | opensBlock =>
              simp only [skeleton, role, Option.map_eq_some_iff] at lines
              obtain ⟨later, laterLines, rfl⟩ := lines
              simp [printedOperators, role, scan, induction laterLines, Token.operators]
          | opensCondition =>
              simp only [skeleton, role] at lines
              split at lines
              · cases lines
              · obtain ⟨later, laterLines, rfl⟩ := Option.map_eq_some_iff.mp lines
                simp [printedOperators, role, scan, induction laterLines, Token.operators]
          | ordinary =>
              simp only [skeleton, role, Option.map_eq_some_iff] at lines
              obtain ⟨later, laterLines, rfl⟩ := lines
              simp [printedOperators, role, scan, induction laterLines, Token.operators]
          | closes =>
              cases frames with
              | nil =>
                  simp only [skeleton, role, Option.some.injEq] at lines
                  subst lines
                  simp [printedOperators, role, scan]
              | cons frame outer =>
                  simp only [skeleton, role, Option.map_eq_some_iff] at lines
                  obtain ⟨later, laterLines, rfl⟩ := lines
                  simp [printedOperators, role, scan, induction laterLines, closing_operators]

theorem scan_suffix (frames : List Frame) (items : List OperatorItem) :
    (scan frames items).2 <:+ items := by
  induction items generalizing frames with
  | nil => simp [scan]
  | cons item rest induction =>
      cases item with
      | error error => simp [scan]
      | ok op =>
          cases role : op.role with
          | opensBlock => simpa [scan, role] using (induction _).trans (List.suffix_cons _ _)
          | opensCondition => simpa [scan, role] using (induction _).trans (List.suffix_cons _ _)
          | ordinary => simpa [scan, role] using (induction _).trans (List.suffix_cons _ _)
          | closes =>
              cases frames with
              | nil => simp [scan, role]
              | cons frame outer =>
                  simpa [scan, role] using (induction _).trans (List.suffix_cons _ _)

/-- A sequence has lines when it can be read and does not end in an open
condition. -/
theorem skeleton_some (frames : List Frame) (readable : ∀ item ∈ items, ∃ op, item = .ok op)
    (lastOperator : ∀ op, items.getLast? = some (.ok op) → op.role ≠ .opensCondition) :
    ∃ tokens, skeleton frames items = some tokens := by
  induction items generalizing frames with
  | nil => exact ⟨_, by rw [skeleton]⟩
  | cons item rest induction =>
      obtain ⟨op, rfl⟩ := readable item (by simp)
      have restLast : ∀ op, rest.getLast? = some (.ok op) → op.role ≠ .opensCondition := by
        intro last isLast
        exact lastOperator last (by simp [List.getLast?_cons, isLast])
      have later : ∀ frames, ∃ tokens, skeleton frames rest = some tokens := fun frames =>
        induction frames (fun item member => readable item (by simp [member])) restLast
      cases role : op.role with
      | opensBlock =>
          obtain ⟨tokens, lines⟩ := later (.block :: frames)
          exact ⟨.opened op :: tokens, by simp [skeleton, role, lines]⟩
      | ordinary =>
          obtain ⟨tokens, lines⟩ := later frames
          exact ⟨.line op :: tokens, by simp [skeleton, role, lines]⟩
      | opensCondition =>
          have nonempty : rest ≠ [] := by
            rintro rfl
            exact lastOperator op rfl role
          obtain ⟨tokens, lines⟩ := later (.thenArm :: frames)
          exact ⟨.opened op :: tokens, by simp [skeleton, role, nonempty, lines]⟩
      | closes =>
          cases frames with
          | nil => exact ⟨[], by simp [skeleton, role]⟩
          | cons frame outer =>
              obtain ⟨tokens, lines⟩ := later (frame.resumed (some op) ++ outer)
              exact ⟨frame.closing (some op) ++ tokens, by simp [skeleton, role, lines]⟩

/-- A condition that opens at the very end, with nothing behind the end of the
sequence, leaves no lines. -/
theorem skeleton_none_of_last {frames : List Frame} {op : Operator}
    (isLast : items.getLast? = some (.ok op)) (opens : op.role = .opensCondition)
    (nothingBehind : (scan frames items).2 = []) : skeleton frames items = none := by
  induction items generalizing frames with
  | nil => simp at isLast
  | cons item rest induction =>
      cases item with
      | error error => rw [skeleton]
      | ok first =>
          cases rest with
          | nil =>
              simp only [List.getLast?_singleton, Option.some.injEq, Except.ok.injEq] at isLast
              subst isLast
              simp [skeleton, opens]
          | cons next others =>
              rw [List.getLast?_cons_cons] at isLast
              cases role : first.role with
              | opensBlock =>
                  simp only [scan, role] at nothingBehind
                  simp [skeleton, role, induction isLast nothingBehind]
              | opensCondition =>
                  simp only [scan, role] at nothingBehind
                  simp [skeleton, role, induction isLast nothingBehind]
              | ordinary =>
                  simp only [scan, role] at nothingBehind
                  simp [skeleton, role, induction isLast nothingBehind]
              | closes =>
                  cases frames with
                  | nil => simp [scan, role] at nothingBehind
                  | cons frame outer =>
                      simp only [scan, role] at nothingBehind
                      simp [skeleton, role, induction isLast nothingBehind]

/-! ## Lines of a tree -/

mutual

def Expression.tokens : Expression → List Token
  | .mk parts _ => partsTokens parts

def partsTokens : List ExpressionPart → List Token
  | [] => []
  | part :: rest => part.tokens ++ partsTokens rest

def ExpressionPart.tokens : ExpressionPart → List Token
  | .operator op =>
      match op with
      | .else_ | .end_ => []
      | op => [.line op]
  | .block label parts => .opened label :: (parts.tokens ++ [.closed])
  | .condition label thenArm elseArm =>
      .opened label :: (thenArm.tokens ++ .nextArm :: (elseArm.tokens ++ [.closed]))

end

@[simp] theorem partsTokens_nil : partsTokens [] = [] := by
  simp [partsTokens]

@[simp] theorem partsTokens_cons (part : ExpressionPart) (rest : List ExpressionPart) :
    partsTokens (part :: rest) = part.tokens ++ partsTokens rest := by
  simp [partsTokens]

@[simp] theorem tokens_mk (parts : List ExpressionPart) (names : Option NameMap) :
    (Expression.mk parts names).tokens = partsTokens parts := by
  simp [Expression.tokens]

@[simp] theorem tokens_block (label : Operator) (parts : Expression) :
    (ExpressionPart.block label parts).tokens = .opened label :: (parts.tokens ++ [.closed]) := by
  simp [ExpressionPart.tokens]

@[simp] theorem tokens_condition (label : Operator) (thenArm elseArm : Expression) :
    (ExpressionPart.condition label thenArm elseArm).tokens =
      .opened label :: (thenArm.tokens ++ .nextArm :: (elseArm.tokens ++ [.closed])) := by
  simp [ExpressionPart.tokens]

theorem tokens_closes {op : Operator} (closes : op.role = .closes) :
    (ExpressionPart.operator op).tokens = [] := by
  rcases Operator.closes_cases closes with rfl | rfl <;> simp [ExpressionPart.tokens]

theorem tokens_line {op : Operator} (printed : op.role ≠ .closes) :
    (ExpressionPart.operator op).tokens = [.line op] := by
  cases op <;> simp_all [ExpressionPart.tokens, Operator.role]

mutual

/-- No nested expression carries local names. -/
def Expression.Unnamed : Expression → Prop
  | .mk parts names => names = none ∧ UnnamedParts parts

def UnnamedParts : List ExpressionPart → Prop
  | [] => True
  | part :: rest => part.Unnamed ∧ UnnamedParts rest

def ExpressionPart.Unnamed : ExpressionPart → Prop
  | .operator _ => True
  | .block _ parts => parts.Unnamed
  | .condition _ thenArm elseArm => thenArm.Unnamed ∧ elseArm.Unnamed

end

/-! ## The builder follows the scan -/

/-- Whether the last part is the end that closes the expression. -/
def endsInEnd (parts : List ExpressionPart) : Bool :=
  parts.getLast?.any ExpressionPart.isEnd

theorem endsInEnd_cons {part : ExpressionPart} (parts : List ExpressionPart)
    (notEnd : part.isEnd = false) : endsInEnd (part :: parts) = endsInEnd parts := by
  cases parts with
  | nil => simp [endsInEnd, notEnd]
  | cons next others => simp [endsInEnd, List.getLast?_cons_cons]

/-- The parts that the scan predicts for a sequence. -/
structure Builds (items : List OperatorItem) (parts : List ExpressionPart) : Prop where
  tokens : skeleton [] items = some (partsTokens parts)
  unnamed : UnnamedParts parts
  empty : parts = [] ↔ items = []
  ended : endsInEnd parts = true ↔ (scan [] items).1 = some .end_

variable {thenArm : List ExpressionPart}

theorem buildElseArm_eq
    (build : List OperatorItem → Outcome (List ExpressionPart × List OperatorItem))
    (iterator : List OperatorItem) (nonempty : thenArm ≠ []) :
    buildElseArm build thenArm iterator =
      if endsInEnd thenArm then .ok ([], iterator) else build iterator := by
  obtain ⟨last, isLast⟩ : ∃ last, thenArm.getLast? = some last :=
    ⟨thenArm.getLast nonempty, List.getLast?_eq_some_getLast nonempty⟩
  simp [buildElseArm, endsInEnd, isLast]

theorem isEnd_false {op : Operator} (notCloses : op.role ≠ .closes) :
    (ExpressionPart.operator op).isEnd = false := by
  cases op <;> simp_all [ExpressionPart.isEnd, Operator.role]

/-- The builder panics exactly where the scan finds no lines, and otherwise
returns the predicted parts and what stands behind them. -/
def FollowsScan (fuel : Nat) (items : List OperatorItem) : Prop :=
  (skeleton [] items = none ∧ buildParts fuel items = Outcome.panic) ∨
    ∃ parts, buildParts fuel items = .ok (parts, (scan [] items).2) ∧ Builds items parts

section Cases

variable {fuel : Nat} {op : Operator} {rest : List OperatorItem}
  (follows : ∀ later : List OperatorItem, later.length ≤ rest.length → FollowsScan fuel later)

include follows

private theorem followsScan_ordinary (role : op.role = .ordinary) :
    FollowsScan (fuel + 1) (.ok op :: rest) := by
  rcases follows rest (Nat.le_refl _) with ⟨noLines, panics⟩ | ⟨tail, built, predicted⟩
  · exact .inl ⟨by simp [skeleton, role, noLines],
      by rw [buildParts_ordinary role, panics]; rfl⟩
  · refine .inr ⟨.operator op :: tail, ?_, ?_, ?_, by simp, ?_⟩
    · simp only [buildParts_ordinary role, built, scan, role]
      rfl
    · simp [skeleton, role, predicted.tokens, tokens_line (show op.role ≠ .closes by simp [role])]
    · simpa [UnnamedParts, ExpressionPart.Unnamed] using predicted.unnamed
    · rw [endsInEnd_cons _ (isEnd_false (by simp [role])), predicted.ended]
      simp [scan, role]

private theorem followsScan_block (role : op.role = .opensBlock) :
    FollowsScan (fuel + 1) (.ok op :: rest) := by
  have scanned : scan [] (.ok op :: rest) = scan [] (scan [] rest).2 := by
    simpa [scan, role] using scan_append .block [] [] rest
  have lines := skeleton_append .block [] [] rest
  simp only [List.nil_append, resumed_block, closing_block] at lines
  rcases follows rest (Nat.le_refl _) with ⟨noLines, panics⟩ | ⟨body, bodyBuilt, bodyPredicted⟩
  · exact .inl ⟨by simp [skeleton, role, lines, noLines],
      by rw [buildParts_block role, panics]; rfl⟩
  rcases follows _ (buildParts_length bodyBuilt) with
    ⟨noLines, panics⟩ | ⟨tail, tailBuilt, predicted⟩
  · refine .inl ⟨by simp [skeleton, role, lines, bodyPredicted.tokens, noLines], ?_⟩
    simp only [buildParts_block role, bodyBuilt, bind, Except.bind, panics]
    rfl
  · refine .inr ⟨.block op (.mk body none) :: tail, ?_, ?_, ?_, by simp, ?_⟩
    · simp only [buildParts_block role, bodyBuilt, bind, Except.bind, tailBuilt, scanned]
      rfl
    · simp [skeleton, role, lines, bodyPredicted.tokens, predicted.tokens]
    · simp [UnnamedParts, ExpressionPart.Unnamed, Expression.Unnamed, bodyPredicted.unnamed,
        predicted.unnamed]
    · rw [endsInEnd_cons _ rfl, predicted.ended, scanned]

private theorem followsScan_nil : buildParts fuel [] = .ok ([], []) := by
  rcases follows [] (Nat.zero_le _) with ⟨noLines, _⟩ | ⟨parts, built, predicted⟩
  · simp [skeleton] at noLines
  · rw [built, predicted.empty.mpr rfl]
    simp [scan]

/-- What follows a condition whose then arm is built and whose else arm is
missing. -/
private theorem followsScan_thenOnly (role : op.role = .opensCondition)
    {later : List OperatorItem} (nonempty : rest ≠ [])
    (thenBuilt : buildParts fuel rest = .ok (thenArm, later))
    (thenUnnamed : UnnamedParts thenArm)
    (elseBuilt : buildElseArm (buildParts fuel) thenArm later = .ok ([], later))
    (scanned : scan [] (.ok op :: rest) = scan [] later)
    (lines : skeleton [.thenArm] rest =
      (skeleton [] later).map (partsTokens thenArm ++ .nextArm :: .closed :: ·)) :
    FollowsScan (fuel + 1) (.ok op :: rest) := by
  rcases follows later (buildParts_length thenBuilt) with
    ⟨noLines, panics⟩ | ⟨tail, tailBuilt, predicted⟩
  · refine .inl ⟨by simp [skeleton, role, nonempty, lines, noLines], ?_⟩
    simp only [buildParts_condition role, thenBuilt, bind, Except.bind, elseBuilt, panics]
    rfl
  · refine .inr
      ⟨.condition op (.mk thenArm none) (.mk [] none) :: tail, ?_, ?_, ?_, by simp, ?_⟩
    · simp only [buildParts_condition role, thenBuilt, bind, Except.bind, elseBuilt, tailBuilt,
        scanned]
      rfl
    · simp [skeleton, role, nonempty, lines, predicted.tokens]
    · simp [UnnamedParts, ExpressionPart.Unnamed, Expression.Unnamed, thenUnnamed,
        predicted.unnamed]
    · rw [endsInEnd_cons _ rfl, predicted.ended, scanned]

/-- What follows a condition with both arms. -/
private theorem followsScan_bothArms (role : op.role = .opensCondition)
    {later : List OperatorItem} (nonempty : rest ≠ [])
    (thenBuilt : buildParts fuel rest = .ok (thenArm, later))
    (thenUnnamed : UnnamedParts thenArm)
    (elseBuilt : buildElseArm (buildParts fuel) thenArm later = buildParts fuel later)
    (scanned : scan [] (.ok op :: rest) = scan [] (scan [] later).2)
    (lines : skeleton [.thenArm] rest =
      (skeleton [.elseArm] later).map (partsTokens thenArm ++ .nextArm :: ·)) :
    FollowsScan (fuel + 1) (.ok op :: rest) := by
  have elseLines := skeleton_append .elseArm [] [] later
  simp only [List.nil_append, resumed_elseArm, closing_elseArm] at elseLines
  have shorter := buildParts_length thenBuilt
  rcases follows later shorter with ⟨noLines, panics⟩ | ⟨elseArm, elseArmBuilt, elsePredicted⟩
  · refine .inl ⟨by simp [skeleton, role, nonempty, lines, elseLines, noLines], ?_⟩
    simp only [buildParts_condition role, thenBuilt, bind, Except.bind, elseBuilt, panics]
    rfl
  rcases follows _ (Nat.le_trans (buildParts_length elseArmBuilt) shorter) with
    ⟨noLines, panics⟩ | ⟨tail, tailBuilt, predicted⟩
  · refine .inl ⟨by simp [skeleton, role, nonempty, lines, elseLines, elsePredicted.tokens,
      noLines], ?_⟩
    simp only [buildParts_condition role, thenBuilt, bind, Except.bind, elseBuilt, elseArmBuilt,
      panics]
    rfl
  · refine .inr
      ⟨.condition op (.mk thenArm none) (.mk elseArm none) :: tail, ?_, ?_, ?_, by simp, ?_⟩
    · simp only [buildParts_condition role, thenBuilt, bind, Except.bind, elseBuilt,
        elseArmBuilt, tailBuilt, scanned]
      rfl
    · simp [skeleton, role, nonempty, lines, elseLines, elsePredicted.tokens, predicted.tokens]
    · simp [UnnamedParts, ExpressionPart.Unnamed, Expression.Unnamed, thenUnnamed,
        elsePredicted.unnamed, predicted.unnamed]
    · rw [endsInEnd_cons _ rfl, predicted.ended, scanned]

private theorem followsScan_condition (role : op.role = .opensCondition) :
    FollowsScan (fuel + 1) (.ok op :: rest) := by
  by_cases nonempty : rest = []
  · subst nonempty
    refine .inl ⟨by simp [skeleton, role], ?_⟩
    simp only [buildParts_condition role, followsScan_nil follows, bind, Except.bind]
    rfl
  have scanned : scan [] (.ok op :: rest) =
      scan (Frame.thenArm.resumed (scan [] rest).1 ++ []) (scan [] rest).2 := by
    simpa [scan, role] using scan_append .thenArm [] [] rest
  have lines := skeleton_append .thenArm [] [] rest
  rw [List.nil_append] at lines
  rcases follows rest (Nat.le_refl _) with ⟨noLines, panics⟩ | ⟨thenArm, thenBuilt, predicted⟩
  · refine .inl ⟨by simp [skeleton, role, nonempty, lines, noLines], ?_⟩
    rw [buildParts_condition role, panics]
    rfl
  have elseStep := buildElseArm_eq (buildParts fuel) (scan [] rest).2
    (mt predicted.empty.mp nonempty)
  have ended := predicted.ended
  rw [predicted.tokens] at lines
  -- How the then arm was closed decides whether an else arm is read.
  rcases scan_closer [] rest with exhausted | elseCloses | endCloses
  · rw [exhausted] at thenBuilt elseStep ended scanned lines
    have noEnd : endsInEnd thenArm = false := by simpa using ended
    refine followsScan_thenOnly follows role nonempty thenBuilt predicted.unnamed ?_
      (by simpa using scanned) ?_
    · rw [elseStep, noEnd, if_neg (by simp), followsScan_nil follows]
    · simpa [skeleton] using lines
  · rw [elseCloses] at ended scanned lines
    have noEnd : endsInEnd thenArm = false := by simpa using ended
    refine followsScan_bothArms follows role nonempty thenBuilt predicted.unnamed ?_ ?_ ?_
    · rw [elseStep, noEnd, if_neg (by simp)]
    · rw [scanned]
      simpa using scan_append .elseArm [] [] (scan [] rest).2
    · rw [lines, Option.map_eq_bind]
      rfl
  · rw [endCloses] at ended scanned lines
    refine followsScan_thenOnly follows role nonempty thenBuilt predicted.unnamed ?_
      (by simpa using scanned) ?_
    · rw [elseStep, ended.mpr rfl, if_pos rfl]
    · rw [lines, Option.map_eq_bind]
      rfl

end Cases

theorem buildParts_followsScan {fuel : Nat}
    (enough : items.length < fuel) : FollowsScan fuel items := by
  induction fuel generalizing items with
  | zero => omega
  | succ fuel induction =>
      cases items with
      | nil => exact .inr ⟨[], buildParts_nil, by simp [skeleton], trivial, by simp,
          by simp [endsInEnd, scan]⟩
      | cons item rest =>
          simp only [List.length_cons, Nat.add_lt_add_iff_right] at enough
          have follows : ∀ later : List OperatorItem, later.length ≤ rest.length →
              FollowsScan fuel later :=
            fun later shorter => induction (Nat.lt_of_le_of_lt shorter enough)
          cases item with
          | error error => exact .inl ⟨by simp [skeleton], buildParts_unreadable⟩
          | ok op =>
              cases role : op.role with
              | closes =>
                  refine .inr ⟨[.operator op], ?_, ?_, ⟨trivial, trivial⟩, by simp, ?_⟩
                  · simp [buildParts_closes role, scan, role]
                  · simp [skeleton, role, tokens_closes role]
                  · rcases Operator.closes_cases role with rfl | rfl <;>
                      simp [endsInEnd, ExpressionPart.isEnd, scan, role]
              | ordinary => exact followsScan_ordinary follows role
              | opensBlock => exact followsScan_block follows role
              | opensCondition => exact followsScan_condition follows role

end Inference.WasmToV
