import Inference.WasmToV.FunctionNaming

/-! # Names of locals

The name section names the locals of a function under its function index. The
translator looks them up under the type index of a body, and knows them in the
outermost expression only.
-/

namespace Inference.WasmToV

/-! ## Comments of local accesses -/

/-- The local accesses among the operators that can be read. -/
def localIndices (items : List OperatorItem) : List Nat :=
  (readable items).filterMap Operator.localIndex

/-- The name printed with a local access, and nothing for other operators. -/
def Operator.localComments (op : Operator) (names : Option NameMap) : List (Option String) :=
  op.localIndex.toList.map fun localIndex => names.bind (·.lookup localIndex)

mutual

/-- The names printed with the local accesses of an expression. Every nested
expression is printed with the names it carries itself. -/
def Expression.localComments : Expression → List (Option String)
  | .mk parts localNameMap => partsComments parts localNameMap

def partsComments : List ExpressionPart → Option NameMap → List (Option String)
  | [], _ => []
  | part :: rest, localNameMap => part.localComments localNameMap ++ partsComments rest localNameMap

def ExpressionPart.localComments : ExpressionPart → Option NameMap → List (Option String)
  | .operator op, localNameMap => op.localComments localNameMap
  | .block _ parts, _ => parts.localComments
  | .condition _ thenArm elseArm, _ => thenArm.localComments ++ elseArm.localComments

end

/-- No names, for local accesses that are not printed. -/
def unprinted (items : List OperatorItem) : List (Option String) :=
  (localIndices items).map fun _ => none

/-- The name emitted as the comment of each local access of a body. Nothing is
emitted for what stands behind the end of the body, or in a body that cannot be
printed. -/
def emittedNames (localNameMap : Option NameMap) (items : List OperatorItem) :
    List (Option String) :=
  match translateExpression items with
  | .ok (expression, rest) =>
      match (Expression.mk expression.parts localNameMap).printWithOffset 2 with
      | .ok _ => (Expression.mk expression.parts localNameMap).localComments ++ unprinted rest
      | .error _ => unprinted items
  | .error _ => unprinted items

/-- Whenever the functions are emitted, every local access has the name that the
name section gives to this local of this function, and none without one. -/
def LocalsNamed (payloads : List (Item Payload)) (parsed : WasmParseData) : Prop :=
  ∀ getId, Succeeds (translateFunctions parsed getId) →
    ∀ index body items, (definedBodies payloads)[index]? = some body →
      body.operators = .ok items →
      emittedNames (functionLocalNames parsed index) items =
        (localIndices items).map
          (assignedLocal payloads (importedFunctions payloads + index))

/-! ## Local accesses of a sequence -/

/-- The local accesses of a sequence. Each comes with whether it is printed in
the outermost expression: not inside a nested one, and not behind the end. -/
def accesses : List Frame → List OperatorItem → List (Nat × Bool)
  | _, [] => []
  | _, .error _ :: rest => (localIndices rest).map (·, false)
  | frames, .ok op :: rest =>
      match op.role with
      | .opensBlock => accesses (.block :: frames) rest
      | .opensCondition => accesses (.thenArm :: frames) rest
      | .closes =>
          match frames with
          | [] => (localIndices rest).map (·, false)
          | frame :: outer => accesses (frame.resumed (some op) ++ outer) rest
      | .ordinary => op.localIndex.toList.map (·, frames.isEmpty) ++ accesses frames rest

theorem localIndices_cons (op : Operator) (rest : List OperatorItem) :
    localIndices (.ok op :: rest) = op.localIndex.toList ++ localIndices rest := by
  rw [localIndices, readable_ok, List.filterMap_cons]
  cases op.localIndex <;> rfl

theorem localIndex_none {op : Operator} (notOrdinary : op.role ≠ .ordinary) :
    op.localIndex = none := by
  cases op <;> simp_all [Operator.role, Operator.localIndex]

private theorem map_fst_pair {α β : Type} (values : List α) (mark : β) :
    (values.map (·, mark)).map Prod.fst = values := by
  rw [List.map_map]
  exact List.map_id _

/-- The accesses of a sequence are those of its operators, in order. -/
theorem accesses_indices (frames : List Frame) (items : List OperatorItem) :
    (accesses frames items).map Prod.fst = localIndices items := by
  induction items generalizing frames with
  | nil => rfl
  | cons item rest induction =>
      cases item with
      | error error => exact map_fst_pair _ _
      | ok op =>
          rw [localIndices_cons]
          cases role : op.role with
          | opensBlock | opensCondition =>
              rw [localIndex_none (by simp [role])]
              simp [accesses, role, induction]
          | ordinary =>
              simp only [accesses, role]
              rw [List.map_append, map_fst_pair, induction]
          | closes =>
              rw [localIndex_none (by simp [role])]
              cases frames with
              | nil =>
                  simp only [accesses, role]
                  exact map_fst_pair _ _
              | cons frame outer => simp [accesses, role, induction]

/-! ## Comments of lines -/

def Token.localComments (names : Option NameMap) : Token → List (Option String)
  | .line op => op.localComments names
  | _ => []

/-- The names printed with the local accesses of lines, from a depth on. -/
def tokenComments (names : Option NameMap) : Nat → List Token → List (Option String)
  | _, [] => []
  | depth, token :: rest =>
      token.localComments (namesAt names depth) ++
        tokenComments names (token.depthAfter depth) rest

section Lines

variable (names : Option NameMap)

mutual

/-- The lines of a nested expression are printed without names. -/
theorem tokenComments_expression (expression : Expression) (unnamed : expression.Unnamed)
    (depth : Nat) (following : List Token) :
    tokenComments names (depth + 1) (expression.tokens ++ following) =
      expression.localComments ++ tokenComments names (depth + 1) following := by
  match expression, unnamed with
  | .mk parts _, ⟨rfl, unnamed⟩ =>
      rw [tokens_mk, Expression.localComments]
      exact tokenComments_parts parts unnamed (depth + 1) following

theorem tokenComments_parts (parts : List ExpressionPart) (unnamed : UnnamedParts parts)
    (depth : Nat) (following : List Token) :
    tokenComments names depth (partsTokens parts ++ following) =
      partsComments parts (namesAt names depth) ++ tokenComments names depth following := by
  match parts, unnamed with
  | [], _ => simp [partsComments]
  | part :: rest, unnamed =>
      rw [partsTokens_cons, List.append_assoc, tokenComments_part part unnamed.1,
        tokenComments_parts rest unnamed.2, partsComments, List.append_assoc]

theorem tokenComments_part (part : ExpressionPart) (unnamed : part.Unnamed)
    (depth : Nat) (following : List Token) :
    tokenComments names depth (part.tokens ++ following) =
      part.localComments (namesAt names depth) ++ tokenComments names depth following := by
  match part, unnamed with
  | .operator op, _ =>
      rw [ExpressionPart.localComments]
      by_cases closes : op.role = .closes
      · have noComments : op.localComments (namesAt names depth) = [] := by
          rw [Operator.localComments, localIndex_none (by simp [closes])]
          rfl
        rw [tokens_closes closes, noComments]
        rfl
      · rw [tokens_line closes]
        rfl
  | .block label body, unnamed =>
      rw [tokens_block, List.cons_append, List.append_assoc, tokenComments,
        Token.depthAfter_opened, tokenComments_expression body unnamed, ExpressionPart.localComments]
      rfl
  | .condition label thenArm elseArm, unnamed =>
      rw [tokens_condition, List.cons_append, List.append_assoc, List.cons_append,
        List.append_assoc, tokenComments, Token.depthAfter_opened,
        tokenComments_expression thenArm unnamed.1, List.singleton_append, tokenComments,
        Token.depthAfter_nextArm, tokenComments_expression elseArm unnamed.2,
        ExpressionPart.localComments, List.append_assoc]
      rfl

end

/-- The name that the translator knows for an access. -/
def knownName (access : Nat × Bool) : Option String :=
  if access.2 then names.bind (·.lookup access.1) else none

theorem tokenComments_closing (frame : Frame) (outer : List Frame) (closer : Option Operator)
    (following : List Token) :
    tokenComments names (frame :: outer).length (frame.closing closer ++ following) =
      tokenComments names (frame.resumed closer ++ outer).length following := by
  cases frame with
  | block | elseArm => rfl
  | thenArm =>
      cases closer with
      | none => rfl
      | some op => cases op <;> rfl

theorem localComments_depth (op : Operator) (frames : List Frame) :
    op.localComments (namesAt names frames.length) =
      (op.localIndex.toList.map (·, frames.isEmpty)).map (knownName names) := by
  rw [Operator.localComments]
  cases op.localIndex with
  | none => rfl
  | some localIndex => cases frames <;> rfl

/-- The comments of the scanned lines, and none behind the end, are the names
known for the accesses. -/
theorem tokenComments_accesses {frames : List Frame} {items : List OperatorItem}
    {tokens : List Token} (lines : skeleton frames items = some tokens) :
    tokenComments names frames.length tokens ++ unprinted (scan frames items).2 =
      (accesses frames items).map (knownName names) := by
  induction items generalizing frames tokens with
  | nil =>
      simp only [skeleton, Option.some.injEq] at lines
      subst lines
      have nothing : ∀ frames : List Frame,
          tokenComments names frames.length (frames.flatMap (·.closing none)) = [] := by
        intro frames
        induction frames with
        | nil => rfl
        | cons frame outer induction =>
            rw [List.flatMap_cons, tokenComments_closing]
            cases frame <;> exact induction
      rw [nothing]
      rfl
  | cons item rest induction =>
      cases item with
      | error error => simp [skeleton] at lines
      | ok op =>
          cases role : op.role with
          | opensBlock =>
              simp only [skeleton, role, Option.map_eq_some_iff] at lines
              rcases lines with ⟨later, laterLines, rfl⟩
              simpa [accesses, scan, role, tokenComments, Token.localComments] using
                induction laterLines
          | opensCondition =>
              simp only [skeleton, role] at lines
              split at lines
              · cases lines
              · rcases Option.map_eq_some_iff.mp lines with ⟨later, laterLines, rfl⟩
                simpa [accesses, scan, role, tokenComments, Token.localComments] using
                  induction laterLines
          | ordinary =>
              simp only [skeleton, role, Option.map_eq_some_iff] at lines
              rcases lines with ⟨later, laterLines, rfl⟩
              simp only [accesses, scan, role, tokenComments, Token.localComments,
                Token.depthAfter_line, List.append_assoc, List.map_append]
              rw [induction laterLines, localComments_depth]
          | closes =>
              cases frames with
              | nil =>
                  simp only [skeleton, role, Option.some.injEq] at lines
                  subst lines
                  simp only [accesses, scan, role, tokenComments, List.nil_append, unprinted,
                    List.map_map]
                  rfl
              | cons frame outer =>
                  simp only [skeleton, role, Option.map_eq_some_iff] at lines
                  rcases lines with ⟨later, laterLines, rfl⟩
                  rw [tokenComments_closing]
                  simpa [accesses, scan, role] using induction laterLines

end Lines

/-! ## Comments of bodies -/

theorem printWithOffset_lines {parts : List ExpressionPart} (unnamed : UnnamedParts parts)
    (names : Option NameMap) :
    (Expression.mk parts names).printWithOffset 2 = (do
      let text ← renderTokens names 2 0 (partsTokens parts)
      return text ++ offsetText 2 ++ "nil") := by
  have rendered := renderTokens_parts names 2 parts unnamed 0 []
  rw [List.append_nil, renderTokens] at rendered
  rw [rendered, Expression.printWithOffset, namesAt, Nat.add_zero]
  cases printParts parts names 2 with
  | ok text => simp [ok_bind, pure, Except.pure]
  | error failure => rfl

/-- The local accesses of a sequence. None is printed when the sequence is not. -/
def printedAccesses (items : List OperatorItem) : List (Nat × Bool) :=
  match rendition items with
  | .lines _ => accesses [] items
  | _ => (localIndices items).map (·, false)

theorem printedAccesses_indices (items : List OperatorItem) :
    (printedAccesses items).map Prod.fst = localIndices items := by
  unfold printedAccesses
  split
  · exact accesses_indices [] items
  · exact map_fst_pair _ _

private theorem knownName_unprinted (names : Option NameMap) (items : List OperatorItem) :
    ((localIndices items).map (·, false)).map (knownName names) = unprinted items := by
  rw [List.map_map]
  rfl

theorem emittedNames_accesses (names : Option NameMap) (items : List OperatorItem) :
    emittedNames names items = (printedAccesses items).map (knownName names) := by
  rw [emittedNames, translateExpression, printedAccesses, rendition]
  rcases buildParts_followsScan (Nat.lt_succ_self items.length) with
    ⟨noLines, panics⟩ | ⟨parts, built, predicted⟩
  · rw [panics, noLines]
    exact (knownName_unprinted names items).symm
  · rw [built, predicted.tokens]
    simp only [ok_bind, pure, Except.pure, Expression.parts]
    rw [printWithOffset_lines predicted.unnamed]
    cases first : ((partsTokens parts).flatMap Token.operators).find? (·.support ≠ .supported) with
    | none =>
        have supported : ∀ op ∈ (partsTokens parts).flatMap Token.operators,
            op.support = .supported := by
          intro op member
          simpa using List.find?_eq_none.mp first op member
        rcases renderTokens_ok names 2 0 supported with ⟨text, rendered⟩
        have lineComments := tokenComments_parts names parts predicted.unnamed 0 []
        rw [List.append_nil, tokenComments, List.append_nil] at lineComments
        rw [rendered, ← tokenComments_accesses names predicted.tokens, List.length_nil, lineComments]
        rfl
    | some op =>
        rcases renderTokens_unsupported first names 2 0 with
          ⟨rejected, error, fails⟩ | ⟨unimplemented, panics⟩
        · simp only [fails, rejected, if_true]
          exact (knownName_unprinted names items).symm
        · simp only [panics, unimplemented]
          exact (knownName_unprinted names items).symm

/-! ## The condition -/

section Naming

variable {modName : String} {payloads : List (Item Payload)} {parsed : WasmParseData}
  (parses : parse modName payloads = .ok parsed)

include parses

theorem knownName_assigned (index : Nat) (access : Nat × Bool) :
    knownName (functionLocalNames parsed index) access =
      if access.2 then
        assignedLocal payloads ((declaredTypes payloads)[index]?.getD 0) access.1
      else none := by
  rw [knownName, functionLocalNames, lookup_assignedLocal parses, functionTypeIndex,
    functionTypeIndexes_declared parses]

end Naming

/-- A module that defines one function of a type, which reads a local called `x`. -/
def readingLocal (typeIndex : Nat) : List (Item Payload) :=
  [.ok (.functionSection [.ok typeIndex]),
    .ok (.codeSectionEntry
      { locals := .ok [.ok (1, .i32)], operators := .ok [.ok (.localGet 0), .ok .end_] }),
    .ok (.nameSection [.ok (.locals [.ok ⟨0, [.ok ⟨0, "x"⟩]⟩])])]

end Inference.WasmToV
