import Inference.WasmToV.ExpressionTranslation
import Mathlib.Data.List.Basic

/-! # Reconstruction of the expression tree

`translateExpression` turns a flat operator sequence into a tree. Flattening the
tree gives back the operators that were read, and for a well-nested body every
operator sits in the block, or the arm of the condition, that encloses it.
-/

namespace Inference.WasmToV

/-! ## Flattening -/

mutual

/-- The operators of an expression. Every nested expression ends in the
operator that closed it, so the closing operators need not be added. -/
def Expression.flatten : Expression → List Operator
  | .mk parts _ => flattenParts parts

def flattenParts : List ExpressionPart → List Operator
  | [] => []
  | part :: rest => part.flatten ++ flattenParts rest

def ExpressionPart.flatten : ExpressionPart → List Operator
  | .operator op => [op]
  | .block label parts => label :: parts.flatten
  | .condition label thenArm elseArm => label :: (thenArm.flatten ++ elseArm.flatten)

end

@[simp] theorem flattenParts_nil : flattenParts [] = [] := by
  simp [flattenParts]

@[simp] theorem flattenParts_cons (part : ExpressionPart) (rest : List ExpressionPart) :
    flattenParts (part :: rest) = part.flatten ++ flattenParts rest := by
  simp [flattenParts]

@[simp] theorem flattenParts_append (first second : List ExpressionPart) :
    flattenParts (first ++ second) = flattenParts first ++ flattenParts second := by
  induction first with
  | nil => simp
  | cons part rest induction => simp [induction]

@[simp] theorem flatten_mk (parts : List ExpressionPart) (names : Option NameMap) :
    (Expression.mk parts names).flatten = flattenParts parts := by
  simp [Expression.flatten]

@[simp] theorem flatten_operator (op : Operator) :
    (ExpressionPart.operator op).flatten = [op] := by
  simp [ExpressionPart.flatten]

@[simp] theorem flatten_block (label : Operator) (parts : Expression) :
    (ExpressionPart.block label parts).flatten = label :: parts.flatten := by
  simp [ExpressionPart.flatten]

@[simp] theorem flatten_condition (label : Operator) (thenArm elseArm : Expression) :
    (ExpressionPart.condition label thenArm elseArm).flatten =
      label :: (thenArm.flatten ++ elseArm.flatten) := by
  simp [ExpressionPart.flatten]

/-! ## Steps of the builder -/

section Steps

variable {fuel : Nat} {op : Operator} {iterator : List OperatorItem}

theorem buildParts_nil : buildParts (fuel + 1) [] = .ok ([], []) := by
  simp [buildParts]

theorem buildParts_unreadable {error : BinaryReaderError} :
    buildParts (fuel + 1) (.error error :: iterator) = Outcome.panic := by
  simp [buildParts, Outcome.unwrap, Outcome.panic, bind, Except.bind]

theorem buildParts_closes (closes : op.role = .closes) :
    buildParts (fuel + 1) (.ok op :: iterator) = .ok ([.operator op], iterator) := by
  simp [buildParts, Outcome.unwrap, closes, bind, Except.bind, pure, Except.pure]

theorem buildParts_ordinary (ordinary : op.role = .ordinary) :
    buildParts (fuel + 1) (.ok op :: iterator) = (do
      let (parts, rest) ← buildParts fuel iterator
      return (.operator op :: parts, rest)) := by
  simp [buildParts, Outcome.unwrap, ordinary, bind, Except.bind]

theorem buildParts_block (opens : op.role = .opensBlock) :
    buildParts (fuel + 1) (.ok op :: iterator) = (do
      let (body, afterBody) ← buildParts fuel iterator
      let (parts, rest) ← buildParts fuel afterBody
      return (.block op (.mk body none) :: parts, rest)) := by
  simp [buildParts, Outcome.unwrap, opens, bind, Except.bind]

theorem buildParts_condition (opens : op.role = .opensCondition) :
    buildParts (fuel + 1) (.ok op :: iterator) = (do
      let (thenArm, afterThen) ← buildParts fuel iterator
      let (elseArm, afterElse) ← buildElseArm (buildParts fuel) thenArm afterThen
      let (parts, rest) ← buildParts fuel afterElse
      return (.condition op (.mk thenArm none) (.mk elseArm none) :: parts, rest)) := by
  simp [buildParts, Outcome.unwrap, opens, bind, Except.bind]

end Steps

/-! ## Nothing is lost -/

theorem buildElseArm_ok {build : List OperatorItem → Outcome (List ExpressionPart × List OperatorItem)}
    {thenArm elseArm : List ExpressionPart} {iterator rest : List OperatorItem}
    (built : buildElseArm build thenArm iterator = .ok (elseArm, rest)) :
    (elseArm = [] ∧ rest = iterator) ∨ build iterator = .ok (elseArm, rest) := by
  unfold buildElseArm at built
  split at built
  · simp [Outcome.panic] at built
  · split at built
    · obtain ⟨rfl, rfl⟩ := Prod.mk.inj (Except.ok.inj built)
      exact .inl ⟨rfl, rfl⟩
    · exact .inr built

/-- Whatever the builder reads is in the tree, in order, and what it does not
read is left in the iterator. -/
theorem buildParts_flatten {fuel : Nat} {items rest : List OperatorItem}
    {parts : List ExpressionPart} (built : buildParts fuel items = .ok (parts, rest)) :
    items = (flattenParts parts).map .ok ++ rest := by
  induction fuel generalizing items parts rest with
  | zero => simp [buildParts, Outcome.panic] at built
  | succ fuel induction =>
      cases items with
      | nil =>
          rw [buildParts_nil] at built
          obtain ⟨rfl, rfl⟩ := Prod.mk.inj (Except.ok.inj built)
          rfl
      | cons item iterator =>
          cases item with
          | error error => simp [buildParts_unreadable, Outcome.panic] at built
          | ok op =>
              cases role : op.role with
              | closes =>
                  rw [buildParts_closes role] at built
                  obtain ⟨rfl, rfl⟩ := Prod.mk.inj (Except.ok.inj built)
                  simp
              | ordinary =>
                  rw [buildParts_ordinary role] at built
                  obtain ⟨⟨tail, afterTail⟩, tailBuilt, rebuilt⟩ := bind_ok built
                  obtain ⟨rfl, rfl⟩ := Prod.mk.inj (Except.ok.inj rebuilt)
                  simp [induction tailBuilt]
              | opensBlock =>
                  rw [buildParts_block role] at built
                  obtain ⟨⟨body, afterBody⟩, bodyBuilt, rebuilt⟩ := bind_ok built
                  obtain ⟨⟨tail, afterTail⟩, tailBuilt, assembled⟩ := bind_ok rebuilt
                  obtain ⟨rfl, rfl⟩ := Prod.mk.inj (Except.ok.inj assembled)
                  rw [induction bodyBuilt, induction tailBuilt]
                  simp
              | opensCondition =>
                  rw [buildParts_condition role] at built
                  obtain ⟨⟨thenArm, afterThen⟩, thenBuilt, rebuilt⟩ := bind_ok built
                  obtain ⟨⟨elseArm, afterElse⟩, elseBuilt, remaining⟩ := bind_ok rebuilt
                  obtain ⟨⟨tail, afterTail⟩, tailBuilt, assembled⟩ := bind_ok remaining
                  obtain ⟨rfl, rfl⟩ := Prod.mk.inj (Except.ok.inj assembled)
                  rw [induction thenBuilt]
                  rcases buildElseArm_ok elseBuilt with ⟨rfl, rfl⟩ | elseBuilt
                  · rw [induction tailBuilt]
                    simp
                  · rw [induction elseBuilt, induction tailBuilt]
                    simp

theorem buildParts_length {fuel : Nat} {items rest : List OperatorItem}
    {parts : List ExpressionPart} (built : buildParts fuel items = .ok (parts, rest)) :
    rest.length ≤ items.length := by
  rw [buildParts_flatten built]
  simp

/-! ## The fuel is enough -/

/-- Once the fuel exceeds the number of items, its amount does not matter. -/
theorem buildParts_fuel {fuel otherFuel : Nat} {items : List OperatorItem}
    (enough : items.length < fuel) (otherEnough : items.length < otherFuel) :
    buildParts fuel items = buildParts otherFuel items := by
  induction fuel generalizing otherFuel items with
  | zero => omega
  | succ fuel induction =>
      obtain ⟨otherFuel, rfl⟩ : ∃ smaller, otherFuel = smaller + 1 := ⟨otherFuel - 1, by omega⟩
      cases items with
      | nil => rw [buildParts_nil, buildParts_nil]
      | cons item iterator =>
          simp only [List.length_cons, Nat.add_lt_add_iff_right] at enough otherEnough
          -- A recursive call on what an earlier call left reads no more than that call could.
          have later : ∀ {parts rest}, buildParts fuel iterator = .ok (parts, rest) →
              buildParts fuel rest = buildParts otherFuel rest := by
            intro parts rest built
            have shorter := buildParts_length built
            exact induction (by omega) (by omega)
          have now := induction enough otherEnough
          cases item with
          | error error => rw [buildParts_unreadable, buildParts_unreadable]
          | ok op =>
              cases role : op.role with
              | closes => rw [buildParts_closes role, buildParts_closes role]
              | ordinary => rw [buildParts_ordinary role, buildParts_ordinary role, now]
              | opensBlock =>
                  rw [buildParts_block role, buildParts_block role, ← now]
                  cases body : buildParts fuel iterator with
                  | error failure => rfl
                  | ok result => simp only [bind, Except.bind, later body]
              | opensCondition =>
                  rw [buildParts_condition role, buildParts_condition role, ← now]
                  cases thenArm : buildParts fuel iterator with
                  | error failure => rfl
                  | ok result =>
                      obtain ⟨thenParts, afterThen⟩ := result
                      have sameElse : buildElseArm (buildParts fuel) thenParts afterThen =
                          buildElseArm (buildParts otherFuel) thenParts afterThen := by
                        simp only [buildElseArm, later thenArm]
                      simp only [bind, Except.bind, ← sameElse]
                      cases elseArm : buildElseArm (buildParts fuel) thenParts afterThen with
                      | error failure => rfl
                      | ok result =>
                          obtain ⟨elseParts, afterElse⟩ := result
                          have shorter : afterElse.length ≤ iterator.length := by
                            have afterThenShorter := buildParts_length thenArm
                            rcases buildElseArm_ok elseArm with ⟨_, same⟩ | elseBuilt
                            · rw [same]
                              exact afterThenShorter
                            · exact Nat.le_trans (buildParts_length elseBuilt) afterThenShorter
                          have sameRest : buildParts fuel afterElse = buildParts otherFuel afterElse :=
                            induction (by omega) (by omega)
                          simp only [sameRest]

theorem translateExpression_eq {fuel : Nat} {items : List OperatorItem}
    (enough : items.length < fuel) :
    translateExpression items = (do
      let (parts, rest) ← buildParts fuel items
      return (.mk parts none, rest)) := by
  rw [translateExpression, buildParts_fuel (Nat.lt_succ_self items.length) enough]

/-! ## Well-nested bodies -/

/-- Operator sequences in which every block and condition is closed by its own
end. -/
inductive WellNested : List Operator → Prop
  | nil : WellNested []
  | ordinary (role : op.role = .ordinary) (rest : WellNested following) :
      WellNested (op :: following)
  | block (role : label.role = .opensBlock) (body : WellNested enclosed)
      (rest : WellNested following) :
      WellNested (label :: (enclosed ++ .end_ :: following))
  | ifThen (role : label.role = .opensCondition) (thenArm : WellNested thenInner)
      (rest : WellNested following) :
      WellNested (label :: (thenInner ++ .end_ :: following))
  | ifElse (role : label.role = .opensCondition) (thenArm : WellNested thenInner)
      (elseArm : WellNested elseInner) (rest : WellNested following) :
      WellNested (label :: (thenInner ++ .else_ :: (elseInner ++ .end_ :: following)))

/-- A body as a sequence of parts: every nested expression holds exactly the
operators between its opener and the operator that closes it. -/
inductive Structures : List Operator → List ExpressionPart → Prop
  | nil : Structures [] []
  | ordinary (role : op.role = .ordinary) (rest : Structures following parts) :
      Structures (op :: following) (.operator op :: parts)
  | block (role : label.role = .opensBlock) (body : Structures enclosed enclosedParts)
      (rest : Structures following parts) :
      Structures (label :: (enclosed ++ .end_ :: following))
        (.block label (.mk (enclosedParts ++ [.operator .end_]) none) :: parts)
  | ifThen (role : label.role = .opensCondition) (thenArm : Structures thenInner thenParts)
      (rest : Structures following parts) :
      Structures (label :: (thenInner ++ .end_ :: following))
        (.condition label (.mk (thenParts ++ [.operator .end_]) none) (.mk [] none) :: parts)
  | ifElse (role : label.role = .opensCondition) (thenArm : Structures thenInner thenParts)
      (elseArm : Structures elseInner elseParts) (rest : Structures following parts) :
      Structures (label :: (thenInner ++ .else_ :: (elseInner ++ .end_ :: following)))
        (.condition label (.mk (thenParts ++ [.operator .else_]) none)
          (.mk (elseParts ++ [.operator .end_]) none) :: parts)

theorem WellNested.structures {ops : List Operator} (nested : WellNested ops) :
    ∃ parts, Structures ops parts := by
  induction nested with
  | nil => exact ⟨_, .nil⟩
  | ordinary role _ restInduction =>
      obtain ⟨parts, rest⟩ := restInduction
      exact ⟨_, .ordinary role rest⟩
  | block role _ _ bodyInduction restInduction =>
      obtain ⟨_, body⟩ := bodyInduction
      obtain ⟨_, rest⟩ := restInduction
      exact ⟨_, .block role body rest⟩
  | ifThen role _ _ thenInduction restInduction =>
      obtain ⟨_, thenArm⟩ := thenInduction
      obtain ⟨_, rest⟩ := restInduction
      exact ⟨_, .ifThen role thenArm rest⟩
  | ifElse role _ _ _ thenInduction elseInduction restInduction =>
      obtain ⟨_, thenArm⟩ := thenInduction
      obtain ⟨_, elseArm⟩ := elseInduction
      obtain ⟨_, rest⟩ := restInduction
      exact ⟨_, .ifElse role thenArm elseArm rest⟩

theorem Structures.flatten {ops : List Operator} {parts : List ExpressionPart}
    (structures : Structures ops parts) : flattenParts parts = ops := by
  induction structures with
  | nil => simp
  | ordinary _ _ restInduction => simp [restInduction]
  | block _ _ _ bodyInduction restInduction => simp [bodyInduction, restInduction]
  | ifThen _ _ _ thenInduction restInduction => simp [thenInduction, restInduction]
  | ifElse _ _ _ _ thenInduction elseInduction restInduction =>
      simp [thenInduction, elseInduction, restInduction]

/-- The then arm's last part decides whether an else arm is read. -/
theorem buildElseArm_closed
    {build : List OperatorItem → Outcome (List ExpressionPart × List OperatorItem)}
    {parts : List ExpressionPart} {closer : Operator} {iterator : List OperatorItem} :
    buildElseArm build (parts ++ [.operator closer]) iterator =
      if (ExpressionPart.operator closer).isEnd then .ok ([], iterator) else build iterator := by
  simp [buildElseArm]

/-- The builder reads a structured sequence up to its closing operator and
returns its parts. -/
theorem Structures.build {ops : List Operator} {parts : List ExpressionPart}
    (structures : Structures ops parts) {closer : Operator} (closes : closer.role = .closes)
    (rest : List OperatorItem) {fuel : Nat}
    (enough : ops.length + 1 + rest.length < fuel) :
    buildParts fuel (ops.map .ok ++ .ok closer :: rest) =
      .ok (parts ++ [.operator closer], rest) := by
  have ends : Operator.end_.role = .closes := rfl
  have elses : Operator.else_.role = .closes := rfl
  induction structures generalizing closer rest fuel with
  | nil =>
      obtain ⟨fuel, rfl⟩ : ∃ smaller, fuel = smaller + 1 := ⟨fuel - 1, by omega⟩
      exact buildParts_closes closes
  | ordinary role _ restInduction =>
      obtain ⟨fuel, rfl⟩ : ∃ smaller, fuel = smaller + 1 := ⟨fuel - 1, by omega⟩
      simp only [List.length_cons] at enough
      rw [List.map_cons, List.cons_append, buildParts_ordinary role,
        restInduction closes rest (by omega)]
      rfl
  | block role _ _ bodyInduction restInduction =>
      obtain ⟨fuel, rfl⟩ : ∃ smaller, fuel = smaller + 1 := ⟨fuel - 1, by omega⟩
      simp only [List.length_cons, List.length_append] at enough
      simp only [List.map_cons, List.map_append, List.cons_append, List.append_assoc]
      rw [buildParts_block role,
        bodyInduction ends _ (by grind)]
      simp only [bind, Except.bind]
      rw [restInduction closes rest (by omega)]
      rfl
  | ifThen role _ _ thenInduction restInduction =>
      obtain ⟨fuel, rfl⟩ : ∃ smaller, fuel = smaller + 1 := ⟨fuel - 1, by omega⟩
      simp only [List.length_cons, List.length_append] at enough
      simp only [List.map_cons, List.map_append, List.cons_append, List.append_assoc]
      rw [buildParts_condition role,
        thenInduction ends _ (by grind)]
      simp only [bind, Except.bind, buildElseArm_closed, ExpressionPart.isEnd, if_true]
      rw [restInduction closes rest (by omega)]
      rfl
  | ifElse role _ _ _ thenInduction elseInduction restInduction =>
      obtain ⟨fuel, rfl⟩ : ∃ smaller, fuel = smaller + 1 := ⟨fuel - 1, by omega⟩
      simp only [List.length_cons, List.length_append] at enough
      simp only [List.map_cons, List.map_append, List.cons_append, List.append_assoc]
      rw [buildParts_condition role,
        thenInduction elses _ (by grind)]
      simp only [bind, Except.bind, buildElseArm_closed, ExpressionPart.isEnd,
        Bool.false_eq_true, if_false]
      rw [elseInduction ends _ (by grind)]
      simp only
      rw [restInduction closes rest (by omega)]
      rfl

/-- Structure reconstruction is lossless: the tree built for a well-nested body
has the nesting of the body, and flattening it gives back the body up to its
final end. What follows that end stays in the iterator. -/
theorem translateExpression_wellNested {body : List Operator} (nested : WellNested body)
    (rest : List OperatorItem) :
    ∃ parts,
      translateExpression ((body ++ [Operator.end_]).map .ok ++ rest) =
        .ok (.mk (parts ++ [.operator .end_]) none, rest) ∧
      (Expression.mk (parts ++ [.operator .end_]) none).flatten = body ++ [.end_] ∧
      Structures body parts := by
  obtain ⟨parts, structures⟩ := nested.structures
  refine ⟨parts, ?_, by simp [structures.flatten], structures⟩
  simp only [List.map_append, List.map_cons, List.map_nil, List.append_assoc,
    List.cons_append, List.nil_append]
  rw [translateExpression_eq (Nat.lt_succ_self _), structures.build rfl rest (by simp; omega)]
  rfl

/-- A condition whose then arm is empty, inside the else arm of another one that
ends in a block. -/
theorem translateExpression_wellNested_condition :
    ∃ parts,
      translateExpression
          (([Operator.if_ .empty, .plain .nop, .else_, .if_ .empty, .end_, .block .empty,
            .end_, .end_] ++ [Operator.end_]).map .ok ++ []) =
        .ok (.mk (parts ++ [.operator .end_]) none, []) ∧
      (Expression.mk (parts ++ [.operator .end_]) none).flatten =
        [Operator.if_ .empty, .plain .nop, .else_, .if_ .empty, .end_, .block .empty,
          .end_, .end_] ++ [.end_] ∧
      Structures [Operator.if_ .empty, .plain .nop, .else_, .if_ .empty, .end_,
        .block .empty, .end_, .end_] parts :=
  have emptyBlock : WellNested (.block .empty :: ([] ++ .end_ :: [])) := .block rfl .nil .nil
  have elseArm : WellNested (.if_ .empty :: ([] ++ .end_ :: [.block .empty, .end_])) :=
    .ifThen rfl .nil emptyBlock
  have thenArm : WellNested [.plain .nop] := .ordinary rfl .nil
  have nested : WellNested (.if_ .empty :: ([.plain .nop] ++ .else_ ::
      ([.if_ .empty, .end_, .block .empty, .end_] ++ .end_ :: []))) :=
    .ifElse rfl thenArm elseArm .nil
  translateExpression_wellNested nested []

end Inference.WasmToV
