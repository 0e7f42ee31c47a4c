import Inference.Ast.Builder
import Inference.Foundation.Results

/-! # Lists of names and values

The arguments of calls and the fields of struct literals are written as values with or without a
name in front. The builder pairs them while it walks over the children. The lists it builds are the
lists that were written if every name is an identifier with its value right behind it.
-/

namespace Inference.Ast

open Inference.Foundation Collecting Builder

/-! ## Lists as they are written -/

inductive Part where
  | name (node : SyntaxNode)
  | value (node : SyntaxNode)

namespace Part

def node : Part → SyntaxNode
  | .name node | .value node => node

def isName : Part → Bool
  | .name _ => true
  | .value _ => false

end Part

def partOf (nameField valueField : String) (child : SyntaxNode) : Option Part :=
  if child.field = some nameField then some (.name child)
  else if child.field = some valueField then some (.value child)
  else none

def writtenParts (nameField valueField : String) (children : List SyntaxNode) : List Part :=
  children.filterMap (partOf nameField valueField)

/-- The values in order, each one with the name immediately before it. -/
def entriesFrom : (before : Option SyntaxNode) → List Part → List (Option SyntaxNode × SyntaxNode)
  | _, [] => []
  | _, .name node :: rest => entriesFrom (some node) rest
  | before, .value node :: rest => (before, node) :: entriesFrom none rest

/-! ## Preserved lists -/

section Preserved

variable (builders : Builders) (id : Nat) (code : Text)

def BuiltFrom (node : SyntaxNode) (expression : Expression) : Prop :=
  ∃ initial final errors, (builders.expression id node code).Ends initial expression final errors

/-- The entry has the value that was written, and the name if one was. -/
structure Carries (written : Option SyntaxNode × SyntaxNode)
    (built : Option Identifier × Expression) : Prop where
  value : BuiltFrom builders id code written.2 built.2
  name : built.1.map (fun name => some name.name) =
    written.1.map fun node => (node.utf8Text code).map String.ofList

/-- Every value has its entry in order, and no name is lost or there twice. -/
structure Preserves (parts : List Part) (built : List (Option Identifier × Expression)) : Prop where
  entries : List.Forall₂ (Carries builders id code) (entriesFrom none parts) built
  names : built.countP (·.1.isSome) = parts.countP Part.isName

end Preserved

/-- The kinds of nodes that are built as expressions without an error, names apart. -/
def expressionKinds : List String :=
  ["array_index_access_expression", "generic_name", "qualified_name", "type",
    "member_access_expression", "type_member_access_expression", "function_call_expression",
    "struct_expression", "prefix_unary_expression", "parenthesized_expression",
    "binary_expression", "bool_literal", "string_literal", "number_literal", "array_literal",
    "unit_literal", "uzumaki_keyword"]

/-- The name is built as it is written: an identifier, or what is no expression at all and has the
text that is put in the place of such nodes. -/
def IsName (code : Text) (node : SyntaxNode) : Prop :=
  node.kind = "identifier" ∨
    node.kind ∉ expressionKinds ∧ node.utf8Text code = some "<error>".toList

/-- Every name has its value right behind it. -/
def Followed : List Part → Prop
  | [] => True
  | .name _ :: rest => (∃ node more, rest = .value node :: more) ∧ Followed rest
  | .value _ :: rest => Followed rest

structure Paired (code : Text) (parts : List Part) : Prop where
  names : ∀ node, .name node ∈ parts → IsName code node
  followed : Followed parts

/-! ## What is built in the place of a name -/

def readName : Expression → Option Identifier
  | .identifier name => some name
  | _ => none

variable {parentId : Nat} {node : SyntaxNode}

theorem returns_buildNode {built : Type} {condition : built → Prop} {stored : built → AstNode}
    {code : Text} {parts : Node → Building built} (returns : ∀ own, Returns condition (parts own)) :
    Returns condition (buildNode stored parentId node code parts) :=
  .bind fun _ => .bind fun id => .bind_of (returns ⟨id, getLocation node⟩) fun _ holds =>
    .bind fun _ => .pure holds

/-- What is built for the kinds of expressions is no name. -/
theorem returns_noName (builders : Builders) (parentId : Nat) (node : SyntaxNode) (code : Text)
    (isExpression : node.kind ∈ expressionKinds) :
    Returns (fun expression => readName expression = none)
      (buildExpression builders parentId node code) := by
  unfold buildExpression
  simp only [expressionKinds, List.mem_cons, List.not_mem_nil, or_false] at isExpression
  split
  case h_1 | h_9 =>
    exact returns_buildNode fun _ => .bind fun _ => .bind fun _ => .bind fun _ => .bind fun _ =>
      .pure rfl
  case h_5 | h_6 | h_8 | h_10 =>
    exact returns_buildNode fun _ => .bind fun _ => .bind fun _ => .pure rfl
  case h_7 | h_11 =>
    exact returns_buildNode fun _ => .bind fun _ => .bind fun _ => .bind fun _ => .pure rfl
  case h_17 => exact returns_buildNode fun _ => .pure rfl
  case h_18 | h_19 | h_20 => simp_all
  all_goals exact .bind fun _ => .pure rfl

theorem returns_buildIdentifier (parentId : Nat) (node : SyntaxNode) (code : Text) :
    Returns (fun name => (node.utf8Text code).map String.ofList = some name.name)
      (buildIdentifier parentId node code) := by
  have textReturns : Returns (fun text => node.utf8Text code = some text)
      (expect (node.utf8Text code) : Building Text) := .expect fun text found => found
  refine returns_buildNode fun own => .bind_of textReturns fun text found => .pure ?_
  rw [found]
  rfl

theorem returns_errorIdentifier (location : Location) :
    Returns (fun name => name.name = "<error>") (errorIdentifier location) :=
  .bind fun _ => .pure rfl

theorem map_ofList_eq_iff {text : Option Text} {name : String} :
    some name = text.map String.ofList ↔ text = some name.toList := by
  cases text with
  | none => simp
  | some characters =>
      simp only [Option.map_some, Option.some.injEq]
      constructor
      · rintro rfl
        exact (String.toList_ofList).symm
      · rintro rfl
        exact (String.ofList_toList).symm

/-- What is built in the place of a name has the text of the node as its name exactly for names. -/
theorem returns_readName (builders : Builders) (parentId : Nat) (node : SyntaxNode) (code : Text) :
    Returns (fun expression => (readName expression).map (fun name => some name.name) =
        some ((node.utf8Text code).map String.ofList) ↔ IsName code node)
      (buildExpression builders parentId node code) := by
  by_cases isIdentifier : node.kind = "identifier"
  · unfold buildExpression
    simp only [isIdentifier]
    refine .bind_of (returns_buildIdentifier parentId node code) fun name found => .pure ?_
    rw [found]
    exact iff_of_true rfl (.inl isIdentifier)
  by_cases isExpression : node.kind ∈ expressionKinds
  · refine ⟨fun ended => ?_⟩
    rw [(returns_noName builders parentId node code isExpression).value ended]
    refine iff_of_false (by simp) ?_
    rintro (same | ⟨none, _⟩)
    · exact isIdentifier same
    · exact none isExpression
  · have replaced : Returns (fun expression => (readName expression).map (·.name) = some "<error>")
        (buildExpression builders parentId node code) := by
      unfold buildExpression
      split
      case h_19 | h_20 =>
        refine .bind fun _ => .bind_of (returns_errorIdentifier _) fun name same => .pure ?_
        exact congrArg some same
      all_goals simp_all [expressionKinds]
    refine ⟨fun ended => ?_⟩
    rcases Option.map_eq_some_iff.mp (replaced.value ended) with ⟨name, found, same⟩
    rw [found, Option.map_some, same, Option.some.injEq, map_ofList_eq_iff]
    simp [IsName, isIdentifier, isExpression]

variable {depth : Nat} {expression : Expression}

theorem builtFrom_readName {id : Nat} {code : Text}
    (built : BuiltFrom (buildersWithin depth) id code node expression) :
    (readName expression).map (fun name => some name.name) =
      some ((node.utf8Text code).map String.ofList) ↔ IsName code node := by
  rcases built with ⟨initial, final, errors, ended⟩
  cases depth with
  | zero => exact (ends_abort.mp ended).elim
  | succ depth => exact (returns_readName (buildersWithin depth) id node code).value ended

/-! ## The loop -/

/-- The entries that the loop makes of the parts and what is built of them. -/
def pairs : (pendingName : Option Identifier) → List (Part × Expression) →
    List (Option Identifier × Expression)
  | _, [] => []
  | pendingName, (.name _, expression) :: rest => pairs (pendingAfter expression pendingName) rest
  | pendingName, (.value _, expression) :: rest => (pendingName, expression) :: pairs none rest

variable {nameField valueField : String} {children : List SyntaxNode}
  {pendingName : Option Identifier} {initial final : BuilderState} {errors : List String}

theorem ends_buildParts {builders : Builders} {name : Type}
    {take : Option Identifier → Option name} {id : Nat} {code : Text}
    {parts result : List (name × Expression)}
    (ended : (buildParts builders nameField valueField take id code children pendingName
      parts).Ends initial result final errors) :
    ∃ built more, built.map Prod.fst = writtenParts nameField valueField children ∧
      (∀ part ∈ built, BuiltFrom builders id code part.1.node part.2) ∧ result = parts ++ more ∧
      List.Forall₂ (fun pair entry => take pair.1 = some entry.1 ∧ pair.2 = entry.2)
        (pairs pendingName built) more := by
  induction children generalizing pendingName parts initial errors with
  | nil =>
      rcases ends_pure.mp ended with ⟨rfl, _⟩
      exact ⟨[], [], rfl, by simp, by simp, .nil⟩
  | cons child rest induction =>
      rw [buildParts] at ended
      rcases ends_ite.mp ended with ⟨isName, ended⟩ | ⟨noName, ended⟩
      · rcases ends_bind.mp ended with ⟨expression, middle, first, after, built, ended, _⟩
        rcases induction ended with ⟨more, entries, same, from_, result, paired⟩
        refine ⟨(.name child, expression) :: more, entries, ?_, ?_, result, paired⟩
        · simp [writtenParts, partOf, isName, same]
        · simp only [List.forall_mem_cons]
          exact ⟨⟨_, _, _, built⟩, from_⟩
      rcases ends_ite.mp ended with ⟨isValue, ended⟩ | ⟨noValue, ended⟩
      · rcases ends_bind.mp ended with ⟨expression, middle, first, after, built, ended, _⟩
        rcases ends_bind.mp ended with ⟨taken, _, _, _, expected, tail, _⟩
        rcases ends_expect.mp expected with ⟨found, rfl, _⟩
        rcases induction tail with ⟨more, entries, same, from_, rfl, paired⟩
        refine ⟨(.value child, expression) :: more, (taken, expression) :: entries, ?_, ?_, ?_, ?_⟩
        · have isPart : partOf nameField valueField child = some (.value child) := by
            rw [partOf, if_neg noName, if_pos isValue]
          rw [writtenParts, List.filterMap_cons_some isPart, List.map_cons, same, writtenParts]
        · simp only [List.forall_mem_cons]
          exact ⟨⟨_, _, _, built⟩, from_⟩
        · simp
        · exact .cons ⟨found, rfl⟩ paired
      · rcases induction ended with ⟨more, entries, same, from_, result, paired⟩
        refine ⟨more, entries, ?_, from_, result, paired⟩
        simp [writtenParts, partOf, noName, noValue, same]

/-! ## Pairing -/

/-- There are no more entries with a name than names, and as many only if every name has its value
right behind it. -/
theorem countP_entriesFrom (before : Option SyntaxNode) (parts : List Part) :
    (entriesFrom before parts).countP (·.1.isSome) ≤
        parts.countP Part.isName + before.toList.length ∧
      ((entriesFrom before parts).countP (·.1.isSome) =
          parts.countP Part.isName + before.toList.length ↔
        (before.isSome → ∃ node more, parts = .value node :: more) ∧ Followed parts) := by
  induction parts generalizing before with
  | nil => cases before <;> simp [entriesFrom, Followed]
  | cons part rest induction =>
      cases part with
      | name node =>
          rcases induction (some node) with ⟨fewer, as_many⟩
          simp only [Option.toList_some, List.length_singleton, Option.isSome_some,
            forall_const] at fewer as_many
          simp only [entriesFrom, Followed, List.countP_cons, Part.isName, if_true]
          cases before with
          | none => simpa using ⟨fewer, as_many⟩
          | some before =>
              simp
              omega
      | value node =>
          rcases induction none with ⟨fewer, as_many⟩
          simp only [Option.toList_none, List.length_nil, Nat.add_zero, Option.isSome_none,
            Bool.false_eq_true, false_implies, true_and] at fewer as_many
          cases before with
          | none => simpa [entriesFrom, Followed, Part.isName] using ⟨fewer, as_many⟩
          | some before => simpa [entriesFrom, Followed, Part.isName] using ⟨fewer, as_many⟩

/-- What waits for a value is built from the name before it. -/
inductive Waits (builders : Builders) (id : Nat) (code : Text) :
    Option SyntaxNode → Option Identifier → Prop where
  | none : Waits builders id code none none
  | some {node : SyntaxNode} {expression : Expression}
      (built : BuiltFrom builders id code node expression) :
      Waits builders id code (some node) (readName expression)

/-- With values right behind the names, the entries are those written if the names are. -/
theorem carries_pairs_iff {id : Nat} {code : Text} {before : Option SyntaxNode}
    {built : List (Part × Expression)}
    (waits : Waits (buildersWithin depth) id code before pendingName)
    (allBuilt : ∀ part ∈ built, BuiltFrom (buildersWithin depth) id code part.1.node part.2)
    (follows : before.isSome → ∃ node more, built.map Prod.fst = .value node :: more)
    (followed : Followed (built.map Prod.fst)) :
    List.Forall₂ (Carries (buildersWithin depth) id code)
        (entriesFrom before (built.map Prod.fst)) (pairs pendingName built) ↔
      (∀ node ∈ before, IsName code node) ∧
        ∀ node, .name node ∈ built.map Prod.fst → IsName code node := by
  induction built generalizing before pendingName with
  | nil =>
      cases waits with
      | none => simp [entriesFrom, pairs]
      | some _ =>
          rcases follows rfl with ⟨_, _, same⟩
          cases same
  | cons head rest induction =>
      rcases head with ⟨part, expression⟩
      rcases List.forall_mem_cons.mp allBuilt with ⟨headBuilt, restBuilt⟩
      cases part with
      | name node =>
          have nameBuilt : BuiltFrom (buildersWithin depth) id code node expression := headBuilt
          cases waits with
          | none =>
              have tail := induction (.some nameBuilt) restBuilt (fun _ => followed.1) followed.2
              have read : pendingAfter expression none = readName expression := by
                cases expression <;> rfl
              simp only [List.map_cons, entriesFrom, pairs, read, tail, Option.mem_def,
                Option.some.injEq, forall_eq', reduceCtorEq, false_implies, implies_true, true_and,
                List.mem_cons, Part.name.injEq, forall_eq_or_imp]
          | some _ =>
              rcases follows rfl with ⟨_, _, same⟩
              cases same
      | value node =>
          have tail := induction .none restBuilt (by simp) followed
          simp only [List.map_cons, entriesFrom, pairs, List.forall₂_cons, tail]
          have carries : Carries (buildersWithin depth) id code (before, node)
              (pendingName, expression) ↔ ∀ node ∈ before, IsName code node := by
            cases waits with
            | none => exact iff_of_true ⟨headBuilt, rfl⟩ (by simp)
            | some built =>
                simp only [Option.mem_def, Option.some.injEq, forall_eq']
                rw [← builtFrom_readName built]
                exact ⟨fun carried => carried.name, fun same => ⟨headBuilt, same⟩⟩
          rw [carries]
          simp

/-- The list is the one that was written exactly if every name is one and has its value right
behind it. -/
theorem preserves_pairs_iff {id : Nat} {code : Text} {built : List (Part × Expression)}
    (allBuilt : ∀ part ∈ built, BuiltFrom (buildersWithin depth) id code part.1.node part.2) :
    Preserves (buildersWithin depth) id code (built.map Prod.fst) (pairs none built) ↔
      Paired code (built.map Prod.fst) := by
  have counted := (countP_entriesFrom none (built.map Prod.fst)).2
  simp only [Option.toList_none, List.length_nil, Nat.add_zero, Option.isSome_none,
    Bool.false_eq_true, false_implies, true_and] at counted
  have sameCount : ∀ {written : List (Option SyntaxNode × SyntaxNode)} {entries},
      List.Forall₂ (Carries (buildersWithin depth) id code) written entries →
        entries.countP (·.1.isSome) = written.countP (·.1.isSome) := by
    intro written entries carried
    induction carried with
    | nil => rfl
    | cons head _ induction =>
        have same := congrArg Option.isSome head.name
        simp only [Option.isSome_map] at same
        rw [List.countP_cons, List.countP_cons, induction, same]
  constructor
  · intro preserved
    have followed := counted.mp ((sameCount preserved.entries).symm.trans preserved.names)
    have carried := (carries_pairs_iff .none allBuilt (by simp) followed).mp preserved.entries
    exact ⟨carried.2, followed⟩
  · intro paired
    have entries := (carries_pairs_iff .none allBuilt (by simp) paired.followed).mpr
      ⟨by simp, paired.names⟩
    exact ⟨entries, (sameCount entries).trans (counted.mpr paired.followed)⟩

/-! ## What the loop returns -/

/-- Every part is built, whatever was built before it. -/
def AllBuilt (builders : Builders) (id : Nat) (code : Text) (parts : List Part) : Prop :=
  ∀ part ∈ parts, ∀ initial, ∃ expression final errors,
    (builders.expression id part.node code).Ends initial expression final errors

/-- The loop returns if a condition on what waits and on the parts that are left lets every value
take its name. -/
theorem buildParts_returns {builders : Builders} {name : Type}
    {take : Option Identifier → Option name} {id : Nat} {code : Text}
    (lets : Option Identifier → List Part → Prop)
    (letsName : ∀ pendingName node rest expression, lets pendingName (.name node :: rest) →
      BuiltFrom builders id code node expression → lets (pendingAfter expression pendingName) rest)
    (letsValue : ∀ pendingName node rest, lets pendingName (.value node :: rest) →
      (take pendingName).isSome ∧ lets none rest)
    (allBuilt : AllBuilt builders id code (writtenParts nameField valueField children))
    (start : lets pendingName (writtenParts nameField valueField children))
    (parts : List (name × Expression)) (initial : BuilderState) :
    ∃ result final errors, (buildParts builders nameField valueField take id code children
      pendingName parts).Ends initial result final errors := by
  induction children generalizing pendingName parts initial with
  | nil => exact ⟨parts, initial, [], ends_pure.mpr ⟨rfl, rfl, rfl⟩⟩
  | cons child rest induction =>
      simp only [buildParts, ends_ite]
      by_cases isName : child.field = some nameField
      · have isPart : partOf nameField valueField child = some (.name child) := by
          rw [partOf, if_pos isName]
        rw [writtenParts, List.filterMap_cons_some isPart] at allBuilt start
        rcases List.forall_mem_cons.mp allBuilt with ⟨headBuilt, restBuilt⟩
        rcases headBuilt initial with ⟨expression, middle, first, built⟩
        have waits := letsName pendingName child _ expression start ⟨_, _, _, built⟩
        rcases induction restBuilt waits parts middle with ⟨result, final, after, tail⟩
        exact ⟨result, final, first ++ after, .inl ⟨isName,
          ends_bind.mpr ⟨expression, middle, first, after, built, tail, rfl⟩⟩⟩
      by_cases isValue : child.field = some valueField
      · have isPart : partOf nameField valueField child = some (.value child) := by
          rw [partOf, if_neg isName, if_pos isValue]
        rw [writtenParts, List.filterMap_cons_some isPart] at allBuilt start
        rcases List.forall_mem_cons.mp allBuilt with ⟨headBuilt, restBuilt⟩
        rcases headBuilt initial with ⟨expression, middle, first, built⟩
        rcases letsValue pendingName child _ start with ⟨taken, waits⟩
        rcases Option.isSome_iff_exists.mp taken with ⟨name, found⟩
        rcases induction restBuilt waits (parts ++ [(name, expression)]) middle with
          ⟨result, final, after, tail⟩
        refine ⟨result, final, first ++ ([] ++ after), .inr ⟨isName, .inl ⟨isValue, ?_⟩⟩⟩
        refine ends_bind.mpr ⟨expression, middle, first, _, built, ?_, rfl⟩
        exact ends_bind.mpr ⟨name, middle, [], after, ends_expect.mpr ⟨found, rfl, rfl⟩, tail, rfl⟩
      · have noPart : partOf nameField valueField child = none := by
          rw [partOf, if_neg isName, if_neg isValue]
        rw [writtenParts, List.filterMap_cons_none noPart] at allBuilt start
        rcases induction allBuilt start parts initial with ⟨result, final, errors, tail⟩
        exact ⟨result, final, errors, .inr ⟨isName, .inr ⟨isValue, tail⟩⟩⟩

theorem forall_of_forall₂ {first second : Type} {related : first → second → Prop}
    {left : first → Prop} {firsts : List first} {seconds : List second} (right : second → Prop)
    (all : List.Forall₂ related firsts seconds)
    (step : ∀ {one other}, related one other → right other → left one)
    (holds : ∀ other ∈ seconds, right other) : ∀ one ∈ firsts, left one := by
  induction all with
  | nil => simp
  | cons head _ induction =>
      rcases List.forall_mem_cons.mp holds with ⟨headHolds, restHolds⟩
      exact List.forall_mem_cons.mpr ⟨step head headHolds, induction restHolds⟩

/-- What waits where every name is one with its value right behind it, and every value has a
name. -/
structure LetsNamed (builders : Builders) (ownId : Nat) (code : Text) (before : Option SyntaxNode)
    (pendingName : Option Identifier) (parts : List Part) : Prop where
  waits : Waits builders ownId code before pendingName
  isName : ∀ node ∈ before, IsName code node
  follows : before.isSome → ∃ node more, parts = .value node :: more
  paired : Paired code parts
  named : ∀ entry ∈ entriesFrom before parts, entry.1.isSome

theorem Paired.tail {code : Text} {part : Part} {rest : List Part}
    (paired : Paired code (part :: rest)) : Paired code rest where
  names node member := paired.names node (List.mem_cons_of_mem _ member)
  followed := by
    cases part with
    | name _ => exact paired.followed.2
    | value _ => exact paired.followed

/-- A list in which a name is needed is built exactly if there is one for every value. -/
theorem buildParts_returns_iff {ownId : Nat} {code : Text}
    (allBuilt : AllBuilt (buildersWithin depth) ownId code
      (writtenParts nameField valueField children))
    (paired : Paired code (writtenParts nameField valueField children)) (initial : BuilderState) :
    (∃ result final errors, (buildParts (buildersWithin depth) nameField valueField id ownId code
        children none []).Ends initial result final errors) ↔
      ∀ entry ∈ entriesFrom none (writtenParts nameField valueField children), entry.1.isSome := by
  constructor
  · rintro ⟨result, final, errors, ended⟩
    rcases ends_buildParts ended with ⟨built, more, same, built_from, _, taken⟩
    rw [← same] at paired ⊢
    have entries := ((preserves_pairs_iff built_from).mpr paired).entries
    refine forall_of_forall₂ (fun entry => entry.1.isSome = true) entries ?_ ?_
    · intro written pair carried isSome
      have sameName := congrArg Option.isSome carried.name
      rw [Option.isSome_map, Option.isSome_map] at sameName
      exact sameName.symm.trans isSome
    · refine forall_of_forall₂ (fun _ => True) taken ?_ fun _ _ => trivial
      intro pair entry takes _
      exact Option.isSome_iff_exists.mpr ⟨entry.1, takes.1⟩
  · intro named
    refine buildParts_returns
      (fun pendingName parts => ∃ before,
        LetsNamed (buildersWithin depth) ownId code before pendingName parts) ?_ ?_ allBuilt
      ⟨none, .none, by simp, by simp, paired, named⟩ [] initial
    · rintro pendingName node rest expression ⟨before, lets⟩ built
      have noName : before = none := by
        cases before with
        | none => rfl
        | some other =>
            rcases lets.follows rfl with ⟨_, _, same⟩
            cases same
      subst noName
      have read : pendingAfter expression pendingName = readName expression := by
        cases lets.waits
        cases expression <;> rfl
      refine ⟨some node, read ▸ .some built, ?_, ?_, lets.paired.tail, lets.named⟩
      · simpa using lets.paired.names node List.mem_cons_self
      · exact fun _ => lets.paired.followed.1
    · rintro pendingName node rest ⟨before, lets⟩
      rcases List.forall_mem_cons.mp lets.named with ⟨isNamed, restNamed⟩
      refine ⟨?_, none, .none, by simp, by simp, lets.paired.tail, restNamed⟩
      cases lets.waits with
      | none => cases isNamed
      | some built =>
          have same := (builtFrom_readName built).mpr (lets.isName _ rfl)
          have isSome := congrArg Option.isSome same
          rwa [Option.isSome_map] at isSome

/-! ## Calls and struct literals -/

def callParts (node : SyntaxNode) : List Part :=
  writtenParts "argument_name" "argument" node.children

def structParts (node : SyntaxNode) : List Part :=
  writtenParts "field" "value" node.children

/-- The expression is a call whose arguments are those of the node. -/
inductive PreservesArguments (builders : Builders) (code : Text) (node : SyntaxNode) :
    Expression → Prop where
  | call {own : Node} {function : Expression} {typeParameters : Option (List Identifier)}
      {arguments : Option (List (Option Identifier × Expression))}
      (preserves : Preserves builders own.id code (callParts node) (arguments.getD [])) :
      PreservesArguments builders code node (.functionCall own function typeParameters arguments)

/-- The expression is a struct literal whose fields are those of the node. -/
inductive PreservesFields (builders : Builders) (code : Text) (node : SyntaxNode) :
    Expression → Prop where
  | struct_ {own : Node} {name : Identifier} {fields : Option (List (Identifier × Expression))}
      (preserves : Preserves builders own.id code (structParts node)
        ((fields.getD []).map fun field => (some field.1, field.2))) :
      PreservesFields builders code node (.struct_ own name fields)

theorem getD_nonEmpty {item : Type} (items : List item) : (nonEmpty items).getD [] = items := by
  cases items <;> rfl

/-- How the parts of a node that ends are built. -/
theorem ends_buildNode {built : Type} {stored : built → AstNode}
    {code : Text} {parts : Node → Building built} {value : built}
    (ended : (buildNode stored parentId node code parts).Ends initial value final errors) :
    ∃ id before after more, (parts { id, location := getLocation node }).Ends before value after
      more := by
  rcases ends_bind.mp ended with ⟨_, _, _, _, _, ended, _⟩
  rcases ends_bind.mp ended with ⟨id, before, _, _, _, ended, _⟩
  rcases ends_bind.mp ended with ⟨built, after, more, _, partsEnded, ended, _⟩
  rcases ends_bind.mp ended with ⟨_, _, _, _, _, ended, _⟩
  rw [(ends_pure.mp ended).1]
  exact ⟨id, before, after, more, partsEnded⟩

/-- The entries of a list are what its values take, with what they take for the name. -/
theorem map_taken {name : Type} {take : Option Identifier → Option name}
    {wrap : name → Option Identifier} {pairs : List (Option Identifier × Expression)}
    {entries : List (name × Expression)}
    (wraps : ∀ pendingName taken, take pendingName = some taken → wrap taken = pendingName)
    (taken : List.Forall₂ (fun pair entry => take pair.1 = some entry.1 ∧ pair.2 = entry.2) pairs
      entries) : entries.map (fun entry => (wrap entry.1, entry.2)) = pairs := by
  induction taken with
  | nil => rfl
  | cons head _ induction =>
      rw [List.map_cons, induction, wraps _ _ head.1, ← head.2]

theorem preservesArguments_iff {code : Text}
    (ended : (buildFunctionCallExpression (buildersWithin depth) parentId node code).Ends initial
      expression final errors) :
    PreservesArguments (buildersWithin depth) code node expression ↔
      Paired code (callParts node) := by
  rcases ends_buildNode ended with ⟨ownId, _, _, _, ended⟩
  rcases ends_bind.mp ended with ⟨function, _, _, _, _, ended, _⟩
  rcases ends_bind.mp ended with ⟨arguments, _, _, _, loop, ended, _⟩
  rcases ends_bind.mp ended with ⟨typeParameters, _, _, _, _, ended, _⟩
  rw [(ends_pure.mp ended).1]
  rcases ends_buildParts loop with ⟨built, more, same, built_from, isMore, taken⟩
  have entries := map_taken (fun _ _ taken => (Option.some.inj taken).symm) taken
  rw [List.map_id'] at entries
  rw [List.nil_append] at isMore
  have preserves := preserves_pairs_iff built_from
  rw [same, ← entries, ← isMore, ← getD_nonEmpty arguments] at preserves
  refine Iff.trans ?_ preserves
  constructor
  · rintro ⟨preserves⟩
    exact preserves
  · exact .call

theorem preservesFields_iff {code : Text}
    (ended : (buildStructExpression (buildersWithin depth) parentId node code).Ends initial
      expression final errors) :
    PreservesFields (buildersWithin depth) code node expression ↔
      Paired code (structParts node) := by
  rcases ends_buildNode ended with ⟨ownId, _, _, _, ended⟩
  rcases ends_bind.mp ended with ⟨name, _, _, _, _, ended, _⟩
  rcases ends_bind.mp ended with ⟨fields, _, _, _, loop, ended, _⟩
  rw [(ends_pure.mp ended).1]
  rcases ends_buildParts loop with ⟨built, more, same, built_from, isMore, taken⟩
  have entries := map_taken (fun _ _ taken => taken.symm) taken
  rw [List.nil_append] at isMore
  have preserves := preserves_pairs_iff built_from
  rw [same, ← entries, ← isMore, ← getD_nonEmpty fields] at preserves
  refine Iff.trans ?_ preserves
  constructor
  · rintro ⟨preserves⟩
    exact preserves
  · exact .struct_

/-- What is built of a call or a struct literal keeps the list that was written exactly if every name
is one with its value right behind it. Where the parts are built, a call keeps on building; a struct
literal does if every value has a name, which is the only way to write it. -/
theorem argumentLists_iff (depth parentId : Nat) (node : SyntaxNode) (code : Text)
    (initial : BuilderState) :
    (∀ expression final errors,
      (buildFunctionCallExpression (buildersWithin depth) parentId node code).Ends initial
          expression final errors →
        (PreservesArguments (buildersWithin depth) code node expression ↔
          Paired code (callParts node))) ∧
    (∀ expression final errors,
      (buildStructExpression (buildersWithin depth) parentId node code).Ends initial
          expression final errors →
        (PreservesFields (buildersWithin depth) code node expression ↔
          Paired code (structParts node))) ∧
    (∀ ownId, AllBuilt (buildersWithin depth) ownId code (callParts node) →
      ∃ arguments final errors, (buildParts (buildersWithin depth) "argument_name" "argument" some
        ownId code node.children none []).Ends initial arguments final errors) ∧
    (∀ ownId, AllBuilt (buildersWithin depth) ownId code (structParts node) →
      Paired code (structParts node) →
        ((∃ fields final errors, (buildParts (buildersWithin depth) "field" "value" id ownId code
            node.children none []).Ends initial fields final errors) ↔
          ∀ entry ∈ entriesFrom none (structParts node), entry.1.isSome)) := by
  refine ⟨?_, ?_, ?_, ?_⟩
  · intro expression final errors ended
    exact preservesArguments_iff ended
  · intro expression final errors ended
    exact preservesFields_iff ended
  · intro ownId allBuilt
    exact buildParts_returns (fun _ _ => True) (fun _ _ _ _ _ _ => trivial)
      (fun _ _ _ _ => ⟨rfl, trivial⟩) allBuilt trivial [] initial
  · intro ownId allBuilt paired
    exact buildParts_returns_iff allBuilt paired initial

/-! ## Lists of the grammar -/

/-- What the grammar makes of a list: a name is an identifier with its value right behind it, and
every field has a name. -/
structure FollowsGrammar (node : SyntaxNode) : Prop where
  argumentNames : ∀ part ∈ callParts node, part.isName → part.node.kind = "identifier"
  arguments : Followed (callParts node)
  fieldNames : ∀ part ∈ structParts node, part.isName → part.node.kind = "identifier"
  fields : Followed (structParts node)
  named : ∀ entry ∈ entriesFrom none (structParts node), entry.1.isSome

/-- The lists of calls and of struct literals are built as they are written, and they are built
whenever their parts are. -/
theorem argumentLists_preserved (depth parentId : Nat) (node : SyntaxNode) (code : Text)
    (initial : BuilderState) (grammar : FollowsGrammar node) :
    (∀ expression final errors,
      (buildFunctionCallExpression (buildersWithin depth) parentId node code).Ends initial
          expression final errors →
        PreservesArguments (buildersWithin depth) code node expression) ∧
    (∀ expression final errors,
      (buildStructExpression (buildersWithin depth) parentId node code).Ends initial
          expression final errors →
        PreservesFields (buildersWithin depth) code node expression) ∧
    (∀ ownId, AllBuilt (buildersWithin depth) ownId code (callParts node) →
      ∃ arguments final errors, (buildParts (buildersWithin depth) "argument_name" "argument" some
        ownId code node.children none []).Ends initial arguments final errors) ∧
    (∀ ownId, AllBuilt (buildersWithin depth) ownId code (structParts node) →
      ∃ fields final errors, (buildParts (buildersWithin depth) "field" "value" id ownId code
        node.children none []).Ends initial fields final errors) := by
  have isCall : Paired code (callParts node) :=
    ⟨fun child member => .inl (grammar.argumentNames (.name child) member rfl), grammar.arguments⟩
  have isStruct : Paired code (structParts node) :=
    ⟨fun child member => .inl (grammar.fieldNames (.name child) member rfl), grammar.fields⟩
  rcases argumentLists_iff depth parentId node code initial with ⟨calls, structs, walks, needsNames⟩
  refine ⟨?_, ?_, walks, ?_⟩
  · exact fun expression final errors ended => (calls expression final errors ended).mpr isCall
  · exact fun expression final errors ended => (structs expression final errors ended).mpr isStruct
  · exact fun ownId allBuilt => (needsNames ownId allBuilt isStruct).mpr grammar.named

/-- `f(a: 1, 2)` -/
def mixedCall : SyntaxNode where
  kind := "function_call_expression"
  startByte := 0
  endByte := 10
  children := [
    { kind := "identifier", field := some "function", startByte := 0, endByte := 1 },
    { kind := "(", isNamed := false, startByte := 1, endByte := 2 },
    { kind := "identifier", field := some "argument_name", startByte := 2, endByte := 3 },
    { kind := ":", isNamed := false, startByte := 3, endByte := 4 },
    { kind := "number_literal", field := some "argument", startByte := 5, endByte := 6 },
    { kind := ",", isNamed := false, startByte := 6, endByte := 7 },
    { kind := "number_literal", field := some "argument", startByte := 8, endByte := 9 },
    { kind := ")", isNamed := false, startByte := 9, endByte := 10 }]

def mixedCallText : Text :=
  ['f', '(', 'a', ':', ' ', '1', ',', ' ', '2', ')']

/-- `S { x: 1 }` -/
def namedStruct : SyntaxNode where
  kind := "struct_expression"
  startByte := 0
  endByte := 10
  children := [
    { kind := "identifier", field := some "name", startByte := 0, endByte := 1 },
    { kind := "\x7b", isNamed := false, startByte := 2, endByte := 3 },
    { kind := "identifier", field := some "field", startByte := 4, endByte := 5 },
    { kind := ":", isNamed := false, startByte := 5, endByte := 6 },
    { kind := "number_literal", field := some "value", startByte := 7, endByte := 8 },
    { kind := "\x7d", isNamed := false, startByte := 9, endByte := 10 }]

def namedStructText : Text :=
  ['S', ' ', '\x7b', ' ', 'x', ':', ' ', '1', ' ', '\x7d']

theorem mixedCall_followsGrammar : FollowsGrammar mixedCall where
  argumentNames := by decide
  arguments := ⟨⟨_, _, rfl⟩, trivial⟩
  fieldNames := by decide
  fields := trivial
  named := by decide

theorem namedStruct_followsGrammar : FollowsGrammar namedStruct where
  argumentNames := by decide
  arguments := trivial
  fieldNames := by decide
  fields := ⟨⟨_, _, rfl⟩, trivial⟩
  named := by decide

/-- A call with a named and a positional argument, and a struct literal. -/
theorem argumentLists_preserved_mixed :
    Parses mixedCallText mixedCall ∧
      (∃ expression final errors,
        (buildFunctionCallExpression (buildersWithin 1) 1 mixedCall mixedCallText).Ends
            { nextId := 2 } expression final errors ∧
          PreservesArguments (buildersWithin 1) mixedCallText mixedCall expression) ∧
    Parses namedStructText namedStruct ∧
      ∃ expression final errors,
        (buildStructExpression (buildersWithin 1) 1 namedStruct namedStructText).Ends
            { nextId := 2 } expression final errors ∧
          PreservesFields (buildersWithin 1) namedStructText namedStruct expression := by
  have call := argumentLists_preserved 1 1 mixedCall mixedCallText { nextId := 2 }
    mixedCall_followsGrammar
  have struct := argumentLists_preserved 1 1 namedStruct namedStructText { nextId := 2 }
    namedStruct_followsGrammar
  refine ⟨?_, ?_, ?_, ?_⟩
  · exact .of_leaves (by decide) (by decide) (by simp [mixedCall]) (by decide) (by decide)
  · exact ⟨_, _, _, rfl, call.1 _ _ _ rfl⟩
  · exact .of_leaves (by decide) (by decide) (by simp [namedStruct]) (by decide) (by decide)
  · exact ⟨_, _, _, rfl, struct.2.1 _ _ _ rfl⟩

end Inference.Ast
