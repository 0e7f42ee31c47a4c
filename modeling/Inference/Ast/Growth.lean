import Inference.Ast.Builder

/-! # What builders add to the arena

A builder that is given a node and the id of a parent adds nodes that were built for the tree of the
node. Each of them is below the parent, and below the node of the tree that its own parent was built
for. Everything stored before stays as it was. The rules follow the text of the builders.

The id behind the last one is zero, which no node can be stored under. So nothing can be added right
after it, and nothing is ever added below a parent with the id that stands for no parent.
-/

namespace Inference.Ast

open Inference.Foundation Collecting

def AstNode.isSourceFile : AstNode → Bool
  | .sourceFile _ => true
  | _ => false

namespace Builder

/-- A stored node and its parent. -/
def Steps (state : BuilderState) (id parent : Nat) : Prop :=
  (state.arena.nodes id).isSome ∧ state.arena.parentMap id = some parent

/-- The parent is stored and was built for a node of the same text that the node is in. -/
def Holds (state : BuilderState) (code : Text) (node : SyntaxNode) (parent : Nat) : Prop :=
  (state.arena.nodes parent).isSome ∧
    ∃ around, state.origins parent = some ⟨code, around⟩ ∧ node.In around

/-- A node that was added below `top` for a node of the tree of `root`. -/
structure Added (code : Text) (root : SyntaxNode) (top : Nat) (state : BuilderState) (id : Nat)
    (stored : AstNode) (node : SyntaxNode) : Prop where
  origin : state.origins id = some ⟨code, node⟩
  inRoot : node.In root
  location : stored.location = getLocation node
  noFile : stored.isSourceFile = false
  parent : ∃ parent, Steps state id parent ∧ (parent = top ∨ Holds state code node parent)
  leads : Relation.TransGen (Steps state) id top

/-- What was stored is still stored, as it was. -/
def Keeps (before after : BuilderState) : Prop :=
  ∀ id stored, before.arena.nodes id = some stored →
    after.arena.nodes id = some stored ∧ after.arena.parentMap id = before.arena.parentMap id ∧
      after.origins id = before.origins id

structure Grows (code : Text) (root : SyntaxNode) (top : Nat) (before after : BuilderState) :
    Prop where
  kept : Keeps before after
  unstored : ∀ id, after.arena.nodes id = none →
    after.arena.parentMap id = before.arena.parentMap id
  added : ∀ id stored, before.arena.nodes id = none → after.arena.nodes id = some stored →
    ∃ node, Added code root top after id stored node

variable {code : Text} {root node : SyntaxNode} {top id : Nat} {stored : AstNode}
  {before middle after : BuilderState}

namespace Keeps

theorem trans (first : Keeps before middle) (second : Keeps middle after) : Keeps before after := by
  intro id stored found
  rcases first id stored found with ⟨inMiddle, parent, origin⟩
  rcases second id stored inMiddle with ⟨inAfter, sameParent, sameOrigin⟩
  exact ⟨inAfter, sameParent.trans parent, sameOrigin.trans origin⟩

theorem unstored_before (keeps : Keeps before after) (missing : after.arena.nodes id = none) :
    before.arena.nodes id = none := by
  cases found : before.arena.nodes id with
  | none => rfl
  | some stored =>
      rw [(keeps id stored found).1] at missing
      cases missing

theorem steps (keeps : Keeps before after) {parent : Nat} (step : Steps before id parent) :
    Steps after id parent := by
  rcases Option.isSome_iff_exists.mp step.1 with ⟨stored, found⟩
  rcases keeps id stored found with ⟨same, sameParent, _⟩
  exact ⟨same ▸ rfl, sameParent.trans step.2⟩

theorem holds (keeps : Keeps before after) {parent : Nat} (holds : Holds before code node parent) :
    Holds after code node parent := by
  rcases holds with ⟨isStored, around, origin, inAround⟩
  rcases Option.isSome_iff_exists.mp isStored with ⟨stored, found⟩
  rcases keeps parent stored found with ⟨same, _, sameOrigin⟩
  exact ⟨same ▸ rfl, around, sameOrigin.trans origin, inAround⟩

theorem added (keeps : Keeps before after) (found : before.arena.nodes id = some stored)
    (isAdded : Added code root top before id stored node) :
    Added code root top after id stored node where
  origin := (keeps id stored found).2.2.trans isAdded.origin
  inRoot := isAdded.inRoot
  location := isAdded.location
  noFile := isAdded.noFile
  parent := by
    rcases isAdded.parent with ⟨parent, step, isTop | holds⟩
    · exact ⟨parent, keeps.steps step, .inl isTop⟩
    · exact ⟨parent, keeps.steps step, .inr (keeps.holds holds)⟩
  leads := isAdded.leads.lift (fun point => point) fun _ _ step => keeps.steps step

end Keeps

namespace Grows

theorem refl (code : Text) (root : SyntaxNode) (top : Nat) (state : BuilderState) :
    Grows code root top state state where
  kept _ _ found := ⟨found, rfl, rfl⟩
  unstored _ _ := rfl
  added id stored missing found := by
    rw [missing] at found
    cases found

theorem trans (first : Grows code root top before middle) (second : Grows code root top middle after) :
    Grows code root top before after where
  kept := first.kept.trans second.kept
  unstored id missing := by
    rw [second.unstored id missing, first.unstored id (second.kept.unstored_before missing)]
  added id stored missing found := by
    cases inMiddle : middle.arena.nodes id with
    | none => exact second.added id stored inMiddle found
    | some other =>
        rcases first.added id other missing inMiddle with ⟨node, isAdded⟩
        rw [(second.kept id other inMiddle).1, Option.some.injEq] at found
        exact ⟨node, found ▸ second.kept.added inMiddle isAdded⟩

/-- What was built for a tree was built for every tree around it. -/
theorem within {inner : SyntaxNode} (grows : Grows code inner top before after)
    (innerIn : inner.In root) : Grows code root top before after where
  kept := grows.kept
  unstored := grows.unstored
  added id stored missing found := by
    rcases grows.added id stored missing found with ⟨node, isAdded⟩
    exact ⟨node, { isAdded with inRoot := isAdded.inRoot.trans innerIn }⟩

end Grows

/-! ## Storing a node -/

theorem addNode_eq_some {arena added : Arena} {stored : AstNode} {parentId : Nat}
    (found : arena.addNode stored parentId = some added) :
    stored.id ≠ 0 ∧ arena.nodes stored.id = none ∧
      added.nodes = Function.update arena.nodes stored.id (some stored) ∧
      added.parentMap = if parentId = noId then arena.parentMap
        else Function.update arena.parentMap stored.id (some parentId) := by
  rw [Arena.addNode] at found
  split at found
  · cases found
  · rename_i nonzero
    split at found
    · cases found
    · rename_i unused
      have missing : arena.nodes stored.id = none := by simpa using unused
      split at found
      · rename_i isRoot
        cases found
        exact ⟨nonzero, missing, rfl, (if_pos isRoot).symm⟩
      · rename_i isInner
        cases found
        exact ⟨nonzero, missing, rfl, (if_neg isInner).symm⟩

/-- Storing a node keeps all others. -/
theorem keeps_store {parentId : Nat} {origin : Origin}
    (added : middle.arena.addNode stored parentId = some after.arena)
    (origins : after.origins = Function.update middle.origins stored.id (some origin)) :
    Keeps middle after ∧ after.arena.nodes stored.id = some stored ∧
      after.origins stored.id = some origin ∧
      ∀ id, id ≠ stored.id → after.arena.nodes id = middle.arena.nodes id ∧
        after.arena.parentMap id = middle.arena.parentMap id := by
  rcases addNode_eq_some added with ⟨_, unused, nodes, parents⟩
  have others : ∀ id, id ≠ stored.id → after.arena.nodes id = middle.arena.nodes id ∧
      after.arena.parentMap id = middle.arena.parentMap id := by
    intro id other
    rw [nodes, parents]
    split <;> simp [other]
  refine ⟨?_, by rw [nodes]; simp, by rw [origins]; simp, others⟩
  intro id found inMiddle
  have other : id ≠ stored.id := by
    rintro rfl
    rw [unused] at inMiddle
    cases inMiddle
  rcases others id other with ⟨same, sameParent⟩
  exact ⟨same.trans inMiddle, sameParent, by rw [origins]; simp [other]⟩

/-- A node is stored for the root of a tree, below whose id the rest of the tree was added. -/
theorem Grows.store {parentId : Nat} (grows : Grows code root stored.id before middle)
    (location : stored.location = getLocation root) (noFile : stored.isSourceFile = false)
    (inner : parentId ≠ noId) (added : middle.arena.addNode stored parentId = some after.arena)
    (origins : after.origins = Function.update middle.origins stored.id (some ⟨code, root⟩)) :
    Grows code root parentId before after := by
  rcases keeps_store added origins with ⟨keeps, ownFound, ownOrigin, others⟩
  have ownStep : Steps after stored.id parentId := by
    refine ⟨ownFound ▸ rfl, ?_⟩
    rw [(addNode_eq_some added).2.2.2, if_neg inner]
    simp
  refine ⟨grows.kept.trans keeps, ?_, ?_⟩
  · intro id missing
    have other : id ≠ stored.id := by
      rintro rfl
      rw [ownFound] at missing
      cases missing
    rcases others id other with ⟨same, sameParent⟩
    exact sameParent.trans (grows.unstored id (same.symm.trans missing))
  · intro id found missing inAfter
    by_cases isOwn : id = stored.id
    · subst isOwn
      rw [ownFound, Option.some.injEq] at inAfter
      subst inAfter
      exact ⟨root, ownOrigin, .refl root, location, noFile, ⟨parentId, ownStep, .inl rfl⟩,
        .single ownStep⟩
    · have inMiddle := (others id isOwn).1.symm.trans inAfter
      rcases grows.added id found missing inMiddle with ⟨node, isAdded⟩
      have isAdded := keeps.added inMiddle isAdded
      refine ⟨node, { isAdded with
        parent := ?_
        leads := isAdded.leads.tail ownStep }⟩
      rcases isAdded.parent with ⟨parent, step, rfl | holds⟩
      · exact ⟨stored.id, step, .inr ⟨ownFound ▸ rfl, root, ownOrigin, isAdded.inRoot⟩⟩
      · exact ⟨parent, step, .inr holds⟩

/-! ## Builders -/

variable {result other : Type}

/-- The builder adds to the arena for the tree, below the parent. Where the next id is zero, it adds
nothing. -/
structure Builds (code : Text) (root : SyntaxNode) (parentId : Nat) (computation : Building result) :
    Prop where
  grows : ∀ {before value after}, computation.Accepts before value after →
    (parentId = noId → before.nextId = 0) → Grows code root parentId before after
  quiet : ∀ {before value after}, computation.Accepts before value after → before.nextId = 0 →
    after = before

namespace Builds

theorem pure (value : result) : Builds code root top (pure value : Building result) where
  grows accepted _ := by
    rw [(accepts_pure.mp accepted).2]
    exact .refl code root top _
  quiet accepted _ := (accepts_pure.mp accepted).2

theorem abort : Builds code root top (abort : Building result) where
  grows accepted _ := (accepts_abort.mp accepted).elim
  quiet accepted _ := (accepts_abort.mp accepted).elim

theorem bind {first : Building other} {next : other → Building result}
    (firstBuilds : Builds code root top first) (builds : ∀ value, Builds code root top (next value)) :
    Builds code root top (first >>= next) where
  grows accepted below := by
    rcases accepts_bind.mp accepted with ⟨value, middle, firstAccepted, rest⟩
    refine (firstBuilds.grows firstAccepted below).trans ((builds value).grows rest ?_)
    intro isRoot
    rw [firstBuilds.quiet firstAccepted (below isRoot)]
    exact below isRoot
  quiet accepted isLast := by
    rcases accepts_bind.mp accepted with ⟨value, middle, firstAccepted, rest⟩
    have same := firstBuilds.quiet firstAccepted isLast
    subst same
    exact (builds value).quiet rest isLast

/-- A value that may be missing; the rest is built for the value that is there. -/
theorem expect_bind {value : Option other} {next : other → Building result}
    (builds : ∀ known, value = some known → Builds code root top (next known)) :
    Builds code root top (expect value >>= next) where
  grows accepted below := by
    rcases accepts_bind.mp accepted with ⟨known, middle, found, rest⟩
    rcases accepts_expect.mp found with ⟨isKnown, rfl⟩
    exact (builds known isKnown).grows rest below
  quiet accepted isLast := by
    rcases accepts_bind.mp accepted with ⟨known, middle, found, rest⟩
    rcases accepts_expect.mp found with ⟨isKnown, rfl⟩
    exact (builds known isKnown).quiet rest isLast

/-- What reports an error is not accepted. -/
theorem report_bind {problem : String} {next : Unit → Building result} :
    Builds code root top (report problem >>= next) where
  grows accepted _ := by
    rcases accepts_bind.mp accepted with ⟨_, _, reported, _⟩
    exact (accepts_report.mp reported).elim
  quiet accepted _ := by
    rcases accepts_bind.mp accepted with ⟨_, _, reported, _⟩
    exact (accepts_report.mp reported).elim

theorem reportAt_bind {problem : String} {next : Unit → Building result} :
    Builds code root top (reportAt problem node >>= next) :=
  report_bind

theorem within {inner : SyntaxNode} {computation : Building result}
    (builds : Builds code inner top computation) (innerIn : inner.In root) :
    Builds code root top computation where
  grows accepted below := (builds.grows accepted below).within innerIn
  quiet := builds.quiet

theorem child {inner : SyntaxNode} {computation : Building result}
    (builds : Builds code inner top computation) (isChild : inner ∈ root.children) :
    Builds code root top computation :=
  builds.within (.of_mem isChild)

theorem ite {decided : Prop} [Decidable decided] {first second : Building result}
    (firstBuilds : Builds code root top first) (secondBuilds : Builds code root top second) :
    Builds code root top (if decided then first else second) := by
  split
  · exact firstBuilds
  · exact secondBuilds

theorem mapM' {item : Type} {build : item → Building result} {items : List item}
    (builds : ∀ element ∈ items, Builds code root top (build element)) :
    Builds code root top (items.mapM' build) := by
  induction items with
  | nil => exact .pure []
  | cons head rest induction =>
      rcases List.forall_mem_cons.mp builds with ⟨headBuilds, restBuild⟩
      exact .bind headBuilds fun _ => .bind (induction restBuild) fun _ => .pure _

/-! Builders for the children of a node -/

theorem field {field : String} {build : SyntaxNode → Building result}
    (builds : ∀ child, Builds code child top (build child)) :
    Builds code root top (buildField root field build) :=
  .expect_bind fun child found => (builds child).child (SyntaxNode.childByFieldName_mem found)

theorem optional {field : String} {build : SyntaxNode → Building result}
    (builds : ∀ child, Builds code child top (build child)) :
    Builds code root top (buildOptional root field build) := by
  unfold buildOptional
  split
  · rename_i child found
    exact .bind ((builds child).child (SyntaxNode.childByFieldName_mem found)) fun _ => .pure _
  · exact .pure none

theorem fields {field : String} {build : SyntaxNode → Building result}
    (builds : ∀ child, Builds code child top (build child)) :
    Builds code root top (buildFields root field build) :=
  .mapM' fun child isChild => (builds child).child (SyntaxNode.mem_childrenByFieldName isChild)

end Builds

theorem accepts_collectErrors {value : Unit}
    (accepted : (collectErrors node code).Accepts before value after) : after = before := by
  refine accepts_forM_keeps (· = before) ?_ accepted rfl
  intro element initial final value reported same
  rcases accepts_bind.mp reported with ⟨_, _, _, reported⟩
  exact (accepts_report.mp reported).elim

theorem builds_collectErrors : Builds code root top (collectErrors node code) where
  grows accepted _ := by
    rw [accepts_collectErrors accepted]
    exact .refl code root top _
  quiet accepted _ := accepts_collectErrors accepted

/-! ## Builders of one node -/

/-- What is built below an own id before the node is stored: it adds to the arena, and the value
meets the condition. -/
structure Fills (code : Text) (root : SyntaxNode) (ownId : Nat) (condition : result → Prop)
    (computation : Building result) : Prop where
  grows : ∀ {before value after}, computation.Accepts before value after →
    (ownId = noId → before.nextId = 0) → Grows code root ownId before after
  value : ∀ {before value after}, computation.Accepts before value after → condition value

namespace Fills

variable {condition : result → Prop} {ownId : Nat}

theorem pure {value : result} (holds : condition value) :
    Fills code root ownId condition (pure value : Building result) where
  grows := (Builds.pure value).grows
  value accepted := (accepts_pure.mp accepted).1 ▸ holds

theorem bind {first : Building other} {next : other → Building result}
    (builds : Builds code root ownId first)
    (fills : ∀ value, Fills code root ownId condition (next value)) :
    Fills code root ownId condition (first >>= next) where
  grows accepted below := by
    rcases accepts_bind.mp accepted with ⟨value, middle, firstAccepted, rest⟩
    refine (builds.grows firstAccepted below).trans ((fills value).grows rest ?_)
    intro isRoot
    rw [builds.quiet firstAccepted (below isRoot)]
    exact below isRoot
  value accepted := by
    rcases accepts_bind.mp accepted with ⟨value, middle, _, rest⟩
    exact (fills value).value rest

theorem expect_bind {value : Option other} {next : other → Building result}
    (fills : ∀ known, value = some known → Fills code root ownId condition (next known)) :
    Fills code root ownId condition (expect value >>= next) where
  grows accepted below := by
    rcases accepts_bind.mp accepted with ⟨known, middle, found, rest⟩
    rcases accepts_expect.mp found with ⟨isKnown, rfl⟩
    exact (fills known isKnown).grows rest below
  value accepted := by
    rcases accepts_bind.mp accepted with ⟨known, middle, found, rest⟩
    exact (fills known (accepts_expect.mp found).1).value rest

theorem reportAt_bind {problem : String} {next : Unit → Building result} :
    Fills code root ownId condition (reportAt problem node >>= next) where
  grows := Builds.reportAt_bind.grows
  value accepted := by
    rcases accepts_bind.mp accepted with ⟨_, _, reported, _⟩
    exact (accepts_report.mp reported).elim

/-- A literal that is not stored takes an id only. -/
theorem implicitUnit_bind {next : Literal → result} (holds : ∀ literal, condition (next literal)) :
    Fills code root ownId condition (implicitUnit node >>= fun literal => Pure.pure (next literal)) where
  grows accepted _ := by
    rcases accepts_bind.mp accepted with ⟨literal, middle, taken, rest⟩
    rcases accepts_bind.mp taken with ⟨id, _, counted, returned⟩
    simp only [getNodeId, accepts_bind, accepts_read, accepts_update, accepts_pure] at counted
    rcases counted with ⟨_, _, ⟨_, rfl⟩, _, _, rfl, _, rfl⟩
    rw [(accepts_pure.mp rest).2, (accepts_pure.mp returned).2]
    exact ⟨fun _ _ found => ⟨found, rfl, rfl⟩, fun _ _ => rfl, fun _ _ missing found => by
      rw [missing] at found
      cases found⟩
  value accepted := by
    rcases accepts_bind.mp accepted with ⟨literal, middle, _, rest⟩
    rw [(accepts_pure.mp rest).1]
    exact holds literal

end Fills

/-- The stored node is the one with the id, for the root of the tree. -/
structure IsOwn (root : SyntaxNode) (ownId : Nat) (stored : AstNode) : Prop where
  id : stored.id = ownId
  location : stored.location = getLocation root
  noFile : stored.isSourceFile = false

/-- What fills the own id and then stores the node below the parent. -/
structure Stores (code : Text) (root : SyntaxNode) (parentId ownId : Nat)
    (computation : Building result) : Prop where
  stores : ∀ {before value after}, computation.Accepts before value after →
    (ownId = noId → before.nextId = 0) →
      ∃ middle stored, Grows code root ownId before middle ∧ IsOwn root ownId stored ∧
        middle.arena.addNode stored parentId = some after.arena ∧
        after.origins = Function.update middle.origins ownId (some ⟨code, root⟩)

namespace Stores

variable {parentId ownId : Nat}

theorem bind {first : Building other} {next : other → Building result}
    (builds : Builds code root ownId first)
    (stores : ∀ value, Stores code root parentId ownId (next value)) :
    Stores code root parentId ownId (first >>= next) := by
  refine ⟨fun accepted below => ?_⟩
  rcases accepts_bind.mp accepted with ⟨value, middle, firstAccepted, rest⟩
  have same : ownId = noId → middle.nextId = 0 := by
    intro isRoot
    rw [builds.quiet firstAccepted (below isRoot)]
    exact below isRoot
  rcases (stores value).stores rest same with ⟨last, stored, grows, isOwn, added, origins⟩
  exact ⟨last, stored, (builds.grows firstAccepted below).trans grows, isOwn, added, origins⟩

theorem reportAt_bind {problem : String} {next : Unit → Building result} :
    Stores code root parentId ownId (reportAt problem node >>= next) := by
  refine ⟨fun accepted _ => ?_⟩
  rcases accepts_bind.mp accepted with ⟨_, _, reported, _⟩
  exact (accepts_report.mp reported).elim

/-- The node is stored for the value that was built. -/
theorem fill {parts : Building other} {stored : other → AstNode} {finish : other → result}
    (fills : Fills code root ownId (fun value => IsOwn root ownId (stored value)) parts) :
    Stores code root parentId ownId (parts >>= fun value =>
      addNode (stored value) parentId ⟨code, root⟩ >>= fun _ => Pure.pure (finish value)) := by
  refine ⟨fun {before value after} accepted below => ?_⟩
  rcases accepts_bind.mp accepted with ⟨value, middle, filled, rest⟩
  rcases accepts_bind.mp rest with ⟨_, last, storedThere, returned⟩
  simp only [addNode, accepts_bind, accepts_read, accepts_expect, accepts_update] at storedThere
  rcases storedThere with ⟨_, _, ⟨rfl, rfl⟩, arena, _, ⟨added, rfl⟩, rfl⟩
  have isOwn := fills.value filled
  rw [(accepts_pure.mp returned).2]
  exact ⟨_, stored value, fills.grows filled below, isOwn, added, isOwn.id ▸ rfl⟩

/-- The node is stored at once. -/
theorem add {stored : AstNode} {value : result} (isOwn : IsOwn root ownId stored) :
    Stores code root parentId ownId (addNode stored parentId ⟨code, root⟩ >>= fun _ =>
      (Pure.pure value : Building result)) := by
  refine ⟨fun {before value after} accepted _ => ?_⟩
  rcases accepts_bind.mp accepted with ⟨_, last, storedThere, returned⟩
  simp only [addNode, accepts_bind, accepts_read, accepts_expect, accepts_update] at storedThere
  rcases storedThere with ⟨_, _, ⟨rfl, rfl⟩, arena, _, ⟨added, rfl⟩, rfl⟩
  rw [(accepts_pure.mp returned).2]
  exact ⟨_, stored, .refl code root ownId _, isOwn, added, isOwn.id ▸ rfl⟩

end Stores

/-- A builder that takes an id and stores its node under it. -/
theorem builds_own {parentId : Nat} {rest : Nat → Building result}
    (stores : ∀ ownId, Stores code root parentId ownId (rest ownId)) :
    Builds code root parentId (getNodeId >>= rest) := by
  have ends : ∀ {before value after}, (getNodeId >>= rest).Accepts before value after →
      ∃ start middle stored, start.arena = before.arena ∧ start.origins = before.origins ∧
        Grows code root before.nextId start middle ∧ IsOwn root before.nextId stored ∧
        middle.arena.addNode stored parentId = some after.arena ∧
        after.origins = Function.update middle.origins before.nextId (some ⟨code, root⟩) := by
    intro before value after accepted
    rcases accepts_bind.mp accepted with ⟨ownId, start, counted, restAccepted⟩
    simp only [getNodeId, accepts_bind, accepts_read, accepts_update, accepts_pure] at counted
    rcases counted with ⟨_, _, ⟨rfl, rfl⟩, _, _, rfl, rfl, rfl⟩
    rcases (stores _).stores restAccepted (fun isLast => by rw [isLast]; rfl) with
      ⟨middle, stored, grows, isOwn, added, origins⟩
    refine ⟨_, middle, stored, ?_, ?_, grows, isOwn, added, origins⟩
    · rfl
    · rfl
  constructor
  · intro before value after accepted below
    rcases ends accepted with ⟨start, middle, stored, sameArena, sameOrigins, grows, isOwn, added,
      origins⟩
    have inner : parentId ≠ noId := by
      intro isRoot
      exact (addNode_eq_some added).1 (isOwn.id.trans (below isRoot))
    rw [← isOwn.id] at grows origins
    have stored := grows.store isOwn.location isOwn.noFile inner added origins
    exact ⟨fun id found inBefore => by
        simpa only [sameArena, sameOrigins] using stored.kept id found (sameArena ▸ inBefore),
      fun id missing => by simpa only [sameArena] using stored.unstored id missing,
      fun id found missing => stored.added id found (sameArena ▸ missing)⟩
  · intro before value after accepted isLast
    rcases ends accepted with ⟨_, _, _, _, _, _, isOwn, added, _⟩
    exact absurd (isOwn.id.trans isLast) (addNode_eq_some added).1

theorem builds_buildNode {parentId : Nat} {stored : result → AstNode}
    {parts : Node → Building result}
    (fills : ∀ own : Node, own.location = getLocation root →
      Fills code root own.id (fun value => IsOwn root own.id (stored value)) (parts own)) :
    Builds code root parentId (buildNode stored parentId root code parts) :=
  .bind builds_collectErrors fun _ => builds_own fun ownId =>
    .fill (fills { id := ownId, location := getLocation root } rfl)

end Builder

end Inference.Ast
