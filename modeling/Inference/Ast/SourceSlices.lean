import Inference.Ast.BuilderGrowth

/-! # Sources of nodes

The source of a node is the part of the text of its file that its location names. The file is the
root over the node, which is found along the parents.
-/

namespace Inference.Ast

open Inference.Foundation Collecting Builder

namespace Arena

variable (arena : Arena)

/-- Where the way over the parents ends. Nothing is returned when it takes more steps. -/
def rootOf : (steps : Nat) → (current : Nat) → Option Nat
  | 0, _ => none
  | steps + 1, current =>
      match arena.parentMap current with
      | some parent => rootOf steps parent
      | none => some current

def findSourceFileForNode (steps : Nat) (id : Nat) : Option (Option Nat) :=
  match arena.nodes id with
  | none => some none
  | some (.sourceFile _) => some (some id)
  | some _ => do
      let root ← arena.rootOf steps id
      match arena.nodes root with
      | some (.sourceFile _) => some (some root)
      | _ => some none

def getNodeSource (steps : Nat) (id : Nat) : Option (Option Text) := do
  match ← arena.findSourceFileForNode steps id with
  | none => some none
  | some fileId =>
      match arena.nodes id, arena.nodes fileId with
      | some node, some (.sourceFile file) =>
          let start := node.location.offsetStart
          let stop := node.location.offsetEnd
          if start ≤ stop ∧ stop ≤ ByteText.size file.source then
            some (ByteText.slice file.source start stop)
          else some none
      | _, _ => some none

/-- With enough steps, the text is the source of the node. -/
def HasSource (id : Nat) (text : Text) : Prop :=
  ∃ enough, ∀ steps, enough ≤ steps → arena.getNodeSource steps id = some (some text)

end Arena

/-! ## Built arenas -/

/-- The stored node was built for a node of a tree. It is below the file of that tree, and what it
is stored below was built for a node around its own. -/
structure Traced (state : BuilderState) (root : SyntaxNode) (code : Text) (node : SyntaxNode)
    (fileId id : Nat) (stored : AstNode) : Prop where
  origin : state.origins id = some ⟨code, node⟩
  inRoot : node.In root
  location : stored.location = getLocation node
  file : ∃ file, state.arena.nodes fileId = some (.sourceFile file) ∧ file.source = code
  isRoot : state.arena.parentMap fileId = none
  leads : Relation.ReflTransGen (Steps state) id fileId
  ownFile : stored.isSourceFile = true → id = fileId
  parent : ∀ parent, state.arena.parentMap id = some parent → Holds state code node parent

structure Valid (sources : List (SyntaxNode × Text)) (state : BuilderState) : Prop where
  traced : ∀ id stored, state.arena.nodes id = some stored →
    ∃ root code node fileId, (root, code) ∈ sources ∧ Traced state root code node fileId id stored
  unstored : ∀ id, state.arena.nodes id = none → state.arena.parentMap id = none

variable {sources : List (SyntaxNode × Text)} {before after : BuilderState} {root : SyntaxNode}
  {code : Text}

theorem Traced.kept {node : SyntaxNode} {fileId id : Nat} {stored : AstNode}
    (traced : Traced before root code node fileId id stored) (keeps : Keeps before after)
    (found : before.arena.nodes id = some stored) :
    Traced after root code node fileId id stored := by
  rcases keeps id stored found with ⟨_, sameParent, sameOrigin⟩
  rcases traced.file with ⟨file, fileFound, isCode⟩
  rcases keeps fileId _ fileFound with ⟨sameFile, sameRoot, _⟩
  exact {
    origin := sameOrigin.trans traced.origin
    inRoot := traced.inRoot
    location := traced.location
    file := ⟨file, sameFile, isCode⟩
    isRoot := sameRoot.trans traced.isRoot
    leads := traced.leads.lift (fun point => point) fun _ _ step => keeps.steps step
    ownFile := traced.ownFile
    parent := fun parent isParent =>
      keeps.holds (traced.parent parent (sameParent.symm.trans isParent)) }

theorem builds_buildItems {builders : Builders} (sound : Sound builders) (ownId : Nat)
    {children : List SyntaxNode} (areChildren : ∀ child ∈ children, child ∈ root.children)
    (file : SourceFile) :
    Builds code root ownId (buildItems builders ownId code children file) := by
  induction children generalizing file with
  | nil => exact .pure file
  | cons child rest induction =>
      rcases List.forall_mem_cons.mp areChildren with ⟨isChild, restChildren⟩
      refine .bind (.ite (.bind ?_ fun _ => .pure _) (.bind ?_ fun _ => .pure _)) fun _ =>
        induction restChildren _
      · exact (builds_buildUseDirective ownId child code).child isChild
      · exact (sound.definition ownId child code).child isChild

/-- Building a file stores its root over what was built for the children. -/
theorem accepts_buildSourceFile {builders : Builders} (sound : Sound builders)
    (accepted : (buildSourceFile builders root code).Accepts before () after) :
    ∃ start middle file ownId, start.arena = before.arena ∧ start.origins = before.origins ∧
      Grows code root ownId start middle ∧ file.id = ownId ∧ file.location = getLocation root ∧
      file.source = code ∧ middle.arena.addNode (.sourceFile file) noId = some after.arena ∧
      after.origins = Function.update middle.origins ownId (some ⟨code, root⟩) := by
  rcases accepts_bind.mp accepted with ⟨ownId, start, counted, rest⟩
  rcases accepts_bind.mp rest with ⟨file, middle, built, stored⟩
  simp only [getNodeId, accepts_bind, accepts_read, accepts_update, accepts_pure] at counted
  rcases counted with ⟨_, _, ⟨rfl, rfl⟩, _, _, rfl, rfl, rfl⟩
  simp only [addNode, accepts_bind, accepts_read, accepts_expect, accepts_update] at stored
  rcases stored with ⟨_, _, ⟨rfl, rfl⟩, arena, _, ⟨added, rfl⟩, rfl⟩
  have grows := (builds_buildItems sound _ (fun _ isChild => isChild) _).grows built
    fun isLast => by rw [isLast]; rfl
  refine ⟨_, _, { id := _, location := getLocation root, source := code, file }, _, ?_, ?_, grows,
    rfl, rfl, rfl, added, rfl⟩
  · rfl
  · rfl

theorem Valid.buildSourceFile {builders : Builders} (sound : Sound builders)
    (valid : Valid sources before) (isSource : (root, code) ∈ sources)
    (accepted : (buildSourceFile builders root code).Accepts before () after) :
    Valid sources after := by
  rcases accepts_buildSourceFile sound accepted with ⟨start, middle, file, ownId, sameArena,
    sameOrigins, grows, rfl, location, isCode, added, origins⟩
  rcases keeps_store added origins with ⟨keeps, fileFound, ownOrigin, others⟩
  have ownFound : after.arena.nodes file.id = some (.sourceFile file) := fileFound
  have startKeeps : Keeps before after := by
    intro id stored found
    simpa only [sameArena, sameOrigins] using (grows.kept.trans keeps) id stored (sameArena ▸ found)
  have parents : after.arena.parentMap = middle.arena.parentMap := by
    rw [(addNode_eq_some added).2.2.2, if_pos rfl]
  have unstored : ∀ id, middle.arena.nodes id = none → middle.arena.parentMap id = none := by
    intro id missing
    rw [grows.unstored id missing, sameArena]
    exact valid.unstored id (sameArena ▸ grows.kept.unstored_before missing)
  have isRoot : after.arena.parentMap file.id = none := by
    rw [parents]
    exact unstored file.id (addNode_eq_some added).2.1
  constructor
  · intro id stored found
    cases inBefore : before.arena.nodes id with
    | some other =>
        rw [(startKeeps id other inBefore).1, Option.some.injEq] at found
        subst found
        rcases valid.traced id other inBefore with ⟨root, code, node, fileId, isOther, traced⟩
        exact ⟨root, code, node, fileId, isOther, traced.kept startKeeps inBefore⟩
    | none =>
        by_cases isOwn : id = file.id
        · subst isOwn
          rw [ownFound, Option.some.injEq] at found
          subst found
          refine ⟨root, code, root, file.id, isSource, ownOrigin, .refl root, location,
            ⟨file, ownFound, isCode⟩, isRoot, .refl, fun _ => rfl, ?_⟩
          intro parent isParent
          rw [isRoot] at isParent
          cases isParent
        · have inMiddle := (others id isOwn).1.symm.trans found
          rcases grows.added id stored (sameArena ▸ inBefore) inMiddle with ⟨node, isAdded⟩
          have isAdded := keeps.added inMiddle isAdded
          refine ⟨root, code, node, file.id, isSource, isAdded.origin, isAdded.inRoot,
            isAdded.location, ⟨file, ownFound, isCode⟩, isRoot, isAdded.leads.to_reflTransGen, ?_, ?_⟩
          · intro isFile
            rw [isAdded.noFile] at isFile
            cases isFile
          · intro parent isParent
            rcases isAdded.parent with ⟨other, step, holds⟩
            cases step.2.symm.trans isParent
            rcases holds with rfl | holds
            · exact ⟨ownFound ▸ rfl, root, ownOrigin, isAdded.inRoot⟩
            · exact holds
  · intro id missing
    have other : id ≠ file.id := by
      rintro rfl
      rw [ownFound] at missing
      cases missing
    rw [parents]
    exact unstored id ((others id other).1.symm.trans missing)

theorem valid_buildAst {depth : Nat} {rest : List (SyntaxNode × Text)}
    (areSources : ∀ source ∈ rest, source ∈ sources) (valid : Valid sources before)
    (accepted : buildAst depth rest before = some (.ok after)) : Valid sources after := by
  induction rest generalizing before with
  | nil =>
      cases accepted
      exact valid
  | cons source rest induction =>
      rcases source with ⟨root, code⟩
      rcases List.forall_mem_cons.mp areSources with ⟨isSource, restSources⟩
      rw [buildAst] at accepted
      split at accepted
      · cases accepted
      · rename_i next ended
        exact induction restSources
          (valid.buildSourceFile (sound_buildersWithin depth) isSource ended) accepted
      · cases accepted

theorem valid_initial (firstId : Nat) : Valid sources { nextId := firstId } where
  traced _ _ found := by cases found
  unstored _ _ := rfl

/-! ## Sources -/

theorem rootOf_of_leads {state : BuilderState} {id fileId : Nat}
    (leads : Relation.ReflTransGen (Steps state) id fileId)
    (isRoot : state.arena.parentMap fileId = none) :
    ∃ enough, ∀ steps, enough ≤ steps → state.arena.rootOf steps id = some fileId := by
  induction leads using Relation.ReflTransGen.head_induction_on with
  | refl =>
      refine ⟨1, fun steps enough => ?_⟩
      obtain ⟨more, rfl⟩ := Nat.exists_eq_add_of_le' enough
      rw [Arena.rootOf, isRoot]
  | @head id parent step _ induction =>
      rcases induction with ⟨enough, found⟩
      refine ⟨enough + 1, fun steps more => ?_⟩
      obtain ⟨rest, rfl⟩ := Nat.exists_eq_add_of_le' (Nat.le_of_add_left_le more)
      rw [Arena.rootOf, step.2]
      exact found rest (by omega)

theorem Traced.hasSource {state : BuilderState} {node : SyntaxNode} {fileId id : Nat}
    {stored : AstNode} {text : Text} (traced : Traced state root code node fileId id stored)
    (found : state.arena.nodes id = some stored) (parses : Parses code root)
    (short : ByteText.size code < 2 ^ 32) (isText : node.utf8Text code = some text) :
    state.arena.HasSource id text := by
  have ordered := parses.ordered_of_in traced.inRoot
  have covered := parses.endByte_le traced.inRoot
  rcases traced.file with ⟨file, fileFound, rfl⟩
  have start : stored.location.offsetStart = node.startByte := by
    rw [traced.location]
    exact Nat.mod_eq_of_lt (by omega)
  have stop : stored.location.offsetEnd = node.endByte := by
    rw [traced.location]
    exact Nat.mod_eq_of_lt (by omega)
  rcases rootOf_of_leads traced.leads traced.isRoot with ⟨enough, rooted⟩
  refine ⟨enough, fun steps more => ?_⟩
  have fileOf : state.arena.findSourceFileForNode steps id = some (some fileId) := by
    rw [Arena.findSourceFileForNode, found]
    cases stored with
    | sourceFile _ => exact congrArg (fun id => some (some id)) (traced.ownFile rfl)
    | _ => simp [rooted steps more, fileFound]
  rw [Arena.getNodeSource, fileOf]
  simp only [Option.bind_eq_bind, Option.bind_some, found, fileFound, start, stop]
  rw [if_pos ⟨ordered, covered⟩]
  exact congrArg some isText

/-- Every stored node was built for a node of one of the trees, and its source is the text of that
node. The node it is stored below was built for a node around it, whose text its own is a part of. -/
theorem sources_of_nodes {depth firstId : Nat} {final : BuilderState}
    (parses : ∀ source ∈ sources, Parses source.2 source.1 ∧ ByteText.size source.2 < 2 ^ 32)
    (accepted : buildAst depth sources { nextId := firstId } = some (.ok final)) (id : Nat)
    (stored : AstNode) (found : final.arena.nodes id = some stored) :
    ∃ root code node text, (root, code) ∈ sources ∧ final.origins id = some ⟨code, node⟩ ∧
      node.In root ∧ node.utf8Text code = some text ∧ final.arena.HasSource id text ∧
      ∀ parent, final.arena.parentMap id = some parent →
        ∃ around outer, final.origins parent = some ⟨code, around⟩ ∧
          around.utf8Text code = some outer ∧ final.arena.HasSource parent outer ∧
          around.startByte ≤ node.startByte ∧ node.endByte ≤ around.endByte ∧
          ByteText.slice outer (node.startByte - around.startByte)
            (node.endByte - around.startByte) = some text := by
  have valid := valid_buildAst (fun _ isSource => isSource) (valid_initial firstId) accepted
  rcases valid.traced id stored found with ⟨root, code, node, fileId, isSource, traced⟩
  rcases parses (root, code) isSource with ⟨rootParses, short⟩
  rcases rootParses.exists_utf8Text traced.inRoot with ⟨text, isText⟩
  refine ⟨root, code, node, text, isSource, traced.origin, traced.inRoot, isText,
    traced.hasSource found rootParses short isText, fun parent isParent => ?_⟩
  rcases traced.parent parent isParent with ⟨isStored, around, origin, inAround⟩
  rcases Option.isSome_iff_exists.mp isStored with ⟨above, aboveFound⟩
  rcases valid.traced parent above aboveFound with
    ⟨aboveRoot, aboveCode, aboveNode, aboveFile, isAboveSource, aboveTraced⟩
  cases aboveTraced.origin.symm.trans origin
  rcases parses (aboveRoot, code) isAboveSource with ⟨aboveParses, _⟩
  rcases aboveParses.exists_utf8Text aboveTraced.inRoot with ⟨outer, isOuter⟩
  have nested := aboveParses.within aboveTraced.inRoot inAround
    (aboveParses.ordered_of_in aboveTraced.inRoot)
  exact ⟨around, outer, origin, isOuter, aboveTraced.hasSource aboveFound aboveParses short isOuter,
    nested.1, nested.2.2, aboveParses.utf8Text_slice aboveTraced.inRoot inAround isText isOuter⟩

/-- `use a;` -/
private def useFile : SyntaxNode where
  kind := "source_file"
  startByte := 0
  endByte := 6
  children := [{
    kind := "use_directive"
    startByte := 0
    endByte := 6
    children := [
      { kind := "use", isNamed := false, startByte := 0, endByte := 3 },
      { kind := "identifier", field := some "segment", startByte := 4, endByte := 5 },
      { kind := ";", isNamed := false, startByte := 5, endByte := 6 }] }]

private def useText : Text :=
  ['u', 's', 'e', ' ', 'a', ';']

private theorem parses_use : ∀ source ∈ [(useFile, useText)],
    Parses source.2 source.1 ∧ ByteText.size source.2 < 2 ^ 32 := by
  simp only [List.forall_mem_singleton]
  refine ⟨.of_children (by decide) (by decide) ?_ ?_, by decide⟩
  · exact ⟨ByteText.edge_iff.mpr (by decide), ByteText.edge_iff.mpr (by decide)⟩
  · intro directive isDirective
    cases List.mem_singleton.mp isDirective
    refine ⟨.of_leaves (by decide) (by decide) ?_ (by decide) (by decide), by decide, by decide⟩
    simp

/-- The segment of the directive, stored first. -/
theorem sources_of_nodes_segment : ∃ final,
    buildAst 1 [(useFile, useText)] { nextId := 1 } = some (.ok final) ∧
      final.arena.HasSource 3 ['a'] := by
  have built : ∃ final, buildAst 1 [(useFile, useText)] { nextId := 1 } = some (.ok final) ∧
      (∃ stored, final.arena.nodes 3 = some stored) ∧ ∃ origin, final.origins 3 = some origin ∧
        origin.node.utf8Text origin.code = some ['a'] := ⟨_, rfl, ⟨_, rfl⟩, _, rfl, rfl⟩
  rcases built with ⟨final, accepted, ⟨stored, found⟩, origin, isOrigin, isSegment⟩
  rcases sources_of_nodes parses_use accepted 3 stored found with
    ⟨root, code, node, text, _, sameOrigin, _, isText, hasSource, _⟩
  cases isOrigin.symm.trans sameOrigin
  cases isSegment.symm.trans isText
  exact ⟨final, accepted, hasSource⟩

end Inference.Ast
