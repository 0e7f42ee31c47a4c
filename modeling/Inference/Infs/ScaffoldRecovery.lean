import Inference.Foundation.FileKeeping
import Inference.Infs.Scaffold

/-! # What a failed scaffolding leaves

No file is changed as long as existence is answered as it is and the project's directory is new. A
failure behind the point where the directory, or the manifest, has come to be is not recovered from:
the next attempt finds it and refuses. Where nothing fails behind that point, a failed attempt can
be made again.
-/

namespace Inference.Infs

open Effects FileSystem

variable {cwd : Location OsName} {tree tree' : Tree OsName FileContent}

section Statements

variable (cwd)

/-- What `exists` answers when nothing hinders it. -/
def Stands (tree : Tree OsName FileContent) (path : Path OsName) : Prop :=
  (metadata cwd tree true path).isOk = true

def AllStand (paths : List (Path OsName)) (tree : Tree OsName FileContent) : Prop :=
  ∀ path ∈ paths, Stands cwd tree path

/-- No file is changed or removed wherever the call is stopped. A call that fails where its target
is missing can be made again: when its steps would now succeed, so does the call, unless the target
has been made by someone else, and all files are there. -/
structure Recovers {α : Type}
    (looking failing : Semantics (Request OsName FileContent) Answer (Tree OsName FileContent))
    (target : Path OsName) (files : Tree OsName FileContent → List (Path OsName))
    (call retry steps : Scaffolding α) (tree : Tree OsName FileContent) : Prop where
  kept : ∀ rest tree', Steps looking call.run tree rest tree' → tree.Keeps tree'
  retried : ∀ error tree', Steps failing call.run tree (.done (.error error)) tree' →
    ¬ Stands cwd tree target →
    ∀ later, (Stands cwd later target → Stands cwd tree' target) →
      ∀ value final, Runs cwd later steps.run (.ok value) final →
        Runs cwd later retry.run (.ok value) final ∧
          AllStand cwd (files final) final

end Statements

/-- The files of a new project. -/
def createdFiles (projectPath : Path OsName) (initGit : Bool) : List (Path OsName) :=
  [manifestPath projectPath, mainPath projectPath, testsDir projectPath, proofsDir projectPath] ++
    if initGit then
      [gitkeep (testsDir projectPath), gitkeep (proofsDir projectPath), gitignorePath projectPath]
    else []

/-- The files of a directory that has been set up, with those for git where there is `.git`. -/
def initializedFiles (cwd : Location OsName) (projectPath : Path OsName)
    (createSrc : Bool) (tree : Tree OsName FileContent) : List (Path OsName) :=
  manifestPath projectPath :: (if createSrc then [mainPath projectPath] else []) ++
    if (metadata cwd tree true (gitDir projectPath)).isOk then
      [gitkeep (testsDir projectPath), gitkeep (proofsDir projectPath), gitignorePath projectPath]
    else []

/-! ## Single steps -/

theorem stands_of_metadata {path : Path OsName} {kind : Kind}
    (found : metadata cwd tree true path = .ok kind) :
    Stands cwd tree path := by
  rw [Stands, found]
  rfl

theorem Stands.extends {path : Path OsName} (stands : Stands cwd tree path)
    (extends_ : tree.Extends tree') : Stands cwd tree' path := by
  rw [Stands] at stands
  cases found : metadata cwd tree true path with
  | ok kind => exact stands_of_metadata (metadata_extends extends_ found)
  | error cause =>
      rw [found] at stands
      cases stands

section Steps

variable {semantics : Semantics (Request OsName FileContent) Answer (Tree OsName FileContent)}
  {guarantee : Tree OsName FileContent → Tree OsName FileContent → Prop}
  {pre failed : Tree OsName FileContent → Prop} {α : Type}
  {post : α → Tree OsName FileContent → Prop} {message : String} {shown : Option (Path OsName)}
  {path : Path OsName} {content : List Char}

theorem guaranteed_scaffoldContext {asked : Asking (Except ErrorKind α)}
    (holds : Guaranteed semantics guarantee asked tree (Ends post failed)) :
    Guaranteed semantics guarantee (Scaffolding.withContext message shown asked).run tree
      (Ends post failed) := by
  refine guaranteed_bind.mpr (holds.weaken ?_)
  intro answer tree' ended
  cases answer with
  | ok value => exact ended
  | error cause => exact ended

theorem triple_scaffoldContext {asked : Asking (Except ErrorKind α)}
    (holds : ∀ tree, pre tree → Guaranteed semantics guarantee asked tree (Ends post failed)) :
    Triple semantics guarantee pre (Scaffolding.withContext message shown asked) post failed :=
  fun tree initially => guaranteed_scaffoldContext (holds tree initially)

theorem triple_ofResult {result : Except ScaffoldError α}
    (ended : ∀ tree, pre tree → Ends post failed result tree) :
    Triple semantics guarantee pre (Scaffolding.ofResult result) post failed :=
  ended

end Steps

/-! ## Which files are there in the end -/

section Presence

variable {path : Path OsName} {message : String} {shown : Option (Path OsName)}
  {done : List (Path OsName)}

/-- What stands stays, and one path more does. -/
theorem triple_allStand {program : Scaffolding Unit}
    (holds : Triple (truthful cwd) Tree.Extends (fun _ => True) program
      (fun _ tree => Stands cwd tree path) fun _ => True) :
    Triple (truthful cwd) Tree.Extends (AllStand cwd done) program
      (fun _ => AllStand cwd (path :: done)) fun _ => True := by
  have kept : ∀ before after : Tree OsName FileContent, AllStand cwd done before →
      before.Extends after → AllStand cwd done after :=
    fun _ _ all extends_ other member => (all other member).extends extends_
  refine (holds.frame kept).consequence (fun _ all => ⟨all, trivial⟩) ?_ fun _ _ => trivial
  rintro _ tree ⟨all, stands⟩ other member
  rcases List.mem_cons.mp member with rfl | member
  · exact stands
  · exact all other member

theorem write_stands (content : FileContent) :
    Triple (truthful cwd) Tree.Extends (fun _ => True)
      (Scaffolding.withContext message shown (ask (.write path content)))
      (fun _ tree => Stands cwd tree path) fun _ => True := by
  refine triple_scaffoldContext fun tree _ answer tree' answered => ?_
  refine ⟨write_extends answered.1, ?_⟩
  cases answer with
  | ok value => exact stands_of_metadata (write_shown answered.1)
  | error cause => trivial

theorem makeDirectory_stands (notEmpty : path.isEmpty = false) :
    Triple (truthful cwd) Tree.Extends (fun _ => True)
      (Scaffolding.withContext message shown (createDirAll path))
      (fun _ tree => Stands cwd tree path) fun _ => True := by
  refine triple_scaffoldContext fun tree _ => ?_
  refine ((createDirAll_adds path tree).restrict fun _ _ _ _ answered => answered.1).mono
    (fun _ _ adds => adds.keeps.entries) ?_
  rintro result tree' ⟨_, reached⟩
  cases result with
  | error cause => trivial
  | ok value =>
      rcases reached rfl with isEmpty | ⟨directory, reaches⟩
      · rw [notEmpty] at isEmpty
        cases isEmpty
      · exact stands_of_metadata (reaches.metadata_dir notEmpty)

theorem writeProjectFiles_stand (tools : ScaffoldTools) (projectPath : Path OsName)
    (name : List Char) :
    Triple (truthful cwd) Tree.Extends (AllStand cwd done)
      (writeProjectFiles tools projectPath name)
      (fun _ => AllStand cwd
        (proofsDir projectPath :: testsDir projectPath :: mainPath projectPath ::
          srcDir projectPath :: manifestPath projectPath :: done)) fun _ => True := by
  rw [writeProjectFiles]
  refine (triple_allStand (write_stands _)).bind fun _ => ?_
  refine (triple_allStand (makeDirectory_stands (isEmpty_joinName _ _))).bind fun _ => ?_
  refine (triple_allStand (write_stands _)).bind fun _ => ?_
  refine (triple_allStand (makeDirectory_stands (isEmpty_joinName _ _))).bind fun _ => ?_
  exact triple_allStand (makeDirectory_stands (isEmpty_joinName _ _))

theorem writeGitFiles_stand (projectPath : Path OsName) :
    Triple (truthful cwd) Tree.Extends (AllStand cwd done)
      (writeGitFiles projectPath)
      (fun _ => AllStand cwd
        (gitignorePath projectPath :: gitkeep (proofsDir projectPath) ::
          gitkeep (testsDir projectPath) :: done)) fun _ => True := by
  rw [writeGitFiles]
  refine (triple_allStand (write_stands _)).bind fun _ => ?_
  refine (triple_allStand (write_stands _)).bind fun _ => ?_
  exact triple_allStand (write_stands _)

variable {tools : ScaffoldTools}

/-- `git init` takes nothing away and changes no file. -/
def GitAdds (cwd : Location OsName) (tools : ScaffoldTools) : Prop :=
  ∀ path tree, Guaranteed (truthful cwd) Tree.Adds (tools.gitInit path) tree
    fun _ _ => True

theorem gitInit_stand (gitAdds : GitAdds cwd tools) (projectPath : Path OsName) :
    Triple (truthful cwd) Tree.Extends (AllStand cwd done)
      (liftM (tools.gitInit projectPath) : Scaffolding Unit)
      (fun _ => AllStand cwd done) fun _ => True := by
  refine Triple.lift fun tree all => ?_
  have extending := (gitAdds projectPath tree).mono (fun _ _ adds => adds.keeps.entries)
    fun _ _ holds => holds
  refine (extending.keeping ?_ all).weaken fun _ _ kept => kept.1
  exact fun _ _ all extends_ other member => (all other member).extends extends_

theorem createFiles_stand (gitAdds : GitAdds cwd tools) (projectPath : Path OsName)
    (name : List Char) (initGit : Bool) :
    Triple (truthful cwd) Tree.Extends (fun _ => True)
      (createFiles tools projectPath name initGit)
      (fun _ => AllStand cwd (createdFiles projectPath initGit)) fun _ => True := by
  have made : Triple (truthful cwd) Tree.Extends (fun _ => True)
      (Scaffolding.withContext "Failed to create project directory: " (some projectPath)
        (createDirAll projectPath))
      (fun _ => AllStand cwd []) fun _ => True := by
    refine triple_scaffoldContext fun tree _ => ?_
    refine ((createDirAll_adds projectPath tree).restrict fun _ _ _ _ answered => answered.1).mono
      (fun _ _ adds => adds.keeps.entries) ?_
    rintro result tree' _
    cases result with
    | error cause => trivial
    | ok value =>
        intro other member
        cases member
  rw [createFiles]
  refine made.bind fun _ => (writeProjectFiles_stand tools projectPath name).bind fun _ => ?_
  cases initGit with
  | false =>
      refine triple_pure.consequence ?_ (fun _ _ all => all) fun _ holds => holds
      intro _ all path member
      apply all path
      simp only [createdFiles, Bool.false_eq_true, if_false, List.append_nil, List.mem_cons,
        List.not_mem_nil, or_false] at member
      rcases member with rfl | rfl | rfl | rfl <;>
        simp only [List.mem_cons, true_or, or_true]
  | true =>
      refine (writeGitFiles_stand projectPath).bind fun _ => ?_
      refine (gitInit_stand gitAdds projectPath).bind fun _ => ?_
      refine triple_pure.consequence ?_ (fun _ _ all => all) fun _ holds => holds
      intro _ all path member
      apply all path
      simp only [createdFiles, if_true, List.cons_append, List.nil_append, List.mem_cons,
        List.not_mem_nil, or_false] at member
      rcases member with rfl | rfl | rfl | rfl | rfl | rfl | rfl <;>
        simp only [List.mem_cons, true_or, or_true]

theorem writeIfMissing_stands (content : List Char) :
    Triple (truthful cwd) Tree.Extends (fun _ => True)
      (writeIfMissing message shown path content)
      (fun _ tree => Stands cwd tree path) fun _ => True := by
  intro tree _
  refine guaranteed_bind_fallible.mpr (guaranteed_lift.mpr ?_)
  refine guaranteed_pathExists (fun _ _ _ _ answered => answered) (Tree.Keeps.refl tree).entries ?_
  cases found : (metadata cwd tree true path).isOk with
  | true => exact found
  | false => exact write_stands _ tree trivial

theorem keepIfMissing_stands (directoryMessage : String) (directory : Path OsName) :
    Triple (truthful cwd) Tree.Extends (fun _ => True)
      (keepIfMissing directoryMessage message directory)
      (fun _ tree => Stands cwd tree (gitkeep directory)) fun _ => True := by
  intro tree _
  refine guaranteed_bind_fallible.mpr (guaranteed_lift.mpr ?_)
  refine guaranteed_pathExists (fun _ _ _ _ answered => answered) (Tree.Keeps.refl tree).entries ?_
  cases found : (metadata cwd tree true (gitkeep directory)).isOk with
  | true => exact found
  | false =>
      have made : Triple (truthful cwd) Tree.Extends (fun _ => True)
          (Scaffolding.withContext directoryMessage none (createDirAll directory))
          (fun _ _ => True) fun _ => True := by
        refine triple_scaffoldContext fun tree _ => ?_
        refine ((createDirAll_adds directory tree).restrict fun _ _ _ _ answered =>
          answered.1).mono (fun _ _ adds => adds.keeps.entries) ?_
        intro result tree' _
        cases result <;> trivial
      exact made.bind (fun _ => write_stands _) tree trivial

theorem writeGitFilesIfMissing_stand (projectPath : Path OsName) :
    Triple (truthful cwd) Tree.Extends (AllStand cwd done)
      (writeGitFilesIfMissing projectPath)
      (fun _ => AllStand cwd
        (gitignorePath projectPath :: gitkeep (proofsDir projectPath) ::
          gitkeep (testsDir projectPath) :: done)) fun _ => True := by
  rw [writeGitFilesIfMissing]
  refine (triple_allStand (keepIfMissing_stands _ _)).bind fun _ => ?_
  refine (triple_allStand (keepIfMissing_stands _ _)).bind fun _ => ?_
  exact triple_allStand (writeIfMissing_stands _)

theorem writeToFile_stands (manifest : InferenceToml) :
    Triple (truthful cwd) Tree.Extends (fun _ => True)
      (writeToFile tools manifest path)
      (fun _ tree => Stands cwd tree path) fun _ => True := by
  rw [writeToFile]
  refine Triple.bind (triple_ofResult fun tree _ => ?_) fun _ => write_stands _
  cases tools.toStringPretty manifest <;> trivial

theorem createSource_stands (projectPath : Path OsName) :
    Triple (truthful cwd) Tree.Extends (fun _ => True) (createSource projectPath)
      (fun _ tree => Stands cwd tree (mainPath projectPath)) fun _ => True := by
  rw [createSource]
  exact (makeDirectory_stands (isEmpty_joinName _ _)).bind fun _ =>
    (writeIfMissing_stands _).consequence (fun _ _ => trivial) (fun _ _ stands => stands)
      fun _ _ => trivial

theorem initFiles_stand (projectPath : Path OsName) (name : List Char) (createSrc : Bool) :
    Triple (truthful cwd) Tree.Extends (fun _ => True)
      (initFiles tools projectPath name createSrc)
      (fun _ tree => AllStand cwd
        (initializedFiles cwd projectPath createSrc tree) tree) fun _ => True := by
  let ungitted : List (Path OsName) :=
    manifestPath projectPath :: if createSrc then [mainPath projectPath] else []
  have git : Triple (truthful cwd) Tree.Extends (AllStand cwd ungitted)
      (do
        if ← (liftM (pathExists (gitDir projectPath) : Asking Bool) : Scaffolding Bool) then
          writeGitFilesIfMissing projectPath)
      (fun _ tree => AllStand cwd
        (initializedFiles cwd projectPath createSrc tree) tree) fun _ => True := by
    intro tree all
    refine guaranteed_bind_fallible.mpr (guaranteed_lift.mpr ?_)
    refine guaranteed_pathExists (fun _ _ _ _ answered => answered)
      (Tree.Keeps.refl tree).entries ?_
    cases found : (metadata cwd tree true (gitDir projectPath)).isOk with
    | false =>
        intro path member
        rw [initializedFiles, found] at member
        exact all path (by simpa [ungitted] using member)
    | true =>
        refine (writeGitFilesIfMissing_stand projectPath tree all).weaken ?_
        intro result tree' ended
        cases result with
        | error cause => trivial
        | ok value =>
            intro path member
            apply ended path
            rw [initializedFiles, List.mem_append] at member
            rcases member with member | member
            · exact List.mem_append_right [_, _, _] member
            · split at member
              · rcases List.mem_cons.mp member with rfl | member
                · simp
                · rcases List.mem_cons.mp member with rfl | member
                  · simp
                  · rw [List.mem_singleton] at member
                    subst member
                    simp
              · cases member
  have manifest : Triple (truthful cwd) Tree.Extends (fun _ => True)
      (writeToFile tools (.new tools.infcVersion name) (manifestPath projectPath))
      (fun _ => AllStand cwd [manifestPath projectPath]) fun _ => True := by
    refine (writeToFile_stands _).consequence (fun _ all => all) ?_ fun _ _ => trivial
    intro _ tree stands path member
    rw [List.mem_singleton] at member
    subst member
    exact stands
  rw [initFiles]
  refine manifest.bind fun _ => ?_
  cases createSrc with
  | false => exact git
  | true =>
      refine Triple.bind (triple_allStand (createSource_stands projectPath)) fun _ => ?_
      refine git.consequence ?_ (fun _ _ all => all) fun _ holds => holds
      intro tree all path member
      apply all path
      rcases List.mem_cons.mp member with rfl | member
      · simp
      · exact List.mem_cons.mpr (.inl (List.mem_singleton.mp member))

end Presence

/-! ## No file is changed -/

theorem kept_of_guaranteed {α : Type} {call : Scaffolding α}
    {semantics : Semantics (Request OsName FileContent) Answer (Tree OsName FileContent)}
    {post : Except ScaffoldError α → Tree OsName FileContent → Prop}
    (holds : Guaranteed semantics Tree.Adds call.run tree post)
    {rest : Asking (Except ScaffoldError α)}
    (steps : Steps semantics call.run tree rest tree') : tree.Keeps tree' :=
  (holds.invariant (fun _ _ adds adds' => adds.trans adds') (Tree.Adds.refl tree) steps).keeps

section Making

variable {directory inner : Location OsName} {made : List (Location OsName)} {name : OsName}
  {path : Path OsName}

/-- Below a directory there are only these entries. -/
def Within (directory : Location OsName) (made : List (Location OsName))
    (tree : Tree OsName FileContent) : Prop :=
  ∀ below, tree.get (directory ++ below) ≠ none → below = [] ∨ below ∈ made

theorem Within.missing (within : Within directory made tree) (new : inner ++ [name] ∉ made) :
    tree.get (directory ++ inner ++ [name]) = none := by
  by_contra present
  rw [List.append_assoc] at present
  rcases within _ present with root | member
  · simp at root
  · exact new member

/-- One entry more. -/
theorem Within.added {node : Node OsName} (within : Within directory made tree)
    (added : ∀ other, tree'.get other =
      if other = directory ++ inner ++ [name] then some node else tree.get other) :
    Within directory ((inner ++ [name]) :: made) tree' := by
  intro below present
  rw [added] at present
  split at present
  next same =>
    rw [List.append_assoc] at same
    rw [List.append_cancel_left same]
    exact .inr List.mem_cons_self
  next =>
    rcases within below present with root | member
    · exact .inl root
    · exact .inr (List.mem_cons_of_mem _ member)

theorem Within.more (within : Within directory made tree) (below : Location OsName) :
    Within directory (below :: made) tree := by
  intro other present
  rcases within other present with root | member
  · exact .inl root
  · exact .inr (List.mem_cons_of_mem _ member)

/-- A file is written where there was none. -/
theorem write_within (content : FileContent)
    (reaches : Reaches cwd tree path (directory ++ inner))
    (within : Within directory made tree) (new : inner ++ [name] ∉ made) :
    Guaranteed (answers cwd) Tree.Adds (ask (.write (path.joinName name) content)) tree
      fun _ tree' => tree.Extends tree' ∧ Within directory ((inner ++ [name]) :: made) tree' := by
  intro answer tree' answered
  have absent := within.missing new
  have noFile : metadata cwd tree true (path.joinName name) ≠ .ok .file := by
    rw [reaches.metadata_missing absent]
    intro same
    cases same
  have adds := write_adds noFile answered
  refine ⟨adds, adds.keeps.entries, ?_⟩
  rcases write_cases noFile answered with rfl | ⟨location, partly, resolved, _, rfl⟩
  · exact within.more _
  · rw [reaches.resolve_missing absent] at resolved
    cases resolved
    exact within.added fun other => Tree.get_create tree _ other partly (notRoot_of_absent absent)

/-- A directory is made where there was none. -/
theorem makeDirectory_within (reaches : Reaches cwd tree path (directory ++ inner))
    (within : Within directory made tree) (new : inner ++ [name] ∉ made) :
    Guaranteed (answers cwd) Tree.Adds (createDirAll (path.joinName name)) tree
      fun result tree' => tree.Extends tree' ∧ Within directory ((inner ++ [name]) :: made) tree' ∧
        (result = .ok () →
          Reaches cwd tree' (path.joinName name) (directory ++ inner ++ [name])) := by
  have absent := within.missing new
  have child := guaranteed_createDirAll_child reaches name Tree.Adds.refl fun _ _ answered =>
    createDir_adds answered
  refine (child.and (createDirAll_adds (path.joinName name) tree)).mono (fun _ _ both => both.1) ?_
  rintro result tree' ⟨cases_, grows, reached⟩
  refine ⟨grows.kept, ?_⟩
  rcases cases_ with rfl | created
  · refine ⟨within.more _, fun ok => ?_⟩
    rcases reached ok with isEmpty | ⟨other, reaches'⟩
    · rw [isEmpty_joinName] at isEmpty
      cases isEmpty
    · have isDir := reaches'.metadata_dir (isEmpty_joinName path name)
      rw [reaches.metadata_missing absent] at isDir
      cases isDir
  · rcases createDir_child created with ⟨directory', reaches', _, rfl, atName⟩
    cases reaches.unique reaches'
    exact ⟨within.added fun other => Tree.get_set tree _ other .dir (notRoot_of_absent absent),
      fun _ => atName⟩

end Making

section Created

variable {projectPath : Path OsName} {directories : List OsName} {made : List (Location OsName)}
  {message : String} {shown : Option (Path OsName)}

variable (cwd projectPath) in
/-- The project's directory, with only these entries below it; some of them are directories. -/
def Made (directories : List OsName) (made : List (Location OsName))
    (tree : Tree OsName FileContent) : Prop :=
  ∃ directory, Reaches cwd tree projectPath directory ∧
    (∀ name ∈ directories,
      Reaches cwd tree (projectPath.joinName name) (directory ++ [name])) ∧
    Within directory made tree

theorem write_made (content : FileContent) {name : OsName} (new : [name] ∉ made) :
    Triple (freshly cwd projectPath) Tree.Adds
      (Made cwd projectPath directories made)
      (Scaffolding.withContext message shown (ask (.write (projectPath.joinName name) content)))
      (fun _ => Made cwd projectPath directories ([name] :: made)) fun _ => True := by
  refine triple_scaffoldContext ?_
  rintro tree ⟨directory, reaches, inside, within⟩
  have reaches' := reaches
  rw [← List.append_nil directory] at reaches'
  refine ((write_within content reaches' within new).restrict
    fun _ _ _ _ answered => answered.1.1).weaken ?_
  rintro answer tree' ⟨extends_, within'⟩
  cases answer with
  | error cause => trivial
  | ok value =>
      exact ⟨directory, reaches.extends extends_, fun name member =>
        (inside name member).extends extends_, within'⟩

theorem writeInside_made (content : FileContent) {folder name : OsName}
    (isFolder : folder ∈ directories) (new : [folder, name] ∉ made) :
    Triple (freshly cwd projectPath) Tree.Adds
      (Made cwd projectPath directories made)
      (Scaffolding.withContext message shown
        (ask (.write ((projectPath.joinName folder).joinName name) content)))
      (fun _ => Made cwd projectPath directories ([folder, name] :: made))
      fun _ => True := by
  refine triple_scaffoldContext ?_
  rintro tree ⟨directory, reaches, inside, within⟩
  refine ((write_within content (inside folder isFolder) within new).restrict
    fun _ _ _ _ answered => answered.1.1).weaken ?_
  rintro answer tree' ⟨extends_, within'⟩
  cases answer with
  | error cause => trivial
  | ok value =>
      exact ⟨directory, reaches.extends extends_, fun name member =>
        (inside name member).extends extends_, within'⟩

theorem makeDirectory_made {name : OsName} (new : [name] ∉ made) :
    Triple (freshly cwd projectPath) Tree.Adds
      (Made cwd projectPath directories made)
      (Scaffolding.withContext message shown (createDirAll (projectPath.joinName name)))
      (fun _ => Made cwd projectPath (name :: directories) ([name] :: made))
      fun _ => True := by
  refine triple_scaffoldContext ?_
  rintro tree ⟨directory, reaches, inside, within⟩
  have reaches' := reaches
  rw [← List.append_nil directory] at reaches'
  refine ((makeDirectory_within reaches' within new).restrict
    fun _ _ _ _ answered => answered.1.1).weaken ?_
  rintro result tree' ⟨extends_, within', atName⟩
  cases result with
  | error cause => trivial
  | ok value =>
      have atName' := atName rfl
      rw [List.append_nil] at atName'
      refine ⟨directory, reaches.extends extends_, ?_, within'⟩
      intro other member
      rcases List.mem_cons.mp member with rfl | member
      · exact atName'
      · exact (inside other member).extends extends_

/-- The directory is new, and there is nothing below it. -/
theorem makeProject_made (notEmpty : projectPath.isEmpty = false) (parentPath : Path OsName)
    (name : OsName) (isChild : projectPath = parentPath.joinName name) :
    Triple (freshly cwd projectPath) Tree.Adds Tree.Closed
      (Scaffolding.withContext message shown (createDirAll projectPath))
      (fun _ => Made cwd projectPath [] []) fun _ => True := by
  refine triple_scaffoldContext fun tree closed => (createDirAll_freshly notEmpty).weaken ?_
  intro result tree' freshly
  cases result with
  | error cause => trivial
  | ok value =>
      rcases freshly rfl with ⟨before, adds, created⟩
      subst isChild
      rcases createDir_child created with ⟨directory, _, absent, rfl, reaches⟩
      refine ⟨directory ++ [name], reaches, ?_, ?_⟩
      · intro _ member
        cases member
      · intro below present
        rw [Tree.get_set _ _ _ _ (notRoot_of_absent absent)] at present
        split at present
        next same => exact .inl (List.append_right_eq_self.mp same)
        next => exact absurd ((adds.closed closed).absent_below absent below) present

theorem writeProjectFiles_made (tools : ScaffoldTools) (name : List Char) :
    Triple (freshly cwd projectPath) Tree.Adds
      (Made cwd projectPath [] []) (writeProjectFiles tools projectPath name)
      (fun _ => Made cwd projectPath
        [textName "proofs", textName "tests", textName "src"]
        [[textName "proofs"], [textName "tests"], [textName "src", textName "main.inf"],
          [textName "src"], [textName "Inference.toml"]]) fun _ => True := by
  rw [writeProjectFiles]
  refine (write_made _ (by decide)).bind fun _ => ?_
  refine (makeDirectory_made (by decide)).bind fun _ => ?_
  refine (writeInside_made _ (by decide) (by decide)).bind fun _ => ?_
  refine (makeDirectory_made (by decide)).bind fun _ => ?_
  exact makeDirectory_made (by decide)

theorem writeGitFiles_made :
    Triple (freshly cwd projectPath) Tree.Adds
      (Made cwd projectPath [textName "proofs", textName "tests", textName "src"]
        [[textName "proofs"], [textName "tests"], [textName "src", textName "main.inf"],
          [textName "src"], [textName "Inference.toml"]])
      (writeGitFiles projectPath) (fun _ _ => True) fun _ => True := by
  rw [writeGitFiles]
  refine (writeInside_made _ (by decide) (by decide)).bind fun _ => ?_
  refine (writeInside_made _ (by decide) (by decide)).bind fun _ => ?_
  exact (write_made _ (by decide)).consequence (fun _ made => made) (fun _ _ _ => trivial)
    fun _ holds => holds

variable {tools : ScaffoldTools}

theorem createFiles_adds (gitAdds : GitAdds cwd tools) (parentPath : Path OsName)
    (name : OsName) (projectName : List Char) (initGit : Bool) :
    Triple (freshly cwd (parentPath.joinName name)) Tree.Adds Tree.Closed
      (createFiles tools (parentPath.joinName name) projectName initGit) (fun _ _ => True)
      fun _ => True := by
  have git : Triple (freshly cwd (parentPath.joinName name)) Tree.Adds (fun _ => True)
      (liftM (tools.gitInit (parentPath.joinName name)) : Scaffolding Unit) (fun _ _ => True)
      fun _ => True := by
    refine Triple.lift fun tree _ => ?_
    exact (gitAdds _ tree).restrict fun _ _ _ _ answered => answered.1
  rw [createFiles]
  refine (makeProject_made (isEmpty_joinName _ _) parentPath name rfl).bind fun _ => ?_
  refine (writeProjectFiles_made tools projectName).bind fun _ => ?_
  cases initGit with
  | false => exact fun _ _ => trivial
  | true => exact writeGitFiles_made.bind fun _ => git.bind fun _ _ _ => trivial

/-- A call of `create_project`, from its test on. -/
theorem createProject_adds (gitAdds : GitAdds cwd tools) (name : List Char)
    (parentPath : Option (Path OsName)) (initGit : Bool) :
    Triple (freshly cwd (projectPathOf name parentPath)) Tree.Adds Tree.Closed
      (createProject tools name parentPath initGit) (fun _ _ => True) fun _ => True := by
  have files := createFiles_adds gitAdds (parentPath.getD currentDirectory) (.text name) name
    initGit
  rw [createProject]
  intro tree closed
  refine guaranteed_bind_fallible.mpr ?_
  cases validateProjectName name with
  | error error => trivial
  | ok value =>
      refine guaranteed_bind_fallible.mpr (guaranteed_lift.mpr ?_)
      refine guaranteed_pathExists freshly_truthful (Tree.Adds.refl tree) ?_
      cases (metadata cwd tree true (projectPathOf name parentPath)).isOk with
      | true => trivial
      | false => exact files tree closed

end Created

/-! Setting up a directory writes only where existence has just been denied. -/

section Initialized

variable {path projectPath : Path OsName} {message : String} {shown : Option (Path OsName)}
  {tools : ScaffoldTools}

theorem write_missing_adds (content : FileContent)
    (missing : (metadata cwd tree true path).isOk = false) :
    Guaranteed (truthful cwd) Tree.Adds
      (Scaffolding.withContext message shown (ask (.write path content))).run tree
      (Ends (fun _ tree' => Stands cwd tree' path) fun _ => True) := by
  have noFile : metadata cwd tree true path ≠ .ok .file := by
    intro isFile
    rw [isFile] at missing
    cases missing
  refine guaranteed_scaffoldContext fun answer tree' answered => ?_
  refine ⟨write_adds noFile answered.1, ?_⟩
  cases answer with
  | ok value => exact stands_of_metadata (write_shown answered.1)
  | error cause => trivial

theorem writeIfMissing_adds (content : List Char) :
    Triple (truthful cwd) Tree.Adds (fun _ => True)
      (writeIfMissing message shown path content) (fun _ _ => True) fun _ => True := by
  intro tree _
  refine guaranteed_bind_fallible.mpr (guaranteed_lift.mpr ?_)
  refine guaranteed_pathExists (fun _ _ _ _ answered => answered) (Tree.Adds.refl tree) ?_
  cases missing : (metadata cwd tree true path).isOk with
  | true => trivial
  | false =>
      refine (write_missing_adds _ missing).weaken fun result _ _ => ?_
      cases result <;> trivial

/-- What the rest of a set-up relies on: its directory is there. -/
def Settable (cwd : Location OsName) (projectPath : Path OsName)
    (tree : Tree OsName FileContent) : Prop :=
  tree.Closed ∧ ∃ directory, Reaches cwd tree projectPath directory

theorem Settable.adds (settable : Settable cwd projectPath tree)
    (adds : tree.Adds tree') : Settable cwd projectPath tree' := by
  rcases settable with ⟨closed, directory, reaches⟩
  exact ⟨adds.closed closed, directory, reaches.extends adds.keeps.entries⟩

/-- Behind a new directory, its `.gitkeep` is still missing. -/
theorem keepIfMissing_adds (directoryMessage : String) (name : OsName) :
    Triple (truthful cwd) Tree.Adds (Settable cwd projectPath)
      (keepIfMissing directoryMessage message (projectPath.joinName name)) (fun _ _ => True)
      fun _ => True := by
  rintro tree ⟨closed, directory, reaches⟩
  refine guaranteed_bind_fallible.mpr (guaranteed_lift.mpr ?_)
  refine guaranteed_pathExists (fun _ _ _ _ answered => answered) (Tree.Adds.refl tree) ?_
  cases missing : (metadata cwd tree true
      (gitkeep (projectPath.joinName name))).isOk with
  | true => trivial
  | false =>
      have made : Guaranteed (truthful cwd) Tree.Adds
          (Scaffolding.withContext directoryMessage none
            (createDirAll (projectPath.joinName name))).run tree
          (Ends (fun _ tree' => (metadata cwd tree' true
            (gitkeep (projectPath.joinName name))).isOk = false) fun _ => True) := by
        refine guaranteed_scaffoldContext ?_
        refine ((guaranteed_createDirAll_child reaches name Tree.Adds.refl fun _ _ answered =>
          createDir_adds answered).restrict fun _ _ _ _ answered => answered.1).weaken ?_
        intro result tree' left
        cases result with
        | error cause => trivial
        | ok value =>
            rcases left with rfl | created
            · exact missing
            · rcases createDir_child created with ⟨directory', _, absent, rfl, inside⟩
              have below := closed.absent_below absent [textName ".gitkeep"]
              have empty : (tree.set (directory' ++ [name]) .dir).get
                  (directory' ++ [name] ++ [textName ".gitkeep"]) = none := by
                rw [Tree.get_set _ _ _ _ (notRoot_of_absent absent), if_neg (by simp)]
                exact below
              change (metadata _ _ true ((projectPath.joinName name).joinName _)).isOk = false
              rw [inside.metadata_missing empty]
              rfl
      refine guaranteed_bind_fallible.mpr (made.weaken ?_)
      intro result tree' ended
      cases result with
      | error cause => trivial
      | ok value =>
          refine (write_missing_adds _ ended).weaken fun result _ _ => ?_
          cases result <;> trivial

theorem Stands.reaches {name : OsName}
    (stands : Stands cwd tree (path.joinName name)) :
    ∃ directory, Reaches cwd tree path directory := by
  rw [Stands] at stands
  cases found : metadata cwd tree true (path.joinName name) with
  | error cause =>
      rw [found] at stands
      cases stands
  | ok kind =>
      rcases metadata_eq_ok.mp found with ⟨_, _, resolved, _, _⟩
      exact reaches_of_resolve_joinName resolved

theorem createSource_adds :
    Triple (truthful cwd) Tree.Adds (fun _ => True) (createSource projectPath)
      (fun _ _ => True) fun _ => True := by
  have made : Triple (truthful cwd) Tree.Adds (fun _ => True)
      (Scaffolding.withContext "Failed to create src directory: " (some (srcDir projectPath))
        (createDirAll (srcDir projectPath))) (fun _ _ => True) fun _ => True := by
    refine triple_scaffoldContext fun tree _ => ?_
    refine ((createDirAll_adds (srcDir projectPath) tree).restrict fun _ _ _ _ answered =>
      answered.1).weaken ?_
    intro result _ _
    cases result <;> trivial
  rw [createSource]
  exact made.bind fun _ => writeIfMissing_adds mainInfContent

/-- What a set-up relies on stays, whatever is added. -/
theorem triple_settable {program : Scaffolding Unit}
    (holds : Triple (truthful cwd) Tree.Adds
      (Settable cwd projectPath) program (fun _ _ => True) fun _ => True) :
    Triple (truthful cwd) Tree.Adds (Settable cwd projectPath) program
      (fun _ => Settable cwd projectPath) fun _ => True :=
  (holds.frame fun _ _ settable adds => Settable.adds settable adds).consequence
    (fun _ settable => ⟨settable, settable⟩) (fun _ _ both => both.1) fun _ _ => trivial

theorem writeGitFilesIfMissing_adds :
    Triple (truthful cwd) Tree.Adds (Settable cwd projectPath)
      (writeGitFilesIfMissing projectPath) (fun _ _ => True) fun _ => True := by
  rw [writeGitFilesIfMissing]
  refine (triple_settable (keepIfMissing_adds _ _)).bind fun _ => ?_
  refine (triple_settable (keepIfMissing_adds _ _)).bind fun _ => ?_
  exact (writeIfMissing_adds _).consequence (fun _ _ => trivial) (fun _ _ holds => holds)
    fun _ holds => holds

/-- Behind the manifest, all is written where nothing was. -/
theorem initFiles_adds (name : List Char) (createSrc : Bool) (closed : tree.Closed)
    (missing : (metadata cwd tree true (manifestPath projectPath)).isOk = false) :
    Guaranteed (truthful cwd) Tree.Adds
      (initFiles tools projectPath name createSrc).run tree
      (Ends (fun _ _ => True) fun _ => True) := by
  have git : Triple (truthful cwd) Tree.Adds (Settable cwd projectPath)
      (do
        if ← (liftM (pathExists (gitDir projectPath) : Asking Bool) : Scaffolding Bool) then
          writeGitFilesIfMissing projectPath) (fun _ _ => True) fun _ => True := by
    intro tree settable
    refine guaranteed_bind_fallible.mpr (guaranteed_lift.mpr ?_)
    refine guaranteed_pathExists (fun _ _ _ _ answered => answered) (Tree.Adds.refl tree) ?_
    cases (metadata cwd tree true (gitDir projectPath)).isOk with
    | false => trivial
    | true => exact writeGitFilesIfMissing_adds tree settable
  have rest : Triple (truthful cwd) Tree.Adds (Settable cwd projectPath)
      (do
        if createSrc then createSource projectPath
        if ← (liftM (pathExists (gitDir projectPath) : Asking Bool) : Scaffolding Bool) then
          writeGitFilesIfMissing projectPath) (fun _ _ => True) fun _ => True := by
    cases createSrc with
    | false => exact git
    | true =>
        have source : Triple (truthful cwd) Tree.Adds
            (Settable cwd projectPath) (createSource projectPath) (fun _ _ => True)
            fun _ => True :=
          createSource_adds.consequence (fun _ _ => trivial) (fun _ _ holds => holds)
            fun _ holds => holds
        exact (triple_settable source).bind fun _ => git
  rw [initFiles, writeToFile]
  refine guaranteed_bind_fallible.mpr (guaranteed_bind_fallible.mpr ?_)
  cases tools.toStringPretty (.new tools.infcVersion name) with
  | none => trivial
  | some content =>
      refine ((write_missing_adds (.text content) missing).keeping
        (fun _ _ kept adds => adds.closed kept) closed).weaken ?_
      rintro result tree' ⟨closed', ended⟩
      cases result with
      | error cause => trivial
      | ok value => exact rest tree' ⟨closed', Stands.reaches ended⟩

theorem initProject_adds (canonical : Except ErrorKind (Location OsName))
    (path : Option (Path OsName)) (name : Option (List Char)) (createSrc : Bool) :
    Triple (truthful cwd) Tree.Adds Tree.Closed
      (initProject tools canonical path name createSrc) (fun _ _ => True) fun _ => True := by
  have behindName (projectName : List Char) (tree : Tree OsName FileContent)
      (closed : tree.Closed) : Guaranteed (truthful cwd) Tree.Adds (do
        Scaffolding.ofResult (validateProjectName projectName)
        if ← (liftM (pathExists (manifestPath (path.getD currentDirectory)) : Asking Bool) :
            Scaffolding Bool) then
          throw (.alreadyExists "Inference.toml already exists in '" (path.getD currentDirectory)
            "'. This directory is already an Inference project.")
        initFiles tools (path.getD currentDirectory) projectName createSrc : Scaffolding Unit).run
      tree (Ends (fun _ _ => True) fun _ => True) := by
    refine guaranteed_bind_fallible.mpr ?_
    cases validateProjectName projectName with
    | error error => trivial
    | ok value =>
        refine guaranteed_bind_fallible.mpr (guaranteed_lift.mpr ?_)
        refine guaranteed_pathExists (fun _ _ _ _ answered => answered) (Tree.Adds.refl tree) ?_
        cases missing : (metadata cwd tree true
            (manifestPath (path.getD currentDirectory))).isOk with
        | true => trivial
        | false => exact initFiles_adds projectName createSrc closed missing
  intro tree closed
  unfold initProject
  refine guaranteed_bind_fallible.mpr ?_
  cases name with
  | some name => exact behindName name tree closed
  | none =>
      cases inferred : inferProjectName (path.getD currentDirectory) canonical with
      | error error =>
          simp only
          trivial
      | ok name =>
          simp only
          exact behindName name tree closed

end Initialized

/-! ## What fails, fails before the target is there -/

section Settled

variable {target path projectPath : Path OsName} {message : String} {shown : Option (Path OsName)}
  {tools : ScaffoldTools}

variable (cwd target) in
/-- Once its target is there, the program does not fail. -/
def Succeeds {α : Type} (program : Scaffolding α) : Prop :=
  Triple (settled cwd target) Tree.Extends (Stands cwd · target) program
    (fun _ tree => Stands cwd tree target) fun _ => False

theorem write_succeeds (content : FileContent) :
    Succeeds cwd target
      (Scaffolding.withContext message shown (ask (.write path content))) := by
  refine triple_scaffoldContext fun tree stands answer tree' answered => ?_
  have extends_ := write_extends answered.1.1
  have stands' : Stands cwd tree' target := Stands.extends stands extends_
  refine ⟨extends_, ?_⟩
  rw [show answer = .ok () from answered.2 stands']
  exact stands'

theorem makeDirectory_succeeds :
    Succeeds cwd target
      (Scaffolding.withContext message shown (createDirAll path)) := by
  refine triple_scaffoldContext fun tree stands => ?_
  refine ((createDirAll_settled path tree).keeping (fun _ _ stands adds =>
    Stands.extends stands adds.keeps.entries) stands).mono (fun _ _ adds => adds.keeps.entries) ?_
  rintro result tree' ⟨stands', failing⟩
  cases result with
  | ok value => exact stands'
  | error cause =>
      have missing := failing (by intro same; cases same)
      rw [Stands, missing] at stands'
      cases stands'

theorem Succeeds.bind {α β : Type} {program : Scaffolding α} {rest : α → Scaffolding β}
    (succeeds : Succeeds cwd target program)
    (later : ∀ value, Succeeds cwd target (rest value)) :
    Succeeds cwd target (program >>= rest) :=
  Triple.bind succeeds later

theorem pathExists_succeeds (path : Path OsName) :
    Succeeds cwd target (liftM (pathExists path : Asking Bool) : Scaffolding Bool) :=
  Triple.lift fun tree stands =>
    guaranteed_pathExists settled_truthful (Tree.Keeps.refl tree).entries stands

theorem pure_succeeds {α : Type} (value : α) :
    Succeeds cwd target (pure value : Scaffolding α) :=
  fun _ stands => stands

theorem gitInit_succeeds (gitAdds : GitAdds cwd tools) (projectPath : Path OsName) :
    Succeeds cwd target (liftM (tools.gitInit projectPath) : Scaffolding Unit) := by
  refine Triple.lift fun tree stands => ?_
  have extending := (gitAdds projectPath tree).mono (fun _ _ adds => adds.keeps.entries)
    fun _ _ holds => holds
  refine ((extending.restrict fun _ _ _ _ answered => answered.1).keeping ?_ stands).weaken
    fun _ _ kept => kept.1
  exact fun _ _ stands extends_ => Stands.extends stands extends_

theorem writeProjectFiles_succeeds (name : List Char) :
    Succeeds cwd target (writeProjectFiles tools projectPath name) := by
  rw [writeProjectFiles]
  refine (write_succeeds _).bind fun _ => makeDirectory_succeeds.bind fun _ => ?_
  exact (write_succeeds _).bind fun _ => makeDirectory_succeeds.bind fun _ => makeDirectory_succeeds

theorem writeGitFiles_succeeds : Succeeds cwd target (writeGitFiles projectPath) := by
  rw [writeGitFiles]
  exact (write_succeeds _).bind fun _ => (write_succeeds _).bind fun _ => write_succeeds _

theorem writeIfMissing_succeeds (content : List Char) :
    Succeeds cwd target (writeIfMissing message shown path content) := by
  refine (pathExists_succeeds path).bind fun found => ?_
  cases found with
  | true => exact pure_succeeds ()
  | false => exact write_succeeds _

theorem keepIfMissing_succeeds (directoryMessage : String) (directory : Path OsName) :
    Succeeds cwd target (keepIfMissing directoryMessage message directory) := by
  refine (pathExists_succeeds _).bind fun found => ?_
  cases found with
  | true => exact pure_succeeds ()
  | false => exact makeDirectory_succeeds.bind fun _ => write_succeeds _

theorem createSource_succeeds : Succeeds cwd target (createSource projectPath) := by
  rw [createSource]
  exact makeDirectory_succeeds.bind fun _ => writeIfMissing_succeeds _

theorem writeGitFilesIfMissing_succeeds :
    Succeeds cwd target (writeGitFilesIfMissing projectPath) := by
  rw [writeGitFilesIfMissing]
  refine (keepIfMissing_succeeds _ _).bind fun _ => (keepIfMissing_succeeds _ _).bind fun _ => ?_
  exact writeIfMissing_succeeds _

variable (cwd target) in
/-- Where the program fails, its target is missing. -/
def FailsMissing {α : Type} (pre : Tree OsName FileContent → Prop) (program : Scaffolding α) :
    Prop :=
  Triple (settled cwd target) Tree.Extends pre program
    (fun _ tree => Stands cwd tree target)
    fun tree => ¬ Stands cwd tree target

/-- The first step that leaves the target, and then steps that succeed. -/
theorem FailsMissing.bind {α β : Type} {pre : Tree OsName FileContent → Prop}
    {program : Scaffolding α} {rest : α → Scaffolding β}
    (fails : FailsMissing cwd target pre program)
    (later : ∀ value, Succeeds cwd target (rest value)) :
    FailsMissing cwd target pre (program >>= rest) :=
  Triple.bind fails fun value => (later value).consequence (fun _ stands => stands)
    (fun _ _ stands => stands) fun _ fails => fails.elim

theorem createFiles_fails (gitAdds : GitAdds cwd tools)
    (notEmpty : projectPath.isEmpty = false) (name : List Char) (initGit : Bool) :
    FailsMissing cwd projectPath (fun _ => True)
      (createFiles tools projectPath name initGit) := by
  have made : FailsMissing cwd projectPath (fun _ => True)
      (Scaffolding.withContext "Failed to create project directory: " (some projectPath)
        (createDirAll projectPath)) := by
    refine triple_scaffoldContext fun tree _ => ?_
    have reached := (createDirAll_adds projectPath tree).restrict
      fun _ _ _ _ (answered : settled cwd projectPath _ _ _ _) => answered.1.1
    refine ((createDirAll_settled projectPath tree).and reached).mono
      (fun _ _ both => both.1.keeps.entries) ?_
    rintro result tree' ⟨failing, _, reached⟩
    cases result with
    | ok value =>
        rcases reached rfl with isEmpty | ⟨directory, reaches⟩
        · rw [notEmpty] at isEmpty
          cases isEmpty
        · exact stands_of_metadata (reaches.metadata_dir notEmpty)
    | error cause =>
        have missing := failing (by intro same; cases same)
        intro stands
        rw [Stands, missing] at stands
        cases stands
  rw [createFiles]
  refine made.bind fun _ => (writeProjectFiles_succeeds name).bind fun _ => ?_
  cases initGit with
  | false => exact pure_succeeds projectPath
  | true =>
      refine writeGitFiles_succeeds.bind fun _ => ?_
      exact (gitInit_succeeds gitAdds projectPath).bind fun _ => pure_succeeds projectPath

theorem initFiles_fails (name : List Char) (createSrc : Bool) :
    FailsMissing cwd (manifestPath projectPath)
      (fun tree => ¬ Stands cwd tree (manifestPath projectPath))
      (initFiles tools projectPath name createSrc) := by
  have manifest : FailsMissing cwd (manifestPath projectPath)
      (fun tree => ¬ Stands cwd tree (manifestPath projectPath))
      (writeToFile tools (.new tools.infcVersion name) (manifestPath projectPath)) := by
    intro tree missing
    rw [writeToFile]
    refine guaranteed_bind_fallible.mpr ?_
    cases tools.toStringPretty (.new tools.infcVersion name) with
    | none => exact missing
    | some content =>
        refine guaranteed_scaffoldContext fun answer tree' answered => ?_
        refine ⟨write_extends answered.1.1, ?_⟩
        cases answer with
        | ok value => exact stands_of_metadata (write_shown answered.1.1)
        | error cause =>
            intro stands
            have same : (Except.error cause : Except ErrorKind Unit) = .ok () := answered.2 stands
            cases same
  have git : Succeeds cwd (manifestPath projectPath) (do
      if ← (liftM (pathExists (gitDir projectPath) : Asking Bool) : Scaffolding Bool) then
        writeGitFilesIfMissing projectPath) := by
    refine (pathExists_succeeds _).bind fun found => ?_
    cases found with
    | false => exact pure_succeeds ()
    | true => exact writeGitFilesIfMissing_succeeds
  rw [initFiles]
  refine manifest.bind fun _ => ?_
  cases createSrc with
  | false => exact git
  | true => exact createSource_succeeds.bind fun _ => git

theorem isOk_of_missing (missing : ¬ Stands cwd tree path) :
    (metadata cwd tree true path).isOk = false :=
  Bool.eq_false_iff.mpr missing

theorem createProject_fails (gitAdds : GitAdds cwd tools) (name : List Char)
    (parentPath : Option (Path OsName)) (initGit : Bool)
    (missing : ¬ Stands cwd tree (projectPathOf name parentPath)) :
    Guaranteed (settled cwd (projectPathOf name parentPath)) Tree.Extends
      (createProject tools name parentPath initGit).run tree
      (Ends (fun _ _ => True) fun tree' =>
        ¬ Stands cwd tree' (projectPathOf name parentPath)) := by
  have files := createFiles_fails gitAdds
    (isEmpty_joinName (parentPath.getD currentDirectory) (.text name)) name initGit
  rw [createProject]
  refine guaranteed_bind_fallible.mpr ?_
  cases validateProjectName name with
  | error error => exact missing
  | ok value =>
      refine guaranteed_bind_fallible.mpr (guaranteed_lift.mpr ?_)
      refine guaranteed_pathExists settled_truthful (Tree.Keeps.refl tree).entries ?_
      rw [isOk_of_missing missing]
      refine (files tree trivial).weaken fun result tree' ended => ?_
      cases result with
      | ok value => trivial
      | error error => exact ended

theorem runs_pathExists_missing (missing : ¬ Stands cwd tree path) :
    Runs cwd tree (pathExists path) false tree := by
  rw [← isOk_of_missing missing]
  exact runs_pathExists path

theorem runs_createProject {name : List Char} {parentPath : Option (Path OsName)} {initGit : Bool}
    {result : Except ScaffoldError (Path OsName)}
    (accepted : validateProjectName name = .ok ())
    (missing : ¬ Stands cwd tree (projectPathOf name parentPath))
    (runs : Runs cwd tree
      (createFiles tools (projectPathOf name parentPath) name initGit).run result tree') :
    Runs cwd tree (createProject tools name parentPath initGit).run result tree' := by
  have valid : Runs cwd tree (Scaffolding.ofResult (validateProjectName name)).run
      (.ok ()) tree := by
    rw [accepted]
    exact runs_pure _
  exact valid.bind_ok ((runs_pathExists_missing missing).bind_lift runs)

/-- The name that is given, or else inferred. -/
def givenName (path : Path OsName) (canonical : Except ErrorKind (Location OsName))
    (name : Option (List Char)) : Except ScaffoldError (List Char) :=
  name.elim (inferProjectName path canonical) .ok

theorem initProject_fails (canonical : Except ErrorKind (Location OsName))
    (path : Option (Path OsName)) (name : Option (List Char)) (createSrc : Bool)
    (missing : ¬ Stands cwd tree (manifestPath (path.getD currentDirectory))) :
    Guaranteed (settled cwd (manifestPath (path.getD currentDirectory))) Tree.Extends
      (initProject tools canonical path name createSrc).run tree
      (Ends (fun _ _ => True) fun tree' =>
        ¬ Stands cwd tree' (manifestPath (path.getD currentDirectory))) := by
  have behindName (projectName : List Char) :
      Guaranteed (settled cwd (manifestPath (path.getD currentDirectory))) Tree.Extends
        (do
          Scaffolding.ofResult (validateProjectName projectName)
          if ← (liftM (pathExists (manifestPath (path.getD currentDirectory)) : Asking Bool) :
              Scaffolding Bool) then
            throw (.alreadyExists "Inference.toml already exists in '" (path.getD currentDirectory)
              "'. This directory is already an Inference project.")
          initFiles tools (path.getD currentDirectory) projectName createSrc :
            Scaffolding Unit).run tree
        (Ends (fun _ _ => True) fun tree' =>
          ¬ Stands cwd tree' (manifestPath (path.getD currentDirectory))) := by
    refine guaranteed_bind_fallible.mpr ?_
    cases validateProjectName projectName with
    | error error => exact missing
    | ok value =>
        refine guaranteed_bind_fallible.mpr (guaranteed_lift.mpr ?_)
        refine guaranteed_pathExists settled_truthful (Tree.Keeps.refl tree).entries ?_
        rw [isOk_of_missing missing]
        refine (initFiles_fails projectName createSrc tree missing).weaken
          fun result tree' ended => ?_
        cases result with
        | ok value => trivial
        | error error => exact ended
  unfold initProject
  refine guaranteed_bind_fallible.mpr ?_
  cases name with
  | some name => exact behindName name
  | none =>
      cases inferred : inferProjectName (path.getD currentDirectory) canonical with
      | error error =>
          simp only
          exact missing
      | ok name =>
          simp only
          exact behindName name

theorem runs_initProject {canonical : Except ErrorKind (Location OsName)}
    {path : Option (Path OsName)} {name : Option (List Char)} {createSrc : Bool}
    {projectName : List Char} {result : Except ScaffoldError Unit}
    (named : givenName (path.getD currentDirectory) canonical name = .ok projectName)
    (accepted : validateProjectName projectName = .ok ())
    (missing : ¬ Stands cwd tree (manifestPath (path.getD currentDirectory)))
    (runs : Runs cwd tree
      (initFiles tools (path.getD currentDirectory) projectName createSrc).run result tree') :
    Runs cwd tree (initProject tools canonical path name createSrc).run result
      tree' := by
  have valid : Runs cwd tree
      (Scaffolding.ofResult (validateProjectName projectName)).run (.ok ()) tree := by
    rw [accepted]
    exact runs_pure _
  have named' : Runs cwd tree
      (Scaffolding.ofResult (givenName (path.getD currentDirectory) canonical name)).run
      (.ok projectName) tree := by
    rw [named]
    exact runs_pure _
  unfold initProject
  cases name with
  | some name =>
      exact named'.bind_ok (valid.bind_ok ((runs_pathExists_missing missing).bind_lift runs))
  | none => exact named'.bind_ok (valid.bind_ok ((runs_pathExists_missing missing).bind_lift runs))

end Settled

/-! ## When scaffolding is recovered from -/

/-- In every run in which existence is answered as it is and the project's directory is not to be
created where it already is, no file is changed. In every run in which nothing fails once the
directory, or the manifest, is there, a call that fails can be made again. -/
theorem scaffolding_recovers (cwd : Location OsName) (tools : ScaffoldTools)
    (gitAdds : GitAdds cwd tools) (tree : Tree OsName FileContent)
    (closed : tree.Closed) :
    (∀ (name : List Char) (parentPath : Option (Path OsName)) (initGit : Bool),
      validateProjectName name = .ok () →
        Recovers cwd
          (freshly cwd (projectPathOf name parentPath))
          (settled cwd (projectPathOf name parentPath))
          (projectPathOf name parentPath)
          (fun _ => createdFiles (projectPathOf name parentPath) initGit)
          (createProject tools name parentPath initGit)
          (createProject tools name parentPath initGit)
          (createFiles tools (projectPathOf name parentPath) name initGit) tree) ∧
    ∀ (canonical canonical' : Except ErrorKind (Location OsName)) (path : Option (Path OsName))
      (name : Option (List Char)) (projectName : List Char) (createSrc : Bool),
      givenName (path.getD currentDirectory) canonical' name = .ok projectName →
        validateProjectName projectName = .ok () →
          Recovers cwd (truthful cwd)
            (settled cwd (manifestPath (path.getD currentDirectory)))
            (manifestPath (path.getD currentDirectory))
            (initializedFiles cwd (path.getD currentDirectory) createSrc)
            (initProject tools canonical path name createSrc)
            (initProject tools canonical' path name createSrc)
            (initFiles tools (path.getD currentDirectory) projectName createSrc) tree := by
  constructor
  · intro name parentPath initGit accepted
    constructor
    · intro rest tree' steps
      exact kept_of_guaranteed
        (createProject_adds gitAdds name parentPath initGit tree closed) steps
    · intro error tree' steps missing later notMade value final runs
      have failed := (createProject_fails gitAdds name parentPath initGit missing).returns steps
      refine ⟨runs_createProject accepted (fun stands => failed (notMade stands)) runs, ?_⟩
      exact runs.satisfies_truthful
        (createFiles_stand gitAdds (projectPathOf name parentPath) name initGit later trivial)
  · intro canonical canonical' path name projectName createSrc named accepted
    constructor
    · intro rest tree' steps
      exact kept_of_guaranteed (initProject_adds canonical path name createSrc tree closed) steps
    · intro error tree' steps missing later notMade value final runs
      have failed := (initProject_fails canonical path name createSrc missing).returns steps
      refine ⟨runs_initProject named accepted (fun stands => failed (notMade stands)) runs, ?_⟩
      exact runs.satisfies_truthful
        (initFiles_stand (path.getD currentDirectory) projectName createSrc later trivial)

/-! ## A project called demo -/

def emptyTree : Tree OsName FileContent where
  nodes := []
  contents := fun _ => .text []

/-- A repository with files in the places of some that a project has. -/
def usedTree : Tree OsName FileContent where
  nodes :=
    [([textName ".git"], .dir), ([textName ".git", textName "HEAD"], .file 0),
      ([textName ".gitignore"], .file 1),
      ([textName "src"], .dir), ([textName "src", textName "main.inf"], .file 2),
      ([textName "other"], .dir), ([textName "other", textName "Inference.toml"], .file 3)]
  contents := fun _ => .text "written by hand".toList

def demo : List Char := "demo".toList

/-- `.git` with its `HEAD`, where there is none. -/
def initRepository (projectPath : Path OsName) : Asking Unit := do
  let _ ← createDirAll (gitDir projectPath)
  if !(← pathExists ((gitDir projectPath).joinName (textName "HEAD"))) then
    let _ ← ask (.write ((gitDir projectPath).joinName (textName "HEAD"))
      (.text "ref: refs/heads/main\n".toList))

def demoTools : ScaffoldTools where
  infcVersion := "0.1.0".toList
  toStringPretty manifest := some ("[package]\nname = \"".toList ++ manifest.package.name ++
    "\"\nversion = \"".toList ++ manifest.package.version ++ "\"\ninfc_version = \"".toList ++
    manifest.package.infcVersion ++ "\"\n".toList)
  gitInit := initRepository

theorem demoTools_gitAdds (cwd : Location OsName) :
    GitAdds cwd demoTools := by
  intro path tree
  refine guaranteed_bind.mpr (((createDirAll_adds (gitDir path) tree).restrict
    fun _ _ _ _ answered => answered.1).weaken fun _ tree' _ => ?_)
  refine guaranteed_bind.mpr (guaranteed_pathExists (fun _ _ _ _ answered => answered)
    (Tree.Adds.refl tree') ?_)
  cases missing : (metadata cwd tree' true
      ((gitDir path).joinName (textName "HEAD"))).isOk with
  | true => trivial
  | false =>
      refine guaranteed_bind.mpr fun answer tree'' answered => ⟨write_adds ?_ answered.1, trivial⟩
      intro isFile
      rw [isFile] at missing
      cases missing

theorem usedTree_closed : usedTree.Closed :=
  Tree.closed_of_entries (by decide)

theorem demo_recovers :
    Recovers [] (freshly [] (projectPathOf demo none)) (settled [] (projectPathOf demo none))
        (projectPathOf demo none) (fun _ => createdFiles (projectPathOf demo none) true)
        (createProject demoTools demo none true) (createProject demoTools demo none true)
        (createFiles demoTools (projectPathOf demo none) demo true) usedTree ∧
      Recovers [] (truthful []) (settled [] (manifestPath currentDirectory))
        (manifestPath currentDirectory) (initializedFiles [] currentDirectory true)
        (initProject demoTools (.ok []) none (some demo) true)
        (initProject demoTools (.ok []) none (some demo) true)
        (initFiles demoTools currentDirectory demo true) usedTree :=
  have recovers :=
    scaffolding_recovers [] demoTools (demoTools_gitAdds []) usedTree usedTree_closed
  ⟨recovers.1 demo none true (by decide),
    recovers.2 (.ok []) (.ok []) none (some demo) demo true rfl (by decide)⟩

/-- A disk that is full: directories can still be made, but nothing can be written. -/
def fullDisk : (request : Request OsName FileContent) → Tree OsName FileContent →
    Answer request × Tree OsName FileContent
  | .write _ _, tree => (.error .other, tree)
  | request, tree => perform [] request tree

theorem fullDisk_allowed (request : Request OsName FileContent) (tree : Tree OsName FileContent) :
    answers [] request tree (fullDisk request tree).1 (fullDisk request tree).2 := by
  cases request with
  | write path written => exact .inr ⟨rfl, .untouched⟩
  | _ => exact .inl rfl

/-- What a call on a full disk leaves. -/
def demoLeft : Tree OsName FileContent :=
  ((createProject demoTools demo none false).run.run fullDisk emptyTree).2

/-- Once there is space again, the project is still refused: its directory already exists. -/
theorem demo_refused :
    ¬ Recovers [] (answers []) (answers []) (projectPathOf demo none)
      (fun _ => createdFiles (projectPathOf demo none) false)
      (createProject demoTools demo none false) (createProject demoTools demo none false)
      (createFiles demoTools (projectPathOf demo none) demo false) emptyTree := by
  intro recovers
  have steps : Steps (answers []) (createProject demoTools demo none false).run emptyTree
      (.done (.error (.context "Failed to write Inference.toml: "
        (some (manifestPath (projectPathOf demo none))) .other))) demoLeft :=
    steps_run fullDisk_allowed
  have missing : ¬ Stands [] emptyTree (projectPathOf demo none) := by
    rw [Stands]
    decide
  have again : Runs [] demoLeft (createFiles demoTools (projectPathOf demo none) demo false).run
      (.ok (projectPathOf demo none))
      ((createFiles demoTools (projectPathOf demo none) demo false).run.run (perform [])
        demoLeft).2 :=
    rfl
  have refused : Runs [] demoLeft (createProject demoTools demo none false).run
      (.error (.alreadyExists "Directory '" (projectPathOf demo none)
        "' already exists. Choose a different name or delete the existing directory.")) demoLeft :=
    rfl
  have accepted := (recovers.retried _ _ steps missing demoLeft id _ _ again).1
  cases (congrArg Prod.fst refused).symm.trans (congrArg Prod.fst accepted)

end Inference.Infs
