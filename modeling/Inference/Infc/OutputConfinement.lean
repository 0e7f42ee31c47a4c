import Inference.Infc.DriverRuns

/-! # Where the compiler writes

A run of the compiler makes the directory `out` and writes at most two files in it. Where no link
stands in its way, nothing else changes but the temporary directory, also when requests fail.
-/

namespace Inference.Infc

open Effects FileSystem
open Infs (OsName textName)

variable {Arena Context Problem : Type}

section Statements

variable (cwd temporary : Location OsName) (name : List Char) (tree : SourceTree)

def outDirectory : Location OsName :=
  cwd ++ [textName "out"]

def outputNames : List OsName :=
  [.text (name ++ ".wasm".toList), .text (name ++ ".v".toList)]

/-- No link stands where the outputs are written, and the temporary directory is a new one that they
are not in. -/
structure Ordinary : Prop where
  folder : tree.get (outDirectory cwd) = none ∨
    tree.get (outDirectory cwd) = some .dir
  files : ∀ file ∈ outputNames name, tree.get (outDirectory cwd ++ [file]) = none ∨
    ∃ inode, tree.get (outDirectory cwd ++ [file]) = some (.file inode)
  vacant : ∀ location, IsTemporary temporary location → tree.get location = none
  apart : ∀ file ∈ outputNames name,
    ¬ IsTemporary temporary (outDirectory cwd ++ [file])

/-- The directory of the outputs, and the outputs under all their names. -/
def IsOutput (location : Location OsName) : Prop :=
  location = outDirectory cwd ∨ ∃ file ∈ outputNames name,
    location = outDirectory cwd ++ [file] ∨
      ∃ inode, tree.get (outDirectory cwd ++ [file]) = some (.file inode) ∧
        tree.get location = some (.file inode)

/-- How far a run has come: new entries are outputs, or in the temporary directory, and the file of
a new output has no name from before. -/
structure Progress (state : SourceTree) : Prop where
  kept : tree.Extends state
  entries : ∀ location, state.get location ≠ tree.get location →
    IsTemporary temporary location ∨
      location = outDirectory cwd ∧ state.get location = some .dir ∨
      ∃ file ∈ outputNames name, location = outDirectory cwd ++ [file] ∧
        ∃ inode, state.get location = some (.file inode) ∧
          ∀ other, tree.get other ≠ some (.file inode)
  contents : ∀ other inode, tree.get other = some (.file inode) →
    state.contents inode ≠ tree.contents inode →
      ∃ file ∈ outputNames name,
        tree.get (outDirectory cwd ++ [file]) = some (.file inode)

end Statements

section Progressing

variable {cwd temporary : Location OsName} {name : List Char}
  {tree state state' : SourceTree} {file : OsName} {location : Location OsName}

theorem Progress.refl (tree : SourceTree) : Progress cwd temporary name tree tree :=
  ⟨fun _ _ found => found, fun _ changed => absurd rfl changed,
    fun _ _ _ changed => absurd rfl changed⟩

theorem Progress.changesWithin (progress : Progress cwd temporary name tree state) :
    tree.ChangesWithin (fun location => IsOutput cwd name tree location ∨
      IsTemporary temporary location) state := by
  intro location outside
  rw [not_or] at outside
  constructor
  · by_contra changed
    rcases progress.entries location changed with
      inside | ⟨isFolder, _⟩ | ⟨file, member, isFile, _⟩
    · exact outside.2 inside
    · exact outside.1 (.inl isFolder)
    · exact outside.1 (.inr ⟨file, member, .inl isFile⟩)
  · intro inode isFile
    by_contra changed
    rcases progress.contents location inode isFile changed with ⟨file, member, isOutput⟩
    exact outside.1 (.inr ⟨file, member, .inr ⟨inode, isOutput, isFile⟩⟩)

theorem Ordinary.folderApart (ordinary : Ordinary cwd temporary name tree) :
    ¬ IsTemporary temporary (outDirectory cwd) :=
  fun inside => ordinary.apart _ List.mem_cons_self (inside.trans (List.prefix_append _ _))

theorem Progress.folder (progress : Progress cwd temporary name tree state)
    (ordinary : Ordinary cwd temporary name tree) :
    state.get (outDirectory cwd) = none ∨
      state.get (outDirectory cwd) = some .dir := by
  by_cases same : state.get (outDirectory cwd) =
    tree.get (outDirectory cwd)
  · rw [same]
    exact ordinary.folder
  · rcases progress.entries _ same with inside | ⟨_, isDir⟩ | ⟨file, _, isFile, _⟩
    · exact absurd inside ordinary.folderApart
    · exact .inr isDir
    · have length := congrArg List.length isFile
      rw [List.length_append, List.length_singleton] at length
      omega

theorem Progress.output (progress : Progress cwd temporary name tree state)
    (ordinary : Ordinary cwd temporary name tree) (member : file ∈ outputNames name) :
    state.get (outDirectory cwd ++ [file]) = none ∨
      ∃ inode, state.get (outDirectory cwd ++ [file]) = some (.file inode) := by
  by_cases same : state.get (outDirectory cwd ++ [file]) =
    tree.get (outDirectory cwd ++ [file])
  · rw [same]
    exact ordinary.files file member
  · rcases progress.entries _ same with inside | ⟨isFolder, _⟩ | ⟨_, _, _, inode, isFile, _⟩
    · exact absurd inside (ordinary.apart file member)
    · have length := congrArg List.length isFolder
      rw [List.length_append, List.length_singleton] at length
      omega
    · exact .inr ⟨inode, isFile⟩

/-- The output directory is made under its own name. -/
theorem resolve_outputPath {above : Path OsName} (isAbove : above.IsAbove outputPath)
    (resolved : resolve cwd state false { above with trailing := false } =
      .ok location) : location = outDirectory cwd := by
  rcases walk_of_resolve resolved with ⟨notEmpty, _, walked⟩
  rcases above with ⟨absolute, components, trailing⟩
  rcases isAbove with ⟨isRelative, isFront⟩
  change absolute = false at isRelative
  subst isRelative
  change components <+: [.named (textName "out")] at isFront
  rcases List.prefix_cons_iff.mp isFront with rfl | ⟨rest, rfl, isRest⟩
  · cases notEmpty
  · cases List.prefix_nil.mp isRest
    change walk state false maxLinks cwd [.named (textName "out")] = .ok location
      at walked
    rw [walk_name] at walked
    cases walked
    rfl

theorem resolve_outputFile (member : file ∈ outputNames name)
    (progress : Progress cwd temporary name tree state)
    (ordinary : Ordinary cwd temporary name tree)
    (resolved : resolve cwd state true (outputPath.joinName file) = .ok location) :
    location = outDirectory cwd ++ [file] := by
  rcases walk_of_resolve resolved with ⟨_, _, walked⟩
  rw [lookedUp_joinName] at walked
  change walk state true maxLinks cwd [.named (textName "out"), .named file] =
    .ok location at walked
  rcases progress.folder ordinary with absent | isDir
  · rw [walk_named_none absent, if_neg (by simp)] at walked
    cases walked
  · rw [walk_named_dir isDir] at walked
    change walk state true maxLinks (outDirectory cwd) [.named file] = .ok location
      at walked
    rcases progress.output ordinary member with absent | ⟨inode, isFile⟩
    · rw [walk_named_none absent, List.isEmpty_nil, if_pos rfl] at walked
      cases walked
      rfl
    · rw [walk_named_file isFile, List.isEmpty_nil, if_pos rfl] at walked
      cases walked
      rfl

theorem Progress.createDir {above : Path OsName} {answer : Except ErrorKind Unit}
    (progress : Progress cwd temporary name tree state)
    (isAbove : above.IsAbove outputPath)
    (answered : answers cwd (.createDir above) state answer state') :
    Progress cwd temporary name tree state' := by
  rcases answered with performed | ⟨_, interrupted⟩
  · rw [perform] at performed
    cases created : FileSystem.createDir cwd state above with
    | error cause =>
        rw [created] at performed
        cases performed
        exact progress
    | ok made =>
        rw [created] at performed
        cases performed
        rcases createDir_eq_ok.mp created with ⟨location, resolved, absent, rfl⟩
        cases resolve_outputPath isAbove resolved
        have extends_ : state.Extends (state.set (outDirectory cwd) .dir) :=
          Tree.set_extends absent
        refine ⟨fun _ _ found => extends_ _ _ (progress.kept _ _ found), ?_, progress.contents⟩
        intro other changed
        by_cases same : other = outDirectory cwd
        · refine .inr (.inl ⟨same, ?_⟩)
          rw [same, Tree.get_set _ _ _ _ (notRoot_of_absent absent), if_pos rfl]
        · rw [Tree.get_set _ _ _ _ (notRoot_of_absent absent), if_neg same] at changed ⊢
          exact progress.entries other changed
  · cases interrupted with
    | untouched => exact progress

/-- A file that is made. -/
theorem Progress.created {written : List UInt8}
    (progress : Progress cwd temporary name tree state)
    (member : file ∈ outputNames name)
    (absent : state.get (outDirectory cwd ++ [file]) = none) :
    Progress cwd temporary name tree
      (state.create (outDirectory cwd ++ [file]) written) := by
  have notRoot := notRoot_of_absent absent
  have extends_ : state.Extends (state.create (outDirectory cwd ++ [file]) written) :=
    Tree.create_extends absent
  refine ⟨fun _ _ found => extends_ _ _ (progress.kept _ _ found), ?_, ?_⟩
  · intro other changed
    by_cases same : other = outDirectory cwd ++ [file]
    · refine .inr (.inr ⟨file, member, same, state.freshInode, ?_, ?_⟩)
      · rw [same, Tree.get_create _ _ _ _ notRoot, if_pos rfl]
      · intro old isFile
        exact Nat.lt_irrefl _ (Tree.lt_freshInode (progress.kept _ _ isFile))
    · rw [Tree.get_create _ _ _ _ notRoot, if_neg same] at changed ⊢
      exact progress.entries other changed
  · intro other inode isFile changed
    rw [Tree.create_contents (progress.kept _ _ isFile)] at changed
    exact progress.contents other inode isFile changed

/-- A file that is overwritten. -/
theorem Progress.overwritten {written : List UInt8} {inode : Inode}
    (ordinary : Ordinary cwd temporary name tree)
    (progress : Progress cwd temporary name tree state)
    (member : file ∈ outputNames name)
    (isFile : state.get (outDirectory cwd ++ [file]) = some (.file inode)) :
    Progress cwd temporary name tree (state.setContents inode written) := by
  refine ⟨progress.kept, progress.entries, ?_⟩
  intro other changedInode isOther changed
  by_cases same : changedInode = inode
  · subst same
    refine ⟨file, member, ?_⟩
    by_cases unchanged : state.get (outDirectory cwd ++ [file]) =
      tree.get (outDirectory cwd ++ [file])
    · rw [← unchanged]
      exact isFile
    · rcases progress.entries _ unchanged with
        inside | ⟨_, isDir⟩ | ⟨_, _, _, new, isNew, unnamed⟩
      · exact absurd inside (ordinary.apart file member)
      · rw [isFile] at isDir
        cases isDir
      · rw [isFile] at isNew
        cases isNew
        exact absurd isOther (unnamed other)
  · refine progress.contents other changedInode isOther ?_
    rwa [show (state.setContents inode written).contents changedInode =
      state.contents changedInode from Function.update_of_ne same _ _] at changed

theorem Progress.write {content : List UInt8} {answer : Except ErrorKind Unit}
    (progress : Progress cwd temporary name tree state)
    (ordinary : Ordinary cwd temporary name tree) (member : file ∈ outputNames name)
    (answered : answers cwd (.write (outputPath.joinName file) content) state answer
      state') : Progress cwd temporary name tree state' := by
  rcases write_outcomes answered with
    rfl | ⟨location, partly, resolved, ⟨absent, rfl⟩ | ⟨inode, isFile, rfl⟩⟩
  · exact progress
  · cases resolve_outputFile member progress ordinary resolved
    exact progress.created member absent
  · cases resolve_outputFile member progress ordinary resolved
    exact progress.overwritten ordinary member isFile

/-- What changes in the temporary directory is new. -/
theorem Progress.generated (progress : Progress cwd temporary name tree state)
    (ordinary : Ordinary cwd temporary name tree)
    (changes : state.ChangesWithin (IsTemporary temporary) state') :
    Progress cwd temporary name tree state' := by
  have outside {location : Location OsName} {node : Node OsName}
      (found : tree.get location = some node) : ¬ IsTemporary temporary location := by
    intro inside
    rw [ordinary.vacant location inside] at found
    cases found
  refine ⟨?_, ?_, ?_⟩
  · intro location node found
    rw [(changes location (outside found)).entry]
    exact progress.kept location node found
  · intro location changed
    by_cases inside : IsTemporary temporary location
    · exact .inl inside
    · rw [(changes location inside).entry] at changed ⊢
      exact progress.entries location changed
  · intro location inode isFile changed
    have same := (changes location (outside isFile)).contents inode (progress.kept _ _ isFile)
    rw [same] at changed
    exact progress.contents location inode isFile changed

end Progressing

/-! ## The requests of a run -/

section Requests

variable {cwd temporary : Location OsName}
  {guarantee : SourceTree → SourceTree → Prop} {phases : Phases Arena Context Problem} {args : Cli}
  {tree : SourceTree}

/-- What a run asks of the file system beyond looking at it. -/
structure Allows (cwd temporary : Location OsName) (path : Path OsName)
    (guarantee : SourceTree → SourceTree → Prop) : Prop where
  looking : ∀ tree, guarantee tree tree
  generating : ∀ before after : SourceTree,
    before.ChangesWithin (IsTemporary temporary) after → guarantee before after
  making : ∀ above : Path OsName, above.IsAbove outputPath → ∀ tree answer tree',
    answers cwd (.createDir above) tree answer tree' → guarantee tree tree'
  writing : ∀ name, sourceFname path = some name → ∀ file ∈ outputNames name,
    ∀ content tree answer tree',
      answers cwd (.write (outputPath.joinName file) content) tree answer tree' →
        guarantee tree tree'

theorem writeOutput_allowed (allows : Allows cwd temporary args.path guarantee)
    {name : List Char} (named : sourceFname args.path = some name) {file : OsName}
    (member : file ∈ outputNames name) {message : String} {content : List UInt8} :
    Guaranteed (answers cwd) guarantee
      (writeOutput message (outputPath.joinName file) content : Compiling Problem Unit).run tree
      fun _ _ => True := by
  refine guaranteed_bind_fallible.mpr (guaranteed_inFile ?_)
  refine (guaranteed_createDirAllFrom _ outputPath tree allows.looking allows.making).weaken ?_
  intro made middle _
  cases made with
  | error cause => exact fun _ => trivial
  | ok value =>
      refine guaranteed_inFile fun answer tree' answered => ?_
      refine ⟨allows.writing name named file member content _ _ _ answered, ?_⟩
      cases answer with
      | error cause => exact fun _ => trivial
      | ok value => trivial

theorem generate_allowed (allows : Allows cwd temporary args.path guarantee)
    (confined : phases.toolchain.Confined cwd temporary) (closed : tree.Closed)
    (context : Context) :
    Guaranteed (answers cwd) guarantee (generate phases args context).run tree
      fun _ _ => True := by
  rw [generate]
  split
  next =>
    refine guaranteed_bind_fallible.mpr (guaranteed_runPhase (fun _ => trivial) fun module_ _ => ?_)
    have within := compileToWasm_confined confined module_ closed
    refine (runToolchain_generates within).mono allows.generating ?_
    intro generated state _
    cases generated with
    | error failure => trivial
    | ok wasm =>
    refine guaranteed_runPhase (fun _ => trivial) fun name isName => ?_
    rcases Option.map_eq_some_iff.mp isName with ⟨found, named, isFound⟩
    cases isFound
    have translation (state : SourceTree) : Guaranteed (answers cwd) guarantee
        (writeV phases args name wasm).run state fun _ _ => True := by
      rw [writeV]
      split
      next =>
        refine guaranteed_runPhase (fun _ => trivial) fun v _ => ?_
        exact writeOutput_allowed allows named (List.mem_cons_of_mem _ List.mem_cons_self)
      next => trivial
    refine guaranteed_bind_fallible.mpr ?_
    rw [writeWasm]
    split
    next =>
      refine (writeOutput_allowed allows named List.mem_cons_self).weaken ?_
      intro result tree' _
      cases result with
      | error failure => trivial
      | ok value => exact translation tree'
    next => exact translation state
  next => trivial

theorem main_allowed (allows : Allows cwd temporary args.path guarantee)
    (confined : phases.toolchain.Confined cwd temporary) (closed : tree.Closed) :
    Guaranteed (answers cwd) guarantee (main phases args).run tree
      fun _ _ => True := by
  refine (observes_pathExists args.path).guaranteed_bind_lift allows.looking fun found _ => ?_
  split
  next => trivial
  next =>
    split
    next => trivial
    next =>
      refine guaranteed_bind_fallible.mpr (guaranteed_inFile ?_)
      refine (observes_readToString args.path).guaranteed allows.looking fun answer _ => ?_
      cases answer with
      | error cause => exact fun _ => trivial
      | ok source =>
          refine guaranteed_runPhase (fun _ => trivial) fun arena _ => ?_
          rw [check]
          split
          next =>
            refine guaranteed_runPhase (fun _ => trivial) fun context _ => ?_
            exact guaranteed_runPhase (fun _ => trivial) fun _ _ =>
              generate_allowed allows confined closed context
          next => trivial

end Requests

/-- All that changes in a run are the outputs and the temporary directory, wherever it is stopped and
whatever fails. -/
theorem main_confined (cwd temporary : Location OsName)
    (phases : Phases Arena Context Problem) (args : Cli) (name : List Char) (tree : SourceTree)
    (confined : phases.toolchain.Confined cwd temporary) (closed : tree.Closed)
    (isName : ∀ stem, sourceFname args.path = some stem → stem = name)
    (ordinary : Ordinary cwd temporary name tree)
    (rest : Program FileRequest Answer (Except (Failure Problem) Unit)) (tree' : SourceTree)
    (steps : Steps (answers cwd) (main phases args).run tree rest tree') :
    tree.ChangesWithin (fun location => IsOutput cwd name tree location ∨
      IsTemporary temporary location) tree' := by
  have allows : Allows cwd temporary args.path fun before after =>
      Progress cwd temporary name tree before →
        Progress cwd temporary name tree after := by
    refine ⟨fun _ progress => progress, ?_, ?_, ?_⟩
    · exact fun _ _ changes progress => progress.generated ordinary changes
    · exact fun above isAbove _ _ _ answered progress => progress.createDir isAbove answered
    · intro stem named file member content _ _ _ answered progress
      cases isName stem named
      exact progress.write ordinary member answered
  have progress := (main_allowed allows confined closed).invariant
    (fun _ _ progress step => step progress) (Progress.refl tree) steps
  exact progress.changesWithin

theorem sourceOnly_confined :
    sourceOnly.ChangesWithin (fun location =>
      IsOutput [textName "work"] "main".toList sourceOnly location ∨
        IsTemporary [textName "scratch"] location) mainLeft := by
  refine main_confined [textName "work"] [textName "scratch"] acceptAll buildMain "main".toList
    sourceOnly (byteToolchain_confined [textName "work"]) sourceOnly_closed ?_
    ⟨.inl rfl, ?_, ?_, ?_⟩ _ _ sourceOnly_steps
  · intro stem named
    have isMain : sourceFname buildMain.path = some "main".toList := by decide
    exact Option.some.inj (named.symm.trans isMain)
  · intro file member
    rcases List.mem_cons.mp member with rfl | member
    · exact .inl rfl
    · cases List.mem_singleton.mp member
      exact .inl rfl
  · rintro location ⟨below, rfl⟩
    exact sourceOnly_closed.absent_below rfl below
  · rintro file _ ⟨below, same⟩
    cases congrArg List.head? same

end Inference.Infc
