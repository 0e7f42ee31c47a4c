import Inference.Foundation.FileKeeping
import Inference.Infs.ToolchainPaths

/-! # The LLVM toolchain

Code is made by two programs: `inf-llc` compiles the text of a module, and `rust-lld` links what it
has written. They work in a temporary directory, which is removed however the work ends. What the
programs and the temporary directory do to the file system are parameters.
-/

namespace Inference.Infc

open Effects FileSystem
open Infs (OsName textName)

abbrev SourceTree := Tree OsName (List UInt8)

abbrev FileRequest := Request OsName (List UInt8)

abbrev FileCommand (α : Type) : Type :=
  FileProgram OsName (List UInt8) α

/-- What the code generator hands to the toolchain: the printed module, and whether it has a `main`
function. -/
structure LlvmModule where
  ir : List UInt8
  hasMain : Bool

inductive ToolArgument
  | text (text : String)
  | path (path : Path OsName)

/-- The surroundings of the code generator. -/
structure Toolchain where
  /-- `INF_WASM_CODEGEN_BIN_DIR`, as it was when the compiler was built. -/
  binDir : Option (Path OsName)
  exeSuffix : String
  currentExe : Except ErrorKind (Path OsName)
  tempdir : FileCommand (Except ErrorKind (Path OsName))
  /-- What becomes of the temporary directory when it is dropped. -/
  dropTempdir : Path OsName → FileCommand Unit
  /-- Starts a program with a library directory and waits for it: whether it succeeds, or why it
  cannot be started. -/
  output : (program libraries : Path OsName) → List ToolArgument →
    FileCommand (Except ErrorKind Bool)

inductive CodegenError
  | currentExe (cause : ErrorKind)
  | noExeDirectory
  | binaryNotFound (binName message : String) (searched : List (Path OsName))
  | librariesNotFound (searched : List (Path OsName))
  | file (cause : ErrorKind)
  | toolFailed (tool : String)

abbrev Generating (α : Type) : Type :=
  Program.Fallible FileRequest Answer CodegenError α

variable {α : Type}

def inGenerator (asked : FileCommand (Except ErrorKind α)) : Generating α :=
  ExceptT.mk do
    match ← asked with
    | .ok value => return .ok value
    | .error cause => return .error (.file cause)

/-- The first of some paths that exists. -/
def firstExisting : List (Path OsName) → FileCommand (Option (Path OsName))
  | [] => return none
  | candidate :: rest => do
      if ← pathExists candidate then return some candidate else firstExisting rest

variable (toolchain : Toolchain)

def exeDirectory : Except CodegenError (Path OsName) :=
  match toolchain.currentExe with
  | .error cause => .error (.currentExe cause)
  | .ok exePath =>
      match exePath.parent with
      | none => .error .noExeDirectory
      | some directory => .ok directory

def orGenerator (result : Except CodegenError α) : Generating α :=
  ExceptT.mk (pure result)

def hinted (toolName : OsName) : List (Path OsName) :=
  (toolchain.binDir.map fun directory => directory.joinName toolName).toList

def binCandidates (directory : Path OsName) (toolName : OsName) : List (Path OsName) :=
  [(directory.joinName (textName "bin")).joinName toolName,
    ((directory.parent.getD directory).joinName (textName "bin")).joinName toolName]

def getBinPath (binName message : String) : Generating (Path OsName) := do
  let toolName := textName (binName ++ toolchain.exeSuffix)
  match ← (liftM (firstExisting (hinted toolchain toolName)) :
      Generating (Option (Path OsName))) with
  | some candidate => return candidate
  | none =>
      let directory ← orGenerator (exeDirectory toolchain)
      match ← (liftM (firstExisting (binCandidates directory toolName)) :
          Generating (Option (Path OsName))) with
      | some candidate => return candidate
      | none => throw (.binaryNotFound binName message (binCandidates directory toolName))

def getInfLlcPath : Generating (Path OsName) :=
  getBinPath toolchain "inf-llc" "This package requires LLVM with Inference intrinsics support."

def getRustLldPath : Generating (Path OsName) :=
  getBinPath toolchain "rust-lld" "This package requires rust-lld to link WebAssembly modules."

/-- Beside the executable the libraries are looked for in `bin`, above it in `lib`. -/
def libCandidates (directory : Path OsName) : List (Path OsName) :=
  [directory.joinName (textName "bin"),
    (directory.parent.getD directory).joinName (textName "lib")]

/-- `get_llvm_lib_dir` on Linux. -/
def getLlvmLibDir : Generating (Path OsName) := do
  let directory ← orGenerator (exeDirectory toolchain)
  match ← (liftM (firstExisting (libCandidates directory)) :
      Generating (Option (Path OsName))) with
  | some candidate => return candidate
  | none => throw (.librariesNotFound (libCandidates directory))

def runTool (name : String) (program : Path OsName) (arguments : List ToolArgument) :
    Generating Unit := do
  let libraries ← getLlvmLibDir toolchain
  let succeeds ← inGenerator (toolchain.output program libraries arguments)
  if succeeds then pure () else throw (.toolFailed name)

/-- A file of the output's name in the temporary directory. -/
def tempFile (tempDir : Path OsName) (extension : String) : Path OsName :=
  tempDir.joinName (textName ("output." ++ extension))

def llcArguments (tempDir : Path OsName) : List ToolArgument :=
  [.text "-mcpu=mvp", .text "-filetype=obj", .path (tempFile tempDir "ll"), .text "-O3",
    .text "-o", .path (tempFile tempDir "o")]

def lldArguments (tempDir : Path OsName) (hasMain : Bool) : List ToolArgument :=
  [.text "-flavor", .text "wasm", .path (tempFile tempDir "o"), .text "--no-entry"] ++
    (if hasMain then [.text "--export=main"] else []) ++
    [.text "-o", .path (tempFile tempDir "wasm")]

/-- What is done in the temporary directory. -/
def emitIn (module_ : LlvmModule) (llcPath tempDir : Path OsName) : Generating (List UInt8) := do
  inGenerator (ask (.write (tempFile tempDir "ll") module_.ir))
  runTool toolchain "inf-llc" llcPath (llcArguments tempDir)
  let lldPath ← getRustLldPath toolchain
  runTool toolchain "rust-lld" lldPath (lldArguments tempDir module_.hasMain)
  let wasm ← inGenerator (ask (.read (tempFile tempDir "wasm")))
  inGenerator (ask (.removeFile (tempFile tempDir "o")))
  return wasm

def compileToWasm (module_ : LlvmModule) : Generating (List UInt8) := do
  let llcPath ← getInfLlcPath toolchain
  let tempDir ← inGenerator toolchain.tempdir
  let emitted ← (liftM (emitIn toolchain module_ llcPath tempDir).run :
    Generating (Except CodegenError (List UInt8)))
  (liftM (toolchain.dropTempdir tempDir) : Generating Unit)
  orGenerator emitted

/-! ## Where the toolchain works -/

variable (cwd : Location OsName) (temporary : Location OsName)

/-- The locations of the temporary directory. -/
def IsTemporary (location : Location OsName) : Prop :=
  temporary <+: location

/-- The temporary directory stands, with files of its own in it. -/
structure Stands (tempDir : Path OsName) (tree : SourceTree) : Prop where
  reaches : Reaches cwd tree tempDir temporary
  secluded : tree.Secluded temporary

/-- The tree is one in which the temporary directory stands, but for what has changed in it. -/
def Stood (tempDir : Path OsName) (tree : SourceTree) : Prop :=
  ∃ before, Stands cwd temporary tempDir before ∧
    before.ChangesWithin (below temporary · = true) tree

/-- The temporary directory is new, the programs work on files in it, and it is dropped as a
whole. -/
structure Toolchain.Confined : Prop where
  tempdir : ∀ tree : SourceTree, tree.Closed → Guaranteed (answers cwd)
    (Tree.ChangesWithin (IsTemporary temporary)) toolchain.tempdir tree fun answer tree' =>
      ∀ tempDir, answer = .ok tempDir → Stands cwd temporary tempDir tree'
  output : ∀ tempDir program libraries arguments tree,
    Stands cwd temporary tempDir tree →
      (∀ path, .path path ∈ arguments → ∃ name, path = tempDir.joinName name) →
        Guaranteed (answers cwd)
          (Tree.ChangesWithin (below temporary · = true))
          (toolchain.output program libraries arguments) tree fun _ tree' =>
            Stands cwd temporary tempDir tree'
  dropTempdir : ∀ tempDir tree, Stood cwd temporary tempDir tree →
    Guaranteed (answers cwd) (Tree.ChangesWithin (IsTemporary temporary))
      (toolchain.dropTempdir tempDir) tree fun _ _ => True

section Confinement

variable {toolchain cwd temporary} {tree : SourceTree} {tempDir : Path OsName}
  {post : Except CodegenError α → SourceTree → Prop}

theorem guaranteed_inGenerator {guarantee : SourceTree → SourceTree → Prop}
    {asked : FileCommand (Except ErrorKind α)}
    (holds : Guaranteed (answers cwd) guarantee asked tree
      (Ends (fun value tree' => post (.ok value) tree') fun tree' =>
        ∀ cause, post (.error (.file cause)) tree')) :
    Guaranteed (answers cwd) guarantee (inGenerator asked).run tree post := by
  refine guaranteed_bind.mpr (holds.weaken ?_)
  intro answer tree' ended
  cases answer with
  | ok value => exact ended
  | error cause => exact ended cause

theorem observes_firstExisting (candidates : List (Path OsName)) :
    Observes cwd tree (firstExisting candidates) fun _ => True := by
  induction candidates with
  | nil => exact observes_pure trivial
  | cons candidate rest induction =>
      refine (observes_pathExists candidate).bind fun found _ => ?_
      split
      · exact observes_pure trivial
      · exact induction

theorem observes_orGenerator (result : Except CodegenError α) :
    Observes cwd tree (orGenerator result).run fun _ => True :=
  observes_pure trivial

theorem observes_getBinPath (binName message : String) :
    Observes cwd tree (getBinPath toolchain binName message).run fun _ => True := by
  refine (observes_firstExisting _).bind_lift fun found _ => ?_
  cases found with
  | some candidate => exact observes_pure trivial
  | none =>
      refine (observes_orGenerator _).bind_fallible ?_ ?_
      · intro directory _
        refine (observes_firstExisting _).bind_lift fun found _ => ?_
        cases found with
        | some candidate => exact observes_pure trivial
        | none => exact observes_pure trivial
      · exact fun _ _ => trivial

theorem observes_getLlvmLibDir :
    Observes cwd tree (getLlvmLibDir toolchain).run fun _ => True := by
  refine (observes_orGenerator _).bind_fallible ?_ ?_
  · intro directory _
    refine (observes_firstExisting _).bind_lift fun found _ => ?_
    cases found with
    | some candidate => exact observes_pure trivial
    | none => exact observes_pure trivial
  · exact fun _ _ => trivial

theorem below_child (directory : Location OsName) (name : OsName) :
    below directory (directory ++ [name]) = true := by
  rw [below, Bool.and_eq_true, List.isPrefixOf_iff_prefix, decide_eq_true_eq]
  exact ⟨List.prefix_append _ _, by simp⟩

theorem isTemporary_of_below {location : Location OsName} (inside : below temporary location = true) :
    IsTemporary temporary location := by
  rw [below, Bool.and_eq_true, List.isPrefixOf_iff_prefix] at inside
  exact inside.1

theorem Stands.stood (stands : Stands cwd temporary tempDir tree) :
    Stood cwd temporary tempDir tree :=
  ⟨tree, stands, .refl⟩

/-- A request that changes one file of the directory. -/
theorem changesWithin_child {tree' : SourceTree} {name : OsName}
    (changes : tree.ChangesWithin (· = temporary ++ [name]) tree') :
    tree.ChangesWithin (below temporary · = true) tree' :=
  changes.mono fun _ same => same ▸ below_child temporary name

theorem write_stands (stands : Stands cwd temporary tempDir tree) {name : OsName}
    {written : List UInt8} :
    Guaranteed (answers cwd) (Tree.ChangesWithin (below temporary · = true))
      (ask (.write (tempDir.joinName name) written)) tree fun _ tree' =>
        Stands cwd temporary tempDir tree' := by
  intro answer tree' answered
  rcases write_secluded stands.reaches stands.secluded answered with ⟨changes, secluded⟩
  exact ⟨changesWithin_child changes, stands.reaches.extends (write_extends answered), secluded⟩

theorem removeFile_stood (stands : Stands cwd temporary tempDir tree)
    {name : OsName} :
    Guaranteed (answers cwd) (Tree.ChangesWithin (below temporary · = true))
      (ask (.removeFile (tempDir.joinName name))) tree fun _ tree' =>
        Stood cwd temporary tempDir tree' := by
  intro answer tree' answered
  have changes : tree.ChangesWithin (· = temporary ++ [name]) tree' := by
    refine (changesWithin_answers answered).mono fun location touched => ?_
    have resolved : resolve cwd tree false (tempDir.joinName name) = .ok location :=
      touched
    exact Except.ok.inj (resolved.symm.trans (stands.reaches.resolve_joinName name))
  exact ⟨changesWithin_child changes, tree, stands, changesWithin_child changes⟩

theorem runTool_stands (confined : toolchain.Confined cwd temporary)
    (stands : Stands cwd temporary tempDir tree) {name : String}
    {program : Path OsName} {arguments : List ToolArgument}
    (inside : ∀ path, .path path ∈ arguments → ∃ name, path = tempDir.joinName name) :
    Guaranteed (answers cwd) (Tree.ChangesWithin (below temporary · = true))
      (runTool toolchain name program arguments).run tree fun _ tree' =>
        Stands cwd temporary tempDir tree' := by
  refine observes_getLlvmLibDir.guaranteed_bind_run (fun _ => .refl) ?_ fun _ _ => stands
  intro libraries _
  refine guaranteed_bind_fallible.mpr (guaranteed_inGenerator ?_)
  refine (confined.output tempDir program libraries arguments tree stands inside).weaken ?_
  intro answer tree' stands'
  cases answer with
  | error cause => exact fun _ => stands'
  | ok succeeds => cases succeeds <;> exact stands'

theorem mem_llcArguments {path : Path OsName} (member : .path path ∈ llcArguments tempDir) :
    ∃ name, path = tempDir.joinName name := by
  simp only [llcArguments, List.mem_cons, reduceCtorEq, ToolArgument.path.injEq, List.not_mem_nil,
    or_false, false_or] at member
  rcases member with rfl | rfl <;> exact ⟨_, rfl⟩

theorem mem_lldArguments {hasMain : Bool} {path : Path OsName}
    (member : .path path ∈ lldArguments tempDir hasMain) :
    ∃ name, path = tempDir.joinName name := by
  cases hasMain <;>
    simp only [lldArguments, List.mem_append, List.mem_cons, reduceCtorEq,
      ToolArgument.path.injEq, List.not_mem_nil, or_false, false_or, if_true, if_false,
      Bool.false_eq_true] at member <;>
    rcases member with rfl | rfl <;> exact ⟨_, rfl⟩

/-- The work stays in the temporary directory. -/
theorem emitIn_stood (confined : toolchain.Confined cwd temporary)
    (stands : Stands cwd temporary tempDir tree) (module_ : LlvmModule)
    (llcPath : Path OsName) :
    Guaranteed (answers cwd) (Tree.ChangesWithin (below temporary · = true))
      (emitIn toolchain module_ llcPath tempDir).run tree fun _ tree' =>
        Stood cwd temporary tempDir tree' := by
  refine guaranteed_bind_fallible.mpr (guaranteed_inGenerator ?_)
  refine (write_stands stands).weaken fun wrote written stands => ?_
  cases wrote with
  | error cause => exact fun _ => stands.stood
  | ok value =>
  refine guaranteed_bind_fallible.mpr ?_
  refine (runTool_stands confined stands fun _ => mem_llcArguments).weaken ?_
  intro compiles compiled stands
  cases compiles with
  | error error => exact stands.stood
  | ok value =>
  refine (observes_getBinPath _ _).guaranteed_bind_run (fun _ => .refl) ?_ fun _ _ => stands.stood
  intro lldPath _
  refine guaranteed_bind_fallible.mpr ?_
  refine (runTool_stands confined stands fun _ => mem_lldArguments).weaken ?_
  intro links linked stands
  cases links with
  | error error => exact stands.stood
  | ok value =>
  refine guaranteed_bind_fallible.mpr (guaranteed_inGenerator ?_)
  refine (observes_ask (.read (tempFile tempDir "wasm")) rfl).guaranteed (fun _ => .refl) ?_
  intro reads _
  cases reads with
  | error cause => exact fun _ => stands.stood
  | ok wasm =>
  refine guaranteed_bind_fallible.mpr (guaranteed_inGenerator ?_)
  refine (removeFile_stood stands).weaken fun removes removed stood => ?_
  cases removes with
  | error cause => exact fun _ => stood
  | ok value => exact stood

/-- All that the toolchain changes is its temporary directory. -/
theorem compileToWasm_confined (confined : toolchain.Confined cwd temporary)
    (module_ : LlvmModule) (closed : tree.Closed) :
    Guaranteed (answers cwd) (Tree.ChangesWithin (IsTemporary temporary))
      (compileToWasm toolchain module_).run tree fun _ _ => True := by
  refine (observes_getBinPath _ _).guaranteed_bind_run (fun _ => .refl) ?_ fun _ _ => trivial
  intro llcPath _
  refine guaranteed_bind_fallible.mpr (guaranteed_inGenerator ?_)
  refine (confined.tempdir tree closed).weaken fun makes made stands => ?_
  cases makes with
  | error cause => exact fun _ => trivial
  | ok tempDir =>
  refine guaranteed_bind_fallible.mpr (guaranteed_lift.mpr ?_)
  refine (emitIn_stood confined (stands tempDir rfl) module_ llcPath).mono
    (fun _ _ changes => changes.mono fun _ => isTemporary_of_below) ?_
  intro emitted state stood
  refine guaranteed_bind_fallible.mpr (guaranteed_lift.mpr ?_)
  exact (confined.dropTempdir tempDir state stood).weaken fun _ _ _ => trivial

end Confinement

/-! ## A toolchain that writes one byte -/

def scratchPath : Path OsName :=
  ⟨true, [.named (textName "scratch")], false⟩

/-- Writes one byte to the path that comes last. -/
def writeByte (arguments : List ToolArgument) : FileCommand (Except ErrorKind Bool) :=
  match arguments.getLast? with
  | some (.path path) => do
      let answer ← ask (.write path [0])
      return .ok answer.isOk
  | _ => return .ok false

def byteToolchain : Toolchain where
  binDir := none
  exeSuffix := ""
  currentExe := .ok ⟨true, [.named (textName "tools"), .named (textName "infc")], false⟩
  tempdir := do
    match ← ask (.createDir scratchPath) with
    | .ok () => return .ok scratchPath
    | .error cause => return .error cause
  dropTempdir := fun _ => do
    let _ ← ask (.removeDirAll scratchPath)
    return ()
  output := fun _ _ arguments => writeByte arguments

theorem resolve_scratchPath (tree : SourceTree) :
    resolve cwd tree false scratchPath = .ok [textName "scratch"] := by
  rw [resolve_eq_walk scratchPath rfl (rooted_root tree)]
  exact walk_name

theorem stands_scratch {tree : SourceTree} (closed : tree.Closed)
    (absent : tree.get [textName "scratch"] = none) :
    Stands cwd [textName "scratch"] scratchPath
      (tree.set [textName "scratch"] .dir) := by
  have notRoot : [textName "scratch"] ≠ [] := List.cons_ne_nil _ _
  have isDir : (tree.set [textName "scratch"] .dir).get ([] ++ [textName "scratch"]) =
      some .dir := by
    rw [Tree.get_set _ _ _ _ notRoot, List.nil_append, if_pos rfl]
  refine ⟨⟨rooted_root _, ?_, (rooted_root _).child isDir⟩, fun name => .inl ?_⟩
  · exact (walk_named_dir isDir).trans walk_nil
  · rw [Tree.get_set _ _ _ _ notRoot, if_neg (by simp)]
    exact closed.absent_below absent [name]

theorem byteToolchain_confined :
    byteToolchain.Confined cwd [textName "scratch"] := by
  refine ⟨?_, ?_, ?_⟩
  · intro tree closed
    refine guaranteed_bind.mpr ?_
    intro answer tree' answered
    have changes : tree.ChangesWithin (IsTemporary [textName "scratch"]) tree' := by
      refine (changesWithin_answers answered).mono fun location touched => ?_
      have resolved := resolve_scratchPath cwd tree
      cases Except.ok.inj (touched.1.symm.trans resolved)
      exact List.prefix_rfl
    refine ⟨changes, ?_⟩
    cases answer with
    | error cause => exact fun _ isOk => by cases isOk
    | ok value =>
        rintro tempDir isOk
        cases isOk
        rcases answered with performed | ⟨failed, _⟩
        · rw [perform] at performed
          cases created : createDir cwd tree scratchPath with
          | error cause =>
              rw [created] at performed
              cases performed
          | ok made =>
              rw [created] at performed
              cases performed
              rcases createDir_eq_ok.mp created with ⟨location, resolved, absent, rfl⟩
              cases Except.ok.inj
                (resolved.symm.trans (resolve_scratchPath cwd tree))
              exact stands_scratch cwd closed absent
        · cases failed
  · intro tempDir program libraries arguments tree stands inside
    change Guaranteed _ _ (writeByte arguments) _ _
    rw [writeByte.eq_def]
    split
    next path isLast =>
      rcases inside path (List.mem_of_getLast? isLast) with ⟨name, rfl⟩
      exact guaranteed_bind.mpr ((write_stands stands).weaken fun _ _ stands => stands)
    next => exact stands
  · intro tempDir tree stood
    refine guaranteed_bind.mpr ?_
    intro answer tree' answered
    refine ⟨(changesWithin_answers answered).mono fun location removes => ?_, trivial⟩
    rcases removes_cases removes with ⟨top, resolved, inside | same⟩
    · cases Except.ok.inj (resolved.symm.trans (resolve_scratchPath cwd tree))
      exact inside
    · cases Except.ok.inj (same.symm.trans (resolve_scratchPath cwd tree))
      exact List.prefix_rfl

end Inference.Infc
