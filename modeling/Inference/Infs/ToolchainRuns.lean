import Inference.Foundation.FileRules
import Inference.Infs.ToolchainPaths

/-! # Runs of the toolchain manager that nothing hinders

What the programs of `ToolchainPaths` return, and the tree they leave, when no request fails for a
reason outside the tree.
-/

namespace Inference.Infs

open Effects FileSystem

variable {cwd : Location OsName} {paths : ToolchainPaths}
  {tree tree' : Tree OsName FileContent} {α β : Type}

/-! ## Errors with a context -/

variable {message : String} {path : Path OsName}

theorem observes_withContext
    {asked : Asking (Except ErrorKind α)} {post : Except ErrorKind α → Prop}
    {post' : Except InfsError α → Prop} (observes : Observes cwd tree asked post)
    (returns : ∀ value, post (.ok value) → post' (.ok value))
    (fails : ∀ error, post' (.error error)) :
    Observes cwd tree (withContext message path asked).run post' := by
  refine observes.bind fun answer answered => ?_
  cases answer with
  | ok value => exact observes_pure (returns value answered)
  | error cause => exact observes_pure (fails _)

theorem guaranteed_withContext {guarantee : Tree OsName FileContent → Tree OsName FileContent → Prop}
    {asked : Asking (Except ErrorKind α)}
    {post : Except InfsError α → Tree OsName FileContent → Prop} :
    Guaranteed (answers cwd) guarantee (withContext message path asked).run tree post ↔
      Guaranteed (answers cwd) guarantee asked tree fun answer tree' =>
        post (answer.mapError (.context message path)) tree' := by
  refine guaranteed_bind.trans ⟨fun holds => holds.weaken ?_, fun holds => holds.weaken ?_⟩
  · intro answer tree' later
    cases answer with
    | ok value => exact later
    | error cause => exact later
  · intro answer tree' later
    cases answer with
    | ok value => exact later
    | error cause => exact later

/-- An error ends a program whose next part is asked with a context. -/
theorem guaranteed_context {guarantee : Tree OsName FileContent → Tree OsName FileContent → Prop}
    {asked : Asking (Except ErrorKind α)} {rest : α → Installer β}
    {post : Tree OsName FileContent → Prop}
    (first : Guaranteed (answers cwd) guarantee asked tree fun answer tree' =>
      post tree' ∧ ∀ value, answer = .ok value →
        Guaranteed (answers cwd) guarantee (rest value).run tree' fun _ => post) :
    Guaranteed (answers cwd) guarantee (withContext message path asked >>= rest).run
      tree fun _ => post := by
  refine guaranteed_bind_fallible.mpr (guaranteed_withContext.mpr (first.weaken ?_))
  rintro answer tree' ⟨ends, later⟩
  cases answer with
  | ok value => exact later value rfl
  | error cause => exact ends

theorem runs_withContext_ok {asked : Asking (Except ErrorKind α)} {value : α}
    (runs : Runs cwd tree asked (.ok value) tree') :
    Runs cwd tree (withContext message path asked).run (.ok value) tree' :=
  Runs.bind runs (runs_pure _)

theorem runs_withContext_error {asked : Asking (Except ErrorKind α)} {cause : ErrorKind}
    (runs : Runs cwd tree asked (.error cause) tree') :
    Runs cwd tree (withContext message path asked).run
      (.error (.context message path cause)) tree' :=
  Runs.bind runs (runs_pure _)

/-! ## Runs of `ToolchainPaths` -/

theorem runs_isVersionInstalled {version : List Char} :
    Runs cwd tree (paths.isVersionInstalled version)
      (metadata cwd tree true (paths.toolchainDir version)).isOk tree :=
  rfl

theorem runs_getDefaultVersion {content : List Char}
    (read : readFile cwd tree paths.defaultFile = .ok (.text content)) :
    Runs cwd tree paths.getDefaultVersion.run
      (.ok (if trim content = [] then none else some (trim content))) tree := by
  have found : metadata cwd tree true paths.defaultFile = .ok .file := by
    rcases readFile_eq_ok.mp read with ⟨location, inode, resolved, isFile, _⟩
    exact metadata_eq_ok.mpr ⟨location, _, resolved, isFile, rfl⟩
  have readText : Runs cwd tree (ToolchainPaths.readToString paths.defaultFile)
      (.ok content) tree :=
    (runs_read read).bind (runs_pure _)
  refine (runs_pathExists paths.defaultFile).bind_lift ?_
  rw [found]
  exact (runs_withContext_ok readText).bind_ok (runs_pure _)

theorem runs_getDefaultVersion_none {cause : ErrorKind}
    (absent : metadata cwd tree true paths.defaultFile = .error cause) :
    Runs cwd tree paths.getDefaultVersion.run (.ok none) tree := by
  refine (runs_pathExists paths.defaultFile).bind_lift ?_
  rw [absent]
  exact runs_pure _

theorem runs_setDefaultVersion {directory : Location OsName} {version : List Char}
    (reaches : Reaches cwd tree paths.root directory)
    (wrote : writeFile cwd tree paths.defaultFile (.text version) = .ok tree') :
    Runs cwd tree (paths.setDefaultVersion version).run (.ok ()) tree' := by
  refine (runs_withContext_ok (runs_createDirAll reaches)).bind_ok ?_
  exact runs_withContext_ok (runs_write wrote)

/-- The directories among some entries of the toolchains directory. -/
def directoryNames (cwd : Location OsName) (tree : Tree OsName FileContent)
    (paths : ToolchainPaths) (entries : List OsName) : List (List Char) :=
  entries.filterMap fun entry =>
    match entry with
    | .text name =>
        if metadata cwd tree true (paths.toolchains.joinName (.text name)) = .ok .dir
        then some name else none
    | .bytes _ => none

theorem runs_listDirectories (entries : List OsName) :
    Runs cwd tree (paths.listDirectories entries)
      (directoryNames cwd tree paths entries) tree := by
  induction entries with
  | nil => exact runs_pure _
  | cons entry entries induction =>
      refine (runs_isKind .dir (paths.toolchains.joinName entry)).bind (induction.bind ?_)
      cases entry with
      | bytes raw => exact runs_pure _
      | text name =>
          by_cases isDir : metadata cwd tree true
              (paths.toolchains.joinName (.text name)) = .ok .dir
          · have listed : directoryNames cwd tree paths (.text name :: entries) =
                name :: directoryNames cwd tree paths entries := by
              simp [directoryNames, isDir]
            rw [decide_eq_true isDir, listed]
            exact runs_pure _
          · have listed : directoryNames cwd tree paths (.text name :: entries) =
                directoryNames cwd tree paths entries := by
              simp [directoryNames, isDir]
            rw [decide_eq_false isDir, listed]
            exact runs_pure _

theorem runs_listInstalledVersions {entries : List OsName}
    (read : readDir cwd tree paths.toolchains = .ok entries) :
    Runs cwd tree paths.listInstalledVersions.run
      (.ok ((directoryNames cwd tree paths entries).mergeSort
        fun version version' => decide (version ≤ version'))) tree := by
  have found : metadata cwd tree true paths.toolchains = .ok .dir := by
    rcases readDir_eq_ok.mp read with ⟨location, resolved, isDir, _⟩
    exact metadata_eq_ok.mpr ⟨location, _, resolved, isDir, rfl⟩
  refine (runs_pathExists paths.toolchains).bind_lift ?_
  rw [found]
  refine (runs_withContext_ok (runs_readDir read)).bind_ok ?_
  exact (runs_listDirectories entries).bind_lift (runs_pure _)

end Inference.Infs
