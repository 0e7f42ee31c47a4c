import Inference.Infs.UninstallConfinement

/-! # Finding the compiler

`find_infc` looks for the compiler in the environment first, and then in the default toolchain. The
installer has a search of its own for the binaries of a version, which also knows archives that hold
them next to `bin`.
-/

namespace Inference.Infs

open Effects FileSystem

/-- Why no compiler is found. -/
inductive ResolverError
  | infcPathNotThere (path : Path OsName)
  | unsupportedPlatform
  | infcNotFound

/-- What the search reads besides files. `onPath` is what `which` finds. -/
structure ResolverEnvironment where
  infcPath : Option (List Char)
  onPath : Option (Path OsName)
  paths : Option ToolchainPaths
  platform : Option Platform

abbrev Resolver (α : Type) : Type :=
  Program.Fallible (Request OsName FileContent) Answer ResolverError α

def infcName (platform : Platform) : List Char :=
  "infc".toList ++ platform.executableExtension

/-- The compiler of the default version, in `bin` alone. -/
def findManaged (paths : ToolchainPaths) (platform : Option Platform) :
    Resolver (Path OsName) := do
  match ← (paths.getDefaultVersion.run : Asking (Except InfsError (Option (List Char)))) with
  | .ok (some version) =>
      match platform with
      | none => throw .unsupportedPlatform
      | some platform =>
          let infcPath := (paths.toolchainBinDir version).joinName (.text (infcName platform))
          if ← (pathExists infcPath : Asking Bool) then return infcPath
          else throw .infcNotFound
  | _ => throw .infcNotFound

def findInfc (environment : ResolverEnvironment) : Resolver (Path OsName) :=
  match environment.infcPath with
  | some text => do
      if ← (pathExists (parsePath text) : Asking Bool) then return parsePath text
      else throw (.infcPathNotThere (parsePath text))
  | none =>
      match environment.onPath with
      | some path => return path
      | none =>
          match environment.paths with
          | some paths => findManaged paths environment.platform
          | none => throw .infcNotFound

/-! ## Both searches -/

section Searches

variable (cwd : Location OsName) (tree : Tree OsName FileContent)
  (paths : ToolchainPaths) (host : Platform) (version : List Char)

/-- What a program returns when nothing hinders it. -/
def returned {α : Type} (program : FileProgram OsName FileContent α) : α :=
  (program.run (perform cwd) tree).1

/-- The variable is not set, and no compiler is on the search path. -/
def managedOnly : ResolverEnvironment where
  infcPath := none
  onPath := none
  paths := some paths
  platform := some host

def IsThere (path : Path OsName) : Prop :=
  ∃ kind, metadata cwd tree true path = .ok kind

/-- A binary where archives put it now. -/
def inBin (binary : List Char) : Path OsName :=
  (paths.toolchainBinDir version).joinName (.text binary)

/-- A binary where archives used to put it. -/
def binaryInRoot (binary : List Char) : Path OsName :=
  (paths.toolchainDir version).joinName (.text binary)

/-- Where the installer takes the compiler from. -/
def installedInfc : Path OsName :=
  returned cwd tree (paths.binaryPath version (infcName host))

/-- The search finds what the installer takes, and nothing else. -/
def SearchesAgree : Prop :=
  ∀ path, returned cwd tree (findInfc (managedOnly paths host)).run = .ok path ↔
    installedInfc cwd tree paths host version = path ∧
      IsThere cwd tree path

/-- The version has its compiler, and not in `bin`. -/
def OnlyInRoot : Prop :=
  ¬ IsThere cwd tree (inBin paths version (infcName host)) ∧
    IsThere cwd tree (binaryInRoot paths version (infcName host))

end Searches

variable {cwd : Location OsName} {tree tree' : Tree OsName FileContent}
  {paths : ToolchainPaths} {host : Platform} {version : List Char} {α : Type}

theorem returned_of_runs {program : FileProgram OsName FileContent α} {value : α}
    (runs : Runs cwd tree program value tree') :
    returned cwd tree program = value :=
  congrArg Prod.fst runs

theorem isOk_metadata {path : Path OsName} :
    (metadata cwd tree true path).isOk = true ↔ IsThere cwd tree path := by
  rw [IsThere]
  cases metadata cwd tree true path with
  | ok kind => exact ⟨fun _ => ⟨kind, rfl⟩, fun _ => rfl⟩
  | error cause =>
      constructor
      · intro isOk
        cases isOk
      · rintro ⟨_, found⟩
        cases found

theorem runs_pathExists_of_isThere {path : Path OsName} (found : IsThere cwd tree path) :
    Runs cwd tree (pathExists path) true tree := by
  rw [← isOk_metadata.mpr found]
  exact runs_pathExists path

theorem runs_pathExists_of_absent {path : Path OsName}
    (absent : ¬ IsThere cwd tree path) :
    Runs cwd tree (pathExists path) false tree := by
  rw [← Bool.eq_false_iff.mpr (mt isOk_metadata.mp absent)]
  exact runs_pathExists path

theorem runs_default (isDefault : IsDefault cwd paths tree version) :
    Runs cwd tree paths.getDefaultVersion.run (.ok (some version)) tree := by
  rcases isDefault with ⟨notEmpty, content, read, rfl⟩
  have runs := runs_getDefaultVersion read
  rwa [if_neg notEmpty] at runs

theorem runs_findInfc_found (isDefault : IsDefault cwd paths tree version)
    (found : IsThere cwd tree (inBin paths version (infcName host))) :
    Runs cwd tree (findInfc (managedOnly paths host)).run
      (.ok (inBin paths version (infcName host))) tree := by
  refine (runs_default isDefault).bind_lift ?_
  exact (runs_pathExists_of_isThere found).bind_lift (runs_pure _)

theorem runs_findInfc_missing (isDefault : IsDefault cwd paths tree version)
    (absent : ¬ IsThere cwd tree (inBin paths version (infcName host))) :
    Runs cwd tree (findInfc (managedOnly paths host)).run
      (.error .infcNotFound) tree := by
  refine (runs_default isDefault).bind_lift ?_
  exact (runs_pathExists_of_absent absent).bind_lift (runs_pure _)

section Binaries

variable {binary : List Char}

theorem runs_binaryPath_inBin (found : IsThere cwd tree (inBin paths version binary)) :
    Runs cwd tree (paths.binaryPath version binary) (inBin paths version binary)
      tree :=
  (runs_pathExists_of_isThere found).bind (runs_pure _)

theorem runs_binaryPath_inRoot
    (absent : ¬ IsThere cwd tree (inBin paths version binary))
    (found : IsThere cwd tree (binaryInRoot paths version binary)) :
    Runs cwd tree (paths.binaryPath version binary) (binaryInRoot paths version binary)
      tree := by
  refine (runs_pathExists_of_absent absent).bind ?_
  exact (runs_pathExists_of_isThere found).bind (runs_pure _)

/-- For a binary that is missing, `bin` is named. -/
theorem runs_binaryPath_missing
    (absent : ¬ IsThere cwd tree (inBin paths version binary))
    (absentInRoot : ¬ IsThere cwd tree (binaryInRoot paths version binary)) :
    Runs cwd tree (paths.binaryPath version binary) (inBin paths version binary)
      tree := by
  refine (runs_pathExists_of_absent absent).bind ?_
  exact (runs_pathExists_of_absent absentInRoot).bind (runs_pure _)

end Binaries

/-- The searches disagree about compilers that lie next to `bin`, and about these alone. -/
theorem searchesAgree_iff (cwd : Location OsName) (tree : Tree OsName FileContent)
    (paths : ToolchainPaths) (host : Platform) (version : List Char)
    (isDefault : IsDefault cwd paths tree version) :
    (SearchesAgree cwd tree paths host version ↔
        ¬ OnlyInRoot cwd tree paths host version) ∧
      (IsThere cwd tree (installedInfc cwd tree paths host version) →
        ((∃ path, returned cwd tree (findInfc (managedOnly paths host)).run =
            .ok path) ↔ ¬ OnlyInRoot cwd tree paths host version)) := by
  by_cases lower : IsThere cwd tree (inBin paths version (infcName host))
  · have found := returned_of_runs (runs_findInfc_found isDefault lower)
    have notOnly : ¬ OnlyInRoot cwd tree paths host version :=
      fun only => only.1 lower
    have agree : SearchesAgree cwd tree paths host version := by
      intro path
      have taken := returned_of_runs (runs_binaryPath_inBin lower)
      rw [found, installedInfc, taken]
      constructor
      · intro same
        cases same
        exact ⟨rfl, lower⟩
      · rintro ⟨rfl, -⟩
        rfl
    exact ⟨iff_of_true agree notOnly, fun _ => iff_of_true ⟨_, found⟩ notOnly⟩
  · have missing := returned_of_runs (runs_findInfc_missing isDefault lower)
    have finds : ¬ ∃ path,
        returned cwd tree (findInfc (managedOnly paths host)).run = .ok path := by
      rintro ⟨path, found⟩
      rw [missing] at found
      cases found
    by_cases upper : IsThere cwd tree (binaryInRoot paths version (infcName host))
    · have only : OnlyInRoot cwd tree paths host version := ⟨lower, upper⟩
      have disagree : ¬ SearchesAgree cwd tree paths host version := by
        intro agree
        have taken := returned_of_runs (runs_binaryPath_inRoot lower upper)
        exact finds ⟨_, (agree (binaryInRoot paths version (infcName host))).mpr ⟨taken, upper⟩⟩
      exact ⟨iff_of_false disagree (not_not.mpr only),
        fun _ => iff_of_false finds (not_not.mpr only)⟩
    · have notOnly : ¬ OnlyInRoot cwd tree paths host version :=
        fun only => upper only.2
      have taken := returned_of_runs (runs_binaryPath_missing lower upper)
      have agree : SearchesAgree cwd tree paths host version := by
        intro path
        rw [installedInfc, taken]
        constructor
        · intro found
          exact absurd ⟨path, found⟩ finds
        · rintro ⟨rfl, there⟩
          exact absurd there lower
      refine ⟨iff_of_true agree notOnly, fun there => ?_⟩
      rw [installedInfc, taken] at there
      exact absurd there lower

/-- One version is installed, with its tools in `bin` and the compiler there or beside it, and it is
the default. -/
def installation (compiler : Location OsName) : Tree OsName FileContent where
  nodes :=
    [([textName "inf"], .dir),
      ([textName "inf", textName "default"], .file 0),
      ([textName "inf", textName "toolchains"], .dir),
      ([textName "inf", textName "toolchains", textName "0.1.0"], .dir),
      ([textName "inf", textName "toolchains", textName "0.1.0", textName "bin"], .dir),
      ([textName "inf", textName "toolchains", textName "0.1.0", textName "bin",
        textName "rust-lld"], .file 1),
      ([textName "inf", textName "toolchains", textName "0.1.0"] ++ compiler, .file 2)]
  contents := fun _ => .text "0.1.0".toList

/-- Everything lies in `bin`. -/
def legacyLayout : Tree OsName FileContent :=
  installation [textName "bin", textName "infc"]

/-- The compiler lies beside `bin`. -/
def currentLayout : Tree OsName FileContent :=
  installation [textName "infc"]

abbrev infPaths : ToolchainPaths :=
  .withRoot (parsePath "/inf".toList)

theorem legacyLayout_isDefault : IsDefault [] infPaths legacyLayout "0.1.0".toList :=
  ⟨by decide, "0.1.0".toList, by decide +kernel, by decide +kernel⟩

theorem legacyLayout_inBin :
    IsThere [] legacyLayout (inBin infPaths "0.1.0".toList (infcName .linuxX64)) :=
  ⟨.file, by decide +kernel⟩

theorem searchesAgree_iff_legacyLayout :
    SearchesAgree [] legacyLayout infPaths .linuxX64 "0.1.0".toList ∧
      ∃ path, returned [] legacyLayout (findInfc (managedOnly infPaths .linuxX64)).run =
        .ok path := by
  have exact_ := searchesAgree_iff [] legacyLayout infPaths .linuxX64 "0.1.0".toList
    legacyLayout_isDefault
  have notOnly : ¬ OnlyInRoot [] legacyLayout infPaths .linuxX64 "0.1.0".toList :=
    fun only => only.1 legacyLayout_inBin
  refine ⟨exact_.1.mpr notOnly, (exact_.2 ?_).mpr notOnly⟩
  rw [installedInfc, returned_of_runs (runs_binaryPath_inBin legacyLayout_inBin)]
  exact legacyLayout_inBin

theorem currentLayout_isDefault : IsDefault [] infPaths currentLayout "0.1.0".toList :=
  ⟨by decide, "0.1.0".toList, by decide +kernel, by decide +kernel⟩

theorem currentLayout_onlyInRoot :
    OnlyInRoot [] currentLayout infPaths .linuxX64 "0.1.0".toList := by
  constructor
  · rintro ⟨kind, found⟩
    have absent : metadata [] currentLayout true
        (inBin infPaths "0.1.0".toList (infcName .linuxX64)) = .error .notFound := by
      decide +kernel
    rw [absent] at found
    cases found
  · exact ⟨.file, by decide +kernel⟩

/-- The installer takes the compiler of the default version, and the search does not find it. -/
theorem currentLayout_disagrees :
    ¬ SearchesAgree [] currentLayout infPaths .linuxX64 "0.1.0".toList := by
  intro agree
  have taken := returned_of_runs
    (runs_binaryPath_inRoot currentLayout_onlyInRoot.1 currentLayout_onlyInRoot.2)
  have found := (agree _).mpr ⟨taken, currentLayout_onlyInRoot.2⟩
  have missing := returned_of_runs (runs_findInfc_missing currentLayout_isDefault
    currentLayout_onlyInRoot.1)
  rw [missing] at found
  cases found

end Inference.Infs
