import Inference.Infs.ToolchainPaths

/-! # Project scaffolding

A project is created in a directory of its own, or set up in a directory that is there. Both are
programs over requests to the file system. The version of the compiler, the serializer of manifests
and `git init` stand outside.
-/

namespace Inference.Infs

open Effects FileSystem

/-! ## Manifests -/

def reservedWords : List String :=
  ["fn", "let", "mut", "if", "else", "match", "return", "type", "struct", "impl", "trait", "pub",
    "use", "mod", "ndet", "assume", "assert", "forall", "exists", "spec", "requires", "ensures",
    "invariant", "const", "enum", "loop", "break", "continue", "external", "unique",
    "src", "out", "target", "proofs", "tests", "self", "super", "crate"]

structure Package where
  name : List Char
  version : List Char
  infcVersion : List Char
  description : Option (List Char)
  authors : Option (List (List Char))
  license : Option (List Char)
  deriving DecidableEq, Repr

structure BuildConfig where
  target : List Char
  optimize : List Char
  deriving DecidableEq, Repr

structure VerificationConfig where
  outputDir : List Char
  deriving DecidableEq, Repr

structure InferenceToml where
  package : Package
  dependencies : List (List Char × List Char)
  build : BuildConfig
  verification : VerificationConfig
  deriving DecidableEq, Repr

def BuildConfig.default : BuildConfig where
  target := "wasm32".toList
  optimize := "debug".toList

def VerificationConfig.default : VerificationConfig where
  outputDir := "proofs/".toList

def InferenceToml.new (infcVersion name : List Char) : InferenceToml where
  package :=
    { name := name
      version := "0.1.0".toList
      infcVersion := infcVersion
      description := none
      authors := none
      license := none }
  dependencies := []
  build := .default
  verification := .default

inductive ScaffoldError
  | invalidName (message : List Char)
  | alreadyExists (front : String) (path : Path OsName) (back : String)
  | context (message : String) (path : Option (Path OsName)) (cause : ErrorKind)
  | serialization
  | unnamedDirectory
  deriving DecidableEq, Repr

def isAsciiAlphabetic (letter : Char) : Bool :=
  letter.isUpper || letter.isLower

/-- Only names of ASCII letters get as far as the reserved words, so that lowering is lowering
letter by letter. -/
def validateProjectName (name : List Char) : Except ScaffoldError Unit :=
  match name with
  | [] => .error (.invalidName "Project name cannot be empty".toList)
  | first :: _ =>
      if !isAsciiAlphabetic first && first ≠ '_' then
        .error (.invalidName
          ("Project name '".toList ++ name ++ "' must start with a letter or underscore".toList))
      else
        match name.find? fun letter =>
            !(isAsciiAlphabetic letter || letter.isDigit) && letter ≠ '_' && letter ≠ '-' with
        | some letter =>
            .error (.invalidName
              ("Project name '".toList ++ name ++ "' contains invalid character '".toList ++
                [letter] ++
                "'. Only letters, numbers, underscores, and hyphens are allowed.".toList))
        | none =>
            if (reservedWords.map (·.toList)).contains (name.map Char.toLower) then
              .error (.invalidName
                ("Project name '".toList ++ name ++
                  "' is a reserved word. Please choose a different name.".toList))
            else .ok ()

/-! ## Contents -/

/-- What the scaffolding uses and what stands outside of it: the version that is detected, the
serializer of manifests, and `git init`. -/
structure ScaffoldTools where
  infcVersion : List Char
  toStringPretty : InferenceToml → Option (List Char)
  gitInit : Path OsName → Asking Unit

def manifestContent (infcVersion projectName : List Char) : List Char :=
  "[package]\nname = \"".toList ++ projectName ++
    "\"\nversion = \"0.1.0\"\ninfc_version = \"".toList ++ infcVersion ++
    ("\"\n\n# Optional fields:\n# description = \"A brief description of the project\"\n" ++
      "# authors = [\"Your Name <you@example.com>\"]\n# license = \"MIT\"\n\n" ++
      "# [dependencies]\n# Future: package dependencies\n# std = \"0.1\"\n\n" ++
      "# [build]\n# target = \"wasm32\"\n# optimize = \"release\"\n\n" ++
      "# [verification]\n# output-dir = \"proofs/\"\n").toList

def mainInfContent : List Char :=
  ("// Entry point for the Inference program\n\n" ++
    "pub fn main() -> i32 \x7b\n    return 0;\n\x7d\n").toList

def gitignoreContent : List Char :=
  ("# Build outputs\n/out/\n/target/\n\n# IDE and editor files\n.idea/\n.vscode/\n*.swp\n*.swo\n" ++
    "*~\n\n# OS files\n.DS_Store\nThumbs.db\n").toList

/-! ## Scaffolding -/

abbrev Scaffolding (α : Type) : Type :=
  Program.Fallible (Request OsName FileContent) Answer ScaffoldError α

namespace Scaffolding

/-- `with_context` -/
def withContext {α : Type} (message : String) (path : Option (Path OsName))
    (asked : Asking (Except ErrorKind α)) : Scaffolding α :=
  ExceptT.mk do
    match ← asked with
    | .ok value => return .ok value
    | .error cause => return .error (.context message path cause)

def ofResult {α : Type} (result : Except ScaffoldError α) : Scaffolding α :=
  ExceptT.mk (pure result)

end Scaffolding

section Paths

variable (projectPath : Path OsName)

def manifestPath : Path OsName := projectPath.joinName (textName "Inference.toml")

def srcDir : Path OsName := projectPath.joinName (textName "src")

def mainPath : Path OsName := (srcDir projectPath).joinName (textName "main.inf")

def testsDir : Path OsName := projectPath.joinName (textName "tests")

def proofsDir : Path OsName := projectPath.joinName (textName "proofs")

def gitkeep (directory : Path OsName) : Path OsName := directory.joinName (textName ".gitkeep")

def gitignorePath : Path OsName := projectPath.joinName (textName ".gitignore")

def gitDir : Path OsName := projectPath.joinName (textName ".git")

end Paths

/-- `.` -/
def currentDirectory : Path OsName := ⟨false, [.current], false⟩

def writeProjectFiles (tools : ScaffoldTools) (projectPath : Path OsName)
    (projectName : List Char) : Scaffolding Unit := do
  Scaffolding.withContext "Failed to write Inference.toml: " (some (manifestPath projectPath))
    (ask (.write (manifestPath projectPath)
      (.text (manifestContent tools.infcVersion projectName))))
  Scaffolding.withContext "Failed to create src directory: " (some (srcDir projectPath))
    (createDirAll (srcDir projectPath))
  Scaffolding.withContext "Failed to write main.inf: " (some (mainPath projectPath))
    (ask (.write (mainPath projectPath) (.text mainInfContent)))
  Scaffolding.withContext "Failed to create tests directory: " (some (testsDir projectPath))
    (createDirAll (testsDir projectPath))
  Scaffolding.withContext "Failed to create proofs directory: " (some (proofsDir projectPath))
    (createDirAll (proofsDir projectPath))

def writeGitFiles (projectPath : Path OsName) : Scaffolding Unit := do
  Scaffolding.withContext "Failed to write tests/.gitkeep" none
    (ask (.write (gitkeep (testsDir projectPath)) (.text [])))
  Scaffolding.withContext "Failed to write proofs/.gitkeep" none
    (ask (.write (gitkeep (proofsDir projectPath)) (.text [])))
  Scaffolding.withContext "Failed to write .gitignore: " (some (gitignorePath projectPath))
    (ask (.write (gitignorePath projectPath) (.text gitignoreContent)))

/-- The part of `create_project` behind its test. -/
def createFiles (tools : ScaffoldTools) (projectPath : Path OsName) (name : List Char)
    (initGit : Bool) : Scaffolding (Path OsName) := do
  Scaffolding.withContext "Failed to create project directory: " (some projectPath)
    (createDirAll projectPath)
  writeProjectFiles tools projectPath name
  if initGit then
    writeGitFiles projectPath
    (liftM (tools.gitInit projectPath) : Scaffolding Unit)
  return projectPath

/-- A valid name is joined as one component. -/
def projectPathOf (name : List Char) (parentPath : Option (Path OsName)) : Path OsName :=
  (parentPath.getD currentDirectory).joinName (.text name)

def createProject (tools : ScaffoldTools) (name : List Char) (parentPath : Option (Path OsName))
    (initGit : Bool) : Scaffolding (Path OsName) := do
  Scaffolding.ofResult (validateProjectName name)
  let projectPath := projectPathOf name parentPath
  if ← (liftM (pathExists projectPath : Asking Bool) : Scaffolding Bool) then
    throw (.alreadyExists "Directory '" projectPath
      "' already exists. Choose a different name or delete the existing directory.")
  createFiles tools projectPath name initGit

/-- `canonicalize` -/
def canonicalize (cwd : Location OsName) (tree : Tree OsName FileContent)
    (path : Path OsName) : Except ErrorKind (Location OsName) := do
  let location ← resolve cwd tree true path
  match tree.get location with
  | none => .error .notFound
  | some _ => .ok location

/-- The last name of a canonical path, if it is UTF-8. -/
def inferProjectName (path : Path OsName) (canonical : Except ErrorKind (Location OsName)) :
    Except ScaffoldError (List Char) :=
  match canonical with
  | .error cause => .error (.context "Failed to resolve directory path: " (some path) cause)
  | .ok location =>
      match location.getLast? with
      | some (.text name) => .ok name
      | _ => .error .unnamedDirectory

/-- A file that is written where none is. -/
def writeIfMissing (message : String) (shown : Option (Path OsName)) (path : Path OsName)
    (content : List Char) : Scaffolding Unit := do
  if !(← (liftM (pathExists path : Asking Bool) : Scaffolding Bool)) then
    Scaffolding.withContext message shown (ask (.write path (.text content)))

/-- A `.gitkeep` with its directory, where none is. -/
def keepIfMissing (directoryMessage message : String) (directory : Path OsName) :
    Scaffolding Unit := do
  if !(← (liftM (pathExists (gitkeep directory) : Asking Bool) : Scaffolding Bool)) then
    Scaffolding.withContext directoryMessage none (createDirAll directory)
    Scaffolding.withContext message none (ask (.write (gitkeep directory) (.text [])))

def writeGitFilesIfMissing (projectPath : Path OsName) : Scaffolding Unit := do
  keepIfMissing "Failed to create tests directory" "Failed to write tests/.gitkeep"
    (testsDir projectPath)
  keepIfMissing "Failed to create proofs directory" "Failed to write proofs/.gitkeep"
    (proofsDir projectPath)
  writeIfMissing "Failed to write .gitignore" none (gitignorePath projectPath) gitignoreContent

/-- `write_to_file` -/
def writeToFile (tools : ScaffoldTools) (manifest : InferenceToml) (path : Path OsName) :
    Scaffolding Unit := do
  let content ← Scaffolding.ofResult (match tools.toStringPretty manifest with
    | some content => .ok content
    | none => .error .serialization)
  Scaffolding.withContext "Failed to write manifest: " (some path)
    (ask (.write path (.text content)))

def createSource (projectPath : Path OsName) : Scaffolding Unit := do
  Scaffolding.withContext "Failed to create src directory: " (some (srcDir projectPath))
    (createDirAll (srcDir projectPath))
  writeIfMissing "Failed to write main.inf: " (some (mainPath projectPath)) (mainPath projectPath)
    mainInfContent

/-- The part of `init_project` behind its test. -/
def initFiles (tools : ScaffoldTools) (projectPath : Path OsName) (projectName : List Char)
    (createSrc : Bool) : Scaffolding Unit := do
  writeToFile tools (.new tools.infcVersion projectName) (manifestPath projectPath)
  if createSrc then createSource projectPath
  if ← (liftM (pathExists (gitDir projectPath) : Asking Bool) : Scaffolding Bool) then
    writeGitFilesIfMissing projectPath

/-- The answer of `canonicalize`, which is asked first, is an argument. -/
def initProject (tools : ScaffoldTools) (canonical : Except ErrorKind (Location OsName))
    (path : Option (Path OsName)) (name : Option (List Char)) (createSrc : Bool) :
    Scaffolding Unit := do
  let projectPath := path.getD currentDirectory
  let projectName ← Scaffolding.ofResult (match name with
    | some name => .ok name
    | none => inferProjectName projectPath canonical)
  Scaffolding.ofResult (validateProjectName projectName)
  if ← (liftM (pathExists (manifestPath projectPath) : Asking Bool) : Scaffolding Bool) then
    throw (.alreadyExists "Inference.toml already exists in '" projectPath
      "'. This directory is already an Inference project.")
  initFiles tools projectPath projectName createSrc

end Inference.Infs
