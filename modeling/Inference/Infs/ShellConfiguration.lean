import Mathlib.Data.List.Infix
import Inference.Foundation.ShellWords
import Inference.Infs.ToolchainPaths

/-! # The search path of shells

`configure_path` finds the profile of the user's shell and appends the lines that add the toolchain
to the search path. What such lines do when the shell reads them, and what repeated runs leave in
the profile.
-/

namespace Inference.Infs

open Effects FileSystem Foundation.ShellWords Foundation.Utf8Text

/-- `INFERENCE_MARKER` -/
def inferenceMarker : List Char :=
  "# Inference toolchain".toList

inductive Shell
  | bash
  | zsh
  | fish
  deriving DecidableEq, Repr

/-- `str::replace` of one character -/
def replaceChar (sought : Char) (replacement text : List Char) : List Char :=
  text.flatMap fun c => if c = sought then replacement else [c]

/-- `file_name` -/
def fileName (path : Path OsName) : Option OsName :=
  match (Path.trim path.absolute path.components).getLast? with
  | some (.named name) => some name
  | _ => none

/-- `display` -/
def displayPath (path : Path OsName) : List Char :=
  let shown (component : Component OsName) : List Char :=
    match component with
    | .current => ['.']
    | .parent => ['.', '.']
    | .named (.text name) => name
    | .named (.bytes raw) => toStringLossy raw
  (if path.absolute then ['/'] else []) ++ List.intercalate ['/'] (path.components.map shown) ++
    (if path.trailing then ['/'] else [])

namespace Shell

def fromPath (path : List Char) : Option Shell :=
  match fileName (parsePath path) with
  | some (.text name) =>
      if name = "bash".toList then some .bash
      else if name = "zsh".toList then some .zsh
      else if name = "fish".toList then some .fish
      else none
  | _ => none

def profileCandidates (shell : Shell) (homeDir : Path OsName) : List (Path OsName) :=
  match shell with
  | .bash => [homeDir.joinName (textName ".bashrc"), homeDir.joinName (textName ".bash_profile")]
  | .zsh => [homeDir.joinName (textName ".zshrc")]
  | .fish => [((homeDir.joinName (textName ".config")).joinName (textName "fish")).joinName
      (textName "config.fish")]

/-- The characters that make `path_config` quote a path for fish. -/
def quotedCharacters : List Char :=
  [' ', '$', '\\', '\'', '*', '?', '(', ')', '[', ']', '\x7b', '\x7d']

def needsQuotes (path : List Char) : Bool :=
  quotedCharacters.any fun c => path.contains c

def escapedPath (path : List Char) : List Char :=
  replaceChar '"' ['\\', '"'] (replaceChar '`' ['\\', '`'] (replaceChar '$' ['\\', '$']
    (replaceChar '\\' ['\\', '\\'] path)))

def formattedPath (path : List Char) : List Char :=
  if needsQuotes path then ['\''] ++ replaceChar '\'' ['\\', '\''] path ++ ['\''] else path

/-- The lines that are appended to the profile. The path is bytes, which need not be a text. -/
def pathConfig (shell : Shell) (binPath : List UInt8) : List Char :=
  match shell with
  | .bash | .zsh =>
      ['\n'] ++ inferenceMarker ++ "\nexport PATH=\"".toList ++
        escapedPath (toStringLossy binPath) ++ ":$PATH\"\n".toList
  | .fish =>
      ['\n'] ++ inferenceMarker ++ "\nfish_add_path ".toList ++
        formattedPath (toStringLossy binPath) ++ ['\n']

def sourceCommand (profilePath : Path OsName) : List Char :=
  "source ".toList ++ displayPath profilePath

end Shell

inductive ConfigureResult
  | added (profile : Path OsName) (sourceCommand : List Char)
  | alreadyConfigured (profile : Path OsName)
  | noProfileFound
  | shellNotDetected

/-- What a run finds in its environment: the variable `SHELL`, if it is a text, and the home
directory. -/
structure UserEnvironment where
  shellVariable : Option (List Char)
  homeDir : Option (Path OsName)

/-! ## Requests to the profile -/

/-- A file that is opened for appending is known by its inode. -/
inductive ProfileRequest
  | metadata (path : Path OsName)
  | read (path : Path OsName)
  | openForAppending (path : Path OsName)
  | writeAll (file : FileSystem.Inode) (content : List UInt8)

abbrev ProfileTree := Tree OsName (List UInt8)

namespace ProfileRequest

@[reducible] def Result : ProfileRequest → Type
  | .metadata _ => Kind
  | .read _ => List UInt8
  | .openForAppending _ => FileSystem.Inode
  | .writeAll _ _ => Unit

abbrev Answer (request : ProfileRequest) : Type :=
  Except ErrorKind request.Result

variable (cwd : Location OsName)

/-- A file that is missing is created. -/
def openFile (tree : ProfileTree) (path : Path OsName) :
    Answer (.openForAppending path) × ProfileTree :=
  match resolve cwd tree true path with
  | .error error => (.error error, tree)
  | .ok location =>
      match tree.get location with
      | none => (.ok tree.freshInode, tree.create location [])
      | some (.file inode) => (.ok inode, tree)
      | some _ => (.error .isADirectory, tree)

def perform : (request : ProfileRequest) → ProfileTree → Answer request × ProfileTree
  | .metadata path, tree => (FileSystem.metadata cwd tree true path, tree)
  | .read path, tree => (readFile cwd tree path, tree)
  | .openForAppending path, tree => openFile cwd tree path
  | .writeAll file content, tree =>
      (.ok (), tree.setContents file (tree.contents file ++ content))

/-- What a request that fails may leave: the beginning of what was to be written. -/
inductive Interrupted (tree : ProfileTree) : ProfileRequest → ProfileTree → Prop
  | untouched : Interrupted tree request tree
  | partly (begins : front <+: content) (unfinished : front ≠ content) :
      Interrupted tree (.writeAll file content)
        (tree.setContents file (tree.contents file ++ front))

def answers : Semantics ProfileRequest Answer ProfileTree :=
  fun request tree answer tree' =>
    perform cwd request tree = (answer, tree') ∨
      answer = .error .other ∧ Interrupted tree request tree'

end ProfileRequest

/-! ## The program -/

abbrev Profiling (α : Type) : Type :=
  Program ProfileRequest ProfileRequest.Answer α

abbrev Configurer (α : Type) : Type :=
  Program.Fallible ProfileRequest ProfileRequest.Answer InfsError α

def inProfile {α : Type} (message : String) (path : Path OsName)
    (asked : Profiling (Except ErrorKind α)) : Configurer α :=
  ExceptT.mk do
    match ← asked with
    | .ok value => return .ok value
    | .error cause => return .error (.context message path cause)

def findExistingProfile : List (Path OsName) → Profiling (Option (Path OsName))
  | [] => return none
  | candidate :: candidates => do
      let answer ← Program.request (.metadata candidate)
      if answer.isOk then return some candidate else findExistingProfile candidates

/-- Bytes that are read as a text. -/
def asText (bytes : List UInt8) : Except ErrorKind (List Char) :=
  match decode bytes with
  | some text => .ok text
  | none => .error .invalidData

/-- `read_to_string` -/
def readProfile (path : Path OsName) : Profiling (Except ErrorKind (List Char)) := do
  let answer : Except ErrorKind (List UInt8) ← Program.request (ProfileRequest.read path)
  return answer.bind asText

def isPathConfigured (profilePath : Path OsName) : Configurer Bool := do
  let content ← inProfile "Failed to read profile: " profilePath (readProfile profilePath)
  return decide (inferenceMarker <:+: content)

def appendToFile (path : Path OsName) (content : List Char) : Configurer Unit := do
  let file ← inProfile "Failed to open profile for writing: " path
    (Program.request (ProfileRequest.openForAppending path))
  inProfile "Failed to write to profile: " path
    (Program.request (ProfileRequest.writeAll file (encode content)))

def configurePath (environment : UserEnvironment) (binPath : List UInt8) :
    Configurer ConfigureResult := do
  match environment.shellVariable.bind Shell.fromPath with
  | none => return .shellNotDetected
  | some shell =>
      match environment.homeDir with
      | none => return .noProfileFound
      | some homeDir =>
          match ← (findExistingProfile (shell.profileCandidates homeDir) : Profiling _) with
          | none => return .noProfileFound
          | some profilePath =>
              if ← isPathConfigured profilePath then return .alreadyConfigured profilePath
              else
                appendToFile profilePath (shell.pathConfig binPath)
                return .added profilePath (Shell.sourceCommand profilePath)

end Inference.Infs
