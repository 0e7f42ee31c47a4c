import Inference.Foundation.Effects
import Inference.Foundation.FileSystem
import Mathlib.Data.List.DropRight

/-! # Requests to the file system

What the file functions of a standard library do to a tree of files, as requests of a program. A
request has one answer when nothing hinders it. It may also fail, and leave part of its work.
-/

namespace Inference.FileSystem

open Effects

inductive Kind
  | dir
  | file
  | link
  deriving DecidableEq, Repr

def Node.kind {Name : Type} : Node Name → Kind
  | .dir => .dir
  | .file _ => .file
  | .link _ => .link

inductive Request (Name Content : Type)
  | metadata (path : Path Name)
  | symlinkMetadata (path : Path Name)
  | read (path : Path Name)
  | readDir (path : Path Name)
  | createDir (path : Path Name)
  | write (path : Path Name) (written : Content)
  | removeFile (path : Path Name)
  | removeDirAll (path : Path Name)
  | symlink (original link : Path Name)
  | hardLink (original link : Path Name)
  | rename (source target : Path Name)
  | setPermissions (path : Path Name)

variable {Name Content : Type}

@[reducible] def Request.Result : Request Name Content → Type
  | .metadata _ | .symlinkMetadata _ => Kind
  | .read _ => Content
  | .readDir _ => List Name
  | _ => Unit

abbrev Answer (request : Request Name Content) : Type :=
  Except ErrorKind request.Result

variable [DecidableEq Name]

section Performing

variable (cwd : Location Name) (tree : Tree Name Content)

def createDir (path : Path Name) : Except ErrorKind (Tree Name Content) := do
  let location ← resolve cwd tree false { path with trailing := false }
  match tree.get location with
  | none => .ok (tree.set location .dir)
  | some _ => .error .alreadyExists

/-- A link is followed, also to create the file it leads to. -/
def writeFile (path : Path Name) (written : Content) : Except ErrorKind (Tree Name Content) := do
  let location ← resolve cwd tree true path
  match tree.get location with
  | none => .ok (tree.create location written)
  | some (.file inode) => .ok (tree.setContents inode written)
  | some _ => .error .isADirectory

def removeFile (path : Path Name) : Except ErrorKind (Tree Name Content) := do
  let location ← resolve cwd tree false path
  match tree.get location with
  | none => .error .notFound
  | some .dir => .error .isADirectory
  | some _ => .ok (tree.erase fun other => other = location)

/-- An empty directory can be removed under its name, not as `.` or `..`. -/
def removeDir (path : Path Name) : Except ErrorKind (Tree Name Content) := do
  let location ← resolve cwd tree false { path with trailing := false }
  match path.components.getLast? with
  | some (.named _) =>
      match tree.get location with
      | none => .error .notFound
      | some .dir =>
          if tree.children location = [] then .ok (tree.erase fun other => other = location)
          else .error .directoryNotEmpty
      | some _ => .error .notADirectory
  | some .current => .error .invalidInput
  | some .parent => .error .directoryNotEmpty
  | none => .error .other

/-- Whether the other location is further down. -/
def below (location other : Location Name) : Bool :=
  location.isPrefixOf other && other ≠ location

/-- A link is removed, not what it leads to. A directory is emptied before it is removed; that it is
gone then already is no error. -/
def removeDirAll (path : Path Name) : Except ErrorKind Unit × Tree Name Content :=
  match resolve cwd tree false path with
  | .error error => (.error error, tree)
  | .ok location =>
      match tree.get location with
      | none => (.error .notFound, tree)
      | some (.link _) => (.ok (), tree.erase fun other => other = location)
      | some (.file _) => (.error .notADirectory, tree)
      | some .dir =>
          let emptied := tree.erase (below location)
          match removeDir cwd emptied path with
          | .ok removed => (.ok (), removed)
          | .error .notFound => (.ok (), emptied)
          | .error error => (.error error, emptied)

def symlink (original link : Path Name) : Except ErrorKind (Tree Name Content) := do
  let location ← resolve cwd tree false link
  match tree.get location with
  | none => .ok (tree.set location (.link original))
  | some _ => .error .alreadyExists

/-- The second name is one more entry of the same file, or a copy of a link. -/
def hardLink (original link : Path Name) : Except ErrorKind (Tree Name Content) := do
  let source ← resolve cwd tree false original
  let location ← resolve cwd tree false link
  match tree.get source, tree.get location with
  | none, _ => .error .notFound
  | some .dir, _ => .error .other
  | some node, none => .ok (tree.set location node)
  | some _, some _ => .error .alreadyExists

/-- Files and links are renamed, not directories. What the new name stood for is replaced. -/
def rename (source target : Path Name) : Except ErrorKind (Tree Name Content) := do
  let old ← resolve cwd tree false source
  let new ← resolve cwd tree false target
  match tree.get old, tree.get new with
  | none, _ => .error .notFound
  | some .dir, _ => .error .other
  | some _, some .dir => .error .isADirectory
  | some node, replaced =>
      .ok (if old = new || (some node = replaced && node.kind = .file) then tree
        else (tree.erase fun other => other = old).set new node)

def metadata (follow : Bool) (path : Path Name) : Except ErrorKind Kind := do
  let location ← resolve cwd tree follow path
  match tree.get location with
  | none => .error .notFound
  | some node => .ok node.kind

def readFile (path : Path Name) : Except ErrorKind Content := do
  let location ← resolve cwd tree true path
  match tree.get location with
  | none => .error .notFound
  | some (.file inode) => .ok (tree.contents inode)
  | some _ => .error .isADirectory

def readDir (path : Path Name) : Except ErrorKind (List Name) := do
  let location ← resolve cwd tree true path
  match tree.get location with
  | none => .error .notFound
  | some .dir => .ok (tree.children location)
  | some _ => .error .notADirectory

/-- The tree that a change leaves, or the old one where it fails. -/
def changed (result : Except ErrorKind (Tree Name Content)) :
    Except ErrorKind Unit × Tree Name Content :=
  match result with
  | .ok tree' => (.ok (), tree')
  | .error error => (.error error, tree)

end Performing

/-- The answer to a request that nothing hinders, and the tree it leaves. -/
def perform (cwd : Location Name) : (request : Request Name Content) →
    (tree : Tree Name Content) → Answer request × Tree Name Content
  | .metadata path, tree => (metadata cwd tree true path, tree)
  | .symlinkMetadata path, tree => (metadata cwd tree false path, tree)
  | .read path, tree => (readFile cwd tree path, tree)
  | .readDir path, tree => (readDir cwd tree path, tree)
  | .createDir path, tree => changed tree (createDir cwd tree path)
  | .write path written, tree => changed tree (writeFile cwd tree path written)
  | .removeFile path, tree => changed tree (removeFile cwd tree path)
  | .removeDirAll path, tree => removeDirAll cwd tree path
  | .symlink original link, tree => changed tree (symlink cwd tree original link)
  | .hardLink original link, tree => changed tree (hardLink cwd tree original link)
  | .rename source target, tree => changed tree (rename cwd tree source target)
  | .setPermissions path, tree => ((metadata cwd tree true path).map fun _ => (), tree)

/-- What a request that fails on the way may leave: part of a file, or of a directory. -/
inductive Interrupted (cwd : Location Name) (tree : Tree Name Content) :
    Request Name Content → Tree Name Content → Prop
  | untouched : Interrupted cwd tree request tree
  | created (resolved : resolve cwd tree true path = .ok location)
      (absent : tree.get location = none) (partly : Content) :
      Interrupted cwd tree (.write path written) (tree.create location partly)
  | overwritten (resolved : resolve cwd tree true path = .ok location)
      (isFile : tree.get location = some (.file inode)) (partly : Content) :
      Interrupted cwd tree (.write path written) (tree.setContents inode partly)
  | emptied (resolved : resolve cwd tree false path = .ok location)
      (isDir : tree.get location = some .dir) (gone : Location Name → Bool)
      (inside : ∀ other, gone other = true → below location other = true) :
      Interrupted cwd tree (.removeDirAll path) (tree.erase gone)

/-- The answers a request may have. -/
def answers (cwd : Location Name) :
    Semantics (Request Name Content) Answer (Tree Name Content) :=
  fun request tree answer tree' =>
    perform cwd request tree = (answer, tree') ∨
      answer = .error .other ∧ Interrupted cwd tree request tree'

/-! ## Programs -/

abbrev FileProgram (Name Content α : Type) : Type :=
  Program (Request Name Content) Answer α

def ask (request : Request Name Content) : FileProgram Name Content (Answer request) :=
  Program.request request

section Programs

omit [DecidableEq Name]

/-- `exists`: an error counts as absence. -/
def pathExists (path : Path Name) : FileProgram Name Content Bool := do
  let answer ← ask (.metadata path)
  return answer.isOk

/-- `is_dir` and `is_file` -/
def isKind (kind : Kind) (path : Path Name) : FileProgram Name Content Bool := do
  let answer : Except ErrorKind Kind ← ask (.metadata path)
  match answer with
  | .ok found => return decide (found = kind)
  | .error _ => return false

/-- Components without those that are `.` at the end. In front, a `.` counts in a relative path. -/
def Path.trim (absolute : Bool) (components : List (Component Name)) : List (Component Name) :=
  match components.rdropWhile Component.isCurrent, components with
  | [], .current :: _ => if absolute then [] else [.current]
  | kept, _ => kept

def Path.parent (path : Path Name) : Option (Path Name) :=
  match Path.trim path.absolute path.components with
  | [] => none
  | components => some ⟨path.absolute, Path.trim path.absolute components.dropLast, false⟩

/-- `create_dir_all`; the fuel is the number of components left. -/
def createDirAllFrom : Nat → Path Name → FileProgram Name Content (Except ErrorKind Unit)
  | 0, _ => return .error .other
  | fuel + 1, path =>
      if path.isEmpty then return .ok ()
      else do
        match ← ask (.createDir path) with
        | .ok () => return .ok ()
        | .error .notFound =>
            match path.parent with
            | none => return .error .other
            | some parent =>
                match ← createDirAllFrom fuel parent with
                | .error error => return .error error
                | .ok () =>
                    match ← ask (.createDir path) with
                    | .ok () => return .ok ()
                    | .error error =>
                        if ← isKind .dir path then return .ok () else return .error error
        | .error error => if ← isKind .dir path then return .ok () else return .error error

def createDirAll (path : Path Name) : FileProgram Name Content (Except ErrorKind Unit) :=
  createDirAllFrom (path.components.length + 2) path

end Programs

end Inference.FileSystem
