import Mathlib.Data.Char
import Mathlib.Data.List.Lex
import Inference.Foundation.FileRequests
import Inference.WatFmt.Formatter

/-! # The directories of the toolchain manager

`ToolchainPaths` as programs over requests to a Unix file system: which versions are installed,
which one is the default, and the links to its binaries. A version is a text that is joined to a
path, so that it can also be empty, lead upwards, go through several directories or be absolute.
-/

namespace Inference.Infs

open Effects FileSystem

/-- The name of an entry, which need not be UTF-8. -/
inductive OsName
  | text (name : List Char)
  | bytes (raw : List UInt8)
  deriving DecidableEq, Repr

/-- What a file holds. -/
inductive FileContent
  | text (content : List Char)
  | bytes (raw : List UInt8)
  deriving DecidableEq, Repr

inductive Platform
  | linuxX64
  | macosArm64
  | windowsX64
  deriving DecidableEq, Repr

def Platform.executableExtension : Platform → List Char
  | .windowsX64 => ['.', 'e', 'x', 'e']
  | .linuxX64 | .macosArm64 => []

/-- The errors of the toolchain manager. -/
inductive InfsError
  | context (message : String) (path : Path OsName) (cause : ErrorKind)
  | unsupportedPlatform
  | notInstalled (version : List Char)
  | sourceBinaryNotFound (source : Path OsName)
  | unreadableArchive (archive : Path OsName)
  | refusedPath (path : Path OsName)

/-- A program that can only ask, and one that can also return an error. -/
abbrev Asking (α : Type) : Type := FileProgram OsName FileContent α

abbrev Installer (α : Type) : Type :=
  Program.Fallible (Request OsName FileContent) Answer InfsError α

/-- `with_context`, with the path that is shown in the message. -/
def withContext {α : Type} (message : String) (path : Path OsName)
    (asked : Asking (Except ErrorKind α)) : Installer α :=
  ExceptT.mk do
    match ← asked with
    | .ok value => return .ok value
    | .error cause => return .error (.context message path cause)

/-- `ok()`: an error is ignored. -/
def ignoringErrors {α : Type} (asked : Asking (Except ErrorKind α)) : Asking Unit := do
  let _ ← asked
  return ()

/-- One component of the text of a path. -/
def parseComponent (text : List Char) : Component OsName :=
  if text = ['.'] then .current
  else if text = ['.', '.'] then .parent
  else .named (.text text)

/-- A text as a path. Repeated separators count once. -/
def parsePath (text : List Char) : Path OsName :=
  { absolute := text.head? = some '/'
    components := ((text.splitOn '/').filter fun part => !part.isEmpty).map parseComponent
    trailing := text.getLast? = some '/' }

/-- `str::trim` -/
def trim (text : List Char) : List Char :=
  ((text.dropWhile WatFmt.isWhitespace).reverse.dropWhile WatFmt.isWhitespace).reverse

def textName (name : String) : OsName := .text name.toList

structure ToolchainPaths where
  root : Path OsName
  toolchains : Path OsName
  bin : Path OsName
  downloads : Path OsName

namespace ToolchainPaths

def managedBinaries : List (List Char) :=
  ["infc".toList, "inf-llc".toList, "rust-lld".toList]

def withRoot (root : Path OsName) : ToolchainPaths :=
  { toolchains := root.joinName (textName "toolchains")
    bin := root.joinName (textName "bin")
    downloads := root.joinName (textName "downloads")
    root := root }

variable (paths : ToolchainPaths)

def toolchainDir (version : List Char) : Path OsName :=
  paths.toolchains.join (parsePath version)

def toolchainBinDir (version : List Char) : Path OsName :=
  (paths.toolchainDir version).joinName (textName "bin")

def defaultFile : Path OsName :=
  paths.root.joinName (textName "default")

def symlinkPath (binary : List Char) : Path OsName :=
  paths.bin.joinName (.text binary)

def isVersionInstalled (version : List Char) : Asking Bool :=
  pathExists (paths.toolchainDir version)

/-- `read_to_string` -/
def readToString (path : Path OsName) : Asking (Except ErrorKind (List Char)) := do
  match ← ask (.read path) with
  | .ok (.text content) => return .ok content
  | .ok (.bytes _) => return .error .invalidData
  | .error cause => return .error cause

def getDefaultVersion : Installer (Option (List Char)) := do
  if ← (pathExists paths.defaultFile : Asking Bool) then
    let content ← withContext "Failed to read default version from " paths.defaultFile
      (readToString paths.defaultFile)
    return if trim content = [] then none else some (trim content)
  else return none

def setDefaultVersion (version : List Char) : Installer Unit := do
  withContext "Failed to create directory: " paths.root (createDirAll paths.root)
  withContext "Failed to write default version to " paths.defaultFile
    (ask (.write paths.defaultFile (.text version)))

/-- The entries of the toolchains directory that are directories, as far as their names are
UTF-8. -/
def listDirectories : List OsName → Asking (List (List Char))
  | [] => return []
  | entry :: entries => do
      let isDir ← isKind .dir (paths.toolchains.joinName entry)
      let versions ← listDirectories entries
      match entry with
      | .text name => return if isDir then name :: versions else versions
      | .bytes _ => return versions

def listInstalledVersions : Installer (List (List Char)) := do
  if ← (pathExists paths.toolchains : Asking Bool) then
    let entries ← withContext "Failed to read toolchains directory: " paths.toolchains
      (ask (.readDir paths.toolchains))
    let versions ← paths.listDirectories entries
    return versions.mergeSort fun version version' => decide (version ≤ version')
  else return []

/-- A binary is looked for in `bin/` first. -/
def binaryPath (version binary : List Char) : Asking (Path OsName) := do
  let binPath := (paths.toolchainBinDir version).joinName (.text binary)
  if ← pathExists binPath then return binPath
  else
    let rootPath := (paths.toolchainDir version).joinName (.text binary)
    if ← pathExists rootPath then return rootPath else return binPath

def createLink (source target : Path OsName) : Installer Unit :=
  withContext "Failed to create symlink from " target (ask (.symlink source target))

def createSymlink (version binary : List Char) : Installer Unit := do
  let source ← paths.binaryPath version binary
  let target := paths.symlinkPath binary
  if ← (pathExists source : Asking Bool) then
    if ← (pathExists target : Asking Bool) then
      withContext "Failed to remove existing symlink: " target (ask (.removeFile target))
      createLink source target
    else createLink source target
  else throw (InfsError.sourceBinaryNotFound source)

/-- A broken link is found too. -/
def removeSymlink (binary : List Char) : Installer Unit := do
  let target := paths.symlinkPath binary
  match ← (ask (.symlinkMetadata target) : Asking (Except ErrorKind Kind)) with
  | .ok _ => withContext "Failed to remove symlink: " target (ask (.removeFile target))
  | .error _ => return ()

section Links

variable (platform : Option Platform)

def detect : Installer Platform :=
  match platform with
  | some platform => return platform
  | none => throw .unsupportedPlatform

/-- The file names of the managed binaries. -/
def binaries (platform : Platform) : List (List Char) :=
  managedBinaries.map fun name => name ++ platform.executableExtension

def updateSymlinks (version : List Char) : Installer Unit := do
  let platform ← detect platform
  withContext "Failed to create bin directory: " paths.bin (createDirAll paths.bin)
  (binaries platform).forM fun binary => paths.createSymlink version binary

def removeSymlinks : Installer Unit := do
  let platform ← detect platform
  (binaries platform).forM fun binary => paths.removeSymlink binary

/-- The binaries whose link is there and leads to nothing. -/
def brokenLinks : List (List Char) → Asking (List (List Char))
  | [] => return []
  | binary :: rest => do
      match ← ask (.symlinkMetadata (paths.symlinkPath binary)) with
      | .ok _ =>
          let leads ← pathExists (paths.symlinkPath binary)
          let broken ← brokenLinks rest
          return if leads then broken else binary :: broken
      | .error _ => brokenLinks rest

def validateSymlinks : Asking (List (List Char)) :=
  match platform with
  | some platform => paths.brokenLinks (binaries platform)
  | none => return []

def repairSymlinks : Installer Unit := do
  let broken ← paths.validateSymlinks platform
  if broken = [] then return ()
  else
    match ← paths.getDefaultVersion with
    | some version =>
        if ← paths.isVersionInstalled version then paths.updateSymlinks platform version
        else paths.removeSymlinks platform
    | none => paths.removeSymlinks platform

end Links

end ToolchainPaths

/-- `uninstall::execute` -/
def uninstall (paths : ToolchainPaths) (platform : Option Platform) (version : List Char) :
    Installer Unit := do
  if ← paths.isVersionInstalled version then
    let defaultVersion ← paths.getDefaultVersion
    withContext "Failed to remove toolchain directory: " (paths.toolchainDir version)
      (ask (.removeDirAll (paths.toolchainDir version)))
    if defaultVersion = some version then
      let remainingVersions ← paths.listInstalledVersions
      match remainingVersions.getLast? with
      | none =>
          let _ ← ignoringErrors (ask (.removeFile paths.defaultFile))
          paths.removeSymlinks platform
      | some newDefault =>
          paths.setDefaultVersion newDefault
          paths.updateSymlinks platform newDefault
    else
      let broken ← paths.validateSymlinks platform
      if broken = [] then return ()
      else paths.repairSymlinks platform
  else throw (.notInstalled version)

end Inference.Infs
