import Inference.Infs.ToolchainPaths

/-! # Extracting archives

An archive is what the tar and zip readers make of a file, an entry after the other, and any entry
can be unreadable. How tar unpacks one entry at a path is a program that this model is given. A common
root folder of all entries is stripped, and a lone tar.gz that a zip has left behind is extracted
too.
-/

namespace Inference.Infs

open Effects FileSystem

inductive EntryType
  | directory
  | regular (content : FileContent)
  | symlink (target : Path OsName)
  | hardLink (source : Path OsName)

/-- Whether unpacking the entry makes a link. -/
def EntryType.isLink : EntryType → Bool
  | .symlink _ | .hardLink _ => true
  | _ => false

/-- The path is missing when it cannot be read. -/
structure TarEntry where
  path : Option (Path OsName)
  entryType : EntryType

/-- The name is missing when it is not enclosed. -/
structure ZipEntry where
  enclosedName : Option (Path OsName)
  isDir : Bool
  content : FileContent

/-- The readers of archives and the way tar unpacks an entry. `none` stands for an error. -/
structure ArchiveReaders where
  readTar : FileContent → Option (List (Option TarEntry))
  readZip : FileContent → Option (List (Option ZipEntry))
  unpack : TarEntry → Path OsName → Asking (Except ErrorKind Unit)

/-- The components of a path without its root. Only in front of a relative path, a `.` counts. -/
def pathComponents (path : Path OsName) : List (Component OsName) :=
  match path.absolute, path.components with
  | false, .current :: rest => .current :: rest.filter fun component => !component.isCurrent
  | _, components => components.filter fun component => !component.isCurrent

/-- The number of components, the root included. -/
def componentCount (path : Path OsName) : Nat :=
  (if path.absolute then 1 else 0) + (pathComponents path).length

/-- The root or the first component, as a path. -/
def firstComponent (path : Path OsName) : Option (Path OsName) :=
  if path.absolute then some ⟨true, [], false⟩
  else (pathComponents path).head?.map fun component => ⟨false, [component], false⟩

/-- `strip_prefix`, for a prefix of one component. -/
def stripPrefix (path root : Path OsName) : Option (Path OsName) :=
  if firstComponent path = some root then
    some ⟨false, if path.absolute then pathComponents path else (pathComponents path).tail, false⟩
  else none

/-- Paths with a parent directory reference, and absolute ones. -/
def isRefused (path : Path OsName) : Bool :=
  path.absolute || path.components.contains .parent

/-- Where an entry goes, relative to the destination. The root folder itself goes nowhere. -/
def relativePath (root : Option (Path OsName)) (path : Path OsName) : Option (Path OsName) :=
  match root with
  | none => some path
  | some root =>
      match stripPrefix path root with
      | none => some path
      | some rest => if rest.components = [] then none else some rest

/-- The first component that all paths share so far, and whether one of them has several. -/
structure CommonRoot where
  root : Option (Path OsName)
  nested : Bool

def CommonRoot.start : CommonRoot := ⟨none, false⟩

/-- `none` when the path has another root. -/
def CommonRoot.add (common : CommonRoot) (path : Path OsName) : Option CommonRoot :=
  let nested := common.nested || componentCount path > 1
  match firstComponent path, common.root with
  | none, root => some ⟨root, nested⟩
  | some first, none => some ⟨some first, nested⟩
  | some first, some existing => if existing = first then some ⟨some existing, nested⟩ else none

/-- The root counts only when entries are nested in it. -/
def CommonRoot.kept (common : CommonRoot) : Option (Path OsName) :=
  if common.nested then common.root else none

/-- Stops where the roots differ, so that an unreadable entry behind is not noticed. -/
def findCommonRootFolderTar : List (Option TarEntry) → CommonRoot → Except Unit (Option (Path OsName))
  | [], common => .ok common.kept
  | some entry :: entries, common =>
      match entry.path with
      | none => .error ()
      | some path =>
          match common.add path with
          | none => .ok none
          | some common => findCommonRootFolderTar entries common
  | none :: _, _ => .error ()

/-- An entry without a usable name means that there is no root. -/
def findCommonRootFolder : List (Option ZipEntry) → CommonRoot → Option (Path OsName)
  | [], common => common.kept
  | some entry :: entries, common =>
      match entry.enclosedName with
      | none => none
      | some path =>
          if (firstComponent path).isNone then none
          else
            match common.add path with
            | none => none
            | some common => findCommonRootFolder entries common
  | none :: _, _ => none

section Extracting

variable (readers : ArchiveReaders)

def readArchive {α : Type} (reader : FileContent → Option α) (archive : Path OsName) :
    Installer α := do
  let content ← withContext "Failed to open archive: " archive (ask (.read archive))
  match reader content with
  | some entries => return entries
  | none => throw (.unreadableArchive archive)

/-- Directories are created, other entries are unpacked in their parent directory. -/
def extractTarEntry (destDir : Path OsName) (root : Option (Path OsName)) (entry : TarEntry)
    (path : Path OsName) : Installer Unit := do
  if isRefused path then throw (.refusedPath path)
  else
    match relativePath root path with
    | none => return ()
    | some relative =>
        let outputPath := destDir.join relative
        match entry.entryType with
        | .directory =>
            withContext "Failed to create directory: " outputPath (createDirAll outputPath)
        | _ =>
            match outputPath.parent with
            | some parent =>
                withContext "Failed to create directory: " parent (createDirAll parent)
                withContext "Failed to extract: " outputPath (readers.unpack entry outputPath)
            | none => withContext "Failed to extract: " outputPath (readers.unpack entry outputPath)

def extractTarEntries (destDir archive : Path OsName) (root : Option (Path OsName)) :
    List (Option TarEntry) → Installer Unit
  | [] => return ()
  | some entry :: entries => do
      match entry.path with
      | some path =>
          extractTarEntry readers destDir root entry path
          extractTarEntries destDir archive root entries
      | none => throw (.unreadableArchive archive)
  | none :: _ => throw (.unreadableArchive archive)

def extractTarGz (archive destDir : Path OsName) : Installer Unit := do
  withContext "Failed to create directory: " destDir (createDirAll destDir)
  let listed ← readArchive readers.readTar archive
  match findCommonRootFolderTar listed .start with
  | .error () => throw (.unreadableArchive archive)
  | .ok root =>
      let entries ← readArchive readers.readTar archive
      extractTarEntries readers destDir archive root entries

def extractZipEntry (destDir : Path OsName) (root : Option (Path OsName)) (entry : ZipEntry)
    (path : Path OsName) : Installer Unit := do
  if isRefused path then throw (.refusedPath path)
  else
    match relativePath root path with
    | none => return ()
    | some relative =>
        let outputPath := destDir.join relative
        let create : Installer Unit := withContext "Failed to create file: " outputPath
          (ask (.write outputPath entry.content))
        if entry.isDir then
          withContext "Failed to create directory: " outputPath (createDirAll outputPath)
        else
          match outputPath.parent with
          | some parent =>
              withContext "Failed to create directory: " parent (createDirAll parent)
              create
          | none => create

def extractZipEntries (destDir archive : Path OsName) (root : Option (Path OsName)) :
    List (Option ZipEntry) → Installer Unit
  | [] => return ()
  | some entry :: entries => do
      match entry.enclosedName with
      | some path =>
          extractZipEntry destDir root entry path
          extractZipEntries destDir archive root entries
      | none => throw (.unreadableArchive archive)
  | none :: _ => throw (.unreadableArchive archive)

def endsWith {α : Type} [BEq α] (name ending : List α) : Bool :=
  ending.isSuffixOf name

def asciiBytes (text : String) : List UInt8 :=
  text.toList.map fun c => c.toNat.toUInt8

/-- Files that go with an archive: checksums and hidden files. -/
def isMetaFile : OsName → Bool
  | .text name => endsWith name ".sha256".toList || name.head? = some '.'
  | .bytes raw => endsWith raw (asciiBytes ".sha256") || raw.head? = some 0x2e

def isTarGz : OsName → Bool
  | .text name => endsWith name ".tar.gz".toList
  | .bytes _ => false

/-- `with_extension("gz.sha256")`, for a name that ends in `.tar.gz`. -/
def checksumName : OsName → OsName
  | .text name => .text (name.dropLast.dropLast ++ "gz.sha256".toList)
  | .bytes raw => .bytes raw

def extractNestedTarGzIfPresent (destDir : Path OsName) : Installer Unit := do
  let entries ← withContext "Failed to read directory: " destDir (ask (.readDir destDir))
  match entries.filter isTarGz, entries.filter fun entry => !isMetaFile entry with
  | [tarGz], [_] =>
      let tarGzPath := destDir.joinName tarGz
      extractTarGz readers tarGzPath destDir
      let _ ← ignoringErrors (ask (.removeFile tarGzPath))
      let sha256Path := destDir.joinName (checksumName tarGz)
      if ← (pathExists sha256Path : Asking Bool) then
        ignoringErrors (ask (.removeFile sha256Path))
      else return ()
  | _, _ => return ()

def extractZip (archive destDir : Path OsName) : Installer Unit := do
  let entries ← readArchive readers.readZip archive
  withContext "Failed to create directory: " destDir (createDirAll destDir)
  extractZipEntries destDir archive (findCommonRootFolder entries .start) entries
  extractNestedTarGzIfPresent readers destDir

def isTarArchive (archive : Path OsName) : Bool :=
  match archive.trailing, archive.components.getLast? with
  | false, some (.named (.text name)) =>
      endsWith name ".tar.gz".toList || endsWith name ".tgz".toList
  | false, some (.named (.bytes raw)) =>
      endsWith raw (asciiBytes ".tar.gz") || endsWith raw (asciiBytes ".tgz")
  | _, _ => false

def extractArchive (archive destDir : Path OsName) : Installer Unit :=
  if isTarArchive archive then extractTarGz readers archive destDir
  else extractZip readers archive destDir

end Extracting

end Inference.Infs
