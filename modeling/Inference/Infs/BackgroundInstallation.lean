import Inference.Infs.Archive
import Inference.Infs.SharedDownloads
import Inference.Infs.TerminalApp

/-! # The installation in the background

The task that the terminal interface starts to install a version, as a program that sends messages
and asks the file system and the servers. It goes on whether its messages are received or not.
-/

namespace Inference.Infs

open Effects FileSystem

/-- What the stream of a download yields next. A chunk goes with the speed when it is reported. -/
inductive StreamItem
  | chunk (bytes : List UInt8) (speed : Option Nat)
  | failed

/-- The answer of a server that sends a file. -/
structure Response where
  contentLength : Nat
  stream : List StreamItem
  finalSpeed : Nat

inductive TaskRequest
  | file (request : Request OsName FileContent)
  | send (message : InstallProgress)
  | fetchArtifact (version : Option String) (platform : Platform)
  | get (url : List Char)

/-- Whether a message could be sent is not looked at. -/
@[reducible] def TaskRequest.Answer : TaskRequest → Type
  | .file request => FileSystem.Answer request
  | .send _ => Unit
  | .fetchArtifact _ _ => Option (String × FileEntry)
  | .get _ => Option Response

abbrev Background (α : Type) : Type :=
  Program TaskRequest TaskRequest.Answer α

/-- A part of the task that may end with the message of an error. -/
abbrev BackgroundPart (α : Type) : Type :=
  Program.Fallible TaskRequest TaskRequest.Answer String α

namespace Background

def send (message : InstallProgress) : Background Unit :=
  Program.request (TaskRequest.send message)

def phaseStarted (phase : String) : BackgroundPart Unit :=
  liftM (send (.phaseStarted phase))

def phaseCompleted (phase : String) : BackgroundPart Unit :=
  liftM (send (.phaseCompleted phase))

def ask (request : Request OsName FileContent) : Background (FileSystem.Answer request) :=
  Program.request (TaskRequest.file request)

/-- A program over files as a part of the task. -/
def files {α : Type} : Asking α → Background α
  | .done value => .done value
  | .ask request next => Program.ask (TaskRequest.file request) fun answer => files (next answer)

/-- `context`: the message replaces the error. -/
def orMessage {α ε : Type} (message : String) (asked : Background (Except ε α)) : BackgroundPart α :=
  ExceptT.mk do
    match ← asked with
    | .ok value => return .ok value
    | .error _ => return .error message

def installer {α : Type} (message : String) (program : Installer α) : BackgroundPart α :=
  orMessage message (files program.run)

end Background

open Background

/-! ## The download -/

/-- Writes what the stream yields to the temporary file. -/
def receiveStream (tempPath : Path OsName) : List UInt8 → List StreamItem → Background (Except Unit Nat)
  | received, [] => return .ok received.length
  | _, .failed :: _ => return .error ()
  | received, .chunk bytes speed :: rest => do
      let received := received ++ bytes
      match ← Background.ask (.write tempPath (.bytes received)) with
      | .error _ => return .error ()
      | .ok () =>
          match speed with
          | some speed => send (.downloadProgress received.length speed)
          | none => pure ()
          receiveStream tempPath received rest

def downloadWithCallback (url : List Char) (tempPath : Path OsName) : Background (Except Unit Unit) := do
  match ← (Program.request (TaskRequest.get url) : Background (Option Response)) with
  | none => return .error ()
  | some response =>
      send (.downloadStarted response.contentLength)
      match ← Background.ask (.write tempPath (.bytes [])) with
      | .error _ => return .error ()
      | .ok () =>
          match ← receiveStream tempPath [] response.stream with
          | .error () => return .error ()
          | .ok downloaded =>
              send (.downloadProgress downloaded response.finalSpeed)
              return .ok ()

/-- The attempts that are left. -/
def downloadAttempts (url : List Char) (tempPath dest : Path OsName) :
    Nat → Background (Except Unit Unit)
  | 0 => return .error ()
  | attempts + 1 => do
      match ← downloadWithCallback url tempPath with
      | .ok () =>
          match ← Background.ask (.rename tempPath dest) with
          | .ok () => return .ok ()
          | .error _ => return .error ()
      | .error () =>
          let _ ← Background.ask (.removeFile tempPath)
          downloadAttempts url tempPath dest attempts

def downloadFileWithCallback (url : List Char) (tempPath dest : Path OsName) :
    Background (Except Unit Unit) := do
  match dest.parent with
  | some parent =>
      match ← files (createDirAll parent) with
      | .ok () => downloadAttempts url tempPath dest maxRetries
      | .error _ => return .error ()
  | none => downloadAttempts url tempPath dest maxRetries

/-! ## The installation -/

/-- What the task meets besides the file system and the servers. -/
structure TaskSurroundings where
  platform : Option Platform
  paths : Option ToolchainPaths
  readers : ArchiveReaders
  sha256 : FileContent → List Char
  toLowercase : List Char → List Char
  infsMetadata : List Char
  toolchainMetadata : List Char

namespace ToolchainPaths

variable (paths : ToolchainPaths)

def infsMetadataPath : Path OsName :=
  paths.root.joinName (textName "infs.json")

def metadataPath (version : List Char) : Path OsName :=
  (paths.toolchainDir version).joinName (textName ".metadata.json")

def downloadPath (filename : List Char) : Path OsName :=
  paths.downloads.join (parsePath filename)

def ensureInfsMetadata (content : List Char) : Installer Unit := do
  if ← (pathExists paths.infsMetadataPath : Asking Bool) then return ()
  else
    withContext "Failed to write infs metadata to " paths.infsMetadataPath
      (FileSystem.ask (.write paths.infsMetadataPath (.text content)))

def ensureDirectories (content : List Char) : Installer Unit := do
  [paths.root, paths.toolchains, paths.bin, paths.downloads].forM fun dir =>
    withContext "Failed to create directory: " dir (createDirAll dir)
  paths.ensureInfsMetadata content

def writeMetadata (version content : List Char) : Installer Unit :=
  withContext "Failed to write metadata to " (paths.metadataPath version)
    (FileSystem.ask (.write (paths.metadataPath version) (.text content)))

end ToolchainPaths

/-- Sets the mode of a file. -/
def setExecutable (path : Path OsName) : Installer Unit := do
  let _ ← withContext "Failed to get metadata: " path (FileSystem.ask (.metadata path))
  withContext "Failed to set permissions: " path (FileSystem.ask (.setPermissions path))

def setExecutablePermissions (dir : Path OsName) : Installer Unit := do
  let binDir := dir.joinName (textName "bin")
  if ← (pathExists binDir : Asking Bool) then
    let entries ← withContext "Failed to read bin directory: " binDir
      (FileSystem.ask (.readDir binDir))
    entries.forM fun entry => do
      if ← (isKind .file (binDir.joinName entry) : Asking Bool) then
        setExecutable (binDir.joinName entry)
      else return ()
  else pure ()
  let infcPath := dir.joinName (textName "infc")
  if ← (isKind .file infcPath : Asking Bool) then setExecutable infcPath else return ()

section

variable (around : TaskSurroundings)

def verifyChecksum (archive : Path OsName) (expected : List Char) : Background (Except Unit Unit) := do
  match ← Background.ask (.read archive) with
  | .error _ => return .error ()
  | .ok content =>
      if around.sha256 content = around.toLowercase expected then return .ok ()
      else return .error ()

/-- The last part: the first version, or one without a default, becomes the default. -/
def configureToolchain (paths : ToolchainPaths) (version : String) (archive : Path OsName) :
    BackgroundPart Unit := do
  let installed ← installer "Failed to list installed versions" paths.listInstalledVersions
  let isFirstInstall := installed = [version.toList]
  let currentDefault ← installer "Failed to get default version" paths.getDefaultVersion
  if isFirstInstall || currentDefault.isNone then
    installer "Failed to set default version" (paths.setDefaultVersion version.toList)
    installer "Failed to update symlinks" (paths.updateSymlinks around.platform version.toList)
  else pure ()
  let _ ← (Background.ask (.removeFile archive) : Background (FileSystem.Answer _))
  phaseCompleted "Configuring toolchain"
  liftM (send (.completed version))

/-- Downloads, verifies and extracts the artifact of a version. -/
def installArtifact (paths : ToolchainPaths) (version : String) (artifact : FileEntry) :
    BackgroundPart Unit := do
  let archive := paths.downloadPath artifact.filename
  let tempPath := paths.downloadPath (tempName artifact.filename)
  phaseStarted s!"Downloading toolchain v{version}"
  orMessage "Failed to download toolchain archive"
    (downloadFileWithCallback artifact.url tempPath archive)
  phaseCompleted s!"Downloading toolchain v{version}"
  phaseStarted "Verifying checksum"
  orMessage "Checksum verification failed - download may be corrupted"
    (verifyChecksum around archive artifact.sha256)
  phaseCompleted "Verifying checksum"
  phaseStarted "Extracting archive"
  let toolchainDir := paths.toolchainDir version.toList
  installer "Failed to extract toolchain archive"
    (extractArchive around.readers archive toolchainDir)
  installer "Failed to set executable permissions" (setExecutablePermissions toolchainDir)
  installer "Failed to write toolchain metadata"
    (paths.writeMetadata version.toList around.toolchainMetadata)
  phaseCompleted "Extracting archive"
  phaseStarted "Configuring toolchain"
  configureToolchain around paths version archive

def runInstallationInner (version : Option String) : BackgroundPart Unit := do
  phaseStarted "Detecting platform"
  match around.platform, around.paths with
  | none, _ => throw "Failed to detect platform"
  | some _, none => throw "Failed to initialize toolchain paths"
  | some platform, some paths =>
      installer "Failed to create toolchain directories"
        (paths.ensureDirectories around.infsMetadata)
      phaseCompleted "Detecting platform"
      phaseStarted "Downloading release manifest"
      match ← (Program.request (TaskRequest.fetchArtifact version platform) :
          Background (Option (String × FileEntry))) with
      | none => throw "Failed to download release manifest"
      | some (resolvedVersion, artifact) =>
          phaseCompleted "Downloading release manifest"
          if ← (files (paths.isVersionInstalled resolvedVersion.toList) : Background Bool) then
            liftM (send (.completed resolvedVersion))
          else installArtifact around paths resolvedVersion artifact

/-- The task of an installation. -/
def runInstallation (version : Option String) : Background Unit := do
  match ← (runInstallationInner around version).run with
  | .ok () => return ()
  | .error error => send (.failed error)

end

end Inference.Infs
