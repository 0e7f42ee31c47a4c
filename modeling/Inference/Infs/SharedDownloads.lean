import Mathlib.Logic.Function.Basic
import Mathlib.Data.Fintype.Defs
import Mathlib.Data.List.Basic

/-! # Installations that share the downloads directory

Installations with one root download to the same directory. Name and temporary name of an archive
come from its URL's last segment, which does not contain the version. Each installation is a
sequence of steps on that directory: download to the temporary file, rename, checksum, extraction,
removal. Files are inodes, so that an open file survives a rename or removal of its name. What the
server sends, how much a read yields and which access fails is up to the environment.
-/

namespace Inference.Infs

abbrev FileName := List Char

structure FileEntry where
  url : List Char
  sha256 : List Char

/-- The last segment of the URL. -/
def FileEntry.filename (entry : FileEntry) : FileName :=
  (entry.url.reverse.takeWhile (· ≠ '/')).reverse

/-- A file name up to its last dot, unless that dot is its first character. -/
def fileStem (name : FileName) : FileName :=
  match name.reverse.dropWhile (· ≠ '.') with
  | [] | ['.'] => name
  | _ :: stem => stem.reverse

/-- `with_extension("tmp")` -/
def tempName (name : FileName) : FileName :=
  fileStem name ++ ['.', 't', 'm', 'p']

abbrev Inode := Nat

/-- The downloads directory: its names, the files and the first unused inode. -/
structure Downloads where
  entries : FileName → Option Inode
  contents : Inode → List UInt8
  next : Inode

structure Handle where
  inode : Inode
  offset : Nat
  deriving DecidableEq, Repr

namespace Downloads

/-- `File::create`: an existing file is truncated. -/
def create (downloads : Downloads) (name : FileName) : Inode × Downloads :=
  match downloads.entries name with
  | some inode =>
      (inode, { downloads with contents := Function.update downloads.contents inode [] })
  | none =>
      (downloads.next,
        { entries := Function.update downloads.entries name (some downloads.next)
          contents := Function.update downloads.contents downloads.next []
          next := downloads.next + 1 })

/-- A write at the offset of the handle. A gap in front of it reads as zeros. -/
def writeAt (downloads : Downloads) (handle : Handle) (bytes : List UInt8) : Downloads :=
  let old := downloads.contents handle.inode
  let padded := old ++ List.replicate (handle.offset - old.length) 0
  let new := padded.take handle.offset ++ bytes ++ padded.drop (handle.offset + bytes.length)
  { downloads with contents := Function.update downloads.contents handle.inode new }

def remove (downloads : Downloads) (name : FileName) : Downloads :=
  { downloads with entries := Function.update downloads.entries name none }

def rename (downloads : Downloads) (source target : FileName) : Option Downloads :=
  (downloads.entries source).map fun inode =>
    { downloads with
      entries :=
        Function.update (Function.update downloads.entries source none) target (some inode) }

def read (downloads : Downloads) (inode : Inode) (offset size : Nat) : List UInt8 :=
  ((downloads.contents inode).drop offset).take size

end Downloads

/-- Bytes that the extraction has read, with the offset where it has read them. -/
structure Observation where
  offset : Nat
  bytes : List UInt8
  deriving DecidableEq, Repr

/-- Where an installation is. -/
inductive Phase
  | downloading (attempt : Nat)
  | receiving (attempt : Nat) (file : Handle)
  | discarding (attempt : Nat)
  | received
  | renamed
  | hashing (file : Inode) (hashed : List UInt8)
  | verified
  | extracting (file : Inode) (observed : List Observation)
  | extracted (observed : List Observation)
  | succeeded (observed : List Observation)
  | failed
  deriving DecidableEq, Repr

/-- What happens next to an installation. Extraction opens the archive once for a zip, and twice for
a tar, whose common root is looked for first. -/
inductive Event
  | requestFailed
  | create
  | chunk (bytes : List UInt8)
  | streamFailed
  | streamEnded
  | removeTemp (removed : Bool)
  | rename
  | openToHash
  | readToHash (size : Nat)
  | finishHash
  | openToExtract
  | readToExtract (offset size : Nat)
  | finishExtract
  | removeArchive (removed : Bool)
  | fail
  deriving DecidableEq, Repr

def maxRetries : Nat := 3

section Installations

variable (sha256 : List UInt8 → List Char) (toLowercase : List Char → List Char)

/-- One step of an installation of the given archive. -/
def advance (entry : FileEntry) (downloads : Downloads) :
    Phase → Event → Option (Phase × Downloads)
  | .downloading attempt, .requestFailed => some (.discarding attempt, downloads)
  | .downloading attempt, .create =>
      let (inode, downloads) := downloads.create (tempName entry.filename)
      some (.receiving attempt ⟨inode, 0⟩, downloads)
  | .receiving attempt file, .chunk bytes =>
      some (.receiving attempt ⟨file.inode, file.offset + bytes.length⟩,
        downloads.writeAt file bytes)
  | .receiving attempt _, .streamFailed => some (.discarding attempt, downloads)
  | .receiving _ _, .streamEnded => some (.received, downloads)
  | .discarding attempt, .removeTemp removed =>
      some (if attempt + 1 < maxRetries then .downloading (attempt + 1) else .failed,
        if removed then downloads.remove (tempName entry.filename) else downloads)
  | .received, .rename =>
      match downloads.rename (tempName entry.filename) entry.filename with
      | some downloads => some (.renamed, downloads)
      | none => some (.failed, downloads)
  | .renamed, .openToHash =>
      match downloads.entries entry.filename with
      | some inode => some (.hashing inode [], downloads)
      | none => some (.failed, downloads)
  | .hashing file hashed, .readToHash size =>
      some (.hashing file (hashed ++ downloads.read file hashed.length size), downloads)
  | .hashing file hashed, .finishHash =>
      if (downloads.contents file).length ≤ hashed.length then
        some (if sha256 hashed = toLowercase entry.sha256 then .verified else .failed, downloads)
      else none
  | .verified, .openToExtract =>
      match downloads.entries entry.filename with
      | some inode => some (.extracting inode [], downloads)
      | none => some (.failed, downloads)
  | .extracting _ observed, .openToExtract =>
      match downloads.entries entry.filename with
      | some inode => some (.extracting inode observed, downloads)
      | none => some (.failed, downloads)
  | .extracting file observed, .readToExtract offset size =>
      some (.extracting file (observed ++ [⟨offset, downloads.read file offset size⟩]), downloads)
  | .extracting _ observed, .finishExtract => some (.extracted observed, downloads)
  | .extracted observed, .removeArchive removed =>
      some (.succeeded observed,
        if removed then downloads.remove entry.filename else downloads)
  | .succeeded _, .fail | .failed, .fail => none
  | _, .fail => some (.failed, downloads)
  | _, _ => none

variable {Installation : Type} [DecidableEq Installation] (entries : Installation → FileEntry)

/-- All installations and the directory they share. -/
structure Shared (Installation : Type) where
  downloads : Downloads
  phase : Installation → Phase

def step (shared : Shared Installation) (installation : Installation) (event : Event) :
    Option (Shared Installation) :=
  (advance sha256 toLowercase (entries installation) shared.downloads (shared.phase installation)
      event).map
    fun (phase, downloads) => ⟨downloads, Function.update shared.phase installation phase⟩

/-- The installations in any order of their steps. -/
def runSteps (shared : Shared Installation) :
    List (Installation × Event) → Option (Shared Installation)
  | [] => some shared
  | (installation, event) :: rest =>
      (step sha256 toLowercase entries shared installation event).bind (runSteps · rest)

/-- Installations that start on a directory. -/
def Shared.start (downloads : Downloads) : Shared Installation :=
  ⟨downloads, fun _ => .downloading 0⟩

/-- All that was observed is what one file with the given checksum holds. -/
def ObservedVerified (expected : List Char) (observed : List Observation) : Prop :=
  ∃ content, sha256 content = toLowercase expected ∧
    ∀ observation ∈ observed,
      observation.bytes = (content.drop observation.offset).take observation.bytes.length

/-- Every installation that has succeeded has extracted what it has verified. -/
def ExtractsVerified (shared : Shared Installation) : Prop :=
  ∀ installation observed, shared.phase installation = .succeeded observed →
    ObservedVerified sha256 toLowercase (entries installation).sha256 observed

/-- The installation is between the start of the checksum and the end of the extraction. -/
def Phase.needsArchive : Phase → Bool
  | .hashing _ _ | .verified | .extracting _ _ => true
  | _ => false

/-- The step replaces, removes or writes to the file of the given name. -/
def Disturbs (shared : Shared Installation) (installation : Installation) (name : FileName) :
    Event → Prop
  | .create =>
      ∃ inode, shared.downloads.entries (tempName (entries installation).filename) = some inode ∧
        shared.downloads.entries name = some inode
  | .chunk _ =>
      ∃ attempt file, shared.phase installation = .receiving attempt file ∧
        shared.downloads.entries name = some file.inode
  | .removeTemp _ => tempName (entries installation).filename = name
  | .rename =>
      tempName (entries installation).filename = name ∨ (entries installation).filename = name
  | .removeArchive _ => (entries installation).filename = name
  | _ => False

/-- No step of the run touches an archive that another installation is checking or extracting. -/
def Undisturbed : Shared Installation → List (Installation × Event) → Prop
  | _, [] => True
  | shared, (installation, event) :: rest =>
      (∀ other, other ≠ installation → (shared.phase other).needsArchive = true →
        ¬ Disturbs entries shared installation (entries other).filename event) ∧
        ∀ shared', step sha256 toLowercase entries shared installation event = some shared' →
          Undisturbed shared' rest

/-- What holds of one installation: from the checksum on, the archive is in place, and what was read
of it is what it holds. -/
def Phase.Sound (entry : FileEntry) (downloads : Downloads) : Phase → Prop
  | .hashing file hashed =>
      downloads.entries entry.filename = some file ∧ hashed <+: downloads.contents file
  | .verified =>
      ∃ file, downloads.entries entry.filename = some file ∧
        sha256 (downloads.contents file) = toLowercase entry.sha256
  | .extracting file observed =>
      downloads.entries entry.filename = some file ∧
        sha256 (downloads.contents file) = toLowercase entry.sha256 ∧
          ∀ observation ∈ observed, observation.bytes =
            ((downloads.contents file).drop observation.offset).take observation.bytes.length
  | .extracted observed | .succeeded observed =>
      ObservedVerified sha256 toLowercase entry.sha256 observed
  | _ => True

/-- Every name has an inode that has been used. -/
def Downloads.Allocated (downloads : Downloads) : Prop :=
  ∀ name inode, downloads.entries name = some inode → inode < downloads.next

structure Shared.Sound (shared : Shared Installation) : Prop where
  allocated : shared.downloads.Allocated
  phases : ∀ installation,
    (shared.phase installation).Sound sha256 toLowercase (entries installation) shared.downloads

end Installations

/-! ## One step of one installation -/

/-- The file under a name is as before. -/
def SameFile (name : FileName) (downloads downloads' : Downloads) : Prop :=
  downloads'.entries name = downloads.entries name ∧
    ∀ inode, downloads.entries name = some inode →
      downloads'.contents inode = downloads.contents inode

variable {downloads downloads' : Downloads} {name : FileName} {entry : FileEntry}
  {phase phase' : Phase} {event : Event}

section Steps

variable {sha256 : List UInt8 → List Char} {toLowercase : List Char → List Char}

theorem SameFile.refl (name : FileName) (downloads : Downloads) :
    SameFile name downloads downloads :=
  ⟨rfl, fun _ _ => rfl⟩

theorem allocated_create (allocated : downloads.Allocated)
    (name : FileName) : (downloads.create name).2.Allocated := by
  rw [Downloads.create]
  cases found : downloads.entries name with
  | some inode => exact allocated
  | none =>
      intro other inode holds
      dsimp only at holds ⊢
      rw [Function.update_apply] at holds
      split at holds
      · cases holds
        exact Nat.lt_succ_self _
      · exact Nat.lt_succ_of_lt (allocated other inode holds)

theorem allocated_remove (allocated : downloads.Allocated)
    (name : FileName) : (downloads.remove name).Allocated := by
  intro other inode holds
  dsimp only [Downloads.remove] at holds
  rw [Function.update_apply] at holds
  split at holds
  · cases holds
  · exact allocated other inode holds

theorem allocated_rename (allocated : downloads.Allocated)
    {source target : FileName} (renamed : downloads.rename source target = some downloads') :
    downloads'.Allocated := by
  rcases Option.map_eq_some_iff.mp renamed with ⟨moved, isSource, rfl⟩
  intro other inode holds
  dsimp only at holds
  rw [Function.update_apply, Function.update_apply] at holds
  split at holds
  · cases holds
    exact allocated source moved isSource
  · split at holds
    · cases holds
    · exact allocated other inode holds

theorem sameFile_create (allocated : downloads.Allocated)
    {temp : FileName}
    (apart : ¬ ∃ inode, downloads.entries temp = some inode ∧ downloads.entries name = some inode)
    (present : downloads.entries name ≠ none) :
    SameFile name downloads (downloads.create temp).2 := by
  rw [Downloads.create]
  cases found : downloads.entries temp with
  | some inode =>
      refine ⟨rfl, ?_⟩
      intro other holds
      dsimp only
      rw [Function.update_of_ne]
      rintro rfl
      exact apart ⟨other, found, holds⟩
  | none =>
      have unchanged : Function.update downloads.entries temp (some downloads.next) name =
          downloads.entries name := by
        rw [Function.update_of_ne]
        rintro rfl
        exact present found
      refine ⟨unchanged, ?_⟩
      intro inode holds
      dsimp only
      rw [Function.update_of_ne]
      exact Nat.ne_of_lt (allocated name inode holds)

theorem sameFile_writeAt {handle : Handle}
    {bytes : List UInt8} (apart : downloads.entries name ≠ some handle.inode) :
    SameFile name downloads (downloads.writeAt handle bytes) := by
  refine ⟨rfl, ?_⟩
  intro inode holds
  dsimp only [Downloads.writeAt]
  rw [Function.update_of_ne]
  rintro rfl
  exact apart holds

theorem sameFile_remove {other : FileName} (apart : other ≠ name) :
    SameFile name downloads (downloads.remove other) := by
  refine ⟨?_, fun _ _ => rfl⟩
  dsimp only [Downloads.remove]
  rw [Function.update_of_ne apart.symm]

theorem sameFile_rename {source target : FileName}
    (renamed : downloads.rename source target = some downloads') (notSource : source ≠ name)
    (notTarget : target ≠ name) : SameFile name downloads downloads' := by
  rcases Option.map_eq_some_iff.mp renamed with ⟨moved, _, rfl⟩
  refine ⟨?_, fun _ _ => rfl⟩
  dsimp only
  rw [Function.update_of_ne notTarget.symm, Function.update_of_ne notSource.symm]

/-- A file that stays keeps an installation sound. -/
theorem Phase.Sound.mono (sound : phase.Sound sha256 toLowercase entry downloads)
    (same : phase.needsArchive = true → SameFile entry.filename downloads downloads') :
    phase.Sound sha256 toLowercase entry downloads' := by
  cases phase with
  | hashing file hashed =>
      rcases same rfl with ⟨sameEntry, sameContent⟩
      exact ⟨sameEntry.trans sound.1, by rw [sameContent file sound.1]; exact sound.2⟩
  | verified =>
      rcases same rfl with ⟨sameEntry, sameContent⟩
      rcases sound with ⟨file, inPlace, checked⟩
      exact ⟨file, sameEntry.trans inPlace, by rw [sameContent file inPlace]; exact checked⟩
  | extracting file observed =>
      rcases same rfl with ⟨sameEntry, sameContent⟩
      rcases sound with ⟨inPlace, checked, faithful⟩
      refine ⟨sameEntry.trans inPlace, ?_, ?_⟩
      · rw [sameContent file inPlace]
        exact checked
      · rw [sameContent file inPlace]
        exact faithful
  | _ => exact sound

theorem Phase.Sound.present (sound : phase.Sound sha256 toLowercase entry downloads)
    (needs : phase.needsArchive = true) : downloads.entries entry.filename ≠ none := by
  cases phase with
  | hashing file hashed =>
      rw [sound.1]
      exact Option.some_ne_none file
  | verified =>
      rcases sound with ⟨file, inPlace, _⟩
      rw [inPlace]
      exact Option.some_ne_none file
  | extracting file observed =>
      rw [sound.1]
      exact Option.some_ne_none file
  | _ => cases needs

theorem hashed_read {file : Inode} {hashed : List UInt8}
    (isPrefix : hashed <+: downloads.contents file) (size : Nat) :
    hashed ++ downloads.read file hashed.length size <+: downloads.contents file := by
  rcases isPrefix with ⟨rest, whole⟩
  rw [Downloads.read, ← whole, List.drop_left]
  exact (List.prefix_append_right_inj hashed).mpr (List.take_prefix size rest)

theorem read_faithful (downloads : Downloads) (file : Inode) (offset size : Nat) :
    downloads.read file offset size =
      ((downloads.contents file).drop offset).take (downloads.read file offset size).length := by
  rw [Downloads.read, List.length_take]
  exact List.take_eq_take_min

/-- The steps of an installation keep it sound. -/
theorem advance_sound
    (advanced : advance sha256 toLowercase entry downloads phase event = some (phase', downloads'))
    (sound : phase.Sound sha256 toLowercase entry downloads) :
    phase'.Sound sha256 toLowercase entry downloads' := by
  unfold advance at advanced
  split at advanced
  case h_6 =>
    split at advanced <;> (cases advanced; trivial)
  case h_7 =>
    split at advanced <;> (cases advanced; trivial)
  case h_8 =>
    split at advanced
    next inode inPlace =>
      cases advanced
      exact ⟨inPlace, List.nil_prefix⟩
    next =>
      cases advanced
      trivial
  case h_9 file hashed size =>
    cases advanced
    exact ⟨sound.1, hashed_read sound.2 size⟩
  case h_10 file hashed =>
    split at advanced
    next atEnd =>
      cases advanced
      have whole : hashed = downloads.contents file := sound.2.eq_of_length_le atEnd
      split
      next checked => exact ⟨file, sound.1, whole ▸ checked⟩
      next => trivial
    next => cases advanced
  case h_11 =>
    rcases sound with ⟨file, inPlace, checked⟩
    rw [inPlace] at advanced
    cases advanced
    exact ⟨inPlace, checked, fun _ member => absurd member List.not_mem_nil⟩
  case h_12 =>
    rw [sound.1] at advanced
    cases advanced
    exact sound
  case h_13 file observed offset size =>
    cases advanced
    refine ⟨sound.1, sound.2.1, ?_⟩
    intro observation member
    rcases List.mem_append.mp member with earlier | last
    · exact sound.2.2 observation earlier
    · cases List.mem_singleton.mp last
      exact read_faithful downloads file offset size
  case h_14 file observed =>
    cases advanced
    exact ⟨downloads.contents file, sound.2⟩
  case h_15 =>
    cases advanced
    exact sound
  all_goals first | (cases advanced; trivial) | cases advanced

theorem advance_allocated
    (advanced : advance sha256 toLowercase entry downloads phase event = some (phase', downloads'))
    (allocated : downloads.Allocated) : downloads'.Allocated := by
  unfold advance at advanced
  split at advanced
  case h_2 =>
    cases advanced
    exact allocated_create allocated _
  case h_6 attempt removed =>
    rcases Prod.mk.inj (Option.some.inj advanced) with ⟨_, rfl⟩
    cases removed with
    | true => exact allocated_remove allocated _
    | false => exact allocated
  case h_7 =>
    split at advanced
    next renamed =>
      cases advanced
      exact allocated_rename allocated renamed
    next =>
      cases advanced
      exact allocated
  case h_10 =>
    split at advanced
    · cases advanced
      exact allocated
    · cases advanced
  case h_15 observed removed =>
    rcases Prod.mk.inj (Option.some.inj advanced) with ⟨_, rfl⟩
    cases removed with
    | true => exact allocated_remove allocated _
    | false => exact allocated
  case h_8 => split at advanced <;> (cases advanced; exact allocated)
  case h_11 => split at advanced <;> (cases advanced; exact allocated)
  case h_12 => split at advanced <;> (cases advanced; exact allocated)
  all_goals first | (cases advanced; exact allocated) | cases advanced

end Steps

section Runs

variable {sha256 : List UInt8 → List Char} {toLowercase : List Char → List Char}
  {Installation : Type} [DecidableEq Installation] {entries : Installation → FileEntry}

/-- Some steps only read the directory, or nothing of it. -/
def Event.onlyReads : Event → Bool
  | .create | .chunk _ | .removeTemp _ | .rename | .removeArchive _ => false
  | _ => true

theorem advance_onlyReads
    (advanced : advance sha256 toLowercase entry downloads phase event = some (phase', downloads'))
    (reads : event.onlyReads = true) : downloads' = downloads := by
  unfold advance at advanced
  split at advanced
  case h_2 => cases reads
  case h_3 => cases reads
  case h_6 => cases reads
  case h_7 => cases reads
  case h_15 => cases reads
  case h_8 => split at advanced <;> (cases advanced; rfl)
  case h_10 =>
    split at advanced
    · cases advanced
      rfl
    · cases advanced
  case h_11 => split at advanced <;> (cases advanced; rfl)
  case h_12 => split at advanced <;> (cases advanced; rfl)
  all_goals first | (cases advanced; rfl) | cases advanced

omit [DecidableEq Installation] in
/-- A step that does not disturb a file leaves it alone. -/
theorem advance_sameFile {shared : Shared Installation} {installation : Installation}
    (advanced : advance sha256 toLowercase (entries installation) shared.downloads
      (shared.phase installation) event = some (phase', downloads'))
    (allocated : shared.downloads.Allocated) (present : shared.downloads.entries name ≠ none)
    (undisturbed : ¬ Disturbs entries shared installation name event) :
    SameFile name shared.downloads downloads' := by
  by_cases reads : event.onlyReads = true
  · rw [advance_onlyReads advanced reads]
    exact .refl name shared.downloads
  · generalize phaseHere : shared.phase installation = phase at advanced
    unfold advance at advanced
    split at advanced
    case h_2 =>
      cases advanced
      exact sameFile_create allocated undisturbed present
    case h_3 attempt file bytes =>
      cases advanced
      apply sameFile_writeAt
      intro holds
      exact undisturbed ⟨attempt, file, phaseHere, holds⟩
    case h_6 attempt removed =>
      rcases Prod.mk.inj (Option.some.inj advanced) with ⟨_, rfl⟩
      cases removed with
      | true => exact sameFile_remove undisturbed
      | false => exact .refl name shared.downloads
    case h_7 =>
      rcases not_or.mp undisturbed with ⟨notSource, notTarget⟩
      split at advanced
      next renamed =>
        cases advanced
        exact sameFile_rename renamed notSource notTarget
      next =>
        cases advanced
        exact .refl name shared.downloads
    case h_15 observed removed =>
      rcases Prod.mk.inj (Option.some.inj advanced) with ⟨_, rfl⟩
      cases removed with
      | true => exact sameFile_remove undisturbed
      | false => exact .refl name shared.downloads
    all_goals first | exact absurd rfl reads | cases advanced

/-- A step that disturbs no other installation keeps all of them sound. -/
theorem Shared.Sound.step {shared shared' : Shared Installation} {installation : Installation}
    (sound : shared.Sound sha256 toLowercase entries)
    (stepped : step sha256 toLowercase entries shared installation event = some shared')
    (undisturbed : ∀ other, other ≠ installation → (shared.phase other).needsArchive = true →
      ¬ Disturbs entries shared installation (entries other).filename event) :
    shared'.Sound sha256 toLowercase entries := by
  rcases Option.map_eq_some_iff.mp stepped with ⟨⟨phase', downloads'⟩, advanced, rfl⟩
  refine ⟨advance_allocated advanced sound.allocated, ?_⟩
  intro other
  dsimp only
  by_cases own : other = installation
  · subst own
    rw [Function.update_self]
    exact advance_sound advanced (sound.phases other)
  · rw [Function.update_of_ne own]
    apply (sound.phases other).mono
    intro needs
    exact advance_sameFile advanced sound.allocated ((sound.phases other).present needs)
      (undisturbed other own needs)

theorem Shared.Sound.runSteps {shared shared' : Shared Installation}
    {steps : List (Installation × Event)} (sound : shared.Sound sha256 toLowercase entries)
    (ran : runSteps sha256 toLowercase entries shared steps = some shared')
    (undisturbed : Undisturbed sha256 toLowercase entries shared steps) :
    shared'.Sound sha256 toLowercase entries := by
  induction steps generalizing shared with
  | nil =>
      cases ran
      exact sound
  | cons head rest induction =>
      rcases head with ⟨installation, event⟩
      rcases Option.bind_eq_some_iff.mp ran with ⟨between, stepped, later⟩
      exact induction (sound.step stepped undisturbed.1) later (undisturbed.2 between stepped)

/-- In a run that starts on a directory whose names are allocated, in any interleaving, every
installation that succeeds has extracted what it has verified, as long as no step touches an archive
that another installation is checking or extracting. -/
theorem extractsVerified_of_undisturbed {downloads : Downloads} {shared : Shared Installation}
    {steps : List (Installation × Event)} (allocated : downloads.Allocated)
    (ran : runSteps sha256 toLowercase entries (.start downloads) steps = some shared)
    (undisturbed : Undisturbed sha256 toLowercase entries (.start downloads) steps) :
    ExtractsVerified sha256 toLowercase entries shared := by
  have started : Shared.Sound sha256 toLowercase entries (.start downloads) :=
    ⟨allocated, fun _ => trivial⟩
  have sound := started.runSteps ran undisturbed
  intro installation observed succeeded
  have here := sound.phases installation
  rw [succeeded] at here
  exact here

/-! ## Whether a run disturbs -/

/-- The file that an installation receives. -/
def Phase.received? : Phase → Option Handle
  | .receiving _ file => some file
  | _ => none

theorem receives_iff {holds : Handle → Prop} :
    (∃ file ∈ phase.received?, holds file) ↔
      ∃ attempt file, phase = .receiving attempt file ∧ holds file := by
  cases phase <;> simp [Phase.received?]

instance decidableDisturbs (shared : Shared Installation) (installation : Installation)
    (name : FileName) : (event : Event) → Decidable (Disturbs entries shared installation name event)
  | .create => inferInstanceAs (Decidable
      (∃ inode ∈ shared.downloads.entries (tempName (entries installation).filename),
        shared.downloads.entries name = some inode))
  | .chunk _ => decidable_of_iff (∃ file ∈ (shared.phase installation).received?,
      shared.downloads.entries name = some file.inode) receives_iff
  | .removeTemp _ => inferInstanceAs (Decidable (tempName (entries installation).filename = name))
  | .rename => inferInstanceAs (Decidable
      (tempName (entries installation).filename = name ∨ (entries installation).filename = name))
  | .removeArchive _ => inferInstanceAs (Decidable ((entries installation).filename = name))
  | .requestFailed | .streamFailed | .streamEnded | .openToHash | .readToHash _ | .finishHash
  | .openToExtract | .readToExtract _ _ | .finishExtract | .fail =>
      inferInstanceAs (Decidable False)

instance decidableUndisturbed [Fintype Installation] :
    (steps : List (Installation × Event)) → (shared : Shared Installation) →
      Decidable (Undisturbed sha256 toLowercase entries shared steps)
  | [], _ => inferInstanceAs (Decidable True)
  | (installation, event) :: rest, shared =>
      have := fun shared' => decidableUndisturbed rest shared'
      inferInstanceAs (Decidable
        ((∀ other, other ≠ installation → (shared.phase other).needsArchive = true →
          ¬ Disturbs entries shared installation (entries other).filename event) ∧
          ∀ shared' ∈ step sha256 toLowercase entries shared installation event,
            Undisturbed sha256 toLowercase entries shared' rest))

end Runs

/-! ## Two versions at once -/

/-- A compressed tar archive without entries, with the header's system byte. -/
def emptyArchive (system : UInt8) : List UInt8 :=
  [0x1f, 0x8b, 8, 0, 0, 0, 0, 0, 0, system, 3, 0] ++ List.replicate 8 0

/-- The digests of the two archives. -/
def exampleSha256 (content : List UInt8) : List Char :=
  if content = emptyArchive 3 then
    Nat.toDigits 16 0x59869db34853933b239f1e2219cf7d431da006aa919635478511fabbfc8849d2
  else if content = emptyArchive 0xff then
    Nat.toDigits 16 0xac73670af3abed54ac6fb4695131f4099be9fbe39d6076c5d0264a6bbdae9d83
  else []

/-- The same platform's archive in each version. -/
def exampleUrl (minor : Char) : List Char :=
  ['h', 't', 't', 'p', 's', ':', '/', '/', 'e', 'x', 'a', 'm', 'p', 'l', 'e', '.', 'c', 'o',
    'm', '/', '0', '.', minor, '.', '0', '/', 'i', 'n', 'f', 'c', '-', 'l', 'i', 'n', 'u', 'x',
    '-', 'x', '6', '4', '.', 't', 'a', 'r', '.', 'g', 'z']

example : exampleUrl '1' = "https://example.com/0.1.0/infc-linux-x64.tar.gz".toList := rfl

def exampleEntries : Bool → FileEntry
  | false => ⟨exampleUrl '1', exampleSha256 (emptyArchive 3)⟩
  | true => ⟨exampleUrl '2', exampleSha256 (emptyArchive 0xff)⟩

def emptyDownloads : Downloads := ⟨fun _ => none, fun _ => [], 0⟩

def downloadSteps (installation : Bool) (content : List UInt8) : List (Bool × Event) :=
  [(installation, .create), (installation, .chunk content), (installation, .streamEnded),
    (installation, .rename)]

def verifySteps (installation : Bool) : List (Bool × Event) :=
  [(installation, .openToHash), (installation, .readToHash 8192), (installation, .finishHash)]

def extractSteps (installation : Bool) : List (Bool × Event) :=
  [(installation, .openToExtract), (installation, .readToExtract 0 32768),
    (installation, .openToExtract), (installation, .readToExtract 0 32768),
    (installation, .finishExtract), (installation, .removeArchive true)]

/-- The second version is received while the first one is checked and extracted. -/
def receivedMeanwhile : List (Bool × Event) :=
  downloadSteps false (emptyArchive 3) ++
    [(false, .openToHash), (true, .create), (false, .readToHash 8192),
      (true, .chunk (emptyArchive 0xff)), (false, .finishHash), (true, .streamEnded)] ++
    extractSteps false ++ [(true, .rename)] ++ verifySteps true ++ extractSteps true

/-- What an installation reads that opens the archive twice. -/
def readTwice (content : List UInt8) : List Observation :=
  [⟨0, content⟩, ⟨0, content⟩]

theorem extractsVerified_meanwhile :
    ∃ shared, runSteps exampleSha256 id exampleEntries (.start emptyDownloads) receivedMeanwhile =
        some shared ∧ shared.phase false = .succeeded (readTwice (emptyArchive 3)) ∧
      shared.phase true = .succeeded (readTwice (emptyArchive 0xff)) ∧
      ExtractsVerified exampleSha256 id exampleEntries shared := by
  have succeeds : (runSteps exampleSha256 id exampleEntries (.start emptyDownloads)
      receivedMeanwhile).map (fun shared => (shared.phase false, shared.phase true)) =
        some (.succeeded (readTwice (emptyArchive 3)),
          .succeeded (readTwice (emptyArchive 0xff))) := by
    decide +kernel
  rcases Option.map_eq_some_iff.mp succeeds with ⟨shared, ran, ends⟩
  have undisturbed : Undisturbed exampleSha256 id exampleEntries (.start emptyDownloads)
      receivedMeanwhile := by
    decide +kernel
  have allocated : emptyDownloads.Allocated := by
    intro name inode holds
    cases holds
  exact ⟨shared, ran, congrArg Prod.fst ends, congrArg Prod.snd ends,
    extractsVerified_of_undisturbed allocated ran undisturbed⟩

/-- The second version is downloaded between the checksum and the extraction of the first. -/
theorem extractsUnverified :
    ∃ shared, runSteps exampleSha256 id exampleEntries (.start emptyDownloads)
        (downloadSteps false (emptyArchive 3) ++ verifySteps false ++
          downloadSteps true (emptyArchive 0xff) ++ extractSteps false) = some shared ∧
      ¬ ExtractsVerified exampleSha256 id exampleEntries shared := by
  have ends : (runSteps exampleSha256 id exampleEntries (.start emptyDownloads)
      (downloadSteps false (emptyArchive 3) ++ verifySteps false ++
        downloadSteps true (emptyArchive 0xff) ++ extractSteps false)).map (·.phase false) =
          some (.succeeded (readTwice (emptyArchive 0xff))) := by
    decide +kernel
  rcases Option.map_eq_some_iff.mp ends with ⟨shared, ran, succeeded⟩
  refine ⟨shared, ran, ?_⟩
  intro verified
  rcases verified false _ succeeded with ⟨content, checked, faithful⟩
  have digest : exampleSha256 content = exampleSha256 (emptyArchive 3) := by
    simpa only [exampleEntries, id_eq] using checked
  have isFirst : content = emptyArchive 3 := by
    by_contra other
    unfold exampleSha256 at digest
    rw [if_neg other, if_pos rfl] at digest
    revert digest
    split <;> decide +kernel
  have read := faithful ⟨0, emptyArchive 0xff⟩ List.mem_cons_self
  rw [isFirst] at read
  have apart : emptyArchive 0xff ≠
      ((emptyArchive 3).drop 0).take (emptyArchive 0xff).length := by
    decide +kernel
  exact apart read

end Inference.Infs
