import Inference.Foundation.FileRules
import Inference.Infs.ToolchainRuns

/-! # What an uninstallation changes

A version text reaches the recursive delete through `join`, guarded only by a test that something is
there. An uninstallation may change the directory of that name in the toolchains directory, the
default file and the links to the managed binaries. It keeps to that in all of its runs, whatever
fails in them, exactly when what the delete takes away lies within these bounds, and `bin` need not be
created.
-/

namespace Inference.Infs

open Effects FileSystem

/-- Texts that name one entry of a directory. -/
def isPlainName (version : List Char) : Bool :=
  version ≠ [] && version ≠ ['.'] && version ≠ ['.', '.'] && '/' ∉ version

theorem parsePath_plain {version : List Char} (plain : isPlainName version = true) :
    parsePath version = Path.ofName (.text version) := by
  simp only [isPlainName, Bool.and_eq_true, decide_eq_true_eq] at plain
  rcases plain with ⟨⟨⟨notEmpty, notCurrent⟩, notParent⟩, noSeparator⟩
  have parts : version.splitOn '/' = [version] := List.splitOn_eq_singleton noSeparator
  have first : version.head? ≠ some '/' := fun same => noSeparator (List.mem_of_head? same)
  have last : version.getLast? ≠ some '/' := fun same => noSeparator (List.mem_of_getLast? same)
  have kept : [version].filter (fun part => !part.isEmpty) = [version] := by
    rw [List.filter_singleton, List.isEmpty_eq_false_iff.mpr notEmpty]
    rfl
  rw [parsePath, parts, kept, decide_eq_false first, decide_eq_false last, List.map_singleton,
    parseComponent, if_neg notCurrent, if_neg notParent]
  rfl

section Bounds

variable (cwd : Location OsName) (paths : ToolchainPaths) (platform : Option Platform)
  (version : List Char) (tree : Tree OsName FileContent)

/-- The directory of the version and what is in it. Only a plain name names a directory there. -/
def InVersion (location : Location OsName) : Prop :=
  isPlainName version = true ∧ ∃ directory,
    Reaches cwd tree paths.toolchains directory ∧
      directory ++ [.text version] <+: location

/-- The default file, also as a link and under its other names. -/
def IsDefaultFile (location : Location OsName) : Prop :=
  resolve cwd tree false paths.defaultFile = .ok location ∨
    LeadsTo cwd tree paths.defaultFile location

def IsManagedLink (location : Location OsName) : Prop :=
  ∃ host, platform = some host ∧ ∃ binary ∈ ToolchainPaths.binaries host,
    resolve cwd tree false (paths.symlinkPath binary) = .ok location

/-- What an uninstallation of the version may change. -/
def MayChange (location : Location OsName) : Prop :=
  InVersion cwd paths version tree location ∨
    IsDefaultFile cwd paths tree location ∨
    IsManagedLink cwd paths platform tree location

/-- A step that keeps to the bounds. -/
def Confined (before after : Tree OsName FileContent) : Prop :=
  before.ChangesWithin (MayChange cwd paths platform version before) after

/-- The default file names the version. -/
def IsDefault (version : List Char) : Prop :=
  version ≠ [] ∧ ∃ content, readFile cwd tree paths.defaultFile =
    .ok (.text content) ∧ trim content = version

/-- A version is left over. -/
def HasVersions : Prop :=
  ∃ entries, readDir cwd tree paths.toolchains = .ok entries ∧
    ∃ name, .text name ∈ entries ∧
      metadata cwd tree true (paths.toolchains.joinName (.text name)) = .ok .dir

/-- The version is the default, others remain, and `bin` is missing. -/
def CreatesBin : Prop :=
  platform ≠ none ∧ IsDefault cwd paths tree version ∧
    ∃ removed, removeDirAll cwd tree (paths.toolchainDir version) = (.ok (), removed) ∧
      HasVersions cwd paths removed ∧
      ∃ content written,
        writeFile cwd removed paths.defaultFile (.text content) = .ok written ∧
          ∃ location, Touches cwd written (.createDir paths.bin) location ∧
            ¬ MayChange cwd paths platform version written location

end Bounds

variable {cwd : Location OsName} {paths : ToolchainPaths} {platform : Option Platform}
  {version : List Char} {tree : Tree OsName FileContent} {α : Type}

/-! ## Programs that only look -/

section Looking

theorem observes_readToString (path : Path OsName) :
    Observes cwd tree (ToolchainPaths.readToString path) fun result =>
      ∀ content, result = .ok content →
        readFile cwd tree path = .ok (.text content) := by
  refine (observes_ask (.read path) rfl).bind fun answer answered => ?_
  cases answer with
  | error cause =>
      apply observes_pure
      intro _ same
      cases same
  | ok content =>
      cases content with
      | bytes raw =>
          apply observes_pure
          intro _ same
          cases same
      | text content =>
          apply observes_pure
          intro _ same
          cases same
          rcases answered with read | failed
          · exact read.symm
          · cases failed

theorem observes_isVersionInstalled :
    Observes cwd tree (paths.isVersionInstalled version) fun found =>
      found = true →
        ∃ kind, metadata cwd tree true (paths.toolchainDir version) = .ok kind :=
  observes_pathExists (paths.toolchainDir version)

theorem observes_getDefaultVersion :
    Observes cwd tree paths.getDefaultVersion.run fun result =>
      ∀ version, result = .ok (some version) →
        IsDefault cwd paths tree version := by
  refine (observes_pathExists paths.defaultFile).bind_lift fun found _ => ?_
  split
  · have read : Observes cwd tree
        (withContext "Failed to read default version from " paths.defaultFile
          (ToolchainPaths.readToString paths.defaultFile)).run fun result =>
        ∀ content, result = .ok content →
          readFile cwd tree paths.defaultFile = .ok (.text content) := by
      refine observes_withContext (observes_readToString paths.defaultFile) ?_ ?_
      · intro content holds _ same
        cases same
        exact holds content rfl
      · intro _ _ same
        cases same
    refine read.bind_fallible ?_ ?_
    · intro content holds
      apply observes_pure
      intro version same
      split at same
      · cases same
      next notEmpty =>
        cases same
        exact ⟨notEmpty, content, holds content rfl, rfl⟩
    · intro _ _ _ same
      cases same
  · apply observes_pure
    intro _ same
    cases same

theorem observes_listDirectories (entries : List OsName) :
    Observes cwd tree (paths.listDirectories entries) fun versions =>
      ∀ name ∈ versions, .text name ∈ entries ∧
        metadata cwd tree true (paths.toolchains.joinName (.text name)) = .ok .dir := by
  induction entries with
  | nil => exact observes_pure (by simp)
  | cons entry entries induction =>
      refine (observes_isKind .dir (paths.toolchains.joinName entry)).bind fun isDir found => ?_
      refine induction.bind fun versions listed => ?_
      have listed' (name : List Char) (member : name ∈ versions) :=
        And.imp_left (List.mem_cons_of_mem entry) (listed name member)
      cases entry with
      | bytes raw => exact observes_pure listed'
      | text name =>
          apply observes_pure
          split
          next isDir =>
            intro name' member
            rcases List.mem_cons.mp member with rfl | member
            · exact ⟨List.mem_cons_self, found isDir⟩
            · exact listed' name' member
          next => exact listed'

theorem observes_listInstalledVersions :
    Observes cwd tree paths.listInstalledVersions.run fun result =>
      ∀ versions, result = .ok versions → versions ≠ [] →
        HasVersions cwd paths tree := by
  refine (observes_pathExists paths.toolchains).bind_lift fun found _ => ?_
  split
  · have read : Observes cwd tree
        (withContext "Failed to read toolchains directory: " paths.toolchains
          (ask (.readDir paths.toolchains))).run fun result =>
        ∀ entries, result = .ok entries →
          readDir cwd tree paths.toolchains = .ok entries := by
      refine observes_withContext (observes_ask (.readDir paths.toolchains) rfl) ?_ ?_
      · rintro entries (answered | failed) _ same
        · cases same
          exact answered.symm
        · cases failed
      · intro _ _ same
        cases same
    refine read.bind_fallible ?_ ?_
    · intro entries holds
      refine (observes_listDirectories entries).bind_lift fun versions listed => ?_
      apply observes_pure
      intro sorted same notEmpty
      cases same
      rcases List.exists_mem_of_ne_nil _ notEmpty with ⟨name, member⟩
      rcases listed name (List.mem_mergeSort.mp member) with ⟨isEntry, isDir⟩
      exact ⟨entries, holds entries rfl, name, isEntry, isDir⟩
    · intro _ _ _ same
      cases same
  · apply observes_pure
    intro versions same notEmpty
    cases same
    exact absurd rfl notEmpty

theorem observes_brokenLinks (binaries : List (List Char)) :
    Observes cwd tree (paths.brokenLinks binaries) fun broken =>
      ∀ binary ∈ broken, binary ∈ binaries ∧
        ∃ kind, metadata cwd tree false (paths.symlinkPath binary) = .ok kind := by
  induction binaries with
  | nil => exact observes_pure (by simp)
  | cons binary rest induction =>
      refine (observes_ask (.symlinkMetadata (paths.symlinkPath binary)) rfl).bind
        fun answer answered => ?_
      cases answer with
      | error cause =>
          exact induction.weaken fun broken found other member =>
            And.imp_left (List.mem_cons_of_mem binary) (found other member)
      | ok kind =>
          refine (observes_pathExists _).bind fun leads _ => ?_
          refine induction.bind fun broken found => ?_
          have found' (other : List Char) (member : other ∈ broken) :=
            And.imp_left (List.mem_cons_of_mem binary) (found other member)
          apply observes_pure
          split
          next => exact found'
          next =>
            intro other member
            rcases List.mem_cons.mp member with rfl | member
            · rcases answered with answered | failed
              · exact ⟨List.mem_cons_self, kind, answered.symm⟩
              · cases failed
            · exact found' other member

theorem observes_validateSymlinks :
    Observes cwd tree (paths.validateSymlinks platform) fun broken =>
      broken ≠ [] → ∃ binary kind,
        metadata cwd tree false (paths.symlinkPath binary) = .ok kind := by
  cases platform with
  | none => exact observes_pure fun notEmpty => absurd rfl notEmpty
  | some host =>
      refine (observes_brokenLinks _).weaken fun broken found notEmpty => ?_
      rcases List.exists_mem_of_ne_nil broken notEmpty with ⟨binary, member⟩
      exact ⟨binary, (found binary member).2⟩

end Looking

/-! ## Programs that keep to the bounds -/

variable {directory location : Location OsName}

section Changing

theorem confined_refl (tree : Tree OsName FileContent) :
    Confined cwd paths platform version tree tree :=
  Tree.ChangesWithin.refl

/-- The bounds hold for a request when they hold for what it may touch. -/
theorem confined_answers (request : Request OsName FileContent) {answer : Answer request}
    {tree' : Tree OsName FileContent}
    (within : ∀ location, Touches cwd tree request location →
      MayChange cwd paths platform version tree location)
    (answered : answers cwd request tree answer tree') :
    Confined cwd paths platform version tree tree' :=
  (changesWithin_answers answered).mono within

variable {host : Platform} {binary : List Char}

theorem confined_removeSymlink (isHost : platform = some host)
    (managed : binary ∈ ToolchainPaths.binaries host) :
    Guaranteed (answers cwd)
      (Confined cwd paths platform version) (paths.removeSymlink binary).run tree
      fun _ _ => True := by
  refine (observes_ask (.symlinkMetadata (paths.symlinkPath binary)) rfl).guaranteed_bind_lift
    confined_refl fun answer _ => ?_
  cases answer with
  | error cause => trivial
  | ok kind =>
      refine guaranteed_withContext.mpr fun answer tree' answered => ⟨?_, trivial⟩
      exact confined_answers (.removeFile (paths.symlinkPath binary))
        (fun location touched => .inr (.inr ⟨host, isHost, binary, managed, touched⟩)) answered

theorem observes_binaryPath (version binary : List Char) :
    Observes cwd tree (paths.binaryPath version binary) fun _ => True := by
  refine (observes_pathExists _).bind fun found _ => ?_
  split
  · exact observes_pure trivial
  · refine (observes_pathExists _).bind fun found _ => ?_
    split <;> exact observes_pure trivial

/-- A link is put in the place of what has its name. -/
theorem guaranteed_createSymlink {guarantee : Tree OsName FileContent → Tree OsName FileContent → Prop}
    (reflexive : ∀ tree, guarantee tree tree)
    (links : ∀ before after : Tree OsName FileContent, before.ChangesWithin
      (fun location => resolve cwd before false (paths.symlinkPath binary) =
        .ok location) after → guarantee before after) (version' : List Char) :
    Guaranteed (answers cwd) guarantee (paths.createSymlink version' binary).run tree
      fun _ _ => True := by
  have creates (source : Path OsName) (tree : Tree OsName FileContent) :
      Guaranteed (answers cwd) guarantee
        (ToolchainPaths.createLink source (paths.symlinkPath binary)).run tree fun _ _ => True :=
    guaranteed_withContext.mpr fun _ tree' answered =>
      ⟨links tree tree' (changesWithin_answers answered), trivial⟩
  refine (observes_binaryPath version' binary).guaranteed_bind_lift reflexive fun source _ => ?_
  refine (observes_pathExists source).guaranteed_bind_lift reflexive fun found _ => ?_
  split
  · refine (observes_pathExists _).guaranteed_bind_lift reflexive fun found _ => ?_
    split
    · refine guaranteed_bind_fallible.mpr (guaranteed_withContext.mpr ?_)
      intro answer tree' answered
      refine ⟨links tree tree' (changesWithin_answers answered), ?_⟩
      cases answer with
      | ok value => exact creates source tree'
      | error cause => trivial
    · exact creates source tree
  · trivial

theorem confined_removeSymlinks :
    Guaranteed (answers cwd)
      (Confined cwd paths platform version) (paths.removeSymlinks platform).run tree
      fun _ _ => True := by
  cases isHost : platform with
  | none => trivial
  | some host =>
      exact guaranteed_forM fun binary managed tree => confined_removeSymlink rfl managed

/-- `bin` is created if it is missing, and links are put in the places of the managed ones. -/
theorem guaranteed_updateSymlinks {root : Path OsName}
    {guarantee : Tree OsName FileContent → Tree OsName FileContent → Prop}
    (reaches : Reaches cwd tree root directory)
    (reflexive : ∀ tree, guarantee tree tree)
    (creates : platform ≠ none → ∀ tree', tree.ChangesWithin
      (Touches cwd tree (.createDir (ToolchainPaths.withRoot root).bin)) tree' →
        guarantee tree tree')
    (links : ∀ host, platform = some host → ∀ binary ∈ ToolchainPaths.binaries host,
      ∀ before after : Tree OsName FileContent, before.ChangesWithin (fun location =>
        resolve cwd before false ((ToolchainPaths.withRoot root).symlinkPath binary) =
          .ok location) after → guarantee before after) (version' : List Char) :
    Guaranteed (answers cwd) guarantee
      ((ToolchainPaths.withRoot root).updateSymlinks platform version').run tree
      fun _ _ => True := by
  cases platform with
  | none => trivial
  | some host =>
      refine guaranteed_bind_fallible.mpr (guaranteed_pure_fallible.mpr ?_)
      refine guaranteed_bind_fallible.mpr (guaranteed_withContext.mpr ?_)
      refine (guaranteed_createDirAll_child reaches _ reflexive ?_).weaken ?_
      · exact fun answer tree' answered =>
          creates (Option.some_ne_none _) tree' (changesWithin_answers answered)
      · intro answer tree' _
        cases answer with
        | error cause => trivial
        | ok value =>
            exact guaranteed_forM fun binary managed tree =>
              guaranteed_createSymlink reflexive (links host rfl binary managed) version'

/-- New links keep to the bounds when `bin` is there, or may be created. -/
theorem confined_updateSymlinks {root : Path OsName} (reaches : Reaches cwd tree root directory)
    (binAllowed : platform ≠ none → ∀ location,
      Touches cwd tree (.createDir (ToolchainPaths.withRoot root).bin) location →
        MayChange cwd (.withRoot root) platform version tree location)
    (version' : List Char) :
    Guaranteed (answers cwd)
      (Confined cwd (.withRoot root) platform version)
      ((ToolchainPaths.withRoot root).updateSymlinks platform version').run tree
      fun _ _ => True := by
  refine guaranteed_updateSymlinks reaches confined_refl ?_ ?_ version'
  · exact fun detected tree' changes => changes.mono (binAllowed detected)
  · intro host isHost binary managed before after changes
    exact changes.mono fun location touched => .inr (.inr ⟨host, isHost, binary, managed, touched⟩)

theorem confined_setDefaultVersion
    (reaches : Reaches cwd tree paths.root directory) (version' : List Char) :
    Guaranteed (answers cwd)
      (Confined cwd paths platform version) (paths.setDefaultVersion version').run tree
      fun result tree' => result = .ok () →
        writeFile cwd tree paths.defaultFile (.text version') = .ok tree' := by
  have creates : Observes cwd tree
      (withContext "Failed to create directory: " paths.root (createDirAll paths.root)).run
      fun _ => True :=
    observes_withContext (observes_createDirAll reaches) (fun _ _ => trivial) fun _ => trivial
  refine creates.guaranteed_bind_run confined_refl (fun _ _ => ?_) ?_
  · refine guaranteed_withContext.mpr fun answer tree' answered => ⟨?_, ?_⟩
    · exact confined_answers (.write paths.defaultFile (.text version'))
        (fun location touched => .inr (.inl (.inr touched))) answered
    · intro returned
      rcases answered with performed | ⟨rfl, _⟩
      · rw [perform] at performed
        cases wrote : writeFile cwd tree paths.defaultFile (.text version') with
        | ok tree'' =>
            rw [wrote] at performed
            cases performed
            rfl
        | error cause =>
            rw [wrote] at performed
            cases performed
            cases returned
      · cases returned
  · intro _ _ returned
    cases returned

variable {root : Path OsName}

theorem confined_repairSymlinks :
    Guaranteed (answers cwd)
      (Confined cwd (.withRoot root) platform version)
      ((ToolchainPaths.withRoot root).repairSymlinks platform).run tree fun _ _ => True := by
  refine observes_validateSymlinks.guaranteed_bind_lift confined_refl fun broken found => ?_
  split
  · trivial
  next notEmpty =>
    rcases found notEmpty with ⟨binary, kind, looked⟩
    rcases metadata_eq_ok.mp looked with ⟨_, _, resolved, _, _⟩
    rcases reaches_of_resolve_joinName resolved with ⟨bin, reachesBin⟩
    have binThere (location : Location OsName) :
        ¬ Touches cwd tree (.createDir (ToolchainPaths.withRoot root).bin) location :=
      reachesBin.createDir_touches (isEmpty_joinName root _)
    have reachesRoot : ∃ directory, Reaches cwd tree root directory := by
      have opened : resolve cwd tree true (ToolchainPaths.withRoot root).bin = .ok bin :=
        reachesBin.resolves (isEmpty_joinName root _)
      exact reaches_of_resolve_joinName opened
    rcases reachesRoot with ⟨directory, reaches⟩
    refine observes_getDefaultVersion.guaranteed_bind_run confined_refl ?_ fun _ _ => trivial
    intro defaultVersion _
    cases defaultVersion with
    | none => exact confined_removeSymlinks
    | some defaultVersion =>
        refine observes_isVersionInstalled.guaranteed_bind_lift confined_refl fun installed _ => ?_
        split
        · exact confined_updateSymlinks reaches
            (fun _ location touched => absurd touched (binThere location)) defaultVersion
        · exact confined_removeSymlinks

theorem removes_plain (plain : isPlainName version = true)
    (removes : Removes cwd tree (paths.toolchainDir version) location) :
    MayChange cwd paths platform version tree location := by
  have named : paths.toolchainDir version = paths.toolchains.joinName (.text version) := by
    rw [ToolchainPaths.toolchainDir, parsePath_plain plain]
    rfl
  rw [named] at removes
  rcases removes_cases removes with ⟨top, resolved, here⟩
  rcases reaches_of_resolve_joinName resolved with ⟨directory, reaches⟩
  rw [reaches.resolve_joinName] at resolved
  cases resolved
  refine .inl ⟨plain, directory, reaches, ?_⟩
  rcases here with inside | resolved'
  · exact inside
  · have same := (reaches.resolve_joinName (.text version)).symm.trans resolved'
    cases same
    exact List.prefix_refl _

theorem uninstall_confined
    (removable : ∀ location,
      Removes cwd tree ((ToolchainPaths.withRoot root).toolchainDir version) location →
        MayChange cwd (.withRoot root) platform version tree location)
    (keepsBin : ¬ CreatesBin cwd (.withRoot root) platform version tree) :
    Guaranteed (answers cwd)
      (Confined cwd (.withRoot root) platform version)
      (uninstall (.withRoot root) platform version).run tree fun _ _ => True := by
  refine observes_isVersionInstalled.guaranteed_bind_lift confined_refl fun installed _ => ?_
  split
  case isFalse => trivial
  refine observes_getDefaultVersion.guaranteed_bind_run confined_refl ?_ fun _ _ => trivial
  intro defaultVersion isDefault
  refine guaranteed_bind_fallible.mpr (guaranteed_withContext.mpr fun answer removed answered => ?_)
  refine ⟨confined_answers (.removeDirAll _) removable answered, ?_⟩
  cases answer with
  | error cause => trivial
  | ok value =>
      have removal : removeDirAll cwd tree
          ((ToolchainPaths.withRoot root).toolchainDir version) = (.ok (), removed) := by
        rcases answered with performed | ⟨failed, _⟩
        · exact performed
        · cases failed
      dsimp only [Except.mapError]
      split
      case isTrue wasDefault =>
        refine observes_listInstalledVersions.guaranteed_bind_run confined_refl ?_
          fun _ _ => trivial
        intro versions listed
        split
        next =>
          refine guaranteed_bind_fallible.mpr (guaranteed_lift.mpr (guaranteed_bind.mpr ?_))
          intro answer tree' answered
          exact ⟨confined_answers (.removeFile (ToolchainPaths.withRoot root).defaultFile)
            (fun location touched => .inr (.inl (.inl touched))) answered, confined_removeSymlinks⟩
        next newDefault isLast =>
          have notEmpty : versions ≠ [] := by
            rintro rfl
            cases isLast
          have remaining := listed versions rfl notEmpty
          have reachesRoot : ∃ directory, Reaches cwd removed root directory := by
            rcases remaining with ⟨_, read, _⟩
            rcases readDir_eq_ok.mp read with ⟨_, resolved, _, _⟩
            exact reaches_of_resolve_joinName resolved
          rcases reachesRoot with ⟨directory, reaches⟩
          refine guaranteed_bind_fallible.mpr ?_
          refine (confined_setDefaultVersion reaches newDefault).weaken ?_
          intro result written wrote
          cases result with
          | error error => trivial
          | ok value =>
              refine confined_updateSymlinks (reaches.extends (writeFile_extends (wrote rfl))) ?_
                newDefault
              intro known location touched
              by_contra outside
              exact keepsBin ⟨known, isDefault version (congrArg Except.ok wasDefault), removed,
                removal, remaining, newDefault, written, wrote rfl, location, touched, outside⟩
      case isFalse =>
        refine observes_validateSymlinks.guaranteed_bind_lift confined_refl fun broken _ => ?_
        split
        · trivial
        · exact confined_repairSymlinks

end Changing

/-! ## Programs that leave the bounds -/

section Leaving

variable {root : Path OsName}

theorem mayChange_congr {tree' : Tree OsName FileContent}
    (same : ∀ location, tree'.get location = tree.get location)
    (allowed : MayChange cwd paths platform version tree' location) :
    MayChange cwd paths platform version tree location := by
  rcases allowed with ⟨plain, directory, reaches, inside⟩ | isDefault | ⟨host, isHost, managed⟩
  · exact .inl ⟨plain, directory, reaches.congr fun other => (same other).symm, inside⟩
  · refine .inr (.inl ?_)
    rcases isDefault with resolved | ⟨target, resolved, here⟩
    · rw [resolve_congr same] at resolved
      exact .inl resolved
    · rw [resolve_congr same] at resolved
      rw [same, same] at here
      exact .inr ⟨target, resolved, here⟩
  · refine .inr (.inr ⟨host, isHost, ?_⟩)
    rcases managed with ⟨binary, member, resolved⟩
    rw [resolve_congr same] at resolved
    exact ⟨binary, member, resolved⟩

/-- No failure of a request keeps the delete from being reached: a default file that cannot be
looked at counts as missing. -/
theorem removes_of_confined {kind : Kind}
    (installed : metadata cwd tree true (paths.toolchainDir version) = .ok kind)
    (holds : Guaranteed (answers cwd)
      (Confined cwd paths platform version)
      (uninstall paths platform version).run tree fun _ _ => True)
    (removes : Removes cwd tree (paths.toolchainDir version) location) :
    MayChange cwd paths platform version tree location := by
  have reached := runs_isVersionInstalled.rest_lift holds
  rw [installed] at reached
  have unread := guaranteed_bind_fallible.mp (guaranteed_bind_fallible.mp reached)
  have failing := (guaranteed_bind.mp (guaranteed_lift.mp unread) (.error .other) tree
    (.inr ⟨rfl, .untouched⟩)).2
  have deletes := guaranteed_withContext.mp (guaranteed_bind_fallible.mp failing)
  have step := (deletes _ _ (.inl rfl)).1
  by_contra outside
  have kept := (step location outside).entry
  exact removes.1 (kept.symm.trans removes.2)

theorem keepsBin_of_confined {kind : Kind}
    (installed : metadata cwd tree true
      ((ToolchainPaths.withRoot root).toolchainDir version) = .ok kind)
    (holds : Guaranteed (answers cwd)
      (Confined cwd (.withRoot root) platform version)
      (uninstall (.withRoot root) platform version).run tree fun _ _ => True) :
    ¬ CreatesBin cwd (.withRoot root) platform version tree := by
  rintro ⟨known, ⟨notEmpty, content, read, trimmed⟩, removed, removal, remaining, content', written,
    wrote, location, touched, outside⟩
  have reached := runs_isVersionInstalled.rest_lift holds
  rw [installed] at reached
  have deletes := (runs_getDefaultVersion read).rest_ok reached
  rw [trimmed, if_neg notEmpty] at deletes
  have lists := (runs_withContext_ok (runs_removeDirAll removal)).rest_ok deletes
  rw [if_pos rfl] at lists
  rcases remaining with ⟨entries, readEntries, name, isEntry, isDir⟩
  have reachesRoot : ∃ directory, Reaches cwd removed root directory := by
    rcases readDir_eq_ok.mp readEntries with ⟨_, resolved, _, _⟩
    exact reaches_of_resolve_joinName resolved
  rcases reachesRoot with ⟨directory, reaches⟩
  have sets := (runs_listInstalledVersions readEntries).rest_ok lists
  generalize sorted : (directoryNames cwd removed (.withRoot root) entries).mergeSort
    (fun version version' => decide (version ≤ version')) = versions at sets
  have listed : name ∈ versions := by
    rw [← sorted, List.mem_mergeSort, directoryNames, List.mem_filterMap]
    exact ⟨.text name, isEntry, if_pos isDir⟩
  cases isLast : versions.getLast? with
  | none =>
      rw [List.getLast?_eq_none_iff.mp isLast] at listed
      cases listed
  | some newDefault =>
      rw [isLast] at sets
      rcases writeFile_entries (.text newDefault) wrote with ⟨written', wrote', same⟩
      have updates := (runs_setDefaultVersion reaches wrote').rest_ok sets
      cases platform with
      | none => exact known rfl
      | some host =>
          have creates := guaranteed_withContext.mp (guaranteed_bind_fallible.mp
            (guaranteed_pure_fallible.mp (guaranteed_bind_fallible.mp updates)))
          have step := createDirAll_first (isEmpty_joinName root _) creates
          rcases touched with ⟨resolved, absent⟩
          rw [← resolve_congr same] at resolved
          rw [← same] at absent
          have created : createDir cwd written' (ToolchainPaths.withRoot root).bin =
              .ok (written'.set location .dir) :=
            createDir_eq_ok.mpr ⟨location, resolved, absent, rfl⟩
          change Confined cwd (.withRoot root) (some host) version written'
            (changed written'
              (createDir cwd written' (ToolchainPaths.withRoot root).bin)).2 at step
          rw [created] at step
          have kept := (step location fun allowed => outside (mayChange_congr same allowed)).entry
          have notRoot : location ≠ [] := by
            rintro rfl
            cases absent
          rw [absent] at kept
          change (written'.set location .dir).get location = none at kept
          rw [Tree.get_set _ _ _ _ notRoot, if_pos rfl] at kept
          cases kept

end Leaving

/-- In every run, whatever fails in it, an uninstallation keeps to its bounds exactly when nothing is
there under the version, or the version is a plain name, or else everything that the delete takes
away is the default file or a managed link; and `bin` is not missing when another version becomes the
default. -/
theorem uninstall_confined_iff (cwd : Location OsName) (root : Path OsName)
    (platform : Option Platform) (version : List Char) (tree : Tree OsName FileContent) :
    (Guaranteed (answers cwd)
      (Confined cwd (.withRoot root) platform version)
      (uninstall (.withRoot root) platform version).run tree fun _ _ => True) ↔
    (∀ kind, metadata cwd tree true
        ((ToolchainPaths.withRoot root).toolchainDir version) ≠ .ok kind) ∨
      (isPlainName version = true ∨ ∀ location,
        Removes cwd tree ((ToolchainPaths.withRoot root).toolchainDir version)
          location → MayChange cwd (.withRoot root) platform version tree location) ∧
      ¬ CreatesBin cwd (.withRoot root) platform version tree := by
  constructor
  · intro holds
    cases installed : metadata cwd tree true
        ((ToolchainPaths.withRoot root).toolchainDir version) with
    | error cause => exact .inl fun kind same => by cases same
    | ok kind =>
        exact .inr ⟨.inr fun location => removes_of_confined installed holds,
          keepsBin_of_confined installed holds⟩
  · rintro (missing | ⟨plain | removable, keepsBin⟩)
    · refine observes_isVersionInstalled.guaranteed_bind_lift confined_refl fun installed found => ?_
      split
      next isInstalled =>
        rcases found isInstalled with ⟨kind, looked⟩
        exact absurd looked (missing kind)
      next => trivial
    · exact uninstall_confined (fun location => removes_plain plain) keepsBin
    · exact uninstall_confined removable keepsBin

/-- Two versions are installed, and the first one is the default. -/
def twoVersions : Tree OsName FileContent where
  nodes :=
    [([textName "inf"], .dir),
      ([textName "inf", textName "default"], .file 0),
      ([textName "inf", textName "toolchains"], .dir),
      ([textName "inf", textName "toolchains", textName "0.1.0"], .dir),
      ([textName "inf", textName "toolchains", textName "0.2.0"], .dir)]
  contents := fun _ => .text "0.1.0".toList

/-- `infs uninstall ..` deletes all versions. -/
theorem uninstallParent_leaves :
    ¬ Guaranteed (answers [])
      (Confined [] (.withRoot (parsePath "/inf".toList)) (some .linuxX64) "..".toList)
      (uninstall (.withRoot (parsePath "/inf".toList)) (some .linuxX64) "..".toList).run twoVersions
      fun _ _ => True := by
  intro holds
  have installed : metadata [] twoVersions true
      ((ToolchainPaths.withRoot (parsePath "/inf".toList)).toolchainDir "..".toList) = .ok .dir := by
    decide +kernel
  have removes : Removes [] twoVersions
      ((ToolchainPaths.withRoot (parsePath "/inf".toList)).toolchainDir "..".toList)
      [textName "inf", textName "toolchains", textName "0.2.0"] := by
    unfold Removes
    decide +kernel
  have notDefault (follow : Bool) : resolve [] twoVersions follow
      (ToolchainPaths.withRoot (parsePath "/inf".toList)).defaultFile ≠
        .ok [textName "inf", textName "toolchains", textName "0.2.0"] := by
    cases follow <;> decide +kernel
  have isDir : twoVersions.get [textName "inf", textName "toolchains", textName "0.2.0"] =
      some .dir := by decide +kernel
  have notManaged : ∀ binary ∈ ToolchainPaths.binaries .linuxX64, resolve [] twoVersions false
      ((ToolchainPaths.withRoot (parsePath "/inf".toList)).symlinkPath binary) ≠
        .ok [textName "inf", textName "toolchains", textName "0.2.0"] := by
    decide +kernel
  rcases removes_of_confined installed holds removes with
    ⟨plain, _⟩ | (resolved | ⟨target, resolved, rfl | ⟨inode, _, isFile⟩⟩) |
      ⟨host, isHost, binary, managed, resolved⟩
  · cases plain
  · exact notDefault false resolved
  · exact notDefault true resolved
  · rw [isDir] at isFile
    cases isFile
  · cases isHost
    exact notManaged binary managed resolved

end Inference.Infs
