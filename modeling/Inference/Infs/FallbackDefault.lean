import Inference.Foundation.AskedRequests
import Inference.Foundation.FileKeeping
import Inference.Infs.UninstallConfinement
import Inference.Infs.VersionSelection

/-! # The version an uninstallation falls back to

The installed versions are listed by the order of their texts, and when the default version is
uninstalled, the last one of the list becomes the default. A manifest is listed by the order of its
versions.
-/

namespace Inference.Infs

open Effects FileSystem

/-- The text that a request writes to the default file. -/
def writtenDefault (paths : ToolchainPaths) : Request OsName FileContent → Option (List Char)
  | .write path (.text content) => if path = paths.defaultFile then some content else none
  | _ => none

variable {names : List (List Char)} {last : List Char} {after : Tree OsName FileContent}

section Writing

variable {cwd : Location OsName} {paths : ToolchainPaths} {platform : Option Platform}
  {tree tree' : Tree OsName FileContent} {α β : Type}

variable (cwd paths tree) in
/-- The texts that a run writes to the default file, one after the other. -/
def defaultTexts (program : Asking α) : List (List Char) :=
  (program.asked (perform cwd) tree).filterMap (writtenDefault paths)

variable (paths) in
/-- A program that never writes the default file. -/
def KeepsDefault (program : Asking α) : Prop :=
  program.Asks fun request => writtenDefault paths request = none

theorem defaultTexts_bind {program : Asking α} {rest : α → Asking β} {value : α}
    (runs : Runs cwd tree program value tree') :
    defaultTexts cwd paths tree (program >>= rest) =
      defaultTexts cwd paths tree program ++
        defaultTexts cwd paths tree' (rest value) := by
  unfold defaultTexts
  rw [Program.asked_bind, runs, List.filterMap_append]

theorem defaultTexts_eq_nil {program : Asking α} (keeps : KeepsDefault paths program) :
    defaultTexts cwd paths tree program = [] :=
  List.filterMap_eq_nil_iff.mpr keeps.asked

/-- The texts that are written behind a part that returns. -/
theorem defaultTexts_bind_ok {program : Installer α} {rest : α → Installer β} {value : α}
    (runs : Runs cwd tree program.run (.ok value) tree')
    (keeps : KeepsDefault paths program.run) :
    defaultTexts cwd paths tree (program >>= rest).run =
      defaultTexts cwd paths tree' (rest value).run := by
  refine (defaultTexts_bind runs).trans ?_
  rw [defaultTexts_eq_nil keeps]
  rfl

theorem defaultTexts_bind_lift {program : Asking α} {rest : α → Installer β} {value : α}
    (runs : Runs cwd tree program value tree') (keeps : KeepsDefault paths program) :
    defaultTexts cwd paths tree ((liftM program : Installer α) >>= rest).run =
      defaultTexts cwd paths tree' (rest value).run :=
  defaultTexts_bind_ok (Runs.bind runs (runs_pure _)) (Program.Asks.lift keeps)

theorem defaultTexts_bind_keeps {program : Installer α} {rest : α → Installer β}
    (keeps : ∀ value, KeepsDefault paths (rest value).run) :
    defaultTexts cwd paths tree (program >>= rest).run =
      defaultTexts cwd paths tree program.run := by
  refine (defaultTexts_bind rfl).trans ?_
  generalize (Program.run (perform cwd) program tree).1 = result
  cases result with
  | ok value => exact (congrArg _ (defaultTexts_eq_nil (keeps value))).trans (List.append_nil _)
  | error error => exact List.append_nil _

/-! ## Programs that keep the default file -/

theorem keeps_withContext {message : String} {path : Path OsName}
    {asked : Asking (Except ErrorKind α)} (keeps : KeepsDefault paths asked) :
    KeepsDefault paths (withContext message path asked).run := by
  refine Program.Asks.bind keeps fun answer => ?_
  cases answer <;> trivial

theorem keeps_ask (request : Request OsName FileContent)
    (keeps : writtenDefault paths request = none) : KeepsDefault paths (ask request) :=
  Program.asks_request keeps

theorem keeps_pathExists (path : Path OsName) : KeepsDefault paths (pathExists path) :=
  Program.Asks.bind (keeps_ask (.metadata path) rfl) fun _ => trivial

theorem keeps_isKind (kind : Kind) (path : Path OsName) :
    KeepsDefault paths (isKind kind path) := by
  refine Program.Asks.bind (keeps_ask (.metadata path) rfl) fun answer => ?_
  cases answer <;> trivial

theorem keeps_createDirAllFrom (fuel : Nat) (path : Path OsName) :
    KeepsDefault paths (createDirAllFrom fuel path) := by
  have looks (path : Path OsName) (error : ErrorKind) : KeepsDefault paths (do
      if ← isKind .dir path then return Except.ok () else return .error error) := by
    refine Program.Asks.bind (keeps_isKind .dir path) fun found => ?_
    split <;> trivial
  induction fuel generalizing path with
  | zero => trivial
  | succ fuel induction =>
      unfold createDirAllFrom
      split
      · trivial
      · refine Program.Asks.bind (keeps_ask (.createDir path) rfl) fun answer => ?_
        cases answer with
        | ok value => trivial
        | error error =>
            cases error with
            | notFound =>
                dsimp only
                split
                · trivial
                · refine Program.Asks.bind (induction _) fun result => ?_
                  cases result with
                  | error error => trivial
                  | ok value =>
                      refine Program.Asks.bind (keeps_ask (.createDir path) rfl)
                        fun answer => ?_
                      cases answer with
                      | ok value => trivial
                      | error error => exact looks path error
            | _ => exact looks path _

theorem keeps_createDirAll (path : Path OsName) : KeepsDefault paths (createDirAll path) :=
  keeps_createDirAllFrom _ path

theorem keeps_isVersionInstalled (version : List Char) :
    KeepsDefault paths (paths.isVersionInstalled version) :=
  keeps_pathExists _

theorem keeps_getDefaultVersion : KeepsDefault paths paths.getDefaultVersion.run := by
  refine Program.Asks.bind_fallible (Program.Asks.lift (keeps_pathExists _)) fun found => ?_
  split
  · refine Program.Asks.bind_fallible (keeps_withContext ?_) fun content => trivial
    refine Program.Asks.bind (keeps_ask (.read paths.defaultFile) rfl) fun answer => ?_
    cases answer with
    | error cause => trivial
    | ok content => cases content <;> trivial
  · trivial

theorem keeps_listDirectories (entries : List OsName) :
    KeepsDefault paths (paths.listDirectories entries) := by
  induction entries with
  | nil => trivial
  | cons entry entries induction =>
      refine Program.Asks.bind (keeps_isKind .dir _) fun isDir => ?_
      refine Program.Asks.bind induction fun versions => ?_
      cases entry <;> trivial

theorem keeps_listInstalledVersions : KeepsDefault paths paths.listInstalledVersions.run := by
  refine Program.Asks.bind_fallible (Program.Asks.lift (keeps_pathExists _)) fun found => ?_
  split
  · refine Program.Asks.bind_fallible
      (keeps_withContext (keeps_ask (.readDir paths.toolchains) rfl)) fun entries => ?_
    exact Program.Asks.bind_fallible (Program.Asks.lift (keeps_listDirectories entries))
      fun versions => trivial
  · trivial

theorem keeps_binaryPath (version binary : List Char) :
    KeepsDefault paths (paths.binaryPath version binary) := by
  refine Program.Asks.bind (keeps_pathExists _) fun found => ?_
  split
  · trivial
  · refine Program.Asks.bind (keeps_pathExists _) fun found => ?_
    split <;> trivial

theorem keeps_createSymlink (version binary : List Char) :
    KeepsDefault paths (paths.createSymlink version binary).run := by
  refine Program.Asks.bind_fallible (Program.Asks.lift (keeps_binaryPath version binary))
    fun source => ?_
  refine Program.Asks.bind_fallible (Program.Asks.lift (keeps_pathExists _)) fun found => ?_
  split
  · refine Program.Asks.bind_fallible (Program.Asks.lift (keeps_pathExists _)) fun found => ?_
    split
    · refine Program.Asks.bind_fallible
        (keeps_withContext (keeps_ask (.removeFile (paths.symlinkPath binary)) rfl)) fun _ => ?_
      exact keeps_withContext (keeps_ask (.symlink source _) rfl)
    · exact keeps_withContext (keeps_ask (.symlink source _) rfl)
  · trivial

theorem keeps_updateSymlinks (version : List Char) :
    KeepsDefault paths (paths.updateSymlinks platform version).run := by
  have detects : KeepsDefault paths (ToolchainPaths.detect platform).run := by
    cases platform <;> trivial
  refine Program.Asks.bind_fallible detects fun host => ?_
  refine Program.Asks.bind_fallible (keeps_withContext (keeps_createDirAll paths.bin)) fun _ => ?_
  exact Program.asks_forM fun binary _ => keeps_createSymlink version binary

/-! ## Installed versions -/

section Installed

variable (cwd paths tree)

/-- The directories in the toolchains directory. -/
def installedNames : List (List Char) :=
  match readDir cwd tree paths.toolchains with
  | .ok entries => directoryNames cwd tree paths entries
  | .error _ => []

/-- The version is the default one, and its removal leaves the tree. -/
structure UninstallsDefault (version : List Char) (removed : Tree OsName FileContent) : Prop where
  installed : ∃ kind,
    metadata cwd tree true (paths.toolchainDir version) = .ok kind
  default : IsDefault cwd paths tree version
  removes : removeDirAll cwd tree (paths.toolchainDir version) = (.ok (), removed)

variable {cwd paths tree}

/-- The names of the installed versions, in the order of their texts. -/
def sortedNames (names : List (List Char)) : List (List Char) :=
  names.mergeSort fun version version' => decide (version ≤ version')

theorem mem_sortedNames {name : List Char} :
    name ∈ sortedNames names ↔ name ∈ names :=
  List.mem_mergeSort

theorem sortedNames_pairwise (names : List (List Char)) :
    (sortedNames names).Pairwise (· ≤ ·) := by
  have sorted := @List.pairwise_mergeSort _
    (fun version version' : List Char => decide (version ≤ version'))
    (fun _ _ _ first second => by
      rw [decide_eq_true_eq] at first second ⊢
      exact first.trans second)
    (fun version version' => by
      rw [Bool.or_eq_true, decide_eq_true_eq, decide_eq_true_eq]
      exact le_total version version') names
  exact sorted.imp fun less => of_decide_eq_true less

theorem sortedNames_getLast (isLast : (sortedNames names).getLast? = some last) :
    last ∈ names ∧ ∀ other ∈ names, other ≤ last := by
  have member : last ∈ sortedNames names := List.mem_of_getLast? isLast
  refine ⟨mem_sortedNames.mp member, fun other isName => ?_⟩
  have sorted := sortedNames_pairwise names
  have inside := mem_sortedNames.mpr isName
  rcases List.getLast?_eq_some_iff.mp isLast with ⟨front, split⟩
  rw [split] at sorted inside
  rcases List.mem_append.mp inside with before | isSame
  · exact (List.pairwise_append.mp sorted).2.2 other before last List.mem_cons_self
  · exact (List.mem_singleton.mp isSame).le

theorem runs_listInstalledVersions_some (found : installedNames cwd paths tree ≠ []) :
    Runs cwd tree paths.listInstalledVersions.run
      (.ok (sortedNames (installedNames cwd paths tree))) tree := by
  unfold installedNames at found ⊢
  cases read : readDir cwd tree paths.toolchains with
  | error cause =>
      rw [read] at found
      exact absurd rfl found
  | ok entries => exact runs_listInstalledVersions read

/-- The list that is returned, if one is. -/
theorem listInstalledVersions_eq {versions : List (List Char)}
    (runs : Runs cwd tree paths.listInstalledVersions.run (.ok versions) after) :
    versions = sortedNames (installedNames cwd paths tree) := by
  cases read : readDir cwd tree paths.toolchains with
  | ok entries =>
      have same := (runs_listInstalledVersions read).symm.trans runs
      cases same
      rw [installedNames, read]
      rfl
  | error cause =>
      rw [installedNames, read]
      cases found : metadata cwd tree true paths.toolchains with
      | error missing =>
          have none : Runs cwd tree paths.listInstalledVersions.run (.ok []) tree := by
            refine (runs_pathExists paths.toolchains).bind_lift ?_
            rw [found]
            exact runs_pure _
          have same := none.symm.trans runs
          cases same
          exact List.mergeSort_nil.symm
      | ok kind =>
          have fails : Runs cwd tree paths.listInstalledVersions.run
              (.error (.context "Failed to read toolchains directory: " paths.toolchains cause))
              tree := by
            refine (runs_pathExists paths.toolchains).bind_lift ?_
            rw [found]
            refine Runs.bind_error (runs_withContext_error ?_)
            rw [Runs, ← read]
            rfl
          have same := fails.symm.trans runs
          cases same

end Installed

/-! ## The fallback -/

/-- The default file is written once, with the given version. -/
theorem defaultTexts_setDefaultVersion {root : Path OsName} {directory : Location OsName}
    (reaches : Reaches cwd tree root directory) (version : List Char) :
    defaultTexts cwd (.withRoot root) tree
      ((ToolchainPaths.withRoot root).setDefaultVersion version).run = [version] := by
  refine (defaultTexts_bind_ok (runs_withContext_ok (runs_createDirAll reaches))
    (keeps_withContext (keeps_createDirAll root))).trans ?_
  unfold withContext defaultTexts
  change ((Program.asked (perform cwd) (ask (.write _ _) >>= _) tree).filterMap _) = _
  rw [Program.asked_bind]
  generalize (Program.run (perform cwd) (ask _) tree).1 = answer
  cases answer <;> simp [ask, Program.request, Program.asked, writtenDefault, pure]

variable {root : Path OsName} {version : List Char} {removed : Tree OsName FileContent}

theorem reaches_root (nonempty : installedNames cwd (.withRoot root) removed ≠ []) :
    ∃ directory, Reaches cwd removed root directory := by
  unfold installedNames at nonempty
  cases listed : readDir cwd removed (ToolchainPaths.withRoot root).toolchains with
  | error cause =>
      rw [listed] at nonempty
      exact absurd rfl nonempty
  | ok entries =>
      rcases readDir_eq_ok.mp listed with ⟨_, resolved, _, _⟩
      exact reaches_of_resolve_joinName resolved

/-- Where the default version is uninstalled, the last one of the list of the others is written to
the default file, and nothing else. -/
theorem defaultTexts_uninstall
    (uninstalls : UninstallsDefault cwd (.withRoot root) tree version removed)
    (isLast : (sortedNames (installedNames cwd (.withRoot root) removed)).getLast? =
      some last) :
    defaultTexts cwd (.withRoot root) tree
      (uninstall (.withRoot root) platform version).run = [last] := by
  rcases uninstalls.installed with ⟨kind, found⟩
  rcases uninstalls.default with ⟨notEmpty, content, read, trimmed⟩
  have nonempty : installedNames cwd (.withRoot root) removed ≠ [] :=
    List.ne_nil_of_mem (sortedNames_getLast isLast).1
  rcases reaches_root nonempty with ⟨directory, reaches⟩
  have isDefault := runs_getDefaultVersion read
  rw [trimmed, if_neg notEmpty] at isDefault
  refine (defaultTexts_bind_lift runs_isVersionInstalled
    (keeps_isVersionInstalled version)).trans ?_
  rw [found]
  refine (defaultTexts_bind_ok isDefault keeps_getDefaultVersion).trans ?_
  refine (defaultTexts_bind_ok (runs_withContext_ok (runs_removeDirAll uninstalls.removes))
    (keeps_withContext (keeps_ask (.removeDirAll _) rfl))).trans ?_
  rw [if_pos rfl]
  refine (defaultTexts_bind_ok (runs_listInstalledVersions_some nonempty)
    keeps_listInstalledVersions).trans ?_
  rw [isLast]
  exact (defaultTexts_bind_keeps fun _ => keeps_updateSymlinks last).trans
    (defaultTexts_setDefaultVersion reaches last)

/-- Behind the removal the last one of the others is made the default, and linked to. -/
theorem runs_uninstall
    (uninstalls : UninstallsDefault cwd (.withRoot root) tree version removed)
    (isLast : (sortedNames (installedNames cwd (.withRoot root) removed)).getLast? =
      some last) {result : Except InfsError Unit} (runs : Runs cwd removed (do
      (ToolchainPaths.withRoot root).setDefaultVersion last
      (ToolchainPaths.withRoot root).updateSymlinks platform last : Installer Unit).run result
        after) :
    Runs cwd tree (uninstall (.withRoot root) platform version).run result after := by
  rcases uninstalls.installed with ⟨kind, found⟩
  rcases uninstalls.default with ⟨notEmpty, content, read, trimmed⟩
  have nonempty : installedNames cwd (.withRoot root) removed ≠ [] :=
    List.ne_nil_of_mem (sortedNames_getLast isLast).1
  have isDefault := runs_getDefaultVersion read
  rw [trimmed, if_neg notEmpty] at isDefault
  refine runs_isVersionInstalled.bind_lift ?_
  rw [found]
  refine isDefault.bind_ok ?_
  refine (runs_withContext_ok (runs_removeDirAll uninstalls.removes)).bind_ok ?_
  rw [if_pos rfl]
  refine (runs_listInstalledVersions_some nonempty).bind_ok ?_
  rw [isLast]
  exact runs

/-! ## What the links leave alone -/

/-- The location has the name of a managed binary. -/
def namesBinary (platform : Option Platform) (location : Location OsName) : Bool :=
  platform.any fun host => (ToolchainPaths.binaries host).any fun binary =>
    decide (location.getLast? = some (.text binary))

theorem namesBinary_default (platform : Option Platform) (directory : Location OsName) :
    namesBinary platform (directory ++ [textName "default"]) = false := by
  cases platform with
  | none => rfl
  | some host =>
      rw [namesBinary, Option.any_some, List.getLast?_concat]
      cases host <;> decide

/-- All that is there stays, but for what has the name of a managed binary. -/
def KeepsOthers (platform : Option Platform) (before after : Tree OsName FileContent) : Prop :=
  ∀ location node, before.get location = some node → namesBinary platform location = false →
    before.Untouched after location

theorem KeepsOthers.refl (tree : Tree OsName FileContent) : KeepsOthers platform tree tree :=
  fun _ _ _ _ => ⟨rfl, fun _ _ => rfl⟩

theorem KeepsOthers.trans {before middle after : Tree OsName FileContent}
    (first : KeepsOthers platform before middle) (second : KeepsOthers platform middle after) :
    KeepsOthers platform before after := by
  intro location node found other
  have kept := first location node found other
  have kept' := second location node (kept.entry.trans found) other
  refine ⟨kept'.entry.trans kept.entry, fun inode isFile => ?_⟩
  exact (kept'.contents inode (kept.entry.trans isFile)).trans (kept.contents inode isFile)

theorem updateSymlinks_keepsOthers {directory : Location OsName}
    (reaches : Reaches cwd tree root directory) :
    Guaranteed (answers cwd) (KeepsOthers platform)
      ((ToolchainPaths.withRoot root).updateSymlinks platform last).run tree fun _ _ => True := by
  refine guaranteed_updateSymlinks reaches KeepsOthers.refl ?_ ?_ last
  · intro _ tree' changes location node found _
    refine changes location fun touched => ?_
    rw [touched.2] at found
    cases found
  · intro host isHost binary managed before after changes location node _ other
    refine changes location fun resolved => ?_
    rcases reaches_of_resolve_joinName resolved with ⟨bin, reachesBin⟩
    cases Except.ok.inj (resolved.symm.trans (reachesBin.resolve_joinName (.text binary)))
    rw [namesBinary, isHost, Option.any_some, List.any_eq_false] at other
    exact other binary managed (decide_eq_true List.getLast?_concat)

variable (cwd paths platform) in
/-- The version is what is read when it has been written, and the default file is no link, in a root
that is reached without what has the name of a managed binary. -/
structure DefaultApart (removed : Tree OsName FileContent) (newest : List Char) : Prop where
  notEmpty : newest ≠ []
  trimmed : trim newest = newest
  plain : ∃ directory,
    Reaches cwd (removed.erase (namesBinary platform)) paths.root directory ∧
      ∀ target, removed.get (directory ++ [textName "default"]) ≠ some (.link target)

theorem extends_of_keepsOthers
    (extends_ : tree.Extends tree') (keeps : KeepsOthers platform tree' after) :
    (tree.erase (namesBinary platform)).Extends after := by
  intro location node found
  by_cases isRoot : location = []
  · rw [isRoot] at found ⊢
    exact found
  · rw [Tree.get_erase _ _ _ isRoot] at found
    split at found
    next => cases found
    next other =>
      have there := extends_ location node found
      exact (keeps location node there (Bool.eq_false_iff.mpr other)).entry.trans there

/-- A default file that is written in the root is read as it was written, also when the managed links
are replaced. -/
theorem DefaultApart.reads {newest : List Char} {written : Tree OsName FileContent}
    (apart : DefaultApart cwd (.withRoot root) platform removed newest)
    (wrote : writeFile cwd removed (ToolchainPaths.withRoot root).defaultFile
      (.text newest) = .ok written) (keeps : KeepsOthers platform written after) :
    readFile cwd after (ToolchainPaths.withRoot root).defaultFile =
      .ok (.text newest) := by
  rcases apart.plain with ⟨directory, reaches, notLink⟩
  have reachesHere := reaches.extends
    (extends_of_keepsOthers (fun _ _ found => found) (KeepsOthers.refl removed))
  have reachesAfter := reaches.extends (extends_of_keepsOthers (writeFile_extends wrote) keeps)
  rcases writeFile_eq_ok.mp wrote with ⟨location, resolved, outcome⟩
  cases Except.ok.inj (resolved.symm.trans (reachesHere.resolve_notLink notLink))
  obtain ⟨inode, isFile, holds⟩ : ∃ inode,
      written.get (directory ++ [textName "default"]) = some (.file inode) ∧
        written.contents inode = .text newest := by
    rcases outcome with ⟨absent, rfl⟩ | ⟨inode, isFile, rfl⟩
    · refine ⟨removed.freshInode, ?_, Function.update_self _ _ _⟩
      rw [Tree.get_create _ _ _ _ (notRoot_of_absent absent), if_pos rfl]
    · exact ⟨inode, isFile, Function.update_self _ _ _⟩
  have kept := keeps _ _ isFile (namesBinary_default platform directory)
  refine readFile_eq_ok.mpr ⟨_, inode, ?_, kept.entry.trans isFile, ?_⟩
  · refine reachesAfter.resolve_notLink fun target isLink => ?_
    rw [kept.entry, isFile] at isLink
    cases isLink
  · rw [kept.contents inode isFile, holds]

/-- A run that succeeds leaves the last one of the others as the default. -/
theorem uninstall_leavesDefault
    (uninstalls : UninstallsDefault cwd (.withRoot root) tree version removed)
    (isLast : (sortedNames (installedNames cwd (.withRoot root) removed)).getLast? =
      some last) (apart : DefaultApart cwd (.withRoot root) platform removed last)
    (runs : Runs cwd tree (uninstall (.withRoot root) platform version).run (.ok ())
      after) : IsDefault cwd (.withRoot root) after last := by
  rcases reaches_root (List.ne_nil_of_mem (sortedNames_getLast isLast).1) with ⟨directory, reaches⟩
  have whole : Runs cwd tree (uninstall (.withRoot root) platform version).run _ _ :=
    runs_uninstall uninstalls isLast rfl
  rcases whole.unique runs with ⟨succeeds, rfl⟩
  rcases Runs.parts_ok (Prod.ext succeeds rfl) with ⟨_, written, sets, links⟩
  have restrains : Guaranteed (answers cwd)
      (Confined cwd (.withRoot root) platform version)
      ((ToolchainPaths.withRoot root).setDefaultVersion last).run removed _ :=
    confined_setDefaultVersion reaches last
  have wrote := sets.satisfies restrains rfl
  have others : Guaranteed (answers cwd) (KeepsOthers platform)
      ((ToolchainPaths.withRoot root).updateSymlinks platform last).run written _ :=
    updateSymlinks_keepsOthers (reaches.extends (writeFile_extends wrote))
  have keeps := others.invariant (fun _ _ kept step => KeepsOthers.trans kept step)
    (KeepsOthers.refl written) links.steps
  exact ⟨apart.notEmpty, last, apart.reads wrote keeps, apart.trimmed⟩

/-! ## The newest version -/

section Newest

variable {Version : Type} [LinearOrder Version] (parse : List Char → Option Version)

/-- One of the versions, and no other is higher. -/
def IsNewest (names : List (List Char)) (newest : List Char) : Prop :=
  newest ∈ names ∧ ∀ other ∈ names, (compareVersions parse other newest).isLE

variable (cwd paths platform tree)

/-- The installed versions are listed in the order of the versions, and where the default version is
uninstalled and others remain, the newest one of them becomes the default. -/
structure FallsBackToNewest : Prop where
  listed : ∀ versions after,
    Runs cwd tree paths.listInstalledVersions.run (.ok versions) after →
      versions.Perm (installedNames cwd paths tree) ∧
        versions.Pairwise fun version version' => (compareVersions parse version version').isLE
  fallback : ∀ version removed, UninstallsDefault cwd paths tree version removed →
    installedNames cwd paths removed ≠ [] →
      ∃ newest, defaultTexts cwd paths tree (uninstall paths platform version).run =
          [newest] ∧
        IsNewest parse (installedNames cwd paths removed) newest ∧
        ∀ after, Runs cwd tree (uninstall paths platform version).run (.ok ()) after →
          DefaultApart cwd paths platform removed newest →
            IsDefault cwd paths after newest

/-- Among the installed versions, the order of the texts is the one of the versions, and where the
default version is uninstalled, the last text of the remaining ones is the newest version. -/
structure TextOrderAgrees : Prop where
  installed : ∀ version ∈ installedNames cwd paths tree,
    ∀ version' ∈ installedNames cwd paths tree, version ≤ version' →
      (compareVersions parse version version').isLE
  remaining : ∀ version removed, UninstallsDefault cwd paths tree version removed →
    ∀ last ∈ installedNames cwd paths removed,
      (∀ other ∈ installedNames cwd paths removed, other ≤ last) →
        ∀ other ∈ installedNames cwd paths removed,
          (compareVersions parse other last).isLE

variable {cwd paths platform tree parse}

/-- A list that is sorted by its texts is in another order exactly if the texts are. -/
theorem sortedNames_pairwise_iff :
    (sortedNames names).Pairwise (fun version version' =>
        (compareVersions parse version version').isLE) ↔
      ∀ version ∈ names, ∀ version' ∈ names, version ≤ version' →
        (compareVersions parse version version').isLE := by
  constructor
  · intro ordered version member version' member' less
    have downwards : (sortedNames names).Pairwise
        (flip fun version version' : List Char =>
          version ≤ version' → (compareVersions parse version version').isLE = true) := by
      refine (sortedNames_pairwise names).imp fun less greater => ?_
      rw [le_antisymm less greater]
      exact Std.ReflCmp.isLE_rfl
    have upwards : (sortedNames names).Pairwise fun version version' : List Char =>
        version ≤ version' → (compareVersions parse version version').isLE = true := by
      refine ordered.imp ?_
      intro version version' holds _
      exact holds
    exact upwards.forall_of_forall_of_flip (fun _ _ _ => Std.ReflCmp.isLE_rfl) downwards
      (mem_sortedNames.mpr member) (mem_sortedNames.mpr member') less
  · intro agrees
    refine (sortedNames_pairwise names).imp_of_mem fun member member' less => ?_
    exact agrees _ (mem_sortedNames.mp member) _ (mem_sortedNames.mp member') less

theorem exists_getLast_sortedNames (nonempty : names ≠ []) :
    ∃ last, (sortedNames names).getLast? = some last := by
  have sortedSome : sortedNames names ≠ [] := by
    intro none
    rcases List.exists_mem_of_ne_nil _ nonempty with ⟨name, member⟩
    have impossible := mem_sortedNames.mpr member
    rw [none] at impossible
    cases impossible
  exact ⟨_, List.getLast?_eq_getLast_of_ne_nil sortedSome⟩

/-- The newest version becomes the default, and the installed versions are listed in their order,
exactly if the order of their texts agrees with it. -/
theorem fallsBackToNewest_iff (cwd : Location OsName) (root : Path OsName)
    (platform : Option Platform) (tree : Tree OsName FileContent)
    (parse : List Char → Option Version) :
    FallsBackToNewest cwd (.withRoot root) platform tree parse ↔
      TextOrderAgrees cwd (.withRoot root) tree parse := by
  constructor
  · rintro ⟨listed, fallback⟩
    constructor
    · intro version member version' member' less
      have nonempty : installedNames cwd (.withRoot root) tree ≠ [] :=
        List.ne_nil_of_mem member
      have ordered := (listed _ _ (runs_listInstalledVersions_some nonempty)).2
      exact sortedNames_pairwise_iff.mp ordered version member version' member' less
    · intro version removed uninstalls last member isLast
      have nonempty : installedNames cwd (.withRoot root) removed ≠ [] :=
        List.ne_nil_of_mem member
      rcases exists_getLast_sortedNames nonempty with ⟨chosen, isChosen⟩
      rcases fallback version removed uninstalls nonempty with ⟨newest, written, isNewest, _⟩
      rw [defaultTexts_uninstall uninstalls isChosen] at written
      rcases sortedNames_getLast isChosen with ⟨chosenMember, chosenLast⟩
      have same : last = chosen := le_antisymm (chosenLast last member) (isLast chosen chosenMember)
      rw [same, List.head_eq_of_cons_eq written]
      exact isNewest.2
  · rintro ⟨installed, remaining⟩
    constructor
    · intro versions after runs
      rw [listInstalledVersions_eq runs]
      exact ⟨List.mergeSort_perm _ _, sortedNames_pairwise_iff.mpr installed⟩
    · intro version removed uninstalls nonempty
      rcases exists_getLast_sortedNames nonempty with ⟨chosen, isChosen⟩
      rcases sortedNames_getLast isChosen with ⟨member, isLast⟩
      refine ⟨chosen, defaultTexts_uninstall uninstalls isChosen, ⟨member, ?_⟩, ?_⟩
      · exact remaining version removed uninstalls chosen member isLast
      · exact fun after runs apart => uninstall_leavesDefault uninstalls isChosen apart runs

end Newest

end Writing

/-! ## Two digits -/

/-- The default version 0.11.0 is installed, and two others. -/
def threeVersions : Tree OsName FileContent where
  nodes :=
    [([textName "inf"], .dir),
      ([textName "inf", textName "default"], .file 0),
      ([textName "inf", textName "toolchains"], .dir),
      ([textName "inf", textName "toolchains", textName "0.9.0"], .dir),
      ([textName "inf", textName "toolchains", textName "0.10.0"], .dir),
      ([textName "inf", textName "toolchains", textName "0.11.0"], .dir)]
  contents := fun _ => .text "0.11.0".toList

/-- The tree without the default version. -/
def twoLeft : Tree OsName FileContent :=
  (removeDirAll [] threeVersions
    ((ToolchainPaths.withRoot (parsePath "/inf".toList)).toolchainDir "0.11.0".toList)).2

theorem threeVersions_uninstalls :
    UninstallsDefault [] (.withRoot (parsePath "/inf".toList)) threeVersions "0.11.0".toList
      twoLeft := by
  refine ⟨⟨.dir, by decide +kernel⟩, ⟨by decide, "0.11.0".toList, ?_, by decide +kernel⟩, ?_⟩
  · decide +kernel
  · exact Prod.ext (by decide +kernel) rfl

theorem installedNames_twoLeft :
    installedNames [] (.withRoot (parsePath "/inf".toList)) twoLeft =
      ["0.9.0".toList, "0.10.0".toList] := by
  decide +kernel

example : DefaultApart [] (.withRoot (parsePath "/inf".toList)) (some .linuxX64) twoLeft
    "0.9.0".toList := by
  refine ⟨by decide, by decide, [textName "inf"], ?_, ?_⟩
  · have named : (ToolchainPaths.withRoot (parsePath "/inf".toList)).root =
        Path.joinName ⟨true, [], false⟩ (textName "inf") := by
      decide +kernel
    rw [named]
    exact Reaches.joinName ⟨rooted_root _, walk_nil, rooted_root _⟩ (by decide +kernel)
  · intro target isLink
    have isFile : twoLeft.get ([textName "inf"] ++ [textName "default"]) = some (.file 0) := by
      decide +kernel
    cases isLink.symm.trans isFile

/-- 0.9.0 becomes the default instead of 0.10.0. -/
theorem threeVersions_fallBackToOlder :
    ¬ FallsBackToNewest [] (.withRoot (parsePath "/inf".toList)) (some .linuxX64) threeVersions
      parseRelease := by
  intro fallsBack
  have nonempty : installedNames [] (.withRoot (parsePath "/inf".toList)) twoLeft ≠ [] := by
    rw [installedNames_twoLeft]
    exact List.cons_ne_nil _ _
  rcases fallsBack.fallback _ _ threeVersions_uninstalls nonempty with
    ⟨newest, written, ⟨_, isNewest⟩, _⟩
  rcases exists_getLast_sortedNames nonempty with ⟨last, isLast⟩
  rw [defaultTexts_uninstall threeVersions_uninstalls isLast] at written
  rcases sortedNames_getLast isLast with ⟨member, greatest⟩
  rw [← List.head_eq_of_cons_eq written, installedNames_twoLeft] at isNewest
  rw [installedNames_twoLeft] at member greatest
  rcases List.mem_pair.mp member with isFirst | isSecond
  · rw [isFirst] at isNewest
    exact absurd (isNewest "0.10.0".toList (by simp)) (by decide +kernel)
  · rw [isSecond] at greatest
    exact absurd (greatest "0.9.0".toList (by simp)) (by decide +kernel)

end Inference.Infs
