import Inference.Infs.CompilerResolution

/-! # Repairing the links to the managed binaries

A managed link dangles when it is there and leads to nothing. `repair_symlinks` finds such links by
the entry of the link itself, while a link is replaced only when it leads to something. The links are
replaced one after another, so that a link may come to lead to something by way of one before it.
-/

namespace Inference.Infs

open Effects FileSystem

section Statements

variable (cwd : Location OsName) (paths : ToolchainPaths) (host : Platform)

def dangles (tree : Tree OsName FileContent) (binary : List Char) : Bool :=
  (metadata cwd tree false (paths.symlinkPath binary)).isOk &&
    !(metadata cwd tree true (paths.symlinkPath binary)).isOk

/-- Where the installer takes a binary of a version from. -/
def installedBinary (version : List Char) (tree : Tree OsName FileContent) (binary : List Char) :
    Path OsName :=
  returned cwd tree (paths.binaryPath version binary)

/-- Trees that may differ in the managed links of a directory. -/
def SameButLinks (directory : Location OsName) (tree tree' : Tree OsName FileContent) : Prop :=
  ∀ location, (∀ binary ∈ ToolchainPaths.binaries host, location ≠ directory ++ [.text binary]) →
    tree'.get location = tree.get location

/-- The default is an installed version with all managed binaries. Neither they nor the directory of
the links are reached over the managed links. -/
structure Equipped (tree : Tree OsName FileContent) (version : List Char) : Prop where
  isDefault : IsDefault cwd paths tree version
  installed : IsThere cwd tree (paths.toolchainDir version)
  contains : ∀ binary ∈ ToolchainPaths.binaries host,
    IsThere cwd tree (installedBinary cwd paths version tree binary)
  apart : ∀ directory, Reaches cwd tree paths.bin directory →
    ∀ tree', SameButLinks host directory tree tree' →
      Reaches cwd tree' paths.bin directory ∧
        ∀ binary ∈ ToolchainPaths.binaries host,
          installedBinary cwd paths version tree' binary =
              installedBinary cwd paths version tree binary ∧
            IsThere cwd tree'
              (installedBinary cwd paths version tree binary)

/-- No default version is set that is installed. -/
def NoValidDefault (tree : Tree OsName FileContent) : Prop :=
  ∀ version, IsDefault cwd paths tree version →
    ¬ IsThere cwd tree (paths.toolchainDir version)

/-- Whatever is there under the name of a managed link is no directory. -/
def NoDirectories (tree : Tree OsName FileContent) : Prop :=
  ∀ binary ∈ ToolchainPaths.binaries host,
    metadata cwd tree false (paths.symlinkPath binary) ≠ .ok .dir

def NoneThere (tree : Tree OsName FileContent) : Prop :=
  ∀ binary ∈ ToolchainPaths.binaries host, ∀ kind,
    metadata cwd tree false (paths.symlinkPath binary) ≠ .ok kind

/-- The repair returns with no broken link left, and a second one changes nothing. -/
def Repairs (tree : Tree OsName FileContent) : Prop :=
  ∃ after,
    Runs cwd tree (paths.repairSymlinks (some host)).run (.ok ()) after ∧
    Runs cwd after (paths.validateSymlinks (some host)) [] after ∧
    Runs cwd after (paths.repairSymlinks (some host)).run (.ok ()) after

/-- The repair returns with no managed link left, and a second one changes nothing. -/
def Cleans (tree : Tree OsName FileContent) : Prop :=
  ∃ after,
    Runs cwd tree (paths.repairSymlinks (some host)).run (.ok ()) after ∧
    NoneThere cwd paths host after ∧
    Runs cwd after (paths.repairSymlinks (some host)).run (.ok ()) after

/-- A tree with links to some binaries, in place of what is there under their names. -/
def relinked (source : List Char → Path OsName) (directory : Location OsName) :
    List (List Char) → Tree OsName FileContent → Tree OsName FileContent
  | [], tree => tree
  | binary :: rest, tree =>
      relinked source directory rest (tree.set (directory ++ [.text binary]) (.link (source binary)))

/-- No link dangles when the links before it lead to their binaries. -/
def LeadsInTurn (source : List Char → Path OsName) (directory : Location OsName) :
    List (List Char) → Tree OsName FileContent → Prop
  | [], _ => True
  | binary :: rest, tree =>
      dangles cwd paths tree binary = false ∧
        LeadsInTurn source directory rest
          (tree.set (directory ++ [.text binary]) (.link (source binary)))

/-- Broken links mend themselves when those before them are replaced, and the new links lead to
their binaries. -/
def MendsInTurn (version : List Char) (tree : Tree OsName FileContent) : Prop :=
  ∃ directory, Reaches cwd tree paths.bin directory ∧
    LeadsInTurn cwd paths (installedBinary cwd paths version tree) directory
      (ToolchainPaths.binaries host) tree ∧
    ∀ binary ∈ ToolchainPaths.binaries host,
      dangles cwd paths
        (relinked (installedBinary cwd paths version tree) directory
          (ToolchainPaths.binaries host) tree) binary = false

def NothingDangles (tree : Tree OsName FileContent) : Prop :=
  ∀ binary ∈ ToolchainPaths.binaries host, dangles cwd paths tree binary = false

/-- The default file is missing, or it is a text. -/
def DefaultReadable (tree : Tree OsName FileContent) : Prop :=
  IsThere cwd tree paths.defaultFile →
    ∃ content, readFile cwd tree paths.defaultFile = .ok (.text content)

end Statements

variable {cwd directory : Location OsName} {paths : ToolchainPaths} {host : Platform}
  {tree tree' : Tree OsName FileContent} {version binary : List Char}

/-! ## Finding broken links -/

theorem dangles_congr (same : ∀ location, tree'.get location = tree.get location)
    (binary : List Char) :
    dangles cwd paths tree' binary = dangles cwd paths tree binary := by
  rw [dangles, dangles, metadata_congr same, metadata_congr same]

theorem dangles_of_noneThere {tree : Tree OsName FileContent}
    (none : ∀ kind, metadata cwd tree false (paths.symlinkPath binary) ≠ .ok kind) :
    dangles cwd paths tree binary = false := by
  rw [dangles]
  cases found : metadata cwd tree false (paths.symlinkPath binary) with
  | ok kind => exact absurd found (none kind)
  | error cause => rfl

theorem runs_brokenLinks (names : List (List Char)) :
    Runs cwd tree (paths.brokenLinks names)
      (names.filter (dangles cwd paths tree)) tree := by
  induction names with
  | nil => exact runs_pure _
  | cons binary rest induction =>
      refine (runs_ask (.symlinkMetadata (paths.symlinkPath binary))).bind ?_
      rw [perform, List.filter_cons]
      cases found : metadata cwd tree false (paths.symlinkPath binary) with
      | error cause =>
          have leads : dangles cwd paths tree binary = false := by
            rw [dangles, found]
            rfl
          rw [leads]
          exact induction
      | ok kind =>
          have same : dangles cwd paths tree binary =
              !(metadata cwd tree true (paths.symlinkPath binary)).isOk := by
            rw [dangles, found]
            rfl
          refine (runs_pathExists _).bind (induction.bind ?_)
          rw [same]
          cases (metadata cwd tree true (paths.symlinkPath binary)).isOk with
          | true => exact runs_pure _
          | false => exact runs_pure _

theorem runs_validateSymlinks :
    Runs cwd tree (paths.validateSymlinks (some host))
      ((ToolchainPaths.binaries host).filter (dangles cwd paths tree)) tree :=
  runs_brokenLinks _

theorem runs_validateSymlinks_iff :
    Runs cwd tree (paths.validateSymlinks (some host)) [] tree ↔
      NothingDangles cwd paths host tree := by
  have runs : Runs cwd tree (paths.validateSymlinks (some host))
      ((ToolchainPaths.binaries host).filter (dangles cwd paths tree)) tree :=
    runs_validateSymlinks
  rw [Runs] at runs ⊢
  rw [runs, Prod.mk.injEq, List.filter_eq_nil_iff, NothingDangles]
  simp

/-- Without broken links, the repair does nothing. -/
theorem runs_repair_idle (nothing : NothingDangles cwd paths host tree) :
    Runs cwd tree (paths.repairSymlinks (some host)).run (.ok ()) tree :=
  (runs_validateSymlinks_iff.mpr nothing).bind_lift (runs_pure _)

/-! ## Replacing links -/

theorem runs_symlink_fails {original link : Path OsName} {location : Location OsName}
    {node : Node OsName} (resolved : resolve cwd tree false link = .ok location)
    (present : tree.get location = some node) :
    Runs cwd tree (ask (.symlink original link)) (.error .alreadyExists) tree := by
  change changed tree (symlink cwd tree original link) = _
  rw [symlink_fails resolved present]
  rfl

theorem symlink_absent (source : Path OsName)
    (reaches : Reaches cwd tree paths.bin directory)
    (absent : tree.get (directory ++ [.text binary]) = none) :
    symlink cwd tree source (paths.symlinkPath binary) =
      .ok (tree.set (directory ++ [.text binary]) (.link source)) :=
  symlink_eq_ok.mpr ⟨_, reaches.resolve_joinName (.text binary), absent, rfl⟩

theorem notRoot_of_entry (directory : Location OsName) (name : OsName) :
    directory ++ [name] ≠ [] := by
  simp

/-- What is there and leads to something is taken away first. -/
theorem runs_createSymlink {source : Path OsName}
    (reaches : Reaches cwd tree paths.bin directory)
    (reachesErased : Reaches cwd
      (tree.erase fun other => other = directory ++ [.text binary]) paths.bin directory)
    (taken : Runs cwd tree (paths.binaryPath version binary) source tree)
    (there : IsThere cwd tree source)
    (notDir : tree.get (directory ++ [.text binary]) ≠ some .dir)
    (leads : dangles cwd paths tree binary = false) :
    ∃ after, Runs cwd tree (paths.createSymlink version binary).run (.ok ()) after ∧
      ∀ location, after.get location =
        (tree.set (directory ++ [.text binary]) (.link source)).get location := by
  have notRoot := notRoot_of_entry directory (.text binary)
  have resolved := reaches.resolve_joinName (.text binary)
  by_cases exists_ : IsThere cwd tree (paths.symlinkPath binary)
  · have present : tree.get (directory ++ [.text binary]) ≠ none := by
      rcases exists_ with ⟨kind, found⟩
      rcases metadata_eq_ok.mp found with ⟨location, node, followed, entry, -⟩
      rcases walk_of_resolve followed with ⟨notEmpty, start, walked⟩
      have present : tree.get location ≠ none := by
        rw [entry]
        exact Option.some_ne_none node
      rcases walk_present walked present with ⟨location', walked', present'⟩
      rw [← resolve_eq_walk _ notEmpty start] at walked'
      rw [ToolchainPaths.symlinkPath, resolved] at walked'
      cases walked'
      exact present'
    have removed : removeFile cwd tree (paths.symlinkPath binary) =
        .ok (tree.erase fun other => other = directory ++ [.text binary]) :=
      removeFile_eq_ok.mpr ⟨_, resolved, present, notDir, rfl⟩
    have erased (location : Location OsName) (other : location ≠ []) :
        (tree.erase fun other => other = directory ++ [.text binary]).get location =
          if location = directory ++ [.text binary] then none else tree.get location := by
      rw [Tree.get_erase _ _ _ other]
      simp
    have absent : (tree.erase fun other => other = directory ++ [.text binary]).get
        (directory ++ [.text binary]) = none := by
      rw [erased _ notRoot, if_pos rfl]
    have linked := symlink_absent source reachesErased absent
    refine ⟨(tree.erase fun other => other = directory ++ [.text binary]).set
      (directory ++ [.text binary]) (.link source), ?_, ?_⟩
    · refine Runs.bind_lift taken ?_
      refine (runs_pathExists_of_isThere there).bind_lift ?_
      refine (runs_pathExists_of_isThere exists_).bind_lift ?_
      refine (runs_withContext_ok (runs_removeFile removed)).bind_ok ?_
      exact runs_withContext_ok (runs_symlink linked)
    · intro location
      rw [Tree.get_set _ _ _ _ notRoot, Tree.get_set _ _ _ _ notRoot]
      by_cases same : location = directory ++ [.text binary]
      · rw [if_pos same, if_pos same]
      · rw [if_neg same, if_neg same]
        by_cases root : location = []
        · subst root
          rfl
        · rw [erased location root, if_neg same]
  · have absent : tree.get (directory ++ [.text binary]) = none := by
      by_contra present
      rcases Option.ne_none_iff_exists'.mp present with ⟨node, entry⟩
      have listed : metadata cwd tree false (paths.symlinkPath binary) =
          .ok node.kind := (reaches.metadata_entry (.text binary)).mpr ⟨node, entry, rfl⟩
      have nowhere := Bool.eq_false_iff.mpr (mt isOk_metadata.mp exists_)
      rw [dangles, listed, nowhere] at leads
      cases leads
    have linked := symlink_absent source reaches absent
    refine ⟨tree.set (directory ++ [.text binary]) (.link source), ?_, fun _ => rfl⟩
    refine Runs.bind_lift taken ?_
    refine (runs_pathExists_of_isThere there).bind_lift ?_
    refine (runs_pathExists_of_absent exists_).bind_lift ?_
    exact runs_withContext_ok (runs_symlink linked)

/-- A broken link is not replaced. -/
theorem runs_createSymlink_fails {source : Path OsName}
    (reaches : Reaches cwd tree paths.bin directory)
    (taken : Runs cwd tree (paths.binaryPath version binary) source tree)
    (there : IsThere cwd tree source)
    (broken : dangles cwd paths tree binary = true) :
    ∃ error, Runs cwd tree (paths.createSymlink version binary).run (.error error)
      tree := by
  rw [dangles, Bool.and_eq_true, Bool.not_eq_true'] at broken
  rcases broken with ⟨listed, nowhere⟩
  have absent : ¬ IsThere cwd tree (paths.symlinkPath binary) := by
    rw [← isOk_metadata, nowhere]
    exact Bool.false_ne_true
  cases found : metadata cwd tree false (paths.symlinkPath binary) with
  | error cause =>
      rw [found] at listed
      cases listed
  | ok kind =>
      rcases (reaches.metadata_entry (.text binary)).mp found with ⟨node, entry, -⟩
      have fails : Runs cwd tree (ask (.symlink source (paths.symlinkPath binary)))
          (.error .alreadyExists) tree :=
        runs_symlink_fails (reaches.resolve_joinName (.text binary)) entry
      refine ⟨.context "Failed to create symlink from " (paths.symlinkPath binary)
        .alreadyExists, ?_⟩
      refine Runs.bind_lift taken ?_
      refine (runs_pathExists_of_isThere there).bind_lift ?_
      refine (runs_pathExists_of_absent absent).bind_lift ?_
      exact runs_withContext_error fails

/-- The binaries of a version can be linked, whatever the managed links are. -/
structure Linkable (cwd : Location OsName) (paths : ToolchainPaths) (host : Platform)
    (version : List Char) (source : List Char → Path OsName) (directory : Location OsName)
    (tree : Tree OsName FileContent) : Prop where
  reaches : ∀ tree', SameButLinks host directory tree tree' →
    Reaches cwd tree' paths.bin directory
  taken : ∀ tree', SameButLinks host directory tree tree' →
    ∀ binary ∈ ToolchainPaths.binaries host,
      Runs cwd tree' (paths.binaryPath version binary) (source binary) tree' ∧
        IsThere cwd tree' (source binary)

theorem SameButLinks.refl : SameButLinks host directory tree tree :=
  fun _ _ => rfl

theorem SameButLinks.trans {tree'' : Tree OsName FileContent}
    (first : SameButLinks host directory tree tree')
    (second : SameButLinks host directory tree' tree'') :
    SameButLinks host directory tree tree'' :=
  fun location other => (second location other).trans (first location other)

theorem sameButLinks_of_eq (same : ∀ location, tree'.get location = tree.get location) :
    SameButLinks host directory tree tree' :=
  fun location _ => same location

theorem sameButLinks_set (managed : binary ∈ ToolchainPaths.binaries host) (node : Node OsName) :
    SameButLinks host directory tree (tree.set (directory ++ [.text binary]) node) := by
  intro location other
  rw [Tree.get_set _ _ _ _ (notRoot_of_entry directory (.text binary)),
    if_neg (other binary managed)]

theorem sameButLinks_erase (managed : binary ∈ ToolchainPaths.binaries host) :
    SameButLinks host directory tree
      (tree.erase fun other => other = directory ++ [.text binary]) := by
  intro location other
  by_cases root : location = []
  · subst root
    rfl
  · rw [Tree.get_erase _ _ _ root, if_neg]
    simpa using other binary managed

theorem get_set_other {other : List Char} (different : other ≠ binary) (node : Node OsName) :
    (tree.set (directory ++ [.text binary]) node).get (directory ++ [.text other]) =
      tree.get (directory ++ [.text other]) := by
  rw [Tree.get_set _ _ _ _ (notRoot_of_entry directory (.text binary)), if_neg]
  simpa using different

/-- The links are replaced one after another, up to the first one that dangles then. `reached` is the
tree in the terms of the entries alone. -/
theorem runs_createSymlinks {source : List Char → Path OsName} {names : List (List Char)}
    {reached : Tree OsName FileContent}
    (linkable : Linkable cwd paths host version source directory tree)
    (managed : ∀ binary ∈ names, binary ∈ ToolchainPaths.binaries host) (distinct : names.Nodup)
    (variant : SameButLinks host directory tree reached)
    (notDir : ∀ binary ∈ names, reached.get (directory ++ [.text binary]) ≠ some .dir)
    (same : ∀ location, tree'.get location = reached.get location) :
    (LeadsInTurn cwd paths source directory names reached →
      ∃ after, Runs cwd tree'
          (names.forM fun binary => paths.createSymlink version binary).run (.ok ()) after ∧
        ∀ location, after.get location =
          (relinked source directory names reached).get location) ∧
    (¬ LeadsInTurn cwd paths source directory names reached →
      ∃ error after, Runs cwd tree'
        (names.forM fun binary => paths.createSymlink version binary).run (.error error) after) := by
  induction names generalizing reached tree' with
  | nil => exact ⟨fun _ => ⟨tree', runs_pure _, same⟩, fun fails => absurd trivial fails⟩
  | cons binary rest induction =>
      have isManaged := managed binary List.mem_cons_self
      have here : SameButLinks host directory tree tree' :=
        variant.trans (sameButLinks_of_eq same)
      have erased := linkable.reaches _ (here.trans (sameButLinks_erase isManaged))
      rcases linkable.taken tree' here binary isManaged with ⟨taken, there⟩
      have entry : tree'.get (directory ++ [.text binary]) ≠ some .dir := by
        rw [same]
        exact notDir binary List.mem_cons_self
      rcases List.nodup_cons.mp distinct with ⟨notLater, distinctRest⟩
      have notDirRest (other : List Char) (member : other ∈ rest) :
          (reached.set (directory ++ [.text binary]) (.link (source binary))).get
            (directory ++ [.text other]) ≠ some .dir := by
        rw [get_set_other (ne_of_mem_of_not_mem member notLater)]
        exact notDir other (List.mem_cons_of_mem binary member)
      have sameSet (location : Location OsName) :
          (tree'.set (directory ++ [.text binary]) (.link (source binary))).get location =
            (reached.set (directory ++ [.text binary]) (.link (source binary))).get location := by
        rw [Tree.get_set _ _ _ _ (notRoot_of_entry _ _),
          Tree.get_set _ _ _ _ (notRoot_of_entry _ _), same]
      have later (after : Tree OsName FileContent)
          (isAfter : ∀ location, after.get location =
            (tree'.set (directory ++ [.text binary]) (.link (source binary))).get location) :=
        induction (fun other member => managed other (List.mem_cons_of_mem binary member))
          distinctRest (variant.trans (sameButLinks_set isManaged (.link (source binary))))
          notDirRest fun location => (isAfter location).trans (sameSet location)
      rw [LeadsInTurn]
      by_cases leads : dangles cwd paths reached binary = false
      · have leads' := (dangles_congr same binary).trans leads
        rcases runs_createSymlink (linkable.reaches tree' here) erased taken there entry leads' with
          ⟨after, runs, isAfter⟩
        rcases later after isAfter with ⟨succeeds, fails⟩
        constructor
        · rintro ⟨-, inTurn⟩
          rcases succeeds inTurn with ⟨final, runsRest, isFinal⟩
          exact ⟨final, runs.bind_ok runsRest, isFinal⟩
        · intro notInTurn
          rcases fails fun inTurn => notInTurn ⟨leads, inTurn⟩ with ⟨error, final, runsRest⟩
          exact ⟨error, final, runs.bind_ok runsRest⟩
      · refine ⟨fun inTurn => absurd inTurn.1 leads, fun _ => ?_⟩
        have broken := (dangles_congr same binary).trans (eq_true_of_ne_false leads)
        rcases runs_createSymlink_fails (linkable.reaches tree' here) taken there broken with
          ⟨error, runs⟩
        exact ⟨error, tree', Runs.bind_error runs⟩

/-! ## With a default version -/

theorem runs_binaryPath :
    Runs cwd tree (paths.binaryPath version binary)
      (installedBinary cwd paths version tree binary) tree := by
  have ends {path : Path OsName}
      (runs : Runs cwd tree (paths.binaryPath version binary) path tree) :
      Runs cwd tree (paths.binaryPath version binary)
        (installedBinary cwd paths version tree binary) tree := by
    rw [installedBinary, returned_of_runs runs]
    exact runs
  by_cases current : IsThere cwd tree (inBin paths version binary)
  · exact ends (runs_binaryPath_inBin current)
  · by_cases legacy : IsThere cwd tree (binaryInRoot paths version binary)
    · exact ends (runs_binaryPath_inRoot current legacy)
    · exact ends (runs_binaryPath_missing current legacy)

theorem Equipped.linkable (equipped : Equipped cwd paths host tree version)
    (reaches : Reaches cwd tree paths.bin directory) :
    Linkable cwd paths host version
      (installedBinary cwd paths version tree) directory tree where
  reaches := fun tree' variant => (equipped.apart directory reaches tree' variant).1
  taken := by
    intro tree' variant binary managed
    rcases (equipped.apart directory reaches tree' variant).2 binary managed with ⟨same, there⟩
    rw [← same] at there ⊢
    exact ⟨runs_binaryPath, there⟩

theorem binaries_nodup (host : Platform) : (ToolchainPaths.binaries host).Nodup := by
  cases host <;> decide

theorem exists_dangling (some_ : ¬ NothingDangles cwd paths host tree) :
    ∃ binary ∈ ToolchainPaths.binaries host,
      dangles cwd paths tree binary = true := by
  simpa [NothingDangles] using some_

theorem filter_dangles_ne_nil (some_ : ¬ NothingDangles cwd paths host tree) :
    (ToolchainPaths.binaries host).filter (dangles cwd paths tree) ≠ [] := by
  rcases exists_dangling some_ with ⟨binary, managed, isBroken⟩
  exact List.ne_nil_of_mem (List.mem_filter.mpr ⟨managed, isBroken⟩)

variable {after : Tree OsName FileContent}

/-- With a broken link, the repair goes on to the default version. -/
theorem runs_repair_update {result : Except InfsError Unit}
    (some_ : ¬ NothingDangles cwd paths host tree)
    (isDefault : IsDefault cwd paths tree version)
    (installed : IsThere cwd tree (paths.toolchainDir version))
    (runs : Runs cwd tree (paths.updateSymlinks (some host) version).run result
      after) :
    Runs cwd tree (paths.repairSymlinks (some host)).run result after := by
  refine Runs.bind_lift runs_validateSymlinks ?_
  rw [if_neg (filter_dangles_ne_nil some_)]
  refine (runs_default isDefault).bind_ok ?_
  refine Runs.bind_lift (runs_pathExists_of_isThere installed) ?_
  rw [if_pos rfl]
  exact runs

theorem runs_updateSymlinks {result : Except InfsError Unit}
    (reaches : Reaches cwd tree paths.bin directory)
    (runs : Runs cwd tree
      ((ToolchainPaths.binaries host).forM fun binary => paths.createSymlink version binary).run
      result after) :
    Runs cwd tree (paths.updateSymlinks (some host) version).run result after := by
  have detected : Runs cwd tree (ToolchainPaths.detect (some host)).run (.ok host)
      tree := runs_pure _
  refine detected.bind_ok ?_
  exact (runs_withContext_ok (runs_createDirAll reaches)).bind_ok runs

/-- What is there under the name of a link shows that `bin` is there. -/
theorem reaches_of_dangles (broken : dangles cwd paths tree binary = true) :
    ∃ directory, Reaches cwd tree paths.bin directory := by
  rw [dangles, Bool.and_eq_true] at broken
  cases found : metadata cwd tree false (paths.symlinkPath binary) with
  | error cause =>
      rw [found] at broken
      cases broken.1
  | ok kind =>
      rcases metadata_eq_ok.mp found with ⟨location, node, resolved, -, -⟩
      exact reaches_of_resolve_joinName resolved

theorem notDir_of_noDirectories (noDirectories : NoDirectories cwd paths host tree)
    (reaches : Reaches cwd tree paths.bin directory) :
    ∀ binary ∈ ToolchainPaths.binaries host,
      tree.get (directory ++ [.text binary]) ≠ some .dir := by
  intro binary managed isDir
  exact noDirectories binary managed
    ((reaches.metadata_entry (.text binary)).mpr ⟨.dir, isDir, rfl⟩)

theorem repairs_iff (noDirectories : NoDirectories cwd paths host tree)
    (equipped : Equipped cwd paths host tree version) :
    Repairs cwd paths host tree ↔
      NothingDangles cwd paths host tree ∨
        MendsInTurn cwd paths host version tree := by
  by_cases nothing : NothingDangles cwd paths host tree
  · have idle := runs_repair_idle nothing
    exact iff_of_true ⟨tree, idle, runs_validateSymlinks_iff.mpr nothing, idle⟩ (.inl nothing)
  rcases exists_dangling nothing with ⟨broken, managed, isBroken⟩
  rcases reaches_of_dangles isBroken with ⟨directory, reaches⟩
  have linkable := equipped.linkable reaches
  rcases runs_createSymlinks linkable (fun _ member => member) (binaries_nodup host)
    SameButLinks.refl (notDir_of_noDirectories noDirectories reaches) (fun _ => rfl) with
    ⟨succeeds, fails⟩
  have repairs {result : Except InfsError Unit} {after : Tree OsName FileContent}
      (runs : Runs cwd tree
        ((ToolchainPaths.binaries host).forM fun binary => paths.createSymlink version binary).run
        result after) :
      Runs cwd tree (paths.repairSymlinks (some host)).run result after :=
    runs_repair_update nothing equipped.isDefault equipped.installed
      (runs_updateSymlinks reaches runs)
  constructor
  · rintro ⟨after, runs, valid, -⟩
    have inTurn : LeadsInTurn cwd paths
        (installedBinary cwd paths version tree) directory
        (ToolchainPaths.binaries host) tree := by
      by_contra notInTurn
      rcases fails notInTurn with ⟨error, after', runs'⟩
      have same := runs.symm.trans (repairs runs')
      cases same
    rcases succeeds inTurn with ⟨after', runs', isAfter⟩
    have same := runs.symm.trans (repairs runs')
    cases same
    refine .inr ⟨directory, reaches, inTurn, fun binary managed => ?_⟩
    rw [← dangles_congr isAfter]
    exact runs_validateSymlinks_iff.mp valid binary managed
  · rintro (nothing' | ⟨directory', reaches', inTurn, mended⟩)
    · exact absurd nothing' nothing
    · rw [← reaches.unique reaches'] at inTurn mended
      rcases succeeds inTurn with ⟨after, runs, isAfter⟩
      have valid : NothingDangles cwd paths host after := by
        intro binary managed
        rw [dangles_congr isAfter]
        exact mended binary managed
      exact ⟨after, repairs runs, runs_validateSymlinks_iff.mpr valid, runs_repair_idle valid⟩

/-! ## Without a default version -/

theorem runs_removeSymlink
    (notDir : metadata cwd tree false (paths.symlinkPath binary) ≠ .ok .dir) :
    ∃ after, Runs cwd tree (paths.removeSymlink binary).run (.ok ()) after ∧
      after.Extends tree ∧ ∀ kind,
        metadata cwd after false (paths.symlinkPath binary) ≠ .ok kind := by
  cases found : metadata cwd tree false (paths.symlinkPath binary) with
  | error cause =>
      refine ⟨tree, ?_, fun _ _ entry => entry, ?_⟩
      · refine Runs.bind_lift (runs_ask (.symlinkMetadata (paths.symlinkPath binary))) ?_
        rw [perform, found]
        exact runs_pure _
      · intro kind found'
        rw [found] at found'
        cases found'
  | ok kind =>
      rcases metadata_eq_ok.mp found with ⟨location, node, resolved, entry, isKind⟩
      have notDirEntry : tree.get location ≠ some .dir := by
        intro isDir
        rw [isDir] at entry
        cases entry
        exact notDir (found.trans (congrArg Except.ok isKind.symm))
      have present : tree.get location ≠ none := by
        rw [entry]
        exact Option.some_ne_none node
      have removed : removeFile cwd tree (paths.symlinkPath binary) =
          .ok (tree.erase fun other => other = location) :=
        removeFile_eq_ok.mpr ⟨location, resolved, present, notDirEntry, rfl⟩
      refine ⟨tree.erase fun other => other = location, ?_, Tree.erase_extends, ?_⟩
      · refine Runs.bind_lift (runs_ask (.symlinkMetadata (paths.symlinkPath binary))) ?_
        rw [perform, found]
        exact runs_withContext_ok (runs_removeFile removed)
      · intro kind' found'
        rcases metadata_eq_ok.mp found' with ⟨location', node', resolved', entry', -⟩
        have present' : (tree.erase fun other => other = location).get location' ≠ none := by
          rw [entry']
          exact Option.some_ne_none node'
        have same := resolve_extends Tree.erase_extends resolved' present'
        rw [resolved] at same
        cases same
        have notRoot : location ≠ [] := by
          rintro rfl
          exact notDirEntry (Tree.get_root tree)
        rw [Tree.get_erase _ _ _ notRoot] at present'
        simp at present'

theorem runs_removeSymlink_each {names : List (List Char)}
    (notDir : ∀ binary ∈ names,
      metadata cwd tree false (paths.symlinkPath binary) ≠ .ok .dir) :
    ∃ after, Runs cwd tree
        (names.forM fun binary => paths.removeSymlink binary).run (.ok ()) after ∧
      after.Extends tree ∧ ∀ binary ∈ names, ∀ kind,
        metadata cwd after false (paths.symlinkPath binary) ≠ .ok kind := by
  induction names generalizing tree with
  | nil => exact ⟨tree, runs_pure _, fun _ _ entry => entry, by simp⟩
  | cons binary rest induction =>
      rcases runs_removeSymlink (notDir binary List.mem_cons_self) with
        ⟨next, runs, extends_, gone⟩
      -- Taking away entries makes no directory of what is left.
      have notDirRest : ∀ other ∈ rest,
          metadata cwd next false (paths.symlinkPath other) ≠ .ok .dir := by
        intro other member isDir
        exact notDir other (List.mem_cons_of_mem binary member) (metadata_extends extends_ isDir)
      rcases induction notDirRest with ⟨after, runsRest, extendsRest, goneRest⟩
      refine ⟨after, runs.bind_ok runsRest,
        fun location node entry => extends_ _ _ (extendsRest _ _ entry), ?_⟩
      intro other member kind found
      rcases List.mem_cons.mp member with rfl | inRest
      · exact gone kind (metadata_extends extendsRest found)
      · exact goneRest other inRest kind found

theorem runs_removeSymlinks (noDirectories : NoDirectories cwd paths host tree) :
    ∃ after, Runs cwd tree (paths.removeSymlinks (some host)).run (.ok ()) after ∧
      NoneThere cwd paths host after := by
  rcases runs_removeSymlink_each noDirectories with ⟨after, runs, -, gone⟩
  have detected : Runs cwd tree (ToolchainPaths.detect (some host)).run (.ok host)
      tree := runs_pure _
  exact ⟨after, detected.bind_ok runs, gone⟩

/-- What the default file names is the default version, when the file can be read. -/
theorem runs_getDefaultVersion_readable (readable : DefaultReadable cwd paths tree) :
    ∃ value, Runs cwd tree paths.getDefaultVersion.run (.ok value) tree ∧
      ∀ version, value = some version → IsDefault cwd paths tree version := by
  cases found : metadata cwd tree true paths.defaultFile with
  | error cause =>
      refine ⟨none, runs_getDefaultVersion_none found, ?_⟩
      intro _ same
      cases same
  | ok kind =>
      rcases readable ⟨kind, found⟩ with ⟨content, read⟩
      refine ⟨_, runs_getDefaultVersion read, ?_⟩
      intro version same
      split at same
      · cases same
      next notEmpty =>
        cases same
        exact ⟨notEmpty, content, read, rfl⟩

theorem runs_getDefaultVersion_unreadable
    (unreadable : ¬ DefaultReadable cwd paths tree) :
    ∃ error, Runs cwd tree paths.getDefaultVersion.run (.error error) tree := by
  rw [DefaultReadable, Classical.not_imp] at unreadable
  rcases unreadable with ⟨there, notText⟩
  have read (cause : ErrorKind) (fails : Runs cwd tree
      (ToolchainPaths.readToString paths.defaultFile) (.error cause) tree) :
      ∃ error, Runs cwd tree paths.getDefaultVersion.run (.error error) tree := by
    refine ⟨.context "Failed to read default version from " paths.defaultFile cause, ?_⟩
    refine Runs.bind_lift (runs_pathExists_of_isThere there) ?_
    exact Runs.bind_error (runs_withContext_error fails)
  cases content : readFile cwd tree paths.defaultFile with
  | error cause =>
      refine read cause ((runs_ask (.read paths.defaultFile)).bind ?_)
      rw [perform, content]
      exact runs_pure _
  | ok content' =>
      cases content' with
      | text text => exact absurd ⟨text, content⟩ notText
      | bytes raw => exact read .invalidData ((runs_read content).bind (runs_pure _))

/-- With a broken link and no valid default, the repair takes the links away. -/
theorem runs_repair_remove (some_ : ¬ NothingDangles cwd paths host tree)
    (noDefault : NoValidDefault cwd paths tree)
    (readable : DefaultReadable cwd paths tree)
    (runs : Runs cwd tree (paths.removeSymlinks (some host)).run (.ok ()) after) :
    Runs cwd tree (paths.repairSymlinks (some host)).run (.ok ()) after := by
  refine Runs.bind_lift runs_validateSymlinks ?_
  rw [if_neg (filter_dangles_ne_nil some_)]
  rcases runs_getDefaultVersion_readable readable with ⟨value, read, isDefault⟩
  refine read.bind_ok ?_
  cases value with
  | none => exact runs
  | some version =>
      have absent := noDefault version (isDefault version rfl)
      refine Runs.bind_lift (runs_pathExists_of_absent absent) ?_
      rw [if_neg Bool.false_ne_true]
      exact runs

theorem runs_repair_unreadable (some_ : ¬ NothingDangles cwd paths host tree)
    (unreadable : ¬ DefaultReadable cwd paths tree) :
    ∃ error, Runs cwd tree (paths.repairSymlinks (some host)).run (.error error)
      tree := by
  rcases runs_getDefaultVersion_unreadable unreadable with ⟨error, read⟩
  refine ⟨error, Runs.bind_lift runs_validateSymlinks ?_⟩
  rw [if_neg (filter_dangles_ne_nil some_)]
  exact Runs.bind_error read

theorem nothingDangles_of_noneThere (none : NoneThere cwd paths host tree) :
    NothingDangles cwd paths host tree :=
  fun binary managed => dangles_of_noneThere (none binary managed)

theorem cleans_iff (noDirectories : NoDirectories cwd paths host tree)
    (noDefault : NoValidDefault cwd paths tree) :
    Cleans cwd paths host tree ↔
      NoneThere cwd paths host tree ∨
        ¬ NothingDangles cwd paths host tree ∧
          DefaultReadable cwd paths tree := by
  by_cases nothing : NothingDangles cwd paths host tree
  · have idle := runs_repair_idle nothing
    constructor
    · rintro ⟨after, runs, none, -⟩
      have same := runs.symm.trans idle
      cases same
      exact .inl none
    · rintro (none | ⟨some_, -⟩)
      · exact ⟨tree, idle, none, idle⟩
      · exact absurd nothing some_
  · constructor
    · rintro ⟨after, runs, -, -⟩
      refine .inr ⟨nothing, ?_⟩
      by_contra unreadable
      rcases runs_repair_unreadable nothing unreadable with ⟨error, runs'⟩
      have same := runs.symm.trans runs'
      cases same
    · rintro (none | ⟨-, readable⟩)
      · exact absurd (nothingDangles_of_noneThere none) nothing
      · rcases runs_removeSymlinks noDirectories with ⟨after, runs, gone⟩
        exact ⟨after, runs_repair_remove nothing noDefault readable runs, gone,
          runs_repair_idle (nothingDangles_of_noneThere gone)⟩

/-! ## What the repair achieves -/

/-- With a default version, the repair works unless a link dangles when its turn comes. Without one,
it works when no managed link is there, or when one dangles and the default file can be read. -/
theorem repairSymlinks_works_iff (cwd : Location OsName) (paths : ToolchainPaths)
    (host : Platform) (tree : Tree OsName FileContent)
    (noDirectories : NoDirectories cwd paths host tree) :
    (∀ version, Equipped cwd paths host tree version →
      (Repairs cwd paths host tree ↔
        NothingDangles cwd paths host tree ∨
          MendsInTurn cwd paths host version tree)) ∧
    (NoValidDefault cwd paths tree →
      (Cleans cwd paths host tree ↔
        NoneThere cwd paths host tree ∨
          ¬ NothingDangles cwd paths host tree ∧
            DefaultReadable cwd paths tree)) :=
  ⟨fun _ equipped => repairs_iff noDirectories equipped, cleans_iff noDirectories⟩

/-- The default version has all binaries, and the link to the compiler leads to a version that is
gone. -/
def danglingInfc : Tree OsName FileContent where
  nodes :=
    [([textName "inf"], .dir),
      ([textName "inf", textName "default"], .file 0),
      ([textName "inf", textName "bin"], .dir),
      ([textName "inf", textName "bin", textName "infc"],
        .link (parsePath "/inf/toolchains/0.0.9/bin/infc".toList)),
      ([textName "inf", textName "toolchains"], .dir),
      ([textName "inf", textName "toolchains", textName "0.1.0"], .dir),
      ([textName "inf", textName "toolchains", textName "0.1.0", textName "bin"], .dir),
      ([textName "inf", textName "toolchains", textName "0.1.0", textName "bin", textName "infc"],
        .file 1),
      ([textName "inf", textName "toolchains", textName "0.1.0", textName "bin",
        textName "inf-llc"], .file 2),
      ([textName "inf", textName "toolchains", textName "0.1.0", textName "bin",
        textName "rust-lld"], .file 3)]
  contents := fun _ => .text "0.1.0".toList

theorem danglingInfc_noDirectories : NoDirectories [] infPaths .linuxX64 danglingInfc := by
  unfold NoDirectories
  decide +kernel

section Apart

variable (variant : SameButLinks .linuxX64 [textName "inf", textName "bin"] danglingInfc tree')

include variant

theorem danglingInfc_entry {location : Location OsName} {node : Node OsName}
    (entry : danglingInfc.get location = some node)
    (other : ∀ binary ∈ ToolchainPaths.binaries .linuxX64,
      location ≠ [textName "inf", textName "bin"] ++ [.text binary]) :
    tree'.get location = some node :=
  (variant location other).trans entry

theorem danglingInfc_reaches :
    Reaches [] tree' infPaths.root [textName "inf"] := by
  have root : Reaches [] tree' ⟨true, [], false⟩ [] :=
    ⟨rooted_root tree', walk_nil, rooted_root tree'⟩
  have named : infPaths.root = Path.joinName ⟨true, [], false⟩ (textName "inf") := by
    decide +kernel
  rw [named]
  exact root.joinName (danglingInfc_entry variant (by decide +kernel) (by decide +kernel))

theorem danglingInfc_reaches_bin :
    Reaches [] tree' infPaths.bin [textName "inf", textName "bin"] :=
  (danglingInfc_reaches variant).joinName
    (danglingInfc_entry variant (by decide +kernel) (by decide +kernel))

theorem danglingInfc_reaches_version :
    Reaches [] tree' (infPaths.toolchainBinDir "0.1.0".toList)
      [textName "inf", textName "toolchains", textName "0.1.0", textName "bin"] := by
  have toolchains : Reaches [] tree' infPaths.toolchains [textName "inf", textName "toolchains"] :=
    (danglingInfc_reaches variant).joinName
      (danglingInfc_entry variant (by decide +kernel) (by decide +kernel))
  have named : infPaths.toolchainDir "0.1.0".toList =
      infPaths.toolchains.joinName (textName "0.1.0") := by
    decide +kernel
  have version : Reaches [] tree' (infPaths.toolchainDir "0.1.0".toList)
      [textName "inf", textName "toolchains", textName "0.1.0"] := by
    rw [named]
    exact toolchains.joinName (danglingInfc_entry variant (by decide +kernel) (by decide +kernel))
  exact version.joinName (danglingInfc_entry variant (by decide +kernel) (by decide +kernel))

theorem danglingInfc_inBin (managed : binary ∈ ToolchainPaths.binaries .linuxX64) :
    IsThere [] tree' (inBin infPaths "0.1.0".toList binary) := by
  have isFile : ∀ binary ∈ ToolchainPaths.binaries .linuxX64, ∃ inode ∈ [1, 2, 3],
      danglingInfc.get ([textName "inf", textName "toolchains", textName "0.1.0", textName "bin"] ++
        [.text binary]) = some (.file inode) := by
    decide +kernel
  have other : ∀ binary ∈ ToolchainPaths.binaries .linuxX64,
      ∀ link ∈ ToolchainPaths.binaries .linuxX64,
        [textName "inf", textName "toolchains", textName "0.1.0", textName "bin"] ++
          [.text binary] ≠ [textName "inf", textName "bin"] ++ [.text link] := by
    decide +kernel
  rcases isFile binary managed with ⟨inode, -, entry⟩
  exact ⟨.file, (danglingInfc_reaches_version variant).metadata_file
    (danglingInfc_entry variant entry (other binary managed))⟩

/-- Whichever links there are. -/
theorem danglingInfc_variant_equipped (isDefault : IsDefault [] infPaths tree' "0.1.0".toList)
    (installed : IsThere [] tree' (infPaths.toolchainDir "0.1.0".toList)) :
    Equipped [] infPaths .linuxX64 tree' "0.1.0".toList where
  isDefault := isDefault
  installed := installed
  contains := by
    intro binary managed
    have there := danglingInfc_inBin variant managed
    rw [installedBinary, returned_of_runs (runs_binaryPath_inBin there)]
    exact there
  apart := by
    intro directory reaches tree'' variant'
    cases reaches.unique (danglingInfc_reaches_bin variant)
    have both := variant.trans variant'
    refine ⟨danglingInfc_reaches_bin both, fun binary managed => ?_⟩
    have there := danglingInfc_inBin variant managed
    have there' := danglingInfc_inBin both managed
    rw [installedBinary, installedBinary, returned_of_runs (runs_binaryPath_inBin there),
      returned_of_runs (runs_binaryPath_inBin there')]
    exact ⟨rfl, there'⟩

end Apart

theorem danglingInfc_equipped :
    Equipped [] infPaths .linuxX64 danglingInfc "0.1.0".toList :=
  danglingInfc_variant_equipped SameButLinks.refl
    ⟨by decide, "0.1.0".toList, by decide +kernel, by decide +kernel⟩ ⟨.dir, by decide +kernel⟩

/-- The link to the compiler leads to it. -/
def mendedInfc : Tree OsName FileContent :=
  danglingInfc.set [textName "inf", textName "bin", textName "infc"]
    (.link (parsePath "/inf/toolchains/0.1.0/bin/infc".toList))

theorem mendedInfc_variant :
    SameButLinks .linuxX64 [textName "inf", textName "bin"] danglingInfc mendedInfc := by
  intro location other
  exact (Tree.get_set _ _ _ _ (by decide)).trans (if_neg (other "infc".toList (by decide)))

theorem mendedInfc_equipped : Equipped [] infPaths .linuxX64 mendedInfc "0.1.0".toList :=
  danglingInfc_variant_equipped mendedInfc_variant
    ⟨by decide, "0.1.0".toList, by decide +kernel, by decide +kernel⟩ ⟨.dir, by decide +kernel⟩

/-- No version is installed, and one of two links leads to a version that is gone. -/
def orphanedLinks : Tree OsName FileContent where
  nodes :=
    [([textName "inf"], .dir),
      ([textName "inf", textName "bin"], .dir),
      ([textName "inf", textName "bin", textName "infc"],
        .link (parsePath "/inf/toolchains/0.1.0/bin/infc".toList)),
      ([textName "inf", textName "bin", textName "rust-lld"], .link (parsePath "/lld".toList)),
      ([textName "lld"], .file 0)]
  contents := fun _ => .text []

theorem orphanedLinks_noDefault : NoValidDefault [] infPaths orphanedLinks := by
  rintro version ⟨-, content, read, -⟩
  have missing : readFile [] orphanedLinks infPaths.defaultFile = .error .notFound := by
    decide +kernel
  rw [missing] at read
  cases read

theorem orphanedLinks_condition :
    ¬ NothingDangles [] infPaths .linuxX64 orphanedLinks ∧
      DefaultReadable [] infPaths orphanedLinks := by
  constructor
  · intro nothing
    have broken : dangles [] infPaths orphanedLinks "infc".toList = true := by
      decide +kernel
    rw [nothing "infc".toList (by decide)] at broken
    cases broken
  · rintro ⟨kind, found⟩
    have missing : metadata [] orphanedLinks true infPaths.defaultFile = .error .notFound := by
      decide +kernel
    rw [missing] at found
    cases found

/-- Links that lead to the binaries are left, and links without a version are removed. -/
theorem repairSymlinks_works :
    Repairs [] infPaths .linuxX64 mendedInfc ∧ Cleans [] infPaths .linuxX64 orphanedLinks := by
  have mended : NoDirectories [] infPaths .linuxX64 mendedInfc := by
    unfold NoDirectories
    decide +kernel
  have orphaned : NoDirectories [] infPaths .linuxX64 orphanedLinks := by
    unfold NoDirectories
    decide +kernel
  have nothing : NothingDangles [] infPaths .linuxX64 mendedInfc := by
    unfold NothingDangles
    decide +kernel
  constructor
  · exact ((repairSymlinks_works_iff [] infPaths .linuxX64 mendedInfc mended).1 _
      mendedInfc_equipped).mpr (.inl nothing)
  · exact ((repairSymlinks_works_iff [] infPaths .linuxX64 orphanedLinks orphaned).2
      orphanedLinks_noDefault).mpr (.inr orphanedLinks_condition)

/-- A link to a version that is gone is not repaired. -/
theorem danglingInfc_stays :
    Equipped [] infPaths .linuxX64 danglingInfc "0.1.0".toList ∧
      ¬ Repairs [] infPaths .linuxX64 danglingInfc := by
  refine ⟨danglingInfc_equipped, fun repairs => ?_⟩
  rcases (repairs_iff danglingInfc_noDirectories danglingInfc_equipped).mp repairs with
    nothing | ⟨directory, -, ⟨leads, -⟩, -⟩
  · have found := nothing "infc".toList (by decide)
    have broken : dangles [] infPaths danglingInfc "infc".toList = true := by
      decide +kernel
    rw [broken] at found
    cases found
  · have broken : dangles [] infPaths danglingInfc ("infc".toList ++ []) = true := by
      decide +kernel
    exact Bool.noConfusion (broken.symm.trans leads)

end Inference.Infs
