import Inference.Foundation.FileRules
import Inference.Foundation.Triples

/-! # Programs that keep files

A step keeps files when all entries stay and no file gets another content. In a tree whose entries
all lie in directories, a directory that has just been created is empty, so that what is written in
it overwrites nothing.
-/

namespace Inference.FileSystem

open Effects

variable {Name Content : Type} [DecidableEq Name] {cwd : Location Name}
  {tree tree' tree'' : Tree Name Content} {path : Path Name} {location directory : Location Name}

namespace Tree

/-- Every entry stays, and every file keeps its content. -/
structure Keeps (tree tree' : Tree Name Content) : Prop where
  entries : tree.Extends tree'
  contents : ∀ location inode, tree.get location = some (.file inode) →
    tree'.contents inode = tree.contents inode

/-- Every entry lies in a directory. -/
def Closed (tree : Tree Name Content) : Prop :=
  ∀ location name, tree.get (location ++ [name]) ≠ none → tree.get location = some .dir

/-- Files are kept, and new entries lie in directories too. -/
structure Adds (tree tree' : Tree Name Content) : Prop where
  keeps : tree.Keeps tree'
  closed : tree.Closed → tree'.Closed

theorem Keeps.refl (tree : Tree Name Content) : tree.Keeps tree :=
  ⟨fun _ _ found => found, fun _ _ _ => rfl⟩

theorem Keeps.trans (keeps : tree.Keeps tree') (keeps' : tree'.Keeps tree'') :
    tree.Keeps tree'' := by
  refine ⟨fun location node found => keeps'.entries _ _ (keeps.entries location node found), ?_⟩
  intro location inode isFile
  rw [keeps'.contents location inode (keeps.entries _ _ isFile)]
  exact keeps.contents location inode isFile

theorem Adds.refl (tree : Tree Name Content) : tree.Adds tree :=
  ⟨.refl tree, id⟩

theorem Adds.trans (adds : tree.Adds tree') (adds' : tree'.Adds tree'') : tree.Adds tree'' :=
  ⟨adds.keeps.trans adds'.keeps, fun closed => adds'.closed (adds.closed closed)⟩

/-- Below a location without an entry there is none. -/
theorem Closed.absent_below (closed : tree.Closed) (absent : tree.get location = none)
    (below : List Name) : tree.get (location ++ below) = none := by
  induction below using List.reverseRecOn with
  | nil =>
      rw [List.append_nil]
      exact absent
  | append_singleton below name induction =>
      by_contra present
      rw [← List.append_assoc] at present
      rw [closed _ name present] at induction
      cases induction

/-- A tree is closed if each of its entries lies in a directory. -/
theorem closed_of_entries
    (within : ∀ entry ∈ tree.nodes, tree.get entry.1.dropLast = some .dir) : tree.Closed := by
  intro location name present
  by_contra outside
  refine present ?_
  rw [get, if_neg (by simp), List.lookup_eq_none_iff]
  rintro ⟨other, node⟩ member
  rw [bne_iff_ne]
  rintro rfl
  have directory := within _ member
  rw [List.dropLast_concat] at directory
  exact outside directory

/-- A new entry in a directory. -/
theorem Closed.set {node : Node Name} (closed : tree.Closed)
    (isDir : tree.get directory = some .dir) {name : Name}
    (absent : tree.get (directory ++ [name]) = none) :
    (tree.set (directory ++ [name]) node).Closed := by
  have notRoot : directory ++ [name] ≠ [] := by simp
  have other {above : Location Name} (present : tree.get above = some .dir) :
      (tree.set (directory ++ [name]) node).get above = some .dir := by
    rw [get_set _ _ _ _ notRoot, if_neg ?_, present]
    rintro rfl
    rw [absent] at present
    cases present
  intro above child present
  rw [get_set _ _ _ _ notRoot] at present
  split at present
  next same =>
    rcases List.append_inj' same rfl with ⟨rfl, _⟩
    exact other isDir
  next => exact other (closed above child present)

end Tree

/-! ## Where new entries lie -/

variable {follow : Bool}

/-- What is found missing is missing in a directory. -/
theorem resolve_absent (resolved : resolve cwd tree follow path = .ok location)
    (absent : tree.get location = none) :
    ∃ directory name, location = directory ++ [name] ∧ Rooted tree directory := by
  rcases walk_of_resolve resolved with ⟨_, start, walked⟩
  rcases walk_place start walked with isRooted | ⟨_, found⟩
  · rw [isRooted.dir] at absent
    cases absent
  · exact found

/-- A path to a missing entry leads to the file that is then created there. -/
theorem walk_created {links : Nat} {here : Location Name} {inode : Inode}
    {components : List (Component Name)}
    (walked : walk tree follow links here components = .ok location)
    (absent : tree.get location = none) (extends_ : tree.Extends tree')
    (created : tree'.get location = some (.file inode)) :
    walk tree' follow links here components = .ok location := by
  rw [walks_iff] at walked ⊢
  induction walked with
  | nil => exact .nil
  | current _ induction => exact .current (induction absent created)
  | parent _ induction => exact .parent (induction absent created)
  | absent => exact .file created
  | dir isDir _ induction => exact .dir (extends_ _ _ isDir) (induction absent created)
  | file isFile => exact .file (extends_ _ _ isFile)
  | unfollowed isLink unfollowed => exact .unfollowed (extends_ _ _ isLink) unfollowed
  | link isLink followed _ induction =>
      exact .link (extends_ _ _ isLink) followed (induction absent created)

variable {written : Content}

/-- What is written is there. -/
theorem metadata_writeFile (wrote : writeFile cwd tree path written = .ok tree') :
    metadata cwd tree' true path = .ok .file := by
  have extends_ := writeFile_extends wrote
  rcases writeFile_eq_ok.mp wrote with ⟨location, resolved, ⟨absent, rfl⟩ | ⟨inode, isFile, rfl⟩⟩
  · have created := Tree.get_create tree location location written (notRoot_of_absent absent)
    rw [if_pos rfl] at created
    rcases walk_of_resolve resolved with ⟨notEmpty, start, walked⟩
    refine metadata_eq_ok.mpr ⟨location, _, ?_, created, rfl⟩
    rw [resolve_eq_walk _ notEmpty (start.extends extends_)]
    exact walk_created walked absent extends_ created
  · refine metadata_eq_ok.mpr ⟨location, .file inode, ?_, isFile, rfl⟩
    have same := resolve_congr (tree.get_setContents inode written) cwd true path
    exact same.trans resolved

/-- What has been written is what is read. -/
theorem readFile_writeFile (wrote : writeFile cwd tree path written = .ok tree') :
    readFile cwd tree' path = .ok written := by
  have extends_ := writeFile_extends wrote
  rcases writeFile_eq_ok.mp wrote with ⟨location, resolved, ⟨absent, rfl⟩ | ⟨inode, isFile, rfl⟩⟩
  · have created := Tree.get_create tree location location written (notRoot_of_absent absent)
    rw [if_pos rfl] at created
    rcases walk_of_resolve resolved with ⟨notEmpty, start, walked⟩
    refine readFile_eq_ok.mpr ⟨location, _, ?_, created, Function.update_self _ _ _⟩
    rw [resolve_eq_walk _ notEmpty (start.extends extends_)]
    exact walk_created walked absent extends_ created
  · refine readFile_eq_ok.mpr ⟨location, inode, ?_, isFile, Function.update_self _ _ _⟩
    have same := resolve_congr (tree.get_setContents inode written) cwd true path
    exact same.trans resolved

/-- Two paths that lead to one file. -/
def SameFile (cwd : Location Name) (tree : Tree Name Content) (path other : Path Name) :
    Prop :=
  ∃ location location' inode, resolve cwd tree true path = .ok location ∧
    resolve cwd tree true other = .ok location' ∧
    tree.get location = some (.file inode) ∧ tree.get location' = some (.file inode)

/-- A write changes no other file. -/
theorem readFile_writeFile_other {content : Content} {other : Path Name}
    (wrote : writeFile cwd tree path written = .ok tree')
    (read : readFile cwd tree other = .ok content) :
    readFile cwd tree' other = .ok content ∨
      SameFile cwd tree' other path := by
  have extends_ := writeFile_extends wrote
  rcases readFile_eq_ok.mp read with ⟨location, inode, resolved, isFile, same⟩
  have present : tree.get location ≠ none := by
    rw [isFile]
    exact Option.some_ne_none _
  have resolved' := resolve_extends extends_ resolved present
  have isFile' := extends_ _ _ isFile
  rcases writeFile_eq_ok.mp wrote with
    ⟨target, resolvedTarget, ⟨absent, rfl⟩ | ⟨changed, isTarget, rfl⟩⟩
  · refine .inl (readFile_eq_ok.mpr ⟨location, inode, resolved', isFile', ?_⟩)
    exact (Tree.create_contents isFile).trans same
  · by_cases isSame : inode = changed
    · subst isSame
      refine .inr ⟨location, target, inode, resolved', ?_, isFile', isTarget⟩
      exact (resolve_congr (tree.get_setContents inode written) cwd true path).trans
        resolvedTarget
    · refine .inl (readFile_eq_ok.mpr ⟨location, inode, resolved', isFile', ?_⟩)
      exact (Function.update_of_ne isSame _ _).trans same

/-! ## Steps that add -/

theorem adds_set {node : Node Name} (resolved : resolve cwd tree follow path = .ok location)
    (absent : tree.get location = none) : tree.Adds (tree.set location node) := by
  refine ⟨⟨Tree.set_extends absent, fun _ _ _ => rfl⟩, fun closed => ?_⟩
  rcases resolve_absent resolved absent with ⟨directory, name, rfl, rooted⟩
  exact closed.set rooted.dir absent

theorem adds_create (resolved : resolve cwd tree follow path = .ok location)
    (absent : tree.get location = none) : tree.Adds (tree.create location written) := by
  refine ⟨⟨Tree.create_extends absent, fun _ _ isFile => Tree.create_contents isFile⟩,
    fun closed => ?_⟩
  rcases resolve_absent resolved absent with ⟨directory, name, rfl, rooted⟩
  have closed' : (tree.setContents tree.freshInode written).Closed := closed
  exact closed'.set rooted.dir absent

variable {answer : Except ErrorKind Unit}

theorem createDir_adds (answered : answers cwd (.createDir path) tree answer tree') :
    tree.Adds tree' := by
  rcases answered with performed | ⟨_, interrupted⟩
  · rw [perform] at performed
    cases created : createDir cwd tree path with
    | error error =>
        rw [created] at performed
        cases performed
        exact .refl tree
    | ok tree'' =>
        rw [created] at performed
        cases performed
        rcases createDir_eq_ok.mp created with ⟨location, resolved, absent, rfl⟩
        exact adds_set resolved absent
  · cases interrupted with
    | untouched => exact .refl tree

variable {cause : ErrorKind}

/-- A failed attempt leaves the tree as it is. -/
theorem createDir_failed (answered : answers cwd (.createDir path) tree (.error cause) tree') :
    tree' = tree := by
  rcases answered with performed | ⟨_, interrupted⟩
  · rw [perform] at performed
    cases created : createDir cwd tree path with
    | error error =>
        rw [created] at performed
        cases performed
        rfl
    | ok tree'' =>
        rw [created] at performed
        cases performed
  · cases interrupted with
    | untouched => rfl

/-- What a write leaves, also when it fails on the way. -/
theorem write_outcomes (answered : answers cwd (.write path written) tree answer tree') :
    tree' = tree ∨ ∃ location partly, resolve cwd tree true path = .ok location ∧
      (tree.get location = none ∧ tree' = tree.create location partly ∨
        ∃ inode, tree.get location = some (.file inode) ∧ tree' = tree.setContents inode partly) := by
  rcases answered with performed | ⟨_, interrupted⟩
  · rw [perform] at performed
    cases wrote : writeFile cwd tree path written with
    | error error =>
        rw [wrote] at performed
        cases performed
        exact .inl rfl
    | ok tree'' =>
        rw [wrote] at performed
        cases performed
        rcases writeFile_eq_ok.mp wrote with ⟨location, resolved, wroteThere⟩
        exact .inr ⟨location, written, resolved, wroteThere⟩
  · cases interrupted with
    | untouched => exact .inl rfl
    | created resolved absent partly => exact .inr ⟨_, partly, resolved, .inl ⟨absent, rfl⟩⟩
    | overwritten resolved isFile partly =>
        exact .inr ⟨_, partly, resolved, .inr ⟨_, isFile, rfl⟩⟩

/-- What a write leaves where the path leads to no file. -/
theorem write_cases (noFile : metadata cwd tree true path ≠ .ok .file)
    (answered : answers cwd (.write path written) tree answer tree') :
    tree' = tree ∨ ∃ location partly, resolve cwd tree true path = .ok location ∧
      tree.get location = none ∧ tree' = tree.create location partly := by
  rcases write_outcomes answered with
    same | ⟨location, partly, resolved, ⟨absent, isCreated⟩ | ⟨inode, isFile, _⟩⟩
  · exact .inl same
  · exact .inr ⟨location, partly, resolved, absent, isCreated⟩
  · exact absurd (metadata_eq_ok.mpr ⟨location, _, resolved, isFile, rfl⟩) noFile

theorem write_adds (noFile : metadata cwd tree true path ≠ .ok .file)
    (answered : answers cwd (.write path written) tree answer tree') :
    tree.Adds tree' := by
  rcases write_cases noFile answered with rfl | ⟨location, partly, resolved, absent, rfl⟩
  · exact .refl _
  · exact adds_create resolved absent

/-- No entry is lost in a write. -/
theorem write_extends (answered : answers cwd (.write path written) tree answer tree') :
    tree.Extends tree' := by
  rcases write_outcomes answered with
    rfl | ⟨location, partly, _, ⟨absent, rfl⟩ | ⟨inode, _, rfl⟩⟩
  · exact fun _ _ found => found
  · exact Tree.create_extends absent
  · exact fun _ _ found => found

/-- What has been written is a file. -/
theorem write_shown (answered : answers cwd (.write path written) tree (.ok ()) tree') :
    metadata cwd tree' true path = .ok .file := by
  rcases answered with performed | ⟨failed, _⟩
  · rw [perform] at performed
    cases wrote : writeFile cwd tree path written with
    | error error =>
        rw [wrote] at performed
        cases performed
    | ok tree'' =>
        rw [wrote] at performed
        cases performed
        exact metadata_writeFile wrote
  · cases failed

/-! ## Secluded directories -/

/-- In the directory there are only files, which have no other name. -/
def Tree.Secluded (tree : Tree Name Content) (directory : Location Name) : Prop :=
  ∀ name, tree.get (directory ++ [name]) = none ∨
    ∃ inode, tree.get (directory ++ [name]) = some (.file inode) ∧
      ∀ other, tree.get other = some (.file inode) → other = directory ++ [name]

theorem Reaches.resolve_secluded (reaches : Reaches cwd tree path directory)
    (secluded : tree.Secluded directory) (name : Name) :
    resolve cwd tree true (path.joinName name) = .ok (directory ++ [name]) := by
  refine reaches.resolve_notLink fun target isLink => ?_
  rcases secluded name with absent | ⟨inode, isFile, _⟩
  · cases isLink.symm.trans absent
  · cases isLink.symm.trans isFile

/-- A new file has one name. -/
theorem Tree.Secluded.create (secluded : tree.Secluded directory) {written : Content} {name : Name}
    (absent : tree.get (directory ++ [name]) = none) :
    (tree.create (directory ++ [name]) written).Secluded directory := by
  have notRoot : directory ++ [name] ≠ [] := notRoot_of_absent absent
  intro child
  rw [Tree.get_create _ _ _ _ notRoot]
  split
  next isNew =>
    refine .inr ⟨tree.freshInode, rfl, fun other isFile => ?_⟩
    rw [Tree.get_create _ _ _ _ notRoot] at isFile
    split at isFile
    next same => rw [same, isNew]
    next => exact absurd (Tree.lt_freshInode isFile) (Nat.lt_irrefl _)
  next isOld =>
    rcases secluded child with absentChild | ⟨inode, isFile, alone⟩
    · exact .inl absentChild
    · refine .inr ⟨inode, isFile, fun other isOther => ?_⟩
      rw [Tree.get_create _ _ _ _ notRoot] at isOther
      split at isOther
      next =>
        cases isOther
        exact absurd (Tree.lt_freshInode isFile) (Nat.lt_irrefl _)
      next => exact alone other isOther

variable {name : Name}

/-- A write in a secluded directory changes one file, and leaves the directory secluded. -/
theorem write_secluded (reaches : Reaches cwd tree path directory)
    (secluded : tree.Secluded directory)
    (answered : answers cwd (.write (path.joinName name) written) tree answer tree') :
    tree.ChangesWithin (· = directory ++ [name]) tree' ∧ tree'.Secluded directory := by
  have isThere {location : Location Name}
      (resolved : resolve cwd tree true (path.joinName name) = .ok location) :
      location = directory ++ [name] := by
    rw [reaches.resolve_secluded secluded name] at resolved
    exact (Except.ok.inj resolved).symm
  constructor
  · refine (changesWithin_answers answered).mono ?_
    rintro location ⟨target, resolved, isTarget⟩
    cases isThere resolved
    rcases isTarget with isTarget | ⟨inode, isFile, isName⟩
    · exact isTarget
    · rcases secluded name with absent | ⟨own, isOwn, alone⟩
      · rw [absent] at isFile
        cases isFile
      · rw [isOwn] at isFile
        cases isFile
        exact alone location isName
  · rcases write_outcomes answered with
      rfl | ⟨location, partly, resolved, ⟨absent, rfl⟩ | ⟨inode, _, rfl⟩⟩
    · exact secluded
    · cases isThere resolved
      exact secluded.create absent
    · exact secluded

/-! ## Looking truthfully -/

variable (cwd) in
/-- What is asked about an entry is answered as it is. -/
def Seen : (request : Request Name Content) → Tree Name Content → Answer request → Prop
  | .metadata path, tree, answer => answer = metadata cwd tree true path
  | _, _, _ => True

variable (cwd) in
def truthful : Semantics (Request Name Content) Answer (Tree Name Content) :=
  fun request tree answer tree' =>
    answers cwd request tree answer tree' ∧ Seen cwd request tree answer

theorem truthful_perform (request : Request Name Content) (tree : Tree Name Content) :
    truthful cwd request tree (perform cwd request tree).1
      (perform cwd request tree).2 := by
  refine ⟨.inl rfl, ?_⟩
  cases request <;> first | rfl | trivial

/-- A run that nothing hinders has truthful answers. -/
theorem Runs.satisfies_truthful {α : Type} {program : FileProgram Name Content α} {value : α}
    {guarantee : Tree Name Content → Tree Name Content → Prop}
    {post : α → Tree Name Content → Prop} (runs : Runs cwd tree program value tree')
    (holds : Guaranteed (truthful cwd) guarantee program tree post) :
    post value tree' := by
  have ends : Steps (truthful cwd) program tree
      (.done (program.run (perform cwd) tree).1)
      (program.run (perform cwd) tree).2 := steps_run truthful_perform
  rw [runs] at ends
  exact holds.returns ends

section Looking

variable {answers' : Semantics (Request Name Content) Answer (Tree Name Content)}
  {guarantee : Tree Name Content → Tree Name Content → Prop}
  (truly : ∀ request tree answer tree', answers' request tree answer tree' →
    truthful cwd request tree answer tree')
include truly

theorem guaranteed_metadata {post : Except ErrorKind Kind → Tree Name Content → Prop}
    (reflexive : guarantee tree tree)
    (holds : post (metadata cwd tree true path) tree) :
    Guaranteed answers' guarantee (ask (.metadata path)) tree post := by
  intro answer tree' answered
  rcases truly _ _ _ _ answered with ⟨allowed, seen⟩
  rcases answers_reading rfl allowed with ⟨rfl, _⟩
  have same : answer = metadata cwd tree' true path := seen
  rw [same]
  exact ⟨reflexive, holds⟩

theorem guaranteed_pathExists {post : Bool → Tree Name Content → Prop}
    (reflexive : guarantee tree tree)
    (holds : post (metadata cwd tree true path).isOk tree) :
    Guaranteed answers' guarantee (pathExists path) tree post :=
  guaranteed_bind.mpr (guaranteed_metadata truly reflexive holds)

theorem guaranteed_isDir {post : Bool → Tree Name Content → Prop} (reflexive : guarantee tree tree)
    (holds : post (decide (metadata cwd tree true path = .ok .dir)) tree) :
    Guaranteed answers' guarantee (isKind .dir path) tree post := by
  refine guaranteed_bind.mpr (guaranteed_metadata truly reflexive ?_)
  cases found : metadata cwd tree true path with
  | ok kind =>
      rw [found] at holds
      simp only [Except.ok.injEq] at holds
      exact holds
  | error cause =>
      rw [found] at holds
      simp only [reduceCtorEq, decide_false] at holds
      exact holds

/-- What `create_dir_all` answers where an attempt has failed. -/
theorem guaranteed_dirOrError {post : Except ErrorKind Unit → Tree Name Content → Prop}
    (reflexive : guarantee tree tree)
    (isDir : metadata cwd tree true path = .ok .dir → post (.ok ()) tree)
    (notDir : metadata cwd tree true path ≠ .ok .dir → post (.error cause) tree) :
    Guaranteed answers' guarantee (do
      if ← isKind .dir path then return Except.ok ()
      else return .error cause) tree post := by
  refine guaranteed_bind.mpr (guaranteed_isDir truly reflexive ?_)
  by_cases there : metadata cwd tree true path = .ok .dir
  · rw [decide_eq_true there]
    exact isDir there
  · rw [decide_eq_false there]
    exact notDir there

end Looking

/-! ## Directories that are made -/

theorem createDirAllFrom_adds (fuel : Nat) (path : Path Name) (tree : Tree Name Content) :
    Guaranteed (answers cwd) Tree.Adds (createDirAllFrom fuel path) tree
      fun result tree' => tree.Grows tree' ∧
        (result = .ok () → path.isEmpty = true ∨
          ∃ directory, Reaches cwd tree' path directory) :=
  guaranteed_createDirAllFrom fuel path tree Tree.Adds.refl fun _ _ _ _ _ answered =>
    createDir_adds answered

theorem createDirAll_adds (path : Path Name) (tree : Tree Name Content) :
    Guaranteed (answers cwd) Tree.Adds (createDirAll path) tree
      fun result tree' => tree.Grows tree' ∧
        (result = .ok () → path.isEmpty = true ∨
          ∃ directory, Reaches cwd tree' path directory) :=
  createDirAllFrom_adds _ path tree

/-- A name that is missing in a directory is looked up there. -/
theorem Reaches.resolve_missing (reaches : Reaches cwd tree path directory)
    (absent : tree.get (directory ++ [name]) = none) :
    resolve cwd tree true (path.joinName name) = .ok (directory ++ [name]) := by
  rcases walk_append reaches.walked reaches.rooted.dir with ⟨left, _, later⟩
  have start := reaches.start
  rw [← start_joinName path name] at start
  rw [resolve_eq_walk _ (isEmpty_joinName path name) start, lookedUp_joinName, start_joinName]
  refine (later 0 true _ (List.cons_ne_nil _ _)).trans ?_
  rw [walk_named_none absent, List.isEmpty_nil, if_pos rfl]

theorem Reaches.metadata_missing (reaches : Reaches cwd tree path directory)
    (absent : tree.get (directory ++ [name]) = none) :
    metadata cwd tree true (path.joinName name) = .error .notFound := by
  simp only [metadata, reaches.resolve_missing absent, bind, Except.bind, absent]

/-- A path to a directory shows one. -/
theorem Reaches.metadata_dir (reaches : Reaches cwd tree path directory)
    (notEmpty : path.isEmpty = false) : metadata cwd tree true path = .ok .dir :=
  metadata_eq_ok.mpr ⟨directory, .dir, reaches.resolves notEmpty, reaches.rooted.dir, rfl⟩

/-- What creates a directory leaves it empty. -/
theorem createDir_child (created : createDir cwd tree (path.joinName name) = .ok tree') :
    ∃ directory, Reaches cwd tree path directory ∧
      tree.get (directory ++ [name]) = none ∧ tree' = tree.set (directory ++ [name]) .dir ∧
      Reaches cwd tree' (path.joinName name) (directory ++ [name]) := by
  rcases createDir_eq_ok.mp created with ⟨location, resolved, absent, rfl⟩
  have resolved' : resolve cwd tree false (path.joinName name) = .ok location :=
    resolved
  rcases reaches_of_resolve_joinName resolved' with ⟨directory, reaches⟩
  rw [reaches.resolve_joinName] at resolved'
  cases resolved'
  refine ⟨directory, reaches, absent, rfl, (reaches.extends (Tree.set_extends absent)).joinName ?_⟩
  rw [Tree.get_set _ _ _ _ (notRoot_of_absent absent), if_pos rfl]

omit [DecidableEq Name] in
theorem trim_length (absolute : Bool) (components : List (Component Name)) :
    (Path.trim absolute components).length ≤ components.length :=
  (trim_isPrefix absolute components).length_le

omit [DecidableEq Name] in
theorem parent_shorter {parent : Path Name} (isParent : path.parent = some parent) :
    parent.components.length < path.components.length := by
  rw [Path.parent] at isParent
  split at isParent
  · cases isParent
  next notEmpty =>
    cases isParent
    have front := trim_length path.absolute (Path.trim path.absolute path.components).dropLast
    have trimmed := trim_length path.absolute path.components
    have some_ := List.length_pos_iff.mpr notEmpty
    rw [List.length_dropLast] at front
    change (Path.trim path.absolute (Path.trim path.absolute path.components).dropLast).length < _
    omega

/-! ## Directories that are new -/

section Freshly

variable (cwd) (path) in
/-- The directory is not to be created where it already is. -/
def freshly : Semantics (Request Name Content) Answer (Tree Name Content) :=
  fun request tree answer tree' =>
    truthful cwd request tree answer tree' ∧
      (request = .createDir path → metadata cwd tree true path ≠ .ok .dir)

theorem freshly_truthful (request : Request Name Content) (tree : Tree Name Content)
    (answer : Answer request) (tree' : Tree Name Content)
    (answered : freshly cwd path request tree answer tree') :
    truthful cwd request tree answer tree' :=
  answered.1

/-- The last attempt makes the directory. -/
theorem createDirAll_freshly (notEmpty : path.isEmpty = false) :
    Guaranteed (freshly cwd path) Tree.Adds (createDirAll path) tree
      fun result tree' => result = .ok () → ∃ before, tree.Adds before ∧
        createDir cwd before path = .ok tree' := by
  have attempt {before after : Tree Name Content} {answer : Except ErrorKind Unit}
      (answered : freshly cwd path (.createDir path) before answer after) :
      (answer = .ok () → createDir cwd before path = .ok after) ∧
        (answer ≠ .ok () → after = before ∧
          metadata cwd after true path ≠ .ok .dir) := by
    constructor
    · rintro rfl
      rcases answered.1.1 with performed | ⟨failed, _⟩
      · rw [perform] at performed
        cases created : createDir cwd before path with
        | error cause =>
            rw [created] at performed
            cases performed
        | ok after' =>
            rw [created] at performed
            cases performed
            rfl
      · cases failed
    · intro failed
      cases answer with
      | ok value => exact absurd rfl failed
      | error cause =>
          have same := createDir_failed answered.1.1
          exact ⟨same, same ▸ answered.2 rfl⟩
  have fails {tree after : Tree Name Content} (cause : ErrorKind)
      (notDir : metadata cwd after true path ≠ .ok .dir) :
      Guaranteed (freshly cwd path) Tree.Adds (do
        if ← isKind .dir path then return Except.ok ()
        else return .error cause) after fun result tree' => result = .ok () →
          ∃ before, tree.Adds before ∧ createDir cwd before path = .ok tree' := by
    refine guaranteed_dirOrError freshly_truthful (.refl after) ?_ ?_
    · exact fun isDir => absurd isDir notDir
    · intro _ same
      cases same
  rw [createDirAll, createDirAllFrom, notEmpty]
  refine guaranteed_bind.mpr fun answer tree' answered => ?_
  refine ⟨createDir_adds answered.1.1, ?_⟩
  rcases attempt answered with ⟨made, failed⟩
  cases answer with
  | ok value => exact fun _ => ⟨tree, .refl tree, made rfl⟩
  | error cause =>
      rcases failed (by intro same; cases same) with ⟨rfl, notDir⟩
      cases cause with
      | notFound =>
          cases path.parent with
          | none =>
              intro same
              cases same
          | some parent =>
              have later : Guaranteed (freshly cwd path) Tree.Adds
                  (createDirAllFrom (path.components.length + 1) parent) tree' fun _ tree'' =>
                    tree'.Adds tree'' := by
                have above : Guaranteed (answers cwd) Tree.Adds
                    (createDirAllFrom (path.components.length + 1) parent) tree' _ :=
                  createDirAllFrom_adds _ parent tree'
                refine ((above.restrict fun _ _ _ _ answered => answered.1.1).keeping
                  (fun _ _ adds adds' => adds.trans adds') (Tree.Adds.refl tree')).weaken ?_
                exact fun _ _ kept => kept.1
              refine guaranteed_bind.mpr (later.weaken ?_)
              intro result tree'' adds
              cases result with
              | error cause =>
                  intro same
                  cases same
              | ok value =>
                  refine guaranteed_bind.mpr fun answer tree''' answered' => ?_
                  refine ⟨createDir_adds answered'.1.1, ?_⟩
                  rcases attempt answered' with ⟨made', failed'⟩
                  cases answer with
                  | ok value => exact fun _ => ⟨tree'', adds, made' rfl⟩
                  | error cause =>
                      rcases failed' (by intro same; cases same) with ⟨rfl, notDir'⟩
                      exact fails cause notDir'
      | _ => exact fails _ notDir

end Freshly

/-! ## Requests that do not fail behind a point -/

section Settling

variable (cwd) (target : Path Name)

/-- A request to create or to write is answered by success, or the directory is there. -/
def Settles : (request : Request Name Content) → Answer request → Tree Name Content → Prop
  | .createDir path, answer, tree' =>
      answer = .ok () ∨ metadata cwd tree' true path = .ok .dir
  | .write _ _, answer, _ => answer = .ok ()
  | _, _, _ => True

/-- As soon as the path leads somewhere, nothing fails. -/
def settled : Semantics (Request Name Content) Answer (Tree Name Content) :=
  fun request tree answer tree' =>
    truthful cwd request tree answer tree' ∧
      ((metadata cwd tree' true target).isOk = true →
        Settles cwd request answer tree')

variable {cwd target}

theorem settled_truthful (request : Request Name Content) (tree : Tree Name Content)
    (answer : Answer request) (tree' : Tree Name Content)
    (answered : settled cwd target request tree answer tree') :
    truthful cwd request tree answer tree' :=
  answered.1

/-- An attempt that fails leaves the target missing, or finds the directory. -/
theorem createDir_settled
    (answered : settled cwd target (.createDir path) tree (.error cause) tree') :
    tree' = tree ∧ ((metadata cwd tree true target).isOk = false ∨
      metadata cwd tree true path = .ok .dir) := by
  have same := createDir_failed answered.1.1
  refine ⟨same, ?_⟩
  cases there : (metadata cwd tree true target).isOk with
  | false => exact .inl rfl
  | true =>
      right
      rcases answered.2 (same ▸ there) with ok | isDir
      · cases ok
      · exact same ▸ isDir

/-- A directory that is there is not reported as missing. -/
theorem createDir_notFound (isDir : metadata cwd tree true path = .ok .dir)
    (notEmpty : path.isEmpty = false) :
    ¬ settled cwd target (.createDir path) tree (.error .notFound) tree' := by
  intro answered
  rcases reaches_of_metadata isDir with ⟨directory, reaches⟩
  rcases answered.1.1 with performed | ⟨failed, _⟩
  · rw [perform, reaches.createDir_fails notEmpty] at performed
    cases performed
  · cases failed

/-- Where directories cannot be made, the target is missing. -/
theorem createDirAllFrom_settled (fuel : Nat) (path : Path Name) (tree : Tree Name Content)
    (enough : path.components.length < fuel) :
    Guaranteed (settled cwd target) Tree.Adds (createDirAllFrom fuel path) tree
      fun result tree' => result ≠ .ok () →
        (metadata cwd tree' true target).isOk = false := by
  induction fuel generalizing path tree with
  | zero => exact absurd enough (Nat.not_lt_zero _)
  | succ fuel induction =>
      rw [createDirAllFrom]
      split
      · exact fun failed => absurd rfl failed
      next isEmpty =>
        have notEmpty := Bool.eq_false_iff.mpr isEmpty
        have otherwise {tree : Tree Name Content} (cause : ErrorKind)
            (missing : (metadata cwd tree true target).isOk = false ∨
              metadata cwd tree true path = .ok .dir) :
            Guaranteed (settled cwd target) Tree.Adds (do
              if ← isKind .dir path then return Except.ok ()
              else return .error cause) tree fun result tree' => result ≠ .ok () →
                (metadata cwd tree' true target).isOk = false := by
          refine guaranteed_dirOrError settled_truthful (.refl tree) ?_ ?_
          · exact fun _ failed => absurd rfl failed
          · exact fun notDir _ => missing.resolve_right notDir
        refine guaranteed_bind.mpr fun answer tree' answered => ?_
        refine ⟨createDir_adds answered.1.1, ?_⟩
        cases answer with
        | ok value => exact fun failed => absurd rfl failed
        | error cause =>
            rcases createDir_settled answered with ⟨rfl, missing⟩
            cases cause with
            | notFound =>
                have isMissing : (metadata cwd tree' true target).isOk = false :=
                  missing.resolve_right fun isDir => createDir_notFound isDir notEmpty answered
                cases isParent : path.parent with
                | none => exact fun _ => isMissing
                | some parent =>
                    have shorter := parent_shorter isParent
                    have later := induction parent tree' (by omega)
                    refine guaranteed_bind.mpr (later.weaken ?_)
                    intro result tree'' failing
                    cases result with
                    | error cause =>
                        intro _
                        apply failing
                        intro ok
                        cases ok
                    | ok value =>
                        refine guaranteed_bind.mpr fun answer tree''' answered' => ?_
                        refine ⟨createDir_adds answered'.1.1, ?_⟩
                        cases answer with
                        | ok value => exact fun failed => absurd rfl failed
                        | error cause =>
                            rcases createDir_settled answered' with ⟨rfl, missing'⟩
                            exact otherwise cause missing'
            | _ => exact otherwise _ missing

theorem createDirAll_settled (path : Path Name) (tree : Tree Name Content) :
    Guaranteed (settled cwd target) Tree.Adds (createDirAll path) tree
      fun result tree' => result ≠ .ok () →
        (metadata cwd tree' true target).isOk = false :=
  createDirAllFrom_settled _ path tree (by omega)

end Settling

end Inference.FileSystem
