import Inference.Foundation.FileRequests

/-! # What requests leave alone

A path that leads to a directory leads there as long as no entry is taken away, and names are looked
up in that directory. Every request says which locations it may touch; all others stay as they are.
-/

namespace Inference.FileSystem

open Effects

variable {Name Content : Type} [DecidableEq Name]

variable {links : Nat} {here : Location Name} {follow : Bool}

section Walking

variable {tree : Tree Name Content}

/-- Behind its front, a path is walked from the directory that the front leads to. -/
theorem walk_append {directory : Location Name} {front : List (Component Name)}
    (walked : walk tree true links here front = .ok directory)
    (isDir : tree.get directory = some .dir) :
    ∃ left ≤ links, ∀ (extra : Nat) (follow : Bool) (rest : List (Component Name)), rest ≠ [] →
      walk tree follow (links + extra) here (front ++ rest) =
        walk tree follow (left + extra) directory rest := by
  rw [walks_iff] at walked
  induction walked with
  | @nil links => exact ⟨links, le_refl links, fun _ _ _ _ => rfl⟩
  | current _ induction =>
      rcases induction isDir with ⟨left, atMost, later⟩
      exact ⟨left, atMost, fun extra follow rest more =>
        walk_current.trans (later extra follow rest more)⟩
  | parent _ induction =>
      rcases induction isDir with ⟨left, atMost, later⟩
      exact ⟨left, atMost, fun extra follow rest more =>
        walk_parent.trans (later extra follow rest more)⟩
  | absent absent =>
      rw [absent] at isDir
      cases isDir
  | dir isHere _ induction =>
      rcases induction isDir with ⟨left, atMost, later⟩
      exact ⟨left, atMost, fun extra follow rest more =>
        (walk_named_dir isHere).trans (later extra follow rest more)⟩
  | file isFile =>
      rw [isFile] at isDir
      cases isDir
  | unfollowed _ unfollowed => cases unfollowed
  | link isLink _ _ induction =>
      rcases induction isDir with ⟨left, atMost, later⟩
      refine ⟨left, Nat.le_succ_of_le atMost, fun extra follow rest more => ?_⟩
      rw [List.cons_append, Nat.succ_add, walk_named_link isLink (by simp [more]),
        ← List.append_assoc]
      exact later extra follow rest more

/-- What can be followed to its end can also be looked up without following its last link. -/
theorem walk_present {location : Location Name} {components : List (Component Name)}
    (walked : walk tree true links here components = .ok location)
    (present : tree.get location ≠ none) :
    ∃ location', walk tree false links here components = .ok location' ∧
      tree.get location' ≠ none := by
  simp only [walks_iff] at walked ⊢
  generalize isFollowed : true = follow at walked
  induction walked with
  | nil => exact ⟨_, .nil, present⟩
  | current _ induction =>
      exact (induction present).imp fun _ found => ⟨.current found.1, found.2⟩
  | parent _ induction =>
      exact (induction present).imp fun _ found => ⟨.parent found.1, found.2⟩
  | absent absent => exact absurd absent present
  | dir isDir _ induction =>
      exact (induction present).imp fun _ found => ⟨.dir isDir found.1, found.2⟩
  | file isFile => exact ⟨_, .file isFile, present⟩
  | unfollowed _ unfollowed => cases isFollowed.trans unfollowed
  | @link _ _ _ rest _ _ isLink _ _ induction =>
      cases rest with
      | nil => exact ⟨_, .unfollowed isLink rfl, by rw [isLink]; exact Option.some_ne_none _⟩
      | cons component rest =>
          exact (induction present).imp fun _ found => ⟨.link isLink rfl found.1, found.2⟩

/-- What a walk leads to is a directory that hangs on the root, or lies in one. -/
theorem walk_place {location : Location Name}
    {components : List (Component Name)} (rooted : Rooted tree here)
    (walked : walk tree follow links here components = .ok location) :
    Rooted tree location ∨ tree.get location ≠ some .dir ∧
      ∃ directory name, location = directory ++ [name] ∧ Rooted tree directory := by
  rw [walks_iff] at walked
  induction walked with
  | nil => exact .inl rooted
  | current _ induction => exact induction rooted
  | parent _ induction => exact induction rooted.dropLast
  | absent absent => exact .inr ⟨by rw [absent]; nofun, _, _, rfl, rooted⟩
  | dir isDir _ induction => exact induction (rooted.child isDir)
  | file isFile => exact .inr ⟨by rw [isFile]; nofun, _, _, rfl, rooted⟩
  | unfollowed isLink => exact .inr ⟨by rw [isLink]; nofun, _, _, rfl, rooted⟩
  | link _ _ _ induction => exact induction (rooted.start _)

/-- A name is looked up in the directory, whatever it stands for. -/
theorem walk_name {name : Name} :
    walk tree false links here [.named name] = .ok (here ++ [name]) := by
  cases found : tree.get (here ++ [name]) with
  | none => rw [walk_named_none found, List.isEmpty_nil, if_pos rfl]
  | some node =>
      cases node with
      | dir => rw [walk_named_dir found, walk_nil]
      | file inode => rw [walk_named_file found, List.isEmpty_nil, if_pos rfl]
      | link target => exact walk_last_link found

end Walking

theorem walkWith_congr {tree tree' : Tree Name Content}
    (same : ∀ location, tree'.get location = tree.get location) (follow : Bool)
    {jump jump' : Location Name → List (Component Name) → Except ErrorKind (Location Name)}
    (jumps : ∀ here components, jump' here components = jump here components)
    (here : Location Name) (components : List (Component Name)) :
    walkWith tree' follow jump' here components = walkWith tree follow jump here components := by
  induction components generalizing here with
  | nil => rfl
  | cons component rest induction =>
      cases component with
      | current => exact induction here
      | parent => exact induction here.dropLast
      | named name => simp only [walkWith, same, jumps, induction]

/-- Paths depend on the entries alone. -/
theorem walk_congr {tree tree' : Tree Name Content}
    (same : ∀ location, tree'.get location = tree.get location) (follow : Bool) (links : Nat)
    (here : Location Name) (components : List (Component Name)) :
    walk tree' follow links here components = walk tree follow links here components := by
  induction links generalizing here components with
  | zero => exact walkWith_congr same follow (fun _ _ => rfl) here components
  | succ links induction => exact walkWith_congr same follow induction here components

theorem resolve_congr {tree tree' : Tree Name Content}
    (same : ∀ location, tree'.get location = tree.get location)
    (cwd : Location Name) (follow : Bool) (path : Path Name) :
    resolve cwd tree' follow path = resolve cwd tree follow path := by
  have rooted : tree'.isRooted (path.start cwd) =
      tree.isRooted (path.start cwd) := by
    rw [Tree.isRooted, Tree.isRooted]
    exact congrArg _ (funext fun above => by rw [same])
  rw [resolve, resolve, rooted, walk_congr same]

/-! ## Directories that paths lead to -/

/-- The path is the other one or a front of it. -/
def Path.IsAbove (above path : Path Name) : Prop :=
  above.absolute = path.absolute ∧ above.components <+: path.components

/-- The components of a path lead to a directory. -/
structure Reaches (cwd : Location Name) (tree : Tree Name Content) (path : Path Name)
    (directory : Location Name) : Prop where
  start : Rooted tree (path.start cwd)
  walked : walk tree true maxLinks (path.start cwd)
    path.components = .ok directory
  rooted : Rooted tree directory

section Reaching

variable {cwd directory : Location Name} {tree tree' : Tree Name Content}
  {path : Path Name} {name : Name}

theorem Reaches.unique {directory' : Location Name}
    (reaches : Reaches cwd tree path directory)
    (reaches' : Reaches cwd tree path directory') : directory = directory' := by
  have same := reaches.walked.symm.trans reaches'.walked
  cases same
  rfl

theorem Reaches.extends (reaches : Reaches cwd tree path directory)
    (extends_ : tree.Extends tree') : Reaches cwd tree' path directory := by
  refine ⟨reaches.start.extends extends_, ?_, reaches.rooted.extends extends_⟩
  refine walk_extends extends_ reaches.walked ?_
  rw [reaches.rooted.dir]
  exact Option.some_ne_none _

theorem resolve_eq_walk (path : Path Name) (notEmpty : path.isEmpty = false)
    (start : Rooted tree (path.start cwd)) :
    resolve cwd tree follow path =
      walk tree follow maxLinks (path.start cwd) path.lookedUp := by
  rw [resolve, notEmpty, isRooted_iff.mpr start]
  rfl

theorem walk_of_resolve {location : Location Name}
    (resolved : resolve cwd tree follow path = .ok location) :
    path.isEmpty = false ∧ Rooted tree (path.start cwd) ∧
      walk tree follow maxLinks (path.start cwd) path.lookedUp =
        .ok location := by
  rw [resolve] at resolved
  split at resolved
  · cases resolved
  next usable =>
    rw [Bool.or_eq_true_iff, not_or, Bool.not_eq_true, Bool.not_eq_true, Bool.not_eq_false'] at usable
    exact ⟨usable.1, isRooted_iff.mp usable.2, resolved⟩

theorem resolve_extends {location : Location Name} (extends_ : tree.Extends tree')
    (resolved : resolve cwd tree follow path = .ok location)
    (present : tree.get location ≠ none) :
    resolve cwd tree' follow path = .ok location := by
  rcases walk_of_resolve resolved with ⟨notEmpty, start, walked⟩
  rw [resolve_eq_walk _ notEmpty (start.extends extends_)]
  exact walk_extends extends_ walked present

omit [DecidableEq Name] in
theorem isEmpty_joinName (path : Path Name) (name : Name) :
    (path.joinName name).isEmpty = false := by
  simp [Path.joinName, Path.join, Path.ofName, Path.isEmpty]

omit [DecidableEq Name] in
theorem lookedUp_joinName (path : Path Name) (name : Name) :
    (path.joinName name).lookedUp = path.components ++ [.named name] := by
  simp [Path.joinName, Path.join, Path.ofName, Path.lookedUp]

omit [DecidableEq Name] in
theorem start_joinName (path : Path Name) (name : Name) (here : Location Name) :
    (path.joinName name).start here = path.start here := by
  simp [Path.joinName, Path.join, Path.ofName, Path.start]

theorem Reaches.resolve_joinName (reaches : Reaches cwd tree path directory)
    (name : Name) :
    resolve cwd tree false (path.joinName name) = .ok (directory ++ [name]) := by
  rcases walk_append reaches.walked reaches.rooted.dir with ⟨left, _, later⟩
  have start := reaches.start
  rw [← start_joinName path name] at start
  rw [resolve_eq_walk _ (isEmpty_joinName path name) start, lookedUp_joinName, start_joinName]
  exact (later 0 false _ (List.cons_ne_nil _ _)).trans walk_name

/-- The front of a path that can be looked up leads to a directory. -/
theorem reaches_of_resolve {location : Location Name} {other : Path Name}
    (relative : other.absolute = false) (more : other.components ≠ [])
    (resolved : resolve cwd tree follow (path.join other) = .ok location) :
    ∃ directory, Reaches cwd tree path directory := by
  rcases walk_of_resolve resolved with ⟨_, start, walked⟩
  have joined : path.join other =
      ⟨path.absolute, path.components ++ other.components,
        other.components.isEmpty || other.trailing⟩ := by
    rw [Path.join, relative]
    rfl
  rw [joined] at start walked
  have front : ∃ rest ≠ [], walk tree follow maxLinks
      (path.start cwd) (path.components ++ rest) = .ok location := by
    rw [Path.lookedUp] at walked
    dsimp only at walked
    split at walked
    · rw [List.append_assoc] at walked
      exact ⟨_, by simp, walked⟩
    · exact ⟨_, more, walked⟩
  rcases front with ⟨rest, more, walked⟩
  rcases walk_front start more walked with ⟨directory, reached, rooted⟩
  exact ⟨directory, start, reached, rooted⟩

theorem reaches_of_resolve_joinName {location : Location Name}
    (resolved : resolve cwd tree follow (path.joinName name) = .ok location) :
    ∃ directory, Reaches cwd tree path directory :=
  reaches_of_resolve rfl (List.cons_ne_nil _ _) resolved

/-- What is no link is looked up under its own name. -/
theorem Reaches.resolve_notLink (reaches : Reaches cwd tree path directory)
    (notLink : ∀ target, tree.get (directory ++ [name]) ≠ some (.link target)) :
    resolve cwd tree true (path.joinName name) = .ok (directory ++ [name]) := by
  rcases walk_append reaches.walked reaches.rooted.dir with ⟨left, _, later⟩
  have start := reaches.start
  rw [← start_joinName path name] at start
  rw [resolve_eq_walk _ (isEmpty_joinName path name) start, lookedUp_joinName, start_joinName]
  refine (later 0 true _ (List.cons_ne_nil _ _)).trans ?_
  cases entry : tree.get (directory ++ [name]) with
  | none => rw [walk_named_none entry, List.isEmpty_nil, if_pos rfl]
  | some node =>
      cases node with
      | dir => rw [walk_named_dir entry, walk_nil]
      | file inode => rw [walk_named_file entry, List.isEmpty_nil, if_pos rfl]
      | link target => exact absurd entry (notLink target)

theorem Reaches.joinName (reaches : Reaches cwd tree path directory)
    (isDir : tree.get (directory ++ [name]) = some .dir) :
    Reaches cwd tree (path.joinName name) (directory ++ [name]) := by
  have start := reaches.start
  rw [← start_joinName path name] at start
  rcases walk_append reaches.walked reaches.rooted.dir with ⟨left, _, later⟩
  refine ⟨start, ?_, reaches.rooted.child isDir⟩
  rw [start_joinName]
  refine (later 0 true [.named name] (List.cons_ne_nil _ _)).trans ?_
  rw [walk_named_dir isDir, walk_nil]

/-- A path to a directory can be looked up, with or without a separator at its end. -/
theorem Reaches.resolves (reaches : Reaches cwd tree path directory)
    (notEmpty : path.isEmpty = false) :
    resolve cwd tree true path = .ok directory := by
  rw [resolve_eq_walk _ notEmpty reaches.start, Path.lookedUp]
  split
  · rcases walk_append reaches.walked reaches.rooted.dir with ⟨left, _, later⟩
    refine (later 0 true [.current] (List.cons_ne_nil _ _)).trans ?_
    rw [walk_current, walk_nil]
  · exact reaches.walked

/-- A directory that is there cannot be created. -/
theorem Reaches.createDir_fails (reaches : Reaches cwd tree path directory)
    (notEmpty : path.isEmpty = false) :
    createDir cwd tree path = .error .alreadyExists := by
  have present : tree.get directory ≠ none := by
    rw [reaches.rooted.dir]
    exact Option.some_ne_none _
  rcases walk_present reaches.walked present with ⟨location, walked, found⟩
  have resolved : resolve cwd tree false { path with trailing := false } =
      .ok location :=
    (resolve_eq_walk { path with trailing := false } notEmpty reaches.start).trans walked
  rcases Option.ne_none_iff_exists'.mp found with ⟨node, entry⟩
  simp only [createDir, resolved, Except.bind, bind, entry]

/-- A separator at the end plays no part. -/
theorem Reaches.ofComponents {path' : Path Name}
    (reaches : Reaches cwd tree path directory)
    (absolute : path'.absolute = path.absolute) (components : path'.components = path.components) :
    Reaches cwd tree path' directory := by
  have start : path'.start cwd = path.start cwd := by
    rw [Path.start, Path.start, absolute]
  exact ⟨start ▸ reaches.start, by rw [start, components]; exact reaches.walked, reaches.rooted⟩

/-- Each front of a path to a directory leads to a directory. -/
theorem Reaches.above {above : Path Name} (reaches : Reaches cwd tree path directory)
    (isAbove : above.IsAbove path) :
    ∃ directory', Reaches cwd tree above directory' := by
  rcases isAbove with ⟨absolute, rest, split⟩
  by_cases more : rest = []
  · refine ⟨directory, reaches.ofComponents absolute ?_⟩
    rw [← split, more, List.append_nil]
  · have walked := reaches.walked
    rw [← split] at walked
    rcases walk_front reaches.start more walked with ⟨directory', walked', rooted⟩
    have start : above.start cwd = path.start cwd := by
      rw [Path.start, Path.start, absolute]
    exact ⟨directory', start ▸ reaches.start, start ▸ walked', rooted⟩

theorem Reaches.congr (reaches : Reaches cwd tree path directory)
    (same : ∀ location, tree'.get location = tree.get location) :
    Reaches cwd tree' path directory :=
  reaches.extends fun location _ found => (same location).trans found

end Reaching

/-! ## What changes leave alone -/

/-- The entry at the location is the same, and so is the file it stands for. -/
structure Tree.Untouched (tree tree' : Tree Name Content) (location : Location Name) : Prop where
  entry : tree'.get location = tree.get location
  contents : ∀ inode, tree.get location = some (.file inode) →
    tree'.contents inode = tree.contents inode

/-- All that changes is within some locations. -/
def Tree.ChangesWithin (allowed : Location Name → Prop) (tree tree' : Tree Name Content) : Prop :=
  ∀ location, ¬ allowed location → tree.Untouched tree' location

variable {node : Node Name} {written : Content} {inode : Inode}

namespace Tree

variable {tree tree' : Tree Name Content} {allowed allowed' : Location Name → Prop}
  {location other : Location Name}

theorem ChangesWithin.refl : tree.ChangesWithin allowed tree :=
  fun _ _ => ⟨rfl, fun _ _ => rfl⟩

theorem ChangesWithin.mono (changes : tree.ChangesWithin allowed tree')
    (within : ∀ location, allowed location → allowed' location) :
    tree.ChangesWithin allowed' tree' :=
  fun location outside => changes location fun inside => outside (within location inside)

theorem ChangesWithin.trans {tree'' : Tree Name Content} (changes : tree.ChangesWithin allowed tree')
    (later : tree'.ChangesWithin allowed tree'') : tree.ChangesWithin allowed tree'' := by
  intro location outside
  have first := changes location outside
  have second := later location outside
  refine ⟨second.entry.trans first.entry, fun inode isFile => ?_⟩
  rw [second.contents inode (first.entry.trans isFile), first.contents inode isFile]

/-- An entry that `set` changes is the one it sets. -/
theorem set_entry (notRoot : location ≠ [])
    (changes : (tree.set location node).get other ≠ tree.get other) :
    other = location ∧ (tree.set location node).get other = some node := by
  rw [get_set tree location other node notRoot] at changes ⊢
  by_cases same : other = location
  · exact ⟨same, if_pos same⟩
  · rw [if_neg same] at changes
    exact absurd rfl changes

theorem create_entry (notRoot : location ≠ [])
    (changes : (tree.create location written).get other ≠ tree.get other) :
    other = location ∧ (tree.create location written).get other = some (.file tree.freshInode) :=
  set_entry (show location ≠ [] from notRoot) changes

theorem create_contents (isFile : tree.get other = some (.file inode)) :
    (tree.create location written).contents inode = tree.contents inode :=
  Function.update_of_ne (Nat.ne_of_lt (lt_freshInode isFile)) _ _

theorem erase_entry {gone : Location Name → Bool}
    (changes : (tree.erase gone).get other ≠ tree.get other) :
    gone other = true ∧ tree.get other ≠ none ∧ (tree.erase gone).get other = none := by
  by_cases root : other = []
  · subst root
    exact absurd rfl changes
  rw [get_erase tree gone other root] at changes ⊢
  split at changes
  next isGone => exact ⟨isGone, changes.symm, if_pos isGone⟩
  next => exact absurd rfl changes

theorem erase_extends {gone : Location Name → Bool} : (tree.erase gone).Extends tree := by
  intro location node found
  by_cases root : location = []
  · subst root
    exact found
  rw [get_erase tree gone location root] at found
  split at found
  · cases found
  · exact found

theorem set_extends (absent : tree.get location = none) :
    tree.Extends (tree.set location node) := by
  intro other node' found
  have notRoot : location ≠ [] := by
    rintro rfl
    cases absent
  rw [get_set tree location other node notRoot, if_neg, found]
  rintro rfl
  rw [absent] at found
  cases found

theorem create_extends (absent : tree.get location = none) :
    tree.Extends (tree.create location written) :=
  fun other node found =>
    set_extends (show (tree.setContents tree.freshInode written).get location = none from absent)
      other node found

end Tree

/-- The second tree has more directories and is else the same. -/
structure Tree.Grows (tree tree' : Tree Name Content) : Prop where
  kept : tree.Extends tree'
  directories : ∀ location node, tree'.get location = some node →
    tree.get location = some node ∨ tree.get location = none ∧ node = .dir
  contents : tree'.contents = tree.contents

theorem Tree.Grows.refl (tree : Tree Name Content) : tree.Grows tree :=
  ⟨fun _ _ found => found, fun _ _ found => .inl found, rfl⟩

theorem Tree.Grows.trans {tree tree' tree'' : Tree Name Content} (grows : tree.Grows tree')
    (grows' : tree'.Grows tree'') : tree.Grows tree'' := by
  refine ⟨fun location node found => grows'.kept location node (grows.kept location node found), ?_,
    grows'.contents.trans grows.contents⟩
  intro location node found
  rcases grows'.directories location node found with found' | ⟨absent, rfl⟩
  · exact grows.directories location node found'
  · refine .inr ⟨?_, rfl⟩
    cases found' : tree.get location with
    | none => rfl
    | some node =>
        rw [grows.kept location node found'] at absent
        cases absent

theorem Tree.grows_set {tree : Tree Name Content} {location : Location Name}
    (absent : tree.get location = none) : tree.Grows (tree.set location .dir) := by
  have notRoot : location ≠ [] := by
    rintro rfl
    cases absent
  refine ⟨Tree.set_extends absent, ?_, rfl⟩
  intro other node found
  rw [Tree.get_set tree location other .dir notRoot] at found
  split at found
  next same =>
    cases found
    exact .inr ⟨same ▸ absent, rfl⟩
  next => exact .inl found

section Touching

variable (cwd : Location Name) (tree : Tree Name Content)

/-- What a recursive delete takes away. -/
def Removes (path : Path Name) (location : Location Name) : Prop :=
  tree.get location ≠ none ∧ (removeDirAll cwd tree path).2.get location = none

/-- What the path leads to, under each of its names. -/
def LeadsTo (path : Path Name) (location : Location Name) : Prop :=
  ∃ target, resolve cwd tree true path = .ok target ∧
    (location = target ∨
      ∃ inode, tree.get target = some (.file inode) ∧ tree.get location = some (.file inode))

/-- The locations that a request may change. -/
def Touches : Request Name Content → Location Name → Prop
  | .createDir path, location =>
      resolve cwd tree false { path with trailing := false } = .ok location ∧
        tree.get location = none
  | .write path _, location => LeadsTo cwd tree path location
  | .removeFile path, location => resolve cwd tree false path = .ok location
  | .removeDirAll path, location => Removes cwd tree path location
  | .symlink _ link, location | .hardLink _ link, location =>
      resolve cwd tree false link = .ok location
  | .rename source target, location =>
      resolve cwd tree false source = .ok location ∨
        resolve cwd tree false target = .ok location
  | _, _ => False

/-- Which entries a request may change, and what they are then. -/
def Rewrites : Request Name Content → Location Name → Option (Node Name) → Prop
  | .createDir path, location, node =>
      resolve cwd tree false { path with trailing := false } = .ok location ∧
        tree.get location = none ∧ node = some .dir
  | .write path _, location, node =>
      resolve cwd tree true path = .ok location ∧ tree.get location = none ∧
        node = some (.file tree.freshInode)
  | .removeFile path, location, node =>
      resolve cwd tree false path = .ok location ∧ tree.get location ≠ some .dir ∧
        node = none
  | .removeDirAll path, location, node => Removes cwd tree path location ∧ node = none
  | .symlink original link, location, node =>
      resolve cwd tree false link = .ok location ∧ tree.get location = none ∧
        node = some (.link original)
  | .hardLink original link, location, node =>
      resolve cwd tree false link = .ok location ∧ tree.get location = none ∧
        ∃ source, resolve cwd tree false original = .ok source ∧
          tree.get source = node ∧ node ≠ some .dir
  | .rename source target, location, node =>
      tree.get location ≠ some .dir ∧ ∃ old new,
        resolve cwd tree false source = .ok old ∧
          resolve cwd tree false target = .ok new ∧
          (location = old ∧ node = none ∨
            location = new ∧ node = tree.get old ∧ node ≠ some .dir)
  | _, _, _ => False

end Touching

variable {original : Path Name} {kind : Kind} {request : Request Name Content}

section Changes

variable {cwd : Location Name} {tree tree' : Tree Name Content} {path : Path Name}

theorem notRoot_of_absent {location : Location Name} (absent : tree.get location = none) :
    location ≠ [] := by
  rintro rfl
  cases absent

theorem createDir_eq_ok : createDir cwd tree path = .ok tree' ↔
    ∃ location, resolve cwd tree false { path with trailing := false } = .ok location ∧
      tree.get location = none ∧ tree' = tree.set location .dir := by
  rw [createDir]
  cases resolve cwd tree false { path with trailing := false } with
  | error error => simp [bind, Except.bind]
  | ok location =>
      simp only [bind, Except.bind, Except.ok.injEq, exists_eq_left']
      cases tree.get location with
      | none => simp [eq_comm]
      | some node => simp

theorem writeFile_eq_ok :
    writeFile cwd tree path written = .ok tree' ↔
      ∃ location, resolve cwd tree true path = .ok location ∧
        (tree.get location = none ∧ tree' = tree.create location written ∨
          ∃ inode, tree.get location = some (.file inode) ∧
            tree' = tree.setContents inode written) := by
  rw [writeFile]
  cases resolve cwd tree true path with
  | error error => simp [bind, Except.bind]
  | ok location =>
      simp only [bind, Except.bind, Except.ok.injEq, exists_eq_left']
      cases tree.get location with
      | none => simp [eq_comm]
      | some node => cases node <;> simp [eq_comm]

theorem removeFile_eq_ok : removeFile cwd tree path = .ok tree' ↔
    ∃ location, resolve cwd tree false path = .ok location ∧
      tree.get location ≠ none ∧ tree.get location ≠ some .dir ∧
      tree' = tree.erase fun other => other = location := by
  rw [removeFile]
  cases resolve cwd tree false path with
  | error error => simp [bind, Except.bind]
  | ok location =>
      simp only [bind, Except.bind, Except.ok.injEq, exists_eq_left']
      cases tree.get location with
      | none => simp
      | some node => cases node <;> simp [eq_comm]

theorem removeDir_eq_ok : removeDir cwd tree path = .ok tree' ↔
    ∃ location name, resolve cwd tree false { path with trailing := false } =
        .ok location ∧
      path.components.getLast? = some (.named name) ∧ tree.get location = some .dir ∧
      tree.children location = [] ∧ tree' = tree.erase fun other => other = location := by
  rw [removeDir]
  cases resolve cwd tree false { path with trailing := false } with
  | error error => simp [bind, Except.bind]
  | ok location =>
      simp only [bind, Except.bind, Except.ok.injEq]
      cases path.components.getLast? with
      | none => simp
      | some component =>
          cases component with
          | current => simp
          | parent => simp
          | named name =>
              simp only [Option.some.injEq, Component.named.injEq, exists_and_left, exists_eq_left']
              cases tree.get location with
              | none => simp
              | some node =>
                  cases node with
                  | dir =>
                      by_cases empty : tree.children location = [] <;> simp [empty, eq_comm]
                  | file inode => simp
                  | link target => simp

theorem symlink_eq_ok :
    symlink cwd tree original path = .ok tree' ↔
      ∃ location, resolve cwd tree false path = .ok location ∧
        tree.get location = none ∧ tree' = tree.set location (.link original) := by
  rw [symlink]
  cases resolve cwd tree false path with
  | error error => simp [bind, Except.bind]
  | ok location =>
      simp only [bind, Except.bind, Except.ok.injEq, exists_eq_left']
      cases tree.get location with
      | none => simp [eq_comm]
      | some node => simp

theorem hardLink_eq_ok :
    hardLink cwd tree original path = .ok tree' ↔
      ∃ source location node, resolve cwd tree false original = .ok source ∧
        resolve cwd tree false path = .ok location ∧
        tree.get source = some node ∧ node ≠ .dir ∧ tree.get location = none ∧
        tree' = tree.set location node := by
  rw [hardLink]
  cases resolve cwd tree false original with
  | error error => simp [bind, Except.bind]
  | ok source =>
      cases resolve cwd tree false path with
      | error error => simp [bind, Except.bind]
      | ok location =>
          simp only [bind, Except.bind, Except.ok.injEq, exists_and_left, exists_eq_left']
          cases tree.get source with
          | none => simp
          | some node =>
              cases tree.get location with
              | none => cases node <;> simp [eq_comm]
              | some other => cases node <;> simp

theorem rename_eq_ok {target : Path Name} :
    rename cwd tree path target = .ok tree' ↔
      ∃ old new node, resolve cwd tree false path = .ok old ∧
        resolve cwd tree false target = .ok new ∧
        tree.get old = some node ∧ node ≠ .dir ∧ tree.get new ≠ some .dir ∧
        tree' = if old = new || (some node = tree.get new && node.kind = .file) then tree
          else (tree.erase fun other => other = old).set new node := by
  rw [rename]
  cases resolve cwd tree false path with
  | error error => simp [bind, Except.bind]
  | ok old =>
      cases resolve cwd tree false target with
      | error error => simp [bind, Except.bind]
      | ok new =>
          simp only [bind, Except.bind, Except.ok.injEq, exists_and_left, exists_eq_left']
          cases tree.get old with
          | none => simp
          | some node =>
              simp only [Option.some.injEq, exists_eq_left']
              cases tree.get new with
              | none =>
                  cases node with
                  | dir => simp
                  | file inode => exact ⟨fun same => by cases same; simp, fun same => by simp [same]⟩
                  | link original =>
                      exact ⟨fun same => by cases same; simp, fun same => by simp [same]⟩
              | some other =>
                  cases node with
                  | dir => cases other <;> simp
                  | file inode =>
                      cases other with
                      | dir => simp
                      | file inode' =>
                          exact ⟨fun same => by cases same; simp, fun same => by simp [same]⟩
                      | link original =>
                          exact ⟨fun same => by cases same; simp, fun same => by simp [same]⟩
                  | link original =>
                      cases other with
                      | dir => simp
                      | file inode' =>
                          exact ⟨fun same => by cases same; simp, fun same => by simp [same]⟩
                      | link original' =>
                          exact ⟨fun same => by cases same; simp, fun same => by simp [same]⟩

/-- A directory that has been created is reached. -/
theorem reaches_createDir (created : createDir cwd tree path = .ok tree') :
    ∃ directory, Reaches cwd tree' path directory := by
  rcases createDir_eq_ok.mp created with ⟨location, resolved, absent, rfl⟩
  rcases walk_of_resolve resolved with ⟨_, start, walked⟩
  change Rooted tree (path.start cwd) at start
  change walk tree false maxLinks (path.start cwd) path.components =
    .ok location at walked
  have extended : tree.Extends (tree.set location .dir) := Tree.set_extends absent
  rcases List.eq_nil_or_concat path.components with empty | ⟨front, last, split⟩
  · rw [empty, walk_nil] at walked
    cases walked
    rw [start.dir] at absent
    cases absent
  · rw [split, List.concat_eq_append] at walked
    rcases walk_front start (List.cons_ne_nil _ _) walked with ⟨directory, reached, rooted⟩
    rcases walk_append reached rooted.dir with ⟨left, _, later⟩
    have ends : walk tree false left directory [last] = .ok location :=
      (later 0 false _ (List.cons_ne_nil _ _)).symm.trans walked
    cases last with
    | current =>
        rw [walk_current, walk_nil] at ends
        cases ends
        rw [rooted.dir] at absent
        cases absent
    | parent =>
        rw [walk_parent, walk_nil] at ends
        cases ends
        rw [rooted.dropLast.dir] at absent
        cases absent
    | named name =>
        rw [walk_name] at ends
        cases ends
        have isDir : (tree.set (directory ++ [name]) .dir).get (directory ++ [name]) =
            some .dir := by
          rw [Tree.get_set _ _ _ _ (notRoot_of_absent absent), if_pos rfl]
        have reachesFront : Reaches cwd tree ⟨path.absolute, front, false⟩ directory :=
          ⟨start, reached, rooted⟩
        refine ⟨_, ((reachesFront.extends extended).joinName isDir).ofComponents rfl ?_⟩
        rw [split, List.concat_eq_append]
        rfl

theorem metadata_eq_ok :
    metadata cwd tree follow path = .ok kind ↔
      ∃ location node, resolve cwd tree follow path = .ok location ∧
        tree.get location = some node ∧ node.kind = kind := by
  rw [metadata]
  cases resolve cwd tree follow path with
  | error error => simp [bind, Except.bind]
  | ok location =>
      simp only [bind, Except.bind, Except.ok.injEq, exists_and_left, exists_eq_left']
      cases tree.get location <;> simp

/-- What a path leads to is there as long as no entry is taken away. -/
theorem metadata_extends (extends_ : tree.Extends tree')
    (found : metadata cwd tree follow path = .ok kind) :
    metadata cwd tree' follow path = .ok kind := by
  rcases metadata_eq_ok.mp found with ⟨location, node, resolved, entry, isKind⟩
  have present : tree.get location ≠ none := by
    rw [entry]
    exact Option.some_ne_none node
  exact metadata_eq_ok.mpr
    ⟨location, node, resolve_extends extends_ resolved present, extends_ _ _ entry, isKind⟩

theorem metadata_congr (same : ∀ location, tree'.get location = tree.get location)
    (follow : Bool) (path : Path Name) :
    metadata cwd tree' follow path = metadata cwd tree follow path := by
  rw [metadata, metadata, resolve_congr same]
  simp only [same]

/-- An entry of a directory, as it is. -/
theorem Reaches.metadata_entry {directory : Location Name}
    (reaches : Reaches cwd tree path directory) (name : Name) :
    metadata cwd tree false (path.joinName name) = .ok kind ↔
      ∃ node, tree.get (directory ++ [name]) = some node ∧ node.kind = kind := by
  rw [metadata_eq_ok, reaches.resolve_joinName]
  simp

/-- A file in a directory is there. -/
theorem Reaches.metadata_file {directory : Location Name} {name : Name}
    (reaches : Reaches cwd tree path directory)
    (isFile : tree.get (directory ++ [name]) = some (.file inode)) :
    metadata cwd tree true (path.joinName name) = .ok .file := by
  refine metadata_eq_ok.mpr ⟨directory ++ [name], .file inode, ?_, isFile, rfl⟩
  rcases walk_append reaches.walked reaches.rooted.dir with ⟨left, _, later⟩
  have start := reaches.start
  rw [← start_joinName path name] at start
  rw [resolve_eq_walk _ (isEmpty_joinName path name) start, lookedUp_joinName, start_joinName]
  refine (later 0 true _ (List.cons_ne_nil _ _)).trans ?_
  rw [walk_named_file isFile, List.isEmpty_nil, if_pos rfl]

theorem symlink_fails {location : Location Name}
    (resolved : resolve cwd tree false path = .ok location)
    (present : tree.get location = some node) :
    symlink cwd tree original path = .error .alreadyExists := by
  simp only [symlink, resolved, bind, Except.bind, present]

theorem reaches_of_metadata (looked : metadata cwd tree true path = .ok .dir) :
    ∃ directory, Reaches cwd tree path directory := by
  rcases metadata_eq_ok.mp looked with ⟨location, node, resolved, found, isDir⟩
  rcases walk_of_resolve resolved with ⟨_, start, walked⟩
  rw [Path.lookedUp] at walked
  split at walked
  · rcases walk_front start (List.cons_ne_nil _ _) walked with ⟨directory, walked', rooted⟩
    exact ⟨directory, start, walked', rooted⟩
  · have entry : tree.get location = some .dir := by
      rw [found]
      cases node with
      | dir => rfl
      | file inode => cases isDir
      | link target => cases isDir
    exact ⟨location, start, walked,
      (walk_place start walked).resolve_right fun found => found.1 entry⟩

theorem readDir_eq_ok {entries : List Name} :
    readDir cwd tree path = .ok entries ↔
      ∃ location, resolve cwd tree true path = .ok location ∧
        tree.get location = some .dir ∧ entries = tree.children location := by
  rw [readDir]
  cases resolve cwd tree true path with
  | error error => simp [bind, Except.bind]
  | ok location =>
      simp only [bind, Except.bind, Except.ok.injEq, exists_eq_left']
      cases tree.get location with
      | none => simp
      | some node => cases node <;> simp [eq_comm]

theorem readFile_eq_ok {content : Content} :
    readFile cwd tree path = .ok content ↔
      ∃ location inode, resolve cwd tree true path = .ok location ∧
        tree.get location = some (.file inode) ∧ tree.contents inode = content := by
  rw [readFile]
  cases resolve cwd tree true path with
  | error error => simp [bind, Except.bind]
  | ok location =>
      simp only [bind, Except.bind, Except.ok.injEq, exists_and_left, exists_eq_left']
      cases tree.get location with
      | none => simp
      | some node => cases node <;> simp

/-- Which entries a write leaves does not depend on what is written. -/
theorem writeFile_entries (written' : Content)
    (wrote : writeFile cwd tree path written = .ok tree') :
    ∃ tree'', writeFile cwd tree path written' = .ok tree'' ∧
      ∀ location, tree''.get location = tree'.get location := by
  rcases writeFile_eq_ok.mp wrote with ⟨location, resolved, ⟨absent, rfl⟩ | ⟨inode, isFile, rfl⟩⟩
  · exact ⟨_, writeFile_eq_ok.mpr ⟨location, resolved, .inl ⟨absent, rfl⟩⟩, fun _ => rfl⟩
  · exact ⟨_, writeFile_eq_ok.mpr ⟨location, resolved, .inr ⟨inode, isFile, rfl⟩⟩, fun _ => rfl⟩

theorem writeFile_extends
    (wrote : writeFile cwd tree path written = .ok tree') : tree.Extends tree' := by
  rcases writeFile_eq_ok.mp wrote with ⟨location, _, ⟨absent, rfl⟩ | ⟨inode, _, rfl⟩⟩
  · exact Tree.create_extends absent
  · exact fun _ _ found => found

/-- Nothing is touched by creating a directory that is there. -/
theorem Reaches.createDir_touches {directory location : Location Name}
    (reaches : Reaches cwd tree path directory) (notEmpty : path.isEmpty = false) :
    ¬ Touches cwd tree (.createDir path) location := by
  rintro ⟨resolved, absent⟩
  have created : createDir cwd tree path = .ok (tree.set location .dir) :=
    createDir_eq_ok.mpr ⟨location, resolved, absent, rfl⟩
  rw [reaches.createDir_fails notEmpty] at created
  cases created

theorem removeDirAll_extends :
    (removeDirAll cwd tree path).2.Extends tree := by
  rw [removeDirAll]
  cases resolve cwd tree false path with
  | error error => exact fun _ _ found => found
  | ok location =>
      dsimp only
      split
      · exact fun _ _ found => found
      · exact Tree.erase_extends
      · exact fun _ _ found => found
      · split
        next removed isRemoved =>
          rcases removeDir_eq_ok.mp isRemoved with ⟨_, _, _, _, _, _, rfl⟩
          exact fun other node found => Tree.erase_extends other node (Tree.erase_extends other node found)
        next => exact Tree.erase_extends
        next => exact Tree.erase_extends

theorem removeDirAll_contents :
    (removeDirAll cwd tree path).2.contents = tree.contents := by
  rw [removeDirAll]
  cases resolve cwd tree false path with
  | error error => rfl
  | ok location =>
      dsimp only
      split
      · rfl
      · rfl
      · rfl
      · split
        next removed isRemoved =>
          rcases removeDir_eq_ok.mp isRemoved with ⟨_, _, _, _, _, _, rfl⟩
          rfl
        next => rfl
        next => rfl

/-- A directory is emptied, whether or not it can be removed then. -/
theorem removeDirAll_below {top location : Location Name}
    (resolved : resolve cwd tree false path = .ok top)
    (isDir : tree.get top = some .dir) (inside : below top location = true) :
    (removeDirAll cwd tree path).2.get location = none := by
  have notRoot : location ≠ [] := by
    rintro rfl
    rw [below, Bool.and_eq_true, decide_eq_true_eq, List.isPrefixOf_iff_prefix] at inside
    exact inside.2 (List.prefix_nil.mp inside.1).symm
  have emptied : (tree.erase (below top)).get location = none := by
    rw [Tree.get_erase tree _ location notRoot, if_pos inside]
  rw [removeDirAll, resolved]
  dsimp only
  rw [isDir]
  dsimp only
  split
  next removed isRemoved =>
    rcases removeDir_eq_ok.mp isRemoved with ⟨_, _, _, _, _, _, rfl⟩
    cases found : ((tree.erase (below top)).erase _).get location with
    | none => rfl
    | some node =>
        rw [Tree.erase_extends location node found] at emptied
        cases emptied
  next => exact emptied
  next => exact emptied

/-- Only what is below the path's location is taken away, and what the path names without a
separator at its end. -/
theorem removes_cases {location : Location Name}
    (removes : Removes cwd tree path location) :
    ∃ top, resolve cwd tree false path = .ok top ∧
      (top <+: location ∨
        resolve cwd tree false { path with trailing := false } = .ok location) := by
  rcases removes with ⟨present, gone⟩
  have notRoot : location ≠ [] := by
    rintro rfl
    cases gone
  rw [removeDirAll] at gone
  cases resolved : resolve cwd tree false path with
  | error error =>
      rw [resolved] at gone
      exact absurd gone present
  | ok top =>
      refine ⟨top, rfl, ?_⟩
      rw [resolved] at gone
      dsimp only at gone
      cases found : tree.get top with
      | none =>
          rw [found] at gone
          exact absurd gone present
      | some node =>
          rw [found] at gone
          cases node with
          | file inode => exact absurd gone present
          | link target =>
              rw [Tree.get_erase tree _ location notRoot] at gone
              split at gone
              next same => exact .inl (of_decide_eq_true same ▸ List.prefix_refl _)
              next => exact absurd gone present
          | dir =>
              by_cases inside : below top location = true
              · rw [below, Bool.and_eq_true, List.isPrefixOf_iff_prefix] at inside
                exact .inl inside.1
              · have kept : (tree.erase (below top)).get location = tree.get location := by
                  rw [Tree.get_erase tree _ location notRoot, if_neg inside]
                dsimp only at gone
                split at gone
                next removed isRemoved =>
                  rcases removeDir_eq_ok.mp isRemoved with ⟨last, _, resolved', _, isDir, _, rfl⟩
                  rw [Tree.get_erase _ _ location notRoot] at gone
                  split at gone
                  next same =>
                    rw [of_decide_eq_true same]
                    refine .inr (resolve_extends Tree.erase_extends resolved' ?_)
                    rw [isDir]
                    exact Option.some_ne_none _
                  next => exact absurd (kept.symm.trans gone) present
                next => exact absurd (kept.symm.trans gone) present
                next => exact absurd (kept.symm.trans gone) present

theorem perform_entry {location : Location Name}
    (changes : (perform cwd request tree).2.get location ≠ tree.get location) :
    Rewrites cwd tree request location
      ((perform cwd request tree).2.get location) := by
  cases request with
  | metadata path => exact absurd rfl changes
  | symlinkMetadata path => exact absurd rfl changes
  | read path => exact absurd rfl changes
  | readDir path => exact absurd rfl changes
  | setPermissions path => exact absurd rfl changes
  | createDir path =>
      rw [perform] at changes ⊢
      cases created : createDir cwd tree path with
      | error error =>
          rw [created] at changes
          exact absurd rfl changes
      | ok tree' =>
          rw [created] at changes
          rcases createDir_eq_ok.mp created with ⟨created, resolved, absent, rfl⟩
          rcases Tree.set_entry (notRoot_of_absent absent) changes with ⟨rfl, entry⟩
          exact ⟨resolved, absent, entry⟩
  | write path written =>
      rw [perform] at changes ⊢
      cases wrote : writeFile cwd tree path written with
      | error error =>
          rw [wrote] at changes
          exact absurd rfl changes
      | ok tree' =>
          rw [wrote] at changes
          rcases writeFile_eq_ok.mp wrote with ⟨target, resolved, ⟨absent, rfl⟩ | ⟨_, _, rfl⟩⟩
          · rcases Tree.create_entry (notRoot_of_absent absent) changes with ⟨rfl, entry⟩
            exact ⟨resolved, absent, entry⟩
          · exact absurd rfl changes
  | removeFile path =>
      rw [perform] at changes ⊢
      cases removed : removeFile cwd tree path with
      | error error =>
          rw [removed] at changes
          exact absurd rfl changes
      | ok tree' =>
          rw [removed] at changes
          rcases removeFile_eq_ok.mp removed with ⟨target, resolved, _, notDir, rfl⟩
          rcases Tree.erase_entry changes with ⟨same, _, gone⟩
          cases of_decide_eq_true same
          exact ⟨resolved, notDir, gone⟩
  | removeDirAll path =>
      cases found : (perform cwd (.removeDirAll path) tree).2.get location with
      | none =>
          rw [found] at changes
          exact ⟨⟨changes.symm, found⟩, rfl⟩
      | some node =>
          rw [found, removeDirAll_extends location node found] at changes
          exact absurd rfl changes
  | symlink original link =>
      rw [perform] at changes ⊢
      cases linked : symlink cwd tree original link with
      | error error =>
          rw [linked] at changes
          exact absurd rfl changes
      | ok tree' =>
          rw [linked] at changes
          rcases symlink_eq_ok.mp linked with ⟨target, resolved, absent, rfl⟩
          rcases Tree.set_entry (notRoot_of_absent absent) changes with ⟨rfl, entry⟩
          exact ⟨resolved, absent, entry⟩
  | hardLink original link =>
      rw [perform] at changes ⊢
      cases linked : hardLink cwd tree original link with
      | error error =>
          rw [linked] at changes
          exact absurd rfl changes
      | ok tree' =>
          rw [linked] at changes
          rcases hardLink_eq_ok.mp linked with
            ⟨source, target, node, isSource, resolved, found, notDir, absent, rfl⟩
          rcases Tree.set_entry (notRoot_of_absent absent) changes with ⟨rfl, entry⟩
          refine ⟨resolved, absent, source, isSource, found.trans entry.symm, ?_⟩
          intro isDir
          rw [changed, entry] at isDir
          cases isDir
          exact notDir rfl
  | rename source target =>
      rw [perform] at changes ⊢
      cases renamed : rename cwd tree source target with
      | error error =>
          rw [renamed] at changes
          exact absurd rfl changes
      | ok tree' =>
          rw [renamed] at changes
          rcases rename_eq_ok.mp renamed with
            ⟨old, new, node, resolved, resolved', found, notDir, replaceable, rfl⟩
          rw [changed] at changes ⊢
          dsimp only at changes ⊢
          split at changes
          · exact absurd rfl changes
          next different =>
            rw [if_neg different]
            have notRoot : new ≠ [] := by
              rintro rfl
              exact replaceable rfl
            rw [Tree.get_set _ _ _ _ notRoot] at changes ⊢
            by_cases atNew : location = new
            · subst atNew
              refine ⟨replaceable, old, location, resolved, resolved', .inr ⟨rfl, ?_, ?_⟩⟩
              · rw [if_pos rfl, found]
              · rw [if_pos rfl]
                intro isDir
                cases isDir
                exact notDir rfl
            · rw [if_neg atNew] at changes ⊢
              rcases Tree.erase_entry changes with ⟨same, _, gone⟩
              cases of_decide_eq_true same
              refine ⟨?_, location, new, resolved, resolved', .inl ⟨rfl, gone⟩⟩
              rw [found]
              intro isDir
              cases isDir
              exact notDir rfl

theorem interrupted_entry {location : Location Name}
    (interrupted : Interrupted cwd tree request tree')
    (changes : tree'.get location ≠ tree.get location) :
    Rewrites cwd tree request location (tree'.get location) := by
  cases interrupted with
  | untouched => exact absurd rfl changes
  | created resolved absent partly =>
      rcases Tree.create_entry (notRoot_of_absent absent) changes with ⟨rfl, entry⟩
      exact ⟨resolved, absent, entry⟩
  | overwritten resolved isFile partly => exact absurd rfl changes
  | emptied resolved isDir gone inside =>
      rcases Tree.erase_entry changes with ⟨isGone, present, absent⟩
      exact ⟨⟨present, removeDirAll_below resolved isDir (inside location isGone)⟩, absent⟩

/-- An entry that is different behind a request has been changed by it. -/
theorem answers_entry {answer : Answer request}
    {location : Location Name} (answered : answers cwd request tree answer tree')
    (changes : tree'.get location ≠ tree.get location) :
    Rewrites cwd tree request location (tree'.get location) := by
  rcases answered with performed | ⟨_, interrupted⟩
  · have tree'_eq : (perform cwd request tree).2 = tree' := by rw [performed]
    rw [← tree'_eq] at changes ⊢
    exact perform_entry changes
  · exact interrupted_entry interrupted changes

omit [DecidableEq Name] in
theorem changed_contents {result : Except ErrorKind (Tree Name Content)}
    (same : ∀ tree', result = .ok tree' → tree'.contents = tree.contents) :
    (changed tree result).2.contents = tree.contents := by
  cases result with
  | error error => rfl
  | ok tree' => exact same tree' rfl

/-- Only a write changes what is in files. -/
theorem perform_contents (cwd : Location Name) (tree : Tree Name Content)
    (noWrite : ∀ path written, request ≠ .write path written) :
    (perform cwd request tree).2.contents = tree.contents := by
  cases request with
  | write path written => exact absurd rfl (noWrite path written)
  | metadata path => rfl
  | symlinkMetadata path => rfl
  | read path => rfl
  | readDir path => rfl
  | setPermissions path => rfl
  | removeDirAll path => exact removeDirAll_contents
  | createDir path =>
      refine changed_contents fun tree' created => ?_
      rcases createDir_eq_ok.mp created with ⟨_, _, _, rfl⟩
      rfl
  | removeFile path =>
      refine changed_contents fun tree' removed => ?_
      rcases removeFile_eq_ok.mp removed with ⟨_, _, _, _, rfl⟩
      rfl
  | symlink original link =>
      refine changed_contents fun tree' linked => ?_
      rcases symlink_eq_ok.mp linked with ⟨_, _, _, rfl⟩
      rfl
  | hardLink original link =>
      refine changed_contents fun tree' linked => ?_
      rcases hardLink_eq_ok.mp linked with ⟨_, _, _, _, _, _, _, _, rfl⟩
      rfl
  | rename source target =>
      refine changed_contents fun tree' renamed => ?_
      rcases rename_eq_ok.mp renamed with ⟨_, _, _, _, _, _, _, _, rfl⟩
      split <;> rfl

/-- A write to a path that leads to a file changes that file, and another write no file that is
there. -/
theorem answers_contents {answer : Answer request} {location : Location Name}
    (answered : answers cwd request tree answer tree')
    (isFile : tree.get location = some (.file inode))
    (changes : tree'.contents inode ≠ tree.contents inode) :
    ∃ path written target, request = .write path written ∧
      resolve cwd tree true path = .ok target ∧
      tree.get target = some (.file inode) := by
  have overwrites {other : Inode} {written : Content}
      (changes : (tree.setContents other written).contents inode ≠ tree.contents inode) :
      inode = other :=
    not_not.mp fun different => changes (Function.update_of_ne different _ _)
  rcases answered with performed | ⟨_, interrupted⟩
  · by_cases writes : ∃ path written, request = .write path written
    · rcases writes with ⟨path, written, rfl⟩
      rw [perform] at performed
      cases wrote : writeFile cwd tree path written with
      | error error =>
          rw [wrote] at performed
          cases performed
          exact absurd rfl changes
      | ok tree'' =>
          rw [wrote] at performed
          cases performed
          rcases writeFile_eq_ok.mp wrote with
            ⟨target, resolved, ⟨_, rfl⟩ | ⟨other, found, rfl⟩⟩
          · exact absurd (Tree.create_contents isFile) changes
          · cases overwrites changes
            exact ⟨path, written, target, rfl, resolved, found⟩
    · have same := perform_contents cwd tree
        fun path written isWrite => writes ⟨path, written, isWrite⟩
      rw [performed] at same
      exact absurd (congrFun same inode) changes
  · cases interrupted with
    | untouched => exact absurd rfl changes
    | created resolved absent partly => exact absurd (Tree.create_contents isFile) changes
    | overwritten resolved found partly =>
        cases overwrites changes
        exact ⟨_, _, _, rfl, resolved, found⟩
    | emptied resolved isDir gone inside => exact absurd rfl changes

theorem touches_of_rewrites {location : Location Name} {node : Option (Node Name)}
    (rewrites : Rewrites cwd tree request location node) :
    Touches cwd tree request location := by
  cases request with
  | metadata path => exact rewrites
  | symlinkMetadata path => exact rewrites
  | read path => exact rewrites
  | readDir path => exact rewrites
  | setPermissions path => exact rewrites
  | createDir path => exact ⟨rewrites.1, rewrites.2.1⟩
  | write path written => exact ⟨location, rewrites.1, .inl rfl⟩
  | removeFile path => exact rewrites.1
  | removeDirAll path => exact rewrites.1
  | symlink original link => exact rewrites.1
  | hardLink original link => exact rewrites.1
  | rename source target =>
      rcases rewrites with ⟨_, old, new, resolved, resolved', ⟨rfl, _⟩ | ⟨rfl, _⟩⟩
      · exact .inl resolved
      · exact .inr resolved'

/-- A request changes only what it may touch, also when it fails on the way. -/
theorem changesWithin_answers {answer : Answer request}
    (answered : answers cwd request tree answer tree') :
    tree.ChangesWithin (Touches cwd tree request) tree' := by
  intro location outside
  constructor
  · by_contra changes
    exact outside (touches_of_rewrites (answers_entry answered changes))
  · intro inode isFile
    by_contra changes
    rcases answers_contents answered isFile changes with ⟨path, written, target, rfl, resolved, same⟩
    exact outside ⟨target, resolved, .inr ⟨inode, same, isFile⟩⟩

end Changes

end Inference.FileSystem
