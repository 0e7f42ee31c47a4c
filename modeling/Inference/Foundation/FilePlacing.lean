import Inference.Foundation.FileKeeping

/-! # Placing files below a directory

Files and directories are put under lists of names below a directory, one after the other, each with
the directories on its way. As long as nothing is put on or below a file, every step succeeds, and
in the end exactly what has been put there is found there.
-/

namespace Inference.FileSystem

open Effects

variable {Name Content : Type} [DecidableEq Name] {cwd : Location Name}
  {tree tree' : Tree Name Content} {path : Path Name} {directory : Location Name}
  {names : List Name} {trailing : Bool}

namespace Path

omit [DecidableEq Name]

/-- The path of names below another path. -/
def below (path : Path Name) (names : List Name) (trailing : Bool) : Path Name :=
  path.join ⟨false, names.map .named, trailing⟩

theorem below_append (path : Path Name) (front : List Name) (name : Name) (trailing : Bool) :
    path.below (front ++ [name]) trailing =
      { (path.below front false).joinName name with trailing := trailing } := by
  simp [below, joinName, join, ofName]

theorem isEmpty_below (path : Path Name) {names : List Name} (some_ : names ≠ [])
    (trailing : Bool) : (path.below names trailing).isEmpty = false := by
  simp [below, join, isEmpty, some_]

/-- A path whose last component is a name is not trimmed. -/
theorem trim_named (absolute : Bool) (components : List (Component Name)) (name : Name) :
    trim absolute (components ++ [.named name]) = components ++ [.named name] := by
  have kept : (components ++ [Component.named name]).rdropWhile Component.isCurrent =
      components ++ [.named name] := by
    rw [List.rdropWhile_concat]
    rfl
  rw [trim.eq_def, kept]
  split
  next empty _ => exact absurd empty (by simp)
  next => rfl

theorem parent_below (path : Path Name) (front : List Name) (name : Name) (trailing : Bool) :
    (path.below (front ++ [name]) trailing).parent =
      some ⟨path.absolute, trim path.absolute (path.components ++ front.map .named), false⟩ := by
  have components : (path.below (front ++ [name]) trailing).components =
      path.components ++ front.map .named ++ [.named name] := by
    simp [below, join]
  have absolute : (path.below (front ++ [name]) trailing).absolute = path.absolute := by
    simp [below, join]
  rw [parent, components, absolute, trim_named]
  split
  next empty => exact absurd empty (by simp)
  next => rw [List.dropLast_concat]

/-- Only `.` is taken from the end. -/
theorem trim_currents (absolute : Bool) (components : List (Component Name)) :
    ∃ rest, components = trim absolute components ++ rest ∧
      ∀ component ∈ rest, component = .current := by
  have isCurrent {component : Component Name} (holds : component.isCurrent = true) :
      component = .current := by
    cases component with
    | current => rfl
    | parent => cases holds
    | named name => cases holds
  have dropped : components.rdropWhile Component.isCurrent ++
      components.rtakeWhile Component.isCurrent = components :=
    List.rdropWhile_append_rtakeWhile
  have taken : ∀ component ∈ components.rtakeWhile Component.isCurrent,
      component = .current := fun component member =>
    isCurrent (List.mem_rtakeWhile_imp member)
  rw [trim.eq_def]
  split
  next rest empty =>
    rw [empty, List.nil_append] at dropped
    rw [dropped] at taken
    split
    · exact ⟨_, rfl, taken⟩
    · exact ⟨rest, rfl, fun component member => taken component (List.mem_cons_of_mem _ member)⟩
  next => exact ⟨_, dropped.symm, taken⟩

end Path

/-! ## Directories on the way -/

theorem Reaches.trim (reaches : Reaches cwd tree path directory) :
    Reaches cwd tree
      ⟨path.absolute, Path.trim path.absolute path.components, false⟩ directory := by
  rcases Path.trim_currents path.absolute path.components with ⟨rest, split, currents⟩
  have walked := reaches.walked
  rw [split] at walked
  by_cases more : rest = []
  · rw [more, List.append_nil] at walked
    exact ⟨reaches.start, walked, reaches.rooted⟩
  · rcases walk_front reaches.start more walked with ⟨directory', front, rooted⟩
    rcases walk_append front rooted.dir with ⟨left, _, later⟩
    have stays (links : Nat) : ∀ components : List (Component Name),
        (∀ component ∈ components, component = .current) →
          walk tree true links directory' components = .ok directory' := by
      intro components all
      induction components with
      | nil => rw [walk_nil]
      | cons component components induction =>
          rw [all component List.mem_cons_self, walk_current]
          exact induction fun other member => all other (List.mem_cons_of_mem _ member)
    have same := (later 0 true rest more).symm.trans walked
    rw [stays _ rest currents] at same
    cases same
    exact ⟨reaches.start, front, rooted⟩

/-- Names that stand for directories one in the other. -/
theorem Reaches.below (reaches : Reaches cwd tree path directory)
    (areDirs : ∀ above, above <+: names → tree.get (directory ++ above) = some .dir) :
    Reaches cwd tree (path.below names trailing) (directory ++ names) := by
  induction names using List.reverseRecOn generalizing trailing with
  | nil =>
      rw [List.append_nil]
      exact reaches.ofComponents (by simp [Path.below, Path.join]) (by simp [Path.below, Path.join])
  | append_singleton front name induction =>
      have isDir := areDirs (front ++ [name]) (List.prefix_refl _)
      rw [← List.append_assoc] at isDir ⊢
      have reaches' : Reaches cwd tree (path.below front false) (directory ++ front) :=
        induction fun above isAbove => areDirs above (isAbove.trans (List.prefix_append _ _))
      rw [Path.below_append]
      exact (reaches'.joinName isDir).ofComponents rfl rfl

variable {front : List Name} {name : Name}

/-- Behind a missing directory nothing is found. -/
theorem Reaches.resolve_behind_missing (reaches : Reaches cwd tree path directory)
    (free : ∀ above, above <+: front → tree.get (directory ++ above) = none ∨
      tree.get (directory ++ above) = some .dir)
    (missing : tree.get (directory ++ front) = none) (follow : Bool) :
    resolve cwd tree follow (path.below (front ++ [name]) false) =
      .error .notFound := by
  have inside (links : Nat) : ∀ (behind : List Name) (done : List Name),
      done ++ behind = front → tree.get (directory ++ done) = some .dir →
        walk tree follow links (directory ++ done) (behind.map .named ++ [.named name]) =
          .error .notFound := by
    intro behind
    induction behind with
    | nil =>
        intro done split isDir
        rw [List.append_nil] at split
        subst split
        rw [missing] at isDir
        cases isDir
    | cons next behind induction =>
        intro done split isDir
        have isAbove : done ++ [next] <+: front := ⟨behind, by simp [← split]⟩
        rw [List.map_cons, List.cons_append]
        rcases free _ isAbove with absent | isDir'
        · rw [← List.append_assoc] at absent
          rw [walk_named_none absent, if_neg (by simp)]
        · have isDir'' := isDir'
          rw [← List.append_assoc] at isDir'
          rw [walk_named_dir isDir', List.append_assoc]
          exact induction (done ++ [next]) (by simp [← split]) isDir''
  rcases walk_append reaches.walked reaches.rooted.dir with ⟨left, _, later⟩
  have lookedUp : (path.below (front ++ [name]) false).lookedUp =
      path.components ++ (front.map .named ++ [.named name]) := by
    simp [Path.below, Path.join, Path.lookedUp]
  have start : (path.below (front ++ [name]) false).start cwd =
      path.start cwd := by
    simp [Path.below, Path.join, Path.start]
  rw [resolve_eq_walk _ (Path.isEmpty_below path (by simp) false)
    (by rw [start]; exact reaches.start), lookedUp, start]
  refine (later 0 follow _ (by simp)).trans ?_
  have walked := inside (left + 0) front [] rfl (by simpa using reaches.rooted.dir)
  rw [List.append_nil] at walked
  exact walked

/-- What making directories adds. -/
structure MakesDirs (directory : Location Name) (names : List Name)
    (tree tree' : Tree Name Content) : Prop where
  grows : tree.Grows tree'
  areDirs : ∀ above, above <+: names → tree'.get (directory ++ above) = some .dir
  only : ∀ location, tree'.get location ≠ none →
    tree.get location ≠ none ∨ ∃ above, above <+: names ∧ location = directory ++ above

/-- Names that are missing, or stand for directories with all above them. -/
def IsFree (directory : Location Name) (names : List Name) (tree : Tree Name Content) : Prop :=
  ∀ above, above <+: names → tree.get (directory ++ above) = none ∨
    ∀ higher, higher <+: above → tree.get (directory ++ higher) = some .dir

theorem MakesDirs.refl (areDirs : ∀ above, above <+: names →
    tree.get (directory ++ above) = some .dir) : MakesDirs directory names tree tree :=
  ⟨.refl tree, areDirs, fun _ present => .inl present⟩

/-- A missing name in a directory. -/
theorem makesDirs_set
    (areDirs : ∀ above, above <+: front → tree.get (directory ++ above) = some .dir)
    (absent : tree.get (directory ++ (front ++ [name])) = none) :
    MakesDirs directory (front ++ [name]) tree (tree.set (directory ++ (front ++ [name])) .dir) := by
  have notRoot := notRoot_of_absent absent
  refine ⟨Tree.grows_set absent, ?_, ?_⟩
  · intro above isAbove
    rw [Tree.get_set _ _ _ _ notRoot]
    rcases List.prefix_concat_iff.mp isAbove with rfl | inFront
    · rw [if_pos rfl]
    · split
      · rfl
      · exact areDirs above inFront
  · intro location present
    rw [Tree.get_set _ _ _ _ notRoot] at present
    split at present
    next same => exact .inr ⟨_, List.prefix_refl _, same⟩
    next => exact .inl present

theorem MakesDirs.trans {tree'' : Tree Name Content} {front : List Name} {name : Name}
    (first : MakesDirs directory front tree tree')
    (second : MakesDirs directory (front ++ [name]) tree' tree'') :
    MakesDirs directory (front ++ [name]) tree tree'' := by
  refine ⟨first.grows.trans second.grows, second.areDirs, fun location present => ?_⟩
  rcases second.only location present with present | isAbove
  · rcases first.only location present with present | ⟨above, inFront, same⟩
    · exact .inl present
    · exact .inr ⟨above, inFront.trans (List.prefix_append _ _), same⟩
  · exact .inr isAbove

/-- An attempt in a directory that is there makes its directory or finds it. -/
theorem createDir_below (reaches : Reaches cwd tree path directory)
    (trailing : Bool)
    (areDirs : ∀ above, above <+: front → tree.get (directory ++ above) = some .dir)
    (free : IsFree directory (front ++ [name]) tree) :
    createDir cwd tree (path.below (front ++ [name]) trailing) =
        .ok (tree.set (directory ++ (front ++ [name])) .dir) ∧
      tree.get (directory ++ (front ++ [name])) = none ∨
    createDir cwd tree (path.below (front ++ [name]) trailing) =
        .error .alreadyExists ∧
      metadata cwd tree true (path.below (front ++ [name]) trailing) = .ok .dir ∧
      ∀ above, above <+: front ++ [name] → tree.get (directory ++ above) = some .dir := by
  rcases free _ (List.prefix_refl _) with absent | areDirs'
  · refine .inl ⟨createDir_eq_ok.mpr ⟨_, ?_, absent, rfl⟩, absent⟩
    have inFront : Reaches cwd tree (path.below front false) (directory ++ front) :=
      reaches.below areDirs
    rw [Path.below_append]
    have resolved := inFront.resolve_joinName name
    rw [List.append_assoc] at resolved
    exact resolved
  · have reached : Reaches cwd tree (path.below (front ++ [name]) trailing)
        (directory ++ (front ++ [name])) := reaches.below areDirs'
    have notEmpty := Path.isEmpty_below path (by simp : front ++ [name] ≠ []) trailing
    exact .inr ⟨reached.createDir_fails notEmpty, reached.metadata_dir notEmpty, areDirs'⟩

/-- The attempt succeeds, or finds the directory. -/
theorem runs_attempt (reaches : Reaches cwd tree path directory)
    (trailing : Bool)
    (areDirs : ∀ above, above <+: front → tree.get (directory ++ above) = some .dir)
    (free : IsFree directory (front ++ [name]) tree) :
    ∃ answer tree', Runs cwd tree
        (ask (.createDir (path.below (front ++ [name]) trailing))) answer tree' ∧
      MakesDirs directory (front ++ [name]) tree tree' ∧
      (answer = .ok () ∨ answer = .error .alreadyExists ∧
        metadata cwd tree' true (path.below (front ++ [name]) trailing) =
          .ok .dir) := by
  have ran : Runs cwd tree
      (ask (.createDir (path.below (front ++ [name]) trailing))) _ _ := runs_ask _
  rcases createDir_below reaches trailing areDirs free with
    ⟨created, absent⟩ | ⟨exists_, isDir, areDirs'⟩
  · rw [perform, created] at ran
    exact ⟨_, _, ran, makesDirs_set areDirs absent, .inl rfl⟩
  · rw [perform, exists_] at ran
    exact ⟨_, _, ran, .refl areDirs', .inr ⟨rfl, isDir⟩⟩

theorem runs_dirOrError (isDir : metadata cwd tree true path = .ok .dir)
    (cause : ErrorKind) :
    Runs cwd tree (do
      if ← isKind .dir path then return Except.ok ()
      else return .error cause) (.ok ()) tree := by
  refine (runs_isKind .dir path).bind ?_
  rw [decide_eq_true isDir]
  exact runs_pure _

/-- Directories are made one in the other. -/
theorem runs_createDirAllFrom_below (reaches : Reaches cwd tree path directory)
    (fuel : Nat) (some_ : names ≠ []) (enough : names.length ≤ fuel)
    (free : IsFree directory names tree) :
    ∃ tree', Runs cwd tree (createDirAllFrom fuel (path.below names trailing))
      (.ok ()) tree' ∧ MakesDirs directory names tree tree' := by
  induction names using List.reverseRecOn generalizing fuel trailing with
  | nil => exact absurd rfl some_
  | append_singleton front name induction =>
      have notEmpty := Path.isEmpty_below path some_ trailing
      cases fuel with
      | zero => simp at enough
      | succ fuel =>
          rw [createDirAllFrom, notEmpty]
          rcases free front (List.prefix_append _ _) with missing | areDirs
          · have more : front ≠ [] := by
              rintro rfl
              rw [List.append_nil, reaches.rooted.dir] at missing
              cases missing
            have freeFront : IsFree directory front tree := fun above isAbove =>
              free above (isAbove.trans (List.prefix_append _ _))
            have isParent : (path.below (front ++ [name]) trailing).parent =
                some (path.below front false) := by
              rcases List.eq_nil_or_concat front with empty | ⟨start, last, rfl⟩
              · exact absurd empty more
              · rw [Path.parent_below, List.concat_eq_append, List.map_append, List.map_singleton,
                  ← List.append_assoc, Path.trim_named]
                simp [Path.below, Path.join]
            have length : front.length ≤ fuel := by
              rw [List.length_append, List.length_singleton] at enough
              omega
            have asked : Runs cwd tree
                (ask (.createDir (path.below (front ++ [name]) trailing))) (.error .notFound)
                tree := by
              have resolved : resolve cwd tree false
                  (path.below (front ++ [name]) false) = .error .notFound :=
                reaches.resolve_behind_missing (fun above isAbove =>
                  (freeFront above isAbove).imp_right fun areDirs =>
                    areDirs above (List.prefix_refl _)) missing false
              have untrailed : { path.below (front ++ [name]) trailing with trailing := false } =
                  path.below (front ++ [name]) false := by
                simp [Path.below, Path.join]
              change changed tree (createDir cwd tree _) = _
              rw [createDir, untrailed, resolved]
              rfl
            rcases induction fuel more length freeFront with ⟨tree', made, makes⟩
            have freeBehind : IsFree directory (front ++ [name]) tree' := by
              intro above isAbove
              rcases List.prefix_concat_iff.mp isAbove with rfl | inFront
              · cases present : tree'.get (directory ++ (front ++ [name])) with
                | none => exact .inl rfl
                | some node =>
                    rcases makes.only _ (by rw [present]; exact Option.some_ne_none _) with
                      before | ⟨above, inFront, same⟩
                    · rcases free _ (List.prefix_refl _) with absent | areDirs
                      · exact absurd absent before
                      · have isDir := areDirs front (List.prefix_append _ _)
                        rw [missing] at isDir
                        cases isDir
                    · rw [← List.append_cancel_left same] at inFront
                      have shorter := inFront.length_le
                      rw [List.length_append, List.length_singleton] at shorter
                      omega
              · exact .inr fun higher isHigher => makes.areDirs higher (isHigher.trans inFront)
            rcases runs_attempt (reaches.extends makes.grows.kept) trailing makes.areDirs freeBehind
              with ⟨answer, tree'', ran, makes', succeeded⟩
            refine ⟨tree'', asked.bind ?_, makes.trans makes'⟩
            rw [isParent]
            refine made.bind ?_
            rcases succeeded with rfl | ⟨rfl, isDir⟩
            · exact ran.bind (runs_pure _)
            · exact ran.bind (runs_dirOrError isDir _)
          · rcases runs_attempt reaches trailing areDirs free with
              ⟨answer, tree', ran, makes, rfl | ⟨rfl, isDir⟩⟩
            · exact ⟨tree', ran.bind (runs_pure _), makes⟩
            · exact ⟨tree', ran.bind (runs_dirOrError isDir _), makes⟩

theorem runs_createDirAll_below (reaches : Reaches cwd tree path directory)
    (trailing : Bool) (some_ : names ≠ []) (free : IsFree directory names tree) :
    ∃ tree', Runs cwd tree (createDirAll (path.below names trailing)) (.ok ()) tree' ∧
      MakesDirs directory names tree tree' := by
  refine runs_createDirAllFrom_below reaches _ some_ ?_ free
  simp only [Path.below, Path.join, Bool.false_eq_true, if_false, List.length_append,
    List.length_map]
  omega

/-! ## What has been put below a directory -/

/-- The entries below a directory: files with their contents, directories without one, and those on
the way to them. -/
structure Laid (directory : Location Name) (placed : List (List Name × Option Content))
    (tree : Tree Name Content) : Prop where
  files : ∀ names content, (names, some content) ∈ placed →
    ∃ inode, tree.get (directory ++ names) = some (.file inode) ∧ tree.contents inode = content
  dirs : ∀ entry ∈ placed, ∀ above, above <+: entry.1 → above ≠ entry.1 ∨ entry.2 = none →
    tree.get (directory ++ above) = some .dir
  only : ∀ names, tree.get (directory ++ names) ≠ none →
    names = [] ∨ ∃ entry ∈ placed, names <+: entry.1

/-- An entry that is not put on or below a file, and no file above another entry. -/
def Fits (entry : List Name × Option Content) (placed : List (List Name × Option Content)) : Prop :=
  ∀ other ∈ placed, (other.2 ≠ none → ¬ other.1 <+: entry.1) ∧
    (entry.2 ≠ none → ¬ entry.1 <+: other.1)

variable {placed : List (List Name × Option Content)} {content : Content}

theorem laid_nil (empty : ∀ names, names ≠ [] → tree.get (directory ++ names) = none) :
    Laid directory [] tree := by
  refine ⟨?_, ?_, ?_⟩
  · intro names content member
    cases member
  · intro entry member
    cases member
  · intro names present
    by_contra isSome
    exact present (empty names fun same => isSome (.inl same))

/-- The way to an entry that fits is free. -/
theorem Laid.isFree (laid : Laid directory placed tree) (isDir : tree.get directory = some .dir)
    {entry : List Name × Option Content} (fits : Fits entry placed) {way : List Name}
    (onWay : way <+: entry.1) : IsFree directory way tree := by
  intro above isAbove
  cases present : tree.get (directory ++ above) with
  | none => exact .inl rfl
  | some node =>
      right
      intro higher isHigher
      rcases laid.only above (by rw [present]; exact Option.some_ne_none _) with
        rfl | ⟨other, member, inOther⟩
      · rw [List.prefix_nil.mp isHigher, List.append_nil]
        exact isDir
      · refine laid.dirs other member higher (isHigher.trans inOther) ?_
        by_contra isFile
        rw [not_or, not_not] at isFile
        refine (fits other member).1 isFile.2 ?_
        rw [← isFile.1]
        exact isHigher.trans (isAbove.trans onWay)

/-- Directories that are made. -/
theorem Laid.makesDirs (laid : Laid directory placed tree) (makes : MakesDirs directory names tree tree')
    {entry : List Name × Option Content} (onWay : names <+: entry.1)
    (covers : ∀ above, above <+: entry.1 → above ≠ entry.1 ∨ entry.2 = none → above <+: names)
    (isDirectory : entry.2 = none) :
    Laid directory (placed ++ [entry]) tree' := by
  constructor
  · intro names content member
    rcases List.mem_append.mp member with member | member
    · rcases laid.files names content member with ⟨inode, isFile, same⟩
      exact ⟨inode, makes.grows.kept _ _ isFile, by rw [makes.grows.contents]; exact same⟩
    · rw [List.mem_singleton] at member
      subst member
      cases isDirectory
  · intro other member above isAbove way
    rcases List.mem_append.mp member with member | member
    · exact makes.grows.kept _ _ (laid.dirs other member above isAbove way)
    · rw [List.mem_singleton] at member
      subst member
      exact makes.areDirs above (covers above isAbove way)
  · intro names present
    rcases makes.only _ present with before | ⟨above, isAbove, same⟩
    · rcases laid.only names before with root | ⟨other, member, inOther⟩
      · exact .inl root
      · exact .inr ⟨other, List.mem_append_left _ member, inOther⟩
    · rw [List.append_cancel_left same]
      exact .inr ⟨entry, List.mem_append_right _ List.mem_cons_self, isAbove.trans onWay⟩

/-- A directory that is put there. -/
theorem Laid.putDirectory (laid : Laid directory placed tree)
    (makes : MakesDirs directory names tree tree') :
    Laid directory (placed ++ [(names, none)]) tree' :=
  laid.makesDirs makes (List.prefix_refl _) (fun _ isAbove _ => isAbove) rfl

/-- A file that is put into a directory on the way to it. -/
theorem Laid.putFile (laid : Laid directory placed tree)
    (makes : MakesDirs directory front tree tree') (fits : Fits (front ++ [name], some content) placed) :
    tree'.get (directory ++ (front ++ [name])) = none ∧
      Laid directory (placed ++ [(front ++ [name], some content)])
        (tree'.create (directory ++ (front ++ [name])) content) := by
  have absent : tree'.get (directory ++ (front ++ [name])) = none := by
    by_contra present
    rcases makes.only _ present with before | ⟨above, isAbove, same⟩
    · rcases laid.only _ before with root | ⟨other, member, inOther⟩
      · simp at root
      · exact (fits other member).2 (Option.some_ne_none _) inOther
    · rw [← List.append_cancel_left same] at isAbove
      have shorter := isAbove.length_le
      rw [List.length_append, List.length_singleton] at shorter
      omega
  have notRoot := notRoot_of_absent absent
  have kept {location : Location Name} {node : Node Name}
      (found : tree'.get location = some node) :
      (tree'.create (directory ++ (front ++ [name])) content).get location = some node :=
    Tree.create_extends absent _ _ found
  refine ⟨absent, ?_, ?_, ?_⟩
  · intro names other member
    rcases List.mem_append.mp member with member | member
    · rcases laid.files names other member with ⟨inode, isFile, same⟩
      have isFile' := makes.grows.kept _ _ isFile
      refine ⟨inode, kept isFile', ?_⟩
      rw [Tree.create_contents isFile', makes.grows.contents]
      exact same
    · rw [List.mem_singleton] at member
      cases member
      refine ⟨tree'.freshInode, ?_, ?_⟩
      · rw [Tree.get_create _ _ _ _ notRoot, if_pos rfl]
      · exact Function.update_self _ _ _
  · intro other member above isAbove way
    rcases List.mem_append.mp member with member | member
    · exact kept (makes.grows.kept _ _ (laid.dirs other member above isAbove way))
    · rw [List.mem_singleton] at member
      subst member
      have inFront : above <+: front := by
        rcases List.prefix_concat_iff.mp isAbove with same | inFront
        · exact absurd same (way.resolve_right (Option.some_ne_none _))
        · exact inFront
      exact kept (makes.areDirs above inFront)
  · intro names present
    rw [Tree.get_create _ _ _ _ notRoot] at present
    split at present
    next same =>
      rw [List.append_cancel_left same]
      exact .inr ⟨_, List.mem_append_right _ List.mem_cons_self, List.prefix_refl _⟩
    next =>
      rcases makes.only _ present with before | ⟨above, isAbove, same⟩
      · rcases laid.only names before with root | ⟨other, member, inOther⟩
        · exact .inl root
        · exact .inr ⟨other, List.mem_append_left _ member, inOther⟩
      · rw [List.append_cancel_left same]
        exact .inr ⟨_, List.mem_append_right _ List.mem_cons_self,
          isAbove.trans (List.prefix_append _ _)⟩

/-! ## Putting entries there -/

/-- Making directories changes no file. -/
theorem readFile_grows (grows : tree.Grows tree')
    (read : readFile cwd tree path = .ok content) :
    readFile cwd tree' path = .ok content := by
  rcases readFile_eq_ok.mp read with ⟨location, inode, resolved, isFile, same⟩
  refine readFile_eq_ok.mpr ⟨location, inode, resolve_extends grows.kept resolved ?_,
    grows.kept _ _ isFile, by rw [grows.contents]; exact same⟩
  rw [isFile]
  exact Option.some_ne_none _

theorem Laid.runs_putDirectory (laid : Laid directory placed tree)
    (reaches : Reaches cwd tree path directory) (fits : Fits (names, none) placed)
    (trailing : Bool) (some_ : names ≠ []) :
    ∃ tree', Runs cwd tree (createDirAll (path.below names trailing)) (.ok ()) tree' ∧
      tree.Extends tree' ∧ Laid directory (placed ++ [(names, none)]) tree' := by
  rcases runs_createDirAll_below reaches trailing some_
    (laid.isFree reaches.rooted.dir fits (List.prefix_refl _)) with ⟨tree', ran, makes⟩
  exact ⟨tree', ran, makes.grows.kept, laid.putDirectory makes⟩

/-- Once the directory of a file is made, the file can be created. -/
theorem Laid.runs_makeParent (laid : Laid directory placed tree)
    (reaches : Reaches cwd tree path directory)
    (fits : Fits (front ++ [name], some content) placed) :
    ∃ parent tree', (path.below (front ++ [name]) false).parent = some parent ∧
      Runs cwd tree (createDirAll parent) (.ok ()) tree' ∧ tree.Extends tree' ∧
      (∀ follow, resolve cwd tree' follow (path.below (front ++ [name]) false) =
        .ok (directory ++ (front ++ [name]))) ∧
      tree'.get (directory ++ (front ++ [name])) = none ∧
      Laid directory (placed ++ [(front ++ [name], some content)])
        (tree'.create (directory ++ (front ++ [name])) content) := by
  have makesParent : ∃ tree', Runs cwd tree
      (createDirAll (⟨path.absolute, Path.trim path.absolute
        (path.components ++ front.map .named), false⟩ : Path Name)) (.ok ()) tree' ∧
      MakesDirs directory front tree tree' := by
    rcases List.eq_nil_or_concat front with rfl | ⟨start, last, rfl⟩
    · rw [List.map_nil, List.append_nil]
      refine ⟨tree, runs_createDirAll reaches.trim, .refl ?_⟩
      intro above isAbove
      rw [List.prefix_nil.mp isAbove, List.append_nil]
      exact reaches.rooted.dir
    · have isBelow : (⟨path.absolute, Path.trim path.absolute
          (path.components ++ (start.concat last).map .named), false⟩ : Path Name) =
          path.below (start.concat last) false := by
        rw [List.concat_eq_append, List.map_append, List.map_singleton, ← List.append_assoc,
          Path.trim_named]
        simp [Path.below, Path.join]
      rw [isBelow]
      exact runs_createDirAll_below reaches false (by simp)
        (laid.isFree reaches.rooted.dir fits (List.prefix_append _ _))
  rcases makesParent with ⟨tree', ran, makes⟩
  rcases laid.putFile makes fits with ⟨absent, laid'⟩
  refine ⟨_, tree', Path.parent_below path front name false, ran, makes.grows.kept, ?_, absent,
    laid'⟩
  have inFront : Reaches cwd tree' (path.below front false) (directory ++ front) :=
    (reaches.extends makes.grows.kept).below makes.areDirs
  have isJoined : path.below (front ++ [name]) false = (path.below front false).joinName name := by
    rw [Path.below_append]
    simp [Path.joinName, Path.join, Path.ofName]
  rw [← List.append_assoc] at absent ⊢
  intro follow
  rw [isJoined]
  cases follow with
  | false => exact inFront.resolve_joinName name
  | true => exact inFront.resolve_missing absent

/-- The names right below the directory are the first names of what has been put there. -/
theorem Laid.children (laid : Laid directory placed tree) {name : Name} :
    name ∈ tree.children directory ↔ ∃ entry ∈ placed, entry.1.head? = some name := by
  rw [Tree.mem_children]
  constructor
  · intro present
    rcases laid.only [name] present with none_ | ⟨entry, member, rest, isFirst⟩
    · cases none_
    · exact ⟨entry, member, by rw [← isFirst, List.cons_append, List.head?_cons]⟩
  · rintro ⟨⟨names, content⟩, member, first⟩
    cases names with
    | nil => cases first
    | cons head names =>
        cases first
        rcases content with _ | content
        · rw [laid.dirs _ member [name] ⟨names, rfl⟩ (.inr rfl)]
          exact Option.some_ne_none _
        · cases names with
          | nil =>
              rcases laid.files _ _ member with ⟨inode, isFile, _⟩
              rw [isFile]
              exact Option.some_ne_none _
          | cons next names =>
              rw [laid.dirs _ member [name] ⟨next :: names, rfl⟩ (.inl (by simp))]
              exact Option.some_ne_none _

end Inference.FileSystem
