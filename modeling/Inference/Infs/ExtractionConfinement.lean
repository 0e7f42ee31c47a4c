import Inference.Infs.Archive
import Inference.Infs.ToolchainRuns

/-! # Where an extraction writes

Only the name of each entry is checked, while links that earlier entries have made are followed. As
long as no entry is put on or behind a link, every step of an extraction stays in the destination
directory, apart from creating that directory and those on the way to it.
-/

namespace Inference.Infs

open Effects FileSystem

section Bounds

variable (cwd : Location OsName) (destDir : Path OsName)
  (tree : Tree OsName FileContent)

/-- The destination, when it is created, and missing directories above it. -/
def OnTheWay (location : Location OsName) : Prop :=
  ∃ above : Path OsName, above.IsAbove destDir ∧
    Touches cwd tree (.createDir above) location

/-- In the directory, or another name of a file in it. -/
def IsInside (directory location : Location OsName) : Prop :=
  directory <+: location ∨ ∃ inode other, directory <+: other ∧
    tree.get other = some (.file inode) ∧ tree.get location = some (.file inode)

/-- What an extraction may change. -/
def MayExtract (location : Location OsName) : Prop :=
  OnTheWay cwd destDir tree location ∨
    ∃ directory, Reaches cwd tree destDir directory ∧ IsInside tree directory location

/-- A step that stays in the destination. -/
def StaysInside (before after : Tree OsName FileContent) : Prop :=
  before.ChangesWithin (MayExtract cwd destDir before) after

/-- Where there are links in a directory. -/
def LinkAt (directory : Location OsName) (names : List OsName) : Prop :=
  ∃ target, tree.get (directory ++ names) = some (.link target)

/-- The destination is where it is whatever files and links there are in it. -/
def IsStanding (directory : Location OsName) : Prop :=
  Reaches cwd
    (tree.erase fun location => below directory location && tree.get location ≠ some .dir) destDir
    directory

end Bounds

/-- Components that lead over no link. The last one counts when it is followed. -/
def PassesNoLink (links : List OsName → Prop) (follow : Bool) :
    List OsName → List (Component OsName) → Prop
  | _, [] => True
  | front, .current :: rest => PassesNoLink links follow front rest
  | _, .parent :: _ => False
  | front, .named name :: rest =>
      (rest ≠ [] ∨ follow = true → ¬ links (front ++ [name])) ∧
        PassesNoLink links follow (front ++ [name]) rest

/-- The requests that make a link at a path. -/
def IsLinking (path : Path OsName) : Request OsName FileContent → Prop
  | .removeFile other | .symlink _ other | .hardLink _ other => other = path
  | _ => False

/-- Entries are unpacked at the path they are given: a file by writing to what the path leads to, a
link under the path itself. -/
structure UnpacksInPlace (cwd : Location OsName) (readers : ArchiveReaders) :
    Prop where
  regular : ∀ entry path tree, entry.entryType.isLink = false →
    Guaranteed (answers cwd) (fun before after => before = after ∨
        ∃ content answer, answers cwd (.write path content) before answer after)
      (readers.unpack entry path) tree fun _ _ => True
  link : ∀ entry path tree, entry.entryType.isLink = true →
    Guaranteed (answers cwd) (fun before after => before = after ∨
        ∃ request answer, IsLinking path request ∧
          answers cwd request before answer after)
      (readers.unpack entry path) tree fun _ _ => True

/-- The names among components. -/
def namesOf (components : List (Component OsName)) : List OsName :=
  components.filterMap fun component =>
    match component with
    | .named name => some name
    | _ => none

/-- Whether the entry is written to what its path leads to. -/
def EntryType.follows : EntryType → Bool
  | .regular _ => true
  | _ => false

/-- The components that are looked up to put an entry in its place. -/
def EntryType.lookedUp (entryType : EntryType) (relative : Path OsName) :
    List (Component OsName) :=
  match entryType with
  | .directory => relative.components
  | _ => relative.lookedUp

/-- The links there are when an entry has been unpacked. -/
def EntryType.linked (entryType : EntryType) (relative : Path OsName)
    (links : List OsName → Prop) (names : List OsName) : Prop :=
  links names ∨ entryType.isLink = true ∧ names = namesOf relative.components

/-- No entry is put on or behind a link. -/
def FollowsNoLink (root : Option (Path OsName)) :
    List (Option TarEntry) → (List OsName → Prop) → Prop
  | some ⟨some path, entryType⟩ :: entries, links =>
      isRefused path = true ∨
        match relativePath root path with
        | none => FollowsNoLink root entries links
        | some relative =>
            PassesNoLink (entryType.linked relative links) entryType.follows []
                (entryType.lookedUp relative) ∧
              FollowsNoLink root entries (entryType.linked relative links)
  | _, _ => True

/-- The same for a zip, which makes no links. -/
def ZipFollowsNoLink (root : Option (Path OsName)) (links : List OsName → Prop) :
    List (Option ZipEntry) → Prop
  | some ⟨some path, isDir, _⟩ :: entries =>
      isRefused path = true ∨
        match relativePath root path with
        | none => ZipFollowsNoLink root links entries
        | some relative =>
            PassesNoLink links (!isDir) []
                (if isDir then relative.components else relative.lookedUp) ∧
              ZipFollowsNoLink root links entries
  | _ => True

/-- A tar.gz none of whose entries is put on or behind a link. -/
def ContentIsSafe (readers : ArchiveReaders) (links : List OsName → Prop) (content : FileContent) :
    Prop :=
  ∀ entries root, readers.readTar content = some entries →
    findCommonRootFolderTar entries .start = .ok root → FollowsNoLink root entries links

def TarIsSafe (cwd : Location OsName) (readers : ArchiveReaders)
    (archive : Path OsName) (links : List OsName → Prop) (tree : Tree OsName FileContent) : Prop :=
  ∀ content, readFile cwd tree archive = .ok content →
    ContentIsSafe readers links content

section Walking

variable {tree : Tree OsName FileContent} {directory location : Location OsName}
  {links links' : List OsName → Prop} {follow : Bool} {components : List (Component OsName)}

theorem PassesNoLink.mono {front : List OsName}
    (passes : PassesNoLink links follow front components)
    (fewer : ∀ names, links' names → links names) :
    PassesNoLink links' follow front components := by
  induction components generalizing front with
  | nil => trivial
  | cons component rest induction =>
      cases component with
      | current => exact induction passes
      | parent => exact passes
      | named name =>
          exact ⟨fun more isLink => passes.1 more (fewer _ isLink), induction passes.2⟩

theorem PassesNoLink.front {front : List OsName} {start : List (Component OsName)}
    (passes : PassesNoLink links follow front components) (isFront : start <+: components) :
    PassesNoLink links false front start := by
  induction components generalizing front start with
  | nil =>
      rw [List.prefix_nil.mp isFront]
      trivial
  | cons component rest induction =>
      cases start with
      | nil => trivial
      | cons first start =>
          rcases List.cons_prefix_cons.mp isFront with ⟨rfl, later⟩
          cases first with
          | current =>
              change PassesNoLink links false front start
              exact induction passes later
          | parent => exact passes
          | named name =>
              refine ⟨?_, induction passes.2 later⟩
              rintro (more | follows)
              · refine passes.1 (.inl ?_)
                rintro rfl
                exact more (List.prefix_nil.mp later)
              · cases follows

/-- A walk that leads over no link ends where its names say. -/
theorem walk_passing {count : Nat} {front : List OsName}
    (passes : PassesNoLink (LinkAt tree directory) follow front components)
    (walked : walk tree follow count (directory ++ front) components = .ok location) :
    location = directory ++ front ++ namesOf components := by
  rw [walks_iff] at walked
  generalize isHere : directory ++ front = here at walked
  induction walked generalizing front with
  | nil => rw [namesOf, List.filterMap_nil, List.append_nil]
  | current _ induction => exact induction passes isHere
  | parent => exact passes.elim
  | absent | file | unfollowed => rfl
  | dir _ _ induction =>
      rw [induction passes.2 (by rw [← isHere, List.append_assoc])]
      simp [namesOf]
  | @link _ _ name rest _ target isLink followed =>
      have inside : rest ≠ [] ∨ follow = true := by
        cases rest with
        | nil => exact .inr (by simpa using followed)
        | cons component rest => exact .inl (List.cons_ne_nil _ _)
      rw [← isHere, List.append_assoc] at isLink
      exact absurd ⟨target, isLink⟩ (passes.1 inside)

/-- Where a walk arrives, the first name on it is there, unless it is the last and new. -/
theorem walk_head {count : Nat} {here : Location OsName} {front : List OsName} {name : OsName}
    {follow' : Bool} (passes : PassesNoLink links follow' front components)
    (first : (namesOf components).head? = some name)
    (walked : walk tree follow count here components = .ok location) :
    location = here ++ [name] ∨ tree.get (here ++ [name]) ≠ none := by
  rw [walks_iff] at walked
  induction walked with
  | nil => cases first
  | current _ induction => exact induction passes first
  | parent => exact passes.elim
  | absent =>
      cases first
      exact .inl rfl
  | dir found | file found | unfollowed found | link found =>
      cases first
      exact .inr (by rw [found]; exact Option.some_ne_none _)

end Walking

variable {cwd : Location OsName} {destDir : Path OsName}
  {tree tree' : Tree OsName FileContent} {directory location : Location OsName}
  {links : List OsName → Prop} {safe : Prop}

/-! ## Steps in a settled destination -/

/-- Where the destination is, which links there can be in it, and what is known about the entries to
come. A relative destination is lost when the working directory is. -/
def Settled (cwd : Location OsName) (destDir : Path OsName)
    (directory : Location OsName) (links : List OsName → Prop) (safe : Prop)
    (tree : Tree OsName FileContent) : Prop :=
  destDir.absolute = false ∧ ¬ Rooted tree cwd ∨
    Reaches cwd tree destDir directory ∧
      IsStanding cwd destDir tree directory ∧
      (∀ names, LinkAt tree directory names → links names) ∧ safe

/-- What is put below the destination leaves it where it is. -/
theorem isStanding_step (standing : IsStanding cwd destDir tree directory)
    (inside : ∀ location, tree'.get location ≠ tree.get location →
      below directory location = true ∧ tree.get location ≠ some .dir) :
    IsStanding cwd destDir tree' directory := by
  refine standing.extends fun location node found => ?_
  by_cases root : location = []
  · rw [root] at found ⊢
    exact found
  rw [Tree.get_erase _ _ _ root] at found ⊢
  by_cases same : tree'.get location = tree.get location
  · rw [same]
    exact found
  · rcases inside location same with ⟨isBelow, notDir⟩
    rw [isBelow, decide_eq_true notDir] at found
    cases found

theorem IsStanding.reaches (standing : IsStanding cwd destDir tree directory) :
    Reaches cwd tree destDir directory :=
  Reaches.extends standing Tree.erase_extends

theorem names_of_changed {names : List OsName}
    (reached : Reaches cwd tree destDir directory)
    (notDir : tree.get (directory ++ names) ≠ some .dir) : names ≠ [] := by
  rintro rfl
  rw [List.append_nil] at notDir
  exact notDir reached.rooted.dir

theorem notDir_of_absent (absent : tree.get location = none) : tree.get location ≠ some .dir := by
  rw [absent]
  exact (Option.some_ne_none _).symm

/-- A request in the destination stays in it and keeps it settled. -/
theorem settled_step {request : Request OsName FileContent} {answer : Answer request}
    (answered : answers cwd request tree answer tree')
    (settled : Settled cwd destDir directory links safe tree)
    (starts : ∀ location, Touches cwd tree request location →
      Rooted tree (destDir.start cwd))
    (inside : Reaches cwd tree destDir directory →
      (∀ names, LinkAt tree directory names → links names) → safe →
      ∀ location, Touches cwd tree request location →
        IsInside tree directory location)
    (rewrites : Reaches cwd tree destDir directory →
      (∀ names, LinkAt tree directory names → links names) → safe →
      ∀ location node, Rewrites cwd tree request location node →
        tree.get location ≠ some .dir ∧ ∃ names, location = directory ++ names ∧
          ∀ target, node = some (.link target) → links names) :
    StaysInside cwd destDir tree tree' ∧
      Settled cwd destDir directory links safe tree' := by
  rcases settled with ⟨relative, lost⟩ | ⟨reached, standing, known, safe⟩
  · have untouched (location : Location OsName) :
        ¬ Touches cwd tree request location := by
      intro touched
      have start := starts location touched
      rw [Path.start, relative] at start
      exact lost start
    have same (location : Location OsName) : tree'.get location = tree.get location :=
      ((changesWithin_answers answered) location (untouched location)).entry
    refine ⟨(changesWithin_answers answered).mono fun location touched =>
      absurd touched (untouched location), .inl ⟨relative, fun rooted => lost ?_⟩⟩
    exact fun above isPrefix => (same above).symm.trans (rooted above isPrefix)
  · refine ⟨(changesWithin_answers answered).mono fun location touched =>
      .inr ⟨directory, reached, inside reached known safe location touched⟩, .inr ?_⟩
    have rewritten (location : Location OsName)
        (changes : tree'.get location ≠ tree.get location) :=
      rewrites reached known safe location _ (answers_entry answered changes)
    have standing' : IsStanding cwd destDir tree' directory := by
      refine isStanding_step standing fun location changes => ?_
      rcases rewritten location changes with ⟨notDir, names, rfl, _⟩
      have notEmpty := names_of_changed reached notDir
      exact ⟨by simp [below, notEmpty], notDir⟩
    refine ⟨standing'.reaches, standing', ?_, safe⟩
    rintro names ⟨target, isLink⟩
    by_cases changes : tree'.get (directory ++ names) = tree.get (directory ++ names)
    · exact known names ⟨target, changes.symm.trans isLink⟩
    · rcases rewritten _ changes with ⟨_, names', same, linked⟩
      rw [List.append_cancel_left same]
      exact linked target isLink

theorem namesOf_append (front rest : List (Component OsName)) :
    namesOf (front ++ rest) = namesOf front ++ namesOf rest :=
  List.filterMap_append

variable {path : Path OsName}

/-- What is looked up behind the destination is walked from there. -/
theorem walk_behind {rest : List (Component OsName)} {follow : Bool}
    (resolved : resolve cwd tree follow path = .ok location)
    (absolute : path.absolute = destDir.absolute)
    (split : path.lookedUp = destDir.components ++ rest) (more : rest ≠ [])
    (reaches : Reaches cwd tree destDir directory) :
    ∃ count, walk tree follow count directory rest = .ok location := by
  rcases walk_of_resolve resolved with ⟨_, _, walked⟩
  have sameStart : path.start cwd = destDir.start cwd := by
    rw [Path.start, Path.start, absolute]
  rw [sameStart, split] at walked
  rcases walk_append reaches.walked reaches.rooted.dir with ⟨left, _, later⟩
  exact ⟨left + 0, (later 0 follow rest more).symm.trans walked⟩

/-- What is looked up behind the destination ends in it, when it leads over no link. -/
theorem resolve_behind (destDir : Path OsName) {rest : List (Component OsName)}
    {follow : Bool} (resolved : resolve cwd tree follow path = .ok location)
    (absolute : path.absolute = destDir.absolute)
    (split : path.lookedUp = destDir.components ++ rest) (more : rest ≠ []) :
    Rooted tree (destDir.start cwd) ∧
      ∀ directory, Reaches cwd tree destDir directory →
        PassesNoLink (LinkAt tree directory) follow [] rest →
          location = directory ++ namesOf rest := by
  have start := (walk_of_resolve resolved).2.1
  rw [Path.start, absolute] at start
  refine ⟨start, fun directory reaches passes => ?_⟩
  rcases walk_behind resolved absolute split more reaches with ⟨count, walked⟩
  have named := walk_passing passes
    (show walk tree follow count (directory ++ []) rest = .ok location by
      rw [List.append_nil]
      exact walked)
  rw [List.append_nil] at named
  exact named

variable {content : FileContent}

section Output

variable {relative : Path OsName} (isRelative : relative.absolute = false)

include isRelative

theorem join_relative : destDir.join relative =
    ⟨destDir.absolute, destDir.components ++ relative.components,
      relative.components.isEmpty || relative.trailing⟩ := by
  rw [Path.join, isRelative]
  rfl

theorem lookedUp_output (destDir : Path OsName) (notEmpty : relative.components ≠ []) :
    (destDir.join relative).absolute = destDir.absolute ∧
      (destDir.join relative).lookedUp = destDir.components ++ relative.lookedUp ∧
        relative.lookedUp ≠ [] := by
  rw [join_relative isRelative]
  refine ⟨rfl, ?_, ?_⟩
  · rw [Path.lookedUp, Path.lookedUp, List.isEmpty_eq_false_iff.mpr notEmpty, Bool.false_or]
    split
    · exact List.append_assoc _ _ _
    · rfl
  · rw [Path.lookedUp]
    split
    · simp
    · exact notEmpty

/-- What an output path leads to. -/
theorem resolve_output {follow : Bool}
    (resolved : resolve cwd tree follow (destDir.join relative) = .ok location) :
    Rooted tree (destDir.start cwd) ∧
      ∀ directory, Reaches cwd tree destDir directory →
        PassesNoLink (LinkAt tree directory) follow [] relative.lookedUp →
          location = directory ++ namesOf relative.components := by
  by_cases empty : relative.components = []
  · rw [join_relative isRelative] at resolved
    have split : Path.lookedUp ⟨destDir.absolute, destDir.components ++ relative.components,
        relative.components.isEmpty || relative.trailing⟩ = destDir.components ++ [.current] := by
      simp [Path.lookedUp, empty]
    rcases resolve_behind destDir resolved rfl split (List.cons_ne_nil _ _) with ⟨start, named⟩
    refine ⟨start, fun directory reaches _ => (named directory reaches trivial).trans ?_⟩
    simp [namesOf, empty]
  · rcases lookedUp_output isRelative destDir empty with ⟨absolute, split, more⟩
    rcases resolve_behind destDir resolved absolute split more with ⟨start, named⟩
    refine ⟨start, fun directory reaches passes => (named directory reaches passes).trans ?_⟩
    rw [Path.lookedUp]
    split
    · rw [namesOf_append]
      simp [namesOf]
    · rfl

variable {directory : Location OsName} {name : OsName}

/-- Where an output path leads, the first name of the output is there, unless it is new. -/
theorem resolve_head {follow : Bool}
    (resolved : resolve cwd tree follow (destDir.join relative) = .ok location)
    (reaches : Reaches cwd tree destDir directory)
    (passes : PassesNoLink links follow [] relative.lookedUp)
    (first : (namesOf relative.components).head? = some name) :
    location = directory ++ [name] ∨ tree.get (directory ++ [name]) ≠ none := by
  have notEmpty : relative.components ≠ [] := by
    intro empty
    rw [empty] at first
    cases first
  have looked : (namesOf relative.lookedUp).head? = some name := by
    rw [Path.lookedUp]
    split
    · rw [namesOf_append, List.head?_append, first]
      rfl
    · exact first
  rcases lookedUp_output isRelative destDir notEmpty with ⟨absolute, split, more⟩
  rcases walk_behind resolved absolute split more reaches with ⟨count, walked⟩
  exact walk_head passes looked walked

/-- The first name of an output directory is there. -/
theorem reaches_head (reached : Reaches cwd tree (destDir.join relative) location)
    (reaches : Reaches cwd tree destDir directory)
    (passes : PassesNoLink links follow [] relative.components)
    (first : (namesOf relative.components).head? = some name) :
    tree.get (directory ++ [name]) ≠ none := by
  have notEmpty : relative.components ≠ [] := by
    intro empty
    rw [empty] at first
    cases first
  rcases reached with ⟨_, walked, rooted⟩
  rw [join_relative isRelative] at walked
  change walk tree true maxLinks (destDir.start cwd)
    (destDir.components ++ relative.components) = .ok location at walked
  rcases walk_append reaches.walked reaches.rooted.dir with ⟨left, _, later⟩
  have behind := (later 0 true relative.components notEmpty).symm.trans walked
  rcases walk_head passes first behind with rfl | present
  · rw [rooted.dir]
    exact Option.some_ne_none _
  · exact present

variable {directory : Location OsName}

/-- Creating an output directory, or one above it. -/
theorem settled_createDir {above : Path OsName} {answer : Except ErrorKind Unit} {follow : Bool}
    (isAbove : above.IsAbove (destDir.join relative))
    (answered : answers cwd (.createDir above) tree answer tree')
    (settled : Settled cwd destDir directory links safe tree)
    (passes : safe → PassesNoLink links follow [] relative.components) :
    StaysInside cwd destDir tree tree' ∧
      Settled cwd destDir directory links safe tree' := by
  rw [join_relative isRelative] at isAbove
  rcases isAbove with ⟨absolute, isFront⟩
  have start (location : Location OsName)
      (resolved : resolve cwd tree false { above with trailing := false } =
        .ok location) : Rooted tree (destDir.start cwd) := by
    have rooted := (walk_of_resolve resolved).2.1
    rw [Path.start, absolute] at rooted
    exact rooted
  have named (reached : Reaches cwd tree destDir directory)
      (known : ∀ names, LinkAt tree directory names → links names) (isSafe : safe)
      (location : Location OsName)
      (resolved : resolve cwd tree false { above with trailing := false } =
        .ok location) (absent : tree.get location = none) :
      ∃ names, location = directory ++ names := by
    have notEmpty := (walk_of_resolve resolved).1
    have notHigher : ¬ above.components <+: destDir.components := by
      intro higher
      rcases reached.above ⟨absolute, higher⟩ with ⟨_, reachedAbove⟩
      exact reachedAbove.createDir_touches notEmpty ⟨resolved, absent⟩
    rcases List.prefix_or_prefix_of_prefix isFront (List.prefix_append _ _) with
      higher | ⟨rest, split⟩
    · exact absurd higher notHigher
    · have more : rest ≠ [] := by
        rintro rfl
        rw [List.append_nil] at split
        exact notHigher (split ▸ List.prefix_refl _)
      rw [← split] at isFront
      have front := (List.prefix_append_right_inj _).mp isFront
      rcases resolve_behind destDir resolved absolute split.symm more with ⟨_, named⟩
      exact ⟨namesOf rest, named directory reached (((passes isSafe).mono known).front front)⟩
  refine settled_step answered settled (fun location touched => start location touched.1) ?_ ?_
  · intro reached known isSafe location touched
    rcases named reached known isSafe location touched.1 touched.2 with ⟨names, rfl⟩
    exact .inl (List.prefix_append _ _)
  · intro reached known isSafe location node rewrites
    rcases rewrites with ⟨resolved, absent, rfl⟩
    rcases named reached known isSafe location resolved absent with ⟨names, rfl⟩
    exact ⟨notDir_of_absent absent, names, rfl, fun target same => by cases same⟩

/-- Writing to an output path. -/
theorem settled_write {answer : Except ErrorKind Unit}
    (answered : answers cwd (.write (destDir.join relative) content) tree answer tree')
    (settled : Settled cwd destDir directory links safe tree)
    (passes : safe → PassesNoLink links true [] relative.lookedUp) :
    StaysInside cwd destDir tree tree' ∧
      Settled cwd destDir directory links safe tree' := by
  refine settled_step answered settled ?_ ?_ ?_
  · rintro location ⟨target, resolved, _⟩
    exact (resolve_output isRelative resolved).1
  · rintro reached known isSafe location ⟨target, resolved, here⟩
    have named := (resolve_output isRelative resolved).2 directory reached
      ((passes isSafe).mono known)
    rcases here with rfl | ⟨inode, isFile, isFile'⟩
    · exact .inl (named ▸ List.prefix_append _ _)
    · exact .inr ⟨inode, target, named ▸ List.prefix_append _ _, isFile, isFile'⟩
  · rintro reached known isSafe location node ⟨resolved, absent, rfl⟩
    have named := (resolve_output isRelative resolved).2 directory reached
      ((passes isSafe).mono known)
    exact ⟨notDir_of_absent absent, _, named, fun target same => by cases same⟩

/-- Making a link at an output path. -/
theorem settled_link {request : Request OsName FileContent} {answer : Answer request}
    (isLinking : IsLinking (destDir.join relative) request)
    (answered : answers cwd request tree answer tree')
    (settled : Settled cwd destDir directory links safe tree)
    (passes : safe → PassesNoLink links false [] relative.lookedUp)
    (linked : links (namesOf relative.components)) :
    StaysInside cwd destDir tree tree' ∧
      Settled cwd destDir directory links safe tree' := by
  have atOutput (location : Location OsName)
      (touched : Touches cwd tree request location) :
      resolve cwd tree false (destDir.join relative) = .ok location := by
    cases request with
    | removeFile path => exact isLinking ▸ touched
    | symlink original link => exact isLinking ▸ touched
    | hardLink original link => exact isLinking ▸ touched
    | _ => exact isLinking.elim
  have notDir (location : Location OsName) (node : Option (Node OsName))
      (rewrites : Rewrites cwd tree request location node) :
      tree.get location ≠ some .dir := by
    cases request with
    | removeFile path => exact rewrites.2.1
    | symlink original link => exact fun isDir => by cases rewrites.2.1.symm.trans isDir
    | hardLink original link => exact fun isDir => by cases rewrites.2.1.symm.trans isDir
    | _ => exact isLinking.elim
  refine settled_step answered settled ?_ ?_ ?_
  · intro location touched
    exact (resolve_output isRelative (atOutput location touched)).1
  · intro reached known isSafe location touched
    have named := (resolve_output isRelative (atOutput location touched)).2 directory reached
      ((passes isSafe).mono known)
    exact .inl (named ▸ List.prefix_append _ _)
  · intro reached known isSafe location node rewrites
    have named := (resolve_output isRelative
      (atOutput location (touches_of_rewrites rewrites))).2 directory reached
      ((passes isSafe).mono known)
    exact ⟨notDir location node rewrites, _, named, fun _ _ => linked⟩

/-- Creating an output directory with those above it. -/
theorem guaranteed_outputDir {follow : Bool} (isAbove : path.IsAbove (destDir.join relative))
    (settled : Settled cwd destDir directory links safe tree)
    (passes : safe → PassesNoLink links follow [] relative.components) :
    Guaranteed (answers cwd) (StaysInside cwd destDir)
      (createDirAll path) tree fun result tree' =>
        Settled cwd destDir directory links safe tree' ∧ tree.Grows tree' ∧
          (result = .ok () → path.isEmpty = true ∨
            ∃ location, Reaches cwd tree' path location) := by
  refine Guaranteed.weaken (Guaranteed.relative
    (guaranteed_createDirAllFrom _ path tree ?_ ?_) settled) ?_
  · exact fun tree settled => ⟨Tree.ChangesWithin.refl, settled⟩
  · intro above higher tree answer tree' answered settled
    exact settled_createDir isRelative
      ⟨higher.1.trans isAbove.1, higher.2.trans isAbove.2⟩ answered settled passes
  · exact fun _ _ ends => ends

end Output

theorem staysInside_refl (tree : Tree OsName FileContent) :
    StaysInside cwd destDir tree tree :=
  Tree.ChangesWithin.refl

theorem Settled.mono {links' : List OsName → Prop} {safe' : Prop}
    (settled : Settled cwd destDir directory links safe tree)
    (more : ∀ names, links names → links' names) (implies : safe → safe') :
    Settled cwd destDir directory links' safe' tree := by
  rcases settled with lost | ⟨reached, standing, known, isSafe⟩
  · exact .inl lost
  · exact .inr ⟨reached, standing, fun names isLink => more names (known names isLink),
      implies isSafe⟩

/-! ## Programs in a settled destination -/

variable {archive : Path OsName}

section Programs

variable {readers : ArchiveReaders} {root : Option (Path OsName)}

theorem relativePath_relative {relative : Path OsName} (notRefused : isRefused path = false)
    (isRelative : relativePath root path = some relative) : relative.absolute = false := by
  have notAbsolute := (Bool.or_eq_false_iff.mp notRefused).1
  rw [relativePath.eq_def] at isRelative
  split at isRelative
  · cases isRelative
    exact notAbsolute
  · split at isRelative
    · cases isRelative
      exact notAbsolute
    next stripped =>
      split at isRelative
      · cases isRelative
      · cases isRelative
        rw [stripPrefix] at stripped
        split at stripped <;> cases stripped
        rfl

theorem guaranteed_unpack (unpacks : UnpacksInPlace cwd readers) {entry : TarEntry}
    {relative : Path OsName} (isRelative : relative.absolute = false)
    (settled : Settled cwd destDir directory links safe tree)
    (linked : entry.entryType.isLink = true → links (namesOf relative.components))
    (passes : safe → PassesNoLink links (!entry.entryType.isLink) [] relative.lookedUp) :
    Guaranteed (answers cwd) (StaysInside cwd destDir)
      (readers.unpack entry (destDir.join relative)) tree fun _ tree' =>
        Settled cwd destDir directory links safe tree' := by
  cases isLink : entry.entryType.isLink with
  | false =>
      rw [isLink] at passes
      refine Guaranteed.weaken (Guaranteed.relative ((unpacks.regular entry _ tree isLink).mono ?_
        fun _ _ holds => holds) settled) fun _ _ ends => ends.1
      rintro before after (rfl | ⟨content, answer, answered⟩) settled
      · exact ⟨staysInside_refl before, settled⟩
      · exact settled_write isRelative answered settled passes
  | true =>
      rw [isLink] at passes
      refine Guaranteed.weaken (Guaranteed.relative ((unpacks.link entry _ tree isLink).mono ?_
        fun _ _ holds => holds) settled) fun _ _ ends => ends.1
      rintro before after (rfl | ⟨request, answer, isLinking, answered⟩) settled
      · exact ⟨staysInside_refl before, settled⟩
      · exact settled_link isRelative isLinking answered settled passes (linked isLink)

theorem passes_components {follow : Bool} {relative : Path OsName}
    (passes : PassesNoLink links follow [] relative.lookedUp) :
    PassesNoLink links false [] relative.components := by
  refine passes.front ?_
  rw [Path.lookedUp]
  split
  · exact List.prefix_append _ _
  · exact List.prefix_refl _

theorem guaranteed_extractTarEntry (unpacks : UnpacksInPlace cwd readers)
    {entry : TarEntry} {relative : Path OsName} (notRefused : isRefused path = false)
    (isOutput : relativePath root path = some relative)
    (settled : Settled cwd destDir directory (entry.entryType.linked relative links)
      safe tree)
    (passes : safe → PassesNoLink (entry.entryType.linked relative links) entry.entryType.follows []
      (entry.entryType.lookedUp relative)) :
    Guaranteed (answers cwd) (StaysInside cwd destDir)
      (extractTarEntry readers destDir root entry path).run tree fun _ tree' =>
        Settled cwd destDir directory (entry.entryType.linked relative links) safe
          tree' := by
  have isRelative := relativePath_relative notRefused isOutput
  rw [extractTarEntry, notRefused, isOutput]
  have unpacked (passes : safe → PassesNoLink (entry.entryType.linked relative links)
        (!entry.entryType.isLink) [] relative.lookedUp) (tree : Tree OsName FileContent)
      (settled : Settled cwd destDir directory
        (entry.entryType.linked relative links) safe tree) :
      Guaranteed (answers cwd) (StaysInside cwd destDir)
        (withContext "Failed to extract: " (destDir.join relative)
          (readers.unpack entry (destDir.join relative))).run tree fun _ tree' =>
            Settled cwd destDir directory (entry.entryType.linked relative links) safe
              tree' :=
    guaranteed_withContext.mpr (guaranteed_unpack unpacks isRelative settled
      (fun isLink => .inr ⟨isLink, rfl⟩) passes)
  have inParent (parent : Path OsName) (isParent : (destDir.join relative).parent = some parent)
      (passes : safe → PassesNoLink (entry.entryType.linked relative links)
        (!entry.entryType.isLink) [] relative.lookedUp) :
      Guaranteed (answers cwd) (StaysInside cwd destDir)
        (do
          withContext "Failed to create directory: " parent (createDirAll parent)
          withContext "Failed to extract: " (destDir.join relative)
            (readers.unpack entry (destDir.join relative)) : Installer Unit).run tree fun _ tree' =>
            Settled cwd destDir directory (entry.entryType.linked relative links) safe
              tree' := by
    refine guaranteed_context ?_
    refine (guaranteed_outputDir isRelative (parent_isAbove isParent) settled
      fun isSafe => passes_components (passes isSafe)).weaken ?_
    intro answer tree' ends
    exact ⟨ends.1, fun value _ => unpacked passes tree' ends.1⟩
  cases isType : entry.entryType with
  | directory =>
      rw [isType] at settled passes
      refine guaranteed_withContext.mpr ((guaranteed_outputDir isRelative ⟨rfl, List.prefix_refl _⟩
        settled passes).weaken ?_)
      exact fun _ _ ends => ends.1
  | regular _ | symlink _ | hardLink _ =>
      rw [isType] at settled unpacked inParent passes
      cases isParent : (destDir.join relative).parent with
      | none =>
          simp only [Bool.false_eq_true, if_false, isParent]
          exact unpacked passes tree settled
      | some parent =>
          simp only [Bool.false_eq_true, if_false, isParent]
          exact inParent parent isParent passes

/-- The destination stays settled, wherever the extraction ends. -/
def StaysSettled (cwd : Location OsName) (destDir : Path OsName)
    (directory : Location OsName) (tree : Tree OsName FileContent) : Prop :=
  ∃ links, Settled cwd destDir directory links True tree

theorem Settled.stays (settled : Settled cwd destDir directory links safe tree) :
    StaysSettled cwd destDir directory tree :=
  ⟨links, settled.mono (fun _ isLink => isLink) fun _ => trivial⟩

theorem guaranteed_extractTarEntries (unpacks : UnpacksInPlace cwd readers)
    (entries : List (Option TarEntry)) (links : List OsName → Prop) (tree : Tree OsName FileContent)
    (settled : Settled cwd destDir directory links (FollowsNoLink root entries links)
      tree) :
    Guaranteed (answers cwd) (StaysInside cwd destDir)
      (extractTarEntries readers destDir archive root entries).run tree fun _ tree' =>
        StaysSettled cwd destDir directory tree' := by
  induction entries generalizing links tree with
  | nil => exact settled.stays
  | cons entry entries induction =>
      rcases entry with _ | ⟨_ | path, entryType⟩
      · exact settled.stays
      · exact settled.stays
      · cases refused : isRefused path with
        | true =>
            refine guaranteed_bind_fallible.mpr ?_
            rw [extractTarEntry, refused]
            exact settled.stays
        | false =>
            refine guaranteed_bind_fallible.mpr ?_
            cases isOutput : relativePath root path with
            | none =>
                rw [extractTarEntry, refused, isOutput]
                refine induction links tree (settled.mono (fun _ isLink => isLink) ?_)
                intro safe
                rw [FollowsNoLink, refused, isOutput] at safe
                exact safe.resolve_left Bool.false_ne_true
            | some relative =>
                have split (safe : FollowsNoLink root (some ⟨some path, entryType⟩ :: entries)
                    links) : PassesNoLink (entryType.linked relative links) entryType.follows []
                        (entryType.lookedUp relative) ∧
                      FollowsNoLink root entries (entryType.linked relative links) := by
                  rw [FollowsNoLink, refused, isOutput] at safe
                  exact safe.resolve_left Bool.false_ne_true
                refine (guaranteed_extractTarEntry unpacks refused isOutput
                  (settled.mono (fun _ => .inl) fun safe => safe)
                  fun safe => (split safe).1).weaken ?_
                intro result tree' settled'
                cases result with
                | error error => exact settled'.stays
                | ok value =>
                    exact induction _ tree'
                      (settled'.mono (fun _ isLink => isLink) fun safe => (split safe).2)

theorem observes_readArchive {α : Type} {reader : FileContent → Option α} (archive : Path OsName) :
    Observes cwd tree (readArchive reader archive).run fun result =>
      ∀ entries, result = .ok entries → ∃ content,
        readFile cwd tree archive = .ok content ∧ reader content = some entries := by
  have read : Observes cwd tree
      (withContext "Failed to open archive: " archive (ask (.read archive))).run fun result =>
        ∀ content, result = .ok content → readFile cwd tree archive = .ok content := by
    refine observes_withContext (observes_ask (.read archive) rfl) ?_ ?_
    · rintro content (answered | failed) _ same
      · cases same
        exact answered.symm
      · cases failed
    · intro _ _ same
      cases same
  refine read.bind_fallible ?_ ?_
  · intro content holds
    cases listed : reader content with
    | none =>
        apply observes_pure
        intro _ same
        cases same
    | some entries =>
        apply observes_pure
        intro _ same
        cases same
        exact ⟨content, holds content rfl, listed⟩
  · intro _ _ _ same
    cases same

theorem guaranteed_tarContents (unpacks : UnpacksInPlace cwd readers)
    (settled : Settled cwd destDir directory links
      (TarIsSafe cwd readers archive links tree) tree) :
    Guaranteed (answers cwd) (StaysInside cwd destDir)
      (do
        let listed ← readArchive readers.readTar archive
        match findCommonRootFolderTar listed .start with
        | .error () => throw (.unreadableArchive archive)
        | .ok root =>
            let entries ← readArchive readers.readTar archive
            extractTarEntries readers destDir archive root entries : Installer Unit).run tree
      fun _ tree' => StaysSettled cwd destDir directory tree' := by
  refine (observes_readArchive archive).guaranteed_bind_run staysInside_refl ?_
    fun _ _ => settled.stays
  intro listed isListed
  rcases isListed listed rfl with ⟨content, read, reads⟩
  cases found : findCommonRootFolderTar listed .start with
  | error error => exact settled.stays
  | ok root =>
      refine (observes_readArchive archive).guaranteed_bind_run staysInside_refl ?_
        fun _ _ => settled.stays
      intro entries isRead
      rcases isRead entries rfl with ⟨content', read', reads'⟩
      cases read.symm.trans read'
      cases reads.symm.trans reads'
      exact guaranteed_extractTarEntries unpacks listed links tree
        (settled.mono (fun _ isLink => isLink) fun safe =>
          safe content read listed root reads found)

/-- A tar.gz that is extracted into a settled destination. -/
theorem guaranteed_extractTarGz (unpacks : UnpacksInPlace cwd readers)
    (settled : Settled cwd destDir directory links
      (TarIsSafe cwd readers archive links tree) tree) :
    Guaranteed (answers cwd) (StaysInside cwd destDir)
      (extractTarGz readers archive destDir).run tree fun _ tree' =>
        StaysSettled cwd destDir directory tree' := by
  refine guaranteed_context ?_
  rcases settled with lost | ⟨reached, later⟩
  · have isRelative : (⟨false, [], false⟩ : Path OsName).absolute = false := rfl
    have isFront : destDir.IsAbove (destDir.join ⟨false, [], false⟩) :=
      ⟨rfl, List.prefix_append _ _⟩
    have isLost : Settled cwd destDir directory links False tree := .inl lost
    have passes : False → PassesNoLink links false [] [] := fun _ => trivial
    refine (guaranteed_outputDir isRelative isFront isLost passes).weaken ?_
    rintro answer tree' ⟨settled', _⟩
    exact ⟨settled'.stays, fun _ _ => guaranteed_tarContents unpacks
      (settled'.mono (fun _ isLink => isLink) False.elim)⟩
  · have settled : Settled cwd destDir directory links
      (TarIsSafe cwd readers archive links tree) tree := .inr ⟨reached, later⟩
    exact (observes_createDirAll reached).guaranteed staysInside_refl fun _ _ =>
      ⟨settled.stays, fun _ _ => guaranteed_tarContents unpacks settled⟩

/-! ## Zip archives -/

/-- A nested archive in the destination has the file that names lead to. -/
def IsNested (directory : Location OsName) (tree : Tree OsName FileContent) (names : List OsName)
    (name : OsName) : Prop :=
  names = [name] ∨ ∃ inode, tree.get (directory ++ names) = some (.file inode) ∧
    tree.get (directory ++ [name]) = some (.file inode)

theorem present_extends (extends_ : tree.Extends tree') (present : tree.get location ≠ none) :
    tree'.get location ≠ none := by
  rcases Option.ne_none_iff_exists'.mp present with ⟨node, found⟩
  rw [extends_ location node found]
  exact Option.some_ne_none node

theorem writeFile_present (wrote : writeFile cwd tree path content = .ok tree')
    (resolved : resolve cwd tree true path = .ok location) :
    tree'.get location ≠ none := by
  rcases writeFile_eq_ok.mp wrote with ⟨target, isTarget, written⟩
  cases resolved.symm.trans isTarget
  rcases written with ⟨absent, rfl⟩ | ⟨inode, isFile, rfl⟩
  · rw [Tree.get_create _ _ _ _ (notRoot_of_absent absent), if_pos rfl]
    exact Option.some_ne_none _
  · rw [Tree.get_setContents, isFile]
    exact Option.some_ne_none _

/-- What the nested archives that count can hold, which other names they can have, when the
extraction has started in some tree, and which names have been placed in the destination. -/
structure Known (lone : OsName → Prop) (candidates : FileContent → Prop)
    (directory : Location OsName) (initial : Tree OsName FileContent) (placed : OsName → Prop)
    (tree : Tree OsName FileContent) : Prop where
  contents : ∀ name inode, lone name → tree.get (directory ++ [name]) = some (.file inode) →
    candidates (tree.contents inode)
  names : ∀ names name, IsNested directory tree names name → IsNested directory initial names name
  present : ∀ name, placed name → tree.get (directory ++ [name]) ≠ none

theorem Known.grows {lone placed : OsName → Prop} {candidates : FileContent → Prop}
    {initial : Tree OsName FileContent}
    (known : Known lone candidates directory initial placed tree) (grows : tree.Grows tree') :
    Known lone candidates directory initial placed tree' := by
  have files (location : Location OsName) (inode : Inode)
      (isFile : tree'.get location = some (.file inode)) :
      tree.get location = some (.file inode) := by
    rcases grows.directories _ _ isFile with found | ⟨_, isDir⟩
    · exact found
    · cases isDir
  constructor
  · intro name inode isLone isFile
    rw [grows.contents]
    exact known.contents name inode isLone (files _ _ isFile)
  · rintro names name (same | ⟨inode, isFile, isNested⟩)
    · exact .inl same
    · exact known.names names name (.inr ⟨inode, files _ _ isFile, files _ _ isNested⟩)
  · exact fun name isPlaced => present_extends grows.kept (known.present name isPlaced)

/-- Writing a file in the destination, where the content counts if a nested archive has that
file. -/
theorem Known.write {lone placed : OsName → Prop} {candidates : FileContent → Prop}
    {initial : Tree OsName FileContent}
    {written : List OsName} (known : Known lone candidates directory initial placed tree)
    (isThere : ∀ location, resolve cwd tree true path = .ok location →
      location = directory ++ written)
    (isCandidate : ∀ name, lone name → IsNested directory initial written name →
      candidates content)
    (wrote : writeFile cwd tree path content = .ok tree') :
    Known lone candidates directory initial placed tree' := by
  have present (name : OsName) (isPlaced : placed name) : tree'.get (directory ++ [name]) ≠ none :=
    present_extends (writeFile_extends wrote) (known.present name isPlaced)
  rcases writeFile_eq_ok.mp wrote with ⟨target, resolved, ⟨absent, rfl⟩ | ⟨other, isOther, rfl⟩⟩
  · have same := isThere target resolved
    have created (location : Location OsName) (inode : Inode)
        (isFile : (tree.create target content).get location = some (.file inode)) :
        location = target ∧ inode = tree.freshInode ∨
          inode < tree.freshInode ∧ tree.get location = some (.file inode) := by
      rw [Tree.get_create _ _ _ _ (notRoot_of_absent absent)] at isFile
      split at isFile
      next isTarget =>
        cases isFile
        exact .inl ⟨isTarget, rfl⟩
      next => exact .inr ⟨Tree.lt_freshInode isFile, isFile⟩
    refine ⟨?_, ?_, present⟩
    · intro name inode isLone isFile
      rcases created _ _ isFile with ⟨isTarget, rfl⟩ | ⟨isOld, found⟩
      · change candidates (Function.update tree.contents tree.freshInode content tree.freshInode)
        rw [Function.update_self]
        exact isCandidate name isLone
          (.inl (List.append_cancel_left (same.symm.trans isTarget.symm)))
      · rw [Tree.create_contents found]
        exact known.contents name inode isLone found
    · rintro names name (isName | ⟨inode, isFile, isNested⟩)
      · exact .inl isName
      · rcases created _ _ isFile with ⟨isTarget, rfl⟩ | ⟨isOld, found⟩
        · rcases created _ _ isNested with ⟨isTarget', _⟩ | ⟨isOld', _⟩
          · exact .inl (List.append_cancel_left (isTarget.trans isTarget'.symm))
          · exact absurd isOld' (Nat.lt_irrefl _)
        · rcases created _ _ isNested with ⟨_, rfl⟩ | ⟨_, found'⟩
          · exact absurd isOld (Nat.lt_irrefl _)
          · exact known.names names name (.inr ⟨inode, found, found'⟩)
  · refine ⟨?_, known.names, present⟩
    intro name inode isLone isFile
    change candidates (Function.update tree.contents other content inode)
    by_cases same : inode = other
    · rw [same, Function.update_self]
      rw [isThere target resolved] at isOther
      rw [same] at isFile
      exact isCandidate name isLone (known.names written name (.inr ⟨other, isOther, isFile⟩))
    · rw [Function.update_of_ne same]
      exact known.contents name inode isLone isFile

section Zip

variable {lone placed : OsName → Prop} {candidates : FileContent → Prop}
  {initial : Tree OsName FileContent}

/-- The first name of an output. -/
def IsFirst (relative : Path OsName) (name : OsName) : Prop :=
  (namesOf relative.components).head? = some name

theorem Known.place
    (known : Known lone candidates directory initial placed tree) {relative : Path OsName}
    (present : ∀ name, IsFirst relative name → tree.get (directory ++ [name]) ≠ none) :
    Known lone candidates directory initial (fun name => placed name ∨ IsFirst relative name)
      tree :=
  ⟨known.contents, known.names, fun name isPlaced =>
    isPlaced.elim (known.present name) (present name)⟩

theorem guaranteed_extractZipEntry {entry : ZipEntry} {relative : Path OsName}
    (notRefused : isRefused path = false) (isOutput : relativePath root path = some relative)
    (isCandidate : safe → entry.isDir = false → ∀ name, lone name →
      IsNested directory initial (namesOf relative.components) name → candidates entry.content)
    (settled : Settled cwd destDir directory links safe tree)
    (passes : safe → PassesNoLink links (!entry.isDir) []
      (if entry.isDir then relative.components else relative.lookedUp))
    (known : Known lone candidates directory initial placed tree) :
    Guaranteed (answers cwd) (StaysInside cwd destDir)
      (extractZipEntry destDir root entry path).run tree fun result tree' =>
        Settled cwd destDir directory links safe tree' ∧
          (result = .ok () → Known lone candidates directory initial
            (fun name => placed name ∨ IsFirst relative name) tree') := by
  have isRelative := relativePath_relative notRefused isOutput
  rw [extractZipEntry, notRefused, isOutput]
  cases isDir : entry.isDir with
  | true =>
      rw [isDir] at passes
      refine guaranteed_withContext.mpr ((guaranteed_outputDir isRelative ⟨rfl, List.prefix_refl _⟩
        settled passes).weaken ?_)
      rintro answer tree' ⟨settled', grows, reaches⟩
      refine ⟨settled', fun returned => (known.grows grows).place fun name first => ?_⟩
      have notEmpty : (destDir.join relative).isEmpty = false := by
        have some_ : relative.components ≠ [] := by
          intro empty
          rw [IsFirst, empty] at first
          cases first
        rw [join_relative isRelative, Path.isEmpty]
        simp [some_]
      have created : answer = .ok () := by
        cases answer with
        | error cause => cases returned
        | ok value => rfl
      rcases reaches created with isEmpty | ⟨location, reached⟩
      · exact absurd (notEmpty.symm.trans isEmpty) Bool.false_ne_true
      rcases settled' with ⟨notAbsolute, lost⟩ | ⟨standing, _, _, isSafe⟩
      · have start := reached.start
        rw [join_relative isRelative, Path.start, notAbsolute] at start
        exact absurd start lost
      · exact reaches_head isRelative reached standing (passes isSafe) first
  | false =>
      rw [isDir] at passes
      have creates (tree : Tree OsName FileContent)
          (settled : Settled cwd destDir directory links safe tree)
          (known : Known lone candidates directory initial placed tree) :
          Guaranteed (answers cwd) (StaysInside cwd destDir)
            (withContext "Failed to create file: " (destDir.join relative)
              (ask (.write (destDir.join relative) entry.content))).run tree fun result tree' =>
            Settled cwd destDir directory links safe tree' ∧
              (result = .ok () → Known lone candidates directory initial
                (fun name => placed name ∨ IsFirst relative name) tree') := by
        refine guaranteed_withContext.mpr fun answer tree' answered => ?_
        rcases settled_write isRelative answered settled passes with ⟨step, settled'⟩
        refine ⟨step, settled', fun returned => ?_⟩
        rcases answered with performed | ⟨rfl, _⟩
        · rw [perform] at performed
          cases wrote : writeFile cwd tree (destDir.join relative) entry.content with
          | error cause =>
              rw [wrote] at performed
              cases performed
              cases returned
          | ok tree'' =>
              rw [wrote] at performed
              cases performed
              rcases writeFile_eq_ok.mp wrote with ⟨_, resolved, _⟩
              have start := (resolve_output isRelative resolved).1
              rcases settled with ⟨notAbsolute, lost⟩ | ⟨reached, _, isKnown, isSafe⟩
              · rw [Path.start, notAbsolute] at start
                exact absurd start lost
              · have written : Known lone candidates directory initial placed tree' := by
                  refine known.write ?_ (isCandidate isSafe isDir) wrote
                  intro location resolved
                  exact (resolve_output isRelative resolved).2 directory reached
                    ((passes isSafe).mono isKnown)
                refine written.place fun name first => ?_
                rcases resolve_head isRelative resolved reached (passes isSafe) first with
                  rfl | present
                · exact writeFile_present wrote resolved
                · exact present_extends (writeFile_extends wrote) present
        · cases returned
      cases isParent : (destDir.join relative).parent with
      | none =>
          simp only [Bool.false_eq_true, if_false, isParent]
          exact creates tree settled known
      | some parent =>
          simp only [Bool.false_eq_true, if_false, isParent]
          refine guaranteed_bind_fallible.mpr (guaranteed_withContext.mpr
            ((guaranteed_outputDir isRelative (parent_isAbove isParent) settled
              fun isSafe => passes_components (passes isSafe)).weaken ?_))
          rintro answer tree' ⟨settled', grows, _⟩
          cases answer with
          | error cause => exact ⟨settled', fun same => by cases same⟩
          | ok value => exact creates tree' settled' (known.grows grows)

/-- The first names of what the entries of a zip put into the destination. -/
def IsPlaced (root : Option (Path OsName)) (entries : List (Option ZipEntry)) (name : OsName) :
    Prop :=
  ∃ path isDir content relative, some ⟨some path, isDir, content⟩ ∈ entries ∧
    relativePath root path = some relative ∧ IsFirst relative name

theorem isPlaced_cons {isDir : Bool} {entries : List (Option ZipEntry)} {name : OsName}
    (isPlaced : IsPlaced root (some ⟨some path, isDir, content⟩ :: entries) name) :
    (∃ relative, relativePath root path = some relative ∧ IsFirst relative name) ∨
      IsPlaced root entries name := by
  rcases isPlaced with ⟨path', isDir', content', relative, member, isOutput, first⟩
  rcases List.mem_cons.mp member with same | member
  · cases same
    exact .inl ⟨relative, isOutput, first⟩
  · exact .inr ⟨path', isDir', content', relative, member, isOutput, first⟩

/-- The names in the destination when all entries have been extracted. -/
def IsTop (directory : Location OsName) (root : Option (Path OsName))
    (entries : List (Option ZipEntry)) (tree : Tree OsName FileContent) (name : OsName) : Prop :=
  tree.get (directory ++ [name]) ≠ none ∨ IsPlaced root entries name

/-- A tar.gz that is extracted when these names are there: no other name is one, and but for
hidden files and checksums there is one name only. -/
structure IsLone (isThere : OsName → Prop) (name : OsName) : Prop where
  isTarGz : isTarGz name = true
  only : ∀ other, isThere other → Infs.isTarGz other = true → other = name
  single : ∃ kept, ∀ other, isThere other → isMetaFile other = false → other = kept

/-- What a zip puts in the place of a nested archive that is extracted. -/
def NestedContent (directory : Location OsName) (root : Option (Path OsName))
    (entries : List (Option ZipEntry)) (tree : Tree OsName FileContent) (content : FileContent) :
    Prop :=
  ∃ name, IsLone (IsTop directory root entries tree) name ∧
    ((∃ inode, tree.get (directory ++ [name]) = some (.file inode) ∧
        tree.contents inode = content) ∨
      ∃ path relative, some ⟨some path, false, content⟩ ∈ entries ∧
        relativePath root path = some relative ∧
        IsNested directory tree (namesOf relative.components) name)

/-- The file that an entry of a zip makes is the content of a nested archive when it has its
name. -/
def Covers (lone : OsName → Prop) (candidates : FileContent → Prop) (directory : Location OsName)
    (root : Option (Path OsName)) (initial : Tree OsName FileContent)
    (entries : List (Option ZipEntry)) : Prop :=
  ∀ path relative content, some ⟨some path, false, content⟩ ∈ entries →
    relativePath root path = some relative → ∀ name, lone name →
      IsNested directory initial (namesOf relative.components) name → candidates content

theorem Known.fewer {placed' : OsName → Prop}
    (known : Known lone candidates directory initial placed tree)
    (fewer : ∀ name, placed' name → placed name) :
    Known lone candidates directory initial placed' tree :=
  ⟨known.contents, known.names, fun name isPlaced => known.present name (fewer name isPlaced)⟩

theorem guaranteed_extractZipEntries {later : Prop}
    (entries : List (Option ZipEntry)) (placed : OsName → Prop) (tree : Tree OsName FileContent)
    (covers : Covers lone candidates directory root initial entries)
    (settled : Settled cwd destDir directory links
      (ZipFollowsNoLink root links entries ∧ later) tree)
    (known : Known lone candidates directory initial placed tree) :
    Guaranteed (answers cwd) (StaysInside cwd destDir)
      (extractZipEntries destDir archive root entries).run tree fun result tree' =>
        StaysSettled cwd destDir directory tree' ∧
          (result = .ok () → Settled cwd destDir directory links later tree' ∧
            Known lone candidates directory initial
              (fun name => placed name ∨ IsPlaced root entries name) tree') := by
  induction entries generalizing placed tree with
  | nil =>
      refine ⟨settled.stays, fun _ => ⟨settled.mono (fun _ isLink => isLink) And.right, ?_⟩⟩
      refine ⟨known.contents, known.names, fun name isPlaced => ?_⟩
      rcases isPlaced with before | ⟨_, _, _, _, member, _⟩
      · exact known.present name before
      · cases member
  | cons entry entries induction =>
      have failed {tree : Tree OsName FileContent} {error : InfsError} {safe : Prop}
          (settled : Settled cwd destDir directory links safe tree) :
          StaysSettled cwd destDir directory tree ∧
            ((Except.error error : Except InfsError Unit) = .ok () →
              Settled cwd destDir directory links later tree ∧
                Known lone candidates directory initial
                  (fun name => placed name ∨ IsPlaced root (entry :: entries) name) tree) :=
        ⟨settled.stays, fun same => by cases same⟩
      have covers' : Covers lone candidates directory root initial entries :=
        fun path relative content member =>
          covers path relative content (List.mem_cons_of_mem _ member)
      rcases entry with _ | ⟨_ | path, isDir, content⟩
      · exact failed settled
      · exact failed settled
      · refine guaranteed_bind_fallible.mpr ?_
        cases refused : isRefused path with
        | true =>
            rw [extractZipEntry, refused]
            exact failed settled
        | false =>
            cases isOutput : relativePath root path with
            | none =>
                rw [extractZipEntry, refused, isOutput]
                refine (induction placed tree covers' (settled.mono (fun _ isLink => isLink) ?_)
                  known).weaken ?_
                · rintro ⟨safe, isLater⟩
                  rw [ZipFollowsNoLink, refused, isOutput] at safe
                  exact ⟨safe.resolve_left Bool.false_ne_true, isLater⟩
                · rintro result tree' ⟨stays, ends⟩
                  refine ⟨stays, fun returned => ⟨(ends returned).1, ?_⟩⟩
                  refine (ends returned).2.fewer fun name isPlaced => isPlaced.imp id ?_
                  intro behind
                  rcases isPlaced_cons behind with ⟨relative, isSome, _⟩ | behind
                  · cases isOutput.symm.trans isSome
                  · exact behind
            | some relative =>
                have split (safe : ZipFollowsNoLink root links
                    (some ⟨some path, isDir, content⟩ :: entries)) :
                    PassesNoLink links (!isDir) []
                        (if isDir then relative.components else relative.lookedUp) ∧
                      ZipFollowsNoLink root links entries := by
                  rw [ZipFollowsNoLink, refused, isOutput] at safe
                  exact safe.resolve_left Bool.false_ne_true
                refine (guaranteed_extractZipEntry refused isOutput ?_ settled
                  (fun safe => (split safe.1).1) known).weaken ?_
                · intro _ isFile name isLone isNested
                  cases isFile
                  exact covers path relative content List.mem_cons_self isOutput name isLone
                    isNested
                · rintro result tree' ⟨settled', known'⟩
                  cases result with
                  | error error => exact failed settled'
                  | ok value =>
                      refine (induction _ tree' covers' (settled'.mono (fun _ isLink => isLink)
                        fun safe => ⟨(split safe.1).2, safe.2⟩) (known' rfl)).weaken ?_
                      rintro result tree'' ⟨stays, ends⟩
                      refine ⟨stays, fun returned => ⟨(ends returned).1, ?_⟩⟩
                      refine (ends returned).2.fewer fun name isPlaced => ?_
                      rcases isPlaced with before | behind
                      · exact .inl (.inl before)
                      · rcases isPlaced_cons behind with ⟨relative', isSome, first⟩ | behind
                        · cases isOutput.symm.trans isSome
                          exact .inl (.inr first)
                        · exact .inr behind

/-- Nested archives that are extracted are safe, as far as they are known. -/
structure NestedIsSafe (readers : ArchiveReaders) (links : List OsName → Prop)
    (lone : OsName → Prop) (candidates : FileContent → Prop) : Prop where
  notLink : ∀ name, lone name → ¬ links [name]
  contents : ∀ content, candidates content → ContentIsSafe readers links content

theorem nested_isSafe {name : OsName}
    (settled : Settled cwd destDir directory links
      (NestedIsSafe readers links lone candidates) tree)
    (known : Known lone candidates directory initial placed tree)
    (isLone : Reaches cwd tree destDir directory → lone name) :
    Settled cwd destDir directory links
      (TarIsSafe cwd readers (destDir.joinName name) links tree) tree := by
  rcases settled with lost | ⟨reached, standing, isKnown, isSafe⟩
  · exact .inl lost
  · refine .inr ⟨reached, standing, isKnown, fun content read => ?_⟩
    rcases readFile_eq_ok.mp read with ⟨location, inode, resolved, isFile, rfl⟩
    have passes : PassesNoLink (LinkAt tree directory) true [] (Path.ofName name).lookedUp :=
      ⟨fun _ isLink => isSafe.notLink name (isLone reached) (isKnown _ isLink), trivial⟩
    have isRelative : (Path.ofName name).absolute = false := rfl
    rw [(resolve_output isRelative resolved).2 directory reached passes] at isFile
    exact isSafe.contents _ (known.contents name inode (isLone reached) isFile)

end Zip

/-- Removing an entry of the destination. -/
theorem guaranteed_removeEntry (name : OsName)
    (settled : StaysSettled cwd destDir directory tree) :
    Guaranteed (answers cwd) (StaysInside cwd destDir)
      (ignoringErrors (ask (.removeFile (destDir.joinName name)))) tree fun _ tree' =>
        StaysSettled cwd destDir directory tree' := by
  rcases settled with ⟨links, settled⟩
  have anywhere : Settled cwd destDir directory (fun _ => True) True tree :=
    settled.mono (fun _ _ => trivial) fun _ => trivial
  have isRelative : (Path.ofName name).absolute = false := rfl
  have isLinking : IsLinking (destDir.join (Path.ofName name))
      (.removeFile (destDir.joinName name)) := rfl
  have passes : PassesNoLink (fun _ => True) false [] (Path.ofName name).lookedUp :=
    ⟨fun follows => by simp at follows, trivial⟩
  intro answer tree' answered
  rcases settled_link isRelative isLinking answered anywhere (fun _ => passes) trivial with
    ⟨step, settled'⟩
  exact ⟨step, settled'.stays⟩

/-- A nested archive that is extracted is the lone one among the names that are there. -/
theorem isLone_of_children {names : OsName → Prop} {tarGz other : OsName}
    (present : ∀ name, names name → tree.get (directory ++ [name]) ≠ none)
    (archives : (tree.children directory).filter isTarGz = [tarGz])
    (others : ((tree.children directory).filter fun entry => !isMetaFile entry) = [other]) :
    IsLone names tarGz := by
  have listed (name : OsName) (isThere : names name) : name ∈ tree.children directory :=
    Tree.mem_children.mpr (present name isThere)
  refine ⟨?_, ?_, other, ?_⟩
  · have member : tarGz ∈ (tree.children directory).filter isTarGz := by
      rw [archives]
      exact List.mem_cons_self
    exact (List.mem_filter.mp member).2
  · intro name isThere isTar
    have member := List.mem_filter.mpr ⟨listed name isThere, isTar⟩
    rw [archives] at member
    exact List.mem_singleton.mp member
  · intro name isThere notMeta
    have member : name ∈ (tree.children directory).filter fun entry => !isMetaFile entry :=
      List.mem_filter.mpr ⟨listed name isThere, by rw [notMeta]; rfl⟩
    rw [others] at member
    exact List.mem_singleton.mp member

theorem guaranteed_extractNested (unpacks : UnpacksInPlace cwd readers)
    {candidates : FileContent → Prop} {initial : Tree OsName FileContent} {names : OsName → Prop}
    (settled : Settled cwd destDir directory links
      (NestedIsSafe readers links (IsLone names) candidates) tree)
    (known : Known (IsLone names) candidates directory initial names tree) :
    Guaranteed (answers cwd) (StaysInside cwd destDir)
      (extractNestedTarGzIfPresent readers destDir).run tree fun _ tree' =>
        StaysSettled cwd destDir directory tree' := by
  refine guaranteed_context ((observes_ask (.readDir destDir) rfl).guaranteed staysInside_refl ?_)
  refine fun answer listed => ⟨settled.stays, fun entries returned => ?_⟩
  dsimp only
  split
  next tarGz other archives others =>
    have isLone (reached : Reaches cwd tree destDir directory) :
        IsLone names tarGz := by
      have children : entries = tree.children directory := by
        rcases listed with rfl | rfl
        · rcases readDir_eq_ok.mp returned with ⟨location, resolved, _, children⟩
          cases resolved.symm.trans (reached.resolves (walk_of_resolve resolved).1)
          exact children
        · cases returned
      rw [children] at archives others
      exact isLone_of_children known.present archives others
    refine guaranteed_bind_fallible.mpr ((guaranteed_extractTarGz unpacks
      (nested_isSafe settled known isLone)).weaken ?_)
    intro result tree' settled'
    cases result with
    | error error => exact settled'
    | ok value =>
        refine guaranteed_bind_fallible.mpr (guaranteed_lift.mpr
          ((guaranteed_removeEntry tarGz settled').weaken ?_))
        intro _ tree'' settled''
        refine (observes_pathExists _).guaranteed_bind_lift staysInside_refl fun found _ => ?_
        split
        · exact guaranteed_lift.mpr (guaranteed_removeEntry (checksumName tarGz) settled'')
        · exact settled''
  next => exact settled.stays

end Programs

/-! ## Whole extractions -/

/-- Where the destination is, when it has been created. -/
def Landed (cwd : Location OsName) (destDir : Path OsName)
    (tree : Tree OsName FileContent) : Prop :=
  destDir.absolute = false ∧ ¬ Rooted tree cwd ∨
    ∃ directory, Reaches cwd tree destDir directory

theorem guaranteed_createDest (tree : Tree OsName FileContent) :
    Guaranteed (answers cwd) (StaysInside cwd destDir)
      (createDirAll destDir) tree fun result tree' =>
        tree.Grows tree' ∧ (result = .ok () → Landed cwd destDir tree') := by
  refine (guaranteed_createDirAllFrom _ destDir tree staysInside_refl ?_).weaken ?_
  · intro above isAbove tree answer tree' answered
    exact (changesWithin_answers answered).mono fun location touched =>
      .inl ⟨above, isAbove, touched⟩
  · rintro result tree' ⟨grows, ends⟩
    refine ⟨grows, fun same => ?_⟩
    rcases ends same with isEmpty | reached
    · rw [Path.isEmpty, Bool.and_eq_true, Bool.not_eq_true'] at isEmpty
      rcases isEmpty with ⟨notAbsolute, noComponents⟩
      by_cases rooted : Rooted tree' cwd
      · have start : destDir.start cwd = cwd := by
          rw [Path.start, notAbsolute]
          rfl
        refine .inr ⟨cwd, ?_, ?_, rooted⟩
        · rw [start]
          exact rooted
        · rw [start, List.isEmpty_iff.mp noComponents]
          exact walk_nil
      · exact .inl ⟨notAbsolute, rooted⟩
    · exact .inr reached

theorem settled_of_landed {safe : Location OsName → Prop}
    (landed : Landed cwd destDir tree)
    (isSafe : ∀ directory, Reaches cwd tree destDir directory →
      IsStanding cwd destDir tree directory ∧ safe directory) :
    ∃ directory, Settled cwd destDir directory (LinkAt tree directory)
      (safe directory) tree := by
  rcases landed with lost | ⟨directory, reached⟩
  · exact ⟨[], .inl lost⟩
  · rcases isSafe directory reached with ⟨standing, holds⟩
    exact ⟨directory, .inr ⟨reached, standing, fun _ isLink => isLink, holds⟩⟩

/-- A zip that puts nothing on or behind a link, nor does what it may leave as a nested archive. -/
def ZipIsSafe (readers : ArchiveReaders) (directory : Location OsName)
    (tree : Tree OsName FileContent) (entries : List (Option ZipEntry)) : Prop :=
  ZipFollowsNoLink (findCommonRootFolder entries .start) (LinkAt tree directory) entries ∧
    NestedIsSafe readers (LinkAt tree directory)
      (IsLone (IsTop directory (findCommonRootFolder entries .start) entries tree))
      (NestedContent directory (findCommonRootFolder entries .start) entries tree)

/-- No entry is put on or behind a link, be it of the archive or of the destination. The second tree
is the one in which the destination has been created. -/
def ArchiveIsSafe (cwd : Location OsName) (readers : ArchiveReaders)
    (archive : Path OsName) (tree tree' : Tree OsName FileContent) (directory : Location OsName) :
    Prop :=
  if isTarArchive archive then
    TarIsSafe cwd readers archive (LinkAt tree' directory) tree'
  else ∀ content entries, readFile cwd tree archive = .ok content →
    readers.readZip content = some entries → ZipIsSafe readers directory tree' entries

/-- Unpacking over entries that are not there yet. -/
def unpackNew (entry : TarEntry) (path : Path OsName) : Asking (Except ErrorKind Unit) :=
  match entry.entryType with
  | .directory => pure (.ok ())
  | .regular content => ask (.write path content)
  | .symlink target => ask (.symlink target path)
  | .hardLink source => ask (.hardLink source path)

/-- The readers of one tar.gz and one zip. -/
def readersOf (tarEntries : List (Option TarEntry)) (zipEntries : List (Option ZipEntry)) :
    ArchiveReaders where
  readTar := fun _ => some tarEntries
  readZip := fun _ => some zipEntries
  unpack := unpackNew

theorem unpackNew_inPlace (cwd : Location OsName)
    (tarEntries : List (Option TarEntry)) (zipEntries : List (Option ZipEntry)) :
    UnpacksInPlace cwd (readersOf tarEntries zipEntries) := by
  constructor
  · rintro ⟨path, entryType⟩ outputPath tree notLink
    cases entryType with
    | directory => trivial
    | regular content =>
        intro answer tree' answered
        exact ⟨.inr ⟨content, answer, answered⟩, trivial⟩
    | symlink target => cases notLink
    | hardLink source => cases notLink
  · rintro ⟨path, entryType⟩ outputPath tree isLink
    cases entryType with
    | directory => cases isLink
    | regular content => cases isLink
    | symlink target =>
        intro answer tree' answered
        exact ⟨.inr ⟨_, answer, rfl, answered⟩, trivial⟩
    | hardLink source =>
        intro answer tree' answered
        exact ⟨.inr ⟨_, answer, rfl, answered⟩, trivial⟩

/-- An archive of each kind, a destination and another directory. -/
def downloaded : Tree OsName FileContent where
  nodes :=
    [([textName "dest"], .dir), ([textName "out"], .dir), ([textName "a.tar.gz"], .file 0),
      ([textName "a.zip"], .file 1)]
  contents := fun _ => .bytes []

def inRoot (name : String) : Path OsName := ⟨true, [.named (textName name)], false⟩

def regularEntry (names : List String) : Option TarEntry :=
  some ⟨some ⟨false, names.map fun name => .named (textName name), false⟩, .regular (.bytes [])⟩

theorem downloaded_reaches : Reaches [] downloaded (inRoot "dest") [textName "dest"] := by
  have isDir : downloaded.get [textName "dest"] = some .dir := by decide +kernel
  exact ⟨rooted_root _, by decide +kernel, (rooted_root _).child isDir⟩

/-- A file behind a link that the archive has made. -/
def linkedEntries : List (Option TarEntry) :=
  [some ⟨some (Path.ofName (textName "link")), .symlink (inRoot "out")⟩,
    regularEntry ["link", "evil"], regularEntry ["readme"]]

/-- The tree when the link has been made. -/
def withLink : Tree OsName FileContent :=
  downloaded.set [textName "dest", textName "link"] (.link (inRoot "out"))

theorem withLink_outside :
    ¬ MayExtract [] (inRoot "dest") withLink [textName "out", textName "evil"] := by
  have absent : withLink.get [textName "out", textName "evil"] = none := by decide +kernel
  have notCreated : ∀ above ∈ [inRoot "dest", ⟨true, [], false⟩],
      resolve [] withLink false above ≠ .ok [textName "out", textName "evil"] := by decide +kernel
  rintro (⟨⟨_, components, trailing⟩, ⟨rfl, isFront⟩, resolved, _⟩ |
    ⟨directory, reached, inside | ⟨inode, other, _, _, isFile⟩⟩)
  · rcases List.prefix_concat_iff.mp (show components <+: [] ++ [.named (textName "dest")] from
      isFront) with rfl | isEmpty
    · exact notCreated _ List.mem_cons_self resolved
    · cases List.prefix_nil.mp isEmpty
      exact notCreated _ (List.mem_cons_of_mem _ List.mem_cons_self) resolved
  · have isDest : Reaches [] withLink (inRoot "dest") [textName "dest"] :=
      downloaded_reaches.extends (Tree.set_extends (by decide +kernel))
    rw [reached.unique isDest] at inside
    revert inside
    decide +kernel
  · cases absent.symm.trans isFile

/-- A link and a file beside it. -/
def besideLink : List (Option TarEntry) :=
  [some ⟨some (Path.ofName (textName "link")), .symlink (inRoot "out")⟩, regularEntry ["readme"]]

def zippedFile (name : String) : Option ZipEntry :=
  some ⟨some (Path.ofName (textName name)), false, .bytes []⟩

/-- A nested archive that is not extracted, because there is another file beside it. -/
def besideNested : List (Option ZipEntry) :=
  [zippedFile "evil.tar.gz", zippedFile "readme"]

section Downloaded

variable {tree' : Tree OsName FileContent} (grows : downloaded.Grows tree')

include grows

theorem downloaded_stands : IsStanding [] (inRoot "dest") tree' [textName "dest"] := by
  have isDir : tree'.get [textName "dest"] = some .dir := grows.kept _ _ (by decide +kernel)
  have isKept : (tree'.erase fun location =>
      below [textName "dest"] location && tree'.get location ≠ some .dir).get [textName "dest"] =
        some .dir := by
    rw [Tree.get_erase _ _ _ (List.cons_ne_nil _ _), isDir]
    simp [below]
  exact ⟨rooted_root _, (walk_named_dir isKept).trans walk_nil, (rooted_root _).child isKept⟩

theorem downloaded_noLink {name : OsName}
    (absent : downloaded.get [textName "dest", name] = none) :
    ¬ LinkAt tree' [textName "dest"] [name] := by
  rintro ⟨target, isLink⟩
  rcases grows.directories _ _ isLink with found | ⟨_, isDir⟩
  · cases absent.symm.trans found
  · cases isDir

theorem besideLink_isSafe (content : FileContent) :
    ContentIsSafe (readersOf besideLink []) (LinkAt tree' [textName "dest"]) content := by
  intro entries root listed found
  cases listed
  have noRoot : findCommonRootFolderTar besideLink .start = .ok none := by decide +kernel
  cases noRoot.symm.trans found
  refine .inr ⟨⟨fun follows => ?_, trivial⟩, .inr ⟨⟨fun _ => ?_, trivial⟩, trivial⟩⟩
  · rcases follows with more | follows
    · exact absurd rfl more
    · cases follows
  · rintro ((isLink | ⟨_, same⟩) | ⟨isLink, _⟩)
    · exact downloaded_noLink grows (by decide +kernel) isLink
    · revert same
      decide +kernel
    · cases isLink

theorem besideNested_isSafe :
    ZipIsSafe (readersOf linkedEntries besideNested) [textName "dest"] tree' besideNested := by
  have noRoot : findCommonRootFolder besideNested .start = none := by decide +kernel
  rw [ZipIsSafe, noRoot]
  have noneLone (name : OsName) :
      ¬ IsLone (IsTop [textName "dest"] none besideNested tree') name := by
    rintro ⟨_, _, kept, single⟩
    have isArchive := single (textName "evil.tar.gz")
      (.inr ⟨_, _, _, _, List.mem_cons_self, rfl, rfl⟩) (by decide +kernel)
    have isReadme := single (textName "readme")
      (.inr ⟨_, _, _, _, List.mem_cons_of_mem _ List.mem_cons_self, rfl, rfl⟩) (by decide +kernel)
    have same := isArchive.trans isReadme.symm
    revert same
    decide +kernel
  refine ⟨.inr ⟨⟨fun _ => ?_, trivial⟩, .inr ⟨⟨fun _ => ?_, trivial⟩, trivial⟩⟩, ?_, ?_⟩
  · exact downloaded_noLink grows (by decide +kernel)
  · exact downloaded_noLink grows (by decide +kernel)
  · exact fun name isLone => absurd isLone (noneLone name)
  · rintro content ⟨name, isLone, _⟩
    exact absurd isLone (noneLone name)

end Downloaded

end Inference.Infs
