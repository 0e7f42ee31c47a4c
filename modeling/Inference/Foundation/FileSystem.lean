import Mathlib.Data.List.Dedup
import Mathlib.Data.List.Infix
import Mathlib.Logic.Function.Basic

/-! # A file system with links

A tree holds directories, files and symbolic links. A location is the list of names that leads to an
entry from the root of the tree, without links. A path is what a program writes; it is resolved
against the tree, one component after another, and a link on the way is replaced by its target. Files
have inodes, so that two entries can be one file.
-/

namespace Inference.FileSystem

inductive Component (Name : Type)
  | current
  | parent
  | named (name : Name)
  deriving DecidableEq, Repr

def Component.isCurrent {Name : Type} : Component Name → Bool
  | .current => true
  | _ => false

/-- A path with its separators taken out. `trailing` says that it ends in one behind its last
component. -/
structure Path (Name : Type) where
  absolute : Bool
  components : List (Component Name)
  trailing : Bool
  deriving DecidableEq, Repr

abbrev Location (Name : Type) := List Name

abbrev Inode := Nat

inductive Node (Name : Type)
  | dir
  | file (inode : Inode)
  | link (target : Path Name)
  deriving DecidableEq, Repr

structure Tree (Name Content : Type) where
  nodes : List (Location Name × Node Name)
  contents : Inode → Content

/-- The kinds of errors that programs tell apart. -/
inductive ErrorKind
  | notFound
  | alreadyExists
  | notADirectory
  | isADirectory
  | directoryNotEmpty
  | invalidInput
  | invalidData
  | filesystemLoop
  | other
  deriving DecidableEq, Repr

variable {Name Content : Type}

namespace Path

/-- The path of one name. -/
def ofName (name : Name) : Path Name := ⟨false, [.named name], false⟩

/-- An absolute path replaces what it is joined to. Joining the empty path adds a separator. -/
def join (path other : Path Name) : Path Name :=
  if other.absolute then other
  else ⟨path.absolute, path.components ++ other.components,
    other.components.isEmpty || other.trailing⟩

def joinName (path : Path Name) (name : Name) : Path Name :=
  path.join (ofName name)

def isEmpty (path : Path Name) : Bool :=
  !path.absolute && path.components.isEmpty

/-- Where a path starts that is looked up in a directory. -/
def start (path : Path Name) (here : Location Name) : Location Name :=
  if path.absolute then [] else here

/-- What is looked up: behind a trailing separator there has to be a directory. -/
def lookedUp (path : Path Name) : List (Component Name) :=
  if path.trailing then path.components ++ [.current] else path.components

end Path

variable [DecidableEq Name]

variable {location : Location Name}

namespace Tree

/-- The entry at a location. The root is a directory. -/
def get (tree : Tree Name Content) (location : Location Name) : Option (Node Name) :=
  if location = [] then some .dir else tree.nodes.lookup location

def set (tree : Tree Name Content) (location : Location Name) (node : Node Name) :
    Tree Name Content :=
  { tree with nodes := (location, node) :: tree.nodes }

/-- Takes out the entries at some locations. -/
def erase (tree : Tree Name Content) (gone : Location Name → Bool) : Tree Name Content :=
  { tree with nodes := tree.nodes.filter fun entry => !gone entry.1 }

def setContents (tree : Tree Name Content) (inode : Inode) (written : Content) :
    Tree Name Content :=
  { tree with contents := Function.update tree.contents inode written }

/-- An inode above those of all files. -/
def freshInode (tree : Tree Name Content) : Inode :=
  tree.nodes.foldr (fun entry fresh =>
    match entry.2 with
    | .file inode => max (inode + 1) fresh
    | _ => fresh) 0

/-- A new file. -/
def create (tree : Tree Name Content) (location : Location Name) (written : Content) :
    Tree Name Content :=
  (tree.setContents tree.freshInode written).set location (.file tree.freshInode)

/-- The names in a directory. -/
def children (tree : Tree Name Content) (location : Location Name) : List Name :=
  (tree.nodes.filterMap fun entry =>
    match entry.1.getLast? with
    | some name => if entry.1.dropLast = location then some name else none
    | none => none).dedup

theorem get_root (tree : Tree Name Content) : tree.get [] = some .dir := rfl

theorem get_set (tree : Tree Name Content) (location other : Location Name) (node : Node Name)
    (notRoot : location ≠ []) :
    (tree.set location node).get other =
      if other = location then some node else tree.get other := by
  rw [get, get]
  by_cases root : other = []
  · subst root
    rw [if_pos rfl, if_neg notRoot.symm, if_pos rfl]
  · rw [if_neg root, if_neg root]
    change ((location, node) :: tree.nodes).lookup other = _
    rw [List.lookup_cons]
    by_cases same : other = location
    · rw [if_pos same, same, beq_self_eq_true]
    · rw [if_neg same, beq_eq_false_iff_ne.mpr same]

theorem get_create (tree : Tree Name Content) (location other : Location Name) (written : Content)
    (notRoot : location ≠ []) :
    (tree.create location written).get other =
      if other = location then some (.file tree.freshInode) else tree.get other :=
  get_set (tree.setContents tree.freshInode written) location other _ notRoot

theorem get_setContents (tree : Tree Name Content) (inode : Inode) (written : Content)
    (location : Location Name) : (tree.setContents inode written).get location =
      tree.get location :=
  rfl

theorem lookup_filter {key value : Type} [BEq key] [LawfulBEq key] (entries : List (key × value))
    (gone : key → Bool) (sought : key) :
    (entries.filter fun entry => !gone entry.1).lookup sought =
      if gone sought then none else entries.lookup sought := by
  induction entries with
  | nil => simp
  | cons entry rest induction =>
      rcases entry with ⟨key, value⟩
      rw [List.filter_cons, List.lookup_cons]
      by_cases same : sought = key
      · subst same
        cases isGone : gone sought with
        | true =>
            simp only [Bool.not_true, Bool.false_eq_true, if_false, induction, isGone, if_true]
        | false =>
            simp only [Bool.not_false, if_true, List.lookup_cons, beq_self_eq_true,
              Bool.false_eq_true, if_false]
      · rw [beq_eq_false_iff_ne.mpr same]
        cases gone key with
        | true =>
            simp only [Bool.not_true, Bool.false_eq_true, if_false]
            exact induction
        | false =>
            simp only [Bool.not_false, if_true, List.lookup_cons,
              beq_eq_false_iff_ne.mpr same]
            exact induction

theorem get_erase (tree : Tree Name Content) (gone : Location Name → Bool)
    (location : Location Name) (notRoot : location ≠ []) :
    (tree.erase gone).get location =
      if gone location then none else tree.get location := by
  rw [get, get, if_neg notRoot, if_neg notRoot]
  exact lookup_filter tree.nodes gone location

theorem lookup_isSome_iff {key value : Type} [BEq key] [LawfulBEq key] (entries : List (key × value))
    (sought : key) :
    entries.lookup sought ≠ none ↔ ∃ entry ∈ entries, entry.1 = sought := by
  induction entries with
  | nil => simp
  | cons entry rest induction =>
      rcases entry with ⟨key, value⟩
      rw [List.lookup_cons]
      by_cases same : sought = key
      · subst same
        simp
      · rw [beq_eq_false_iff_ne.mpr same]
        simp only [List.mem_cons, exists_eq_or_imp]
        rw [induction]
        constructor
        · exact .inr
        · rintro (here | later)
          · exact absurd here.symm same
          · exact later

theorem lt_freshInode {tree : Tree Name Content} {inode : Inode}
    (isFile : tree.get location = some (.file inode)) : inode < tree.freshInode := by
  rw [get] at isFile
  split at isFile
  · cases isFile
  · rw [freshInode]
    generalize tree.nodes = nodes at isFile
    induction nodes with
    | nil => cases isFile
    | cons entry rest induction =>
        rcases entry with ⟨here, node⟩
        rw [List.lookup_cons] at isFile
        rw [List.foldr_cons]
        split at isFile
        · cases isFile
          exact Nat.lt_of_lt_of_le (Nat.lt_succ_self inode) (Nat.le_max_left _ _)
        · have below := induction isFile
          cases node with
          | file other => exact Nat.lt_of_lt_of_le below (Nat.le_max_right _ _)
          | dir => exact below
          | link target => exact below

theorem mem_children {tree : Tree Name Content} {child : Name} :
    child ∈ tree.children location ↔ tree.get (location ++ [child]) ≠ none := by
  have notRoot : location ++ [child] ≠ [] := by
    simp
  rw [children, List.mem_dedup, List.mem_filterMap, get, if_neg notRoot, lookup_isSome_iff]
  constructor
  · rintro ⟨entry, member, found⟩
    refine ⟨entry, member, ?_⟩
    rcases List.eq_nil_or_concat entry.1 with empty | ⟨front, last, split⟩
    · rw [empty] at found
      cases found
    · rw [split, List.concat_eq_append, List.getLast?_concat, List.dropLast_concat] at found
      dsimp only at found
      split at found
      next isParent =>
        cases found
        rw [split, List.concat_eq_append, isParent]
      next => cases found
  · rintro ⟨entry, member, isChild⟩
    refine ⟨entry, member, ?_⟩
    rw [isChild, List.getLast?_concat, List.dropLast_concat]
    dsimp only
    rw [if_pos rfl]

end Tree

/-! ## Resolving paths -/

/-- How many links a path may lead over. -/
def maxLinks : Nat := 40

/-- Follows components from a directory. The last one need not exist, and is only followed as a link
when `follow` says so. Behind a link, `jump` goes on. -/
def walkWith (tree : Tree Name Content) (follow : Bool)
    (jump : Location Name → List (Component Name) → Except ErrorKind (Location Name)) :
    Location Name → List (Component Name) → Except ErrorKind (Location Name)
  | here, [] => .ok here
  | here, .current :: rest => walkWith tree follow jump here rest
  | here, .parent :: rest => walkWith tree follow jump here.dropLast rest
  | here, .named name :: rest =>
      match tree.get (here ++ [name]) with
      | none => if rest.isEmpty then .ok (here ++ [name]) else .error .notFound
      | some .dir => walkWith tree follow jump (here ++ [name]) rest
      | some (.file _) => if rest.isEmpty then .ok (here ++ [name]) else .error .notADirectory
      | some (.link target) =>
          if rest.isEmpty && !follow then .ok (here ++ [name])
          else jump (target.start here) (target.lookedUp ++ rest)

/-- Follows components over at most so many links. -/
def walk (tree : Tree Name Content) (follow : Bool) :
    (links : Nat) → Location Name → List (Component Name) → Except ErrorKind (Location Name)
  | 0 => walkWith tree follow fun _ _ => .error .filesystemLoop
  | links + 1 => walkWith tree follow (walk tree follow links)

/-- Whether a location is a directory, and so are those above it. -/
def Tree.isRooted (tree : Tree Name Content) (here : Location Name) : Bool :=
  here.inits.all fun above => tree.get above = some .dir

/-- The location a path denotes, seen from a working directory. The last component need not
exist. -/
def resolve (cwd : Location Name) (tree : Tree Name Content) (follow : Bool)
    (path : Path Name) : Except ErrorKind (Location Name) :=
  if path.isEmpty || !tree.isRooted (path.start cwd) then .error .notFound
  else walk tree follow maxLinks (path.start cwd) path.lookedUp

section Walking

variable {tree : Tree Name Content} {follow : Bool} {links : Nat} {here : Location Name}
  {name : Name} {rest : List (Component Name)}

theorem walk_nil : walk tree follow links here [] = .ok here := by
  cases links <;> rfl

theorem walk_current :
    walk tree follow links here (.current :: rest) = walk tree follow links here rest := by
  cases links <;> rfl

theorem walk_parent :
    walk tree follow links here (.parent :: rest) = walk tree follow links here.dropLast rest := by
  cases links <;> rfl

theorem walk_named_none (absent : tree.get (here ++ [name]) = none) :
    walk tree follow links here (.named name :: rest) =
      if rest.isEmpty then .ok (here ++ [name]) else .error .notFound := by
  cases links <;> rw [walk, walkWith, absent]

theorem walk_named_dir (isDir : tree.get (here ++ [name]) = some .dir) :
    walk tree follow links here (.named name :: rest) =
      walk tree follow links (here ++ [name]) rest := by
  cases links <;> rw [walk, walkWith, isDir]

theorem walk_named_file {inode : Inode} (isFile : tree.get (here ++ [name]) = some (.file inode)) :
    walk tree follow links here (.named name :: rest) =
      if rest.isEmpty then .ok (here ++ [name]) else .error .notADirectory := by
  cases links <;> rw [walk, walkWith, isFile]

variable {target : Path Name}

theorem walk_named_link (isLink : tree.get (here ++ [name]) = some (.link target))
    (followed : (rest.isEmpty && !follow) = false) :
    walk tree follow (links + 1) here (.named name :: rest) =
      walk tree follow links (target.start here) (target.lookedUp ++ rest) := by
  rw [walk, walkWith, isLink]
  dsimp only
  rw [followed]
  rfl

/-- A link that is not followed. -/
theorem walk_unfollowed (isLink : tree.get (here ++ [name]) = some (.link target))
    (last : (rest.isEmpty && !follow) = true) :
    walk tree follow links here (.named name :: rest) = .ok (here ++ [name]) := by
  cases links with
  | zero =>
      rw [walk, walkWith, isLink]
      exact if_pos last
  | succ links =>
      rw [walk, walkWith, isLink]
      exact if_pos last

theorem walk_last_link (isLink : tree.get (here ++ [name]) = some (.link target)) :
    walk tree false links here [.named name] = .ok (here ++ [name]) :=
  walk_unfollowed isLink rfl

/-- One link too many. -/
theorem walk_exhausted (isLink : tree.get (here ++ [name]) = some (.link target))
    (inside : ¬ (rest.isEmpty && !follow) = true) :
    walk tree follow 0 here (.named name :: rest) = .error .filesystemLoop := by
  rw [walk, walkWith, isLink]
  exact if_neg inside

end Walking

/-- Where a walk leads, when it leads anywhere. -/
inductive Walks (tree : Tree Name Content) (follow : Bool) :
    Nat → Location Name → List (Component Name) → Location Name → Prop
  | nil {links here} : Walks tree follow links here [] here
  | current {links here rest location} (walks : Walks tree follow links here rest location) :
      Walks tree follow links here (.current :: rest) location
  | parent {links here rest location}
      (walks : Walks tree follow links here.dropLast rest location) :
      Walks tree follow links here (.parent :: rest) location
  | absent {links here name} (absent : tree.get (here ++ [name]) = none) :
      Walks tree follow links here [.named name] (here ++ [name])
  | dir {links here name rest location} (isDir : tree.get (here ++ [name]) = some .dir)
      (walks : Walks tree follow links (here ++ [name]) rest location) :
      Walks tree follow links here (.named name :: rest) location
  | file {links here name inode} (isFile : tree.get (here ++ [name]) = some (.file inode)) :
      Walks tree follow links here [.named name] (here ++ [name])
  | unfollowed {links here name target} (isLink : tree.get (here ++ [name]) = some (.link target))
      (unfollowed : follow = false) :
      Walks tree follow links here [.named name] (here ++ [name])
  | link {links here name rest location target}
      (isLink : tree.get (here ++ [name]) = some (.link target))
      (followed : (rest.isEmpty && !follow) = false)
      (walks : Walks tree follow links (target.start here) (target.lookedUp ++ rest) location) :
      Walks tree follow (links + 1) here (.named name :: rest) location

variable {components : List (Component Name)}

theorem walks_of_walkWith {tree : Tree Name Content} {follow : Bool} {links : Nat}
    {jump : Location Name → List (Component Name) → Except ErrorKind (Location Name)}
    {here : Location Name}
    (jumps : ∀ {here name rest target}, tree.get (here ++ [name]) = some (.link target) →
      (rest.isEmpty && !follow) = false →
      jump (target.start here) (target.lookedUp ++ rest) = .ok location →
        Walks tree follow links here (.named name :: rest) location)
    (walked : walkWith tree follow jump here components = .ok location) :
    Walks tree follow links here components location := by
  induction components generalizing here with
  | nil =>
      cases walked
      exact .nil
  | cons component rest induction =>
      cases component with
      | current => exact .current (induction walked)
      | parent => exact .parent (induction walked)
      | named name =>
          rw [walkWith] at walked
          split at walked
          next absent =>
            split at walked
            next last =>
              cases walked
              rw [List.isEmpty_iff.mp last]
              exact .absent absent
            next => cases walked
          next isDir => exact .dir isDir (induction walked)
          next isFile =>
            split at walked
            next last =>
              cases walked
              rw [List.isEmpty_iff.mp last]
              exact .file isFile
            next => cases walked
          next isLink =>
            split at walked
            next last =>
              cases walked
              rw [Bool.and_eq_true, List.isEmpty_iff, Bool.not_eq_true'] at last
              rw [last.1]
              exact .unfollowed isLink last.2
            next inside => exact jumps isLink (Bool.eq_false_iff.mpr inside) walked

theorem walks_iff {tree : Tree Name Content} {follow : Bool} {links : Nat}
    {here : Location Name} :
    walk tree follow links here components = .ok location ↔
      Walks tree follow links here components location := by
  constructor
  · intro walked
    induction links generalizing here components with
    | zero => exact walks_of_walkWith (fun _ _ jumped => by cases jumped) walked
    | succ links jumps =>
        exact walks_of_walkWith (fun isLink followed jumped => .link isLink followed (jumps jumped))
          walked
  · intro walks
    induction walks with
    | nil => exact walk_nil
    | current _ walked => exact walk_current.trans walked
    | parent _ walked => exact walk_parent.trans walked
    | absent absent => exact walk_named_none absent
    | dir isDir _ walked => exact (walk_named_dir isDir).trans walked
    | file isFile => exact walk_named_file isFile
    | unfollowed isLink unfollowed => exact walk_unfollowed isLink (by rw [unfollowed]; rfl)
    | link isLink followed _ walked => exact (walk_named_link isLink followed).trans walked

/-- The location is a directory, and so are those above it. -/
def Rooted (tree : Tree Name Content) (here : Location Name) : Prop :=
  ∀ above, above <+: here → tree.get above = some .dir

theorem rooted_root (tree : Tree Name Content) : Rooted tree [] := by
  intro above isPrefix
  rw [List.prefix_nil.mp isPrefix]
  rfl

theorem Rooted.dir {tree : Tree Name Content} {here : Location Name} (rooted : Rooted tree here) :
    tree.get here = some .dir :=
  rooted here (List.prefix_refl here)

theorem Rooted.dropLast {tree : Tree Name Content} {here : Location Name}
    (rooted : Rooted tree here) : Rooted tree here.dropLast :=
  fun above isPrefix => rooted above (isPrefix.trans (List.dropLast_prefix here))

theorem Rooted.child {tree : Tree Name Content} {here : Location Name} {name : Name}
    (rooted : Rooted tree here) (isDir : tree.get (here ++ [name]) = some .dir) :
    Rooted tree (here ++ [name]) := by
  intro above isPrefix
  rcases List.prefix_concat_iff.mp isPrefix with rfl | inFront
  · exact isDir
  · exact rooted above inFront

theorem Rooted.start {tree : Tree Name Content} {here : Location Name} (rooted : Rooted tree here)
    (path : Path Name) : Rooted tree (path.start here) := by
  rw [Path.start]
  split
  · exact rooted_root tree
  · exact rooted

theorem isRooted_iff {tree : Tree Name Content} {here : Location Name} :
    tree.isRooted here = true ↔ Rooted tree here := by
  rw [Tree.isRooted, List.all_eq_true]
  constructor
  · intro holds above isPrefix
    exact of_decide_eq_true (holds above ((List.mem_inits above here).mpr isPrefix))
  · intro rooted above member
    exact decide_eq_true (rooted above ((List.mem_inits above here).mp member))

/-- The front of a path that can be walked leads to a directory. -/
theorem walk_front {tree : Tree Name Content} {follow : Bool} {links : Nat}
    {here : Location Name} {front rest : List (Component Name)}
    (rooted : Rooted tree here) (more : rest ≠ [])
    (walked : walk tree follow links here (front ++ rest) = .ok location) :
    ∃ directory, walk tree true links here front = .ok directory ∧ Rooted tree directory := by
  simp only [walks_iff] at walked ⊢
  -- Where one component is left, it is not in the front.
  have single {front : List (Component Name)} {component : Component Name}
      (split : front ++ rest = [component]) : front = [] := by
    rcases List.append_eq_singleton_iff.mp split with ⟨empty, _⟩ | ⟨_, empty⟩
    · exact empty
    · exact absurd empty more
  generalize split : front ++ rest = components at walked
  induction walked generalizing front with
  | nil => exact absurd (List.append_eq_nil_iff.mp split).2 more
  | current _ induction =>
      cases front with
      | nil => exact ⟨_, .nil, rooted⟩
      | cons head front =>
          rcases List.cons.inj split with ⟨rfl, later⟩
          exact (induction rooted later).imp fun _ found => ⟨.current found.1, found.2⟩
  | parent _ induction =>
      cases front with
      | nil => exact ⟨_, .nil, rooted⟩
      | cons head front =>
          rcases List.cons.inj split with ⟨rfl, later⟩
          exact (induction rooted.dropLast later).imp fun _ found => ⟨.parent found.1, found.2⟩
  | absent => exact ⟨_, single split ▸ .nil, rooted⟩
  | dir isDir _ induction =>
      cases front with
      | nil => exact ⟨_, .nil, rooted⟩
      | cons head front =>
          rcases List.cons.inj split with ⟨rfl, later⟩
          exact (induction (rooted.child isDir) later).imp fun _ found =>
            ⟨.dir isDir found.1, found.2⟩
  | file => exact ⟨_, single split ▸ .nil, rooted⟩
  | unfollowed => exact ⟨_, single split ▸ .nil, rooted⟩
  | @link _ _ _ _ _ target isLink _ _ induction =>
      cases front with
      | nil => exact ⟨_, .nil, rooted⟩
      | cons head front =>
          rcases List.cons.inj split with ⟨rfl, later⟩
          have regrouped := (List.append_assoc target.lookedUp front rest).trans
            (congrArg (target.lookedUp ++ ·) later)
          exact (induction (rooted.start target) regrouped).imp fun _ found =>
            ⟨.link isLink (by simp) found.1, found.2⟩

/-- The second tree has all entries of the first one. -/
def Tree.Extends (tree tree' : Tree Name Content) : Prop :=
  ∀ location node, tree.get location = some node → tree'.get location = some node

theorem Rooted.extends {tree tree' : Tree Name Content} {here : Location Name}
    (rooted : Rooted tree here) (extends_ : tree.Extends tree') : Rooted tree' here :=
  fun above isPrefix => extends_ above .dir (rooted above isPrefix)

/-- What a path leads to is there as long as no entry is taken away. -/
theorem walk_extends {tree tree' : Tree Name Content} {follow : Bool} {links : Nat}
    {here : Location Name} (extends_ : tree.Extends tree')
    (walked : walk tree follow links here components = .ok location)
    (present : tree.get location ≠ none) :
    walk tree' follow links here components = .ok location := by
  rw [walks_iff] at walked ⊢
  induction walked with
  | nil => exact .nil
  | current _ induction => exact .current (induction present)
  | parent _ induction => exact .parent (induction present)
  | absent absent => exact absurd absent present
  | dir isDir _ induction => exact .dir (extends_ _ _ isDir) (induction present)
  | file isFile => exact .file (extends_ _ _ isFile)
  | unfollowed isLink unfollowed => exact .unfollowed (extends_ _ _ isLink) unfollowed
  | link isLink followed _ induction =>
      exact .link (extends_ _ _ isLink) followed (induction present)

end Inference.FileSystem
