import Mathlib

/-!
# Trees of files

A file system without links: directories and files at absolute paths, where whatever exists stands
in a directory.  Operations fail as those of an operating system do.
-/

namespace FileTree

/-- The names on the way from the root. -/
abbrev Path := List String

/-- What stands at a path. -/
inductive Node (Content : Type) where
  | directory
  | file (content : Content)

/-- Kinds of failures. -/
inductive IoError where
  | notFound
  | notADirectory
  | isADirectory
  | alreadyExists
  | invalidInput
  deriving DecidableEq, Repr

/-- A path as a program gives it; one that ends with a separator means a directory. -/
structure Route where
  path : Path
  slash : Bool
  deriving DecidableEq, Repr

/-- Directories and files; the parent of whatever exists is a directory. -/
structure Tree (Content : Type) where
  nodes : AList fun _ : Path => Node Content
  root : nodes.lookup [] = some .directory
  closed : ∀ path, (nodes.lookup path).isSome → nodes.lookup path.dropLast = some .directory

namespace Tree

variable {Content : Type} (tree : Tree Content)

/-- What stands at a path. -/
def lookup (path : Path) : Option (Node Content) := tree.nodes.lookup path

/-- Whether a directory stands at a path. -/
def isDirectory (path : Path) : Bool :=
  match tree.lookup path with
  | some .directory => true
  | _ => false

/-- Whether a file stands at a path. -/
def isFile (path : Path) : Bool :=
  match tree.lookup path with
  | some (.file _) => true
  | _ => false

variable {tree}

theorem isDirectory_iff {path : Path} :
    tree.isDirectory path = true ↔ tree.lookup path = some .directory := by
  unfold isDirectory
  split
  · rename_i found
    simp [found]
  · rename_i other
    simpa using other

variable (tree)

/-- The failure to reach a path at which nothing stands. -/
def missing (path : Path) : IoError :=
  if path.inits.any tree.isFile then .notADirectory else .notFound

/-- Reach what stands at a path. -/
def find (route : Route) : Except IoError (Node Content) :=
  match tree.lookup route.path with
  | some .directory => .ok .directory
  | some (.file content) => if route.slash then .error .notADirectory else .ok (.file content)
  | none => .error (tree.missing route.path)

/-- Read a file. -/
def read (route : Route) : Except IoError Content :=
  match tree.find route with
  | .ok (.file content) => .ok content
  | .ok .directory => .error .isADirectory
  | .error error => .error error

/-- Put something at a path whose parent is a directory. -/
def place (path : Path) (node : Node Content) (parent : tree.isDirectory path.dropLast = true)
    (free : tree.isDirectory path = false) : Tree Content where
  nodes := tree.nodes.insert path node
  root := by
    have different : [] ≠ path := by
      rintro rfl
      have root := isDirectory_iff.mpr tree.root
      rw [free] at root
      exact nomatch root
    rw [AList.lookup_insert_ne different]
    exact tree.root
  closed other found := by
    have parent_kept : other.dropLast ≠ path → tree.nodes.lookup other.dropLast = some .directory →
        (tree.nodes.insert path node).lookup other.dropLast = some .directory := by
      intro different directory
      rw [AList.lookup_insert_ne different]
      exact directory
    by_cases same : other = path
    · subst other
      have directory := isDirectory_iff.mp parent
      apply parent_kept
      · intro itself
        rw [itself, free] at parent
        exact nomatch parent
      · exact directory
    · rw [AList.lookup_insert_ne same] at found
      have directory := tree.closed other found
      apply parent_kept
      · intro below
        have impossible := isDirectory_iff.mpr directory
        rw [below, free] at impossible
        exact nomatch impossible
      · exact directory

/-- Make a directory. -/
def mkdir (path : Path) : Except IoError (Tree Content) :=
  if (tree.lookup path).isSome then .error .alreadyExists
  else
    if free : tree.isDirectory path = false then
      if parent : tree.isDirectory path.dropLast = true then
        .ok (tree.place path .directory parent free)
      else .error (tree.missing path)
    else .error .alreadyExists

/-- Make the directories at the end of a path that are missing. -/
def makeDirs (done : Path) : List String → Tree Content → Except IoError (Tree Content)
  | [], tree => .ok tree
  | name :: names, tree =>
      match tree.mkdir (done ++ [name]) with
      | .ok made => makeDirs (done ++ [name]) names made
      | .error error =>
          if tree.isDirectory (done ++ [name]) then makeDirs (done ++ [name]) names tree
          else .error error

/-- Make the directories of a path that are missing. -/
def createDirAll (path : Path) : Except IoError (Tree Content) := makeDirs [] path tree

/-- Write a file, a new one if there is none. -/
def write (content : Content) (route : Route) : Except IoError (Tree Content) :=
  if free : tree.isDirectory route.path = false then
    if parent : tree.isDirectory route.path.dropLast = true then
      if route.slash then
        .error (if tree.isFile route.path then .notADirectory else .isADirectory)
      else .ok (tree.place route.path (.file content) parent free)
    else .error (tree.missing route.path)
  else .error .isADirectory

/-- Take a file away. -/
def erase (path : Path) (file : tree.isFile path = true) : Tree Content where
  nodes := tree.nodes.erase path
  root := by
    have different : [] ≠ path := by
      rintro rfl
      have root : tree.lookup [] = some .directory := tree.root
      unfold isFile at file
      rw [root] at file
      exact nomatch file
    rw [AList.lookup_erase_ne different]
    exact tree.root
  closed other found := by
    by_cases same : other = path
    · subst other
      rw [AList.lookup_erase] at found
      exact nomatch found
    · rw [AList.lookup_erase_ne same] at found
      have directory : tree.lookup other.dropLast = some .directory := tree.closed other found
      have different : other.dropLast ≠ path := by
        intro below
        unfold isFile at file
        rw [← below, directory] at file
        exact nomatch file
      rw [AList.lookup_erase_ne different]
      exact directory

/-- Remove a file. -/
def removeFile (route : Route) : Except IoError (Tree Content) :=
  match tree.find route with
  | .ok _ =>
      if file : tree.isFile route.path = true then .ok (tree.erase route.path file)
      else .error .isADirectory
  | .error error => .error error

/-- Copy a file; a file copied onto itself is cut off before it is read. -/
def copy (emptied : Content) (source target : Route) : Except IoError (Tree Content) :=
  match tree.find source with
  | .ok (.file content) =>
      tree.write (if source.path = target.path then emptied else content) target
  | .ok .directory => .error .invalidInput
  | .error error => .error error

/-- The paths of what stands in a directory. -/
def children (path : Path) : List Path :=
  tree.nodes.keys.filter fun child => decide (child ≠ [] ∧ child.dropLast = path)

/-- Read a directory. -/
def readDir (route : Route) : Except IoError (List Path) :=
  match tree.find route with
  | .ok .directory => .ok (tree.children route.path)
  | .ok (.file _) => .error .notADirectory
  | .error error => .error error

/-! ## What operations leave behind -/

section Effects

variable {tree} {path : Path} {route : Route} {node : Node Content} {content emptied : Content}

theorem lookup_place {parent : tree.isDirectory path.dropLast = true}
    {free : tree.isDirectory path = false} (other : Path) :
    (tree.place path node parent free).lookup other =
      if other = path then some node else tree.lookup other := by
  by_cases same : other = path
  · rw [if_pos same, same]
    exact AList.lookup_insert _
  · rw [if_neg same]
    exact AList.lookup_insert_ne same

theorem lookup_erase {file : tree.isFile path = true} (other : Path) :
    (tree.erase path file).lookup other = if other = path then none else tree.lookup other := by
  by_cases same : other = path
  · rw [if_pos same, same]
    exact AList.lookup_erase _ _
  · rw [if_neg same]
    exact AList.lookup_erase_ne same

theorem isFile_iff : tree.isFile path = true ↔ ∃ content, tree.lookup path = some (.file content) := by
  unfold isFile
  split
  · rename_i content found
    simp [found]
  · rename_i other
    simpa using other

theorem directory_of_prefix {before after : Path} (found : (tree.lookup (before ++ after)).isSome)
    (below : after ≠ []) : tree.lookup before = some .directory := by
  induction after using List.reverseRecOn with
  | nil => exact absurd rfl below
  | append_singleton names name ih =>
    have parent := tree.closed _ found
    rw [← List.append_assoc, List.dropLast_concat] at parent
    by_cases direct : names = []
    · subst names
      rw [List.append_nil] at parent
      exact parent
    · apply ih _ direct
      exact Option.isSome_iff_exists.mpr ⟨_, parent⟩

theorem missing_eq_notFound (clear : ∀ before, before <+: path → tree.isFile before = false) :
    tree.missing path = .notFound := by
  unfold missing
  rw [if_neg]
  simpa using clear

theorem find_of_lookup_eq_none (absent : tree.lookup route.path = none)
    (clear : ∀ before, before <+: route.path → tree.isFile before = false) :
    tree.find route = .error .notFound := by
  unfold find
  rw [absent]
  exact congrArg Except.error (missing_eq_notFound clear)

theorem find_of_file (found : tree.lookup route.path = some (.file content))
    (plain : route.slash = false) : tree.find route = .ok (.file content) := by
  unfold find
  rw [found]
  simp [plain]

theorem find_of_directory (found : tree.lookup route.path = some .directory) :
    tree.find route = .ok .directory := by
  unfold find
  rw [found]

theorem write_eq_ok (content : Content) (plain : route.slash = false)
    (parent : tree.lookup route.path.dropLast = some .directory)
    (free : tree.lookup route.path ≠ some .directory) :
    ∃ written, tree.write content route = .ok written ∧ ∀ other, written.lookup other =
      if other = route.path then some (.file content) else tree.lookup other := by
  have above := isDirectory_iff.mpr parent
  have here : tree.isDirectory route.path = false := by
    rw [← Bool.not_eq_true, isDirectory_iff]
    exact free
  refine ⟨tree.place route.path (.file content) above here, ?_, lookup_place⟩
  unfold write
  rw [dif_pos here, dif_pos above, plain]
  rfl

theorem removeFile_eq_ok (found : tree.lookup route.path = some (.file content))
    (plain : route.slash = false) :
    ∃ removed, tree.removeFile route = .ok removed ∧ ∀ other, removed.lookup other =
      if other = route.path then none else tree.lookup other := by
  have file := isFile_iff.mpr ⟨content, found⟩
  refine ⟨tree.erase route.path file, ?_, lookup_erase⟩
  unfold removeFile
  rw [find_of_file found plain]
  exact dif_pos file

theorem mkdir_eq_ok (parent : tree.lookup path.dropLast = some .directory)
    (absent : tree.lookup path = none) :
    ∃ made, tree.mkdir path = .ok made ∧ ∀ other, made.lookup other =
      if other = path then some .directory else tree.lookup other := by
  have above := isDirectory_iff.mpr parent
  have free : tree.isDirectory path = false := by
    rw [← Bool.not_eq_true, isDirectory_iff, absent]
    exact nofun
  refine ⟨tree.place path .directory above free, ?_, lookup_place⟩
  unfold mkdir
  rw [absent, if_neg (by simp), dif_pos free, dif_pos above]

theorem makeDirs_eq_ok (names : List String) {done : Path}
    (start : tree.lookup done = some .directory)
    (clear : ∀ before, before <+: done ++ names → tree.isFile before = false) :
    ∃ made, makeDirs done names tree = .ok made ∧ ∀ other, made.lookup other =
      if other <+: done ++ names then some .directory else tree.lookup other := by
  induction names generalizing tree done with
  | nil =>
    refine ⟨tree, rfl, fun other => ?_⟩
    split
    · rename_i before
      rw [List.append_nil] at before
      obtain ⟨rest, rfl⟩ := before
      by_cases whole : rest = []
      · subst rest
        rw [List.append_nil] at start
        exact start
      · exact directory_of_prefix (Option.isSome_iff_exists.mpr ⟨_, start⟩) whole
    · rfl
  | cons name names ih =>
    have shift : done ++ name :: names = done ++ [name] ++ names := by simp
    have next_clear := clear (done ++ [name]) (shift ▸ List.prefix_append _ _)
    cases here : tree.lookup (done ++ [name]) with
    | none =>
      have parent : tree.lookup (done ++ [name]).dropLast = some .directory := by
        rw [List.dropLast_concat]
        exact start
      obtain ⟨made, same, lookups⟩ := mkdir_eq_ok parent here
      have made_clear : ∀ before, before <+: done ++ [name] ++ names →
          made.isFile before = false := by
        intro before on_way
        have old := clear before (shift ▸ on_way)
        unfold isFile at old ⊢
        rw [lookups]
        split <;> rename_i found
        · split at found
          · cases found
          · rw [found] at old
            exact nomatch old
        · rfl
      have made_start : made.lookup (done ++ [name]) = some .directory := by
        rw [lookups, if_pos rfl]
      obtain ⟨final, result, finals⟩ := ih made_start made_clear
      refine ⟨final, ?_, fun other => ?_⟩
      · rw [makeDirs, same]
        exact result
      · rw [finals, shift, lookups]
        split
        · rfl
        · rename_i off
          rw [if_neg]
          rintro rfl
          exact off (List.prefix_append _ _)
    | some node =>
      have directory : tree.lookup (done ++ [name]) = some .directory := by
        cases node with
        | directory => exact here
        | file content =>
          rw [isFile_iff.mpr ⟨content, here⟩] at next_clear
          exact nomatch next_clear
      obtain ⟨final, result, finals⟩ := ih directory (shift ▸ clear)
      refine ⟨final, ?_, shift ▸ finals⟩
      have exists_already : tree.mkdir (done ++ [name]) = .error .alreadyExists := by
        unfold mkdir
        rw [here]
        rfl
      rw [makeDirs, exists_already]
      simp only [isDirectory_iff.mpr directory, if_true]
      exact result

theorem createDirAll_eq_ok (clear : ∀ before, before <+: path → tree.isFile before = false) :
    ∃ made, tree.createDirAll path = .ok made ∧ ∀ other, made.lookup other =
      if other <+: path then some .directory else tree.lookup other :=
  makeDirs_eq_ok path tree.root clear

theorem copy_eq_ok {target : Route} (found : tree.lookup route.path = some (.file content))
    (plain : route.slash = false) (target_plain : target.slash = false)
    (parent : tree.lookup target.path.dropLast = some .directory)
    (free : tree.lookup target.path ≠ some .directory) :
    ∃ copied, tree.copy emptied route target = .ok copied ∧ ∀ other, copied.lookup other =
      if other = target.path then
        some (.file (if route.path = target.path then emptied else content))
      else tree.lookup other := by
  unfold copy
  rw [find_of_file found plain]
  exact write_eq_ok _ target_plain parent free

theorem mem_children {child : Path} : child ∈ tree.children path ↔
    (tree.lookup child).isSome ∧ child ≠ [] ∧ child.dropLast = path := by
  unfold children lookup
  rw [List.mem_filter, AList.lookup_isSome]
  simp [AList.mem_keys]

theorem readDir_eq_ok {entries : List Path} (readable : tree.readDir route = .ok entries) :
    tree.lookup route.path = some .directory ∧ entries = tree.children route.path := by
  unfold readDir find at readable
  cases found : tree.lookup route.path with
  | none =>
    rw [found] at readable
    exact nomatch readable
  | some node =>
    rw [found] at readable
    cases node with
    | directory => exact ⟨rfl, (Except.ok.inj readable).symm⟩
    | file content =>
      dsimp only at readable
      split at readable
      · rename_i impossible
        split at impossible <;> exact nomatch impossible
      · exact nomatch readable
      · exact nomatch readable

theorem nodup_children : (tree.children path).Nodup :=
  tree.nodes.keys_nodup.filter _

end Effects

/-! ## Walks -/

section Walk

variable (skip : Path → Bool) (limit : Nat)

/-- How much stands at and under a path. -/
def below (path : Path) : Nat := tree.nodes.keys.countP fun other => path.isPrefixOf other

/-- Look at the entries of a directory: put directories on a stack, and list files. -/
def scan : List Path → List Path → List Path → List Path × List Path
  | [], stack, found => (stack, found)
  | entry :: entries, stack, found =>
      if limit ≤ found.length then (stack, found)
      else if skip entry then scan entries stack found
      else if tree.isDirectory entry then scan entries (entry :: stack) found
      else scan entries stack (found ++ [entry])

/-- A path lies under one entry of a directory at most, and then properly under the directory. -/
theorem countP_children_le (dir path : Path) :
    (tree.children dir).countP (fun child => child.isPrefixOf path) ≤
      if dir.isPrefixOf path ∧ dir ≠ path then 1 else 0 := by
  have under : ∀ child ∈ (tree.children dir).filter (fun child => child.isPrefixOf path),
      child = path.take (dir.length + 1) ∧ dir <+: path ∧ dir ≠ path := by
    intro child member
    obtain ⟨member, above⟩ := List.mem_filter.mp member
    obtain ⟨_, nonempty, parent⟩ := mem_children.mp member
    have reach : child <+: path := List.isPrefixOf_iff_prefix.mp above
    have length : child.length = dir.length + 1 := by
      rw [← parent, List.length_dropLast]
      have positive := List.length_pos_of_ne_nil nonempty
      omega
    refine ⟨?_, ?_, ?_⟩
    · rw [← length]
      exact List.prefix_iff_eq_take.mp reach
    · rw [← parent]
      exact (List.dropLast_prefix child).trans reach
    · rintro rfl
      have short := reach.length_le
      omega
  rw [List.countP_eq_length_filter]
  have nodup : ((tree.children dir).filter fun child => child.isPrefixOf path).Nodup :=
    nodup_children.filter _
  generalize (tree.children dir).filter (fun child => child.isPrefixOf path) = among at under nodup
  match among with
  | [] => simp
  | [child] =>
    obtain ⟨_, above, proper⟩ := under child List.mem_cons_self
    rw [if_pos ⟨List.isPrefixOf_iff_prefix.mpr above, proper⟩]
    simp
  | first :: second :: rest =>
    have one := (under first List.mem_cons_self).1
    have two := (under second (List.mem_cons_of_mem _ List.mem_cons_self)).1
    rw [one, two] at nodup
    simp at nodup

/-- The entries of a directory have less under them than the directory. -/
theorem sum_below_children {dir : Path} (directory : tree.isDirectory dir = true) :
    ((tree.children dir).map tree.below).sum < tree.below dir := by
  have counted : ∀ keys : List Path,
      ((tree.children dir).map fun child => keys.countP fun path => child.isPrefixOf path).sum ≤
        keys.countP fun path => decide (dir.isPrefixOf path ∧ dir ≠ path) := by
    intro keys
    induction keys with
    | nil => simp
    | cons path keys ih =>
      have split : ∀ kids : List Path,
          (kids.map fun child => (path :: keys).countP fun other => child.isPrefixOf other).sum =
            (kids.map fun child => keys.countP fun other => child.isPrefixOf other).sum +
              kids.countP fun child => child.isPrefixOf path := by
        intro kids
        induction kids with
        | nil => rfl
        | cons kid kids within =>
          rw [List.map_cons, List.sum_cons, within, List.map_cons, List.sum_cons,
            List.countP_cons, List.countP_cons]
          omega
      have one := tree.countP_children_le dir path
      rw [split, List.countP_cons]
      simp only [decide_eq_true_eq]
      omega
  have itself : tree.below dir =
      (tree.nodes.keys.countP fun path => decide (dir.isPrefixOf path ∧ dir ≠ path)) +
        tree.nodes.keys.countP fun path => decide (path = dir) := by
    unfold below
    generalize tree.nodes.keys = keys
    induction keys with
    | nil => rfl
    | cons path keys ih =>
      have here : (if dir.isPrefixOf path then 1 else 0) =
          (if dir.isPrefixOf path ∧ dir ≠ path then 1 else 0) + if path = dir then 1 else 0 := by
        by_cases same : path = dir
        · subst path
          simp
        · simp [same, Ne.symm same]
      simp only [List.countP_cons, ih, decide_eq_true_eq]
      omega
  have present : 0 < tree.nodes.keys.countP fun path => decide (path = dir) := by
    rw [List.countP_pos_iff]
    refine ⟨dir, ?_, by simp⟩
    have found := isDirectory_iff.mp directory
    exact AList.mem_keys.mp (AList.lookup_isSome.mp (Option.isSome_iff_exists.mpr ⟨_, found⟩))
  have strict : ((tree.children dir).map tree.below).sum ≤ _ := counted tree.nodes.keys
  rw [itself]
  omega

theorem sum_below_scan (entries stack found : List Path) :
    ((tree.scan skip limit entries stack found).1.map tree.below).sum ≤
      (entries.map tree.below).sum + (stack.map tree.below).sum := by
  induction entries generalizing stack found with
  | nil => simp [scan]
  | cons entry entries ih =>
    rw [scan]
    split
    · simp
    · split
      · exact (ih stack found).trans (by simp)
      · split
        · have more := ih (entry :: stack) found
          simp only [List.map_cons, List.sum_cons] at more ⊢
          omega
        · exact (ih stack (found ++ [entry])).trans (by simp)

/-- List the files under the directories of a stack, up to a limit. -/
def walk : List Path → List Path → List Path
  | [], found => found
  | dir :: stack, found =>
      if limit ≤ found.length then found
      else
        match _ : tree.readDir { path := dir, slash := false } with
        | .ok entries =>
            walk (tree.scan skip limit entries stack found).1
              (tree.scan skip limit entries stack found).2
        | .error _ => walk stack found
termination_by stack => ((stack.map tree.below).sum, stack.length)
decreasing_by
  · rename_i readable
    apply Prod.Lex.left
    obtain ⟨directory, listed⟩ : tree.lookup dir = some .directory ∧ entries = tree.children dir :=
      readDir_eq_ok readable
    have under := tree.sum_below_children (isDirectory_iff.mpr directory)
    have scanned := tree.sum_below_scan skip limit entries stack found
    rw [listed] at scanned ⊢
    rw [List.map_cons, List.sum_cons]
    omega
  · rw [Prod.lex_def]
    simp only [List.map_cons, List.sum_cons, List.length_cons]
    omega

variable {tree} {skip limit}

/-- A file under a directory is listed unless it, or a directory on the way to it, is skipped. -/
structure Visible (tree : Tree Content) (skip : Path → Bool) (dir path : Path) : Prop where
  file : tree.isFile path = true
  under : dir <+: path
  proper : dir ≠ path
  shown : ∀ between, dir <+: between → dir ≠ between → between <+: path → skip between = false

theorem isFile_of_mem_children {dir entry : Path} (member : entry ∈ tree.children dir)
    (other : tree.isDirectory entry = false) : tree.isFile entry = true := by
  obtain ⟨present, _⟩ := mem_children.mp member
  obtain ⟨node, found⟩ := Option.isSome_iff_exists.mp present
  cases node with
  | directory =>
    rw [isDirectory_iff.mpr found] at other
    exact nomatch other
  | file content => exact isFile_iff.mpr ⟨content, found⟩

theorem children_eq {dir entry : Path} (member : entry ∈ tree.children dir) :
    ∃ name, entry = dir ++ [name] := by
  obtain ⟨_, nonempty, parent⟩ := mem_children.mp member
  refine ⟨entry.getLast nonempty, ?_⟩
  rw [← parent]
  exact (List.dropLast_append_getLast nonempty).symm

/-- What is visible under an entry of a directory is visible under the directory. -/
theorem Visible.of_child {dir entry path : Path} (member : entry ∈ tree.children dir)
    (kept : skip entry = false) (visible : Visible tree skip entry path) :
    Visible tree skip dir path := by
  obtain ⟨name, rfl⟩ := children_eq member
  refine ⟨visible.file, (List.prefix_append dir [name]).trans visible.under, ?_, ?_⟩
  · rintro rfl
    have long := visible.under.length_le
    rw [List.length_append, List.length_singleton] at long
    omega
  · intro between above different reaches
    rcases List.prefix_or_prefix_of_prefix reaches visible.under with short | long
    · obtain ⟨rest, same⟩ := above
      subst between
      cases rest with
      | nil => simp at different
      | cons first rest =>
        have equal : dir ++ first :: rest = dir ++ [name] := by
          apply short.eq_of_length_le
          simp
        rw [equal]
        exact kept
    · by_cases same : dir ++ [name] = between
      · exact same ▸ kept
      · exact visible.shown between long same reaches

/-- What is visible under a directory is one of its entries, or visible under one of them. -/
theorem Visible.exists_child {dir path : Path} (visible : Visible tree skip dir path) :
    ∃ entry ∈ tree.children dir, skip entry = false ∧
      (entry = path ∨ tree.isDirectory entry = true ∧ Visible tree skip entry path) := by
  obtain ⟨rest, rfl⟩ := visible.under
  cases rest with
  | nil => exact absurd (List.append_nil dir).symm visible.proper
  | cons name rest =>
    have split : dir ++ name :: rest = dir ++ [name] ++ rest := by simp
    have longer : dir ≠ dir ++ [name] := by simp
    have kept : skip (dir ++ [name]) = false :=
      visible.shown _ (List.prefix_append _ _) longer (split ▸ List.prefix_append _ _)
    obtain ⟨content, found⟩ := isFile_iff.mp visible.file
    rw [split] at found visible ⊢
    by_cases last : rest = []
    · subst rest
      rw [List.append_nil] at found ⊢
      refine ⟨dir ++ [name], mem_children.mpr ⟨?_, by simp, by simp⟩, kept, .inl rfl⟩
      rw [found]
      rfl
    · have directory : tree.lookup (dir ++ [name]) = some .directory :=
        directory_of_prefix (by rw [found]; rfl) last
      refine ⟨dir ++ [name], mem_children.mpr ⟨?_, by simp, by simp⟩, kept, .inr ⟨?_, ?_⟩⟩
      · rw [directory]
        rfl
      · exact isDirectory_iff.mpr directory
      · refine ⟨visible.file, List.prefix_append _ _, by simpa using last, ?_⟩
        intro between above _ reaches
        apply visible.shown between ((List.prefix_append _ _).trans above) _ reaches
        rintro rfl
        have long := above.length_le
        rw [List.length_append, List.length_singleton] at long
        omega

/-- What a scan adds: directories to the stack, and files to the list. -/
theorem mem_scan (entries stack found : List Path) :
    (∀ dir ∈ (tree.scan skip limit entries stack found).1, dir ∈ stack ∨
      dir ∈ entries ∧ skip dir = false ∧ tree.isDirectory dir = true) ∧
    ∀ path ∈ (tree.scan skip limit entries stack found).2, path ∈ found ∨
      path ∈ entries ∧ skip path = false ∧ tree.isDirectory path = false := by
  induction entries generalizing stack found with
  | nil => exact ⟨fun _ member => .inl member, fun _ member => .inl member⟩
  | cons entry entries ih =>
    have later {path : Path} {kind : Prop} (rest : path ∈ entries ∧ skip path = false ∧ kind) :
        path ∈ entry :: entries ∧ skip path = false ∧ kind :=
      ⟨List.mem_cons_of_mem _ rest.1, rest.2⟩
    rw [scan]
    split
    · exact ⟨fun _ member => .inl member, fun _ member => .inl member⟩
    · split
      · exact ⟨fun dir member => ((ih stack found).1 dir member).imp_right later,
          fun path member => ((ih stack found).2 path member).imp_right later⟩
      · rename_i kept
        have shown : skip entry = false := by simpa using kept
        split
        · rename_i directory
          refine ⟨fun dir member => ?_,
            fun path member => ((ih (entry :: stack) found).2 path member).imp_right later⟩
          rcases (ih (entry :: stack) found).1 dir member with held | rest
          · rcases List.mem_cons.mp held with rfl | old
            · exact .inr ⟨List.mem_cons_self, shown, directory⟩
            · exact .inl old
          · exact .inr (later rest)
        · rename_i other
          refine ⟨fun dir member => ((ih stack (found ++ [entry])).1 dir member).imp_right later,
            fun path member => ?_⟩
          rcases (ih stack (found ++ [entry])).2 path member with held | rest
          · rcases List.mem_append.mp held with old | new
            · exact .inl old
            · rw [List.mem_singleton.mp new]
              exact .inr ⟨List.mem_cons_self, shown, by simpa using other⟩
          · exact .inr (later rest)

/-- A scan that stays below the limit looks at every entry, and forgets nothing. -/
theorem scan_complete (entries stack found : List Path) :
    found <+: (tree.scan skip limit entries stack found).2 ∧
    stack <:+ (tree.scan skip limit entries stack found).1 ∧
    ((tree.scan skip limit entries stack found).2.length < limit →
      ∀ entry ∈ entries, skip entry = false →
        if tree.isDirectory entry then entry ∈ (tree.scan skip limit entries stack found).1
        else entry ∈ (tree.scan skip limit entries stack found).2) := by
  induction entries generalizing stack found with
  | nil =>
    exact ⟨List.prefix_refl _, List.suffix_refl _, fun _ _ member => nomatch member⟩
  | cons entry entries ih =>
    rw [scan]
    split
    · rename_i full
      exact ⟨List.prefix_refl _, List.suffix_refl _, fun short => absurd full (Nat.not_le.mpr short)⟩
    · split
      · rename_i skipped
        obtain ⟨kept, deeper, complete⟩ := ih stack found
        refine ⟨kept, deeper, fun short other member shown => ?_⟩
        rcases List.mem_cons.mp member with rfl | rest
        · rw [shown] at skipped
          exact nomatch skipped
        · exact complete short other rest shown
      · split
        · rename_i directory
          obtain ⟨kept, deeper, complete⟩ := ih (entry :: stack) found
          refine ⟨kept, (List.suffix_cons entry stack).trans deeper,
            fun short other member shown => ?_⟩
          rcases List.mem_cons.mp member with rfl | rest
          · rw [if_pos directory]
            exact deeper.subset List.mem_cons_self
          · exact complete short other rest shown
        · rename_i other_kind
          obtain ⟨kept, deeper, complete⟩ := ih stack (found ++ [entry])
          refine ⟨(List.prefix_append found [entry]).trans kept, deeper,
            fun short other member shown => ?_⟩
          rcases List.mem_cons.mp member with rfl | rest
          · rw [if_neg other_kind]
            exact kept.subset (List.mem_append_right _ (List.mem_singleton_self _))
          · exact complete short other rest shown

theorem walk_readable {dir : Path} {entries stack found : List Path}
    (unfilled : ¬ limit ≤ found.length)
    (readable : tree.readDir { path := dir, slash := false } = .ok entries) :
    tree.walk skip limit (dir :: stack) found =
      tree.walk skip limit (tree.scan skip limit entries stack found).1
        (tree.scan skip limit entries stack found).2 := by
  rw [walk, if_neg unfilled]
  split
  · rename_i others same
    obtain rfl := Except.ok.inj (readable.symm.trans same)
    rfl
  · rename_i error same
    exact nomatch readable.symm.trans same

theorem walk_unreadable {dir : Path} {error : IoError} {stack found : List Path}
    (unfilled : ¬ limit ≤ found.length)
    (unreadable : tree.readDir { path := dir, slash := false } = .error error) :
    tree.walk skip limit (dir :: stack) found = tree.walk skip limit stack found := by
  rw [walk, if_neg unfilled]
  split
  · rename_i entries same
    exact nomatch unreadable.symm.trans same
  · rfl

/-- A walk lists what has been found before and what is visible. -/
theorem mem_walk {path : Path} (stack found : List Path)
    (member : path ∈ tree.walk skip limit stack found) :
    path ∈ found ∨ ∃ dir ∈ stack, Visible tree skip dir path := by
  induction stack, found using walk.induct tree skip limit with
  | case1 found =>
    rw [walk] at member
    exact .inl member
  | case2 dir stack found full =>
    rw [walk, if_pos full] at member
    exact .inl member
  | case3 dir stack found unfilled entries readable ih =>
    rw [walk_readable unfilled readable] at member
    obtain ⟨_, rfl⟩ : tree.lookup dir = some .directory ∧ entries = tree.children dir :=
      readDir_eq_ok readable
    obtain ⟨pushed, listed⟩ := @mem_scan _ tree skip limit (tree.children dir) stack found
    rcases ih member with among | ⟨other, held, visible⟩
    · rcases listed path among with old | ⟨child, shown, plain⟩
      · exact .inl old
      · have file := isFile_of_mem_children child plain
        refine .inr ⟨dir, List.mem_cons_self, ?_⟩
        obtain ⟨name, rfl⟩ := children_eq child
        refine ⟨file, List.prefix_append _ _, by simp, fun between above different reaches => ?_⟩
        have whole : between = dir ++ [name] := by
          apply reaches.eq_of_length_le
          have long := above.length_le
          have strict : dir.length ≠ between.length := fun same =>
            different (above.eq_of_length same)
          rw [List.length_append, List.length_singleton]
          omega
        rw [whole]
        exact shown
    · rcases pushed other held with old | ⟨child, shown, _⟩
      · exact .inr ⟨other, List.mem_cons_of_mem _ old, visible⟩
      · exact .inr ⟨dir, List.mem_cons_self, visible.of_child child shown⟩
  | case4 dir stack found unfilled error unreadable ih =>
    rw [walk_unreadable unfilled unreadable] at member
    rcases ih member with old | ⟨other, held, visible⟩
    · exact .inl old
    · exact .inr ⟨other, List.mem_cons_of_mem _ held, visible⟩

theorem prefix_walk (stack found : List Path) : found <+: tree.walk skip limit stack found := by
  induction stack, found using walk.induct tree skip limit with
  | case1 found =>
    rw [walk]
  | case2 dir stack found full =>
    rw [walk, if_pos full]
  | case3 dir stack found unfilled entries readable ih =>
    rw [walk_readable unfilled readable]
    exact (scan_complete entries stack found).1.trans ih
  | case4 dir stack found unfilled error unreadable ih =>
    rw [walk_unreadable unfilled unreadable]
    exact ih

/-- A walk that stays below the limit lists everything that is visible. -/
theorem walk_complete (stack found : List Path)
    (short : (tree.walk skip limit stack found).length < limit) :
    ∀ dir ∈ stack, ∀ path, Visible tree skip dir path →
      path ∈ tree.walk skip limit stack found := by
  induction stack, found using walk.induct tree skip limit with
  | case1 found => exact fun _ member => nomatch member
  | case2 dir stack found full =>
    rw [walk, if_pos full] at short
    exact absurd full (Nat.not_le.mpr short)
  | case3 dir stack found unfilled entries readable ih =>
    rw [walk_readable unfilled readable] at short ⊢
    obtain ⟨_, deeper, complete⟩ := @scan_complete _ tree skip limit entries stack found
    intro other member path visible
    rcases List.mem_cons.mp member with rfl | held
    · obtain ⟨_, rfl⟩ : tree.lookup other = some .directory ∧ entries = tree.children other :=
        readDir_eq_ok readable
      obtain ⟨entry, child, shown, within⟩ := visible.exists_child
      have kept := @prefix_walk _ tree skip limit
        (tree.scan skip limit (tree.children other) stack found).1
        (tree.scan skip limit (tree.children other) stack found).2
      have looked := complete (Nat.lt_of_le_of_lt kept.length_le short) entry child shown
      rcases within with rfl | ⟨directory, inside⟩
      · obtain ⟨content, file⟩ := isFile_iff.mp visible.file
        have plain : tree.isDirectory entry = false := by
          rw [← Bool.not_eq_true, isDirectory_iff, file]
          exact nofun
        rw [plain] at looked
        exact kept.subset looked
      · rw [if_pos directory] at looked
        exact ih short entry looked path inside
    · exact ih short other (deeper.subset held) path visible
  | case4 dir stack found unfilled error unreadable ih =>
    rw [walk_unreadable unfilled unreadable] at short ⊢
    intro other member path visible
    rcases List.mem_cons.mp member with rfl | held
    · obtain ⟨rest, rfl⟩ := visible.under
      obtain ⟨content, file⟩ := isFile_iff.mp visible.file
      have directory : tree.lookup other = some .directory := by
        apply directory_of_prefix
        · rw [file]
          rfl
        · rintro rfl
          exact visible.proper (List.append_nil other).symm
      have readable : tree.readDir { path := other, slash := false } =
          .ok (tree.children other) := by
        unfold readDir
        rw [find_of_directory directory]
      exact nomatch readable.symm.trans unreadable
    · exact ih short other held path visible

/-- Neither path leads to the other. -/
def Aside (first second : Path) : Prop := ¬ first <+: second ∧ ¬ second <+: first

theorem aside_of_length {first second : Path} (same : first.length = second.length)
    (different : first ≠ second) : Aside first second :=
  ⟨fun reaches => different (reaches.eq_of_length same),
    fun reaches => different (reaches.eq_of_length same.symm).symm⟩

/-- A scan of entries that are apart from everything else lists nothing twice. -/
theorem nodup_scan (length : Nat) (entries stack found : List Path) (distinct : entries.Nodup)
    (level : ∀ entry ∈ entries, entry.length = length)
    (off_stack : ∀ entry ∈ entries, ∀ dir ∈ stack, Aside entry dir)
    (off_list : ∀ entry ∈ entries, ∀ path ∈ found, ¬ entry <+: path)
    (apart : stack.Pairwise Aside) (nodup : found.Nodup)
    (unlisted : ∀ dir ∈ stack, ∀ path ∈ found, ¬ dir <+: path) :
    (tree.scan skip limit entries stack found).1.Pairwise Aside ∧
      (tree.scan skip limit entries stack found).2.Nodup ∧
      ∀ dir ∈ (tree.scan skip limit entries stack found).1,
        ∀ path ∈ (tree.scan skip limit entries stack found).2, ¬ dir <+: path := by
  induction entries generalizing stack found with
  | nil => exact ⟨apart, nodup, unlisted⟩
  | cons entry entries ih =>
    obtain ⟨fresh, distinct⟩ := List.nodup_cons.mp distinct
    have rest {kind : Path → Prop} (all : ∀ other ∈ entry :: entries, kind other) :
        ∀ other ∈ entries, kind other := fun other member =>
      all other (List.mem_cons_of_mem _ member)
    have sibling : ∀ other ∈ entries, Aside other entry := by
      intro other member
      apply aside_of_length
      · rw [level entry List.mem_cons_self, rest level other member]
      · rintro rfl
        exact fresh member
    rw [scan]
    split
    · exact ⟨apart, nodup, unlisted⟩
    · split
      · exact ih stack found distinct (rest level) (rest off_stack) (rest off_list) apart nodup
          unlisted
      · split
        · apply ih (entry :: stack) found distinct (rest level) _ (rest off_list) _ nodup
          · intro dir member path among
            rcases List.mem_cons.mp member with rfl | old
            · exact off_list dir List.mem_cons_self path among
            · exact unlisted dir old path among
          · intro other member dir held
            rcases List.mem_cons.mp held with rfl | old
            · exact sibling other member
            · exact rest off_stack other member dir old
          · exact List.pairwise_cons.mpr ⟨off_stack entry List.mem_cons_self, apart⟩
        · have new : entry ∉ found := fun among =>
            off_list entry List.mem_cons_self entry among (List.prefix_refl entry)
          apply ih stack (found ++ [entry]) distinct (rest level) (rest off_stack) _ apart
          · rw [List.nodup_append]
            refine ⟨nodup, List.nodup_singleton entry, fun path among last single => ?_⟩
            rintro rfl
            exact new (List.mem_singleton.mp single ▸ among)
          · intro dir held path among
            rcases List.mem_append.mp among with old | last
            · exact unlisted dir held path old
            · rw [List.mem_singleton.mp last]
              exact (off_stack entry List.mem_cons_self dir held).2
          · intro other member path among
            rcases List.mem_append.mp among with old | last
            · exact rest off_list other member path old
            · rw [List.mem_singleton.mp last]
              exact (sibling other member).1

/-- A walk from directories that are apart lists nothing twice. -/
theorem nodup_walk (stack found : List Path) (apart : stack.Pairwise Aside) (nodup : found.Nodup)
    (unlisted : ∀ dir ∈ stack, ∀ path ∈ found, ¬ dir <+: path) :
    (tree.walk skip limit stack found).Nodup := by
  induction stack, found using walk.induct tree skip limit with
  | case1 found =>
    rw [walk]
    exact nodup
  | case2 dir stack found full =>
    rw [walk, if_pos full]
    exact nodup
  | case3 dir stack found unfilled entries readable ih =>
    rw [walk_readable unfilled readable]
    obtain ⟨_, rfl⟩ : tree.lookup dir = some .directory ∧ entries = tree.children dir :=
      readDir_eq_ok readable
    obtain ⟨above, apart⟩ := List.pairwise_cons.mp apart
    have scanned := @nodup_scan _ tree skip limit (dir.length + 1) (tree.children dir) stack found
      nodup_children ?_ ?_ ?_ apart nodup fun other held =>
        unlisted other (List.mem_cons_of_mem _ held)
    · exact ih scanned.1 scanned.2.1 scanned.2.2
    · intro entry member
      obtain ⟨name, rfl⟩ := children_eq member
      simp
    · intro entry member other held
      obtain ⟨name, rfl⟩ := children_eq member
      refine ⟨fun down => (above other held).1 ((List.prefix_append dir [name]).trans down),
        fun up => ?_⟩
      rcases List.prefix_concat_iff.mp up with whole | within
      · exact (above other held).1 (whole ▸ List.prefix_append dir [name])
      · exact (above other held).2 within
    · intro entry member path among down
      obtain ⟨name, rfl⟩ := children_eq member
      exact unlisted dir List.mem_cons_self path among
        ((List.prefix_append dir [name]).trans down)
  | case4 dir stack found unfilled error unreadable ih =>
    rw [walk_unreadable unfilled unreadable]
    exact ih (List.pairwise_cons.mp apart).2 nodup fun other held =>
      unlisted other (List.mem_cons_of_mem _ held)

theorem walk_perm {dir : Path} {targets : List Path} (nodup : targets.Nodup)
    (exactly : ∀ path, path ∈ targets ↔ Visible tree skip dir path)
    (room : targets.length ≤ limit) : (tree.walk skip limit [dir] []).Perm targets := by
  have distinct : (tree.walk skip limit [dir] []).Nodup :=
    nodup_walk [dir] [] (List.pairwise_singleton _ _) List.nodup_nil fun _ _ _ among => nomatch among
  have sound : tree.walk skip limit [dir] [] ⊆ targets := by
    intro path member
    rcases mem_walk [dir] [] member with nothing | ⟨other, held, visible⟩
    · exact nomatch nothing
    · rw [List.mem_singleton.mp held] at visible
      exact (exactly path).mpr visible
  have within := List.subperm_of_subset distinct sound
  by_cases short : (tree.walk skip limit [dir] []).length < limit
  · apply (List.perm_ext_iff_of_nodup distinct nodup).mpr
    refine fun path => ⟨fun member => sound member, fun member => ?_⟩
    exact walk_complete [dir] [] short dir List.mem_cons_self path ((exactly path).mp member)
  · apply within.perm_of_length_le
    omega

end Walk

/-! ## Files at given places -/

/-- Places for files under a directory, none of which leads to another. -/
structure Places (base : Path) (slots : Set Path) : Prop where
  under : ∀ slot ∈ slots, base <+: slot ∧ base ≠ slot
  apart : ∀ slot ∈ slots, ∀ other ∈ slots, slot <+: other → slot = other

/-- The files under a directory stand at given places and hold given contents; the files elsewhere
are those of another tree. -/
structure Holds (start : Tree Content) (base : Path) (slots : Set Path)
    (contents : Path → Option Content) (tree : Tree Content) : Prop where
  stored : ∀ slot ∈ slots, tree.lookup slot = (contents slot).map .file
  only : ∀ path, base <+: path → tree.isFile path = true → path ∈ slots
  ground : ∀ before, before <+: base → tree.isFile before = false
  outside : ∀ path, ¬ base <+: path → ∀ content,
    tree.lookup path = some (.file content) ↔ start.lookup path = some (.file content)

namespace Holds

variable {tree} {start : Tree Content} {base slot : Path} {slots : Set Path}
variable {contents : Path → Option Content} {content emptied : Content}

theorem clear (holds : Holds start base slots contents tree) (places : Places base slots)
    (member : slot ∈ slots) {before : Path} (reaches : before <+: slot) (proper : before ≠ slot) :
    tree.isFile before = false := by
  rw [← Bool.not_eq_true]
  intro file
  rcases List.prefix_or_prefix_of_prefix reaches (places.under slot member).1 with high | low
  · rw [holds.ground before high] at file
    exact nomatch file
  · exact proper (places.apart before (holds.only before low file) slot member reaches)

theorem find_eq (holds : Holds start base slots contents tree) (places : Places base slots)
    (member : slot ∈ slots) : tree.find { path := slot, slash := false } =
      match contents slot with
      | some content => .ok (.file content)
      | none => .error .notFound := by
  have stored := holds.stored slot member
  cases given : contents slot with
  | some content =>
    rw [given] at stored
    exact find_of_file stored rfl
  | none =>
    rw [given] at stored
    apply find_of_lookup_eq_none stored
    intro before reaches
    by_cases same : before = slot
    · unfold isFile
      rw [same, stored]
      rfl
    · exact holds.clear places member reaches same

theorem read_eq (holds : Holds start base slots contents tree) (places : Places base slots)
    (member : slot ∈ slots) : tree.read { path := slot, slash := false } =
      match contents slot with
      | some content => .ok content
      | none => .error .notFound := by
  unfold read
  rw [holds.find_eq places member]
  cases contents slot <;> rfl

theorem not_directory (holds : Holds start base slots contents tree) (member : slot ∈ slots) :
    tree.lookup slot ≠ some .directory := by
  rw [holds.stored slot member]
  cases contents slot <;> exact nofun

/-- Directories on the way to a place can be made. -/
theorem createDirAll (holds : Holds start base slots contents tree) (places : Places base slots)
    (member : slot ∈ slots) : ∃ made, tree.createDirAll slot.dropLast = .ok made ∧
      Holds start base slots contents made ∧
      made.lookup slot.dropLast = some .directory := by
  have nonempty : slot ≠ [] := by
    rintro rfl
    obtain ⟨under, proper⟩ := places.under [] member
    exact proper (List.prefix_nil.mp under)
  have shorter {before : Path} (reaches : before <+: slot.dropLast) :
      before <+: slot ∧ before ≠ slot := by
    refine ⟨reaches.trans (List.dropLast_prefix slot), ?_⟩
    rintro rfl
    have long := reaches.length_le
    have positive := List.length_pos_of_ne_nil nonempty
    rw [List.length_dropLast] at long
    omega
  have free : ∀ before, before <+: slot.dropLast → tree.isFile before = false :=
    fun before reaches => holds.clear places member (shorter reaches).1 (shorter reaches).2
  obtain ⟨made, same, lookups⟩ := createDirAll_eq_ok free
  have kept : ∀ path, made.isFile path = true → tree.isFile path = true := by
    intro path file
    unfold isFile at file ⊢
    rw [lookups] at file
    split at file <;> rename_i found
    · split at found
      · exact nomatch found
      · rw [found]
    · exact nomatch file
  refine ⟨made, same, ⟨?_, ?_, ?_, ?_⟩, ?_⟩
  · intro other among
    rw [lookups, if_neg]
    · exact holds.stored other among
    · intro reaches
      exact (shorter reaches).2 (places.apart other among slot member (shorter reaches).1)
  · exact fun path under file => holds.only path under (kept path file)
  · intro before high
    rw [← Bool.not_eq_true]
    intro file
    have impossible := kept before file
    rw [holds.ground before high] at impossible
    exact nomatch impossible
  · intro path off content
    rw [← holds.outside path off content, lookups]
    split
    · rename_i reaches
      have plain := free path reaches
      refine iff_of_false nofun fun found => ?_
      rw [isFile_iff.mpr ⟨content, found⟩] at plain
      exact nomatch plain
    · exact Iff.rfl
  · rw [lookups, if_pos (List.prefix_refl _)]

/-- A change at one place. -/
theorem update (holds : Holds start base slots contents tree) (places : Places base slots)
    (member : slot ∈ slots) (value : Option Content) {after : Tree Content}
    (lookups : ∀ other, after.lookup other =
      if other = slot then value.map .file else tree.lookup other) :
    Holds start base slots (Function.update contents slot value) after := by
  obtain ⟨under, proper⟩ := places.under slot member
  have elsewhere {path : Path} (different : path ≠ slot) :
      after.isFile path = tree.isFile path := by
    unfold isFile
    rw [lookups, if_neg different]
  refine ⟨?_, ?_, ?_, ?_⟩
  · intro other among
    rw [lookups]
    by_cases same : other = slot
    · rw [if_pos same, same, Function.update_self]
    · rw [if_neg same, Function.update_of_ne same]
      exact holds.stored other among
  · intro path below file
    by_cases same : path = slot
    · rw [same]
      exact member
    · rw [elsewhere same] at file
      exact holds.only path below file
  · intro before high
    rw [elsewhere]
    · exact holds.ground before high
    · rintro rfl
      exact proper (under.eq_of_length (le_antisymm under.length_le high.length_le))
  · intro path off content
    rw [lookups, if_neg, holds.outside path off content]
    rintro rfl
    exact off under

theorem write (holds : Holds start base slots contents tree) (places : Places base slots)
    (member : slot ∈ slots) (parent : tree.lookup slot.dropLast = some .directory)
    (content : Content) :
    ∃ written, tree.write content { path := slot, slash := false } = .ok written ∧
      Holds start base slots (Function.update contents slot (some content)) written ∧
      ∀ path, tree.lookup path = some .directory → written.lookup path = some .directory := by
  obtain ⟨written, same, lookups⟩ :=
    @write_eq_ok _ tree { path := slot, slash := false } content rfl parent
      (holds.not_directory member)
  refine ⟨written, same, holds.update places member (some content) lookups, ?_⟩
  intro path directory
  rw [lookups, if_neg]
  · exact directory
  · rintro rfl
    exact holds.not_directory member directory

theorem removeFile (holds : Holds start base slots contents tree) (places : Places base slots)
    (member : slot ∈ slots) (given : contents slot = some content) :
    ∃ removed, tree.removeFile { path := slot, slash := false } = .ok removed ∧
      Holds start base slots (Function.update contents slot none) removed := by
  have stored := holds.stored slot member
  rw [given] at stored
  obtain ⟨removed, same, lookups⟩ :=
    @removeFile_eq_ok _ tree { path := slot, slash := false } content stored rfl
  exact ⟨removed, same, holds.update places member none lookups⟩

theorem copy (holds : Holds start base slots contents tree) (places : Places base slots)
    (member : slot ∈ slots) (given : contents slot = some content) {target : Path}
    (among : target ∈ slots) (different : slot ≠ target)
    (parent : tree.lookup target.dropLast = some .directory) :
    ∃ copied, tree.copy emptied { path := slot, slash := false }
        { path := target, slash := false } = .ok copied ∧
      Holds start base slots (Function.update contents target (some content)) copied ∧
      ∀ path, tree.lookup path = some .directory → copied.lookup path = some .directory := by
  have stored := holds.stored slot member
  rw [given] at stored
  obtain ⟨copied, same, lookups⟩ := @copy_eq_ok _ tree { path := slot, slash := false } content
    emptied { path := target, slash := false } stored rfl rfl parent (holds.not_directory among)
  simp only [if_neg different] at lookups
  refine ⟨copied, same, holds.update places among (some content) lookups, ?_⟩
  intro path directory
  rw [lookups, if_neg]
  · exact directory
  · rintro rfl
    exact holds.not_directory among directory

end Holds

end Tree
end FileTree
