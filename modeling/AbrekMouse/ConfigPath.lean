import AbrekMouse.LinkTree
import AbrekMouse.Utf8

/-! # Where a settings file may be

A path for the settings file is accepted by what it resolves to.  Where it does not resolve,
the deepest part of it that does is taken, and the rest is appended as it stands.

That is where the path leads if the first component that is missing really is; but it may be a
link whose target is missing, and of a relative path none of whose parts resolves the first
component is dropped.  `path_policy_iff` says that a path is accepted wrongly just in these two
cases, where the path leads under one of the forbidden directories.
-/
namespace AbrekMouse
open ProgLib

/-! ## Paths -/

/-- A path, as what stands between its slashes. -/
abbrev Path := List Bytes

/-- The path that a string is. -/
def splitSlash : Bytes → Path
  | [] => [[]]
  | c :: s =>
      if c = 0x2F then [] :: splitSlash s
      else
        match splitSlash s with
        | [] => [[c]]
        | part :: parts => (c :: part) :: parts

/-- A name that a directory can have. -/
structure FileName where
  chars : Bytes
  ne_nil : chars ≠ []
  ne_dot : chars ≠ bytes "."
  ne_dots : chars ≠ bytes ".."
deriving DecidableEq

/-- A part of a path; an empty one stands for the directory itself. -/
def toComponent (part : Bytes) : Component FileName :=
  if hnil : part = [] then .self
  else if hdot : part = bytes "." then .self
  else if hdots : part = bytes ".." then .up
  else .name ⟨part, hnil, hdot, hdots⟩

/-- The files, and the directory that relative paths start from. -/
structure FileSystem where
  tree : LinkTree FileName
  cwd : List FileName
  cwd_dir : tree.node cwd = some .dir

/-- How many links the system follows. -/
def maxSymlinks : ℕ := 40

/-- The path begins at the root. -/
def Path.isAbsolute (path : Path) : Bool := path.head? = some []

/-- The root, as a path. -/
def rootPath : Path := [[], []]

/-- A path from the root through these names. -/
def absolutePath (names : List Bytes) : Path := if names = [] then rootPath else [] :: names

/-- The path of these names from the root. -/
def canonicalPath (names : List FileName) : Path := absolutePath (names.map (·.chars))

namespace FileSystem
variable (fs : FileSystem)

/-- The directory that a path starts from. -/
def start (path : Path) : List FileName := if path.isAbsolute then [] else fs.cwd

/-- `realpath`: the names of the path with every link followed, if it leads to something. -/
def realpath (path : Path) : Option (List FileName) :=
  if path = [[]] then none
  else fs.tree.resolve maxSymlinks (fs.start path) (path.map toComponent)

/-- `stat`, which follows links. -/
def stat (path : Path) : Option (FileNode FileName) := (fs.realpath path).bind fs.tree.node

/-! ## The check -/

/-- The directory part of a path. -/
def parentPath (path : Path) : Path :=
  if path.length = 1 then [bytes "."]
  else if path.length = 2 ∧ path.isAbsolute then rootPath
  else path.dropLast

/-- The directory part is canonical if it can be; else the path has no `..`. -/
def normaliseParent (out : Path) : Option Path :=
  match fs.realpath (parentPath out) with
  | some names => some ([] :: (names.map (·.chars) ++ [out.getLastD []]))
  | none => if bytes ".." ∈ out then none else some out

/-- No slash is left: what was peeled off goes to the working directory, and the part before the
first slash is not looked at. -/
def relativeTarget (path : Path) (tail : List Bytes) : Option Path :=
  match fs.realpath [bytes "."] with
  | some names => fs.normaliseParent (canonicalPath names ++ if tail = [] then [[]] else tail)
  | none => fs.normaliseParent path

/-- The walk up, on the reversed parts of `head`, with what was peeled off. -/
def peel (path : Path) : List Bytes → List Bytes → Option Path
  | [], tail => fs.relativeTarget path tail
  | last :: rest, tail =>
      if rest = [] then fs.relativeTarget path tail
      else
        let head := if rest = [[]] then rootPath else rest.reverse
        let tail := if last ≠ [] ∧ last ≠ bytes "." then last :: tail else tail
        match fs.realpath head with
        | some names =>
            fs.normaliseParent (if tail = [] then canonicalPath names
              else [] :: (names.map (·.chars) ++ tail))
        | none => peel path rest tail

/-- The resolved path, and whether it is there. -/
def resolveConfigTarget (path : Path) : Option (Path × Bool) :=
  if path = [[]] then none
  else
    match fs.realpath path with
    | some names => some (canonicalPath names, true)
    | none => (fs.peel path path.reverse []).map (·, false)

/-- The directories that no settings file may be in. -/
def forbiddenDirs : List Bytes := [bytes "proc", bytes "sys", bytes "dev"]

/-- The resolved path ends in `.json` and does not start with a forbidden directory. -/
def checkConfigPathPolicy (canonical : Path) : Bool :=
  (bytes ".json").isSuffixOf (canonical.getLastD []) &&
    match canonical with
    | [] :: dir :: _ :: _ => dir ∉ forbiddenDirs
    | _ => true

/-- The size of a settings file, at most. -/
def maxConfigBytes : ℕ := 4 * 1024 * 1024

/-- `validate_config_path`, of the command-line tool and of the daemon. -/
def validateConfigPath (path : Bytes) (requireExistingParent : Bool) : Bool :=
  match fs.resolveConfigTarget (splitSlash path) with
  | none => false
  | some (canonical, found) =>
      checkConfigPathPolicy canonical &&
      (if found then
        match fs.stat canonical with
        | some (.file true size) => size ≤ maxConfigBytes
        | some _ => false
        | none => true
      else !requireExistingParent || fs.stat (parentPath canonical) = some .dir)


/-! ## Where a path leads -/

/-- The file is under a directory where no settings file may be. -/
def Forbidden (file : List FileName) : Prop :=
  ∃ dir name rest, file = dir :: name :: rest ∧ dir.chars ∈ forbiddenDirs

/-- Where the path leads once its missing components are there. -/
def leadsTo (path : Path) : Option (List FileName) :=
  fs.tree.place maxSymlinks (fs.start path) (path.map toComponent)

/-- Missing components are created. -/
def Later (fs' : FileSystem) : Prop := LinkTree.Created fs.tree fs'.tree ∧ fs'.cwd = fs.cwd

/-- Now and after missing components are created, the path does not resolve to a forbidden
file. -/
def Safe (path : Path) : Prop :=
  ∀ fs', fs.Later fs' → ∀ file, fs'.realpath path = some file → ¬Forbidden file

/-- Resolving the path stops at `name`: what is before it leads to the directory `dir`, and with
it the path does not resolve. -/
structure StopsAt (path before : Path) (name : FileName) (rest : Path) (dir : List FileName) :
    Prop where
  split : path = before ++ name.chars :: rest
  leads : fs.tree.resolve maxSymlinks (fs.start path) (before.map toComponent) = some dir
  isDir : fs.tree.node dir = some .dir
  stops : fs.tree.resolve maxSymlinks (fs.start path) ((before ++ [name.chars]).map toComponent) =
    none

/-- Resolving the path stops at a link, or at the first component of a relative path. -/
def Misjudged (path : Path) : Prop :=
  ∃ before name rest dir, fs.StopsAt path before name rest dir ∧
    (before = [] ∨ ∃ absolute target, fs.tree.node (dir ++ [name]) = some (.link absolute target))

variable {fs}

theorem toComponent_chars (name : FileName) : toComponent name.chars = .name name := by
  unfold toComponent
  rw [dif_neg name.ne_nil, dif_neg name.ne_dot, dif_neg name.ne_dots]

theorem start_dir (path : Path) : fs.tree.node (fs.start path) = some .dir := by
  unfold start
  split_ifs
  · exact fs.tree.root
  · exact fs.cwd_dir

theorem start_append {before rest : Path} (h : before ≠ []) :
    fs.start (before ++ rest) = fs.start before := by
  cases before with
  | nil => exact absurd rfl h
  | cons first before => rfl

theorem realpath_of_ne {path : Path} (h : path ≠ [[]]) :
    fs.realpath path = fs.tree.resolve maxSymlinks (fs.start path) (path.map toComponent) :=
  if_neg h

theorem eq_chars_of_toComponent {part : Bytes} {name : FileName}
    (h : toComponent part = .name name) : part = name.chars := by
  unfold toComponent at h
  split_ifs at h
  cases h
  rfl

/-! ## Where resolving stops -/

theorem StopsAt.node {path before rest : Path} {name : FileName} {dir : List FileName}
    (h : fs.StopsAt path before name rest dir) : fs.tree.node (dir ++ [name]) = none ∨
      ∃ absolute target, fs.tree.node (dir ++ [name]) = some (.link absolute target) := by
  obtain ⟨left, hleft⟩ := LinkTree.walk_append (start_dir path) h.leads h.isDir
  have hstops := h.stops
  unfold LinkTree.resolve at hstops
  rw [List.map_append, List.map_singleton, toComponent_chars, hleft] at hstops
  rcases hnode : fs.tree.node (dir ++ [name]) with _ | (_ | _ | ⟨absolute, target⟩)
  · exact .inl rfl
  · rw [LinkTree.walk_dir hnode, LinkTree.walk_nil] at hstops
    cases hstops
  · rw [LinkTree.walk_file hnode, if_pos rfl] at hstops
    cases hstops
  · exact .inr ⟨absolute, target, rfl⟩

/-- **A path that does not resolve, but may later, stops somewhere.** -/
theorem exists_stopsAt {path : Path} {file : List FileName}
    (hnone : fs.tree.resolve maxSymlinks (fs.start path) (path.map toComponent) = none)
    (hleads : fs.leadsTo path = some file) :
    ∃ before name rest dir, fs.StopsAt path before name rest dir := by
  have hfrom : ∀ (rest before : Path) (dir : List FileName), path = before ++ rest →
      fs.tree.resolve maxSymlinks (fs.start path) (before.map toComponent) = some dir →
      ∃ before name rest dir, fs.StopsAt path before name rest dir := by
    intro rest
    induction rest with
    | nil =>
        intro before dir hsplit hbefore
        rw [List.append_nil] at hsplit
        rw [← hsplit, hnone] at hbefore
        cases hbefore
    | cons part rest ih =>
        intro before dir hsplit hbefore
        have hdir : fs.tree.node dir = some .dir := by
          by_contra hfile
          have hnever : fs.leadsTo path = none := by
            have hparts : path.map toComponent =
                before.map toComponent ++ (part :: rest).map toComponent := by
              rw [hsplit, List.map_append]
            unfold leadsTo
            rw [hparts]
            exact LinkTree.walk_append_of_not_dir (start_dir path) hbefore hfile
              (List.cons_ne_nil _ _)
          rw [hnever] at hleads
          cases hleads
        cases hstep : fs.tree.resolve maxSymlinks (fs.start path)
            ((before ++ [part]).map toComponent) with
        | some next => exact ih (before ++ [part]) next (by rw [hsplit, List.append_cons]) hstep
        | none =>
            obtain ⟨left, hleft⟩ := LinkTree.walk_append (start_dir path) hbefore hdir
            have hlast := hstep
            unfold LinkTree.resolve at hlast
            rw [List.map_append, List.map_singleton, hleft] at hlast
            cases hpart : toComponent part with
            | self =>
                rw [hpart, LinkTree.walk_self, LinkTree.walk_nil] at hlast
                cases hlast
            | up =>
                rw [hpart, LinkTree.walk_up, LinkTree.walk_nil] at hlast
                cases hlast
            | name name =>
                have hchars := eq_chars_of_toComponent hpart
                rw [hchars] at hsplit hstep
                exact ⟨before, name, rest, dir, hsplit, hbefore, hdir, hstep⟩
  exact hfrom path [] (fs.start path) rfl LinkTree.walk_nil

/-! ## What is checked -/

/-- The parts that name something. -/
def keptParts (parts : Path) : Path := parts.filter fun part => part ≠ [] ∧ part ≠ bytes "."

theorem keptParts_cons_name (name : FileName) (rest : Path) :
    keptParts (name.chars :: rest) = name.chars :: keptParts rest :=
  List.filter_cons_of_pos (by simpa using ⟨name.ne_nil, name.ne_dot⟩)

/-- Below what is missing, a path without `..` leads along its names. -/
theorem walk_missing_parts (left : ℕ) {cur : List FileName} (h : fs.tree.node cur = none)
    {rest : Path} (hup : bytes ".." ∉ rest) :
    ∃ names : List FileName, names.map (·.chars) = keptParts rest ∧
      fs.tree.walk true left cur (rest.map toComponent) = some (cur ++ names) := by
  induction rest generalizing cur with
  | nil => exact ⟨[], rfl, by rw [List.map_nil, LinkTree.walk_nil, List.append_nil]⟩
  | cons part rest ih =>
      have hrest : bytes ".." ∉ rest := fun hmem => hup (List.mem_cons_of_mem _ hmem)
      cases hpart : toComponent part with
      | self =>
          obtain ⟨names, hnames, hwalk⟩ := ih h hrest
          have hskip : ¬(part ≠ [] ∧ part ≠ bytes ".") := by
            unfold toComponent at hpart
            split_ifs at hpart with hnil hdot
            · exact fun hkeep => hkeep.1 hnil
            · exact fun hkeep => hkeep.2 hdot
          refine ⟨names, ?_, ?_⟩
          · rw [hnames, keptParts, keptParts, List.filter_cons_of_neg (by simpa using hskip)]
          · rw [List.map_cons, hpart, LinkTree.walk_self]
            exact hwalk
      | up =>
          have hdots : part = bytes ".." := by
            unfold toComponent at hpart
            split_ifs at hpart with _ _ hdots
            exact hdots
          exact absurd (hdots ▸ List.mem_cons_self) hup
      | name name =>
          have hnext := LinkTree.node_append_eq_none h [name]
          obtain ⟨names, hnames, hwalk⟩ := ih hnext hrest
          obtain rfl := eq_chars_of_toComponent hpart
          refine ⟨name :: names, ?_, ?_⟩
          · rw [keptParts_cons_name, List.map_cons, hnames]
          · rw [List.map_cons, hpart, LinkTree.walk_missing hnext, if_pos rfl, hwalk,
              List.append_assoc]
            rfl

/-- The components of a path from the root through these names. -/
theorem map_toComponent_chars (dir : List FileName) :
    (dir.map (·.chars)).map toComponent = dir.map .name := by
  rw [List.map_map]
  exact List.map_congr_left fun name _ => toComponent_chars name

theorem canonical_realpath {dir : List FileName} (h : fs.tree.node dir = some .dir) :
    fs.realpath (canonicalPath dir) = some dir := by
  have hwalk : fs.tree.walk false maxSymlinks [] (dir.map .name) = some ([] ++ dir) :=
    LinkTree.walk_names h
  cases dir with
  | nil => rfl
  | cons name dir =>
      have hpath : canonicalPath (name :: dir) = [] :: (name :: dir).map (·.chars) := rfl
      have hparts : (canonicalPath (name :: dir)).map toComponent =
          .self :: (name :: dir).map .name := by
        rw [hpath, List.map_cons (l := (name :: dir).map (·.chars)), map_toComponent_chars]
        rfl
      rw [realpath_of_ne (by rw [hpath]; simp), hparts]
      exact LinkTree.walk_self.trans hwalk

theorem parentPath_absolute {names : List Bytes} (hne : names ≠ []) (last : Bytes) :
    parentPath ([] :: (names ++ [last])) = [] :: names := by
  unfold parentPath
  have hlength : ([] :: (names ++ [last]) : Path).length = names.length + 2 := by simp
  have hpos : 0 < names.length := List.length_pos_iff.mpr hne
  rw [hlength, if_neg (by omega), if_neg (by omega), ← List.cons_append]
  exact List.dropLast_concat

/-- **What is normalised** is a missing name in a canonical directory: it stays as it is, and
nothing behind the name goes up. -/
theorem normaliseParent_missing {dir : List FileName} {name : FileName} {kept : Path}
    {canonical : Path} (hdir : fs.tree.node dir = some .dir)
    (hmissing : fs.tree.node (dir ++ [name]) = none)
    (h : fs.normaliseParent ([] :: (dir.map (·.chars) ++ name.chars :: kept)) = some canonical) :
    canonical = [] :: (dir.map (·.chars) ++ name.chars :: kept) ∧ bytes ".." ∉ kept := by
  unfold normaliseParent at h
  rcases List.eq_nil_or_concat kept with rfl | ⟨before, last, rfl⟩
  · -- the directory of the name is canonical already
    have hparent : fs.realpath (parentPath ([] :: (dir.map (·.chars) ++ [name.chars]))) =
        some dir := by
      cases dir with
      | nil => rfl
      | cons first dir =>
          rw [parentPath_absolute (by simp)]
          exact canonical_realpath hdir
    rw [hparent] at h
    have hlast : ([] :: (dir.map (·.chars) ++ [name.chars]) : Path).getLastD [] = name.chars := by
      rw [← List.cons_append]
      exact List.getLastD_concat
    dsimp only at h
    rw [hlast] at h
    exact ⟨(Option.some.inj h).symm, List.not_mem_nil⟩
  · -- nothing below the missing name resolves
    rw [List.concat_eq_append] at h ⊢
    have hout : ([] :: (dir.map (·.chars) ++ name.chars :: (before ++ [last])) : Path) =
        [] :: (dir.map (·.chars) ++ name.chars :: before ++ [last]) := by
      rw [List.append_assoc, List.cons_append]
    have hparent : fs.realpath (parentPath
        ([] :: (dir.map (·.chars) ++ name.chars :: (before ++ [last])))) = none := by
      rw [hout, parentPath_absolute (by simp)]
      have hwalk : fs.tree.walk false maxSymlinks [] (dir.map .name) = some ([] ++ dir) :=
        LinkTree.walk_names hdir
      obtain ⟨left, hleft⟩ := LinkTree.walk_append fs.tree.root hwalk hdir
      rw [realpath_of_ne (by simp), List.map_cons, List.map_append, map_toComponent_chars,
        List.map_cons, toComponent_chars]
      refine LinkTree.walk_self.trans ((hleft _ _).trans ?_)
      exact LinkTree.walk_missing hmissing
    rw [hparent] at h
    dsimp only at h
    split_ifs at h with hup
    refine ⟨(Option.some.inj h).symm, fun hmem => hup ?_⟩
    exact List.mem_cons_of_mem _ (List.mem_append_right _ (List.mem_cons_of_mem _ hmem))

/-! ## The walk up -/

theorem keptParts_singleton (last : Bytes) (tail : List Bytes) :
    (if last ≠ [] ∧ last ≠ bytes "." then last :: tail else tail) = keptParts [last] ++ tail := by
  unfold keptParts
  split_ifs with hkept
  · rw [List.filter_cons_of_pos (by simpa using hkept)]
    rfl
  · rw [List.filter_cons_of_neg (by simpa using hkept)]
    rfl

theorem peel_found {path rest tail : Path} {last : Bytes} {names : List FileName}
    (hrest : rest ≠ [])
    (h : fs.realpath (if rest = [[]] then rootPath else rest.reverse) = some names)
    (hlast : keptParts [last] ≠ []) :
    fs.peel path (last :: rest) tail =
      fs.normaliseParent ([] :: (names.map (·.chars) ++ (keptParts [last] ++ tail))) := by
  have htail : keptParts [last] ++ tail ≠ [] := fun hnil => hlast (List.append_eq_nil_iff.mp hnil).1
  rw [peel, if_neg hrest]
  dsimp only
  rw [h, keptParts_singleton]
  dsimp only
  rw [if_neg htail]

theorem peel_missing {path rest tail : Path} {last : Bytes} (hrest : rest ≠ [])
    (h : fs.realpath (if rest = [[]] then rootPath else rest.reverse) = none) :
    fs.peel path (last :: rest) tail = fs.peel path rest (keptParts [last] ++ tail) := by
  rw [peel, if_neg hrest]
  dsimp only
  rw [h, keptParts_singleton]

namespace StopsAt
variable {path before rest : Path} {name : FileName} {dir : List FileName}

/-- What is before the component is canonical. -/
theorem realpath_before (h : fs.StopsAt path before name rest dir) (hbefore : before ≠ []) :
    fs.realpath (if before = [[]] then rootPath else before) = some dir := by
  have hleads := h.leads
  rw [h.split, start_append hbefore] at hleads
  split_ifs with hroot
  · -- a first slash alone is the root
    rw [hroot] at hleads
    exact hleads
  · rw [realpath_of_ne hroot]
    exact hleads

/-- With a missing component nothing resolves. -/
theorem realpath_through (h : fs.StopsAt path before name rest dir) (hbefore : before ≠ [])
    (hmissing : fs.tree.node (dir ++ [name]) = none) (more : Path) :
    fs.realpath (before ++ name.chars :: more) = none := by
  obtain ⟨left, hleft⟩ := LinkTree.walk_append (start_dir path) h.leads h.isDir
  have hstart : fs.start (before ++ name.chars :: more) = fs.start path := by
    rw [h.split, start_append hbefore, start_append hbefore]
  have hnone : before ++ name.chars :: more ≠ [[]] := by
    intro hempty
    obtain ⟨first, others, rfl⟩ := List.exists_cons_of_ne_nil hbefore
    rw [List.cons_append] at hempty
    exact absurd (List.cons.inj hempty).2 (by simp)
  rw [realpath_of_ne hnone, hstart, List.map_append, List.map_cons, toComponent_chars]
  exact (hleft _ _).trans (LinkTree.walk_missing hmissing)

/-- **The walk up** comes back to the missing component, by induction on the parts behind it. -/
theorem peel_eq (h : fs.StopsAt path before name rest dir) (hbefore : before ≠ [])
    (hmissing : fs.tree.node (dir ++ [name]) = none) (behind tail : Path) :
    fs.peel path (before ++ name.chars :: behind).reverse tail =
      fs.normaliseParent
        ([] :: (dir.map (·.chars) ++ name.chars :: (keptParts behind ++ tail))) := by
  induction behind using List.reverseRecOn generalizing tail with
  | nil =>
      have hkept : keptParts [name.chars] = [name.chars] := keptParts_cons_name name []
      have hreal : fs.realpath
          (if before.reverse = [[]] then rootPath else before.reverse.reverse) = some dir := by
        rw [List.reverse_reverse, ← h.realpath_before hbefore]
        congr 2
        exact propext ⟨fun hrev => by simpa using congrArg List.reverse hrev,
          fun hroot => by rw [hroot]; rfl⟩
      have hlast : keptParts [name.chars] ≠ [] := by
        rw [hkept]
        exact List.cons_ne_nil _ _
      rw [List.reverse_append, List.reverse_cons, List.reverse_nil, List.nil_append,
        List.singleton_append, peel_found (by simpa using hbefore) hreal hlast, hkept]
      rfl
  | append_singleton behind last ih =>
      have hsplit : (before ++ name.chars :: (behind ++ [last])).reverse =
          last :: (before ++ name.chars :: behind).reverse := by
        rw [← List.cons_append, ← List.append_assoc, List.reverse_append]
        rfl
      have hreal : fs.realpath (if (before ++ name.chars :: behind).reverse = [[]] then rootPath
          else (before ++ name.chars :: behind).reverse.reverse) = none := by
        have hlong : (before ++ name.chars :: behind).reverse ≠ [[]] := by
          intro hempty
          have hlength := congrArg List.length hempty
          have hpos : 0 < before.length := List.length_pos_iff.mpr hbefore
          simp only [List.length_reverse, List.length_append, List.length_cons,
            List.length_nil] at hlength
          omega
        rw [if_neg hlong, List.reverse_reverse]
        exact h.realpath_through hbefore hmissing behind
      rw [hsplit, peel_missing (by simp) hreal, ih, keptParts, keptParts, keptParts,
        List.filter_append, List.append_assoc]

end StopsAt

/-! ## What is accepted -/

theorem not_forbidden_of_policy {file : List FileName}
    (h : checkConfigPathPolicy (canonicalPath file) = true) : ¬Forbidden file := by
  rintro ⟨dir, name, rest, rfl, hdir⟩
  have hcanonical : canonicalPath (dir :: name :: rest) =
      [] :: dir.chars :: name.chars :: rest.map (·.chars) := rfl
  unfold checkConfigPathPolicy at h
  rw [hcanonical] at h
  simp only [Bool.and_eq_true, decide_eq_true_eq] at h
  exact h.2 hdir

/-- What is accepted has a resolved path that the policy allows. -/
theorem policy_of_validate {path : Bytes} {require : Bool}
    (h : fs.validateConfigPath path require = true) :
    ∃ canonical found, fs.resolveConfigTarget (splitSlash path) = some (canonical, found) ∧
      checkConfigPathPolicy canonical = true := by
  unfold validateConfigPath at h
  cases htarget : fs.resolveConfigTarget (splitSlash path) with
  | none =>
      rw [htarget] at h
      cases h
  | some target =>
      rw [htarget] at h
      exact ⟨target.1, target.2, rfl, (Bool.and_eq_true_iff.mp h).1⟩

/-- **A path that stops at a missing component** is judged by the place it leads to. -/
theorem not_forbidden_of_missing {path before rest canonical : Path} {name : FileName}
    {dir file : List FileName} {found : Bool} (h : fs.StopsAt path before name rest dir)
    (hbefore : before ≠ []) (hmissing : fs.tree.node (dir ++ [name]) = none)
    (htarget : fs.resolveConfigTarget path = some (canonical, found))
    (hpolicy : checkConfigPathPolicy canonical = true) (hfile : fs.leadsTo path = some file) :
    ¬Forbidden file := by
  have hnone : fs.realpath path = none := by
    rw [h.split]
    exact h.realpath_through hbefore hmissing rest
  have hpeel := h.peel_eq hbefore hmissing rest []
  rw [← h.split, List.append_nil] at hpeel
  unfold resolveConfigTarget at htarget
  rw [hnone] at htarget
  split_ifs at htarget
  obtain ⟨out, hout, hpair⟩ := Option.map_eq_some_iff.mp htarget
  obtain ⟨rfl, -⟩ := Prod.mk.inj hpair
  rw [hpeel] at hout
  obtain ⟨rfl, hup⟩ := normaliseParent_missing h.isDir hmissing hout
  have hrest : bytes ".." ∉ rest := fun hmem => hup (List.mem_filter.mpr ⟨hmem, by decide⟩)
  obtain ⟨left, hleft⟩ := LinkTree.walk_append (start_dir path) h.leads h.isDir
  obtain ⟨names, hnames, hwalk⟩ := walk_missing_parts left hmissing hrest
  have hplace : file = dir ++ name :: names := by
    have hparts : path.map toComponent =
        before.map toComponent ++ .name name :: rest.map toComponent := by
      rw [h.split, List.map_append, List.map_cons, toComponent_chars]
    unfold leadsTo LinkTree.place at hfile
    rw [hparts, hleft, LinkTree.walk_missing hmissing, if_pos rfl, hwalk] at hfile
    rw [← Option.some.inj hfile, List.append_assoc]
    rfl
  refine not_forbidden_of_policy ?_
  have hcanonical : canonicalPath file =
      [] :: (dir.map (·.chars) ++ name.chars :: keptParts rest) := by
    unfold canonicalPath absolutePath
    rw [hplace, List.map_append, List.map_cons, hnames, if_neg (by simp)]
  rwa [hcanonical]

/-- **A path that resolves** is judged by the file it is. -/
theorem not_forbidden_of_found {path canonical : Path} {file : List FileName} {found : Bool}
    (htarget : fs.resolveConfigTarget path = some (canonical, found))
    (hpolicy : checkConfigPathPolicy canonical = true) (hfile : fs.realpath path = some file) :
    ¬Forbidden file := by
  unfold resolveConfigTarget at htarget
  rw [hfile] at htarget
  split_ifs at htarget
  obtain ⟨rfl, -⟩ := Prod.mk.inj (Option.some.inj htarget)
  exact not_forbidden_of_policy hpolicy

/-- A path that leads under a forbidden directory gets there. -/
theorem not_safe_of_leadsTo {path : Path} {file : List FileName} (hpath : path ≠ [[]])
    (hleads : fs.leadsTo path = some file) (hforbidden : Forbidden file) : ¬fs.Safe path := by
  intro hsafe
  obtain ⟨tree, hcreated, hresolve⟩ := LinkTree.exists_created_resolve (start_dir _) hleads
  have hdir : tree.node fs.cwd = some .dir := LinkTree.node_of_created hcreated fs.cwd_dir
  have hlater : fs.Later ⟨tree, fs.cwd, hdir⟩ := ⟨hcreated, rfl⟩
  refine hsafe _ hlater file ?_ hforbidden
  rw [realpath_of_ne hpath]
  exact hresolve

/-- What the path resolves to later is where it leads now. -/
theorem leadsTo_of_later {path : Path} {file : List FileName} {fs' : FileSystem}
    (hlater : fs.Later fs') (hpath : path ≠ [[]]) (hfile : fs'.realpath path = some file) :
    fs.leadsTo path = some file := by
  obtain ⟨hcreated, hcwd⟩ := hlater
  have hstart : fs'.start path = fs.start path := by
    unfold start
    rw [hcwd]
  rw [realpath_of_ne hpath, hstart] at hfile
  exact LinkTree.place_of_created hcreated hfile

/-- **The path policy.**  An accepted path stays clear of the forbidden directories, however its
missing components are created, unless it leads under one and resolving it stops at a link or at
the first component of a relative path. -/
theorem path_policy_iff {path : Bytes} {require : Bool}
    (haccept : fs.validateConfigPath path require = true) :
    fs.Safe (splitSlash path) ↔
      ¬(fs.Misjudged (splitSlash path) ∧
        ∃ file, fs.leadsTo (splitSlash path) = some file ∧ Forbidden file) := by
  obtain ⟨canonical, found, htarget, hpolicy⟩ := policy_of_validate haccept
  have hpath : splitSlash path ≠ [[]] := by
    intro hempty
    rw [hempty] at htarget
    cases htarget
  constructor
  · rintro hsafe ⟨-, file, hleads, hforbidden⟩
    exact not_safe_of_leadsTo hpath hleads hforbidden hsafe
  · intro hjudged fs' hlater file hfile hforbidden
    have hleads := leadsTo_of_later hlater hpath hfile
    cases hnow : fs.realpath (splitSlash path) with
    | some now =>
        -- it resolves already, to the same file
        have hplace := leadsTo_of_later ⟨.refl, rfl⟩ hpath hnow
        rw [hleads] at hplace
        obtain rfl := Option.some.inj hplace
        exact not_forbidden_of_found htarget hpolicy hnow hforbidden
    | none =>
        have hunresolved := hnow
        rw [realpath_of_ne hpath] at hunresolved
        obtain ⟨before, name, rest, dir, hstops⟩ := exists_stopsAt hunresolved hleads
        have hclear : ¬(before = [] ∨
            ∃ absolute target, fs.tree.node (dir ++ [name]) = some (.link absolute target)) :=
          fun hbad => hjudged ⟨⟨before, name, rest, dir, hstops, hbad⟩, file, hleads, hforbidden⟩
        have hmissing : fs.tree.node (dir ++ [name]) = none :=
          hstops.node.resolve_right fun hlink => hclear (.inr hlink)
        exact not_forbidden_of_missing hstops (fun hnil => hclear (.inl hnil)) hmissing htarget
          hpolicy hleads hforbidden

/-! ## A link to nowhere -/

def tmpName : FileName := ⟨bytes "tmp", by decide, by decide, by decide⟩
def devName : FileName := ⟨bytes "dev", by decide, by decide, by decide⟩
def configName : FileName := ⟨bytes "a.json", by decide, by decide, by decide⟩

/-- `/tmp` and `/dev`, and a link in `/tmp` to a file in `/dev` that is not there. -/
def linkedTree : LinkTree FileName :=
  let dirs := (LinkTree.bare.create [] tmpName .dir ⟨rfl, rfl⟩).create [] devName .dir ⟨rfl, rfl⟩
  dirs.create [tmpName] configName (.link true [.name devName, .name configName]) ⟨rfl, rfl⟩

def linkedFiles : FileSystem := ⟨linkedTree, [], rfl⟩

/-- A new file in the directory is accepted, and stays clear. -/
theorem path_policy_iff_new_file :
    linkedFiles.validateConfigPath (bytes "/tmp/b.json") true = true ∧
      linkedFiles.Safe (splitSlash (bytes "/tmp/b.json")) := by
  have haccept : linkedFiles.validateConfigPath (bytes "/tmp/b.json") true = true := by
    decide +kernel
  refine ⟨haccept, (path_policy_iff haccept).mpr ?_⟩
  rintro ⟨-, file, hleads, dir, name, rest, rfl, hdir⟩
  have hplace : (linkedFiles.leadsTo (splitSlash (bytes "/tmp/b.json"))).map
      (·.map (·.chars)) = some [bytes "tmp", bytes "b.json"] := by
    decide +kernel
  rw [hleads] at hplace
  obtain ⟨hfirst, -⟩ := List.cons.inj (Option.some.inj hplace)
  rw [show dir.chars = bytes "tmp" from hfirst] at hdir
  exact absurd hdir (by decide)

/-- The link is accepted, though a file created through it is in `/dev`. -/
theorem dangling_link_accepted :
    ¬∀ (fs : FileSystem) (path : Bytes) (require : Bool),
      fs.validateConfigPath path require = true → fs.Safe (splitSlash path) := by
  intro hclaim
  have haccept : linkedFiles.validateConfigPath (bytes "/tmp/a.json") true = true := by
    decide +kernel
  have hleads : linkedFiles.leadsTo (splitSlash (bytes "/tmp/a.json")) =
      some [devName, configName] := by
    decide +kernel
  exact not_safe_of_leadsTo (by decide) hleads ⟨devName, configName, [], rfl, by decide⟩
    (hclaim linkedFiles (bytes "/tmp/a.json") true haccept)

end FileSystem
end AbrekMouse
