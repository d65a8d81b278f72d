import Mathlib.Data.List.Induction
import Mathlib.Logic.Function.Basic
import Mathlib.Logic.Relation
import Mathlib.Data.Nat.Notation

/-! # Trees of files with symbolic links

A tree gives the node at each path from the root.  `resolve` walks along a path, going through
the symbolic links on the way, at most as many as a limit allows; it fails at a component that
is missing.  `place` walks on there, taking what is missing for a directory.

The two are connected by the trees that come later: creating missing components, as directories
or files, changes no place, and a path resolves in some later tree just to its place
(`place_of_created`, `exists_created_resolve`).
-/
namespace ProgLib

/-- A component of a path: nothing or a dot, two dots, or a name. -/
inductive Component (Name : Type)
  | self
  | up
  | name (n : Name)
deriving DecidableEq

inductive FileNode (Name : Type)
  | dir
  | file (regular : Bool) (size : ℕ)
  | link (absolute : Bool) (target : List (Component Name))
deriving DecidableEq

def FileNode.isLink {Name : Type} : FileNode Name → Bool
  | link _ _ => true
  | _ => false

/-- The nodes by their paths; what has a parent has it in a directory. -/
structure LinkTree (Name : Type) where
  node : List Name → Option (FileNode Name)
  root : node [] = some .dir
  parent : ∀ {path name}, node (path ++ [name]) ≠ none → node path = some .dir

namespace LinkTree
variable {Name : Type}

/-- Nothing but the root. -/
def bare [DecidableEq Name] : LinkTree Name where
  node path := if path = [] then some .dir else none
  root := rfl
  parent := by simp

/-- A walk from a directory.  `through` says whether a missing component is walked through, and
`follow` goes on behind a link. -/
def walkWith (t : LinkTree Name) (through : Bool)
    (follow : List Name → List (Component Name) → Option (List Name)) :
    List Name → List (Component Name) → Option (List Name)
  | cur, [] => some cur
  | cur, .self :: rest => walkWith t through follow cur rest
  | cur, .up :: rest => walkWith t through follow cur.dropLast rest
  | cur, .name n :: rest =>
      match t.node (cur ++ [n]) with
      | none => if through then walkWith t through follow (cur ++ [n]) rest else none
      | some .dir => walkWith t through follow (cur ++ [n]) rest
      | some (.file _ _) => if rest = [] then some (cur ++ [n]) else none
      | some (.link absolute target) => follow (if absolute then [] else cur) (target ++ rest)

/-- A walk through at most so many links. -/
def walk (t : LinkTree Name) (through : Bool) :
    ℕ → List Name → List (Component Name) → Option (List Name)
  | 0 => walkWith t through fun _ _ => none
  | links + 1 => walkWith t through (walk t through links)

/-- Where a path leads. -/
def resolve (t : LinkTree Name) (links : ℕ) (cur : List Name) (path : List (Component Name)) :
    Option (List Name) := walk t false links cur path

/-- Where a path leads once its missing components are there. -/
def place (t : LinkTree Name) (links : ℕ) (cur : List Name) (path : List (Component Name)) :
    Option (List Name) := walk t true links cur path

variable {t : LinkTree Name} {through : Bool} {links : ℕ} {cur : List Name} {n : Name}
variable {rest path : List (Component Name)} {r : List Name}

/-! ## Steps of a walk -/

@[simp] theorem walk_nil : walk t through links cur [] = some cur := by
  cases links <;> rfl

@[simp] theorem walk_self :
    walk t through links cur (.self :: rest) = walk t through links cur rest := by
  cases links <;> rfl

@[simp] theorem walk_up :
    walk t through links cur (.up :: rest) = walk t through links cur.dropLast rest := by
  cases links <;> rfl

theorem walk_missing (h : t.node (cur ++ [n]) = none) :
    walk t through links cur (.name n :: rest) =
      if through then walk t through links (cur ++ [n]) rest else none := by
  cases links <;> simp only [walk, walkWith, h]

theorem walk_dir (h : t.node (cur ++ [n]) = some .dir) :
    walk t through links cur (.name n :: rest) = walk t through links (cur ++ [n]) rest := by
  cases links <;> simp only [walk, walkWith, h]

theorem walk_file {regular : Bool} {size : ℕ}
    (h : t.node (cur ++ [n]) = some (.file regular size)) :
    walk t through links cur (.name n :: rest) = if rest = [] then some (cur ++ [n]) else none := by
  cases links <;> simp only [walk, walkWith, h]

theorem walk_link_zero {absolute : Bool} {target : List (Component Name)}
    (h : t.node (cur ++ [n]) = some (.link absolute target)) :
    walk t through 0 cur (.name n :: rest) = none := by
  simp only [walk, walkWith, h]

theorem walk_link_succ {absolute : Bool} {target : List (Component Name)}
    (h : t.node (cur ++ [n]) = some (.link absolute target)) :
    walk t through (links + 1) cur (.name n :: rest) =
      walk t through links (if absolute then [] else cur) (target ++ rest) := by
  simp only [walk, walkWith, h]

theorem node_dropLast (h : t.node cur = some .dir) : t.node cur.dropLast = some .dir := by
  rcases List.eq_nil_or_concat cur with rfl | ⟨path, name, rfl⟩
  · exact h
  · rw [List.concat_eq_append] at h ⊢
    rw [List.dropLast_concat]
    exact t.parent (by rw [h]; exact Option.some_ne_none _)

/-- Below what is missing everything is. -/
theorem node_append_eq_none (h : t.node cur = none) : ∀ names, t.node (cur ++ names) = none := by
  intro names
  induction names using List.reverseRecOn with
  | nil => rwa [List.append_nil]
  | append_singleton names name ih =>
      by_contra hne
      rw [← List.append_assoc] at hne
      rw [t.parent hne] at ih
      cases ih

/-- What is below something is below a directory. -/
theorem node_of_append {names : List Name} (hne : names ≠ []) (h : t.node (cur ++ names) ≠ none) :
    t.node cur = some .dir := by
  induction names using List.reverseRecOn with
  | nil => exact absurd rfl hne
  | append_singleton names name ih =>
      rw [← List.append_assoc] at h
      have hparent := t.parent h
      cases names with
      | nil => rwa [List.append_nil] at hparent
      | cons first names =>
          refine ih (List.cons_ne_nil _ _) ?_
          rw [hparent]
          exact Option.some_ne_none _

/-- **Induction along a walk**: on the links that are left, and for these on the path. -/
@[elab_as_elim]
theorem walk_induction {motive : ℕ → List Name → List (Component Name) → Prop}
    (nil : ∀ links cur, motive links cur [])
    (self : ∀ links cur rest, motive links cur rest → motive links cur (.self :: rest))
    (up : ∀ links cur rest, motive links cur.dropLast rest → motive links cur (.up :: rest))
    (name : ∀ links cur n rest, motive links (cur ++ [n]) rest →
      (∀ left base target, links = left + 1 → motive left base (target ++ rest)) →
      motive links cur (.name n :: rest))
    (links : ℕ) (cur : List Name) (path : List (Component Name)) : motive links cur path := by
  induction links generalizing cur path with
  | zero =>
      induction path generalizing cur with
      | nil => exact nil 0 cur
      | cons c rest ih =>
          cases c with
          | self => exact self 0 cur rest (ih cur)
          | up => exact up 0 cur rest (ih _)
          | name n => exact name 0 cur n rest (ih _) fun left _ _ h => nomatch h
  | succ links ihlinks =>
      induction path generalizing cur with
      | nil => exact nil _ cur
      | cons c rest ih =>
          cases c with
          | self => exact self _ cur rest (ih cur)
          | up => exact up _ cur rest (ih _)
          | name n =>
              refine name _ cur n rest (ih _) fun left base target h => ?_
              obtain rfl : links = left := Nat.succ.inj h
              exact ihlinks base (target ++ rest)

/-- **A walk in two parts.**  What was resolved to a directory is walked on from there, with the
links that are left. -/
theorem walk_append (hcur : t.node cur = some .dir) (h : resolve t links cur path = some r)
    (hr : t.node r = some .dir) :
    ∃ left, ∀ through rest,
      walk t through links cur (path ++ rest) = walk t through left r rest := by
  unfold resolve at h
  induction links, cur, path using walk_induction with
  | nil links cur =>
      rw [walk_nil] at h
      cases h
      exact ⟨links, fun _ _ => rfl⟩
  | self links cur rest ih =>
      rw [walk_self] at h
      obtain ⟨left, hleft⟩ := ih hcur h
      exact ⟨left, fun through more => walk_self.trans (hleft through more)⟩
  | up links cur rest ih =>
      rw [walk_up] at h
      obtain ⟨left, hleft⟩ := ih (node_dropLast hcur) h
      exact ⟨left, fun through more => walk_up.trans (hleft through more)⟩
  | name links cur n rest ih ihlink =>
      rcases hnode : t.node (cur ++ [n]) with _ | (_ | _ | ⟨absolute, target⟩)
      · rw [walk_missing hnode] at h
        cases h
      · rw [walk_dir hnode] at h
        obtain ⟨left, hleft⟩ := ih hnode h
        exact ⟨left, fun through more => (walk_dir hnode).trans (hleft through more)⟩
      · -- a file is not a directory
        rw [walk_file hnode] at h
        split_ifs at h
        cases h
        rw [hnode] at hr
        cases hr
      · cases links with
        | zero =>
            rw [walk_link_zero hnode] at h
            cases h
        | succ links =>
            rw [walk_link_succ hnode] at h
            have hbase : t.node (if absolute then [] else cur) = some .dir := by
              split_ifs
              · exact t.root
              · exact hcur
            obtain ⟨left, hleft⟩ := ihlink links _ target rfl hbase h
            refine ⟨left, fun through more => (walk_link_succ hnode).trans ?_⟩
            rw [← hleft through more, List.append_assoc]
            rfl

/-- The names of a directory lead to it. -/
theorem walk_names {names : List Name} (h : t.node (cur ++ names) = some .dir) :
    walk t through links cur (names.map .name) = some (cur ++ names) := by
  induction names generalizing cur with
  | nil => rw [List.map_nil, walk_nil, List.append_nil]
  | cons name names ih =>
      rw [List.append_cons] at h ⊢
      have hfirst : t.node (cur ++ [name]) = some .dir := by
        cases names with
        | nil => rwa [List.append_nil] at h
        | cons second names =>
            refine node_of_append (List.cons_ne_nil second names) ?_
            rw [h]
            exact Option.some_ne_none _
      rw [List.map_cons, walk_dir hfirst]
      exact ih h

/-- Behind a file nothing resolves, and nothing ever will. -/
theorem walk_append_of_not_dir (hcur : t.node cur = some .dir)
    (h : resolve t links cur path = some r) (hr : t.node r ≠ some .dir) (hrest : rest ≠ []) :
    walk t through links cur (path ++ rest) = none := by
  unfold resolve at h
  induction links, cur, path using walk_induction with
  | nil links cur =>
      rw [walk_nil] at h
      cases h
      exact absurd hcur hr
  | self links cur path ih =>
      rw [walk_self] at h
      exact walk_self.trans (ih hcur h)
  | up links cur path ih =>
      rw [walk_up] at h
      exact walk_up.trans (ih (node_dropLast hcur) h)
  | name links cur n path ih ihlink =>
      rcases hnode : t.node (cur ++ [n]) with _ | (_ | _ | ⟨absolute, target⟩)
      · rw [walk_missing hnode] at h
        cases h
      · rw [walk_dir hnode] at h
        exact (walk_dir hnode).trans (ih hnode h)
      · exact (walk_file hnode).trans (if_neg fun hnil => hrest (List.append_eq_nil_iff.mp hnil).2)
      · cases links with
        | zero =>
            rw [walk_link_zero hnode] at h
            cases h
        | succ links =>
            rw [walk_link_succ hnode] at h
            have hbase : t.node (if absolute then [] else cur) = some .dir := by
              split_ifs
              · exact t.root
              · exact hcur
            have hwalk := ihlink links _ target rfl hbase h
            rw [List.append_assoc] at hwalk
            exact (walk_link_succ hnode).trans hwalk

/-- What resolves leads there. -/
theorem place_of_resolve (h : resolve t links cur path = some r) :
    place t links cur path = some r := by
  unfold resolve at h
  unfold place
  induction links, cur, path using walk_induction with
  | nil links cur => rwa [walk_nil] at h ⊢
  | self links cur rest ih =>
      rw [walk_self] at h ⊢
      exact ih h
  | up links cur rest ih =>
      rw [walk_up] at h ⊢
      exact ih h
  | name links cur n rest ih ihlink =>
      rcases hnode : t.node (cur ++ [n]) with _ | (_ | _ | ⟨absolute, target⟩)
      · rw [walk_missing hnode] at h
        cases h
      · rw [walk_dir hnode] at h ⊢
        exact ih h
      · rwa [walk_file hnode] at h ⊢
      · cases links with
        | zero =>
            rw [walk_link_zero hnode] at h
            cases h
        | succ links =>
            rw [walk_link_succ hnode] at h ⊢
            exact ihlink links _ target rfl h

/-! ## Creating what is missing -/

section Create
variable [DecidableEq Name]

/-- A directory or a file is created where there is none, in a directory that is there. -/
structure Vacancy (t : LinkTree Name) (path : List Name) (name : Name) : Prop where
  dir : t.node path = some .dir
  free : t.node (path ++ [name]) = none

def create (t : LinkTree Name) (path : List Name) (name : Name) (node : FileNode Name)
    (h : Vacancy t path name) : LinkTree Name where
  node := Function.update t.node (path ++ [name]) (some node)
  root := by
    rw [Function.update_of_ne (by simp)]
    exact t.root
  parent := by
    intro other last hne
    have hother : other ≠ path ++ [name] := by
      rintro rfl
      have hbelow : t.node (path ++ [name] ++ [last]) = none := node_append_eq_none h.free [last]
      rw [Function.update_of_ne (by simp)] at hne
      exact hne hbelow
    rw [Function.update_of_ne hother]
    by_cases hlast : other ++ [last] = path ++ [name]
    · obtain ⟨rfl, -⟩ := List.append_inj' hlast rfl
      exact h.dir
    · rw [Function.update_of_ne hlast] at hne
      exact t.parent hne

/-- One missing component is created, which is not a link. -/
def Creates (t t' : LinkTree Name) : Prop :=
  ∃ path name node, ∃ h : Vacancy t path name, node.isLink = false ∧ t' = t.create path name node h

/-- Missing components are created. -/
def Created : LinkTree Name → LinkTree Name → Prop := Relation.ReflTransGen Creates

theorem create_node {path : List Name} {name : Name} {node : FileNode Name}
    (h : Vacancy t path name) : (t.create path name node h).node (path ++ [name]) = some node :=
  Function.update_self _ _ _

theorem create_node_of_ne {path other : List Name} {name : Name} {node : FileNode Name}
    (h : Vacancy t path name) (hne : other ≠ path ++ [name]) :
    (t.create path name node h).node other = t.node other :=
  Function.update_of_ne hne _ _

/-- **Creating moves no place.** -/
theorem place_of_creates {t' : LinkTree Name} (hcreate : Creates t t')
    {path : List (Component Name)} (h : place t' links cur path = some r) :
    place t links cur path = some r := by
  obtain ⟨dir, name, node, hvacant, hnode, rfl⟩ := hcreate
  unfold place at h ⊢
  induction links, cur, path using walk_induction with
  | nil links cur => rwa [walk_nil] at h ⊢
  | self links cur rest ih =>
      rw [walk_self] at h ⊢
      exact ih h
  | up links cur rest ih =>
      rw [walk_up] at h ⊢
      exact ih h
  | name links cur n rest ih ihlink =>
      by_cases hnew : cur ++ [n] = dir ++ [name]
      · have hold : t.node (cur ++ [n]) = none := hnew ▸ hvacant.free
        have hthere : (t.create dir name node hvacant).node (cur ++ [n]) = some node :=
          hnew ▸ create_node hvacant
        rw [walk_missing hold, if_pos rfl]
        cases node with
        | dir =>
            rw [walk_dir hthere] at h
            exact ih h
        | file regular size =>
            rw [walk_file hthere] at h
            split_ifs at h with hlast
            rw [hlast, walk_nil]
            exact h
        | link absolute target => cases hnode
      · have hsame : (t.create dir name node hvacant).node (cur ++ [n]) = t.node (cur ++ [n]) :=
          create_node_of_ne hvacant hnew
        rcases hold : t.node (cur ++ [n]) with _ | (_ | _ | ⟨absolute, target⟩)
        · rw [walk_missing (hsame.trans hold), if_pos rfl] at h
          rw [walk_missing hold, if_pos rfl]
          exact ih h
        · rw [walk_dir (hsame.trans hold)] at h
          rw [walk_dir hold]
          exact ih h
        · rw [walk_file (hsame.trans hold)] at h
          rwa [walk_file hold]
        · cases links with
          | zero =>
              rw [walk_link_zero (hsame.trans hold)] at h
              cases h
          | succ links =>
              rw [walk_link_succ (hsame.trans hold)] at h
              rw [walk_link_succ hold]
              exact ihlink links _ target rfl h

/-- **What resolves later leads to the place it has now.** -/
theorem place_of_created {t' : LinkTree Name} (hcreated : Created t t')
    (h : resolve t' links cur path = some r) : place t links cur path = some r := by
  have hplace := place_of_resolve h
  clear h
  induction hcreated with
  | refl => exact hplace
  | tail _ hstep ih => exact ih (place_of_creates hstep hplace)

/-- What is there stays. -/
theorem node_of_created {t' : LinkTree Name} (hcreated : Created t t') {path : List Name}
    {node : FileNode Name} (h : t.node path = some node) : t'.node path = some node := by
  induction hcreated with
  | refl => exact h
  | tail _ hstep ih =>
      obtain ⟨dir, name, new, hvacant, -, rfl⟩ := hstep
      refine (create_node_of_ne hvacant ?_).trans ih
      rintro rfl
      rw [hvacant.free] at ih
      cases ih

/-- A directory more changes no place. -/
theorem place_create_dir {dir : List Name} {name : Name} (hvacant : Vacancy t dir name)
    {path : List (Component Name)} (h : place t links cur path = some r) :
    place (t.create dir name .dir hvacant) links cur path = some r := by
  unfold place at h ⊢
  induction links, cur, path using walk_induction with
  | nil links cur => rwa [walk_nil] at h ⊢
  | self links cur rest ih =>
      rw [walk_self] at h ⊢
      exact ih h
  | up links cur rest ih =>
      rw [walk_up] at h ⊢
      exact ih h
  | name links cur n rest ih ihlink =>
      by_cases hnew : cur ++ [n] = dir ++ [name]
      · have hold : t.node (cur ++ [n]) = none := hnew ▸ hvacant.free
        rw [walk_missing hold, if_pos rfl] at h
        rw [walk_dir (hnew ▸ create_node hvacant)]
        exact ih h
      · have hsame : (t.create dir name .dir hvacant).node (cur ++ [n]) = t.node (cur ++ [n]) :=
          create_node_of_ne hvacant hnew
        rcases hold : t.node (cur ++ [n]) with _ | (_ | _ | ⟨absolute, target⟩)
        · rw [walk_missing hold, if_pos rfl] at h
          rw [walk_missing (hsame.trans hold), if_pos rfl]
          exact ih h
        · rw [walk_dir hold] at h
          rw [walk_dir (hsame.trans hold)]
          exact ih h
        · rw [walk_file hold] at h
          rwa [walk_file (hsame.trans hold)]
        · cases links with
          | zero =>
              rw [walk_link_zero hold] at h
              cases h
          | succ links =>
              rw [walk_link_succ hold] at h
              rw [walk_link_succ (hsame.trans hold)]
              exact ihlink links _ target rfl h

/-- **A place is reached**: once its missing components are created, the path resolves to it. -/
theorem exists_created_resolve (hcur : t.node cur = some .dir)
    (h : place t links cur path = some r) :
    ∃ t', Created t t' ∧ resolve t' links cur path = some r := by
  unfold place at h
  unfold resolve
  induction links, cur, path using walk_induction generalizing t with
  | nil links cur =>
      rw [walk_nil] at h
      exact ⟨t, .refl, walk_nil.trans h⟩
  | self links cur rest ih =>
      rw [walk_self] at h
      obtain ⟨t', ht', hr⟩ := ih hcur h
      exact ⟨t', ht', walk_self.trans hr⟩
  | up links cur rest ih =>
      rw [walk_up] at h
      obtain ⟨t', ht', hr⟩ := ih (node_dropLast hcur) h
      exact ⟨t', ht', walk_up.trans hr⟩
  | name links cur n rest ih ihlink =>
      rcases hnode : t.node (cur ++ [n]) with _ | (_ | _ | ⟨absolute, target⟩)
      · -- the missing component is created as a directory
        rw [walk_missing hnode, if_pos rfl] at h
        have hvacant : Vacancy t cur n := ⟨hcur, hnode⟩
        have hnew : (t.create cur n .dir hvacant).node (cur ++ [n]) = some .dir :=
          create_node hvacant
        obtain ⟨t', ht', hr⟩ := ih hnew (place_create_dir hvacant h)
        have hfirst : Creates t (t.create cur n .dir hvacant) := ⟨cur, n, .dir, hvacant, rfl, rfl⟩
        exact ⟨t', .head hfirst ht', (walk_dir (node_of_created ht' hnew)).trans hr⟩
      · rw [walk_dir hnode] at h
        obtain ⟨t', ht', hr⟩ := ih hnode h
        exact ⟨t', ht', (walk_dir (node_of_created ht' hnode)).trans hr⟩
      · rw [walk_file hnode] at h
        exact ⟨t, .refl, (walk_file hnode).trans h⟩
      · cases links with
        | zero =>
            rw [walk_link_zero hnode] at h
            cases h
        | succ links =>
            rw [walk_link_succ hnode] at h
            have hbase : t.node (if absolute then [] else cur) = some .dir := by
              split_ifs
              · exact t.root
              · exact hcur
            obtain ⟨t', ht', hr⟩ := ihlink links _ target rfl hbase h
            exact ⟨t', ht', (walk_link_succ (node_of_created ht' hnode)).trans hr⟩

end Create
end LinkTree
end ProgLib
