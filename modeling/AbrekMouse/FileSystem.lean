import Mathlib.Logic.Function.Basic
import Mathlib.Data.Nat.Notation

/-! # Files, by name and by inode

A directory maps names to inodes, and an inode has its data.  Whoever has opened a file
holds its inode, so a later `unlink` or `rename` of the name does not touch what it
reads or writes.

An inode that a name has was handed out before (`names_lt`), which makes the inode of a
new file fresh.
-/
namespace ProgLib

/-- The files of a directory. -/
structure Files (Name Byte : Type) where
  names : Name → Option ℕ
  data : ℕ → List Byte
  /-- The next inode to be handed out. -/
  next : ℕ
  names_lt : ∀ name file, names name = some file → file < next

namespace Files
variable {Name Byte : Type} [DecidableEq Name] (fs : Files Name Byte)

/-- `open` with `O_CREAT | O_EXCL`, where there is no such name yet: a new inode. -/
def create (name : Name) : Files Name Byte where
  names := Function.update fs.names name (some fs.next)
  data := Function.update fs.data fs.next []
  next := fs.next + 1
  names_lt := by
    intro other file h
    by_cases hname : other = name
    · rw [hname, Function.update_self] at h
      cases h
      exact Nat.lt_succ_self _
    · rw [Function.update_of_ne hname] at h
      exact Nat.lt_succ_of_lt (fs.names_lt other file h)

/-- A write at the end of an opened file. -/
def append (file : ℕ) (bytes : List Byte) : Files Name Byte :=
  { fs with data := Function.update fs.data file (fs.data file ++ bytes) }

def unlink (name : Name) : Files Name Byte where
  names := Function.update fs.names name none
  data := fs.data
  next := fs.next
  names_lt := by
    intro other file h
    by_cases hname : other = name
    · rw [hname, Function.update_self] at h
      cases h
    · rw [Function.update_of_ne hname] at h
      exact fs.names_lt other file h

/-- `link`, where there is no file `dst` yet. -/
def link (src dst : Name) : Files Name Byte where
  names := Function.update fs.names dst (fs.names src)
  data := fs.data
  next := fs.next
  names_lt := by
    intro other file h
    by_cases hname : other = dst
    · rw [hname, Function.update_self] at h
      exact fs.names_lt src file h
    · rw [Function.update_of_ne hname] at h
      exact fs.names_lt other file h

/-- `rename` of a file.  Nothing happens where the two are names of one inode. -/
def rename (src dst : Name) : Files Name Byte :=
  if fs.names src = fs.names dst then fs else (fs.link src dst).unlink src

variable {fs} {name other src dst : Name} {file : ℕ} {bytes : List Byte}

@[simp] theorem names_create_self : (fs.create name).names name = some fs.next :=
  Function.update_self ..

@[simp] theorem names_create_of_ne (h : other ≠ name) :
    (fs.create name).names other = fs.names other :=
  Function.update_of_ne h ..

@[simp] theorem data_create_self : (fs.create name).data fs.next = [] := Function.update_self ..

omit [DecidableEq Name] in
@[simp] theorem data_append_self : (fs.append file bytes).data file = fs.data file ++ bytes :=
  Function.update_self ..

omit [DecidableEq Name] in
@[simp] theorem names_append : (fs.append file bytes).names = fs.names := rfl

@[simp] theorem names_unlink_self : (fs.unlink name).names name = none := Function.update_self ..

@[simp] theorem names_unlink_of_ne (h : other ≠ name) :
    (fs.unlink name).names other = fs.names other :=
  Function.update_of_ne h ..

/-- A name that is left has the file it had. -/
theorem names_unlink_eq_some (h : (fs.unlink name).names other = some file) :
    fs.names other = some file := by
  by_cases hname : other = name
  · rw [hname, names_unlink_self] at h
    cases h
  · rwa [names_unlink_of_ne hname] at h

@[simp] theorem names_link_self : (fs.link src dst).names dst = fs.names src :=
  Function.update_self ..

@[simp] theorem names_link_of_ne (h : other ≠ dst) :
    (fs.link src dst).names other = fs.names other :=
  Function.update_of_ne h ..

@[simp] theorem data_rename : (fs.rename src dst).data = fs.data := by
  unfold rename
  split <;> rfl

@[simp] theorem next_rename : (fs.rename src dst).next = fs.next := by
  unfold rename
  split <;> rfl

/-- **A rename puts the file in the place of the old one.** -/
theorem names_rename_self : (fs.rename src dst).names dst = fs.names src := by
  by_cases hsame : fs.names src = fs.names dst
  · rw [rename, if_pos hsame, hsame]
  · have hne : dst ≠ src := by
      intro h
      exact hsame (h ▸ rfl)
    rw [rename, if_neg hsame, names_unlink_of_ne hne, names_link_self]

theorem names_rename_of_ne (hsrc : other ≠ src) (hdst : other ≠ dst) :
    (fs.rename src dst).names other = fs.names other := by
  unfold rename
  split
  · rfl
  · rw [names_unlink_of_ne hsrc, names_link_of_ne hdst]

/-- A name that is left has the file it had, or is the new name of the renamed one. -/
theorem names_rename_eq_some (h : (fs.rename src dst).names name = some file) :
    fs.names name = some file ∨ fs.names src = some file := by
  by_cases hdst : name = dst
  · rw [hdst, names_rename_self] at h
    exact .inr h
  · by_cases hsrc : name = src
    · unfold rename at h
      split at h
      · exact .inl h
      · exact .inl ((names_link_of_ne hdst).symm.trans (names_unlink_eq_some h))
    · rw [names_rename_of_ne hsrc hdst] at h
      exact .inl h

end Files
end ProgLib
