/-
# Trees of files

The files below a directory, each under the names that lead to it. A directory is
there as far as it holds a file. Writing, removing and copying are given by what
can be read afterwards, and each comes with the files it leaves alone.
-/

import Mathlib.Data.List.Infix
import Mathlib.Logic.Function.Basic

namespace Lib

universe u

variable {γ : Type u}

/-- The names that lead to a file, the last one being its own. -/
abbrev FilePath := List String

/-- What is in each file; `none` where there is none. -/
abbrev FileTree (γ : Type u) := FilePath → Option γ

namespace FileTree

/-- A tree without files. -/
def empty : FileTree γ := fun _ => none

/-- The tree after a file was written. -/
def write (t : FileTree γ) (path : FilePath) (content : γ) : FileTree γ :=
  Function.update t path (some content)

/-- The tree after the files with a property of their path were removed. -/
def removeWhere (t : FileTree γ) (p : FilePath → Bool) : FileTree γ :=
  fun path => if p path then none else t path

/-- A path is below a directory. -/
def isBelow (dir path : FilePath) : Bool := dir.isPrefixOf path && path != dir

/-- The tree after a directory was removed with all it holds. -/
def removeTree (t : FileTree γ) (dir : FilePath) : FileTree γ := t.removeWhere (isBelow dir)

/-- A path is one of the files of a directory itself whose name has a property. -/
def isChild (dir : FilePath) (p : String → Bool) (path : FilePath) : Bool :=
  match dir.isPrefixOf? path with
  | some [name] => p name
  | _ => false

/-- The tree after the files of a directory were removed whose name has a property. -/
def removeMatching (t : FileTree γ) (dir : FilePath) (p : String → Bool) : FileTree γ :=
  t.removeWhere (isChild dir p)

/-- The tree after the files of another one were copied to a directory. -/
def copyTree (t src : FileTree γ) (dir : FilePath) : FileTree γ := fun path =>
  match dir.isPrefixOf? path with
  | some rest => (src rest).or (t path)
  | none => t path

/-- The files below a directory, under their paths in it. -/
def sub (t : FileTree γ) (dir : FilePath) : FileTree γ := fun path => t (dir ++ path)

/-- Where one step of a path leads from a directory. -/
def enter (dir : FilePath) (step : String) : FilePath :=
  if step = "" ∨ step = "." then dir
  else if step = ".." then dir.dropLast
  else dir ++ [step]

/-- Where a path that is written out leads from a directory. -/
def resolve (dir : FilePath) (text : String) : FilePath :=
  ((text.toList.splitOn '/').map String.ofList).foldl enter
    (if ['/'].isPrefixOf text.toList then [] else dir)

variable {t src : FileTree γ} {path dir other : FilePath} {content : γ} {p : String → Bool}

@[simp]
theorem write_self : t.write path content path = some content := Function.update_self ..

theorem write_ne (h : other ≠ path) : t.write path content other = t other :=
  Function.update_of_ne h ..

theorem write_apply : t.write path content other = if other = path then some content else t other :=
  Function.update_apply ..

theorem isBelow_append {rest : FilePath} (h : rest ≠ []) : isBelow dir (dir ++ rest) = true := by
  simp [isBelow, h]

theorem isBelow_iff : isBelow dir path = true ↔ ∃ rest, rest ≠ [] ∧ path = dir ++ rest := by
  constructor
  · intro h
    simp only [isBelow, Bool.and_eq_true, List.isPrefixOf_iff_prefix, bne_iff_ne] at h
    obtain ⟨⟨rest, rfl⟩, hne⟩ := h
    exact ⟨rest, by simpa using hne, rfl⟩
  · rintro ⟨rest, hne, rfl⟩
    exact isBelow_append hne

theorem isChild_iff : isChild dir p path = true ↔ ∃ name, p name = true ∧ path = dir ++ [name] := by
  unfold isChild
  constructor
  · intro h
    split at h
    · next name hrest => exact ⟨name, h, (List.isPrefixOf?_eq_some_iff_append_eq.mp hrest).symm⟩
    · cases h
  · rintro ⟨name, hname, rfl⟩
    have hrest : dir.isPrefixOf? (dir ++ [name]) = some [name] :=
      List.isPrefixOf?_eq_some_iff_append_eq.mpr rfl
    rw [hrest]
    exact hname

theorem removeTree_below (h : isBelow dir path = true) : t.removeTree dir path = none :=
  if_pos h

theorem removeTree_of_not_below (h : isBelow dir path = false) :
    t.removeTree dir path = t path := by
  rw [removeTree, removeWhere, h]
  rfl

/-- Without the files that may differ the trees are equal. -/
theorem removeWhere_eq_iff {t' : FileTree γ} {q : FilePath → Bool} :
    t'.removeWhere q = t.removeWhere q ↔ ∀ path, q path = false → t' path = t path := by
  constructor
  · intro h path hpath
    have happly := congrFun h path
    rwa [removeWhere, removeWhere, hpath] at happly
  · intro h
    funext path
    rw [removeWhere, removeWhere]
    cases hpath : q path with
    | true => rfl
    | false => exact h path hpath

theorem removeWhere_write {q : FilePath → Bool} (h : q path = true) :
    (t.write path content).removeWhere q = t.removeWhere q := by
  refine removeWhere_eq_iff.mpr fun other hother => write_ne ?_
  rintro rfl
  rw [h] at hother
  cases hother

theorem isChild_append {name : String} (h : p name = true) : isChild dir p (dir ++ [name]) = true :=
  isChild_iff.mpr ⟨name, h, rfl⟩

theorem removeMatching_apply :
    t.removeMatching dir p path = if isChild dir p path then none else t path := rfl

theorem copyTree_append {rest : FilePath} :
    t.copyTree src dir (dir ++ rest) = (src rest).or (t (dir ++ rest)) := by
  have hrest : dir.isPrefixOf? (dir ++ rest) = some rest :=
    List.isPrefixOf?_eq_some_iff_append_eq.mpr rfl
  rw [copyTree, hrest]

theorem copyTree_of_not_below (h : isBelow dir path = false) (hroot : src [] = none) :
    t.copyTree src dir path = t path := by
  unfold copyTree
  split
  · next rest hrest =>
      obtain rfl := List.isPrefixOf?_eq_some_iff_append_eq.mp hrest
      cases rest with
      | nil =>
          rw [hroot]
          rfl
      | cons name rest =>
          rw [isBelow_append (List.cons_ne_nil name rest)] at h
          cases h
  · rfl

/-- A directory that is removed before the copy holds the copied files and no others. -/
theorem sub_copyTree_removeTree (hroot : src [] = none) (hdir : t dir = none) :
    ((t.removeTree dir).copyTree src dir).sub dir = src := by
  funext rest
  rw [sub, copyTree_append]
  cases rest with
  | nil =>
      rw [hroot, List.append_nil, removeTree_of_not_below (by simp [isBelow]), hdir]
      rfl
  | cons name rest =>
      rw [removeTree_below (isBelow_append (List.cons_ne_nil name rest)), Option.or_none]

/-- A write in a directory is a write in what the directory holds. -/
theorem sub_write {rest : FilePath} : (t.write (dir ++ rest) content).sub dir =
    (t.sub dir).write rest content := by
  funext path
  rw [sub, write_apply, write_apply, sub]
  simp

/-- Writes in a directory are writes in what the directory holds. -/
theorem sub_foldl_write {α : Type*} (items : List α) (pathOf : α → FilePath) (contentOf : α → γ)
    (t : FileTree γ) :
    (items.foldl (fun t a => t.write (dir ++ pathOf a) (contentOf a)) t).sub dir =
      items.foldl (fun t a => t.write (pathOf a) (contentOf a)) (t.sub dir) := by
  induction items generalizing t with
  | nil => rfl
  | cons a rest ih => rw [List.foldl_cons, List.foldl_cons, ih, sub_write]

/-- Writes change nothing at another path. -/
theorem foldl_write_ne {α : Type*} (items : List α) (pathOf : α → FilePath)
    (contentOf : α → γ) (t : FileTree γ) (h : ∀ a ∈ items, other ≠ pathOf a) :
    items.foldl (fun t a => t.write (pathOf a) (contentOf a)) t other = t other := by
  induction items generalizing t with
  | nil => rfl
  | cons a rest ih =>
      rw [List.forall_mem_cons] at h
      rw [List.foldl_cons, ih _ h.2, write_ne h.1]

/-- A write elsewhere does not change what the directory holds. -/
theorem sub_write_of_not_below (h : isBelow dir path = false) (hne : path ≠ dir) :
    (t.write path content).sub dir = t.sub dir := by
  funext rest
  rw [sub, sub, write_ne]
  rintro rfl
  cases rest with
  | nil => exact hne (List.append_nil dir)
  | cons name rest =>
      rw [isBelow_append (List.cons_ne_nil name rest)] at h
      cases h

end FileTree

end Lib
