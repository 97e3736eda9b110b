/-
# The build directory

The files `build_io` keeps in the build directory of a cluster, as far as the
programs read them back: the manifest, the inventory, and the directories with
what they hold. `copy_files_recursively` lists the files first and copies them
one after the other. Modification times are asked for and not kept.
-/

import LambdaStack.Engine.Ansible.AnsibleInventoryCreator
import LambdaStack.Lib.Lists

namespace LambdaStack

open Lib

/-- What `save_inventory` writes. -/
structure InventoryFile where
  groups : List (String × List AnsibleHostModel)
  ansibleUser : Val
  ansibleSshPrivateKeyFile : Val

/-- The content of a file. -/
inductive Content
  | manifest (docs : List Val)
  | inventory (file : InventoryFile)
  | other (text : String)

/-- The path of a file in a directory. -/
structure Path where
  dirs : List String
  name : String
  deriving DecidableEq

/-- The path of a file of the directory itself. -/
def Path.top (name : String) : Path := ⟨[], name⟩

/-- The files of a directory. -/
abbrev Files := List (Path × Content)

/-- An entry of the build directory. -/
inductive Node
  | file (content : Content)
  | dir (files : Files)

/-- `MANIFEST_FILE_NAME`. -/
def manifestFileName : String := "manifest.yml"

/-- `ANSIBLE_INVENTORY_FILE`. -/
def ansibleInventoryFile : String := "inventory"

/-- The entries of the build directory, each name once. -/
structure BuildDir where
  entries : List (String × Node)
  nodup : (dictKeys entries).Nodup

/-- `save_inventory`: the rendered template. -/
def saveInventory (inventory : List AnsibleInventoryItem) (clusterModel : Val) :
    Res InventoryFile := do
  let ansibleUser ← attrPath clusterModel ["specification", "admin_user", "name"]
  let ansibleSshPrivateKeyFile ← attrPath clusterModel ["specification", "admin_user", "path"]
  .ok {
    groups := inventory.map fun item => (item.role, item.hosts.map HostObject.host)
    ansibleUser := ansibleUser
    ansibleSshPrivateKeyFile := ansibleSshPrivateKeyFile }

/-- `load_manifest` on the files of a build directory. -/
def loadManifest (files : Files) : Res (List Val) :=
  match files.lookup (.top manifestFileName) with
  | some (.manifest docs) => .ok docs
  | some _ => .error .typeError
  | none => .error (.exception "No manifest.yml inside the build folder")

namespace BuildDir

/-- An empty build directory. -/
def empty : BuildDir := ⟨[], List.nodup_nil⟩

variable (d : BuildDir)

/-- The entry of a name. -/
def entry (name : String) : Option Node := d.entries.lookup name

/-- The directory with another entry of a name. -/
def write (name : String) (node : Node) : BuildDir where
  entries := dictSet name node d.entries
  nodup := nodup_dictKeys_dictSet d.nodup node

/-- The file of a name. -/
def fileAt (name : String) : Option Content :=
  match d.entry name with
  | some (.file content) => some content
  | _ => none

/-- The files below an entry, under their paths in the build directory. -/
def filesBelow (entry : String × Node) : Files :=
  match entry.2 with
  | .file content => [(.top entry.1, content)]
  | .dir files => files.map fun (path, content) => (⟨entry.1 :: path.dirs, path.name⟩, content)

/-- The files of the build directory in the order in which they are copied. -/
def listing : Files := d.entries.flatMap filesBelow

@[simp]
theorem entry_write (name other : String) (node : Node) :
    (d.write name node).entry other = if other = name then some node else d.entry other :=
  lookup_dictSet name other node d.entries

@[simp]
theorem fileAt_write (name other : String) (content : Content) :
    (d.write name (.file content)).fileAt other =
      if other = name then some content else d.fileAt other := by
  unfold fileAt
  rw [entry_write]
  by_cases h : other = name <;> simp [h]

theorem fileAt_write_ne {name other : String} (hne : other ≠ name) (node : Node) :
    (d.write name node).fileAt other = d.fileAt other := by
  unfold fileAt
  rw [entry_write, if_neg hne]

end BuildDir

/-- `copy_file`, for each of the files. -/
def copyFiles (dst : Files) (files : Files) : Files :=
  files.foldl (fun dst file => dictSet file.1 file.2 dst) dst

theorem lookup_copyFiles_of_notMem {files : Files} {path : Path}
    (h : ∀ content, (path, content) ∉ files) (dst : Files) :
    (copyFiles dst files).lookup path = dst.lookup path := by
  induction files generalizing dst with
  | nil => rfl
  | cons file rest ih =>
      have hne : path ≠ file.1 := by
        rintro rfl
        exact h file.2 List.mem_cons_self
      rw [copyFiles, List.foldl_cons, ← copyFiles,
        ih (fun content hmem => h content (List.mem_cons_of_mem file hmem)),
        lookup_dictSet_ne hne]

theorem lookup_copyFiles_of_mem {files : Files} {path : Path} {content : Content}
    (hmem : (path, content) ∈ files) (hunique : ∀ other, (path, other) ∈ files → other = content)
    (dst : Files) : (copyFiles dst files).lookup path = some content := by
  induction files generalizing dst with
  | nil => cases hmem
  | cons file rest ih =>
      rw [copyFiles, List.foldl_cons, ← copyFiles]
      have hrest : ∀ other, (path, other) ∈ rest → other = content :=
        fun other h => hunique other (List.mem_cons_of_mem file h)
      by_cases h : ∃ other, (path, other) ∈ rest
      · obtain ⟨other, hother⟩ := h
        obtain rfl := hrest other hother
        exact ih hother hrest _
      · rw [lookup_copyFiles_of_notMem (not_exists.mp h)]
        rcases List.mem_cons.mp hmem with rfl | hin
        · exact lookup_dictSet_self _ _ _
        · exact absurd ⟨content, hin⟩ h

namespace BuildDir

theorem mem_listing {d : BuildDir} {name : String} {content : Content} :
    (.top name, content) ∈ d.listing ↔ d.fileAt name = some content := by
  unfold listing fileAt
  rw [List.mem_flatMap]
  constructor
  · rintro ⟨⟨own, node⟩, hmem, hbelow⟩
    have hentry : d.entry own = some node := lookup_eq_some_of_mem d.nodup hmem
    cases node with
    | file content' =>
        obtain ⟨rfl, rfl⟩ : name = own ∧ content = content' := by
          simpa [filesBelow, Path.top] using hbelow
        rw [hentry]
    | dir files => simp [filesBelow, Path.top] at hbelow
  · intro h
    split at h
    · next hentry =>
        cases h
        exact ⟨(name, .file content), mem_of_lookup_eq_some hentry, List.mem_singleton_self _⟩
    · cases h

/-- A complete copy of the build directory has each of its files. -/
theorem lookup_copyFiles_listing (d : BuildDir) (name : String) :
    (copyFiles [] d.listing).lookup (.top name) = d.fileAt name := by
  cases h : d.fileAt name with
  | none =>
      apply lookup_copyFiles_of_notMem
      intro content hmem
      rw [mem_listing, h] at hmem
      cases hmem
  | some content =>
      apply lookup_copyFiles_of_mem (mem_listing.mpr h)
      intro other hother
      rw [mem_listing, h] at hother
      exact (Option.some.inj hother).symm

end BuildDir

end LambdaStack
