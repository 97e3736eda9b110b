/-
# Applies and upgrades on one build directory

The steps in which `ApplyEngine` and `UpgradeEngine` change the build directory,
as a machine: an apply saves the manifest twice and then the inventory; an
upgrade takes the latest backup there is, or else copies the build directory file
by file, and then saves the inventory it makes of the backup. A run can end after
any step. A state also remembers what the last completed apply left.
-/

import Mathlib.Data.List.MinMax
import LambdaStack.Engine.Ansible.AnsibleInventoryUpgrade
import LambdaStack.Lib.Machine

namespace LambdaStack

open Lib AnsibleInventoryUpgrade

namespace UpgradeEngine

/-- What an upgrade reads besides the build directory. -/
structure Env extends AnsibleInventoryUpgrade.Env where
  /-- The decimal digits `\d` matches beside the ASCII ones. -/
  isOtherDigit : Char → Bool

/-- How far an apply is. -/
inductive ApplyStage
  | started
  | savedInput
  | savedAll
  | savedInventory
  deriving DecidableEq

/-- The run in progress. -/
inductive Phase
  | idle
  | applying (stage : ApplyStage)
  /-- An upgrade copies the build directory; `todo` are the files still to copy. -/
  | backingUp (name : String) (todo : Files)
  /-- An upgrade works from a backup directory. -/
  | upgrading (backup : String) (savedInventory : Bool)

/-- The two files an upgrade reads from its backup. -/
structure Recorded where
  manifest : Option Content
  inventory : Option Content

structure State where
  dir : BuildDir
  phase : Phase
  /-- What the last completed apply left. -/
  left : Recorded
  /-- An apply has written since and has not completed. -/
  pending : Bool

/-- A step of a run, with what it gets from outside. -/
inductive Event
  | apply
  | saveManifest (docs : List Val)
  | saveInventory (file : InventoryFile)
  | applied
  /-- An upgrade starts, at a time in milliseconds and with the modification
  times of the directories. -/
  | upgrade (now : Nat) (mtime : String → Nat)
  | copyFile
  | backedUp
  | upgradeInventory
  | upgraded
  /-- The run in progress writes another file or directory. -/
  | writeOther (name : String) (node : Node)
  /-- The run in progress ends before its end. -/
  | interrupt

section

variable (env : Env)

/-- `re.match(r'backup_\d', d)`. -/
def isBackupName (name : String) : Bool :=
  match name.toList with
  | 'b' :: 'a' :: 'c' :: 'k' :: 'u' :: 'p' :: '_' :: c :: _ => c.isDigit || env.isOtherDigit c
  | _ => false

/-- `get_backup_dirs`. -/
def getBackupDirs (dir : BuildDir) : List String :=
  dir.entries.filterMap fun
    | (name, .dir _) => if isBackupName env name then some name else none
    | (_, .file _) => none

/-- `f'backup_{int(round(time.time() * 1000))}'`. -/
def backupDirName (now : Nat) : String := "backup_" ++ toString now

/-- The files of the build directory an upgrade or a backup may not touch. -/
def isOther (name : String) : Bool :=
  name != manifestFileName && name != ansibleInventoryFile && !isBackupName env name

/-- The files of a backup directory. -/
def backupFiles (dir : BuildDir) (name : String) : Files :=
  match dir.entry name with
  | some (.dir files) => files
  | _ => []

/-- What a directory holds of the two files. -/
def recordedIn (files : Files) : Recorded :=
  ⟨files.lookup (.top manifestFileName), files.lookup (.top ansibleInventoryFile)⟩

/-- What the build directory holds of the two files. -/
def recorded (dir : BuildDir) : Recorded :=
  ⟨dir.fileAt manifestFileName, dir.fileAt ansibleInventoryFile⟩

/-- `backup_build`: the latest backup, or the start of a new one. A file in the
place of the new directory ends the run. -/
def backupBuild (s : State) (now : Nat) (mtime : String → Nat) : State :=
  match (getBackupDirs env s.dir).argmax mtime with
  | some backup => { s with phase := .upgrading backup false }
  | none =>
      match s.dir.entry (backupDirName now) with
      | some (.file _) => s
      | some (.dir _) => { s with phase := .backingUp (backupDirName now) s.dir.listing }
      | none =>
          { s with
            dir := s.dir.write (backupDirName now) (.dir [])
            phase := .backingUp (backupDirName now) s.dir.listing }

/-- The steps. A run of `AnsibleInventoryUpgrade.upgrade` that raises is an
interruption. -/
def step (s : State) : Event → Option State
  | .apply =>
      match s.phase with
      | .idle => some { s with phase := .applying .started }
      | _ => none
  | .saveManifest docs =>
      let dir := s.dir.write manifestFileName (.file (.manifest docs))
      match s.phase with
      | .applying .started => some { s with dir, phase := .applying .savedInput, pending := true }
      | .applying .savedInput => some { s with dir, phase := .applying .savedAll, pending := true }
      | _ => none
  | .saveInventory file =>
      match s.phase with
      | .applying .savedAll =>
          some { s with
            dir := s.dir.write ansibleInventoryFile (.file (.inventory file))
            phase := .applying .savedInventory
            pending := true }
      | _ => none
  | .applied =>
      match s.phase with
      -- without Ansible an apply ends after it has saved the manifest
      | .applying .savedAll | .applying .savedInventory =>
          some { s with phase := .idle, left := recorded s.dir, pending := false }
      | _ => none
  | .upgrade now mtime =>
      match s.phase with
      | .idle => some (backupBuild env s now mtime)
      | _ => none
  | .copyFile =>
      match s.phase with
      | .backingUp name (file :: todo) =>
          some { s with
            dir := s.dir.write name (.dir (dictSet file.1 file.2 (backupFiles s.dir name)))
            phase := .backingUp name todo }
      | _ => none
  | .backedUp =>
      match s.phase with
      | .backingUp name [] => some { s with phase := .upgrading name false }
      | _ => none
  | .upgradeInventory =>
      match s.phase with
      | .upgrading backup false =>
          match AnsibleInventoryUpgrade.upgrade env.toEnv (backupFiles s.dir backup) with
          | .ok file =>
              some { s with
                dir := s.dir.write ansibleInventoryFile (.file (.inventory file))
                phase := .upgrading backup true }
          | .error _ => none
      | _ => none
  | .upgraded =>
      match s.phase with
      | .upgrading _ true => some { s with phase := .idle }
      | _ => none
  | .writeOther name node =>
      match s.phase with
      | .applying _ | .upgrading _ _ =>
          if isOther env name then some { s with dir := s.dir.write name node } else none
      | _ => none
  | .interrupt => some { s with phase := .idle }

/-- The runs on a build directory that starts empty. -/
def machine : Machine State Event where
  init := ⟨.empty, .idle, ⟨none, none⟩, false⟩
  step := step env

/-! ## What an upgrade works from -/

/-- The backup directory an upgrade works from holds both files as the last
completed apply left them. -/
def WorksFromLast (s : State) : Prop :=
  ∀ backup saved, s.phase = .upgrading backup saved →
    recordedIn (backupFiles s.dir backup) = s.left

/-- A recorded inventory has a host in a group. -/
def HasHostIn (inventory : Option Content) (group name : String) : Prop :=
  ∃ file, inventory = some (.inventory file) ∧ HasHost file.groups group name

/-- Every host the last completed apply put in a group is in that group in the
inventory an upgrade saves next. -/
def KeepsHosts (s : State) : Prop :=
  ∀ s', step env s .upgradeInventory = some s' → ∀ group name, group ∉ builtin →
    HasHostIn s.left.inventory group name →
    HasHostIn (recorded s'.dir).inventory group name

/-- No apply is started when there is a backup. -/
def appliesFirst (s : State) : Event → Bool
  | .apply => (getBackupDirs env s.dir).isEmpty
  | _ => true

/-- No upgrade is started after an apply that has saved a file and has not completed. -/
def upgradesCompleted (s : State) : Event → Bool
  | .upgrade _ _ => !s.pending
  | _ => true

/-- No upgrade that makes a backup is interrupted before the backup is complete. -/
def copiesWhole (s : State) : Event → Bool
  | .interrupt =>
      match s.phase with
      | .backingUp _ _ => false
      | _ => true
  | _ => true

/-- The applies come before the first backup, and what they leave is complete. -/
def inOrder (s : State) (e : Event) : Bool := appliesFirst env s e && upgradesCompleted s e

/-- The runs are in order, and so are the backups they make. -/
def undisturbed (s : State) (e : Event) : Bool := inOrder env s e && copiesWhole s e

variable {env}

theorem mem_getBackupDirs {dir : BuildDir} {name : String} :
    name ∈ getBackupDirs env dir ↔
      isBackupName env name = true ∧ ∃ files, dir.entry name = some (.dir files) := by
  unfold getBackupDirs
  rw [List.mem_filterMap]
  constructor
  · rintro ⟨⟨own, node⟩, hmem, h⟩
    cases node with
    | file content => cases h
    | dir files =>
        simp only [Option.ite_none_right_eq_some, Option.some.injEq] at h
        obtain ⟨hname, rfl⟩ := h
        exact ⟨hname, files, lookup_eq_some_of_mem dir.nodup hmem⟩
  · rintro ⟨hname, files, hentry⟩
    exact ⟨(name, .dir files), mem_of_lookup_eq_some hentry, if_pos hname⟩

theorem isBackupName_manifestFileName : isBackupName env manifestFileName = false := rfl

theorem isBackupName_ansibleInventoryFile : isBackupName env ansibleInventoryFile = false := rfl

/-- The directory an upgrade makes is one it finds later. -/
theorem isBackupName_backupDirName (now : Nat) : isBackupName env (backupDirName now) = true := by
  have hdigits : (backupDirName now).toList =
      'b' :: 'a' :: 'c' :: 'k' :: 'u' :: 'p' :: '_' :: Nat.toDigits 10 now := by
    rw [backupDirName, String.toList_append, Nat.toString_eq_repr, Nat.toList_repr]
    rfl
  cases h : Nat.toDigits 10 now with
  | nil => exact absurd h Nat.toDigits_ne_nil
  | cons c rest =>
      have hc : c.isDigit = true :=
        Nat.isDigit_of_mem_toDigits (by decide) (by decide) (h ▸ List.mem_cons_self)
      rw [isBackupName, hdigits, h]
      simp [hc]

section

variable {dir : BuildDir} {name other : String} {node : Node}

theorem mem_getBackupDirs_write (hname : isBackupName env name = false) :
    other ∈ getBackupDirs env (dir.write name node) ↔ other ∈ getBackupDirs env dir := by
  rw [mem_getBackupDirs, mem_getBackupDirs, BuildDir.entry_write]
  by_cases h : other = name
  · subst h
    simp [hname]
  · rw [if_neg h]

theorem backupFiles_write_ne (hne : other ≠ name) :
    backupFiles (dir.write name node) other = backupFiles dir other := by
  unfold backupFiles
  rw [BuildDir.entry_write, if_neg hne]

theorem backupFiles_write_self (files : Files) :
    backupFiles (dir.write name (.dir files)) name = files := by
  unfold backupFiles
  rw [BuildDir.entry_write, if_pos rfl]

theorem recorded_write (hmanifest : name ≠ manifestFileName)
    (hinventory : name ≠ ansibleInventoryFile) :
    recorded (dir.write name node) = recorded dir := by
  unfold recorded
  rw [BuildDir.fileAt_write_ne _ hmanifest.symm, BuildDir.fileAt_write_ne _ hinventory.symm]

end

/-! ## The invariant -/

/-- What a record has of the two files another record has too. -/
structure Recorded.Within (r full : Recorded) : Prop where
  manifest : ∀ content, r.manifest = some content → full.manifest = some content
  inventory : ∀ content, r.inventory = some content → full.inventory = some content

/-- A file that is one of the two is as the record has it. -/
structure Recorded.Has (r : Recorded) (file : Path × Content) : Prop where
  manifest : file.1 = .top manifestFileName → r.manifest = some file.2
  inventory : file.1 = .top ansibleInventoryFile → r.inventory = some file.2

theorem within_empty (full : Recorded) : (recordedIn []).Within full where
  manifest _ hcontent := by cases hcontent
  inventory _ hcontent := by cases hcontent

/-- Another file is copied. -/
theorem Recorded.Within.dictSet {files : Files} {full : Recorded} {file : Path × Content}
    (h : (recordedIn files).Within full) (hfile : full.Has file) :
    (recordedIn (dictSet file.1 file.2 files)).Within full := by
  constructor
  · intro content hcontent
    simp only [recordedIn, lookup_dictSet] at hcontent
    split at hcontent
    · next heq => exact hcontent ▸ hfile.manifest heq.symm
    · exact h.manifest content hcontent
  · intro content hcontent
    simp only [recordedIn, lookup_dictSet] at hcontent
    split at hcontent
    · next heq => exact hcontent ▸ hfile.inventory heq.symm
    · exact h.inventory content hcontent

/-- The files of the build directory are as they are recorded. -/
theorem recorded_has {dir : BuildDir} {file : Path × Content} (hmem : file ∈ dir.listing) :
    (recorded dir).Has file := by
  obtain ⟨path, content⟩ := file
  constructor
  · rintro rfl
    exact BuildDir.mem_listing.mp hmem
  · rintro rfl
    exact BuildDir.mem_listing.mp hmem

variable (env)

/-- The one backup there is will be complete when the files to do are copied. -/
structure Copying (s : State) (name : String) (todo : Files) : Prop where
  mem : name ∈ getBackupDirs env s.dir
  unique : ∀ b ∈ getBackupDirs env s.dir, b = name
  has : ∀ file ∈ todo, s.left.Has file
  copied : recordedIn (copyFiles (backupFiles s.dir name) todo) = s.left

/-- What holds in every state of runs in order, where the backups are copied whole
or not. -/
structure Inv (whole : Bool) (s : State) : Prop where
  /-- Before the first backup the build directory is as the last apply left it. -/
  current : (∀ b, b ∉ getBackupDirs env s.dir) → s.pending = false → recorded s.dir = s.left
  /-- What the backups have is as the last apply left it. -/
  backups : ∀ b ∈ getBackupDirs env s.dir, (recordedIn (backupFiles s.dir b)).Within s.left
  complete : whole = true → (∀ name todo, s.phase ≠ .backingUp name todo) →
    ∀ b ∈ getBackupDirs env s.dir, recordedIn (backupFiles s.dir b) = s.left
  applying : ∀ stage, s.phase = .applying stage → ∀ b, b ∉ getBackupDirs env s.dir
  backingUp : ∀ name todo, s.phase = .backingUp name todo → Copying env s name todo
  upgrading : ∀ backup saved, s.phase = .upgrading backup saved →
    backup ∈ getBackupDirs env s.dir

variable {env} {s s' : State} {whole : Bool}

theorem inv_init : Inv env whole (machine env).init where
  current _ _ := rfl
  backups b hb := by cases hb
  complete _ _ b hb := by cases hb
  applying _ h := by cases h
  backingUp _ _ h := by cases h
  upgrading _ _ h := by cases h

/-- A run ends; where the backups are copied whole, none is left incomplete. -/
theorem Inv.idle (h : Inv env whole s)
    (hphase : whole = true → ∀ name todo, s.phase ≠ .backingUp name todo) :
    Inv env whole { s with phase := .idle } where
  current := h.current
  backups := h.backups
  complete hwhole _ := h.complete hwhole (hphase hwhole)
  applying _ hphase := by cases hphase
  backingUp _ _ hphase := by cases hphase
  upgrading _ _ hphase := by cases hphase

/-- The start of an apply, when there is no backup. -/
theorem Inv.startApply (h : Inv env whole s) (hempty : getBackupDirs env s.dir = []) :
    Inv env whole { s with phase := .applying .started } := by
  have hnone : ∀ b, b ∉ getBackupDirs env s.dir := by
    rw [hempty]
    exact fun b => List.not_mem_nil
  exact {
    current := h.current
    backups := h.backups
    complete := fun _ _ b hb => absurd hb (hnone b)
    applying := fun _ _ => hnone
    backingUp := fun _ _ hphase => by cases hphase
    upgrading := fun _ _ hphase => by cases hphase }

/-- The end of an apply: what it leaves is what is there. -/
theorem Inv.applied {stage : ApplyStage} (h : Inv env whole s)
    (hphase : s.phase = .applying stage) :
    Inv env whole { s with phase := .idle, left := recorded s.dir, pending := false } where
  current _ _ := rfl
  backups b hb := absurd hb (h.applying stage hphase b)
  complete _ _ b hb := absurd hb (h.applying stage hphase b)
  applying _ hphase := by cases hphase
  backingUp _ _ hphase := by cases hphase
  upgrading _ _ hphase := by cases hphase

/-- A write of an apply, when there is no backup. -/
theorem Inv.applyWrite {stage stage' : ApplyStage} {name : String} {node : Node}
    (h : Inv env whole s) (hphase : s.phase = .applying stage)
    (hname : isBackupName env name = false) :
    Inv env whole { s with
      dir := s.dir.write name node, phase := .applying stage', pending := true } := by
  have hnone : ∀ b, b ∉ getBackupDirs env (s.dir.write name node) := by
    intro b hb
    rw [mem_getBackupDirs_write hname] at hb
    exact h.applying stage hphase b hb
  exact {
    current := fun _ hpending => by cases hpending
    backups := fun b hb => absurd hb (hnone b)
    complete := fun _ _ b hb => absurd hb (hnone b)
    applying := fun _ _ => hnone
    backingUp := fun _ _ hphase => by cases hphase
    upgrading := fun _ _ hphase => by cases hphase }

/-- The files of a backup when another file is written. -/
theorem backupFiles_write {dir : BuildDir} {b name : String} {node : Node}
    (hb : b ∈ getBackupDirs env dir) (hname : isBackupName env name = false) :
    backupFiles (dir.write name node) b = backupFiles dir b := by
  apply backupFiles_write_ne
  rintro rfl
  rw [(mem_getBackupDirs.mp hb).1] at hname
  cases hname

/-- The inventory an upgrade writes. -/
theorem Inv.upgradeWrite {backup name : String} {saved saved' : Bool} {node : Node}
    (h : Inv env whole s) (hphase : s.phase = .upgrading backup saved)
    (hname : isBackupName env name = false) :
    Inv env whole { s with dir := s.dir.write name node, phase := .upgrading backup saved' } where
  current hnone _ := by
    have hmem := h.upgrading backup saved hphase
    rw [← mem_getBackupDirs_write hname] at hmem
    exact absurd hmem (hnone backup)
  backups b hb := by
    rw [mem_getBackupDirs_write hname] at hb
    rw [backupFiles_write hb hname]
    exact h.backups b hb
  complete hwhole _ b hb := by
    rw [mem_getBackupDirs_write hname] at hb
    rw [backupFiles_write hb hname]
    exact h.complete hwhole (by simp [hphase]) b hb
  applying _ hphase' := by cases hphase'
  backingUp _ _ hphase' := by cases hphase'
  upgrading b _ hphase' := by
    cases hphase'
    rw [mem_getBackupDirs_write hname]
    exact h.upgrading backup saved hphase

/-- A write to another file. -/
theorem Inv.writeOther {name : String} {node : Node} (h : Inv env whole s)
    (hname : isOther env name = true) : Inv env whole { s with dir := s.dir.write name node } := by
  simp only [isOther, Bool.and_eq_true, bne_iff_ne, ne_eq, Bool.not_eq_true'] at hname
  obtain ⟨⟨hmanifest, hinventory⟩, hname⟩ := hname
  have hmem : ∀ b, b ∈ getBackupDirs env (s.dir.write name node) ↔ b ∈ getBackupDirs env s.dir :=
    fun b => mem_getBackupDirs_write hname
  constructor
  · intro hnone hpending
    rw [recorded_write hmanifest hinventory]
    exact h.current (fun b hb => hnone b ((hmem b).mpr hb)) hpending
  · intro b hb
    rw [hmem] at hb
    rw [backupFiles_write hb hname]
    exact h.backups b hb
  · intro hwhole hphase b hb
    rw [hmem] at hb
    rw [backupFiles_write hb hname]
    exact h.complete hwhole hphase b hb
  · intro stage hphase b hb
    exact h.applying stage hphase b ((hmem b).mp hb)
  · intro backup todo hphase
    have hcopying := h.backingUp backup todo hphase
    refine ⟨(hmem backup).mpr hcopying.mem, fun b hb => hcopying.unique b ((hmem b).mp hb),
      hcopying.has, ?_⟩
    rw [backupFiles_write hcopying.mem hname]
    exact hcopying.copied
  · intro backup saved hphase
    exact (hmem backup).mpr (h.upgrading backup saved hphase)

/-- The start of an upgrade. -/
theorem Inv.backupBuild {now : Nat} {mtime : String → Nat} (h : Inv env whole s)
    (hphase : s.phase = .idle) (hpending : s.pending = false) :
    Inv env whole (backupBuild env s now mtime) := by
  unfold UpgradeEngine.backupBuild
  have hnot : ∀ name todo, s.phase ≠ .backingUp name todo := by simp [hphase]
  cases hlatest : (getBackupDirs env s.dir).argmax mtime with
  | some backup =>
      exact {
        current := h.current
        backups := h.backups
        complete := fun hwhole _ => h.complete hwhole hnot
        applying := fun _ hphase => by cases hphase
        backingUp := fun _ _ hphase => by cases hphase
        upgrading := fun b saved hphase => by
          cases hphase
          exact List.argmax_mem hlatest }
  | none =>
      have hnone : ∀ b, b ∉ getBackupDirs env s.dir := by
        rw [List.argmax_eq_none.mp hlatest]
        exact fun b => List.not_mem_nil
      have hname : isBackupName env (backupDirName now) = true := isBackupName_backupDirName now
      cases hentry : s.dir.entry (backupDirName now) with
      | some node =>
          cases node with
          | file content => exact h
          | dir files => exact absurd (mem_getBackupDirs.mpr ⟨hname, files, hentry⟩) (hnone _)
      | none =>
          have hmem : ∀ b, b ∈ getBackupDirs env (s.dir.write (backupDirName now) (.dir [])) ↔
              b = backupDirName now := by
            intro b
            rw [mem_getBackupDirs, BuildDir.entry_write]
            by_cases hb : b = backupDirName now
            · simp [hb, hname]
            · rw [if_neg hb, ← mem_getBackupDirs]
              exact iff_of_false (hnone b) hb
          have hcurrent := h.current hnone hpending
          exact {
            current := fun hno _ => absurd ((hmem _).mpr rfl) (hno _)
            backups := fun b hb => by
              obtain rfl := (hmem b).mp hb
              rw [backupFiles_write_self]
              exact within_empty _
            complete := fun _ hphase => absurd rfl (hphase _ _)
            applying := fun _ hphase => by cases hphase
            backingUp := fun name todo hphase => by
              cases hphase
              refine ⟨(hmem _).mpr rfl, fun b hb => (hmem b).mp hb,
                fun file hfile => hcurrent ▸ recorded_has hfile, ?_⟩
              rw [backupFiles_write_self, ← hcurrent]
              simp only [recordedIn, recorded, BuildDir.lookup_copyFiles_listing]
            upgrading := fun _ _ hphase => by cases hphase }

/-- A file of the backup is copied. -/
theorem Inv.copyFile {name : String} {file : Path × Content} {todo : Files}
    (h : Inv env whole s) (hphase : s.phase = .backingUp name (file :: todo)) :
    Inv env whole { s with
      dir := s.dir.write name (.dir (dictSet file.1 file.2 (backupFiles s.dir name)))
      phase := .backingUp name todo } := by
  obtain ⟨hin, hall, hhas, hcopy⟩ := h.backingUp name _ hphase
  have hname := (mem_getBackupDirs.mp hin).1
  have hmem : ∀ b, b ∈ getBackupDirs env
      (s.dir.write name (.dir (dictSet file.1 file.2 (backupFiles s.dir name)))) ↔ b = name := by
    intro b
    rw [mem_getBackupDirs, BuildDir.entry_write]
    by_cases hb : b = name
    · simp [hb, hname]
    · rw [if_neg hb, ← mem_getBackupDirs]
      exact iff_of_false (fun hin' => hb (hall b hin')) hb
  exact {
    current := fun hno _ => absurd ((hmem _).mpr rfl) (hno _)
    backups := fun b hb => by
      obtain rfl := (hmem b).mp hb
      rw [backupFiles_write_self]
      exact (h.backups b hin).dictSet (hhas file List.mem_cons_self)
    complete := fun _ hphase => absurd rfl (hphase _ _)
    applying := fun _ hphase => by cases hphase
    backingUp := fun _ _ hphase => by
      cases hphase
      refine ⟨(hmem _).mpr rfl, fun b hb => (hmem b).mp hb,
        fun file hfile => hhas file (List.mem_cons_of_mem _ hfile), ?_⟩
      rw [backupFiles_write_self]
      exact hcopy
    upgrading := fun _ _ hphase => by cases hphase }

/-- The backup is complete. -/
theorem Inv.backedUp {name : String} (h : Inv env whole s)
    (hphase : s.phase = .backingUp name []) :
    Inv env whole { s with phase := .upgrading name false } := by
  obtain ⟨hin, hall, -, hcopy⟩ := h.backingUp name [] hphase
  exact {
    current := fun hno _ => absurd hin (hno name)
    backups := h.backups
    complete := fun _ _ b hb => by
      obtain rfl := hall b hb
      exact hcopy
    applying := fun _ hphase => by cases hphase
    backingUp := fun _ _ hphase => by cases hphase
    upgrading := fun _ _ hphase => by
      cases hphase
      exact hin }

/-- Every step of a run in order keeps the invariant. -/
theorem inv_step {e : Event} (h : Inv env whole s) (hallowed : inOrder env s e = true)
    (hwhole : whole = true → copiesWhole s e = true)
    (hstep : (machine env).step s e = some s') : Inv env whole s' := by
  change step env s e = some s' at hstep
  rw [inOrder, Bool.and_eq_true] at hallowed
  obtain ⟨hfirst, hcompleted⟩ := hallowed
  cases e with
  | apply =>
      simp only [step] at hstep
      split at hstep
      · next hphase =>
          cases hstep
          exact h.startApply (List.isEmpty_iff.mp hfirst)
      · cases hstep
  | saveManifest docs =>
      simp only [step] at hstep
      split at hstep
      · next hphase =>
          cases hstep
          exact h.applyWrite hphase isBackupName_manifestFileName
      · next hphase =>
          cases hstep
          exact h.applyWrite hphase isBackupName_manifestFileName
      · cases hstep
  | saveInventory file =>
      simp only [step] at hstep
      split at hstep
      · next hphase =>
          cases hstep
          exact h.applyWrite hphase isBackupName_ansibleInventoryFile
      · cases hstep
  | applied =>
      simp only [step] at hstep
      split at hstep
      · next hphase =>
          cases hstep
          exact h.applied hphase
      · next hphase =>
          cases hstep
          exact h.applied hphase
      · cases hstep
  | upgrade now mtime =>
      simp only [step] at hstep
      split at hstep
      · next hphase =>
          cases hstep
          exact h.backupBuild hphase (by simpa [upgradesCompleted] using hcompleted)
      · cases hstep
  | copyFile =>
      simp only [step] at hstep
      split at hstep
      · next hphase =>
          cases hstep
          exact h.copyFile hphase
      · cases hstep
  | backedUp =>
      simp only [step] at hstep
      split at hstep
      · next hphase =>
          cases hstep
          exact h.backedUp hphase
      · cases hstep
  | upgradeInventory =>
      simp only [step] at hstep
      split at hstep
      · next hphase =>
          split at hstep
          · cases hstep
            exact h.upgradeWrite hphase isBackupName_ansibleInventoryFile
          · cases hstep
      · cases hstep
  | upgraded =>
      simp only [step] at hstep
      split at hstep
      · next hphase =>
          cases hstep
          exact h.idle (by simp [hphase])
      · cases hstep
  | writeOther name node =>
      simp only [step] at hstep
      split at hstep
      · simp only [Option.ite_none_right_eq_some, Option.some.injEq] at hstep
        obtain ⟨hname, rfl⟩ := hstep
        exact h.writeOther hname
      · simp only [Option.ite_none_right_eq_some, Option.some.injEq] at hstep
        obtain ⟨hname, rfl⟩ := hstep
        exact h.writeOther hname
      · cases hstep
  | interrupt =>
      simp only [step] at hstep
      cases hstep
      apply h.idle
      intro hcopies name todo hphase
      have hcopied := hwhole hcopies
      simp [copiesWhole, hphase] at hcopied

theorem Inv.worksFromLast (h : Inv env true s) : WorksFromLast s := by
  intro backup saved hphase
  exact h.complete rfl (by simp [hphase]) backup (h.upgrading backup saved hphase)

/-- What is read from a backup reaches the new inventory. An upgrade that works from
a backup without an inventory saves none. -/
theorem Inv.keepsHosts (hread : env.ReadsBack) (h : Inv env whole s) : KeepsHosts env s := by
  intro s' hstep group name hgroup hhost
  obtain ⟨old, hleft, hhost⟩ := hhost
  simp only [step] at hstep
  split at hstep
  · next backup hphase =>
      have hwithin := h.backups backup (h.upgrading backup false hphase)
      split at hstep
      · next new hupgrade =>
          cases hstep
          obtain ⟨found, hfound⟩ := exists_inventory_of_upgrade hupgrade
          have hsame := (hwithin.inventory _ hfound).symm.trans hleft
          obtain rfl : found = old := Content.inventory.inj (Option.some.inj hsame)
          refine ⟨new, ?_, upgrade_keepsHosts hread hfound hupgrade hgroup hhost⟩
          simp [recorded]
      · cases hstep
  · cases hstep

/-- In every sequence of applies and upgrades in order, an upgrade loses no host of
what the last completed apply left, wherever the runs are interrupted; it works from
the whole of it where no copy is interrupted. -/
theorem upgrade_keeps_last_apply (hread : env.ReadsBack) :
    (∀ s, (machine env).Reachable (inOrder env) s → KeepsHosts env s) ∧
      ∀ s, (machine env).Reachable (undisturbed env) s → WorksFromLast s := by
  constructor
  · intro s hreach
    have h : Inv env false s := hreach.invariant inv_init fun h hallowed hstep =>
      inv_step h hallowed (fun hwhole => by cases hwhole) hstep
    exact h.keepsHosts hread
  · intro s hreach
    have h : Inv env true s := hreach.invariant inv_init fun h hallowed hstep => by
      obtain ⟨hallowed, hcopies⟩ := (Bool.and_eq_true _ _).mp hallowed
      exact inv_step h hallowed (fun _ => hcopies) hstep
    exact h.worksFromLast

end

/-! ## Why the order and the whole copies are needed -/

namespace UpgradeSample

/-- The cluster model, in the manifest and as the default. -/
def cluster : Val :=
  .dict [("kind", .str "lambdastack-cluster"), ("provider", .str "any"),
    ("specification", .dict [("admin_user",
      .dict [("name", .str "operations"), ("path", .str "/keys/demo")])])]

def schema : SchemaDir where
  file _ kind := if kind = "lambdastack-cluster" then some [cluster] else none
  kind_eq := by
    intro provider kind docs h _ doc hdoc
    obtain ⟨rfl, rfl⟩ : kind = "lambdastack-cluster" ∧ [cluster] = docs := by simpa using h
    rw [List.mem_singleton.mp hdoc]
    rfl
  wellFormed := by
    intro provider kind docs h doc hdoc
    obtain ⟨-, rfl⟩ : kind = "lambdastack-cluster" ∧ [cluster] = docs := by simpa using h
    rw [List.mem_singleton.mp hdoc]
    simp [cluster, dictKeys]

def env : Env where
  schema := schema
  groups file := ("all", []) :: ("ungrouped", []) :: file.groups
  builtinGroups := [("all", []), ("ungrouped", [])]
  builtin_of_mem := by decide
  isOtherDigit _ := false

theorem readsBack : env.ReadsBack := by
  intro file group name hgroup
  simp only [builtin, List.mem_cons, List.not_mem_nil, or_false, not_or] at hgroup
  simp [HasHost, env, hgroup]

/-- The inventory of a repository machine and some nodes. -/
def inventory (nodes : List String) : InventoryFile where
  groups := [("repository", [⟨"repository", "10.0.0.1"⟩]),
    ("kubernetes_node", nodes.map fun name => ⟨name, "10.0.0.2"⟩)]
  ansibleUser := .str "operations"
  ansibleSshPrivateKeyFile := .str "/keys/demo"

/-- A complete apply. -/
def applyRun (nodes : List String) : List Event :=
  [.apply, .saveManifest [cluster], .saveManifest [cluster], .saveInventory (inventory nodes),
    .applied]

/-- The start of an upgrade that makes a backup of the two files. -/
def backupRun : List Event :=
  [.upgrade 1 fun _ => 0, .copyFile, .copyFile, .backedUp]

/-- An apply that ends after it has saved the inventory. -/
def unfinishedRun (nodes : List String) : List Event :=
  [.apply, .saveManifest [cluster], .saveManifest [cluster], .saveInventory (inventory nodes),
    .interrupt]

/-- An upgrade works from a backup of other files than the build directory has. -/
def upgrading (files : Files) (nodes leftNodes : List String) (pending : Bool) : State where
  dir :=
    { entries :=
        [(manifestFileName, .file (.manifest [cluster])),
          (ansibleInventoryFile, .file (.inventory (inventory nodes))),
          ("backup_1", .dir files)]
      nodup := show [manifestFileName, ansibleInventoryFile, "backup_1"].Nodup by decide }
  phase := .upgrading "backup_1" false
  left := ⟨some (.manifest [cluster]), some (.inventory (inventory leftNodes))⟩
  pending := pending

/-- A backup of the manifest and the inventory. -/
def backup (nodes : List String) : Files :=
  [(.top manifestFileName, .manifest [cluster]),
    (.top ansibleInventoryFile, .inventory (inventory nodes))]

/-- The inventory that is made of that backup, with a group for the image registry. -/
def upgradedInventory (nodes : List String) : InventoryFile :=
  { inventory nodes with
    groups := (inventory nodes).groups ++ [("image_registry", [⟨"repository", "10.0.0.1"⟩])] }

theorem run_first :
    (machine env).run (undisturbed env) (machine env).init (applyRun ["node-1"] ++ backupRun) =
      some (upgrading (backup ["node-1"]) ["node-1"] ["node-1"] false) := rfl

variable {nodes : List String} {pending : Bool}

theorem not_worksFromLast {files : Files} {leftNodes : List String}
    (hne : files.lookup (.top ansibleInventoryFile) ≠ some (.inventory (inventory leftNodes))) :
    ¬ WorksFromLast (upgrading files nodes leftNodes pending) := by
  intro h
  exact hne (congrArg Recorded.inventory (h "backup_1" false rfl))

/-- The second node is not in the inventory the upgrade saves. -/
theorem not_keepsHosts :
    ¬ KeepsHosts env (upgrading (backup ["node-1"]) nodes ["node-1", "node-2"] pending) := by
  intro h
  have hleft : HasHostIn
      (upgrading (backup ["node-1"]) nodes ["node-1", "node-2"] pending).left.inventory
      "kubernetes_node" "node-2" :=
    ⟨_, rfl, _, List.mem_cons_of_mem _ List.mem_cons_self, ⟨"node-2", "10.0.0.2"⟩, by simp, rfl⟩
  obtain ⟨file, hfile, hosts, hmem, host, hhost, hname⟩ :=
    h _ rfl "kubernetes_node" "node-2" (by decide) hleft
  simp only [recorded, BuildDir.fileAt_write, if_true, Option.some.injEq,
    Content.inventory.injEq] at hfile
  obtain rfl : upgradedInventory ["node-1"] = file := hfile
  simp only [upgradedInventory, inventory, List.cons_append, List.nil_append, List.mem_cons,
    Prod.mk.injEq, List.not_mem_nil, or_false] at hmem
  rcases hmem with ⟨hgroup, -⟩ | ⟨-, rfl⟩ | ⟨hgroup, -⟩
  · exact absurd hgroup (by decide)
  · obtain rfl := List.mem_singleton.mp hhost
    exact absurd hname (by decide)
  · exact absurd hgroup (by decide)

theorem backup_stale : (backup ["node-1"]).lookup (.top ansibleInventoryFile) ≠
    some (.inventory (inventory ["node-1", "node-2"])) := by
  have hlookup : (backup ["node-1"]).lookup (.top ansibleInventoryFile) =
      some (.inventory (inventory ["node-1"])) := rfl
  rw [hlookup]
  simp [inventory]

/-- A node is added by an apply between two upgrades: the second upgrade works from
the backup of the first one. -/
theorem loses_added_node : ∃ s,
    (machine env).Reachable (fun s e => upgradesCompleted s e && copiesWhole s e) s ∧
      ¬ WorksFromLast s ∧ ¬ KeepsHosts env s := by
  have hrun : (machine env).run (fun s e => upgradesCompleted s e && copiesWhole s e)
      (machine env).init
      (applyRun ["node-1"] ++ backupRun ++ [.upgradeInventory, .upgraded] ++
        applyRun ["node-1", "node-2"] ++ [.upgrade 2 fun _ => 0]) =
      some (upgrading (backup ["node-1"]) ["node-1", "node-2"] ["node-1", "node-2"] false) := rfl
  exact ⟨_, .of_run .init hrun, not_worksFromLast backup_stale, not_keepsHosts⟩

/-- An apply that is to remove a node ends after it has saved the inventory: an upgrade
makes its backup of that. -/
theorem loses_removed_node : ∃ s,
    (machine env).Reachable (fun s e => appliesFirst env s e && copiesWhole s e) s ∧
      ¬ WorksFromLast s ∧ ¬ KeepsHosts env s := by
  have hrun : (machine env).run (fun s e => appliesFirst env s e && copiesWhole s e)
      (machine env).init
      (applyRun ["node-1", "node-2"] ++ unfinishedRun ["node-1"] ++ backupRun) =
      some (upgrading (backup ["node-1"]) ["node-1"] ["node-1", "node-2"] true) := rfl
  exact ⟨_, .of_run .init hrun, not_worksFromLast backup_stale, not_keepsHosts⟩

/-- An upgrade is interrupted when it has copied the manifest: the next one works from
that backup. -/
theorem works_from_part : ∃ s, (machine env).Reachable (inOrder env) s ∧ ¬ WorksFromLast s := by
  have hrun : (machine env).run (inOrder env) (machine env).init
      (applyRun ["node-1"] ++ [.upgrade 1 fun _ => 0, .copyFile, .interrupt,
        .upgrade 2 fun _ => 0]) =
      some (upgrading [(.top manifestFileName, .manifest [cluster])] ["node-1"] ["node-1"]
        false) := rfl
  refine ⟨_, .of_run .init hrun, not_worksFromLast ?_⟩
  intro hlookup
  cases hlookup

end UpgradeSample

/-- Without one of the conditions an upgrade works from other files than the last
completed apply left; without one of the first two it loses a host of these. -/
theorem upgrade_loses_last_apply :
    (∃ s, (machine UpgradeSample.env).Reachable
        (fun s e => upgradesCompleted s e && copiesWhole s e) s ∧
      ¬ WorksFromLast s ∧ ¬ KeepsHosts UpgradeSample.env s) ∧
    (∃ s, (machine UpgradeSample.env).Reachable
        (fun s e => appliesFirst UpgradeSample.env s e && copiesWhole s e) s ∧
      ¬ WorksFromLast s ∧ ¬ KeepsHosts UpgradeSample.env s) ∧
    ∃ s, (machine UpgradeSample.env).Reachable (inOrder UpgradeSample.env) s ∧
      ¬ WorksFromLast s :=
  ⟨UpgradeSample.loses_added_node, UpgradeSample.loses_removed_node,
    UpgradeSample.works_from_part⟩

open UpgradeSample in
theorem upgrade_keeps_last_apply_sample :
    KeepsHosts env (upgrading (backup ["node-1"]) ["node-1"] ["node-1"] false) ∧
      WorksFromLast (upgrading (backup ["node-1"]) ["node-1"] ["node-1"] false) := by
  obtain ⟨hkeeps, hworks⟩ := upgrade_keeps_last_apply readsBack
  have hreach := Machine.Reachable.of_run .init run_first
  exact ⟨hkeeps _ (hreach.mono fun s e h => ((Bool.and_eq_true _ _).mp h).1), hworks _ hreach⟩

end UpgradeEngine

end LambdaStack
