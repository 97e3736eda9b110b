/-
# Files and processes

What the commands of the program change outside of it: the files, the environment
and the processes that were started. A process may do anything to the files, and
what it does may depend on everything that was started before it; the calls and
their return codes are kept in the order of the starts.
-/

import LambdaStack.Engine.Providers.DocStore
import LambdaStack.Helpers.BuildIo
import LambdaStack.Lib.FileTree
import LambdaStack.Lib.Script

namespace LambdaStack

open Lib

/-- A part of a file: what one write has put there. -/
inductive Chunk
  | text (content : String)
  /-- `dump` or `dump_all`. -/
  | yaml (docs : List Val)
  | inventory (file : InventoryFile)

/-- The content of a file is what was written and then appended. -/
abbrev Tree := FileTree (List Chunk)

/-- A directory: how the program spells it, and where it is. -/
structure Dir where
  text : String
  path : FilePath

namespace Dir

/-- `os.path.join(d, name)` for a directory. -/
def join (d : Dir) (name : String) : Dir := ⟨pathJoin d.text name, d.path ++ [name]⟩

/-- `os.path.join(d, name + '/')`. -/
def joinSlash (d : Dir) (name : String) : Dir := ⟨pathJoin d.text (name ++ "/"), d.path ++ [name]⟩

/-- How the program spells a file of the directory. -/
def fileText (d : Dir) (name : String) : String := pathJoin d.text name

end Dir

/-- The environment variables that were set. -/
abbrev Environ := List (String × String)

/-- A call of a program: its arguments, its environment, and the files there are. -/
structure Call where
  argv : List String
  environ : Environ
  files : Tree

/-- Something the program has waited for. -/
inductive Entry
  /-- A process, and the code it returned. -/
  | ran (call : Call) (returncode : Int)
  | slept (seconds : Nat)

/-- The documents in memory and what the program has changed outside. -/
structure World where
  store : Store
  files : Tree
  environ : Environ
  history : List Entry

/-- A part of the program that may start processes. -/
abbrev Cli := Action World Exc

/-- How a process ends: its code, what it has printed, and the files it leaves. -/
structure Exit where
  returncode : Int
  stdout : String
  files : Tree

/-- What a process does, after what was started before. -/
abbrev Execute := List Entry → Call → Exit

/-- A process that was started, and the code it returned. -/
structure Ran where
  call : Call
  returncode : Int

/-- Its command, with whether it succeeded. -/
def Ran.command (ran : Ran) : List String × Bool := (ran.call.argv, ran.returncode == 0)

namespace Entry

/-- The process of an entry. -/
def ran? : Entry → Option Ran
  | .ran call returncode => some ⟨call, returncode⟩
  | .slept _ => none

end Entry

namespace World

/-- The processes that were started. -/
def ran (w : World) : List Ran := w.history.filterMap Entry.ran?

/-- Their commands, with whether they succeeded. -/
def commands (w : World) : List (List String × Bool) := w.ran.map Ran.command

/-- The documents, what was started, and the files that do not have a property. -/
def around (p : FilePath → Bool) (w : World) : Store × List Entry × Tree :=
  (w.store, w.history, w.files.removeWhere p)

end World

section

variable {α : Type} (execute : Execute)

/-- Work on the documents in memory; where it raises they are as before. -/
def onStore (x : BuildM α) : Cli α := fun w =>
  match x w.store with
  | .ok (a, s) => (.ok a, { w with store := s })
  | .error e => (.error e, w)

/-- Read the documents in memory. -/
def readDocs (f : (DocId → Val) → Res α) : Cli α := Action.read fun w => f w.store.doc

/-- `time.sleep`. -/
def sleep (seconds : Nat) : Cli Unit :=
  Action.change fun w => { w with history := w.history ++ [.slept seconds] }

/-- Write a file. -/
def writeFile (path : FilePath) (chunk : Chunk) : Cli Unit :=
  Action.change fun w => { w with files := w.files.write path [chunk] }

/-- Append to a file. -/
def appendFile (path : FilePath) (chunk : Chunk) : Cli Unit :=
  Action.change fun w => { w with files := w.files.write path ((w.files path).getD [] ++ [chunk]) }

/-- `delete_files_matching_glob`: `p` is the glob. -/
def deleteFilesMatching (dir : Dir) (p : String → Bool) : Cli Unit :=
  Action.change fun w => { w with files := w.files.removeMatching dir.path p }

/-- `delete_directory`. -/
def deleteDirectory (dir : Dir) : Cli Unit :=
  Action.change fun w => { w with files := w.files.removeTree dir.path }

/-- `os.environ[name] = value`. -/
def setEnviron (name value : String) : Cli Unit :=
  Action.change fun w => { w with environ := dictSet name value w.environ }

/-- The call of a process in a world. -/
def callIn (argv : List String) (environ : World → Environ) (w : World) : Call :=
  ⟨argv, environ w, w.files⟩

/-- How it ends there. -/
def exitIn (argv : List String) (environ : World → Environ) (w : World) : Exit :=
  execute w.history (callIn argv environ w)

/-- `subprocess.Popen`, until the process has ended. -/
def popen (argv : List String) (environ : World → Environ) : Cli Exit := fun w =>
  let exit := exitIn execute argv environ w
  (.ok exit, { w with
    files := exit.files
    history := w.history ++ [.ran (callIn argv environ w) exit.returncode] })

/-- The exception of a process that failed. -/
def errorRunning (argv : List String) : Exc :=
  .exception ("Error running: \"" ++ " ".intercalate argv ++ "\"")

/-- Start a process, and raise unless it returns zero. -/
def runProcess (argv : List String) (environ : World → Environ) : Cli Unit := do
  let exit ← popen execute argv environ
  if exit.returncode ≠ 0 then Action.raise (errorRunning argv) else pure ()

variable {execute}

theorem exec_popen {argv : List String} {environ : World → Environ} {w : World} :
    (popen execute argv environ).exec w =
      (.ok (exitIn execute argv environ w), { w with
        files := (exitIn execute argv environ w).files
        history := w.history ++
          [.ran (callIn argv environ w) (exitIn execute argv environ w).returncode] }) := rfl

/-- A process is an attempt of its command. -/
theorem attempts_runProcess (argv : List String) (environ : World → Environ) :
    Attempts World.commands (runProcess execute argv environ) argv := by
  refine ⟨fun w => ⟨(exitIn execute argv environ w).returncode == 0, ?_⟩⟩
  rw [runProcess, Action.exec_bind, exec_popen]
  by_cases hcode : (exitIn execute argv environ w).returncode = 0
  · simp [hcode, World.commands, World.ran, Entry.ran?, Ran.command, callIn]
  · simp [hcode, World.commands, World.ran, Entry.ran?, Ran.command, callIn]

/-- What is raised names the command. -/
theorem runProcess_raises {argv : List String} {environ : World → Environ} (w : World)
    (h : ((runProcess execute argv environ).exec w).1 ≠ .ok ()) :
    ((runProcess execute argv environ).exec w).1 = .error (errorRunning argv) := by
  rw [runProcess, Action.exec_bind, exec_popen] at h ⊢
  by_cases hcode : (exitIn execute argv environ w).returncode = 0
  · simp [hcode] at h
  · simp [hcode]

/-- A process that is started once. -/
theorem implements_runProcess (argv : List String) (environ : World → Environ) :
    Implements World.commands (runProcess execute argv environ) [⟨argv, 1, errorRunning argv⟩] :=
  (attempts_runProcess argv environ).implements runProcess_raises

/-- A process does nothing to the documents in memory. -/
theorem quiet_store_runProcess (argv : List String) (environ : World → Environ) :
    Quiet World.store (runProcess execute argv environ) := by
  refine ⟨fun w => ?_⟩
  rw [runProcess, Action.exec_bind, exec_popen]
  by_cases hcode : (exitIn execute argv environ w).returncode = 0 <;> simp [hcode]

/-! ## Parts that start nothing -/

/-- Work on the documents in memory relates the worlds as a change of the documents does. -/
theorem relates_onStore {R : World → World → Prop} (hR : ∀ w s, R w { w with store := s })
    (x : BuildM α) : Relates R (onStore x) := by
  refine ⟨fun w => ?_⟩
  rcases h : x w.store with e | ⟨a, s⟩
  · have hsame : ((onStore x).exec w).2 = w := by simp [Action.exec, onStore, h]
    rw [hsame]
    exact hR w w.store
  · have hnew : ((onStore x).exec w).2 = { w with store := s } := by
      simp [Action.exec, onStore, h]
    rw [hnew]
    exact hR w s

theorem quiet_onStore (x : BuildM α) : Quiet World.ran (onStore x) :=
  relates_onStore (fun _ _ => rfl) x

theorem onStore_eq_ok {x : BuildM α} {a : α} {w w' : World} :
    (onStore x).exec w = (.ok a, w') ↔
      ∃ s, x w.store = .ok (a, s) ∧ w' = { w with store := s } := by
  rcases h : x w.store with e | ⟨b, s⟩ <;> simp [Action.exec, onStore, h, eq_comm]

theorem quiet_sleep (seconds : Nat) : Quiet World.ran (sleep seconds) := by
  refine ⟨fun w => ?_⟩
  simp [sleep, World.ran, Entry.ran?]

theorem quiet_writeFile (path : FilePath) (chunk : Chunk) :
    Quiet World.ran (writeFile path chunk) := quiet_of_eq fun _ => rfl

theorem quiet_appendFile (path : FilePath) (chunk : Chunk) :
    Quiet World.ran (appendFile path chunk) := quiet_of_eq fun _ => rfl

theorem quiet_setEnviron (name value : String) : Quiet World.ran (setEnviron name value) :=
  quiet_of_eq fun _ => rfl

/-- The commands are those of the processes. -/
theorem quiet_commands {x : Cli α} (h : Quiet World.ran x) : Quiet World.commands x :=
  quiet_of_eq fun w => congrArg (List.map Ran.command) (h.rel w)

theorem World.around_eq_iff {p : FilePath → Bool} {w w' : World} :
    w'.around p = w.around p ↔ w'.store = w.store ∧ w'.history = w.history ∧
      ∀ path, p path = false → w'.files path = w.files path := by
  rw [World.around, World.around, Prod.mk.injEq, Prod.mk.injEq, FileTree.removeWhere_eq_iff]

theorem quiet_around_writeFile {p : FilePath → Bool} {path : FilePath} (hpath : p path = true)
    (chunk : Chunk) : Quiet (World.around p) (writeFile path chunk) :=
  quiet_of_eq fun _ => World.around_eq_iff.mpr ⟨rfl, rfl,
    FileTree.removeWhere_eq_iff.mp (FileTree.removeWhere_write hpath)⟩

theorem quiet_around_deleteFilesMatching (dir : Dir) (p : String → Bool) :
    Quiet (World.around (FileTree.isChild dir.path p)) (deleteFilesMatching dir p) := by
  refine quiet_of_eq fun w => World.around_eq_iff.mpr ⟨rfl, rfl, fun path hpath => ?_⟩
  change FileTree.removeMatching _ _ _ path = _
  rw [FileTree.removeMatching_apply, if_neg]
  simpa using hpath

theorem exec_writeFile (path : FilePath) (chunk : Chunk) (w : World) :
    (writeFile path chunk).exec w = (.ok (), { w with files := w.files.write path [chunk] }) := rfl

/-- A loop that writes a file for each item. -/
theorem exec_writeFiles {β : Type} (pathOf : β → FilePath) (chunkOf : β → Chunk) (items : List β)
    (w : World) :
    (forM items fun a => writeFile (pathOf a) (chunkOf a)).exec w = (.ok (), { w with
      files := items.foldl (fun files a => files.write (pathOf a) [chunkOf a]) w.files }) := by
  induction items generalizing w with
  | nil => rfl
  | cons a rest ih =>
      rw [List.forM_cons, Action.exec_bind_ok (exec_writeFile _ _ w), ih]
      rfl

/-! ## What the first process finds -/

/-- Until it starts its first process an action changes neither the files nor the
environment. -/
structure StartsAsIs (x : Cli α) : Prop where
  first : ∀ w, ∃ ran, (x.exec w).2.ran = w.ran ++ ran ∧
    (ran = [] → (x.exec w).2.files = w.files ∧ (x.exec w).2.environ = w.environ) ∧
    ∀ first ∈ ran.head?, first.call.files = w.files ∧ first.call.environ = w.environ

/-- An action that changes nothing outside. -/
theorem startsAsIs_of_same {x : Cli α} (h : ∀ w, (x.exec w).2.ran = w.ran ∧
    (x.exec w).2.files = w.files ∧ (x.exec w).2.environ = w.environ) : StartsAsIs x :=
  ⟨fun w => ⟨[], by rw [(h w).1, List.append_nil], fun _ => (h w).2, by simp⟩⟩

theorem startsAsIs_sleep (seconds : Nat) : StartsAsIs (sleep seconds) :=
  startsAsIs_of_same fun w => ⟨(quiet_sleep seconds).rel w, rfl, rfl⟩

/-- What a part finds that goes on where another one has ended. -/
theorem startsAsIs_continue {w w₁ w₂ : World} {ran : List Ran} (hran : w₁.ran = w.ran ++ ran)
    (hnone : ran = [] → w₁.files = w.files ∧ w₁.environ = w.environ)
    (hfirst : ∀ first ∈ ran.head?, first.call.files = w.files ∧ first.call.environ = w.environ)
    (h : ∃ ran', w₂.ran = w₁.ran ++ ran' ∧
      (ran' = [] → w₂.files = w₁.files ∧ w₂.environ = w₁.environ) ∧
      ∀ first ∈ ran'.head?, first.call.files = w₁.files ∧ first.call.environ = w₁.environ) :
    ∃ all, w₂.ran = w.ran ++ all ∧ (all = [] → w₂.files = w.files ∧ w₂.environ = w.environ) ∧
      ∀ first ∈ all.head?, first.call.files = w.files ∧ first.call.environ = w.environ := by
  obtain ⟨ran', hran', hnone', hfirst'⟩ := h
  refine ⟨ran ++ ran', by rw [hran', hran, List.append_assoc], fun hnil => ?_, fun first hmem => ?_⟩
  · obtain ⟨hempty, hempty'⟩ := List.append_eq_nil_iff.mp hnil
    obtain ⟨hfiles, henviron⟩ := hnone hempty
    exact ⟨(hnone' hempty').1.trans hfiles, (hnone' hempty').2.trans henviron⟩
  · cases ran with
    | nil =>
        obtain ⟨hfiles, henviron⟩ := hnone rfl
        exact ⟨(hfirst' first hmem).1.trans hfiles, (hfirst' first hmem).2.trans henviron⟩
    | cons own rest => exact hfirst first hmem

theorem StartsAsIs.bind {β : Type} {x : Cli α} {f : α → Cli β} (hx : StartsAsIs x)
    (hf : ∀ a, StartsAsIs (f a)) : StartsAsIs (x >>= f) := by
  refine ⟨fun w => ?_⟩
  obtain ⟨ran, hran, hnone, hfirst⟩ := hx.first w
  rw [Action.exec_bind]
  rcases hrun : x.exec w with ⟨e | a, w₁⟩
  · rw [hrun] at hran hnone
    exact ⟨ran, hran, hnone, hfirst⟩
  · rw [hrun] at hran hnone
    exact startsAsIs_continue hran hnone hfirst ((hf a).first w₁)

theorem StartsAsIs.orElse {x : Cli α} {handler : Exc → Cli α} (hx : StartsAsIs x)
    (hhandler : ∀ e, StartsAsIs (handler e)) : StartsAsIs (Action.orElse x handler) := by
  refine ⟨fun w => ?_⟩
  obtain ⟨ran, hran, hnone, hfirst⟩ := hx.first w
  rw [Action.exec_orElse]
  rcases hrun : x.exec w with ⟨e | a, w₁⟩
  · rw [hrun] at hran hnone
    exact startsAsIs_continue hran hnone hfirst ((hhandler e).first w₁)
  · rw [hrun] at hran hnone
    exact ⟨ran, hran, hnone, hfirst⟩

theorem StartsAsIs.retrying {x : Cli Unit} {after : Exc → Cli Unit} {failure : Exc}
    (hx : StartsAsIs x) (hafter : ∀ e, StartsAsIs (after e)) (n : Nat) :
    StartsAsIs (Lib.retrying x after failure n) := by
  induction n with
  | zero => exact startsAsIs_of_same fun _ => ⟨rfl, rfl, rfl⟩
  | succ n ih => exact hx.orElse fun e => (hafter e).bind fun _ => ih

theorem startsAsIs_forM {β : Type} {items : List β} {f : β → Cli Unit}
    (h : ∀ a, StartsAsIs (f a)) : StartsAsIs (forM items f) := by
  induction items with
  | nil => exact startsAsIs_of_same fun _ => ⟨rfl, rfl, rfl⟩
  | cons a rest ih => exact (h a).bind fun _ => ih

variable (execute) in
theorem startsAsIs_runProcess (argv : List String) :
    StartsAsIs (runProcess execute argv World.environ) := by
  refine ⟨fun w => ⟨[⟨callIn argv World.environ w,
    (exitIn execute argv World.environ w).returncode⟩], ?_, by simp, by simp [callIn]⟩⟩
  rw [runProcess, Action.exec_bind, exec_popen]
  by_cases hcode : (exitIn execute argv World.environ w).returncode = 0
  · simp [hcode, World.ran, Entry.ran?]
  · simp [hcode, World.ran, Entry.ran?]

end

end LambdaStack
