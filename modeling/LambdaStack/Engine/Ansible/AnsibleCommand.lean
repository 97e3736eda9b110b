/-
# Running Ansible

`AnsibleCommand`: a module or a playbook is run by a process of its own, once or
with a number of tries. A try that fails is followed by a pause, the last one too.
-/

import LambdaStack.Helpers.Processes

namespace LambdaStack

open Lib

namespace AnsibleCommand

/-- `ansible_verbosity`. -/
def ansibleVerbosity : Fin 5 → String := fun
  | 0 => "NONE"
  | 1 => "-v"
  | 2 => "-vv"
  | 3 => "-vvv"
  | 4 => "-vvvv"

/-- What a command reads besides its arguments. -/
structure Env where
  execute : Execute
  /-- `Config().debug`. -/
  debug : Fin 5

variable (env : Env)

/-- The last argument, when there is one. -/
def verbosity (debug : Fin 5) : List String :=
  if 0 < debug.val then [ansibleVerbosity debug] else []

/-- `cmd.extend([flag, value])`, unless there is no value. -/
def extendWith (flag : String) : Option String → List String
  | some value => if value = "" then [] else [flag, value]
  | none => []

/-- The command line of `run_task`. -/
def taskLine (hosts : String) (inventory : Option String) (module : String)
    (args : Option String) : List String :=
  ["ansible", "-m", module] ++ extendWith "-a" args ++ extendWith "-i" inventory ++ [hosts] ++
    verbosity env.debug

/-- The command line of `run_playbook`. -/
def playbookLine (inventory : Option String) (playbookPath : String)
    (vaultFile : Option String) : List String :=
  ["ansible-playbook"] ++ extendWith "-i" inventory ++
    (vaultFile.map fun file => ["--vault-password-file", file]).getD [] ++ [playbookPath] ++
    verbosity env.debug

/-- `run_task`. -/
def runTask (hosts : String) (inventory : Option String) (module : String)
    (args : Option String) : Cli Unit :=
  runProcess env.execute (taskLine env hosts inventory module args) World.environ

/-- `run_playbook`. -/
def runPlaybook (inventory : Option String) (playbookPath : String)
    (vaultFile : Option String) : Cli Unit :=
  runProcess env.execute (playbookLine env inventory playbookPath vaultFile) World.environ

/-- `'Failed running … after … retries'`. -/
def failedAfter (what : String) (retries : Int) : Exc :=
  .exception ("Failed running " ++ what ++ " after " ++ toString retries ++ " retries")

/-- `run_task_with_retries`. -/
def runTaskWithRetries (inventory : Option String) (module hosts : String) (retries : Int)
    (timeout : Nat) (args : Option String) : Cli Unit :=
  retrying (runTask env hosts inventory module args) (fun _ => sleep timeout)
    (failedAfter "task" retries) retries.toNat

/-- `run_playbook_with_retries`. -/
def runPlaybookWithRetries (inventory : Option String) (playbookPath : String) (retries : Int)
    (timeout : Nat) : Cli Unit :=
  retrying (runPlaybook env inventory playbookPath none) (fun _ => sleep timeout)
    (failedAfter "playbook" retries) retries.toNat

variable {env}

theorem sleep_quiet (timeout : Nat) (w : World) :
    ((sleep timeout).exec w).1 = .ok () ∧
      ((sleep timeout).exec w).2.commands = w.commands := by
  exact ⟨rfl, (quiet_commands (quiet_sleep timeout)).rel w⟩

variable (env) in
theorem quiet_store_runTaskWithRetries (inventory : Option String) (module hosts : String)
    (retries : Int) (timeout : Nat) (args : Option String) :
    Quiet World.store (runTaskWithRetries env inventory module hosts retries timeout args) :=
  (quiet_store_runProcess _ _).retrying (fun _ => quiet_of_eq fun _ => rfl) _

variable (env) in
theorem quiet_store_runPlaybookWithRetries (inventory : Option String) (playbookPath : String)
    (retries : Int) (timeout : Nat) :
    Quiet World.store (runPlaybookWithRetries env inventory playbookPath retries timeout) :=
  (quiet_store_runProcess _ _).retrying (fun _ => quiet_of_eq fun _ => rfl) _

variable (env) in
theorem startsAsIs_runTaskWithRetries (inventory : Option String) (module hosts : String)
    (retries : Int) (timeout : Nat) (args : Option String) :
    StartsAsIs (runTaskWithRetries env inventory module hosts retries timeout args) :=
  (startsAsIs_runProcess _ _).retrying (fun _ => startsAsIs_sleep timeout) _

variable (env) in
theorem startsAsIs_runPlaybookWithRetries (inventory : Option String) (playbookPath : String)
    (retries : Int) (timeout : Nat) :
    StartsAsIs (runPlaybookWithRetries env inventory playbookPath retries timeout) :=
  (startsAsIs_runProcess _ _).retrying (fun _ => startsAsIs_sleep timeout) _

/-- A playbook of a script, run once. -/
def playbookTask (env : Env) (inventory : Option String) (playbookPath : String)
    (vaultFile : Option String) : Task (List String) Exc :=
  ⟨playbookLine env inventory playbookPath vaultFile, 1,
    errorRunning (playbookLine env inventory playbookPath vaultFile)⟩

/-- A playbook of a script, run with retries. -/
def retriedTask (env : Env) (inventory : Option String) (playbookPath : String) (retries : Int) :
    Task (List String) Exc :=
  ⟨playbookLine env inventory playbookPath none, retries.toNat, failedAfter "playbook" retries⟩

/-- A playbook has one command line without a vault password, and none with it. -/
theorem playbookLine_inj {inventory : Option String} {path path' : String}
    {vault : Option String}
    (h : playbookLine env inventory path vault = playbookLine env inventory path' none) :
    vault = none ∧ path = path' := by
  simp only [playbookLine, List.append_assoc, List.append_cancel_left_eq] at h
  cases vault with
  | none =>
      simp only [Option.map_none, Option.getD_none, List.nil_append, List.cons_append,
        List.cons.injEq] at h
      exact ⟨rfl, h.1⟩
  | some file =>
      have hlength := congrArg List.length h
      simp only [Option.map_some, Option.getD_some, Option.map_none, Option.getD_none,
        List.length_append, List.length_cons, List.length_nil] at hlength
      omega

theorem taskLine_ne_playbookLine {inventory : Option String} {hosts module path : String}
    {args vault : Option String} :
    taskLine env hosts inventory module args ≠ playbookLine env inventory path vault := by
  simp [taskLine, playbookLine]

variable (env) in
theorem implements_runPlaybook (inventory : Option String) (playbookPath : String)
    (vaultFile : Option String) :
    Implements World.commands (runPlaybook env inventory playbookPath vaultFile)
      [playbookTask env inventory playbookPath vaultFile] :=
  implements_runProcess _ _

variable (env) in
theorem implements_runPlaybookWithRetries (inventory : Option String) (playbookPath : String)
    (retries : Int) (timeout : Nat) :
    Implements World.commands (runPlaybookWithRetries env inventory playbookPath retries timeout)
      [retriedTask env inventory playbookPath retries] :=
  implements_retrying (attempts_runProcess _ _) (fun _ => sleep_quiet timeout) _

variable (env) in
theorem implements_runTaskWithRetries (inventory : Option String) (module hosts : String)
    (retries : Int) (timeout : Nat) (args : Option String) :
    Implements World.commands
      (runTaskWithRetries env inventory module hosts retries timeout args)
      [⟨taskLine env hosts inventory module args, retries.toNat, failedAfter "task" retries⟩] :=
  implements_retrying (attempts_runProcess _ _) (fun _ => sleep_quiet timeout) _

end AnsibleCommand

end LambdaStack
