/-
# The Ansible run of an apply

`AnsibleRunner.apply`: the playbooks are copied, the inventory, the configuration
file and the variables are written, and then the playbooks are run one after the
other. Nothing is started before everything is written, and the processes that are
started follow one script, which only depends on the enabled roles.
-/

import LambdaStack.Engine.Ansible.AnsibleCommand
import LambdaStack.Engine.Ansible.AnsibleConfigFileCreator
import LambdaStack.Engine.Ansible.EnabledRoles
import LambdaStack.Helpers.BuildPaths

namespace LambdaStack

open Lib BuildM AnsibleCommand

namespace AnsibleRunner

/-- What a run reads besides the documents. -/
structure Env extends AnsibleCommand.Env where
  /-- `get_output_path`. -/
  output : Dir
  /-- `ANSIBLE_PLAYBOOKS_PATH`. -/
  playbooks : Tree
  vars : AnsibleVarsGenerator.Env
  /-- `Config().vault_password_location`. -/
  vaultPasswordLocation : String
  vaultPasswordLocation_eq : vars.vaultPasswordLocation = .str vaultPasswordLocation
  /-- `get_proxy`. -/
  getProxy : Val → List Val → Res APIProxy

end AnsibleRunner

/-- The attributes of a runner of an apply. -/
structure AnsibleRunner where
  clusterModel : DocId
  configDocs : List DocId
  profileTasks : Bool
  pingRetries : Int

namespace AnsibleRunner

section

variable (env : Env) (r : AnsibleRunner)

/-- `playbook_path`, in the directory of the playbooks. -/
def playbookPath (ansible : Dir) (name : String) : String := ansible.fileText (name ++ ".yml")

/-- `copy_resources`. -/
def copyResources (ansible : Dir) : Cli Unit :=
  Action.change fun w =>
    { w with files := (w.files.removeTree ansible.path).copyTree env.playbooks ansible.path }

/-- The inventory of the cluster model and the documents. -/
def inventoryFile (doc : DocId → Val) : Res InventoryFile := do
  let clusterModel := doc r.clusterModel
  let configDocs := r.configDocs.map doc
  let proxy ← env.getProxy clusterModel configDocs
  let inventory ← AnsibleInventoryCreator.getInventory proxy clusterModel configDocs
  saveInventory inventory clusterModel

/-- `AnsibleInventoryCreator(cluster_model, config_docs).create()`. -/
def createInventory (name : String) : Cli Unit := do
  let file ← readDocs (inventoryFile env r)
  writeFile (inventoryFilePath env.output name) (.inventory file)

/-- The path of a role's variables. -/
def roleVarsPath (ansible : Dir) (role : String) : FilePath :=
  ansible.path ++ ["roles", role, "vars", "main.yml"]

/-- The path of the variables of all groups. -/
def groupVarsPath (ansible : Dir) : FilePath := ansible.path ++ ["group_vars", "all.yml"]

/-- `AnsibleVarsGenerator(inventory_creator=inventory_creator).generate()`. -/
def generateVars (ansible : Dir) : Cli Unit := do
  let generated ← onStore (AnsibleVarsGenerator.generate env.vars r.clusterModel r.configDocs)
  forM generated.vars.files fun file =>
    writeFile (roleVarsPath ansible file.1) (.yaml [file.2.content])
  appendFile (groupVarsPath ansible) (.yaml [generated.groupVars])

/-- `pre_flight`. -/
def preFlight (ansible : Dir) (inventory : String) : Cli Unit := do
  runTaskWithRetries env.toEnv inventory "ping" "all" r.pingRetries 10 none
  runPlaybookWithRetries env.toEnv inventory (playbookPath ansible "preflight") 1 10
  runPlaybookWithRetries env.toEnv inventory (playbookPath ansible "sshtunnel_setup_k8s") 1 10
  runPlaybookWithRetries env.toEnv inventory (playbookPath ansible "sshtunnel_setup_helm") 1 10
  runPlaybookWithRetries env.toEnv inventory (playbookPath ansible "repository_setup") 1 10
  runPlaybook env.toEnv inventory (playbookPath ansible "common") none

/-- `post_flight`. -/
def postFlight (ansible : Dir) (inventory : String) : Cli Unit := do
  runPlaybookWithRetries env.toEnv inventory (playbookPath ansible "sshtunnel_teardown_k8s") 1 10
  runPlaybookWithRetries env.toEnv inventory
    (playbookPath ansible "sshtunnel_teardown_helm") 1 10
  runPlaybook env.toEnv inventory (playbookPath ansible "repository_teardown") none
  runPlaybook env.toEnv inventory (playbookPath ansible "postflight") none

/-- The playbook of an enabled role. -/
def runRole (ansible : Dir) (inventory : String) (role : Val) : Cli Unit := do
  let role ← Action.read fun _ => role.asStr
  runPlaybook env.toEnv inventory (playbookPath ansible (toRoleName role))
    (some env.vaultPasswordLocation)

/-- `cluster_model.specification.name`. -/
def clusterName : Cli String := do
  let name ← readDocs fun doc => attrPath (doc r.clusterModel) ["specification", "name"]
  Action.read fun _ => name.asStr

/-- The part of `apply` that writes files. -/
def prepare : Cli String := do
  let name ← clusterName r
  let ansible := getAnsiblePath env.output name
  copyResources env ansible
  createInventory env r name
  sleep 10
  AnsibleConfigFileCreator.create r.profileTasks (ansible.path ++ ["ansible.cfg"])
    (ansible.fileText "ansible.cfg")
  generateVars env r ansible
  pure name

/-- The part of `apply` that starts processes. -/
def provision (name : String) : Cli Unit := do
  let ansible := getAnsiblePath env.output name
  let inventory := getInventoryPath env.output name
  preFlight env r ansible inventory
  let enabledRoles ← readDocs fun doc =>
    AnsibleInventoryCreator.getEnabledRoles (r.configDocs.map doc)
  forM enabledRoles (runRole env ansible inventory)
  postFlight env ansible inventory

/-- `apply`. -/
def apply : Cli Unit := do
  let name ← prepare env r
  provision env r name

/-! ## The script of a run -/

/-- The ping, the playbooks before the roles, and their retries. -/
def preFlightScript (ansible : Dir) (inventory : String) : List (Task (List String) Exc) :=
  ⟨taskLine env.toEnv "all" inventory "ping" none, r.pingRetries.toNat,
      failedAfter "task" r.pingRetries⟩ ::
    ["preflight", "sshtunnel_setup_k8s", "sshtunnel_setup_helm", "repository_setup"].map
      (fun name => retriedTask env.toEnv inventory (playbookPath ansible name) 1) ++
    [playbookTask env.toEnv inventory (playbookPath ansible "common") none]

/-- The playbooks after the roles. -/
def postFlightScript (ansible : Dir) (inventory : String) : List (Task (List String) Exc) :=
  ["sshtunnel_teardown_k8s", "sshtunnel_teardown_helm"].map
      (fun name => retriedTask env.toEnv inventory (playbookPath ansible name) 1) ++
    ["repository_teardown", "postflight"].map
      (fun name => playbookTask env.toEnv inventory (playbookPath ansible name) none)

/-- The playbook of a role, which is the only one with the vault password. -/
def roleTask (ansible : Dir) (inventory role : String) : Task (List String) Exc :=
  playbookTask env.toEnv inventory (playbookPath ansible (toRoleName role))
    (some env.vaultPasswordLocation)

/-- The part of a run of `apply` before the teardown. -/
def setupScript (name : String) (roles : List String) : List (Task (List String) Exc) :=
  preFlightScript env r (getAnsiblePath env.output name) (getInventoryPath env.output name) ++
    roles.map (roleTask env (getAnsiblePath env.output name) (getInventoryPath env.output name))

/-- What a run of `apply` starts for the enabled roles of a cluster. -/
def script (name : String) (roles : List String) : List (Task (List String) Exc) :=
  setupScript env r name roles ++
    postFlightScript env (getAnsiblePath env.output name) (getInventoryPath env.output name)

/-- The playbooks `post_flight` runs. -/
def postFlightPlaybooks : List String :=
  ["sshtunnel_teardown_k8s", "sshtunnel_teardown_helm", "repository_teardown", "postflight"]

/-- The playbooks `pre_flight` runs. -/
def preFlightPlaybooks : List String :=
  ["preflight", "sshtunnel_setup_k8s", "sshtunnel_setup_helm", "repository_setup", "common"]

/-- The command line of a playbook without the vault password. -/
def plainLine (name playbook : String) : List String :=
  playbookLine env.toEnv (getInventoryPath env.output name)
    (playbookPath (getAnsiblePath env.output name) playbook) none

variable {env r}

theorem implements_preFlight (ansible : Dir) (inventory : String) :
    Implements World.commands (preFlight env r ansible inventory)
      (preFlightScript env r ansible inventory) := by
  unfold preFlight
  have htask := implements_runTaskWithRetries env.toEnv inventory "ping" "all"
    r.pingRetries 10 none
  have hretried := fun name => implements_runPlaybookWithRetries env.toEnv
    inventory (playbookPath ansible name) 1 10
  have hcommon := implements_runPlaybook env.toEnv inventory
    (playbookPath ansible "common") none
  exact htask.bind ((hretried _).bind ((hretried _).bind ((hretried _).bind
    ((hretried _).bind hcommon))))

theorem implements_postFlight (ansible : Dir) (inventory : String) :
    Implements World.commands (postFlight env ansible inventory)
      (postFlightScript env ansible inventory) := by
  unfold postFlight
  have hretried := fun name => implements_runPlaybookWithRetries env.toEnv
    inventory (playbookPath ansible name) 1 10
  have hplain := fun name => implements_runPlaybook env.toEnv inventory
    (playbookPath ansible name) none
  exact (hretried _).bind ((hretried _).bind ((hplain _).bind (hplain _)))

theorem implements_runRole (ansible : Dir) (inventory : String) {role : Val} {name : String}
    (hname : role.str? = some name) :
    Implements World.commands (runRole env ansible inventory role)
      [roleTask env ansible inventory name] := by
  obtain ⟨type, rfl⟩ := Val.str?_eq_some.mp hname
  exact implements_runPlaybook env.toEnv inventory _ _

theorem implements_roles (ansible : Dir) (inventory : String) {enabled : List Val}
    {roles : List String} (hroles : Val.HasTexts enabled roles) :
    Implements World.commands (forM enabled (runRole env ansible inventory))
      (roles.map (roleTask env ansible inventory)) :=
  implements_forM hroles fun _ _ hname => implements_runRole ansible inventory hname

/-! ## What is there before anything is started -/

/-- What the directory of the playbooks holds when the first process is started. -/
def ansibleTree (playbooks : Tree) (generated : AnsibleVarsGenerator.Generated)
    (settings : String) : Tree :=
  let configured := playbooks.write ["ansible.cfg"] [.text settings]
  let files := generated.vars.files.foldl (fun files file =>
    files.write ["roles", file.1, "vars", "main.yml"] [.yaml [file.2.content]]) configured
  files.write ["group_vars", "all.yml"]
    ((playbooks ["group_vars", "all.yml"]).getD [] ++ [.yaml [generated.groupVars]])

theorem exec_copyResources (ansible : Dir) (w : World) :
    (copyResources env ansible).exec w = (.ok (), { w with
      files := (w.files.removeTree ansible.path).copyTree env.playbooks ansible.path }) := rfl

theorem createInventory_eq_ok {name : String} {w w' : World} {u : Unit}
    (h : (createInventory env r name).exec w = (.ok u, w')) :
    ∃ file, inventoryFile env r w.store.doc = .ok file ∧ w' = { w with
      files := w.files.write (inventoryFilePath env.output name) [.inventory file] } := by
  rw [createInventory, Action.bind_eq_ok] at h
  obtain ⟨file, w₁, hread, hwrite⟩ := h
  obtain ⟨hfile, rfl⟩ := Prod.ext_iff.mp hread
  cases hwrite
  exact ⟨file, hfile, rfl⟩

theorem create_eq_ok {profileTasks : Bool} {path : FilePath} {text : String} {w w' : World}
    {u : Unit}
    (h : (AnsibleConfigFileCreator.create profileTasks path text).exec w = (.ok u, w')) :
    ∃ settings, AnsibleConfigFileCreator.processAnsibleOptions profileTasks = .ok settings ∧
      w' = { w with
        files := w.files.write path [.text (AnsibleConfigFileCreator.render settings)]
        environ := dictSet "ANSIBLE_CONFIG" text w.environ } := by
  rw [AnsibleConfigFileCreator.create, Action.bind_eq_ok] at h
  obtain ⟨settings, w₁, hread, hwrite⟩ := h
  obtain ⟨hsettings, rfl⟩ := Prod.ext_iff.mp hread
  cases hwrite
  exact ⟨settings, hsettings, rfl⟩

/-- The files after the variables of the roles were written. -/
def withRoleVars (ansible : Dir) (generated : AnsibleVarsGenerator.Generated) (files : Tree) :
    Tree :=
  generated.vars.files.foldl (fun files file =>
    files.write (roleVarsPath ansible file.1) [.yaml [file.2.content]]) files

/-- The files after all variables were written. -/
def withVars (ansible : Dir) (generated : AnsibleVarsGenerator.Generated) (files : Tree) : Tree :=
  (withRoleVars ansible generated files).write (groupVarsPath ansible)
    ((withRoleVars ansible generated files (groupVarsPath ansible)).getD [] ++
      [.yaml [generated.groupVars]])

theorem generateVars_eq_ok {ansible : Dir} {w w' : World} {u : Unit}
    (h : (generateVars env r ansible).exec w = (.ok u, w')) :
    ∃ generated s, AnsibleVarsGenerator.generate env.vars r.clusterModel r.configDocs w.store =
        .ok (generated, s) ∧
      w' = { w with store := s, files := withVars ansible generated w.files } := by
  rw [generateVars, Action.bind_eq_ok] at h
  obtain ⟨generated, w₁, hgenerate, h⟩ := h
  obtain ⟨s, hs, rfl⟩ := onStore_eq_ok.mp hgenerate
  refine ⟨generated, s, hs, ?_⟩
  rw [Action.exec_bind_ok (exec_writeFiles _ _ _ _)] at h
  cases h
  rfl

/-- What a successful preparation has done. -/
theorem prepare_eq_ok {w w' : World} {name : String} (h : (prepare env r).exec w = (.ok name, w')) :
    ∃ file settings generated,
      specName (w.store.doc r.clusterModel) = .ok name ∧
      inventoryFile env r w.store.doc = .ok file ∧
      AnsibleConfigFileCreator.processAnsibleOptions r.profileTasks = .ok settings ∧
      AnsibleVarsGenerator.generate env.vars r.clusterModel r.configDocs w.store =
        .ok (generated, w'.store) ∧
      w'.environ = dictSet "ANSIBLE_CONFIG"
        ((getAnsiblePath env.output name).fileText "ansible.cfg") w.environ ∧
      w'.files = withVars (getAnsiblePath env.output name) generated
        ((((w.files.removeTree (getAnsiblePath env.output name).path).copyTree env.playbooks
            (getAnsiblePath env.output name).path).write
          (inventoryFilePath env.output name) [.inventory file]).write
          ((getAnsiblePath env.output name).path ++ ["ansible.cfg"])
          [.text (AnsibleConfigFileCreator.render settings)]) := by
  simp only [prepare, clusterName, Action.bind_eq_ok] at h
  obtain ⟨own, w₁, ⟨value, w₂, hread, hname⟩, _, w₃, hcopy, _, w₄, hinventory, _, w₅, hsleep, _, w₆,
    hconfig, _, w₇, hvars, h⟩ := h
  obtain ⟨hvalue, rfl⟩ := Prod.ext_iff.mp hread
  obtain ⟨hown, rfl⟩ := Prod.ext_iff.mp hname
  cases h
  rw [exec_copyResources] at hcopy
  cases hcopy
  obtain ⟨file, hfile, rfl⟩ := createInventory_eq_ok hinventory
  cases hsleep
  obtain ⟨settings, hsettings, rfl⟩ := create_eq_ok hconfig
  obtain ⟨generated, s, hgenerate, rfl⟩ := generateVars_eq_ok hvars
  refine ⟨file, settings, generated, ?_, hfile, hsettings, hgenerate, rfl, rfl⟩
  exact specName_eq_ok.mpr ⟨value, hvalue, Val.asStr_eq_ok.mp hown⟩

variable (env r) in
theorem quiet_prepare : Quiet World.ran (prepare env r) := by
  have hname : Quiet World.ran (clusterName r) := (relates_read _).bind fun _ => relates_read _
  apply hname.bind
  intro name
  have hcopy : Quiet World.ran (copyResources env (getAnsiblePath env.output name)) :=
    quiet_of_eq fun _ => rfl
  have hinventory : Quiet World.ran (createInventory env r name) :=
    (relates_read _).bind fun file => quiet_writeFile _ _
  have hconfig : ∀ path text,
      Quiet World.ran (AnsibleConfigFileCreator.create r.profileTasks path text) :=
    fun path text => (relates_read _).bind fun settings => (quiet_writeFile _ _).bind fun _ =>
      quiet_setEnviron _ _
  have hvars : Quiet World.ran (generateVars env r (getAnsiblePath env.output name)) := by
    apply (quiet_onStore _).bind
    intro generated
    refine Relates.bind (quiet_of_eq fun w => ?_) fun _ => quiet_appendFile _ _
    rw [exec_writeFiles]
    rfl
  exact hcopy.bind fun _ => hinventory.bind fun _ => (quiet_sleep 10).bind fun _ =>
    (hconfig _ _).bind fun _ => hvars.bind fun _ => relates_pure name

/-! ## The run -/

variable (env r) in
theorem quiet_store_preFlight (ansible : Dir) (inventory : String) :
    Quiet World.store (preFlight env r ansible inventory) := by
  have hretried := fun name => quiet_store_runPlaybookWithRetries env.toEnv
    inventory (playbookPath ansible name) 1 10
  exact (quiet_store_runTaskWithRetries _ _ _ _ _ _ _).bind fun _ => (hretried _).bind fun _ =>
    (hretried _).bind fun _ => (hretried _).bind fun _ => (hretried _).bind fun _ =>
      quiet_store_runProcess _ _

/-- The processes follow the script of the enabled roles. -/
theorem provision_follows (name : String) {w : World} {roles : List String}
    (hroles : AnsibleVarsGenerator.enabledRoleNames (r.configDocs.map w.store.doc) = .ok roles) :
    ∃ trace, ((provision env r name).exec w).2.commands = w.commands ++ trace ∧
      Script.Follows (script env r name roles) trace ((provision env r name).exec w).1 := by
  unfold provision script setupScript
  rw [List.append_assoc]
  refine (implements_preFlight _ _).bind_follows fun w₁ hrun => ?_
  have hstore := (quiet_store_preFlight env r (getAnsiblePath env.output name)
    (getInventoryPath env.output name)).rel w
  rw [hrun] at hstore
  obtain ⟨enabled, henabled, hnames⟩ := AnsibleVarsGenerator.enabledRoleNames_eq_ok.mp hroles
  have hread : (readDocs fun doc => AnsibleInventoryCreator.getEnabledRoles
      (r.configDocs.map doc)).exec w₁ = (.ok enabled, w₁) := by
    refine Prod.ext ?_ rfl
    rw [← henabled, ← hstore]
    rfl
  have hquiet : Quiet World.commands (readDocs fun doc =>
    AnsibleInventoryCreator.getEnabledRoles (r.configDocs.map doc)) := relates_read _
  refine hquiet.follows hread ?_
  exact (implements_roles _ _ hnames).bind (implements_postFlight _ _)

/-- A run of an apply either starts nothing and raises, or it follows the script of
the roles that are enabled. -/
theorem apply_follows {w w' : World} {result : Except Exc Unit}
    (hids : ∀ id ∈ r.configDocs, id < w.store.next)
    (hkind : (w.store.doc r.clusterModel).IsKind "lambdastack-cluster")
    (h : (apply env r).exec w = (result, w')) :
    (w'.ran = w.ran ∧ ∃ e, result = .error e) ∨
      ∃ (name : String) (roles : List String) (trace : List (List String × Bool)),
        specName (w.store.doc r.clusterModel) = .ok name ∧
        AnsibleVarsGenerator.enabledRoleNames (r.configDocs.map w.store.doc) = .ok roles ∧
        w'.commands = w.commands ++ trace ∧
        Script.Follows (script env r name roles) trace result := by
  have hquiet := (quiet_prepare env r).rel w
  rcases hrun : (prepare env r).exec w with ⟨e | name, w₁⟩
  · rw [hrun] at hquiet
    rw [apply, Action.exec_bind_error hrun] at h
    cases h
    exact Or.inl ⟨hquiet, e, rfl⟩
  · rw [hrun] at hquiet
    rw [apply, Action.exec_bind_ok hrun] at h
    obtain ⟨file, settings, generated, hname, -, -, hgenerate, -, -⟩ := prepare_eq_ok hrun
    obtain ⟨roles, hbefore, hafter⟩ :=
      AnsibleVarsGenerator.getEnabledRoles_of_generate hids hkind hgenerate
    obtain ⟨trace, hcommands, hfollows⟩ := provision_follows name hafter
    rw [h] at hcommands hfollows
    have hsame : w₁.commands = w.commands := congrArg (List.map Ran.command) hquiet
    exact Or.inr ⟨name, roles, trace, hname, hbefore, hcommands.trans (by rw [hsame]), hfollows⟩

/-- The playbooks around the roles have different paths. -/
theorem playbookPath_ne {ansible : Dir} {playbook other : String}
    (hplaybook : playbook ∈ postFlightPlaybooks) (hother : other ∈ preFlightPlaybooks) :
    playbookPath ansible other ≠ playbookPath ansible playbook := by
  have hnames : ∀ playbook ∈ postFlightPlaybooks,
      ['/'].isPrefixOf (playbook ++ ".yml").toList = false := by
    decide
  have hothers : ∀ other ∈ preFlightPlaybooks,
      ['/'].isPrefixOf (other ++ ".yml").toList = false := by
    decide
  have hdiffer : ∀ playbook ∈ postFlightPlaybooks, ∀ other ∈ preFlightPlaybooks,
      other ++ ".yml" ≠ playbook ++ ".yml" := by
    decide
  intro heq
  exact hdiffer playbook hplaybook other hother
    (pathJoin_inj (hothers other hother) (hnames playbook hplaybook) heq)

/-- A playbook after the roles is no command of the part of the script before it. -/
theorem postFlight_notMem {name playbook : String} {roles : List String}
    (hplaybook : playbook ∈ postFlightPlaybooks) :
    ∀ task ∈ setupScript env r name roles, task.command ≠ plainLine env name playbook := by
  have hretried : ∀ other ∈ preFlightPlaybooks,
      plainLine env name other ≠ plainLine env name playbook :=
    fun other hother heq => playbookPath_ne hplaybook hother (playbookLine_inj heq).2
  intro task hmem
  simp only [setupScript, preFlightScript, List.cons_append, List.mem_cons, List.mem_append,
    List.mem_map, List.not_mem_nil, or_false] at hmem
  rcases hmem with rfl | (⟨other, hother, rfl⟩ | rfl) | ⟨role, -, rfl⟩
  · exact taskLine_ne_playbookLine
  · exact hretried other (by simp only [preFlightPlaybooks, List.mem_cons]; tauto)
  · exact hretried "common" (by decide)
  · intro heq
    exact Option.some_ne_none _ (playbookLine_inj heq).1

/-- The playbooks after the roles are started only when the roles are done. When a
process of the teardown is started, the ping, the playbooks before the roles and the
playbook of every enabled role have succeeded, in this order. -/
theorem apply_teardown_last {w w' : World} {result : Except Exc Unit} {name playbook : String}
    {roles : List String} {before after : List (List String × Bool)} {ok : Bool}
    (hids : ∀ id ∈ r.configDocs, id < w.store.next)
    (hkind : (w.store.doc r.clusterModel).IsKind "lambdastack-cluster")
    (hname : specName (w.store.doc r.clusterModel) = .ok name)
    (hroles : AnsibleVarsGenerator.enabledRoleNames (r.configDocs.map w.store.doc) = .ok roles)
    (hplaybook : playbook ∈ postFlightPlaybooks) (h : (apply env r).exec w = (result, w'))
    (hstarted : w'.commands =
      w.commands ++ (before ++ (plainLine env name playbook, ok) :: after)) :
    (setupScript env r name roles).map Task.command <+: Script.succeeded before := by
  rcases apply_follows hids hkind h with ⟨hran, -⟩ | ⟨own, ownRoles, trace, hown, henabled,
    hcommands, hfollows⟩
  · have hsame : w'.commands = w.commands := congrArg (List.map Ran.command) hran
    rw [hsame] at hstarted
    simp at hstarted
  · rw [hname] at hown
    obtain rfl : name = own := by simpa using hown
    rw [hroles] at henabled
    obtain rfl : roles = ownRoles := Except.ok.inj henabled
    rw [hcommands, List.append_cancel_left_eq] at hstarted
    exact hfollows.succeeded_before (postFlight_notMem hplaybook) hstarted

/-! ## What the first process finds -/

variable (env r) in
theorem startsAsIs_provision (name : String) : StartsAsIs (provision env r name) := by
  have hretried := fun playbook => startsAsIs_runPlaybookWithRetries env.toEnv
    (getInventoryPath env.output name) (playbookPath (getAnsiblePath env.output name) playbook) 1 10
  have hplain := fun playbook => startsAsIs_runProcess env.execute
    (playbookLine env.toEnv (getInventoryPath env.output name)
      (playbookPath (getAnsiblePath env.output name) playbook) none)
  have hread : ∀ {α : Type} (f : World → Res α), StartsAsIs (Action.read f : Cli α) :=
    fun f => startsAsIs_of_same fun _ => ⟨rfl, rfl, rfl⟩
  have hpre : StartsAsIs (preFlight env r (getAnsiblePath env.output name)
      (getInventoryPath env.output name)) :=
    (startsAsIs_runTaskWithRetries _ _ _ _ _ _ _).bind fun _ => (hretried _).bind fun _ =>
      (hretried _).bind fun _ => (hretried _).bind fun _ => (hretried _).bind fun _ => hplain _
  have hpost : StartsAsIs (postFlight env (getAnsiblePath env.output name)
      (getInventoryPath env.output name)) :=
    (hretried _).bind fun _ => (hretried _).bind fun _ => (hplain _).bind fun _ => hplain _
  have hroles : ∀ roles : List Val, StartsAsIs (forM roles
      (runRole env (getAnsiblePath env.output name) (getInventoryPath env.output name))) :=
    fun roles => startsAsIs_forM fun role => (hread _).bind fun _ => startsAsIs_runProcess _ _
  exact hpre.bind fun _ => (hread _).bind fun roles => (hroles roles).bind fun _ => hpost

/-- What the playbook directory holds after the variables were written. -/
theorem sub_withVars {dir : Dir} {generated : AnsibleVarsGenerator.Generated}
    {files playbooks : Tree} {settings : String}
    (hfiles : files.sub dir.path = playbooks.write ["ansible.cfg"] [.text settings]) :
    (withVars dir generated files).sub dir.path = ansibleTree playbooks generated settings := by
  have hroles : (withRoleVars dir generated files).sub dir.path =
      generated.vars.files.foldl (fun files file =>
        files.write ["roles", file.1, "vars", "main.yml"] [.yaml [file.2.content]])
        (playbooks.write ["ansible.cfg"] [.text settings]) := by
    rw [← hfiles]
    exact FileTree.sub_foldl_write _ _ _ _
  have hgroup : withRoleVars dir generated files (groupVarsPath dir) =
      playbooks ["group_vars", "all.yml"] := by
    have hsub := congrFun hroles ["group_vars", "all.yml"]
    exact hsub.trans ((FileTree.foldl_write_ne _ _ _ _ (by simp)).trans
      (FileTree.write_ne (by simp)))
  rw [withVars, hgroup, groupVarsPath, FileTree.sub_write, hroles]
  rfl

/-- The variables are written below the directory of the playbooks. -/
theorem withVars_of_not_below {dir : Dir} {generated : AnsibleVarsGenerator.Generated}
    {files : Tree} {path : FilePath} (h : FileTree.isBelow dir.path path = false) :
    withVars dir generated files path = files path := by
  have hne : ∀ rest, rest ≠ [] → path ≠ dir.path ++ rest := by
    rintro rest hrest rfl
    rw [FileTree.isBelow_append hrest] at h
    cases h
  rw [withVars, groupVarsPath, FileTree.write_ne (hne _ (List.cons_ne_nil _ _))]
  exact FileTree.foldl_write_ne _ _ _ _ fun file _ => hne _ (List.cons_ne_nil _ _)

variable (env) in
theorem inventory_not_below (name : String) :
    FileTree.isBelow (getAnsiblePath env.output name).path
      (inventoryFilePath env.output name) = false := by
  rw [Bool.eq_false_iff, ne_eq, FileTree.isBelow_iff]
  rintro ⟨rest, -, heq⟩
  simp [inventoryFilePath, getAnsiblePath, Dir.joinSlash, ansibleInventoryFile] at heq

theorem ansible_below (name file : String) :
    FileTree.isBelow (getAnsiblePath env.output name).path
      ((getAnsiblePath env.output name).path ++ [file]) = true :=
  FileTree.isBelow_append (List.cons_ne_nil _ _)

/-- What the first process of a run finds. The directory of the playbooks holds
the playbooks, the configuration and the variables of this run and nothing else,
whatever earlier runs have left there; the inventory is the one of this run, and no
other file has changed. -/
theorem apply_first_process {w w' : World} {result : Except Exc Unit} {name : String} {first : Ran}
    {rest : List Ran} (hplaybooks : env.playbooks [] = none)
    (hname : specName (w.store.doc r.clusterModel) = .ok name)
    (hdir : w.files (getAnsiblePath env.output name).path = none)
    (h : (apply env r).exec w = (result, w')) (hran : w'.ran = w.ran ++ first :: rest) :
    ∃ file settings generated s,
      inventoryFile env r w.store.doc = .ok file ∧
      AnsibleConfigFileCreator.processAnsibleOptions r.profileTasks = .ok settings ∧
      AnsibleVarsGenerator.generate env.vars r.clusterModel r.configDocs w.store =
        .ok (generated, s) ∧
      first.call.files.sub (getAnsiblePath env.output name).path =
        ansibleTree env.playbooks generated (AnsibleConfigFileCreator.render settings) ∧
      first.call.files (inventoryFilePath env.output name) =
        some [.inventory file] ∧
      (∀ path, FileTree.isBelow (getAnsiblePath env.output name).path path = false →
        path ≠ inventoryFilePath env.output name →
        first.call.files path = w.files path) ∧
      first.call.environ.lookup "ANSIBLE_CONFIG" =
        some ((getAnsiblePath env.output name).fileText "ansible.cfg") := by
  have hquiet := (quiet_prepare env r).rel w
  rcases hrun : (prepare env r).exec w with ⟨e | own, w₁⟩
  · rw [hrun] at hquiet
    rw [apply, Action.exec_bind_error hrun] at h
    cases h
    rw [hquiet] at hran
    simp at hran
  · rw [hrun] at hquiet
    rw [apply, Action.exec_bind_ok hrun] at h
    obtain ⟨file, settings, generated, hown, hfile, hsettings, hgenerate, henviron, hfiles⟩ :=
      prepare_eq_ok hrun
    obtain rfl : name = own := by
      rw [hname] at hown
      simpa using hown
    obtain ⟨ran, hall, -, hfirst⟩ := (startsAsIs_provision env r name).first w₁
    rw [h, hran, hquiet, List.append_cancel_left_eq] at hall
    obtain ⟨hsee, hseeEnviron⟩ := hfirst first (by rw [← hall]; rfl)
    have hinventory := inventory_not_below env name
    have hne : inventoryFilePath env.output name ≠
        (getAnsiblePath env.output name).path := by
      simp [inventoryFilePath, getAnsiblePath, Dir.joinSlash, ansibleInventoryFile]
    have hfar : ∀ path, FileTree.isBelow (getAnsiblePath env.output name).path path = false →
        ∀ file, path ≠ (getAnsiblePath env.output name).path ++ [file] := by
      rintro path hpath file rfl
      rw [ansible_below] at hpath
      cases hpath
    refine ⟨file, settings, generated, w₁.store, hfile, hsettings, hgenerate, ?_, ?_, ?_, ?_⟩
    · rw [hsee, hfiles]
      refine sub_withVars ?_
      rw [FileTree.sub_write, FileTree.sub_write_of_not_below hinventory hne,
        FileTree.sub_copyTree_removeTree hplaybooks hdir]
    · rw [hsee, hfiles, withVars_of_not_below hinventory,
        FileTree.write_ne (hfar _ hinventory "ansible.cfg"), FileTree.write_self]
    · intro path hpath hother
      rw [hsee, hfiles, withVars_of_not_below hpath,
        FileTree.write_ne (hfar _ hpath "ansible.cfg"), FileTree.write_ne hother,
        FileTree.copyTree_of_not_below hpath hplaybooks, FileTree.removeTree_of_not_below hpath]
    · rw [hseeEnviron, henviron, lookup_dictSet_self]

end

/-! ## A cluster with one role -/

namespace RunnerSample

open ApplyEngine.ApplySample (document)

/-- A cluster with a master, on which `firewall` runs. -/
def trees : List Val :=
  [.dict [("kind", .str "lambdastack-cluster"), ("title", .str "Cluster"),
      ("provider", .str "any"), ("name", .str "default"), ("specification", .dict
        [("name", .str "demo"),
          ("admin_user", .dict [("name", .str "operations"), ("path", .str "/keys/demo")]),
          ("components", .dict [("kubernetes_master", .dict [("count", .int 1)])])])],
    document "configuration/feature-mapping" "default"
      [("available_roles", .list [.dict [("name", .str "firewall"), ("enabled", .bool true)]]),
        ("roles_mapping", .dict [("kubernetes_master", .list [.str "firewall"])])],
    document "configuration/shared-config" "default" [("vault_location", .str "/vault")],
    document "configuration/firewall" "default" [("managing", .bool true)]]

/-- A playbook of an older version is in the build directory. -/
def world : World where
  store := ⟨4, fun id => (trees[id]?).getD .null⟩
  files path :=
    if path = ["shared", "demo", "ansible", "docker.yml"] then some [.text "old"] else none
  environ := []
  history := []

/-- Every process succeeds but the first one, the ping. -/
def env : Env where
  execute history call := ⟨if history.length = 1 then 1 else 0, "", call.files⟩
  debug := 0
  output := ⟨"/shared", ["shared"]⟩
  playbooks path := if path = ["common.yml"] then some [.text "- hosts: all"] else none
  vars := AnsibleVarsGenerator.RoleSample.config
  vaultPasswordLocation := ""
  vaultPasswordLocation_eq := rfl
  getProxy _ _ := .ok fun _ => .ok [⟨"master-1", "10.0.0.1"⟩]

def runner : AnsibleRunner := ⟨0, [1, 2, 0, 3], false, 3⟩

end RunnerSample

open RunnerSample in
theorem apply_follows_sample :
    (((apply env runner).exec world).2.ran = world.ran ∧
        ∃ e, ((apply env runner).exec world).1 = .error e) ∨
      ∃ (name : String) (roles : List String) (trace : List (List String × Bool)),
        specName (world.store.doc 0) = .ok name ∧
        AnsibleVarsGenerator.enabledRoleNames ([1, 2, 0, 3].map world.store.doc) = .ok roles ∧
        ((apply env runner).exec world).2.commands = world.commands ++ trace ∧
        Script.Follows (script env runner name roles) trace ((apply env runner).exec world).1 :=
  apply_follows (r := runner) (w := world) (by decide) rfl (Prod.eta _).symm

open RunnerSample in
theorem apply_teardown_last_sample : ∃ before,
    ((apply env runner).exec world).2.commands =
        world.commands ++ (before ++ (plainLine env "demo" "postflight", true) :: []) ∧
      (setupScript env runner "demo" ["firewall"]).map Task.command <+:
        Script.succeeded before := by
  have hstarted : ((apply env runner).exec world).2.commands = world.commands ++
      (((apply env runner).exec world).2.commands.take 11 ++
        (plainLine env "demo" "postflight", true) :: []) := by
    decide +kernel
  exact ⟨_, hstarted, apply_teardown_last (r := runner) (w := world) (by decide) rfl rfl rfl
    (by decide) (Prod.eta _).symm hstarted⟩

open RunnerSample in
/-- The playbook of the older version is gone when the first process is started. -/
theorem apply_first_process_sample : ∃ first rest,
    ((apply env runner).exec world).2.ran = world.ran ++ first :: rest ∧
      world.files ["shared", "demo", "ansible", "docker.yml"] = some [.text "old"] ∧
      first.call.files ["shared", "demo", "ansible", "docker.yml"] = none := by
  have hlength : ((apply env runner).exec world).2.ran.length = 12 := by decide +kernel
  have hpos : 0 < ((apply env runner).exec world).2.ran.length := by
    rw [hlength]
    exact Nat.succ_pos 11
  obtain ⟨first, rest, hran⟩ := List.exists_cons_of_length_pos hpos
  have hplaybooks : env.playbooks [] = none := rfl
  have hname : specName (world.store.doc runner.clusterModel) = .ok "demo" := rfl
  have hdir : world.files (getAnsiblePath env.output "demo").path = none := rfl
  obtain ⟨_, _, _, _, -, -, hgenerate, hfiles, -⟩ :=
    apply_first_process hplaybooks hname hdir (Prod.eta _).symm hran
  cases hgenerate
  exact ⟨first, rest, hran, rfl, congrFun hfiles ["docker.yml"]⟩

end AnsibleRunner

end LambdaStack
