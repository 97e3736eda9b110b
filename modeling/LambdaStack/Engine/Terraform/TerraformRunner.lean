/-
# Running Terraform for a cluster

`TerraformRunner`: Terraform is initialised, the user is logged in to Azure where the
cluster is one, and then the infrastructure is built or destroyed. All processes of a
runner share one environment, `new_env`. The attempts of `TerraformCommand.run` are
those of `TerraformCommand`; which lines the reader thread has moved by then is a
parameter here.
-/

import LambdaStack.Engine.Providers.Azure.APIProxy
import LambdaStack.Engine.Terraform.TerraformCommand
import LambdaStack.Helpers.BuildPaths

namespace LambdaStack

open Lib

/-- `subprocess.Popen(cmd, shell=True)`. -/
def shell (cmd : String) : List String := ["/bin/sh", "-c", cmd]

namespace TerraformCommand

/-- `terraform_verbosity`. -/
def terraformVerbosity : Fin 5 → String := fun
  | 0 => "ERROR"
  | 1 => "WARN"
  | 2 => "INFO"
  | 3 => "DEBUG"
  | 4 => "TRACE"

/-- `init`. -/
def init (workingDirectory : String) : Command where
  workingDirectory := workingDirectory
  command := "init"
  autoApprove := false
  autoRetries := 1
  autoRetries_pos := Nat.one_pos

/-- `destroy`. -/
def destroy (workingDirectory : String) (autoApprove : Bool) : Command where
  workingDirectory := workingDirectory
  command := "destroy"
  autoApprove := autoApprove
  autoRetries := 1
  autoRetries_pos := Nat.one_pos

end TerraformCommand

namespace TerraformRunner

open TerraformCommand

/-- What a runner reads besides the documents. -/
structure Env where
  execute : Execute
  /-- `Config().debug`. -/
  debug : Fin 5
  /-- `do_retry` after the last process. -/
  doRetry : List Entry → Bool
  output : Dir
  lower : String → String
  /-- `json.loads`, with `none` for its exceptions. -/
  loads : List Char → Option Val
  /-- `load_yaml_file`, on the content of a file. -/
  loadYaml : List Chunk → Res Val
  /-- `str`. -/
  str : Val → String

/-- `new_env`. A process can only be started when its values are strings. -/
abbrev NewEnv := Entries

variable (env : Env)

/-! ## Commands of Terraform -/

/-- `env['TF_LOG'] = …`. -/
def withLog (newEnv : NewEnv) : NewEnv :=
  if 0 < env.debug.val then
    dictSet "TF_LOG" (.str (terraformVerbosity env.debug)) newEnv
  else newEnv

/-- The environment of a process. -/
def environOf (newEnv : NewEnv) : Res Environ :=
  newEnv.mapM fun entry => do
    let value ← entry.2.asStr
    .ok (entry.1, value)

/-- The loop of `run`, with the attempts that are left after the next one. The result
is the return code of the last process. -/
def attempt (argv : List String) (environ : Environ) : Nat → Cli Int
  | 0 => do
      let exit ← popen env.execute argv fun _ => environ
      pure exit.returncode
  | left + 1 => do
      let exit ← popen env.execute argv fun _ => environ
      let doRetry ← Action.read fun w => .ok (env.doRetry w.history)
      if doRetry then attempt argv environ left else pure exit.returncode

/-- `TerraformCommand.run`. The result is what it has made of the environment. -/
def runCommand (c : Command) (newEnv : NewEnv) : Cli NewEnv := do
  let newEnv := withLog env newEnv
  let environ ← Action.read fun _ => environOf newEnv
  let returncode ← attempt env (shell c.line) environ (c.autoRetries - 1)
  if returncode ≠ 0 then
    Action.raise (.exception ("Error running: \"" ++ c.line ++ "\""))
  else pure newEnv

/-! ## Commands of Azure -/

/-- `APIProxy.run`. -/
def az (cmd : String) (logCmd : Bool) : Cli Val := do
  let exit ← popen env.execute (shell cmd) World.environ
  let data := Azure.APIProxy.removeEscapes (Azure.APIProxy.removeSpaces exit.stdout.toList)
  if exit.returncode ≠ 0 then
    Action.raise (.exception
      (if logCmd then "Error running: \"" ++ cmd ++ "\"" else "Error running Azure APIProxy cmd"))
  else pure ((env.loads data).getD (.dict []))

/-- The items a `for` loop visits. -/
def iterate : Val → Res (List Val)
  | .list items => .ok items
  | .dict entries => .ok (entries.map fun entry => .str entry.1)
  | .scalar (.str s _) => .ok (s.toList.map fun c => .str (String.ofList [c]))
  | _ => .error .typeError

/-- The first of the subscriptions that has a name. -/
def findSubscription (subscriptionName : Val) : Val → Res (Option Val)
  | .scalar .null => .ok none
  | subscriptions => do
      let items ← iterate subscriptions
      selectFirst items fun x => do
        let name ← x.getItem "name"
        .ok (name.pyEq subscriptionName)

/-- `login_account`. -/
def loginAccount (clusterModel : Val) : Cli Val := do
  let subscriptionName ← Action.read fun _ =>
    attrPath clusterModel ["specification", "cloud", "subscription_name"]
  let allSubscription ← az env "az login" true
  let subscription ← Action.read fun _ => findSubscription subscriptionName allSubscription
  match subscription with
  | none => Action.raise (.exception
      ("User does not have access to subscription: \"" ++ env.str subscriptionName ++ "\""))
  | some subscription => pure subscription

/-- `set_active_subscribtion`. -/
def setActiveSubscribtion (subscriptionId : Val) : Cli Unit := do
  let _ ← az env ("az account set --subscription " ++ env.str subscriptionId) true
  pure ()

/-- The command of `create_sp`. -/
def createSpCommand (appName : String) (subscriptionId : Val) : String :=
  "az ad sp create-for-rbac -n '" ++ appName ++ "' --role='Contributor' " ++
    "--scopes='/subscriptions/" ++ env.str subscriptionId ++ "'"

/-- `create_sp`. -/
def createSp (appName : String) (subscriptionId : Val) : Cli Val := do
  let sp ← az env (createSpCommand env appName subscriptionId) true
  forM (List.range 60) fun _ => sleep 1
  pure sp

/-- `login_sp`. -/
def loginSp (sp : Val) : Cli Val := do
  let name ← Action.read fun _ => sp.getItem "name"
  let password ← Action.read fun _ => sp.getItem "password"
  let tenant ← Action.read fun _ => sp.getItem "tenant"
  az env ("az login --service-principal -u '" ++ env.str name ++ "' -p '" ++ env.str password ++
    "' --tenant '" ++ env.str tenant ++ "'") false

/-! ## The runner -/

/-- The service principal that is created when there is none yet. -/
def newServicePrincipal (clusterModel : Val) (name : String) : Cli Val := do
  let subscription ← loginAccount env clusterModel
  let id ← Action.read fun _ => subscription.getItem "id"
  setActiveSubscribtion env id
  let pre ← Action.read fun _ => do
    let pre ← attrPath clusterModel ["specification", "prefix"]
    pre.asStr
  let resourceGroupName := resourceName env.lower (env.lower pre) (env.lower name) "rg" none
  let sp ← createSp env resourceGroupName id
  let sp ← Action.read fun _ => sp.setItem "subscriptionId" id
  writeFile (spFilePath env.output name) (.yaml [sp])
  pure sp

/-- The service principal of the file, or a new one. -/
def servicePrincipal (clusterModel : Val) (name : String) : Cli Val := do
  let file ← Action.read fun w => .ok (w.files (spFilePath env.output name))
  match file with
  | none => newServicePrincipal env clusterModel name
  | some content => Action.read fun _ => env.loadYaml content

/-- `'subscriptionId' in sp`, for what has been logged in with. -/
def hasSubscriptionId : Val → Res Bool
  | .dict entries => .ok (decide ("subscriptionId" ∈ dictKeys entries))
  | _ => .error .typeError

/-- `subscription[0]`. -/
def firstOf : Val → Res Val
  | .dict _ => .error (.keyError "0")
  | x => x.getIndex 0

/-- The subscription Terraform works on. -/
def activeSubscription (sp subscription : Val) : Cli Val := do
  let has ← Action.read fun _ => hasSubscriptionId sp
  if has then do
    let id ← Action.read fun _ => sp.getItem "subscriptionId"
    setActiveSubscribtion env id
    pure id
  else Action.read fun _ => do
    let first ← firstOf subscription
    first.getItem "id"

/-- `azure_login`, with the environment it leaves. -/
def azureLogin (clusterModel : Val) (newEnv : NewEnv) : Cli NewEnv := do
  let name ← Action.read fun _ => specName clusterModel
  let _ ← Action.read fun _ => do
    let pre ← attrPath clusterModel ["specification", "prefix"]
    pre.asStr
  let useServicePrincipal ← Action.read fun _ =>
    attrPath clusterModel ["specification", "cloud", "use_service_principal"]
  if useServicePrincipal.truthy then do
    let sp ← servicePrincipal env clusterModel name
    let subscription ← loginSp env sp
    let id ← activeSubscription env sp subscription
    let tenant ← Action.read fun _ => sp.getItem "tenant"
    let appId ← Action.read fun _ => sp.getItem "appId"
    let password ← Action.read fun _ => sp.getItem "password"
    pure ([("ARM_SUBSCRIPTION_ID", id), ("ARM_TENANT_ID", tenant), ("ARM_CLIENT_ID", appId),
      ("ARM_CLIENT_SECRET", password)].foldl
        (fun newEnv entry => dictSet entry.1 entry.2 newEnv) newEnv)
  else do
    let subscription ← loginAccount env clusterModel
    let id ← Action.read fun _ => subscription.getItem "id"
    setActiveSubscribtion env id
    pure newEnv

end TerraformRunner

/-- The attributes of a runner, once it is initialised. -/
structure TerraformRunner where
  terraform : String
  newEnv : TerraformRunner.NewEnv

namespace TerraformRunner

open TerraformCommand

variable (env : Env)

/-- The login, for a cluster that is in Azure. -/
def login (clusterModel : Val) (newEnv : NewEnv) : Cli NewEnv := do
  let provider ← Action.read fun _ => clusterModel.getAttr "provider"
  if provider.pyEq (.str "azure") then azureLogin env clusterModel newEnv else pure newEnv

/-- `__init__`. -/
def init (clusterModel : Val) : Cli TerraformRunner := do
  let name ← Action.read fun _ => specName clusterModel
  let terraform := (getTerraformPath env.output name).text
  let environ ← Action.read fun w => .ok w.environ
  let newEnv ← runCommand env (TerraformCommand.init terraform)
    (environ.map fun entry => (entry.1, .str entry.2))
  let newEnv ← login env clusterModel newEnv
  pure ⟨terraform, newEnv⟩

/-- `build`. -/
def build (r : TerraformRunner) : Cli Unit := do
  let _ ← runCommand env (TerraformCommand.apply r.terraform true) r.newEnv
  pure ()

/-- `delete`. -/
def delete (r : TerraformRunner) : Cli Unit := do
  let _ ← runCommand env (TerraformCommand.destroy r.terraform true) r.newEnv
  pure ()

end TerraformRunner

end LambdaStack
