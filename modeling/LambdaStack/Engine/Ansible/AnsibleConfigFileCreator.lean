/-
# The configuration file of Ansible

`AnsibleConfigFileCreator`: the settings are collected by section, each once, and
rendered by the template of `ansible.cfg`.
-/

import LambdaStack.Helpers.Processes

namespace LambdaStack

open Lib

namespace AnsibleConfigFileCreator

/-- The value of a setting. -/
inductive Setting
  | single (value : String)
  | list (values : List String)
  deriving DecidableEq

/-- The settings of each section, in the order of their first assignment. -/
abbrev Settings := List (String × List (String × Setting))

/-- `add_setting`. -/
def addSetting (settings : Settings) (sectionName key : String) (value : Setting) : Res Settings :=
  let own := (settings.lookup sectionName).getD []
  match own.lookup key with
  | some _ => .error .typeError
  | none => .ok (dictSet sectionName (dictSet key value own) settings)

/-- `process_ansible_options`. -/
def processAnsibleOptions (profileTasks : Bool) : Res Settings := do
  let settings ← if profileTasks then
      addSetting [] "defaults" "callback_whitelist" (.list ["profile_tasks"])
    else .ok []
  let settings ← addSetting settings "defaults" "interpreter_python" (.single "auto_legacy_silent")
  addSetting settings "defaults" "allow_world_readable_tmpfiles" (.single "true")

/-- `value|join(', ') if (value is sequence and value is not string) else value`. -/
def Setting.text : Setting → String
  | .single value => value
  | .list values => ", ".intercalate values

/-- A section of the template. -/
def renderSection (settings : String × List (String × Setting)) : String :=
  "[" ++ settings.1 ++ "]\n" ++
    String.join (settings.2.map fun (key, value) => key ++ " = " ++ value.text ++ "\n")

/-- The comment the template begins with. -/
def header : String :=
  "#\n# Ansible configuration file - automated so do not modify\n#\n\n" ++
  "# Ansible will read ANSIBLE_CONFIG, ansible.cfg in the current working directory,\n" ++
  "# ansible.cfg in the home directory, or /etc/ansible/ansible.cfg, " ++
  "whichever it finds first.\n\n" ++
  "# For a full list of available options, run ansible-config list or see the\n" ++
  "# documentation: https://docs.ansible.com/ansible/latest/reference_appendices/config.html.\n\n"

/-- The template of `ansible.cfg`: an empty line between two sections. -/
def render (settings : Settings) : String := header ++ "\n".intercalate (settings.map renderSection)

/-- `create`: the file is written, and Ansible is told where it is. -/
def create (profileTasks : Bool) (path : FilePath) (text : String) : Cli Unit := do
  let settings ← Action.read fun _ => processAnsibleOptions profileTasks
  writeFile path (.text (render settings))
  setEnviron "ANSIBLE_CONFIG" text

end AnsibleConfigFileCreator

end LambdaStack
