/-
# Copying the cloud-init file

`TerraformFileCopier.run`: the `cloud-config.yml` of the last run is removed, and the
file of each cloud-init document that is enabled is copied, where the package has it.
Paths are followed without symbolic links.
-/

import LambdaStack.Engine.Terraform.TerraformTemplateGenerator

namespace LambdaStack

open Lib

namespace TerraformFileCopier

/-- What the copier reads besides the documents. -/
structure Env where
  output : Dir
  /-- `TERRAFORM_BASE_PATH`. -/
  base : FilePath

/-- The name of the file a run removes. -/
def cloudConfigName : String := "cloud-config.yml"

variable (env : Env)

/-- `src_path` and `file_name`. -/
def sourceOf (doc : Val) : Res (FilePath × String) := do
  let fileName ← attrPath doc ["specification", "file_name"]
  let provider ← doc.getAttr "provider"
  let provider ← provider.asStr
  let kind ← doc.getAttr "kind"
  let kind ← kind.asStr
  let osDistribution ← attrPath doc ["specification", "os_distribution"]
  let osDistribution ← osDistribution.asStr
  let fileName ← fileName.asStr
  .ok ([provider, kind, osDistribution, fileName].foldl FileTree.resolve env.base, fileName)

/-- `copy_file`, where the source is a file. -/
def copyIfFile (src dst : FilePath) : Cli Unit := fun w =>
  match w.files src with
  | none => (.ok (), w)
  | some content =>
      -- `shutil.SameFileError`
      if src = dst then (.error (.exception ("/".intercalate src ++ " are the same file")), w)
      else (.ok (), { w with files := w.files.write dst content })

/-- The body of the loop. -/
def copyDoc (dir : Dir) (doc : Val) : Cli Unit := do
  let isCloudInit ← Action.read fun _ => kindIs TerraformTemplateGenerator.cloudInitKind doc
  if isCloudInit then do
    let enabled ← Action.read fun _ => attrPath doc ["specification", "enabled"]
    if enabled.truthy then do
      let source ← Action.read fun _ => sourceOf env doc
      copyIfFile source.1 (FileTree.resolve dir.path source.2)
    else pure ()
  else pure ()

/-- `run`. -/
def run (clusterModel : Val) (infrastructure : List Val) : Cli Unit := do
  let name ← Action.read fun _ => specName clusterModel
  let dir := getTerraformPath env.output name
  deleteFilesMatching dir (· == cloudConfigName)
  forM (clusterModel :: infrastructure) (copyDoc env dir)

/-! ## What a run changes -/

/-- The cloud-init documents name the file a run removes. -/
def NamesCloudConfig (docs : List Val) : Prop :=
  ∀ doc ∈ docs, doc.IsKind TerraformTemplateGenerator.cloudInitKind →
    attrPath doc ["specification", "file_name"] = .ok (.str cloudConfigName)

theorem resolve_cloudConfigName (dir : FilePath) :
    FileTree.resolve dir cloudConfigName = dir ++ [cloudConfigName] := rfl

/-- The file of a directory that a run removes and copies. -/
def isCloudConfigIn (dir : Dir) : FilePath → Bool :=
  FileTree.isChild dir.path (· == cloudConfigName)

variable {env}

theorem quiet_copyIfFile {p : FilePath → Bool} {dst : FilePath} (hdst : p dst = true)
    (src : FilePath) : Quiet (World.around p) (copyIfFile src dst) := by
  refine quiet_of_eq fun w => ?_
  change World.around p (copyIfFile src dst w).2 = _
  unfold copyIfFile
  split
  · rfl
  · split
    · rfl
    · exact World.around_eq_iff.mpr ⟨rfl, rfl,
        FileTree.removeWhere_eq_iff.mp (FileTree.removeWhere_write hdst)⟩

theorem quiet_copyDoc {dir : Dir} {doc : Val}
    (hname : doc.IsKind TerraformTemplateGenerator.cloudInitKind →
      attrPath doc ["specification", "file_name"] = .ok (.str cloudConfigName)) :
    Quiet (World.around (isCloudConfigIn dir)) (copyDoc env dir doc) := by
  refine relates_read_bind fun _ isCloudInit hkind => ?_
  cases isCloudInit with
  | false => exact relates_pure ()
  | true =>
      refine (relates_read _).bind fun enabled => Relates.ite ?_ (relates_pure ())
      refine relates_read_bind fun _ source hsource => ?_
      rw [sourceOf, hname (kindIs_eq_ok_true.mp hkind)] at hsource
      simp only [ok_bind, Lib.bind_eq_ok, Val.asStr_eq_ok] at hsource
      obtain ⟨_, -, _, -, _, -, _, -, _, -, _, -, own, hown, h⟩ := hsource
      cases hown
      cases h
      have hdst : isCloudConfigIn dir (FileTree.resolve dir.path cloudConfigName) = true := by
        rw [resolve_cloudConfigName]
        exact FileTree.isChild_append (beq_self_eq_true cloudConfigName)
      exact quiet_copyIfFile hdst _

/-- However a run ends, it has only changed the file it removes first. -/
theorem quiet_run (env : Env) {clusterModel : Val} {infrastructure : List Val} {name : String}
    (hname : specName clusterModel = .ok name)
    (hfiles : NamesCloudConfig (clusterModel :: infrastructure)) :
    Quiet (World.around (isCloudConfigIn (getTerraformPath env.output name)))
      (run env clusterModel infrastructure) := by
  refine relates_read_bind fun _ own hown => ?_
  rw [hname] at hown
  cases hown
  have hdelete := quiet_around_deleteFilesMatching (getTerraformPath env.output name)
    (· == cloudConfigName)
  exact hdelete.bind fun _ => relates_forM fun doc hmem => quiet_copyDoc (hfiles doc hmem)

end TerraformFileCopier

end LambdaStack
