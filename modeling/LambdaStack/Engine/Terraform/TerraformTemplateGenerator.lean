/-
# Generating the Terraform files

`TerraformTemplateGenerator.run`: the `.tf` files of the last run are removed, and
each document but the cloud-init ones is rendered to a file that begins with its
number. The numbers keep the files apart, so what is there afterwards is one file
for each document and no other `.tf` file, whatever was there before.
-/

import LambdaStack.Helpers.BuildPaths
import LambdaStack.Engine.Providers.DocFrame

namespace LambdaStack

open Lib

namespace TerraformTemplateGenerator

/-- What the generator reads besides the documents. -/
structure Env where
  output : Dir
  /-- The template of a document's provider and kind, rendered with the document. -/
  render : Val → Res String

/-- The kind of the documents that are no templates. -/
def cloudInitKind : String := "infrastructure/cloud-init-custom-data"

/-- `'{:03d}'.format(idx)`. -/
def padded (idx : Nat) : String := String.ofList ((Nat.toDigits 10 idx).leftpad 3 '0')

/-- `terraform_file_name`. -/
def terraformFileName (idx : Nat) (doc : Val) : Res String := do
  let isCluster ← kindIs "lambdastack-cluster" doc
  let name ← attrPath doc ["specification", "name"]
  let name ← name.asStr
  .ok ((if isCluster then "000" else padded idx) ++ "_" ++ name ++ ".tf")

/-- A file name of the glob `*.tf`. -/
def isTf (name : String) : Bool := ".tf".toList.isSuffixOf name.toList

section

variable (env : Env)

/-- The name and the text of a document's file. -/
def fileOf (idx : Nat) (doc : Val) : Res (String × String) := do
  let name ← terraformFileName idx doc
  let kind ← doc.getAttr "kind"
  let _ ← kind.asStr
  let content ← env.render doc
  .ok (name, content)

/-- `save_terraform_file`. -/
def saveTerraformFile (dir : Dir) (file : String × String) : Cli Unit :=
  writeFile (dir.path ++ [file.1]) (.text file.2)

/-- The loop over the documents, from a number on. The filter is evaluated as the loop
goes, and the cloud-init documents are not counted. -/
def generateFrom (dir : Dir) (idx : Nat) : List Val → Cli Unit
  | [] => pure ()
  | doc :: rest => do
      let isCloudInit ← Action.read fun _ => kindIs cloudInitKind doc
      if isCloudInit then generateFrom dir idx rest
      else do
        let file ← Action.read fun _ => fileOf env idx doc
        saveTerraformFile dir file
        generateFrom dir (idx + 1) rest

/-- `run`. -/
def run (clusterModel : Val) (infrastructure : List Val) : Cli Unit := do
  let name ← Action.read fun _ => specName clusterModel
  let dir := getTerraformPath env.output name
  deleteFilesMatching dir isTf
  generateFrom env dir 0 (clusterModel :: infrastructure)

/-! ## The names of the files -/

/-- The number a file name begins with. -/
def fileIndex (name : String) : Nat :=
  Nat.ofDigitChars 10 (name.toList.takeWhile (· ≠ '_')) 0

theorem fileIndex_padded (idx : Nat) (rest : String) :
    fileIndex (padded idx ++ "_" ++ rest) = idx := by
  have hdigits : ∀ c ∈ (Nat.toDigits 10 idx).leftpad 3 '0', (c ≠ '_') := by
    intro c hc
    rw [List.leftpad, List.mem_append] at hc
    rcases hc with hc | hc
    · rw [List.eq_of_mem_replicate hc]
      decide
    · rintro rfl
      exact Nat.underscore_not_in_toDigits hc
  have htake : (padded idx ++ "_" ++ rest).toList.takeWhile (· ≠ '_') =
      (Nat.toDigits 10 idx).leftpad 3 '0' := by
    rw [padded, String.toList_append, String.toList_append, String.toList_ofList,
      List.append_assoc, List.takeWhile_append_of_pos (by simpa using hdigits)]
    simp
  rw [fileIndex, htake, List.leftpad, Nat.ofDigitChars_append, Nat.ofDigitChars_replicate_zero,
    Nat.mul_zero, Nat.ofDigitChars_toDigits (by decide) (by decide)]

theorem isTf_append (name : String) : isTf (name ++ ".tf") = true := by
  rw [isTf, String.toList_append, List.isSuffixOf_iff_suffix]
  exact List.suffix_append _ _

theorem isTf_terraformFileName {idx : Nat} {doc : Val} {name : String}
    (h : terraformFileName idx doc = .ok name) : isTf name = true := by
  simp only [terraformFileName, Lib.bind_eq_ok, Except.ok.injEq] at h
  obtain ⟨isCluster, -, own, -, own', -, rfl⟩ := h
  exact isTf_append _

/-- The file of a document has its number. -/
theorem fileIndex_terraformFileName {idx : Nat} {doc : Val} {name : String}
    (h : terraformFileName idx doc = .ok name)
    (hkind : idx ≠ 0 → ¬ doc.IsKind "lambdastack-cluster") : fileIndex name = idx := by
  simp only [terraformFileName, Lib.bind_eq_ok, Except.ok.injEq] at h
  obtain ⟨isCluster, hcluster, own, -, own', -, rfl⟩ := h
  have hnumber : (if isCluster then "000" else padded idx) = padded idx := by
    cases isCluster with
    | false => rfl
    | true =>
        have hidx : idx = 0 := by
          by_contra hidx
          exact hkind hidx (kindIs_eq_ok_true.mp hcluster)
        subst hidx
        rfl
  rw [hnumber]
  rw [String.append_assoc]
  exact fileIndex_padded idx _

/-! ## What a run leaves -/

/-- The documents that are rendered. -/
def templates (docs : List Val) : List Val :=
  docs.filter fun doc => !Holds? (kindIs cloudInitKind doc)

/-- The files after those of a loop were written. -/
def withFiles (dir : Dir) (generated : List (String × String)) (files : Tree) : Tree :=
  generated.foldl (fun files file => files.write (dir.path ++ [file.1]) [.text file.2]) files

variable {env}

/-- A loop that ends writes a file for each document, under its number. -/
theorem generateFrom_eq_ok {dir : Dir} {idx : Nat} {docs : List Val} {w w' : World} {u : Unit}
    (h : (generateFrom env dir idx docs).exec w = (.ok u, w')) :
    ∃ generated, List.Forall₂ (fun doc file => fileOf env doc.2 doc.1 = .ok file)
        ((templates docs).zipIdx idx) generated ∧
      w' = { w with files := withFiles dir generated w.files } := by
  induction docs generalizing idx w with
  | nil =>
      cases h
      exact ⟨[], .nil, rfl⟩
  | cons doc rest ih =>
      rw [generateFrom, Action.bind_eq_ok] at h
      obtain ⟨isCloudInit, w₁, hread, h⟩ := h
      obtain ⟨hkind, rfl⟩ := Prod.ext_iff.mp hread
      change kindIs cloudInitKind doc = .ok isCloudInit at hkind
      cases isCloudInit with
      | true =>
          obtain ⟨generated, hfiles, hw'⟩ := ih h
          refine ⟨generated, ?_, hw'⟩
          rwa [templates, List.filter_cons, hkind]
      | false =>
          simp only [Bool.false_eq_true, if_false, Action.bind_eq_ok] at h
          obtain ⟨file, w₂, hread, _, w₃, hsave, h⟩ := h
          obtain ⟨hfile, rfl⟩ := Prod.ext_iff.mp hread
          cases hsave
          obtain ⟨generated, hfiles, hw'⟩ := ih h
          refine ⟨file :: generated, ?_, hw'⟩
          rw [templates, List.filter_cons, hkind]
          exact .cons hfile hfiles

/-- The files of a glob, which a run may write. -/
def isTfIn (dir : Dir) : FilePath → Bool := FileTree.isChild dir.path isTf

/-- However the loop ends, it has only written files of the glob. -/
theorem quiet_generateFrom (dir : Dir) (idx : Nat) (docs : List Val) :
    Quiet (World.around (isTfIn dir)) (generateFrom env dir idx docs) := by
  induction docs generalizing idx with
  | nil => exact relates_pure ()
  | cons doc rest ih =>
      apply (relates_read _).bind
      intro isCloudInit
      apply (ih idx).ite
      refine relates_read_bind fun _ file hfile => ?_
      simp only [fileOf, Lib.bind_eq_ok] at hfile
      obtain ⟨name, hname, kind, -, _, -, content, -, h⟩ := hfile
      cases h
      have htf : isTfIn dir (dir.path ++ [name]) = true :=
        FileTree.isChild_append (isTf_terraformFileName hname)
      exact (quiet_around_writeFile htf _).bind fun _ => ih (idx + 1)

/-- However a run ends, it has only changed `.tf` files of its directory. -/
theorem quiet_run (env : Env) {clusterModel : Val} {name : String}
    (hname : specName clusterModel = .ok name) (infrastructure : List Val) :
    Quiet (World.around (isTfIn (getTerraformPath env.output name)))
      (run env clusterModel infrastructure) := by
  refine relates_read_bind fun _ own hown => ?_
  rw [hname] at hown
  cases hown
  have hdelete := quiet_around_deleteFilesMatching (getTerraformPath env.output name) isTf
  exact hdelete.bind fun _ => quiet_generateFrom _ _ _

/-- A file that was written is there with the last text, and no other file changed. -/
theorem withFiles_apply {dir : Dir} {generated : List (String × String)} {files : Tree}
    (hnodup : (dictKeys generated).Nodup) (name : String) :
    withFiles dir generated files (dir.path ++ [name]) =
      ((generated.lookup name).map fun text => [.text text]).or (files (dir.path ++ [name])) := by
  induction generated generalizing files with
  | nil => rfl
  | cons file rest ih =>
      rw [dictKeys_cons, List.nodup_cons] at hnodup
      rw [withFiles, List.foldl_cons, ← withFiles, ih hnodup.2, List.lookup_cons]
      cases hkey : name == file.1 with
      | true =>
          obtain rfl := beq_iff_eq.mp hkey
          rw [lookup_eq_none_iff_not_mem_dictKeys.mpr hnodup.1]
          exact FileTree.write_self
      | false =>
          have hne : dir.path ++ [name] ≠ dir.path ++ [file.1] := by
            simpa using hkey
          cases rest.lookup name with
          | some text => rfl
          | none => exact FileTree.write_ne hne

/-- The numbers of the files are those of the documents. -/
theorem map_fileIndex {docs : List (Val × Nat)} {generated : List (String × String)}
    (hkind : ∀ doc ∈ docs, doc.2 ≠ 0 → ¬ doc.1.IsKind "lambdastack-cluster")
    (h : List.Forall₂ (fun doc file => fileOf env doc.2 doc.1 = .ok file) docs generated) :
    (generated.map Prod.fst).map fileIndex = docs.map Prod.snd := by
  induction h with
  | nil => rfl
  | cons hfile hrest ih =>
      rw [List.forall_mem_cons] at hkind
      simp only [fileOf, Lib.bind_eq_ok, Except.ok.injEq] at hfile
      obtain ⟨name, hname, _, -, _, -, content, -, rfl⟩ := hfile
      rw [List.map_cons, List.map_cons, List.map_cons, ih hkind.2,
        fileIndex_terraformFileName hname hkind.1]

/-- The cluster model is the first document. -/
theorem kind_of_zipIdx {clusterModel : Val} {infrastructure : List Val}
    (hmodel : clusterModel.IsKind "lambdastack-cluster")
    (hinfrastructure : ∀ doc ∈ infrastructure, ¬ doc.IsKind "lambdastack-cluster") :
    ∀ doc ∈ (templates (clusterModel :: infrastructure)).zipIdx, doc.2 ≠ 0 →
      ¬ doc.1.IsKind "lambdastack-cluster" := by
  have hfirst : Holds? (kindIs cloudInitKind clusterModel) = false := by
    rw [Bool.eq_false_iff, ne_eq, holds?_kindIs, Val.IsKind, hmodel]
    simp [cloudInitKind]
  have htemplates : templates (clusterModel :: infrastructure) =
      clusterModel :: templates infrastructure := by
    rw [templates, List.filter_cons, hfirst]
    rfl
  rintro ⟨doc, idx⟩ hmem hidx
  rw [htemplates, List.zipIdx_cons, List.mem_cons] at hmem
  rcases hmem with heq | hmem
  · cases heq
    exact absurd rfl hidx
  · have hdoc := List.fst_mem_of_mem_zipIdx hmem
    exact hinfrastructure doc (List.mem_of_mem_filter hdoc)

/-- After a run there is one `.tf` file for each rendered document, with its text,
and no other one, whatever was there before. -/
theorem run_leaves_generated {clusterModel : Val} {infrastructure : List Val} {w w' : World}
    {u : Unit}
    (hmodel : clusterModel.IsKind "lambdastack-cluster")
    (hinfrastructure : ∀ doc ∈ infrastructure, ¬ doc.IsKind "lambdastack-cluster")
    (h : (run env clusterModel infrastructure).exec w = (.ok u, w')) :
    ∃ (name : String) (generated : List (String × String)),
      specName clusterModel = .ok name ∧
      List.Forall₂ (fun doc file => fileOf env doc.2 doc.1 = .ok file)
        (templates (clusterModel :: infrastructure)).zipIdx generated ∧
      (generated.map Prod.fst).Nodup ∧
      (∀ file, isTf file = true → w'.files ((getTerraformPath env.output name).path ++ [file]) =
        (generated.lookup file).map fun text => [.text text]) ∧
      ∀ path, isTfIn (getTerraformPath env.output name) path = false →
        w'.files path = w.files path := by
  have hrun := h
  rw [run, Action.bind_eq_ok] at h
  obtain ⟨name, w₁, hread, h⟩ := h
  obtain ⟨hname, rfl⟩ := Prod.ext_iff.mp hread
  change specName clusterModel = .ok name at hname
  rw [Action.bind_eq_ok] at h
  obtain ⟨_, w₂, hdelete, h⟩ := h
  cases hdelete
  obtain ⟨generated, hfiles, hw'⟩ := generateFrom_eq_ok h
  have hnumbers := map_fileIndex (kind_of_zipIdx hmodel hinfrastructure) hfiles
  have hnodup : (generated.map Prod.fst).Nodup := by
    apply List.Nodup.of_map fileIndex
    rw [hnumbers, List.zipIdx_map_snd]
    exact List.nodup_range'
  refine ⟨name, generated, hname, hfiles, hnodup, fun file htf => ?_, fun path hpath => ?_⟩
  · rw [hw']
    change withFiles _ _ _ _ = _
    rw [withFiles_apply hnodup]
    cases generated.lookup file with
    | some text => rfl
    | none => exact if_pos (FileTree.isChild_append htf)
  · have hquiet := (quiet_run env hname infrastructure).rel w
    rw [hrun] at hquiet
    exact (World.around_eq_iff.mp hquiet).2.2 path hpath

end

/-! ## A template that is left from the last run -/

namespace GeneratorSample

/-- A document whose specification has a name. -/
def document (kind name : String) : Val :=
  .dict [("kind", .str kind), ("specification", .dict [("name", .str name)])]

def env : Env where
  output := ⟨"/shared", ["shared"]⟩
  render doc := (doc.getAttr "kind").bind Val.asStr

def clusterModel : Val := document "lambdastack-cluster" "demo"

def vpc : Val := document "infrastructure/vpc" "demo-vpc"

/-- The last run has made a subnet. -/
def world : World where
  store := ⟨0, fun _ => .null⟩
  files path :=
    if path = ["shared", "demo", "terraform", "002_demo-subnet.tf"] then some [.text "subnet"]
    else if path = ["shared", "demo", "terraform", "terraform.tfstate"] then some [.text "{}"]
    else none
  environ := []
  history := []

end GeneratorSample

open GeneratorSample in
theorem run_leaves_generated_sample : ∃ w',
    (run env clusterModel [vpc]).exec world = (.ok (), w') ∧
      world.files ["shared", "demo", "terraform", "002_demo-subnet.tf"] = some [.text "subnet"] ∧
      w'.files ["shared", "demo", "terraform", "002_demo-subnet.tf"] = none ∧
      w'.files ["shared", "demo", "terraform", "001_demo-vpc.tf"] =
        some [.text "infrastructure/vpc"] ∧
      w'.files ["shared", "demo", "terraform", "terraform.tfstate"] = some [.text "{}"] := by
  obtain ⟨w', hrun⟩ : ∃ w', (run env clusterModel [vpc]).exec world = (.ok (), w') := ⟨_, rfl⟩
  have hvpc : ∀ doc ∈ [vpc], ¬ doc.IsKind "lambdastack-cluster" := by
    simp [vpc, GeneratorSample.document, Val.IsKind, Val.attr?]
  have hmodel : clusterModel.IsKind "lambdastack-cluster" := rfl
  obtain ⟨name, generated, hname, hfiles, -, htf, hother⟩ :=
    run_leaves_generated hmodel hvpc hrun
  cases hname
  obtain ⟨⟨⟩⟩ | ⟨hfirst, ⟨⟩ | ⟨hsecond, ⟨⟩⟩⟩ := hfiles
  cases hfirst
  cases hsecond
  refine ⟨w', hrun, rfl, ?_, ?_, ?_⟩
  · exact htf "002_demo-subnet.tf" rfl
  · exact htf "001_demo-vpc.tf" rfl
  · exact hother _ rfl

end TerraformTemplateGenerator

end LambdaStack
