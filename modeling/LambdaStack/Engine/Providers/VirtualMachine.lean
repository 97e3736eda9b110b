/-
# Machine definitions and their images

What the AWS and the Azure infrastructure builder share: the document of a kind
from the user or from the schema files, and the machine definition of a
component with the operating system image it is applied with. The two
`get_virtual_machine` differ in the field that holds the image.
-/

import LambdaStack.Engine.Providers.DocStore
import LambdaStack.Helpers.ConfigMerger

namespace LambdaStack

open Lib BuildM

/-- The providers that have an infrastructure builder with images. -/
inductive CloudProvider
  | aws
  | azure
  deriving DecidableEq, Repr

namespace CloudProvider

/-- The name of the provider's schema directory. -/
def schemaName : CloudProvider → String
  | .aws => "aws"
  | .azure => "azure"

/-- The field of a machine definition's specification that holds its image. -/
def imageField : CloudProvider → String
  | .aws => "os_full_name"
  | .azure => "storage_image_reference"

end CloudProvider

/-- What a builder reads besides its documents. -/
structure BuilderEnv where
  schema : SchemaDir
  /-- `VERSION`. -/
  version : String
  /-- `str.lower`. -/
  lower : String → String
  /-- The text of a file, if the path is a file. -/
  readFile : String → Option String

/-- The documents a builder works on. The cluster model is none of the documents
the builder assigns to, so its tree is kept. -/
structure BuilderDocs where
  clusterModel : Val
  docs : List DocId
  manifestDocs : List Val

section

variable (provider : CloudProvider) (env : BuilderEnv)

/-- `get_config_or_default`. -/
def getConfigOrDefault (docs : List DocId) (kind : String) : BuildM DocId := do
  let config ← reads fun doc => selectFirst docs (kindIs kind ∘ doc)
  match config with
  | some id => pure id
  | none => do
      let config ← lift (env.schema.loadSchemaObj provider.schemaName kind)
      let config ← lift (config.setItem "version" (.str env.version))
      newDoc config

/-- The document of a kind with fields of its specification assigned, which is
what most getters of a builder return. -/
def configWith (docs : List DocId) (kind : String) (fields : List (String × Val)) :
    BuildM DocId := do
  let config ← getConfigOrDefault provider env docs kind
  setSpecAttrs config fields
  pure config

/-- The machine definition a component selects: the user's of that name or the
one merged with the defaults. -/
def selectMachine (b : BuilderDocs) (machineSelector : Val) : BuildM DocId := do
  let model ← reads fun doc =>
    selectFirst b.docs (kindAndNameAre "infrastructure/virtual-machine" machineSelector ∘ doc)
  match model with
  | some id => pure id
  | none => do
      let clusterProvider ← lift (b.clusterModel.getAttr "provider")
      let clusterProvider ← lift clusterProvider.asStr
      let merged ← reads fun doc => mergeWithDefaults env.schema env.version clusterProvider
        "infrastructure/virtual-machine" machineSelector (b.docs.map doc)
      newDoc merged

/-- Apply the image the cluster model defines cluster wide, if it does. -/
def applyClusterImage (b : BuilderDocs) (model : DocId) : BuildM Unit := do
  let cloudOsImageDefaults ← getConfigOrDefault provider env b.docs
    "infrastructure/cloud-os-image-defaults"
  let cloudImage ← lift (attrPath b.clusterModel ["specification", "cloud", "default_os_image"])
  if cloudImage.pyEq (.str "default") then pure ()
  else do
    let cloudImage ← lift cloudImage.asStr
    let images ← spec cloudOsImageDefaults
    match images.attr? cloudImage with
    | none => do
        let clusterProvider ← lift (b.clusterModel.getAttr "provider")
        let clusterProvider ← lift clusterProvider.asStr
        lift (.error (.notImplementedError ("default_os_image \"" ++ cloudImage ++
          "\" is unsupported for \"" ++ clusterProvider ++ "\" provider.")))
    | some image => setSpecAttr model provider.imageField image

/-- `x.specification` and its image field. -/
def imageOf (x : Val) : Res Val := attrPath x ["specification", provider.imageField]

/-- The manifest's machine definition of a name. -/
def manifestVmConfig (manifestDocs : List Val) (machineSelector : Val) : Res (Option Val) :=
  selectFirst manifestDocs (nameAndKindAre "infrastructure/virtual-machine" machineSelector)

/-- The first machine definition of the manifest. -/
def manifestFirstvmConfig (manifestDocs : List Val) : Res (Option Val) :=
  selectFirst manifestDocs (kindIs "infrastructure/virtual-machine")

/-- `config is not None and current == config.specification.image`. -/
def isImageOf (current : Val) : Option Val → Res Bool
  | none => .ok false
  | some config => do
      let image ← imageOf provider config
      .ok (current.pyEq image)

/-- The image to preserve when a configuration is applied again: none when the
current image is one of the two the manifest is asked for. -/
def preservedImage (manifestDocs : List Val) (machineSelector current : Val) :
    Res (Option Val) := do
  let vmConfig ← manifestVmConfig manifestDocs machineSelector
  let firstvmConfig ← manifestFirstvmConfig manifestDocs
  let sameVm ← isImageOf provider current vmConfig
  if sameVm then .ok none
  else do
    let firstImage ← imageOf provider (firstvmConfig.getD .null)
    if current.pyEq firstImage then .ok none
    else
      match vmConfig with
      | some config => do
          let image ← imageOf provider config
          .ok (some image)
      | none => .ok (some firstImage)

/-- Assign the image to preserve, if there is one. -/
def setImage (model : DocId) : Option Val → BuildM Unit
  | none => pure ()
  | some image => setSpecAttr model provider.imageField image

/-- `get_virtual_machine`. -/
def getVirtualMachine (b : BuilderDocs) (componentValue : Val) : BuildM DocId := do
  let machineSelector ← lift (componentValue.getAttr "machine")
  let model ← selectMachine env b machineSelector
  applyClusterImage provider env b model
  if b.manifestDocs.isEmpty then pure model
  else do
    let current ← specAttr model provider.imageField
    let preserved ← lift (preservedImage provider b.manifestDocs machineSelector current)
    setImage provider model preserved
    pure model

/-! ## The image the input asks for -/

/-- The tree of the document `get_config_or_default` returns. -/
def configTree (docs : List Val) (kind : String) : Res Val := do
  let config ← selectFirst docs (kindIs kind)
  match config with
  | some config => .ok config
  | none => do
      let config ← env.schema.loadSchemaObj provider.schemaName kind
      config.setItem "version" (.str env.version)

/-- The tree of the machine definition a component selects. -/
def machineTree (clusterModel : Val) (docs : List Val) (machineSelector : Val) : Res Val := do
  let model ← selectFirst docs
    (kindAndNameAre "infrastructure/virtual-machine" machineSelector)
  match model with
  | some model => .ok model
  | none => do
      let clusterProvider ← clusterModel.getAttr "provider"
      let clusterProvider ← clusterProvider.asStr
      mergeWithDefaults env.schema env.version clusterProvider
        "infrastructure/virtual-machine" machineSelector docs

/-- The image the input documents ask for: the cluster wide one, or the one of
the machine definition when the cluster model says `default`. -/
def requestedImage (clusterModel : Val) (docs : List Val) (machineSelector : Val) : Res Val := do
  let cloudImage ← attrPath clusterModel ["specification", "cloud", "default_os_image"]
  if cloudImage.pyEq (.str "default") then do
    let machine ← machineTree env clusterModel docs machineSelector
    imageOf provider machine
  else do
    let cloudImage ← cloudImage.asStr
    let defaults ← configTree provider env docs "infrastructure/cloud-os-image-defaults"
    let images ← defaults.getAttr "specification"
    images.getAttr cloudImage

/-- The image a re-apply has to keep: that of the manifest's machine definition
of the name when there is one, and that of its first machine otherwise. -/
def expectedImage (manifestDocs : List Val) (machineSelector : Val) : Res Val := do
  let vmConfig ← manifestVmConfig manifestDocs machineSelector
  match vmConfig with
  | some config => imageOf provider config
  | none => do
      let firstvmConfig ← manifestFirstvmConfig manifestDocs
      imageOf provider (firstvmConfig.getD .null)

/-- The machine definition `model` has the image a re-apply has to keep. -/
def ImagePreserved (manifestDocs : List Val) (machineSelector model : Val) : Prop :=
  ∃ image expected, imageOf provider model = .ok image ∧
    expectedImage provider manifestDocs machineSelector = .ok expected ∧
    image.pyEq expected = true

/-- The manifest knows the machine definition with another image than the one
requested, and the requested image is that of its first machine. -/
def RequestsFirstVmImage (manifestDocs : List Val) (machineSelector requested : Val) : Prop :=
  ∃ config own first, manifestVmConfig manifestDocs machineSelector = .ok (some config) ∧
    imageOf provider config = .ok own ∧ requested.pyEq own = false ∧
    ((manifestFirstvmConfig manifestDocs).bind fun config =>
      imageOf provider (config.getD .null)) = .ok first ∧ requested.pyEq first = true

end

section

variable {provider : CloudProvider} {env : BuilderEnv}

theorem imageOf_eq_ok {x image : Val} :
    imageOf provider x = .ok image ↔ x.specAttr? provider.imageField = some image := by
  simp only [imageOf, attrPath, List.foldlM_cons, List.foldlM_nil, Lib.bind_eq_ok,
    Val.getAttr_eq_ok, Val.specAttr?, Option.bind_eq_some_iff, Lib.pure_eq_ok, exists_eq_right]

/-- `get_config_or_default` returns the first document of the kind, or a freshly
loaded one when there is none. -/
theorem getConfigOrDefault_eq_ok {docs : List DocId} {kind : String} {s s' : Store} {id : DocId}
    (h : getConfigOrDefault provider env docs kind s = .ok (id, s')) :
    configTree provider env (docs.map s.doc) kind = .ok (s'.doc id) ∧
      ((id ∈ docs ∧ s' = s) ∨ id = s.next ∧ s' = s.alloc (s'.doc id)) := by
  rw [getConfigOrDefault, BuildM.bind_eq_ok] at h
  obtain ⟨config, s₁, hread, h⟩ := h
  obtain ⟨hconfig, rfl⟩ := reads_eq_ok.mp hread
  rw [configTree, selectFirst_map, hconfig]
  cases config with
  | some found =>
      obtain ⟨rfl, rfl⟩ := BuildM.pure_eq_ok.mp h
      exact ⟨rfl, Or.inl ⟨List.mem_of_find?_eq_some (selectFirst_eq_ok hconfig).symm, rfl⟩⟩
  | none =>
      simp only [BuildM.bind_eq_ok, lift_eq_ok, newDoc_eq_ok] at h
      obtain ⟨loaded, _, ⟨hloaded, rfl⟩, config, _, ⟨hset, rfl⟩, rfl, rfl⟩ := h
      simp [Except.map, hloaded, hset]

/-- `selectMachine` returns a document of the user as it is, or a new one. -/
theorem selectMachine_eq_ok {b : BuilderDocs} {machineSelector : Val} {s s' : Store} {id : DocId}
    (h : selectMachine env b machineSelector s = .ok (id, s')) :
    machineTree env b.clusterModel (b.docs.map s.doc) machineSelector = .ok (s'.doc id) ∧
      ((id ∈ b.docs ∧ s' = s) ∨ id = s.next ∧ s' = s.alloc (s'.doc id)) := by
  rw [selectMachine, BuildM.bind_eq_ok] at h
  obtain ⟨model, s₁, hread, h⟩ := h
  obtain ⟨hmodel, rfl⟩ := reads_eq_ok.mp hread
  rw [machineTree, selectFirst_map, hmodel]
  cases model with
  | some found =>
      obtain ⟨rfl, rfl⟩ := BuildM.pure_eq_ok.mp h
      exact ⟨rfl, Or.inl ⟨List.mem_of_find?_eq_some (selectFirst_eq_ok hmodel).symm, rfl⟩⟩
  | none =>
      simp only [BuildM.bind_eq_ok, lift_eq_ok, reads_eq_ok, newDoc_eq_ok] at h
      obtain ⟨p, _, ⟨hp, rfl⟩, p', _, ⟨hp', rfl⟩, merged, _, ⟨hmerged, rfl⟩, rfl, rfl⟩ := h
      simp [Except.map, hp, hp', hmerged]

/-- The cluster wide image goes to the machine definition and nowhere else. -/
theorem applyClusterImage_eq_ok {b : BuilderDocs} {model : DocId} {s s' : Store} {u : Unit}
    (hmodel : model < s.next)
    (h : applyClusterImage provider env b model s = .ok (u, s')) :
    s.Frame {model} s' ∧ ∃ cloudImage,
      attrPath b.clusterModel ["specification", "cloud", "default_os_image"] = .ok cloudImage ∧
      if cloudImage.pyEq (.str "default") then s'.doc model = s.doc model
      else ∃ name defaults images image, cloudImage.asStr = .ok name ∧
        configTree provider env (b.docs.map s.doc) "infrastructure/cloud-os-image-defaults" =
          .ok defaults ∧ defaults.getAttr "specification" = .ok images ∧
        images.getAttr name = .ok image ∧
        (s.doc model).withSpecAttr provider.imageField image = .ok (s'.doc model) := by
  rw [applyClusterImage, BuildM.bind_eq_ok] at h
  obtain ⟨defaults, s₁, hdefaults, h⟩ := h
  obtain ⟨htree, hstore⟩ := getConfigOrDefault_eq_ok hdefaults
  have hframe : s.Frame {model} s₁ := by
    rcases hstore with ⟨-, rfl⟩ | ⟨-, hs⟩
    · exact .refl _ _
    · exact hs ▸ s.frame_alloc _ _
  have hsame : s₁.doc model = s.doc model := by
    rcases hstore with ⟨-, rfl⟩ | ⟨-, hs⟩
    · rfl
    · exact hs ▸ s.alloc_doc_of_lt hmodel _
  rw [BuildM.bind_eq_ok] at h
  obtain ⟨cloudImage, _, hlift, h⟩ := h
  obtain ⟨hcloud, rfl⟩ := lift_eq_ok.mp hlift
  split at h
  · next hdefault =>
      obtain ⟨-, rfl⟩ := BuildM.pure_eq_ok.mp h
      exact ⟨hframe, cloudImage, hcloud, by rw [if_pos hdefault]; exact hsame⟩
  · next hdefault =>
      simp only [BuildM.bind_eq_ok, lift_eq_ok] at h
      obtain ⟨name, _, ⟨hname, rfl⟩, images, _, hspec, h⟩ := h
      obtain ⟨himages, rfl⟩ := reads_eq_ok.mp hspec
      cases himage : images.attr? name with
      | none => simp [himage, BuildM.bind_eq_ok, lift_eq_ok] at h
      | some image =>
          rw [himage] at h
          obtain ⟨doc, hdoc, rfl⟩ := setSpecAttr_eq_ok.mp h
          refine ⟨hframe.trans (s₁.frame_write (Set.mem_singleton _) doc), cloudImage, hcloud, ?_⟩
          rw [if_neg hdefault]
          refine ⟨name, _, images, image, hname, htree, himages,
            Val.getAttr_eq_ok.mpr himage, ?_⟩
          rw [Store.write_doc_self, ← hsame, hdoc]

/-- The state in which `get_virtual_machine` consults the manifest: the selected
machine definition has the requested image, and nothing else has changed. -/
theorem getVirtualMachine_eq_ok {b : BuilderDocs} {componentValue : Val} {s s' : Store}
    {model : DocId} (hdocs : ∀ id ∈ b.docs, id < s.next)
    (h : getVirtualMachine provider env b componentValue s = .ok (model, s')) :
    ∃ machineSelector s₁, componentValue.getAttr "machine" = .ok machineSelector ∧
      s.Frame {model} s₁ ∧ model < s₁.next ∧ (model ∈ b.docs ∨ s.next ≤ model) ∧
      (∀ image, (s₁.doc model).specAttr? provider.imageField = some image →
        requestedImage provider env b.clusterModel (b.docs.map s.doc) machineSelector =
          .ok image) ∧
      if b.manifestDocs.isEmpty then s' = s₁
      else ∃ current preserved, (s₁.doc model).specAttr? provider.imageField = some current ∧
        preservedImage provider b.manifestDocs machineSelector current = .ok preserved ∧
        match preserved with
        | some image => ∃ doc, (s₁.doc model).withSpecAttr provider.imageField image = .ok doc ∧
            s' = s₁.write model doc
        | none => s' = s₁ := by
  rw [getVirtualMachine, BuildM.bind_eq_ok] at h
  obtain ⟨machineSelector, _, hlift, h⟩ := h
  obtain ⟨hselector, rfl⟩ := lift_eq_ok.mp hlift
  rw [BuildM.bind_eq_ok] at h
  obtain ⟨found, s₀, hselect, h⟩ := h
  obtain ⟨htree, hstore⟩ := selectMachine_eq_ok hselect
  have hlt : found < s₀.next := by
    rcases hstore with ⟨hmem, rfl⟩ | ⟨rfl, hs⟩
    · exact hdocs found hmem
    · rw [hs]
      exact Nat.lt_succ_self _
  have hframe₀ : s.Frame ∅ s₀ := by
    rcases hstore with ⟨-, rfl⟩ | ⟨-, hs⟩
    · exact .refl _ _
    · exact hs ▸ s.frame_alloc _ _
  have hmap : b.docs.map s₀.doc = b.docs.map s.doc :=
    List.map_congr_left fun id hid => hframe₀.2 id (hdocs id hid) (Set.notMem_empty id)
  rw [BuildM.bind_eq_ok] at h
  obtain ⟨_, s₁, hcluster, h⟩ := h
  obtain ⟨hframe₁, cloudImage, hcloud, himage⟩ := applyClusterImage_eq_ok hlt hcluster
  have hrequested : ∀ image, (s₁.doc found).specAttr? provider.imageField = some image →
      requestedImage provider env b.clusterModel (b.docs.map s.doc) machineSelector =
        .ok image := by
    intro image hread
    rw [requestedImage, hcloud, ok_bind]
    split at himage
    · next hdefault =>
        rw [if_pos hdefault, htree, ok_bind, imageOf_eq_ok, ← himage]
        exact hread
    · next hdefault =>
        obtain ⟨name, defaults, images, image', hname, hdefaults, himages, hget, hset⟩ := himage
        rw [Val.specAttr?_withSpecAttr hset, if_pos rfl] at hread
        cases hread
        rw [hmap] at hdefaults
        simp [hdefault, hname, hdefaults, himages, hget]
  have hmodel : found ∈ b.docs ∨ s.next ≤ found := by
    rcases hstore with ⟨hmem, -⟩ | ⟨rfl, -⟩
    · exact Or.inl hmem
    · exact Or.inr le_rfl
  have hframe : s.Frame {found} s₁ :=
    (hframe₀.mono (Set.empty_subset _)).trans hframe₁
  split at h
  · next hempty =>
      obtain ⟨rfl, rfl⟩ := BuildM.pure_eq_ok.mp h
      exact ⟨_, s₁, hselector, hframe, hlt.trans_le hframe₁.1, hmodel, hrequested,
        by rw [if_pos hempty]⟩
  · next hempty =>
      rw [BuildM.bind_eq_ok] at h
      obtain ⟨current, _, hread, h⟩ := h
      obtain ⟨hcurrent, rfl⟩ := specAttr_eq_ok.mp hread
      rw [BuildM.bind_eq_ok] at h
      obtain ⟨preserved, _, hlift, h⟩ := h
      obtain ⟨hpreserved, rfl⟩ := lift_eq_ok.mp hlift
      rw [BuildM.bind_eq_ok] at h
      obtain ⟨_, s₂, hset, h⟩ := h
      obtain ⟨rfl, rfl⟩ := BuildM.pure_eq_ok.mp h
      refine ⟨_, s₁, hselector, hframe, hlt.trans_le hframe₁.1, hmodel, hrequested, ?_⟩
      rw [if_neg hempty]
      refine ⟨current, preserved, hcurrent, hpreserved, ?_⟩
      cases preserved with
      | some image => exact setSpecAttr_eq_ok.mp hset
      | none => exact (BuildM.pure_eq_ok.mp hset).2.symm

/-- The two early returns: the image a re-apply ends with is the expected one
unless the second return fires for a machine definition the manifest knows. -/
theorem preservedImage_eq_ok {manifestDocs : List Val} {machineSelector current : Val}
    {preserved : Option Val} (hwf : ∀ doc ∈ manifestDocs, doc.WellFormed)
    (h : preservedImage provider manifestDocs machineSelector current = .ok preserved) :
    ∃ expected, expectedImage provider manifestDocs machineSelector = .ok expected ∧
      ((preserved.getD current).pyEq expected = true ↔
        ¬ RequestsFirstVmImage provider manifestDocs machineSelector current) := by
  have himagewf : ∀ {x image : Val}, x.WellFormed → imageOf provider x = .ok image →
      image.WellFormed := by
    intro x image hx himage
    rw [imageOf_eq_ok, Val.specAttr?, Option.bind_eq_some_iff] at himage
    obtain ⟨spec, hspec, himage⟩ := himage
    exact (hx.attr? hspec).attr? himage
  rw [preservedImage] at h
  simp only [Lib.bind_eq_ok] at h
  obtain ⟨vmConfig, hvm, firstvmConfig, hfirst, sameVm, hsame, h⟩ := h
  cases vmConfig with
  | none =>
      -- only the image of the first machine counts
      have hno : ¬ RequestsFirstVmImage provider manifestDocs machineSelector current := by
        rintro ⟨config, own, first, hconfig, -⟩
        rw [hvm] at hconfig
        cases hconfig
      cases hsame
      simp only [Bool.false_eq_true, if_false, Lib.bind_eq_ok] at h
      obtain ⟨firstImage, himage, h⟩ := h
      refine ⟨firstImage, by simp [expectedImage, hvm, hfirst, himage], iff_of_true ?_ hno⟩
      split at h
      · next heq => cases h; exact heq
      · cases h
        refine Val.pyEq_refl ?_
        cases firstvmConfig with
        | none => simp [imageOf, attrPath, Val.getAttr, Val.attr?] at himage
        | some config =>
            have hmem := List.mem_of_find?_eq_some (selectFirst_eq_ok hfirst).symm
            exact himagewf (hwf config hmem) himage
  | some config =>
      have hmem := List.mem_of_find?_eq_some (selectFirst_eq_ok hvm).symm
      simp only [isImageOf, Lib.bind_eq_ok, Except.ok.injEq] at hsame
      obtain ⟨own, hown, rfl⟩ := hsame
      refine ⟨own, by simp [expectedImage, hvm, hown], ?_⟩
      split at h
      · next heq =>
          cases h
          refine iff_of_true heq ?_
          rintro ⟨config', own', first, hconfig, hown', hne, -⟩
          cases hvm.symm.trans hconfig
          cases hown.symm.trans hown'
          rw [heq] at hne
          cases hne
      · next hne =>
          rw [Bool.not_eq_true] at hne
          rw [Lib.bind_eq_ok] at h
          obtain ⟨firstImage, himage, h⟩ := h
          have hfirstImage : ((manifestFirstvmConfig manifestDocs).bind fun config =>
              imageOf provider (config.getD .null)) = .ok firstImage := by
            rw [hfirst]
            exact himage
          split at h
          · next heq =>
              cases h
              refine iff_of_false (by simp [hne]) ?_
              exact not_not_intro ⟨config, own, firstImage, hvm, hown, hne, hfirstImage, heq⟩
          · next hne' =>
              simp only [hown, ok_bind, Except.ok.injEq] at h
              subst h
              refine iff_of_true (Val.pyEq_refl (himagewf (hwf config hmem) hown)) ?_
              rintro ⟨config', own', first, -, -, -, hfirst', heq⟩
              cases hfirstImage.symm.trans hfirst'
              exact hne' heq

/-- A re-apply keeps the image of a machine definition exactly when the manifest
does not know the definition with an image other than the requested one while
its first machine has the requested one. -/
theorem getVirtualMachine_imagePreserved_iff {b : BuilderDocs} {componentValue : Val}
    {s s' : Store} {model : DocId} (hdocs : ∀ id ∈ b.docs, id < s.next)
    (hwf : ∀ doc ∈ b.manifestDocs, doc.WellFormed)
    (hvm : ∃ doc ∈ b.manifestDocs, doc.attr? "kind" = some (.str "infrastructure/virtual-machine"))
    (h : getVirtualMachine provider env b componentValue s = .ok (model, s')) :
    ∃ machineSelector requested, componentValue.getAttr "machine" = .ok machineSelector ∧
      requestedImage provider env b.clusterModel (b.docs.map s.doc) machineSelector =
        .ok requested ∧
      (ImagePreserved provider b.manifestDocs machineSelector (s'.doc model) ↔
        ¬ RequestsFirstVmImage provider b.manifestDocs machineSelector requested) := by
  obtain ⟨machineSelector, s₁, hselector, -, -, -, hrequested, hmanifest⟩ :=
    getVirtualMachine_eq_ok hdocs h
  have hempty : b.manifestDocs.isEmpty = false := by
    obtain ⟨doc, hmem, -⟩ := hvm
    exact List.isEmpty_eq_false_iff_exists_mem.mpr ⟨doc, hmem⟩
  simp only [hempty, Bool.false_eq_true, if_false] at hmanifest
  obtain ⟨current, preserved, hcurrent, hpreserved, hs'⟩ := hmanifest
  obtain ⟨expected, hexpected, hiff⟩ := preservedImage_eq_ok hwf hpreserved
  refine ⟨machineSelector, current, hselector, hrequested current hcurrent, ?_⟩
  have himage : imageOf provider (s'.doc model) = .ok (preserved.getD current) := by
    rw [imageOf_eq_ok]
    cases preserved with
    | none => rw [hs']; exact hcurrent
    | some image =>
        obtain ⟨doc, hdoc, rfl⟩ := hs'
        rw [Store.write_doc_self, Val.specAttr?_withSpecAttr hdoc, if_pos rfl]
        rfl
  rw [← hiff]
  constructor
  · rintro ⟨image, expected', himage', hexpected', heq⟩
    cases himage.symm.trans himage'
    cases hexpected.symm.trans hexpected'
    exact heq
  · exact fun heq => ⟨_, expected, himage, hexpected, heq⟩

end

/-! ## A machine that loses its image -/

namespace ImageSample

/-- A machine definition with an image. -/
def machine (name image : String) : Val :=
  .dict [("kind", .str "infrastructure/virtual-machine"), ("name", .str name),
    ("specification", .dict [("os_full_name", .str image)])]

/-- The only schema file the sample needs. -/
def imageDefaults : Val :=
  .dict [("kind", .str "infrastructure/cloud-os-image-defaults"), ("name", .str "default"),
    ("specification", .dict [])]

def schema : SchemaDir where
  file provider kind :=
    if provider = "aws" ∧ kind = "infrastructure/cloud-os-image-defaults" then
      some [imageDefaults]
    else none
  kind_eq := by
    intro provider kind docs h _ doc hdoc
    split at h
    · next heq =>
        cases h
        rw [List.mem_singleton.mp hdoc, heq.2]
        rfl
    · cases h
  wellFormed := by
    intro provider kind docs h doc hdoc
    split at h
    · cases h
      rw [List.mem_singleton.mp hdoc]
      simp [imageDefaults]
    · cases h

def env : BuilderEnv where
  schema := schema
  version := "1.0.0"
  lower := id
  readFile _ := none

/-- The cluster was built with two images; the input asks for the older one for
every machine. -/
def docs : BuilderDocs where
  clusterModel := .dict [("specification", .dict [("cloud", .dict
    [("default_os_image", .str "default")])])]
  docs := [0]
  manifestDocs := [machine "master" "image-1", machine "node" "image-2"]

def store : Store := Store.alloc ⟨0, fun _ => .null⟩ (machine "node" "image-1")

/-- The store after the image defaults were loaded. -/
def finalStore : Store :=
  store.alloc (.dict [("kind", .str "infrastructure/cloud-os-image-defaults"),
    ("name", .str "default"), ("specification", .dict []), ("version", .str "1.0.0")])

end ImageSample

/-- The manifest's machine definition has another image than the one the
re-apply gives the machine. -/
theorem getVirtualMachine_image_lost :
    getVirtualMachine .aws ImageSample.env ImageSample.docs
        (.dict [("machine", .str "node")]) ImageSample.store = .ok (0, ImageSample.finalStore) ∧
      ¬ ImagePreserved .aws ImageSample.docs.manifestDocs (.str "node")
        (ImageSample.finalStore.doc 0) := by
  refine ⟨rfl, ?_⟩
  rintro ⟨image, expected, himage, hexpected, heq⟩
  have himage' : imageOf .aws (ImageSample.finalStore.doc 0) = .ok (.str "image-1") := rfl
  have hexpected' : expectedImage .aws ImageSample.docs.manifestDocs (.str "node") =
      .ok (.str "image-2") := rfl
  cases himage.symm.trans himage'
  cases hexpected.symm.trans hexpected'
  simp [Val.pyEq] at heq

/-- The exact condition at the same input. -/
theorem getVirtualMachine_imagePreserved_iff_sample :
    ∃ machineSelector requested,
      Val.getAttr (.dict [("machine", .str "node")]) "machine" = .ok machineSelector ∧
      requestedImage .aws ImageSample.env ImageSample.docs.clusterModel
        (ImageSample.docs.docs.map ImageSample.store.doc) machineSelector = .ok requested ∧
      (ImagePreserved .aws ImageSample.docs.manifestDocs machineSelector
          (ImageSample.finalStore.doc 0) ↔
        ¬ RequestsFirstVmImage .aws ImageSample.docs.manifestDocs machineSelector requested) :=
  getVirtualMachine_imagePreserved_iff (by simp [ImageSample.docs, ImageSample.store])
    (by simp [ImageSample.docs, ImageSample.machine])
    ⟨ImageSample.machine "master" "image-1", by simp [ImageSample.docs], rfl⟩
    (show getVirtualMachine .aws ImageSample.env ImageSample.docs
      (.dict [("machine", .str "node")]) ImageSample.store = .ok (0, ImageSample.finalStore)
      from rfl)

end LambdaStack
