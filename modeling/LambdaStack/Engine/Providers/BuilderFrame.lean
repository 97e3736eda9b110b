/-
# What the builders do to the documents

A builder changes documents by assigning fields of specifications and by creating
new documents. A relation of stores that both keep is kept by every part of a
builder, up to the parts that append tags or assign images.
-/

import LambdaStack.Engine.Providers.VirtualMachine

namespace LambdaStack

open Lib BuildM

/-- A relation of stores that new documents and assignments to specifications keep,
except to tags and images. -/
structure BuilderFrame (provider : CloudProvider) (R : Store → Store → Prop) : Prop where
  creates : ∀ v, Preserves R (newDoc v)
  assigns : ∀ id {key} value, key ≠ "tags" → key ≠ provider.imageField →
    Preserves R (setSpecAttr id key value)

/-- A getter of a builder: the document of a kind, and then a computation that
assigns to it and returns it. -/
def GetsThen (R : Store → Store → Prop) (config getter : BuildM DocId) : Prop :=
  ∃ f : DocId → BuildM DocId, getter = config >>= f ∧ ∀ id, Returns R id (f id)

theorem GetsThen.preserves {R : Store → Store → Prop} [IsTrans Store R]
    {config getter : BuildM DocId} (h : GetsThen R config getter)
    (hconfig : Preserves R config) : Preserves R getter := by
  obtain ⟨f, rfl, hf⟩ := h
  exact hconfig.bind fun id => (hf id).toPreserves

/-! ## What only creates documents and assigns images -/

section

variable {provider : CloudProvider} {R : Store → Store → Prop} [Std.Refl R] [IsTrans Store R]
  (hcreates : ∀ v, Preserves R (newDoc v))

include hcreates

theorem preserves_loadConfig (builder : CloudProvider) (env : BuilderEnv) (docs : List DocId)
    (kind : String) : Preserves R (getConfigOrDefault builder env docs kind) := by
  apply (preserves_reads _).bind
  intro config
  cases config with
  | some id => exact preserves_pure id
  | none =>
      apply (preserves_lift _).bind
      intro config
      apply (preserves_lift _).bind
      intro config
      exact hcreates config

variable {env : BuilderEnv} {b : BuilderDocs}
  (himage : ∀ id value, Preserves R (setSpecAttr id provider.imageField value))

include himage

theorem preserves_applyImage (model : DocId) :
    Preserves R (applyClusterImage provider env b model) := by
  apply (preserves_loadConfig hcreates provider env b.docs _).bind
  intro defaults
  apply (preserves_lift _).bind
  intro cloudImage
  apply Preserves.ite
  · exact preserves_pure ()
  · apply (preserves_lift _).bind
    intro cloudImage
    apply (preserves_reads _).bind
    intro images
    cases images.attr? cloudImage with
    | some image => exact himage model image
    | none =>
        apply (preserves_lift _).bind
        intro clusterProvider
        apply (preserves_lift _).bind
        intro clusterProvider
        exact preserves_lift _

/-- What `get_virtual_machine` returns is the selected definition, to which it has
assigned images only. -/
theorem getVirtualMachine_selected {componentValue : Val} {s s' : Store} {model : DocId}
    (h : getVirtualMachine provider env b componentValue s = .ok (model, s')) :
    ∃ machineSelector s₁, componentValue.getAttr "machine" = .ok machineSelector ∧
      selectMachine env b machineSelector s = .ok (model, s₁) ∧ R s₁ s' := by
  rw [getVirtualMachine, BuildM.bind_eq_ok] at h
  obtain ⟨machineSelector, _, hlift, h⟩ := h
  obtain ⟨hselector, rfl⟩ := lift_eq_ok.mp hlift
  rw [BuildM.bind_eq_ok] at h
  obtain ⟨found, s₁, hselect, h⟩ := h
  rw [BuildM.bind_eq_ok] at h
  obtain ⟨_, s₂, hcluster, h⟩ := h
  have hrel := (preserves_applyImage hcreates himage found).rel hcluster
  split at h
  · obtain ⟨rfl, rfl⟩ := BuildM.pure_eq_ok.mp h
    exact ⟨machineSelector, s₁, hselector, hselect, hrel⟩
  · simp only [BuildM.bind_eq_ok] at h
    obtain ⟨current, _, hread, preserved, _, hlift, _, s₃, hset, h⟩ := h
    obtain ⟨-, rfl⟩ := specAttr_eq_ok.mp hread
    obtain ⟨-, rfl⟩ := lift_eq_ok.mp hlift
    obtain ⟨rfl, rfl⟩ := BuildM.pure_eq_ok.mp h
    refine ⟨machineSelector, s₁, hselector, hselect, IsTrans.trans _ _ _ hrel ?_⟩
    cases preserved with
    | none =>
        obtain ⟨-, rfl⟩ := BuildM.pure_eq_ok.mp hset
        exact Std.Refl.refl _
    | some image => exact (himage found image).rel hset

theorem preserves_machineDefinition (componentValue : Val) :
    Preserves R (getVirtualMachine provider env b componentValue) := by
  refine ⟨fun {s model s'} h => ?_⟩
  obtain ⟨machineSelector, s₁, -, hselect, hrel⟩ := getVirtualMachine_selected hcreates himage h
  rcases (selectMachine_eq_ok hselect).2 with ⟨-, rfl⟩ | ⟨-, hs⟩
  · exact hrel
  · exact IsTrans.trans _ _ _ ((hcreates _).rel (newDoc_eq_ok.mpr ⟨rfl, hs⟩)) hrel

end

namespace BuilderFrame

variable {provider : CloudProvider} {R : Store → Store → Prop} [Std.Refl R] [IsTrans Store R]

theorem setSpecAttrs (hR : BuilderFrame provider R) (id : DocId) {fields : List (String × Val)}
    (hfields : ∀ field ∈ fields, field.1 ≠ "tags" ∧ field.1 ≠ provider.imageField) :
    Preserves R (setSpecAttrs id fields) := by
  induction fields with
  | nil => exact preserves_pure ()
  | cons field rest ih =>
      rw [List.forall_mem_cons] at hfields
      apply (hR.assigns id field.2 hfields.1.1 hfields.1.2).bind
      intro _
      exact ih hfields.2

theorem getConfigOrDefault (hR : BuilderFrame provider R) (builder : CloudProvider)
    (env : BuilderEnv) (docs : List DocId) (kind : String) :
    Preserves R (getConfigOrDefault builder env docs kind) :=
  preserves_loadConfig hR.creates builder env docs kind

theorem configWith (hR : BuilderFrame provider R) (builder : CloudProvider) (env : BuilderEnv)
    (docs : List DocId) (kind : String) {fields : List (String × Val)}
    (hfields : ∀ field ∈ fields, field.1 ≠ "tags" ∧ field.1 ≠ provider.imageField) :
    Preserves R (configWith builder env docs kind fields) := by
  apply (hR.getConfigOrDefault builder env docs kind).bind
  intro config
  apply (hR.setSpecAttrs config hfields).bind
  intro _
  exact preserves_pure config

section

variable {env : BuilderEnv} {b : BuilderDocs} (hR : BuilderFrame provider R)
  (himage : ∀ id value, Preserves R (BuildM.setSpecAttr id provider.imageField value))

include hR himage

/-- What `get_virtual_machine` returns is the selected definition, to which it has
assigned images only. -/
theorem selected {componentValue : Val} {s s' : Store} {model : DocId}
    (h : LambdaStack.getVirtualMachine provider env b componentValue s = .ok (model, s')) :
    ∃ machineSelector s₁, componentValue.getAttr "machine" = .ok machineSelector ∧
      selectMachine env b machineSelector s = .ok (model, s₁) ∧ R s₁ s' :=
  getVirtualMachine_selected hR.creates himage h

theorem getVirtualMachine (componentValue : Val) :
    Preserves R (LambdaStack.getVirtualMachine provider env b componentValue) :=
  preserves_machineDefinition hR.creates himage componentValue

end

end BuilderFrame

end LambdaStack
