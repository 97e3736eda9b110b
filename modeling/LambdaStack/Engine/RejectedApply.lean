/-
# The manifest after a rejected apply

An apply writes the manifest twice: once the infrastructure documents are built
and validated, and once the configuration documents are complete. A run that a
check ends before the first write leaves the manifest as it was; one that ends
between the two leaves the documents of the first write, which the check on the
distributions asks the user to inspect.
-/

import LambdaStack.Engine.ApplyEngine

namespace LambdaStack

open Lib BuildM

namespace ApplyEngine

/-! ## Parts that write no manifest -/

section

variable {α β : Type}

/-- Whatever the outcome of a part, it leaves the manifest alone, and it raises
in one of the steps only. -/
def KeepsManifest (stages : List Stage) (x : ApplyM α) : Prop :=
  ∀ w, (x.exec w).2.manifest = w.manifest ∧
    ∀ stage e, (x.exec w).1 = .error (stage, e) → stage ∈ stages

/-- The step in which a part raised. -/
def raisedIn (outcome : Except (Stage × Exc) α) : Option Stage :=
  match outcome with
  | .ok _ => none
  | .error (stage, _) => some stage

theorem raisedIn_eq_some {outcome : Except (Stage × Exc) α} {stage : Stage} :
    raisedIn outcome = some stage ↔ ∃ e, outcome = .error (stage, e) := by
  rcases outcome with ⟨raised, e⟩ | a <;> simp [raisedIn]

theorem exec_eq_of_raised {x : ApplyM α} {w : World} {stage : Stage}
    (h : raisedIn (x.exec w).1 = some stage) :
    ∃ e, x.exec w = (.error (stage, e), (x.exec w).2) := by
  obtain ⟨e, he⟩ := raisedIn_eq_some.mp h
  exact ⟨e, Prod.ext he rfl⟩

theorem keepsManifest_pure (a : α) : KeepsManifest [] (pure a : ApplyM α) := by
  intro w
  refine ⟨rfl, ?_⟩
  intro stage e h
  cases h

theorem keepsManifest_loadManifest : KeepsManifest [] loadManifest := by
  intro w
  refine ⟨rfl, ?_⟩
  intro stage e h
  cases h

theorem keepsManifest_atStage (stage : Stage) (x : BuildM α) :
    KeepsManifest [stage] (atStage stage x) := by
  intro w
  rcases h : x w.store with exc | ⟨a, s⟩
  · have hexec : (atStage stage x).exec w = (.error (stage, exc), w) :=
      atStage_eq_error.mpr ⟨exc, h, rfl, rfl⟩
    rw [hexec]
    refine ⟨rfl, ?_⟩
    intro raised e he
    cases he
    exact List.mem_singleton_self stage
  · have hexec : (atStage stage x).exec w = (.ok a, { w with store := s }) :=
      atStage_eq_ok.mpr ⟨s, h, rfl⟩
    rw [hexec]
    refine ⟨rfl, ?_⟩
    intro raised e he
    cases he

/-- The rule for a sequence: the steps in which it raises are those of its parts. -/
theorem KeepsManifest.bind {stages rest : List Stage} {x : ApplyM α} {f : α → ApplyM β}
    (hx : KeepsManifest stages x) (hf : ∀ a, KeepsManifest rest (f a)) :
    KeepsManifest (stages ++ rest) (x >>= f) := by
  intro w
  obtain ⟨hkeep, hraise⟩ := hx w
  rw [Action.exec_bind]
  rcases h : x.exec w with ⟨e | a, w₁⟩
  · rw [h] at hkeep hraise
    refine ⟨hkeep, ?_⟩
    intro stage e' he
    cases he
    exact List.mem_append_left rest (hraise stage e' rfl)
  · rw [h] at hkeep
    obtain ⟨hkeep', hraise'⟩ := hf a w₁
    refine ⟨hkeep'.trans hkeep, ?_⟩
    intro stage e' he
    exact List.mem_append_right stages (hraise' stage e' he)

theorem KeepsManifest.of_error {stages : List Stage} {x : ApplyM α}
    (hx : KeepsManifest stages x) {w w' : World} {stage : Stage} {e : Exc}
    (h : x.exec w = (.error (stage, e), w')) :
    stage ∈ stages ∧ w'.manifest = w.manifest := by
  obtain ⟨hkeep, hraise⟩ := hx w
  rw [h] at hkeep hraise
  exact ⟨hraise stage e rfl, hkeep⟩

end

/-! ## The two writes -/

/-- The steps before the first write. -/
def stagesBeforeSave : List Stage :=
  [.inputDocs, .masterDownscale, .postgresChange, .infrastructureDocs]

/-- The steps between the two writes. -/
def stagesBetweenSaves : List Stage :=
  [.osFamily, .terraform, .configurationDocs, .infrastructureConfig]

theorem notMem_stagesBetweenSaves : ∀ stage ∈ stagesBeforeSave, stage ∉ stagesBetweenSaves := by
  decide

section

variable {env : Env} {input : Input}

theorem keepsManifest_prepare : KeepsManifest stagesBeforeSave (prepare env input) := by
  apply (keepsManifest_atStage .inputDocs _).bind
  intro docs
  apply (keepsManifest_atStage .masterDownscale _).bind
  intro _
  apply (keepsManifest_atStage .postgresChange _).bind
  intro _
  apply keepsManifest_loadManifest.bind
  intro manifestDocs
  apply (keepsManifest_atStage .infrastructureDocs _).bind
  intro infrastructureDocs
  exact keepsManifest_pure _

theorem keepsManifest_configure (docs : InputDocs) (infrastructureDocs : List DocId) :
    KeepsManifest stagesBetweenSaves (configure env input docs infrastructureDocs) := by
  apply (keepsManifest_atStage .osFamily _).bind
  intro _
  apply (keepsManifest_atStage .terraform _).bind
  intro _
  apply (keepsManifest_atStage .configurationDocs _).bind
  intro configurationDocs
  apply (keepsManifest_atStage .infrastructureConfig _).bind
  intro _
  exact keepsManifest_pure _

theorem keepsManifest_ansible (x : BuildM Unit) (applied : Applied) :
    KeepsManifest [.ansible] (do
      atStage .ansible x
      pure applied) := by
  apply (keepsManifest_atStage .ansible x).bind
  intro _
  exact keepsManifest_pure applied

/-- The manifest of a run that ends with an exception: that of before the run if
the exception is raised before the first write, the documents of the first write
if it is raised between the two, and those of the second one otherwise. -/
theorem manifest_of_apply_raised {w w' : World} {stage : Stage} {e : Exc}
    (h : (apply env input).exec w = (.error (stage, e), w')) :
    (stage ∈ stagesBeforeSave → w'.manifest = w.manifest) ∧
      (stage ∈ stagesBetweenSaves → ∃ docs infrastructureDocs w₁,
        (prepare env input).exec w = (.ok (docs, infrastructureDocs), w₁) ∧
        w'.manifest = some ((docs.docs ++ infrastructureDocs).map w₁.store.doc)) ∧
      (stage = .ansible → ∃ docs infrastructureDocs w₁ configurationDocs w₂,
        (prepare env input).exec w = (.ok (docs, infrastructureDocs), w₁) ∧
        (configure env input docs infrastructureDocs).exec
          { w₁ with manifest := some ((docs.docs ++ infrastructureDocs).map w₁.store.doc) } =
            (.ok configurationDocs, w₂) ∧
        w'.manifest = some ((configurationDocs ++ infrastructureDocs).map w₂.store.doc)) := by
  rw [apply, Action.bind_eq_error] at h
  rcases h with h | ⟨⟨docs, infrastructureDocs⟩, w₁, hprepare, h⟩
  · -- the first part raises
    obtain ⟨hstage, hkeep⟩ := keepsManifest_prepare.of_error h
    refine ⟨fun _ => hkeep, ?_, ?_⟩
    · intro hbetween
      exact absurd hbetween (notMem_stagesBetweenSaves stage hstage)
    · rintro rfl
      exact absurd hstage (by decide)
  · rw [Action.exec_bind, saveManifest_exec] at h
    rcases Action.bind_eq_error.mp h with h | ⟨configurationDocs, w₂, hconfigure, h⟩
    · -- the part between the two writes raises
      obtain ⟨hstage, hkeep⟩ := (keepsManifest_configure docs infrastructureDocs).of_error h
      refine ⟨?_, fun _ => ⟨docs, infrastructureDocs, w₁, hprepare, hkeep⟩, ?_⟩
      · intro hbefore
        exact absurd hstage (notMem_stagesBetweenSaves stage hbefore)
      · rintro rfl
        exact absurd hstage (by decide)
    · -- the Ansible run raises
      rw [Action.exec_bind, saveManifest_exec] at h
      obtain ⟨hstage, hkeep⟩ := (keepsManifest_ansible _ _).of_error h
      obtain rfl : stage = .ansible := List.mem_singleton.mp hstage
      refine ⟨fun hbefore => absurd hbefore (by decide),
        fun hbetween => absurd hbetween (by decide), fun _ => ?_⟩
      exact ⟨docs, infrastructureDocs, w₁, configurationDocs, w₂, hprepare, hconfigure, hkeep⟩

end

/-! ## A cluster of mixed distributions -/

namespace ApplySample

/-- A document of AWS. -/
def document (kind name : String) (specification : Entries) : Val :=
  .dict [("kind", .str kind), ("title", .str kind), ("provider", .str "aws"),
    ("name", .str name), ("specification", .dict specification)]

/-- The specifications of the shipped defaults, as far as the sample needs them. -/
def defaults : List (String × Entries) :=
  [("lambdastack-cluster",
      [("name", .str "default"), ("prefix", .str ""),
        ("admin_user", .dict [("name", .str "operations"), ("path", .str "/keys/demo")]),
        ("cloud", .dict [("vnet_address_pool", .str "10.1.0.0/20"),
          ("use_public_ips", .bool false), ("default_os_image", .str "default"),
          ("network", .dict [("use_network_security_groups", .bool true)])]),
        ("components", .dict [])]),
    ("configuration/feature-mapping",
      [("roles_mapping", .dict [("kubernetes_master", .list []),
        ("kubernetes_node", .list [])])]),
    ("configuration/shared-config", []),
    ("infrastructure/public-key", []),
    ("infrastructure/vpc", []),
    ("infrastructure/default-security-group", []),
    ("infrastructure/resource-group", []),
    ("infrastructure/internet-gateway", []),
    ("infrastructure/route-table", [("route", .dict [("cidr_block", .str "0.0.0.0/0")])]),
    ("infrastructure/efs-storage", [("mount_targets", .list [])]),
    ("infrastructure/cloud-os-image-defaults", []),
    ("infrastructure/launch-configuration", []),
    ("infrastructure/virtual-machine",
      [("tags", .list []), ("size", .str "t2.micro"), ("os_full_name", .str "ubuntu-18.04"),
        ("ebs_optimized", .bool false), ("mount_efs", .bool false), ("disks", .dict [])])]

theorem wellFormed_document {kind name : String} {specification : Entries}
    (h : (Val.dict specification).WellFormed) : (document kind name specification).WellFormed := by
  simpa [document, dictKeys] using h

theorem wellFormed_defaults : ∀ entry ∈ defaults, (Val.dict entry.2).WellFormed := by
  simp [defaults, dictKeys, or_imp, forall_and]

def schema : SchemaDir where
  file _ kind := (defaults.lookup kind).map fun specification =>
    [document kind "default" specification]
  kind_eq := by
    intro provider kind docs h _ doc hdoc
    rw [Option.map_eq_some_iff] at h
    obtain ⟨specification, -, rfl⟩ := h
    rw [List.mem_singleton.mp hdoc]
    rfl
  wellFormed := by
    intro provider kind docs h doc hdoc
    rw [Option.map_eq_some_iff] at h
    obtain ⟨specification, hlookup, rfl⟩ := h
    rw [List.mem_singleton.mp hdoc]
    exact wellFormed_document (wellFormed_defaults _ (mem_of_lookup_eq_some hlookup))

/-- The base schema. Those of the specifications ask for nothing. -/
def baseSchema : Val :=
  .dict [("required", .list (baseRequired.map Val.str)),
    ("properties", .dict [("kind", .dict []), ("provider", .dict [])])]

/-- Whether a document has the keys a schema requires. -/
def hasRequired (schema document : Val) : Bool :=
  match document with
  | .dict entries => (requiredOf schema).all fun key =>
      match key with
      | .scalar (.str key) => key ∈ dictKeys entries
      | _ => true
  | _ => false

def validator : ValidatorEnv where
  loadSchema _ kind := .ok (if kind = "core/base" then baseSchema else .dict [])
  accepts := hasRequired
  base_required := by
    intro provider base h
    cases h
    rfl
  accepts_required := by
    intro schema entries key h hkey
    simpa [hasRequired] using List.all_eq_true.mp h _ hkey

/-- Nothing exists of the cluster but its SSH key. -/
def env : Env where
  builder :=
    { schema := schema
      version := "1.0.0"
      lower := id
      readFile path := if path = "/keys/demo.pub" then some "ssh-rsa AAAA" else none
      rstrip := id
      getImageId _ := .ok (.str "ami-1") }
  keys := { uuid := "5f3c", tfstate := none }
  depth := 100
  validator := validator
  scaling := { parseInt _ := none, inventories _ := none }
  storage :=
    { getEfsIdForGivenToken _ := .error .typeError
      getStorageAccountPrimaryKey _ := .error .typeError }
  terraform _ _ := .ok ()
  ansible _ _ := .ok ()

/-- A component with one machine. -/
def component (machine : String) : Val :=
  .dict [("count", .int 1), ("machine", .str machine), ("configuration", .str "default"),
    ("subnets", .list [])]

/-- A master and a node, with the images of their machine definitions. -/
def input (master node : String) : Input where
  path := "/demo.yml"
  file := some
    [document "lambdastack-cluster" "default" [("name", .str "demo"),
        ("components", .dict [("kubernetes_master", component "master"),
          ("kubernetes_node", component "node")])],
      document "infrastructure/virtual-machine" "master" [("os_full_name", .str master)],
      document "infrastructure/virtual-machine" "node" [("os_full_name", .str node)]]
  skipInfrastructure := false
  skipConfig := false

/-- The world in which an apply finds a manifest. -/
def world (manifest : Option (List Val)) : World := ⟨⟨0, fun _ => .null⟩, manifest⟩

end ApplySample

theorem mixed_raised :
    raisedIn ((apply ApplySample.env (ApplySample.input "ubuntu-18.04" "rhel-7")).exec
      (ApplySample.world none)).1 = some .osFamily := by
  decide +kernel

/-- An apply whose machines are of two distributions is rejected after it has
written a manifest, where there was none. -/
theorem mixed_apply_writes_manifest :
    raisedIn ((apply ApplySample.env (ApplySample.input "ubuntu-18.04" "rhel-7")).exec
        (ApplySample.world none)).1 = some .osFamily ∧
      ((apply ApplySample.env (ApplySample.input "ubuntu-18.04" "rhel-7")).exec
        (ApplySample.world none)).2.manifest ≠ (ApplySample.world none).manifest := by
  refine ⟨mixed_raised, ?_⟩
  apply Option.isSome_iff_ne_none.mp
  decide +kernel

theorem manifest_of_apply_raised_mixed :
    ∃ docs infrastructureDocs w₁,
      (prepare ApplySample.env (ApplySample.input "ubuntu-18.04" "rhel-7")).exec
        (ApplySample.world none) = (.ok (docs, infrastructureDocs), w₁) ∧
      ((apply ApplySample.env (ApplySample.input "ubuntu-18.04" "rhel-7")).exec
        (ApplySample.world none)).2.manifest =
          some ((docs.docs ++ infrastructureDocs).map w₁.store.doc) := by
  obtain ⟨e, he⟩ := exec_eq_of_raised mixed_raised
  exact (manifest_of_apply_raised he).2.1 (by decide)

end ApplyEngine

end LambdaStack
