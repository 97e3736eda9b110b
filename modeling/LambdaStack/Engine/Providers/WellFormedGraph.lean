/-
# The infrastructure of a run as a graph

On both providers the documents of a run have different names, and what the builder
assigns mentions emitted documents only. What the user's own documents mention stays as it
is: the mount targets of a file system, and the availability set of a machine definition
whose component names none.
-/

import LambdaStack.Engine.Providers.Aws.EfsGranted
import LambdaStack.Engine.Providers.Aws.References
import LambdaStack.Engine.Providers.Azure.References
import LambdaStack.Engine.Providers.Azure.SecurityGroups

namespace LambdaStack

open Lib BuildM

/-- Where the components bring documents of their own under names that stay apart, the
infrastructure of a run is a well-formed graph on both providers. -/
theorem run_graph_wellFormed :
    (∀ (env : Aws.Env) (b : Aws.InfrastructureBuilder) (keys : Aws.KeySource)
        (infrastructure : List DocId) (s s' : Store), Aws.NamedApart env b s →
      b.run env keys s = .ok (infrastructure, s') →
      WellFormedGraph Aws.references s' infrastructure ∧
        Aws.MountsClosed (Aws.ownTargets env b s) s' infrastructure) ∧
    ∀ (env : BuilderEnv) (b : Azure.InfrastructureBuilder)
        (infrastructure : List Azure.Emitted) (s s' : Store), Azure.Emission.NamedApart env b s →
      b.run env s = .ok (infrastructure, s') →
      WellFormedGraph Azure.Emission.references s' (infrastructure.map Azure.Emitted.doc) ∧
        ∃ components, Azure.componentsOf b.clusterModel = .ok components ∧
          Azure.Emission.SetsMentioned (b.docs.map s.doc) components s'
            (infrastructure.map Azure.Emitted.doc) := by
  constructor
  · intro env b keys infrastructure s s' h hrun
    exact Aws.run_wellFormedGraph h hrun
  · intro env b infrastructure s s' h hrun
    exact Azure.Emission.run_wellFormedGraph h hrun

/-! ## What the user's documents mention -/

/-- A name that a document of the reference mentions and no emitted document has. -/
def Reference.dangles (r : Reference) (name : String) (s : Store) (ids : List DocId) : Bool :=
  (ids.any fun id => Holds? (kindIs r.kind (s.doc id)) &&
    (r.names (s.doc id)).any (·.pyEq (.str name))) &&
  ids.all fun id => !(Holds? (kindIs r.target (s.doc id)) &&
    ((s.doc id).specAttr? "name").any (·.pyEq (.str name)))

theorem Reference.not_closed_of_dangles {r : Reference} {name : String} {s : Store}
    {ids : List DocId} (h : r.dangles name s ids = true) : ¬ r.Closed s ids := by
  intro hclosed
  rw [Reference.dangles, Bool.and_eq_true, List.any_eq_true, List.all_eq_true] at h
  obtain ⟨⟨id, hid, hmentions⟩, hnone⟩ := h
  rw [Bool.and_eq_true, holds?_kindIs, List.any_eq_true] at hmentions
  obtain ⟨hkind, value, hvalue, heq⟩ := hmentions
  rw [pyEq_str_eq_true] at heq
  obtain ⟨other, hother, hotherKind, hname⟩ := hclosed id hid hkind value hvalue
  have habsent := hnone other hother
  rw [hname, holds?_kindIs.mpr hotherKind] at habsent
  simp [pyEq_str_eq_true.mpr heq] at habsent

namespace Aws.ClusterSample

/-- A file system of the user that is mounted in a subnet of another cluster. -/
def fileSystem : Val :=
  .dict [("kind", .str "infrastructure/efs-storage"), ("name", .str "default"),
    ("provider", .str "aws"), ("specification", .dict [("mount_targets",
      .list [.dict [("name", .str "mount"), ("subnet_name", .str "elsewhere"),
        ("availability_zone", .str "eu-west-1b")]])])]

def mountedStore : Store := efsStore.alloc fileSystem

/-- Two components that mount the file system of the user. -/
def mounted : InfrastructureBuilder := { sharing with docs := [0, 1, 2] }

theorem mounted_namedApart : NamedApart env mounted mountedStore where
  docs := by simp [mounted, mountedStore, efsStore]
  unique id hid := by
    have hwf : ∀ id ∈ mounted.docs, (mountedStore.doc id).WellFormed := by
      simp [mounted, mountedStore, efsStore, Store.alloc, efsMachine, fileSystem]
    exact (hwf id hid).keysUnique
  own := by
    intro kind hmem id hid hkind
    simp only [mounted, List.mem_cons, List.not_mem_nil, or_false] at hid
    rcases hid with rfl | rfl | rfl <;>
      · cases hkind
        revert hmem
        decide
  lower := lowersWords_map
  keys := by
    rintro components ⟨⟩
    unfold KeysApart
    decide +kernel

theorem run_mounted :
    (mounted.run env keys mountedStore).toOption.any
      (fun result => mountReference.dangles "elsewhere" result.2 result.1) = true := by
  decide +kernel

end Aws.ClusterSample

namespace Azure.NetworkSample

/-- A machine definition with the default for the availability set. -/
def defaultMachine : Val :=
  .dict [("kind", .str "infrastructure/virtual-machine"), ("name", .str "m1"),
    ("provider", .str "azure"),
    ("specification", .dict [("availability_set_name", .str "SET_BY_AUTOMATION"),
      ("os_type", .str "linux"), ("tags", .list []),
      ("storage_image_reference", .dict [("offer", .str "UbuntuServer")]),
      ("network_interface", .dict [("enable_accelerated_networking", .bool false)]),
      ("security", .dict [("rules", .list [])])])]

def availabilitySet : Val :=
  .dict [("kind", .str "infrastructure/availability-set"), ("name", .str "kube_node"),
    ("provider", .str "azure"), ("specification", .dict [("managed", .bool true)])]

def setStore : Store := Store.alloc (Store.alloc ⟨0, fun _ => .null⟩ defaultMachine) availabilitySet

/-- The machine of one component is in an availability set, that of the other in none. -/
def inSet : InfrastructureBuilder :=
  builder [("kubernetes_node", .dict [("count", .int 1), ("machine", .str "m1"),
      ("availability_set", .str "kube_node"),
      ("subnets", .list [.dict [("address_pool", .str "10.1.1.0/24")]])]),
    ("kafka", component "10.1.2.0/24" "m1")]

theorem inSet_namedApart : Emission.NamedApart env inSet setStore where
  docs := by simp [inSet, builder, setStore]
  unique id hid := by
    have hwf : ∀ id ∈ inSet.docs, (setStore.doc id).WellFormed := by
      simp [inSet, builder, setStore, Store.alloc, defaultMachine, availabilitySet]
    exact (hwf id hid).keysUnique
  own := by
    intro kind hmem id hid hkind
    simp only [inSet, builder, List.mem_cons, List.not_mem_nil, or_false] at hid
    rcases hid with rfl | rfl <;>
      · cases hkind
        revert hmem
        decide
  lower := lowersWords_map
  keys := by
    rintro components ⟨⟩
    unfold KeysApart
    decide +kernel
  sets := by
    unfold Emission.SetsApart
    decide +kernel

theorem run_inSet :
    (inSet.run env setStore).toOption.any (fun result =>
      Emission.setReference.dangles "SET_BY_AUTOMATION" result.2
        (result.1.map Emitted.doc)) = true := by
  decide +kernel

end Azure.NetworkSample

/-- A mount target of the user's file system and the default for the availability set of a
machine are mentioned by emitted documents as they were before. -/
theorem run_mentions_unemitted :
    (∃ infrastructure s',
      Aws.NamedApart Aws.ClusterSample.env Aws.ClusterSample.mounted
          Aws.ClusterSample.mountedStore ∧
        Aws.ClusterSample.mounted.run Aws.ClusterSample.env Aws.ClusterSample.keys
          Aws.ClusterSample.mountedStore = .ok (infrastructure, s') ∧
        ¬ WellFormedGraph (Aws.mountReference :: Aws.references) s' infrastructure) ∧
    ∃ infrastructure s',
      Azure.Emission.NamedApart Azure.NetworkSample.env Azure.NetworkSample.inSet
          Azure.NetworkSample.setStore ∧
        Azure.NetworkSample.inSet.run Azure.NetworkSample.env Azure.NetworkSample.setStore =
          .ok (infrastructure, s') ∧
        ¬ WellFormedGraph (Azure.Emission.setReference :: Azure.Emission.references) s'
          (infrastructure.map Azure.Emitted.doc) := by
  constructor
  · obtain ⟨⟨infrastructure, s'⟩, hrun, hdangles⟩ :=
      (Option.any_eq_true _ _).mp Aws.ClusterSample.run_mounted
    exact ⟨infrastructure, s', Aws.ClusterSample.mounted_namedApart,
      toOption_eq_some.mp hrun,
      fun h => Reference.not_closed_of_dangles hdangles (h.closed _ List.mem_cons_self)⟩
  · obtain ⟨⟨infrastructure, s'⟩, hrun, hdangles⟩ :=
      (Option.any_eq_true _ _).mp Azure.NetworkSample.run_inSet
    exact ⟨infrastructure, s', Azure.NetworkSample.inSet_namedApart,
      toOption_eq_some.mp hrun,
      fun h => Reference.not_closed_of_dangles hdangles (h.closed _ List.mem_cons_self)⟩

/-- The graphs of the same clusters. -/
theorem run_graph_wellFormed_sample :
    (∃ infrastructure s',
      Aws.ClusterSample.mounted.run Aws.ClusterSample.env Aws.ClusterSample.keys
          Aws.ClusterSample.mountedStore = .ok (infrastructure, s') ∧
        WellFormedGraph Aws.references s' infrastructure ∧
        Aws.MountsClosed (Aws.ownTargets Aws.ClusterSample.env Aws.ClusterSample.mounted
          Aws.ClusterSample.mountedStore) s' infrastructure) ∧
    ∃ infrastructure s',
      Azure.NetworkSample.inSet.run Azure.NetworkSample.env Azure.NetworkSample.setStore =
          .ok (infrastructure, s') ∧
        WellFormedGraph Azure.Emission.references s' (infrastructure.map Azure.Emitted.doc) ∧
        ∃ components, Azure.componentsOf Azure.NetworkSample.inSet.clusterModel = .ok components ∧
          Azure.Emission.SetsMentioned
            (Azure.NetworkSample.inSet.docs.map Azure.NetworkSample.setStore.doc) components s'
            (infrastructure.map Azure.Emitted.doc) := by
  constructor
  · obtain ⟨⟨infrastructure, s'⟩, hrun, -⟩ :=
      (Option.any_eq_true _ _).mp Aws.ClusterSample.run_mounted
    have hrun := toOption_eq_some.mp hrun
    exact ⟨infrastructure, s', hrun, run_graph_wellFormed.1 _ _ _ _ _ _
      Aws.ClusterSample.mounted_namedApart hrun⟩
  · obtain ⟨⟨infrastructure, s'⟩, hrun, -⟩ :=
      (Option.any_eq_true _ _).mp Azure.NetworkSample.run_inSet
    have hrun := toOption_eq_some.mp hrun
    exact ⟨infrastructure, s', hrun, run_graph_wellFormed.2 _ _ _ _ _
      Azure.NetworkSample.inSet_namedApart hrun⟩

end LambdaStack
