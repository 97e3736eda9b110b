/-
# Components that share a machine definition

Whatever the provider, the machines a run emits for a component carry the tags of
the component's machine definition, of the cluster and of the component, also
where other components are built from the same document, which keeps its own tags.
-/

import LambdaStack.Engine.Providers.Aws.MachineTags
import LambdaStack.Engine.Providers.Azure.MachineTags
import LambdaStack.Engine.Providers.Azure.SecurityGroups

namespace LambdaStack

open Lib BuildM

/-- The emitted machines are those of the components in their order, each with the
tags of its definition, the cluster and its component and no others, and no document
that was there before the run has its tags changed. -/
structure MachinesApart (env : BuilderEnv) (b : BuilderDocs) (clusterTag : Val)
    (machineCount : Val → Nat) (emitted : List DocId) (s s' : Store) : Prop where
  machines : ∃ components,
    (attrPath b.clusterModel ["specification", "components"]).bind Val.asDict =
      .ok components ∧
    shownTags s' emitted = expectedTags env b.clusterModel (b.docs.map s.doc) clusterTag
      machineCount components
  inputs : ∀ id < s.next, (s'.doc id).specAttr? "tags" = (s.doc id).specAttr? "tags"

/-- On both providers a run keeps the components' machines apart. -/
theorem run_machinesApart :
    (∀ (env : Aws.Env) (b : Aws.InfrastructureBuilder) (keys : Aws.KeySource)
        (infrastructure : List DocId) (s s' : Store), (∀ id ∈ b.docs, id < s.next) →
      (∀ id ∈ b.docs, (s.doc id).KeysUnique) → b.run env keys s = .ok (infrastructure, s') →
      MachinesApart env.toBuilderEnv b.toBuilderDocs b.tagOfCluster Aws.machineCount
        infrastructure s s') ∧
    ∀ (env : BuilderEnv) (b : Azure.InfrastructureBuilder)
        (infrastructure : List Azure.Emitted) (s s' : Store), (∀ id ∈ b.docs, id < s.next) →
      (∀ id ∈ b.docs, (s.doc id).KeysUnique) → b.run env s = .ok (infrastructure, s') →
      MachinesApart env b.toBuilderDocs (b.tagOfCluster env) Azure.machineCount
        (infrastructure.map Azure.Emitted.doc) s s' := by
  constructor
  · intro env b keys infrastructure s s' hdocs hunique h
    obtain ⟨hkept, hmachines⟩ := Aws.InfrastructureBuilder.run_shows hdocs hunique h
    exact ⟨hmachines, fun id hid => (hkept.doc id hid).tags⟩
  · intro env b infrastructure s s' hdocs hunique h
    obtain ⟨hkept, hmachines⟩ := Azure.InfrastructureBuilder.run_shows hdocs hunique h
    exact ⟨hmachines, fun id hid => (hkept.doc id hid).tags⟩

/-- Two autoscaling groups and three virtual machines from one definition each. -/
theorem run_machinesApart_sample :
    (∃ infrastructure s',
      Aws.ClusterSample.sharing.run Aws.ClusterSample.env Aws.ClusterSample.keys
          Aws.ClusterSample.store = .ok (infrastructure, s') ∧
        MachinesApart Aws.ClusterSample.env.toBuilderEnv Aws.ClusterSample.sharing.toBuilderDocs
          Aws.ClusterSample.sharing.tagOfCluster Aws.machineCount infrastructure
          Aws.ClusterSample.store s') ∧
    ∃ infrastructure s',
      Azure.NetworkSample.apart.run Azure.NetworkSample.env Azure.NetworkSample.store =
          .ok (infrastructure, s') ∧
        MachinesApart Azure.NetworkSample.env Azure.NetworkSample.apart.toBuilderDocs
          (Azure.NetworkSample.apart.tagOfCluster Azure.NetworkSample.env) Azure.machineCount
          (infrastructure.map Azure.Emitted.doc) Azure.NetworkSample.store s' := by
  constructor
  · obtain ⟨⟨infrastructure, s'⟩, hrun⟩ :=
      Lib.exists_ok_of_isSome Aws.ClusterSample.run_sharing
    exact ⟨infrastructure, s', hrun, run_machinesApart.1 _ _ _ _ _ _
      (Aws.ClusterSample.docs_lt _)
      (fun id hid => (Aws.ClusterSample.docs_wellFormed _ id hid).keysUnique) hrun⟩
  · obtain ⟨⟨infrastructure, s'⟩, hrun⟩ :=
      Lib.exists_ok_of_isSome Azure.NetworkSample.run_apart
    exact ⟨infrastructure, s', hrun, run_machinesApart.2 _ _ _ _ _
      (Azure.NetworkSample.docs_lt _)
      (fun id hid => (Azure.NetworkSample.docs_wellFormed _ id hid).keysUnique) hrun⟩

end LambdaStack
