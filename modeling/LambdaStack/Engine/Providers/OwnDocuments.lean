/-
# A document of its own for every request

A builder that finds a document of the user for a kind hands this very document out
each time, and each getter then assigns its fields to it. Whatever the provider, the
emitted documents therefore show what was computed for their own component and index
exactly where no kind the user has a document of is requested with different fields.
-/

import LambdaStack.Engine.Providers.Aws.OwnDocuments
import LambdaStack.Engine.Providers.Azure.OwnDocuments
import LambdaStack.Engine.Providers.Azure.SecurityGroups

namespace LambdaStack

open Lib BuildM

/-- On both providers every document is its own exactly where the requests for a replaced
kind compute the same fields. -/
theorem run_everyRequestOwn_iff (s : Store) :
    (∀ (env : Aws.Env) (b : Aws.InfrastructureBuilder) (keys : Aws.KeySource)
        (infrastructure : List DocId) (s' : Store), (∀ id ∈ b.docs, id < s.next) →
      (∀ id ∈ b.docs, (s.doc id).KeysUnique) → b.clusterModel.WellFormed →
      b.run env keys s = .ok (infrastructure, s') →
      ∃ components,
        (attrPath b.clusterModel ["specification", "components"]).bind Val.asDict =
          .ok components ∧
        (Aws.OwnDocuments env b s' components infrastructure ↔
          Aws.RequestedAlike env b s components)) ∧
    ∀ (env : BuilderEnv) (b : Azure.InfrastructureBuilder)
        (infrastructure : List Azure.Emitted) (s' : Store), (∀ id ∈ b.docs, id < s.next) →
      (∀ id ∈ b.docs, (s.doc id).KeysUnique) → b.clusterModel.WellFormed →
      b.run env s = .ok (infrastructure, s') →
      ∃ components, Azure.componentsOf b.clusterModel = .ok components ∧
        (Azure.Emission.OwnDocuments env b (b.docs.map s.doc) components s'
            (infrastructure.map Azure.Emitted.doc) ↔
          Azure.Emission.RequestedAlike env b (b.docs.map s.doc) components) := by
  constructor
  · intro env b keys infrastructure s' hdocs hunique hwf h
    exact Aws.run_ownDocuments_iff hdocs hunique hwf h
  · intro env b infrastructure s' hdocs hunique hwf h
    exact Azure.Emission.run_ownDocuments_iff hdocs hunique hwf h

/-! ## A subnet of the user for two address pools -/

namespace Aws.ClusterSample

/-- The input documents with a subnet of the user. -/
def subnetStore : Store := store.alloc (defaultDoc "infrastructure/subnet")

/-- Two components in two address pools, with a subnet of the user. -/
def replacing : InfrastructureBuilder := { sharing with docs := [0, 1, 2] }

theorem replacing_docs_lt : ∀ id ∈ replacing.docs, id < subnetStore.next := by
  simp [replacing, subnetStore, store]

theorem replacing_docs_wellFormed : ∀ id ∈ replacing.docs, (subnetStore.doc id).WellFormed := by
  simp [replacing, subnetStore, store, Store.alloc, machine, rule, defaultDoc]

theorem replacing_clusterModel_wellFormed : replacing.clusterModel.WellFormed := by
  simp [replacing, sharing, builder, clusterModel, component]

theorem run_replacing : (replacing.run env keys subnetStore).toOption.isSome = true := by
  decide +kernel

theorem replacing_not_alike {components : Entries}
    (hcomponents : (attrPath replacing.clusterModel ["specification", "components"]).bind
      Val.asDict = .ok components) :
    ¬ RequestedAlike env replacing subnetStore components := by
  intro halike
  cases hcomponents
  have heq := congrArg (List.lookup "cidr_block") (halike .subnet (by decide)
    ⟨2, by simp [replacing], rfl⟩
    ⟨"kafka", 0, .str "10.1.1.0/24", .str "eu-west-1a"⟩ (.head _)
    ⟨"kafka", 1, .str "10.1.2.0/24", .str "eu-west-1a"⟩ (.tail _ (.head _)))
  have hpool : Val.str "10.1.1.0/24" = .str "10.1.2.0/24" := Option.some.inj heq
  simp [Val.str] at hpool

end Aws.ClusterSample

open Aws.ClusterSample in
/-- A subnet of the user for two address pools is emitted for both with the fields of the
second. -/
theorem run_subnet_overwritten :
    ∃ infrastructure s', replacing.run env keys subnetStore = .ok (infrastructure, s') ∧
      ∃ components,
        (attrPath replacing.clusterModel ["specification", "components"]).bind Val.asDict =
          .ok components ∧
        ¬ Aws.OwnDocuments env replacing s' components infrastructure := by
  obtain ⟨⟨infrastructure, s'⟩, hrun⟩ := Lib.exists_ok_of_isSome run_replacing
  obtain ⟨components, hcomponents, hiff⟩ := Aws.run_ownDocuments_iff replacing_docs_lt
    (fun id hid => (replacing_docs_wellFormed id hid).keysUnique)
    replacing_clusterModel_wellFormed hrun
  exact ⟨infrastructure, s', hrun, components, hcomponents,
    fun hown => replacing_not_alike hcomponents (hiff.mp hown)⟩

open Aws.ClusterSample in
/-- The exact condition for the same cluster, and for one on Azure where the user replaces
nothing. -/
theorem run_everyRequestOwn_iff_sample :
    (∃ infrastructure s', replacing.run env keys subnetStore = .ok (infrastructure, s') ∧
      ∃ components,
        (attrPath replacing.clusterModel ["specification", "components"]).bind Val.asDict =
          .ok components ∧
        (Aws.OwnDocuments env replacing s' components infrastructure ↔
          Aws.RequestedAlike env replacing subnetStore components)) ∧
    ∃ infrastructure s',
      Azure.NetworkSample.apart.run Azure.NetworkSample.env Azure.NetworkSample.store =
          .ok (infrastructure, s') ∧
      ∃ components, Azure.componentsOf Azure.NetworkSample.apart.clusterModel = .ok components ∧
        (Azure.Emission.OwnDocuments Azure.NetworkSample.env Azure.NetworkSample.apart
            (Azure.NetworkSample.apart.docs.map Azure.NetworkSample.store.doc) components s'
            (infrastructure.map Azure.Emitted.doc) ↔
          Azure.Emission.RequestedAlike Azure.NetworkSample.env Azure.NetworkSample.apart
            (Azure.NetworkSample.apart.docs.map Azure.NetworkSample.store.doc) components) := by
  constructor
  · obtain ⟨⟨infrastructure, s'⟩, hrun⟩ := Lib.exists_ok_of_isSome run_replacing
    exact ⟨infrastructure, s', hrun, (run_everyRequestOwn_iff subnetStore).1 _ _ _ _ _
      replacing_docs_lt
      (fun id hid => (replacing_docs_wellFormed id hid).keysUnique)
      replacing_clusterModel_wellFormed hrun⟩
  · obtain ⟨⟨infrastructure, s'⟩, hrun⟩ := Lib.exists_ok_of_isSome Azure.NetworkSample.run_apart
    exact ⟨infrastructure, s', hrun, (run_everyRequestOwn_iff _).2 _ _ _ _
      (Azure.NetworkSample.docs_lt _)
      (fun id hid => (Azure.NetworkSample.docs_wellFormed _ id hid).keysUnique)
      (by simp [Azure.NetworkSample.apart, Azure.NetworkSample.builder,
        Azure.NetworkSample.clusterModel, Azure.NetworkSample.component]) hrun⟩

end LambdaStack
