/-
# A run of the AWS builder follows its plan

The documents made before the component loop are of other kinds, and so are those
that change after it. The documents of a whole run are those of the plan.
-/

import LambdaStack.Engine.Providers.Aws.NetworkComponents

namespace LambdaStack

open Lib BuildM

namespace Aws

section

variable {env : Env} {b : InfrastructureBuilder} {fixed : Fixed} {s s' : Store}
  {ids : List DocId} {id : DocId} {requests : Requests} {p : Plan}

/-! ## Before the loop -/

/-- A document of a kind that was made or taken. -/
structure Made (kind : String) (s s' : Store) (id : DocId) : Prop where
  keep : Keeps {kind} s s'
  lt : id < s'.next
  isKind : (s'.doc id).IsKind kind

theorem made_config {kind : String} {fields : List (String × Val)}
    (hdocs : ∀ id ∈ b.docs, id < s.next) (hkind : ConfigKind kind)
    (hfields : (dictKeys fields).Nodup) (h : b.config env kind fields s = .ok (id, s')) :
    Made kind s s' id ∧ Shows fields (s'.doc id) := by
  obtain ⟨hkeep, -, hlt, hisKind, -, hread⟩ := configWith_eq_ok hdocs hkind hfields h
  exact ⟨⟨hkeep, hlt, hisKind⟩, hread⟩

theorem Made.assign {kind key : String} {value : Val} {s₁ s₂ : Store} {u : Unit}
    (h : Made kind s s₁ id) (hkind : ConfigKind kind)
    (hset : setSpecAttr id key value s₁ = .ok (u, s₂)) : Made kind s s₂ id := by
  have hassigned := assigned_setSpecAttr h.isKind (fun heq => absurd heq hkind.1) hset
  exact ⟨h.keep.trans hassigned.keep, h.lt.trans_le hassigned.keep.next, hassigned.isKind⟩

theorem made_getPublicKey {keys : KeySource} (hdocs : ∀ id ∈ b.docs, id < s.next)
    (h : b.getPublicKey env keys s = .ok (id, s')) :
    Made "infrastructure/public-key" s s' id := by
  simp only [InfrastructureBuilder.getPublicKey, BuildM.bind_eq_ok, lift_eq_ok] at h
  obtain ⟨adminName, _, ⟨-, rfl⟩, config, s₁, hconfig, keyName, _, ⟨-, rfl⟩, _, s₂, hset, path, _,
    ⟨-, rfl⟩, text, _, ⟨-, rfl⟩, h⟩ := h
  have hmade := (made_config hdocs (by decide) (by simp) hconfig).1.assign (by decide) hset
  cases hfile : env.readFile (pathJoin text (text ++ ".pub")) with
  | some content =>
      simp only [hfile, BuildM.bind_eq_ok] at h
      obtain ⟨_, s₃, hset', h⟩ := h
      obtain ⟨rfl, rfl⟩ := BuildM.pure_eq_ok.mp h
      exact hmade.assign (by decide) hset'
  | none =>
      simp only [hfile] at h
      cases h

theorem made_getRoutingTable {vpcName gatewayName : Val} (hdocs : ∀ id ∈ b.docs, id < s.next)
    (h : b.getRoutingTable env vpcName gatewayName s = .ok (id, s')) :
    Made "infrastructure/route-table" s s' id ∧
      Shows [("vpc_name", vpcName), ("name", routeTableName env b)] (s'.doc id) := by
  simp only [InfrastructureBuilder.getRoutingTable, BuildM.bind_eq_ok, lift_eq_ok] at h
  obtain ⟨routeTable, s₁, hconfig, route, _, hread, route', _, ⟨-, rfl⟩, _, s₂, hset, h⟩ := h
  obtain ⟨-, rfl⟩ := specAttr_eq_ok.mp hread
  obtain ⟨rfl, rfl⟩ := BuildM.pure_eq_ok.mp h
  obtain ⟨hmade, hshows⟩ := made_config hdocs (by decide) (by simp) hconfig
  obtain ⟨hkeep, -, hread'⟩ := setSpecAttrs_eq_ok hmade.isKind (by simp) (by simp) hset
  refine ⟨⟨hmade.keep.trans hkeep, hmade.lt.trans_le hkeep.next,
    (hkeep.isKind hmade.lt _).mpr hmade.isKind⟩, shows_of_forall ?_⟩
  simp only [List.forall_mem_cons, hread']
  exact ⟨hshows "vpc_name" _ rfl, hshows "name" _ rfl, fun _ h => absurd h List.not_mem_nil⟩

/-- The steps of a run before the component loop. -/
structure StartSteps (env : Env) (b : InfrastructureBuilder) (keys : KeySource)
    (start : InfrastructureBuilder.Start) (s s₁ s₂ s₃ s₄ s₅ s₆ s' : Store)
    (vpc resourceGroup gateway : DocId) (pool groupVpcName gatewayName : Val) : Prop where
  getsPublicKey : b.getPublicKey env keys s = .ok (start.shared.publicKeyConfig, s₁)
  getsVpc : b.config env "infrastructure/vpc" [("address_pool", pool), ("name", vpcName env b),
    ("cluster_name", .str b.clusterName)] s₁ = .ok (vpc, s₂)
  readsGroupVpcName : (s₂.doc vpc).specAttr? "name" = some groupVpcName
  getsGroup : b.config env "infrastructure/default-security-group" [("vpc_name", groupVpcName)] s₂ =
    .ok (start.defaultSecurityGroup, s₃)
  readsVpcName : (s₃.doc vpc).specAttr? "name" = some start.shared.vpcName
  getsResourceGroup : b.getResourceGroup env s₃ = .ok (resourceGroup, s₄)
  getsGateway : b.getInternetGateway env start.shared.vpcName s₄ = .ok (gateway, s₅)
  getsRouteTable : b.getRoutingTable env start.shared.vpcName gatewayName s₅ =
    .ok (start.shared.routeTable, s₆)
  getsEfs : b.getEfsConfig env s₆ = .ok (start.shared.efsConfig, s')
  readsComponents : (attrPath b.clusterModel ["specification", "components"]).bind Val.asDict =
    .ok start.components
  emits : start.infrastructure = [start.shared.publicKeyConfig, vpc,
    start.defaultSecurityGroup, resourceGroup, gateway, start.shared.routeTable]

theorem start_steps {keys : KeySource} {start : InfrastructureBuilder.Start}
    (h : b.start env keys s = .ok (start, s')) :
    ∃ s₁ s₂ s₃ s₄ s₅ s₆ vpc resourceGroup gateway pool groupVpcName gatewayName,
      StartSteps env b keys start s s₁ s₂ s₃ s₄ s₅ s₆ s' vpc resourceGroup gateway pool
        groupVpcName gatewayName := by
  simp only [InfrastructureBuilder.start, InfrastructureBuilder.getVpcConfig,
    InfrastructureBuilder.getDefaultSecurityGroupConfig, BuildM.bind_eq_ok, lift_eq_ok] at h
  obtain ⟨publicKey, s₁, hpublicKey, vpc, s₂, ⟨pool, _, ⟨-, rfl⟩, hvpc⟩, group, s₃,
    ⟨groupVpcName, _, hread, hgroup⟩, vpcName', _, hreadName, resourceGroup, s₄, hresourceGroup,
    gateway, s₅, hgateway, gatewayName, _, hgatewayName, routeTable, s₆, hrouteTable, efs, s₇,
    hefs, components, _, ⟨hcomponents, rfl⟩, entries, _, ⟨hentries, rfl⟩, hret⟩ := h
  obtain ⟨hgroupVpcName, rfl⟩ := specAttr_eq_ok.mp hread
  obtain ⟨hvpcName, rfl⟩ := specAttr_eq_ok.mp hreadName
  obtain ⟨-, rfl⟩ := specAttr_eq_ok.mp hgatewayName
  obtain ⟨rfl, rfl⟩ := BuildM.pure_eq_ok.mp hret
  exact ⟨s₁, s₂, s₃, s₄, s₅, s₆, vpc, resourceGroup, gateway, pool, groupVpcName, gatewayName,
    hpublicKey, hvpc, hgroupVpcName, hgroup, hvpcName, hresourceGroup, hgateway, hrouteTable,
    hefs, by rw [hcomponents]; exact hentries, rfl⟩

/-- A document made before the loop, its kind and what is known of it. -/
structure StartDoc where
  id : DocId
  kind : String
  fact : Val → Prop

/-- Documents of different kinds have been made before the loop, one after another. -/
structure Built (s s' : Store) (made : List StartDoc) : Prop where
  keep : Keeps {kind | kind ∈ made.map StartDoc.kind} s s'
  kinds : (made.map StartDoc.kind).Nodup
  docs : ∀ d ∈ made, d.id < s'.next ∧ (s'.doc d.id).IsKind d.kind ∧ d.fact (s'.doc d.id)

theorem Built.nil (s : Store) : Built s s [] :=
  ⟨.refl _ _, List.nodup_nil, fun _ h => absurd h List.not_mem_nil⟩

theorem Built.docs_lt {made : List StartDoc} {docs : List DocId} (h : Built s s' made)
    (hdocs : ∀ id ∈ docs, id < s.next) : ∀ id ∈ docs, id < s'.next :=
  fun id hid => (hdocs id hid).trans_le h.keep.next

/-- One more document, of a kind of which there is none yet. -/
theorem Built.append {made : List StartDoc} {s₁ s₂ : Store} {kind : String}
    (h : Built s s₁ made) (fact : Val → Prop) (hmade : Made kind s₁ s₂ id)
    (hfact : fact (s₂.doc id))
    (hnew : kind ∉ made.map StartDoc.kind) : Built s s₂ (made ++ [⟨id, kind, fact⟩]) where
  keep := by
    rw [List.map_append]
    refine (h.keep.mono fun kind hkind => ?_).trans (hmade.keep.mono fun kind hkind => ?_)
    · exact List.mem_append_left _ hkind
    · exact List.mem_append_right _ (by simpa using hkind)
  kinds := by
    rw [List.map_append, List.map_singleton, List.nodup_append]
    refine ⟨h.kinds, List.nodup_singleton _, ?_⟩
    rintro other hother _ hlast rfl
    rw [List.mem_singleton.mp hlast] at hother
    exact hnew hother
  docs d hd := by
    rcases List.mem_append.mp hd with hd | hd
    · obtain ⟨hlt, hisKind, hknown⟩ := h.docs d hd
      have hne : d.kind ∉ ({kind} : Set String) := fun heq =>
        hnew (Set.mem_singleton_iff.mp heq ▸ List.mem_map_of_mem hd)
      have hsame := hmade.keep.same hlt hisKind hne
      exact ⟨hlt.trans_le hmade.keep.next, hsame ▸ hisKind, hsame ▸ hknown⟩
    · rw [List.mem_singleton.mp hd]
      exact ⟨hmade.lt, hmade.isKind, hfact⟩

/-- A field that is not assigned is that of the user's own document, or of the default. -/
theorem Built.loaded {made : List StartDoc} {s₁ s₂ : Store} {kind : String}
    {fields : List (String × Val)} (h : Built s s₁ made) (key : String)
    (hdocs : ∀ id ∈ b.docs, id < s.next)
    (hkind : ConfigKind kind) (hfields : (dictKeys fields).Nodup) (hkey : key ∉ dictKeys fields)
    (hnew : kind ∉ made.map StartDoc.kind) (hconfig : b.config env kind fields s₁ = .ok (id, s₂)) :
    (s₂.doc id).specAttr? key = loadedPart .aws env.toBuilderEnv b.docs kind key s := by
  rw [(configWith_loaded (h.docs_lt hdocs) hkind hfields hconfig).2 key,
    lookup_eq_none_iff_not_mem_dictKeys.mpr hkey, Option.none_or,
    loadedPart_keeps hdocs h.keep hnew]

/-- What the documents before the loop show: the names they refer to, the rules of the
default security group and the mount targets of the file system. -/
def startDocs (env : Env) (b : InfrastructureBuilder) (s : Store)
    (start : InfrastructureBuilder.Start) (vpc resourceGroup gateway : DocId) : List StartDoc :=
  let loaded := fun kind key => loadedPart .aws env.toBuilderEnv b.docs kind key s
  [⟨start.shared.publicKeyConfig, "infrastructure/public-key", fun _ => True⟩,
    ⟨vpc, "infrastructure/vpc", fun x => x.specAttr? "name" = some (vpcName env b)⟩,
    ⟨start.defaultSecurityGroup, "infrastructure/default-security-group", fun x =>
      x.specAttr? "vpc_name" = some (vpcName env b) ∧
        x.specAttr? "rules" = loaded "infrastructure/default-security-group" "rules"⟩,
    ⟨resourceGroup, "infrastructure/resource-group", fun _ => True⟩,
    ⟨gateway, "infrastructure/internet-gateway", fun x =>
      x.specAttr? "vpc_name" = some (vpcName env b)⟩,
    ⟨start.shared.routeTable, "infrastructure/route-table", fun x =>
      x.specAttr? "vpc_name" = some (vpcName env b) ∧
        x.specAttr? "name" = some (routeTableName env b)⟩,
    ⟨start.shared.efsConfig, "infrastructure/efs-storage", fun x =>
      x.specAttr? "mount_targets" = loaded "infrastructure/efs-storage" "mount_targets"⟩]

/-- The documents before the loop. -/
theorem start_built {keys : KeySource} {start : InfrastructureBuilder.Start}
    (hdocs : ∀ id ∈ b.docs, id < s.next) (h : b.start env keys s = .ok (start, s')) :
    ∃ vpc resourceGroup gateway,
      Built s s' (startDocs env b s start vpc resourceGroup gateway) ∧
      start.shared.vpcName = vpcName env b ∧
      start.infrastructure = [start.shared.publicKeyConfig, vpc, start.defaultSecurityGroup,
        resourceGroup, gateway, start.shared.routeTable] ∧
      (attrPath b.clusterModel ["specification", "components"]).bind Val.asDict =
        .ok start.components := by
  obtain ⟨s₁, s₂, s₃, s₄, s₅, s₆, vpc, resourceGroup, gateway, pool, groupVpcName, gatewayName,
    hrun⟩ := start_steps h
  have h₁ := (Built.nil s).append (fun _ => True) (made_getPublicKey hdocs
    hrun.getsPublicKey) trivial (by simp)
  obtain ⟨hvpc, hvpcShows⟩ := made_config (h₁.docs_lt hdocs) (by decide) (by simp) hrun.getsVpc
  have hvpcName : (s₂.doc vpc).specAttr? "name" = some (vpcName env b) := hvpcShows "name" _ rfl
  have h₂ := h₁.append (fun x => x.specAttr? "name" = some (vpcName env b)) hvpc hvpcName
    (by simp)
  obtain rfl : groupVpcName = vpcName env b :=
    Option.some.inj (hrun.readsGroupVpcName.symm.trans hvpcName)
  obtain ⟨hgroup, hgroupShows⟩ :=
    made_config (h₂.docs_lt hdocs) (by decide) (by simp) hrun.getsGroup
  have hrules := h₂.loaded "rules" hdocs (by decide) (by simp) (by simp) (by simp)
    hrun.getsGroup
  have h₃ := h₂.append (fun x => x.specAttr? "vpc_name" = some (vpcName env b) ∧
    x.specAttr? "rules" = _) hgroup ⟨hgroupShows "vpc_name" _ rfl, hrules⟩ (by simp)
  have hvpcSame : s₃.doc vpc = s₂.doc vpc := hgroup.keep.same hvpc.lt hvpc.isKind (by decide)
  have hshared : start.shared.vpcName = vpcName env b := by
    have hread := hrun.readsVpcName
    rw [hvpcSame, hvpcName] at hread
    exact (Option.some.inj hread).symm
  have hresourceGroup :=
    (made_config (h₃.docs_lt hdocs) (by decide) (by simp) hrun.getsResourceGroup).1
  have h₄ := h₃.append (fun _ => True) hresourceGroup trivial (by simp)
  obtain ⟨hgateway, hgatewayShows⟩ :=
    made_config (h₄.docs_lt hdocs) (by decide) (by simp) hrun.getsGateway
  rw [hshared] at hgatewayShows
  have h₅ := h₄.append (fun x => x.specAttr? "vpc_name" = some (vpcName env b)) hgateway
    (hgatewayShows "vpc_name" _ rfl) (by simp)
  obtain ⟨hrouteTable, hrouteShows⟩ := made_getRoutingTable (h₅.docs_lt hdocs) hrun.getsRouteTable
  rw [hshared] at hrouteShows
  have h₆ := h₅.append (fun x => x.specAttr? "vpc_name" = some (vpcName env b) ∧
    x.specAttr? "name" = some (routeTableName env b)) hrouteTable
    ⟨hrouteShows "vpc_name" _ rfl, hrouteShows "name" _ rfl⟩ (by simp)
  have hefs := (made_config (h₆.docs_lt hdocs) (by decide) (by simp) hrun.getsEfs).1
  have htargets := h₆.loaded "mount_targets" hdocs (by decide) (by simp) (by simp)
    (by simp) hrun.getsEfs
  have h₇ := h₆.append (fun x => x.specAttr? "mount_targets" = _) hefs htargets (by simp)
  exact ⟨vpc, resourceGroup, gateway, h₇, hshared, hrun.emits, hrun.readsComponents⟩

/-- The store and the documents at the start of the component loop. -/
theorem start_represents {keys : KeySource} {start : InfrastructureBuilder.Start}
    (hdocs : ∀ id ∈ b.docs, id < s.next) (hunique : ∀ id ∈ b.docs, (s.doc id).KeysUnique)
    (h : b.start env keys s = .ok (start, s')) :
    ∃ fixed, fixed.shared = start.shared ∧ fixed.docs = b.docs.map s.doc ∧
      (∀ kind, fixed.own kind = ownDoc b.docs kind s) ∧
      (attrPath b.clusterModel ["specification", "components"]).bind Val.asDict =
        .ok start.components ∧
      (start.defaultSecurityGroup < s'.next ∧
        (s'.doc start.defaultSecurityGroup).IsKind "infrastructure/default-security-group") ∧
      Represents env b fixed s' start.infrastructure (fun _ => []) ⟨[], []⟩ := by
  obtain ⟨vpc, resourceGroup, gateway, hbuilt, hvpcName, hids, hcomponents⟩ := start_built hdocs h
  have hkeep : Keeps {kind | kind ∈ startKinds} s s' := hbuilt.keep.mono fun _ hkind => hkind
  have hsteps : List.Forall₂ (DocStep {kind | kind ∈ startKinds}) (b.docs.map s.doc)
      (b.docs.map s'.doc) := by
    rw [List.forall₂_map_left_iff, List.forall₂_map_right_iff, List.forall₂_same]
    exact fun id hid => hkeep.doc id (hdocs id hid)
  have hdoc := hbuilt.docs
  simp only [startDocs, List.forall_mem_cons] at hdoc
  obtain ⟨hpublicKey, hvpc, hgroup, hresourceGroup, hgateway, hrouteTable, hefs, -⟩ := hdoc
  have hemitted : ∀ id ∈ start.infrastructure,
      id < s'.next ∧ ∃ kind ∈ startKinds, (s'.doc id).IsKind kind := by
    rw [hids]
    simp only [List.forall_mem_cons]
    exact ⟨⟨hpublicKey.1, _, by decide, hpublicKey.2.1⟩, ⟨hvpc.1, _, by decide, hvpc.2.1⟩,
      ⟨hgroup.1, _, by decide, hgroup.2.1⟩, ⟨hresourceGroup.1, _, by decide, hresourceGroup.2.1⟩,
      ⟨hgateway.1, _, by decide, hgateway.2.1⟩, ⟨hrouteTable.1, _, by decide, hrouteTable.2.1⟩,
      fun _ h => absurd h List.not_mem_nil⟩
  exact ⟨⟨start.shared, b.docs.map s.doc, fun kind => ownDoc b.docs kind s⟩, rfl, rfl,
    fun _ => rfl, hcomponents, ⟨hgroup.1, hgroup.2.1⟩, {
      docs := hbuilt.docs_lt hdocs
      unique := fun id hid => (hkeep.doc id (hdocs id hid)).unique (hunique id hid)
      allocated := fun id hid => (hemitted id hid).1
      own := fun kind => hkeep.ownDoc_eq hdocs kind
      security := fun machineSelector => machineSecurity_congr hsteps _ machineSelector
      vpcName := hvpcName
      routeTable := hrouteTable.1
      routeTableKind := hrouteTable.2.1
      routeTableName := hrouteTable.2.2.2
      efsConfig := hefs.1
      efsKind := hefs.2.1
      ledger := fun k => .nil _ _ _ fun id hid hkind => by
        obtain ⟨-, kind, hmem, hisKind⟩ := hemitted id hid
        cases hisKind.symm.trans hkind
        exact kind_notMem_startKinds k hmem
      subnets := rfl
      groups := rfl
      associations := rfl
      launches := rfl
      machines := rfl
      copies := fun _ h => absurd h List.not_mem_nil
      pools := fun _ h => absurd h List.not_mem_nil
      securities := fun _ h => absurd h List.not_mem_nil }⟩

/-! ## After the loop -/

/-- The kinds of the documents that are made or change after the loop. -/
def efsKinds : Set String :=
  {"infrastructure/security-group-rule", "infrastructure/default-security-group"}

theorem kind_notMem_efsKinds (k : Requested) : k.kind ∉ efsKinds := by
  cases k <;> simp [efsKinds, Requested.kind, vmKind]

theorem addNfsRule_keeps {infrastructure added added' : List DocId} {own : List Val}
    {subnetName : Val} (hdocs : ∀ id ∈ b.docs, id < s.next)
    (h : b.addNfsRule env infrastructure own added subnetName s = .ok (added', s')) :
    Keeps {"infrastructure/security-group-rule"} s s' := by
  simp only [InfrastructureBuilder.addNfsRule, BuildM.bind_eq_ok, lift_eq_ok] at h
  obtain ⟨subnet, _, hsubnet, cidrBlock, _, hcidr, specs, _, hspecs, found, _, ⟨-, rfl⟩, h⟩ := h
  obtain ⟨-, rfl⟩ := reads_eq_ok.mp hsubnet
  obtain ⟨-, rfl⟩ := specAttr_eq_ok.mp hcidr
  obtain ⟨-, rfl⟩ := reads_eq_ok.mp hspecs
  cases found with
  | some _ =>
      obtain ⟨-, rfl⟩ := BuildM.pure_eq_ok.mp h
      exact .refl _ _
  | none =>
      simp only [BuildM.bind_eq_ok, lift_eq_ok] at h
      obtain ⟨name, _, hname, _, _, ⟨-, rfl⟩, _, _, ⟨-, rfl⟩, rule, _, hconfig, h⟩ := h
      obtain ⟨-, rfl⟩ := specAttr_eq_ok.mp hname
      obtain ⟨-, rfl⟩ := BuildM.pure_eq_ok.mp h
      exact (made_config hdocs (by decide) (by simp) hconfig).1.keep

theorem addNfsRules_keeps {infrastructure added added' : List DocId} {own subnetNames : List Val}
    (hdocs : ∀ id ∈ b.docs, id < s.next)
    (h : b.addNfsRules env infrastructure own added subnetNames s = .ok (added', s')) :
    Keeps {"infrastructure/security-group-rule"} s s' := by
  induction subnetNames generalizing s added with
  | nil =>
      obtain ⟨-, rfl⟩ := BuildM.pure_eq_ok.mp h
      exact .refl _ _
  | cons subnetName rest ih =>
      obtain ⟨added₁, s₁, hfirst, hrest⟩ := BuildM.bind_eq_ok.mp h
      have hkeep := addNfsRule_keeps hdocs hfirst
      exact hkeep.trans (ih (fun id hid => (hdocs id hid).trans_le hkeep.next) hrest)

theorem addNfsRulesOf_keeps {infrastructure added added' groups : List DocId} {own : List Val}
    (hdocs : ∀ id ∈ b.docs, id < s.next)
    (h : b.addNfsRulesOf env infrastructure own added groups s = .ok (added', s')) :
    Keeps {"infrastructure/security-group-rule"} s s' := by
  induction groups generalizing s added with
  | nil =>
      obtain ⟨-, rfl⟩ := BuildM.pure_eq_ok.mp h
      exact .refl _ _
  | cons group rest ih =>
      simp only [InfrastructureBuilder.addNfsRulesOf, BuildM.bind_eq_ok, lift_eq_ok] at h
      obtain ⟨names, _, hnames, _, _, ⟨-, rfl⟩, added₁, s₁, hfirst, hrest⟩ := h
      obtain ⟨-, rfl⟩ := specAttr_eq_ok.mp hnames
      have hkeep := addNfsRules_keeps hdocs hfirst
      exact hkeep.trans (ih (fun id hid => (hdocs id hid).trans_le hkeep.next) hrest)

/-- The rules are made one after another, and then assigned. -/
theorem addSecurityRulesInboundEfs_assigned {infrastructure : List DocId} {securityGroup : DocId}
    {u : Unit} (hdocs : ∀ id ∈ b.docs, id < s.next)
    (h : b.addSecurityRulesInboundEfs env infrastructure securityGroup s = .ok (u, s')) :
    ∃ s₁ rules, Keeps {"infrastructure/security-group-rule"} s s₁ ∧
      setSpecAttr securityGroup "rules" rules s₁ = .ok (u, s') := by
  simp only [InfrastructureBuilder.addSecurityRulesInboundEfs, BuildM.bind_eq_ok, lift_eq_ok] at h
  obtain ⟨groups, _, hgroups, own, _, hown, _, _, ⟨-, rfl⟩, added, s₁, hadd, specs, _, hspecs,
    hset⟩ := h
  obtain ⟨-, rfl⟩ := reads_eq_ok.mp hgroups
  obtain ⟨-, rfl⟩ := specAttr_eq_ok.mp hown
  obtain ⟨-, rfl⟩ := reads_eq_ok.mp hspecs
  exact ⟨s₁, _, addNfsRulesOf_keeps hdocs hadd, hset⟩

theorem addSecurityRulesInboundEfs_keeps {infrastructure : List DocId} {securityGroup : DocId}
    {u : Unit} (hdocs : ∀ id ∈ b.docs, id < s.next) (hlt : securityGroup < s.next)
    (hkind : (s.doc securityGroup).IsKind "infrastructure/default-security-group")
    (h : b.addSecurityRulesInboundEfs env infrastructure securityGroup s = .ok (u, s')) :
    Keeps efsKinds s s' := by
  obtain ⟨s₁, rules, hkeep, hset⟩ := addSecurityRulesInboundEfs_assigned hdocs h
  exact (hkeep.mono (by simp [efsKinds])).trans (setSpecAttr_keeps
    ((hkeep.isKind hlt _).mpr hkind) (by simp [efsKinds]) (by decide) hset)

/-- The file system is emitted with its rules, or not at all. -/
theorem addEfs_cases {efsConfig defaultSecurityGroup : DocId} {emitted : List DocId}
    (h : b.addEfs env efsConfig defaultSecurityGroup ids s = .ok (emitted, s')) :
    (emitted = ids ∧ s' = s) ∨ (emitted = ids ++ [efsConfig] ∧
      b.addSecurityRulesInboundEfs env emitted defaultSecurityGroup s = .ok ((), s')) := by
  simp only [InfrastructureBuilder.addEfs, InfrastructureBuilder.hasEfsAnyMounts,
    BuildM.bind_eq_ok, lift_eq_ok] at h
  obtain ⟨mounts, _, ⟨targets, _, hread, _, _, ⟨-, rfl⟩, hmounts⟩, h⟩ := h
  obtain ⟨-, rfl⟩ := specAttr_eq_ok.mp hread
  obtain ⟨rfl, rfl⟩ := BuildM.pure_eq_ok.mp hmounts
  split at h
  · obtain ⟨_, s₁, hrules, hret⟩ := BuildM.bind_eq_ok.mp h
    obtain ⟨rfl, rfl⟩ := BuildM.pure_eq_ok.mp hret
    exact Or.inr ⟨rfl, hrules⟩
  · obtain ⟨rfl, rfl⟩ := BuildM.pure_eq_ok.mp h
    exact Or.inl ⟨rfl, rfl⟩

/-- What is emitted after the loop is no document of a component. -/
theorem Represents.addEfs (h : Represents env b fixed s ids requests p)
    {defaultSecurityGroup : DocId} {emitted : List DocId} (hlt : defaultSecurityGroup < s.next)
    (hkind : (s.doc defaultSecurityGroup).IsKind "infrastructure/default-security-group")
    (hrun : b.addEfs env fixed.shared.efsConfig defaultSecurityGroup ids s =
      .ok (emitted, s')) : Keeps efsKinds s s' ∧ Represents env b fixed s' emitted requests p := by
  rcases addEfs_cases hrun with ⟨rfl, rfl⟩ | ⟨rfl, hrules⟩
  · exact ⟨.refl _ _, h⟩
  · have hkeep := addSecurityRulesInboundEfs_keeps h.docs hlt hkind hrules
    have hkept := h.keeps hkeep kind_notMem_efsKinds (by simp [efsKinds])
    refine ⟨hkeep, hkept.append_other hkept.efsConfig fun k hk => ?_⟩
    cases k <;> simpa [Requested.kind, vmKind] using hkept.efsKind.symm.trans hk

/-- The documents a run emits for the components are those of the plan, and each shows
what the plan says. -/
theorem InfrastructureBuilder.run_represents {keys : KeySource} {infrastructure : List DocId}
    (hdocs : ∀ id ∈ b.docs, id < s.next) (hunique : ∀ id ∈ b.docs, (s.doc id).KeysUnique)
    (h : b.run env keys s = .ok (infrastructure, s')) :
    ∃ fixed components requests, fixed.docs = b.docs.map s.doc ∧
      (∀ kind, fixed.own kind = ownDoc b.docs kind s) ∧
      (attrPath b.clusterModel ["specification", "components"]).bind Val.asDict =
        .ok components ∧
      Represents env b fixed s' infrastructure requests (plan fixed.replaced components) := by
  simp only [InfrastructureBuilder.run, BuildM.bind_eq_ok] at h
  obtain ⟨start, s₁, hstart, emitted, s₂, hloop, hefs⟩ := h
  obtain ⟨fixed, hshared, hfixed, hown, hcomponents, ⟨hlt, hkind⟩, h₁⟩ :=
    start_represents hdocs hunique hstart
  rw [← hshared] at hloop hefs
  obtain ⟨requests, hkeep, h₂⟩ := h₁.buildComponents hloop
  obtain ⟨-, h₃⟩ :=
    h₂.addEfs (hlt.trans_le hkeep.next) ((hkeep.isKind hlt _).mpr hkind) hefs
  exact ⟨fixed, start.components, requests, hfixed, hown, hcomponents, h₃⟩

end

end Aws

end LambdaStack
