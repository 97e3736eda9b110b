/-
# The network documents of a run

What the emitted network documents show, read off the store at the end of a run
of the Azure builder, is the network plan of the active components: `run`
refines the plan. The invariant relates the loop's infrastructure to the
components that have brought an address pool so far.
-/

import LambdaStack.Engine.Providers.Azure.InfrastructureBuilder
import LambdaStack.Engine.Providers.Azure.NetworkPlan
import LambdaStack.Engine.Providers.DocFrame

namespace LambdaStack

open Lib BuildM

namespace Azure

variable {env : BuilderEnv}

abbrev subnetKind : String := "infrastructure/subnet"
abbrev groupKind : String := "infrastructure/network-security-group"
abbrev associationKind : String := "infrastructure/subnet-network-security-group-association"
abbrev interfaceKind : String := "infrastructure/network-interface"

/-- The kinds the plan is about. -/
def networkKinds : Set String := {subnetKind, groupKind, associationKind, interfaceKind}

theorem mem_networkKinds {kind : String} :
    kind ∈ networkKinds ↔ kind = subnetKind ∨ kind = groupKind ∨ kind = associationKind ∨
      kind = interfaceKind := Iff.rfl

theorem vmKind_notMem : vmKind ∉ networkKinds := by
  rw [mem_networkKinds]
  decide

theorem configKind_of_mem {kind : String} (h : kind ∈ networkKinds) : ConfigKind kind := by
  rcases mem_networkKinds.mp h with rfl | rfl | rfl | rfl <;> decide

/-! ## What emitted documents show -/

/-- Two fields of a document's specification. -/
def specPair (first second : String) (x : Val) : Option Val × Option Val :=
  (x.specAttr? first, x.specAttr? second)

/-- What the emitted documents of a kind show, by component. -/
def shows (kind first second : String) (s : Store) (infrastructure : List Emitted) :
    List (Option String × Option Val × Option Val) :=
  (infrastructure.filter fun e => Holds? (kindIs kind (s.doc e.doc))).map fun e =>
    (e.component, specPair first second (s.doc e.doc))

/-- Steps on other kinds change nothing that is shown. -/
theorem shows_congr {changing : Set String} {s s' : Store} {kind : String}
    {infrastructure : List Emitted} (hkeep : Keeps changing s s') (hout : kind ∉ changing)
    (halloc : ∀ e ∈ infrastructure, e.doc < s.next) (first second : String) :
    shows kind first second s' infrastructure = shows kind first second s infrastructure := by
  have hfilter : infrastructure.filter (fun e => Holds? (kindIs kind (s'.doc e.doc))) =
      infrastructure.filter fun e => Holds? (kindIs kind (s.doc e.doc)) :=
    List.filter_congr fun e he => holds?_kindIs_congr (hkeep.doc _ (halloc e he)).kind kind
  unfold shows
  rw [hfilter]
  refine List.map_congr_left fun e he => ?_
  obtain ⟨hmem, hkind⟩ := List.mem_filter.mp he
  rw [hkeep.same (halloc e hmem) (holds?_kindIs.mp hkind) hout]

theorem shows_append_other {s : Store} {kind : String} {infrastructure : List Emitted}
    {e : Emitted} (hkind : ¬ (s.doc e.doc).IsKind kind) (first second : String) :
    shows kind first second s (infrastructure ++ [e]) =
      shows kind first second s infrastructure := by
  have hholds : Holds? (kindIs kind (s.doc e.doc)) = false := by
    rw [← Bool.not_eq_true, holds?_kindIs]
    exact hkind
  simp [shows, hholds]

/-- Emitting a document of a kind: a new one is added, and the user's own is
shown as it is now wherever it was emitted before. -/
theorem shows_append {docs : List DocId} {s s' : Store} {kind : String} {id : DocId}
    {infrastructure : List Emitted} (hkeep : Keeps {kind} s s') (hframe : s.Frame {id} s')
    (hkind : (s'.doc id).IsKind kind)
    (hown : match ownDoc docs kind s with
      | some own => id = own
      | none => s.next ≤ id)
    (halloc : ∀ e ∈ infrastructure, e.doc < s.next)
    (hshared : ∀ e ∈ infrastructure, (s.doc e.doc).IsKind kind →
      ∀ own, ownDoc docs kind s = some own → e.doc = own)
    (component : Option String) (first second : String) :
    shows kind first second s' (infrastructure ++ [⟨id, component⟩]) =
      emit (ownDoc docs kind s).isSome (shows kind first second s infrastructure)
        (component, specPair first second (s'.doc id)) := by
  have hfilter : infrastructure.filter (fun e => Holds? (kindIs kind (s'.doc e.doc))) =
      infrastructure.filter fun e => Holds? (kindIs kind (s.doc e.doc)) :=
    List.filter_congr fun e he => holds?_kindIs_congr (hkeep.doc _ (halloc e he)).kind kind
  rw [shows, List.filter_append, List.map_append, hfilter, emit, shows]
  simp only [List.filter_singleton, holds?_kindIs.mpr hkind, cond_true, List.map_singleton]
  congr 1
  cases hdoc : ownDoc docs kind s with
  | none =>
      rw [hdoc] at hown
      simp only [Option.isSome_none, Bool.false_eq_true, if_false]
      refine List.map_congr_left fun e he => ?_
      have hlt := halloc e (List.mem_filter.mp he).1
      rw [hframe.2 _ hlt]
      exact fun heq => absurd hlt (by rw [Set.mem_singleton_iff.mp heq]; exact Nat.not_lt.mpr hown)
  | some own =>
      rw [hdoc] at hown
      simp only [Option.isSome_some, if_true, List.map_map]
      refine List.map_congr_left fun e he => ?_
      obtain ⟨hmem, hisKind⟩ := List.mem_filter.mp he
      rw [hshared e hmem (holds?_kindIs.mp hisKind) own hdoc, ← hown]
      rfl

/-! ## The invariant of the component loop -/

/-- An active component, as far as the network depends on it. -/
structure NetComponent where
  key : String
  addressPool : Val
  count : Nat
  rules : Option Val

/-- `item.specification.address_prefix == subnet_definition['address_pool']`. -/
def samePool (x c : NetComponent) : Bool := x.addressPool.pyEq c.addressPool

/-- The network part of a component, if it has machines. -/
def netComponent (env : BuilderEnv) (clusterModel : Val) (docs : List Val)
    (component : String × Val) : Res (Option NetComponent) := do
  let vmCount ← component.2.getItem "count"
  let inactive ← vmCount.ltOne
  if inactive then .ok none
  else do
    let machine ← component.2.getAttr "machine"
    let addressPool ← InfrastructureBuilder.addressPoolOf component.2
    let vmCount ← vmCount.asInt
    .ok (some ⟨component.1, addressPool, vmCount.toNat,
      (machineSecurity env clusterModel docs machine).bind (·.attr? "rules")⟩)

/-- The active components in the order of the cluster model. -/
def activeComponents (env : BuilderEnv) (clusterModel : Val) (docs : List Val) :
    Entries → Res (List NetComponent)
  | [] => .ok []
  | component :: rest => do
      let c ← netComponent env clusterModel docs component
      let cs ← activeComponents env clusterModel docs rest
      .ok (c.toList ++ cs)

/-- The network documents the user replaces. -/
def replacedIn (docs : List DocId) (s : Store) : Replaced where
  subnet := (ownDoc docs subnetKind s).isSome
  group := (ownDoc docs groupKind s).isSome
  association := (ownDoc docs associationKind s).isSome
  interface := (ownDoc docs interfaceKind s).isSome

theorem replacedIn_keeps {changing : Set String} {s s' : Store} {docs : List DocId}
    (h : Keeps changing s s') (hdocs : ∀ id ∈ docs, id < s.next) :
    replacedIn docs s' = replacedIn docs s := by
  simp only [replacedIn, h.ownDoc_eq hdocs]

section

variable (env : BuilderEnv) (b : InfrastructureBuilder)

/-- The names a component's documents get. -/
def subnetName (c : NetComponent) : Option Val := some (b.indexed env "subnet" 0 c.key)

def groupName (c : NetComponent) : Option Val := some (b.indexed env "nsg" 0 c.key)

/-- What the documents created for a component show. -/
def subnetFields (c : NetComponent) : Option Val × Option Val :=
  (subnetName env b c, some c.addressPool)

def groupFields (c : NetComponent) : Option Val × Option Val := (groupName env b c, c.rules)

def associationFields (c : NetComponent) : Option Val × Option Val :=
  (subnetName env b c, groupName env b c)

def interfaceFields (p : Placement NetComponent) : Option Val × Option Val :=
  (subnetName env b p.owner, groupName env b p.group)

/-- What a loop variable for a group refers to. -/
def NamesGroup (s : Store) (nsg : Option DocId) (last : Option NetComponent) : Prop :=
  ∀ c, last = some c → ∃ id, nsg = some id ∧ id < s.next ∧ (s.doc id).IsKind groupKind ∧
    (s.doc id).specAttr? "name" = groupName env b c

end

section

variable (b : InfrastructureBuilder)

/-- The documents of the loop are allocated, and where the user replaces a kind
every emitted document of the kind is the user's own. -/
structure Tracked (replaced : Replaced) (s : Store) (infrastructure : List Emitted) : Prop where
  docs : ∀ id ∈ b.docs, id < s.next
  unique : ∀ id ∈ b.docs, (s.doc id).KeysUnique
  allocated : ∀ e ∈ infrastructure, e.doc < s.next
  shared : ∀ e ∈ infrastructure, ∀ kind ∈ networkKinds, (s.doc e.doc).IsKind kind →
    ∀ own, ownDoc b.docs kind s = some own → e.doc = own
  replacedIn_eq : replacedIn b.docs s = replaced

variable (env : BuilderEnv)

/-- The store and the loop variables after the components in `seen` have brought
their address pools and the interfaces in `placed` were emitted. -/
structure Represents (replaced : Replaced) (s : Store) (p : Progress) (seen : List NetComponent)
    (placed : List (Placement NetComponent)) : Prop
    extends Tracked b replaced s p.infrastructure where
  subnets : shows subnetKind "name" "address_prefix" s p.infrastructure =
    expose replaced.subnet (seen.map fun c => (some c.key, subnetFields env b c))
  groups : shows groupKind "name" "rules" s p.infrastructure =
    expose replaced.group (seen.map fun c => (some c.key, groupFields env b c))
  associations : shows associationKind "subnet_name" "security_group_name" s p.infrastructure =
    expose replaced.association (seen.map fun c => (some c.key, associationFields env b c))
  interfaces : shows interfaceKind "subnet_name" "security_group_name" s p.infrastructure =
    expose replaced.interface
      (placed.map fun p => (some p.component.key, interfaceFields env b p))
  nsg : NamesGroup env b s p.nsg seen.getLast?

end

section

variable {b : InfrastructureBuilder} {replaced : Replaced} {s s' : Store} {p : Progress}
  {seen : List NetComponent} {placed : List (Placement NetComponent)} {id : DocId}
  {infrastructure : List Emitted}

/-! ### Steps on documents of other kinds -/

theorem Tracked.keeps (h : Tracked b replaced s infrastructure) {changing : Set String}
    (hkeep : Keeps changing s s') : Tracked b replaced s' infrastructure where
  docs id hid := (h.docs id hid).trans_le hkeep.next
  unique id hid := (hkeep.doc id (h.docs id hid)).unique (h.unique id hid)
  allocated e he := (h.allocated e he).trans_le hkeep.next
  shared e he kind hkind hisKind own hown := by
    rw [hkeep.ownDoc_eq h.docs] at hown
    exact h.shared e he kind hkind ((hkeep.isKind (h.allocated e he) kind).mp hisKind) own hown
  replacedIn_eq := by rw [replacedIn_keeps hkeep h.docs, h.replacedIn_eq]

/-- Appending a document that is the user's own where the user replaces it. -/
theorem Tracked.append (h : Tracked b replaced s infrastructure) (hlt : id < s.next)
    (hown : ∀ kind ∈ networkKinds, (s.doc id).IsKind kind →
      ∀ own, ownDoc b.docs kind s = some own → id = own) (component : Option String) :
    Tracked b replaced s (infrastructure ++ [⟨id, component⟩]) where
  docs := h.docs
  unique := h.unique
  allocated e he := by
    rcases List.mem_append.mp he with he | he
    · exact h.allocated e he
    · rw [List.mem_singleton.mp he]
      exact hlt
  shared e he := by
    rcases List.mem_append.mp he with he | he
    · exact h.shared e he
    · rw [List.mem_singleton.mp he]
      exact hown
  replacedIn_eq := h.replacedIn_eq

theorem NamesGroup.keeps {nsg : Option DocId} {last : Option NetComponent}
    (h : NamesGroup env b s nsg last) {changing : Set String} (hkeep : Keeps changing s s')
    (hout : groupKind ∉ changing) : NamesGroup env b s' nsg last := by
  intro c hc
  obtain ⟨id, hnsg, hlt, hkind, hname⟩ := h c hc
  have hsame := hkeep.same hlt hkind hout
  exact ⟨id, hnsg, hlt.trans_le hkeep.next, hsame ▸ hkind, hsame ▸ hname⟩

theorem Represents.keeps (h : Represents b env replaced s p seen placed) {changing : Set String}
    (hkeep : Keeps changing s s') (hout : ∀ kind ∈ networkKinds, kind ∉ changing) :
    Represents b env replaced s' p seen placed where
  toTracked := h.toTracked.keeps hkeep
  subnets := by
    rw [shows_congr hkeep (hout _ (by simp [networkKinds])) h.allocated, h.subnets]
  groups := by
    rw [shows_congr hkeep (hout _ (by simp [networkKinds])) h.allocated, h.groups]
  associations := by
    rw [shows_congr hkeep (hout _ (by simp [networkKinds])) h.allocated, h.associations]
  interfaces := by
    rw [shows_congr hkeep (hout _ (by simp [networkKinds])) h.allocated, h.interfaces]
  nsg := h.nsg.keeps hkeep (hout _ (by simp [networkKinds]))

theorem Represents.append (h : Represents b env replaced s p seen placed) {kind : String}
    (hlt : id < s.next) (hkind : (s.doc id).IsKind kind) (hout : kind ∉ networkKinds)
    (component : Option String) :
    Represents b env replaced s (p.append id component) seen placed := by
  have hnot : ∀ other ∈ networkKinds, ¬ (s.doc id).IsKind other := by
    intro other hother hisOther
    cases hkind.symm.trans hisOther
    exact hout hother
  exact {
    toTracked := h.toTracked.append hlt
      (fun other hother hisOther => absurd hisOther (hnot other hother)) component
    subnets := by
      rw [Progress.append, shows_append_other (hnot _ (by simp [networkKinds])), h.subnets]
    groups := by
      rw [Progress.append, shows_append_other (hnot _ (by simp [networkKinds])), h.groups]
    associations := by
      rw [Progress.append, shows_append_other (hnot _ (by simp [networkKinds])),
        h.associations]
    interfaces := by
      rw [Progress.append, shows_append_other (hnot _ (by simp [networkKinds])), h.interfaces]
    nsg := h.nsg }

/-! ### Emitting a network document -/

/-- The document `configWith` returns, appended to the infrastructure: it is
shown with its fields, and what the other kinds show is unchanged. -/
theorem Tracked.emit (h : Tracked b replaced s infrastructure) {kind : String}
    {fields : List (String × Val)}
    (hkind : kind ∈ networkKinds) (hfields : (dictKeys fields).Nodup)
    (hrun : configWith .azure env b.docs kind fields s = .ok (id, s')) (component : Option String) :
    Keeps {kind} s s' ∧ id < s'.next ∧ (s'.doc id).IsKind kind ∧
      (∀ key value, fields.lookup key = some value →
        (s'.doc id).specAttr? key = some value) ∧
      Tracked b replaced s' (infrastructure ++ [⟨id, component⟩]) ∧
      (∀ first second, shows kind first second s' (infrastructure ++ [⟨id, component⟩]) =
        Azure.emit (ownDoc b.docs kind s).isSome (shows kind first second s infrastructure)
          (component, specPair first second (s'.doc id))) ∧
      ∀ other first second, other ≠ kind →
        shows other first second s' (infrastructure ++ [⟨id, component⟩]) =
          shows other first second s infrastructure := by
  have hvm : ConfigKind kind := configKind_of_mem hkind
  obtain ⟨hkeep, hframe, hlt, hisKind, hown, hread⟩ := configWith_eq_ok h.docs hvm hfields hrun
  refine ⟨hkeep, hlt, hisKind, hread, (h.keeps hkeep).append hlt ?_ component, ?_, ?_⟩
  · intro other _ hisOther own hdoc
    cases hisKind.symm.trans hisOther
    rw [hkeep.ownDoc_eq h.docs] at hdoc
    rw [hdoc] at hown
    exact hown
  · exact shows_append hkeep hframe hisKind hown h.allocated
      (fun e he hisOther => h.shared e he kind hkind hisOther) component
  · intro other first second hne
    have hnot : ¬ (s'.doc id).IsKind other := by
      intro hisOther
      cases hisKind.symm.trans hisOther
      exact hne rfl
    rw [shows_append_other hnot, shows_congr hkeep (by simpa using hne) h.allocated]

theorem holds?_isSubnetOf (addressPool x : Val) :
    Holds? (isSubnetOf addressPool x) =
      (Holds? (kindIs subnetKind x) &&
        match (specPair "name" "address_prefix" x).2 with
        | some own => own.pyEq addressPool
        | none => false) := by
  unfold isSubnetOf
  cases hkind : kindIs subnetKind x with
  | error e => rfl
  | ok answer =>
      cases answer with
      | false => rfl
      | true =>
          simp only [ok_bind, if_true, Holds?, Bool.true_and, specPair, Val.specAttr?, attrPath,
            List.foldlM_cons, List.foldlM_nil, Val.getAttr]
          cases hspec : x.attr? "specification" with
          | none => rfl
          | some spec =>
              cases hpool : spec.attr? "address_prefix" with
              | none => simp [hpool]
              | some own => simp [hpool, pure, Except.pure]

/-- A subnet of the infrastructure with the address pool of a component is the
one created for the component whose subnet it joins. -/
theorem Represents.selectSubnet (h : Represents b env replaced s p seen placed)
    {c : NetComponent} {found : Option DocId}
    (hrun : p.selectDoc (isSubnetOf c.addressPool) s = .ok (found, s')) :
    s' = s ∧ match joined replaced.subnet samePool seen c with
      | some owner => ∃ id, found = some id ∧ id < s.next ∧ (s.doc id).IsKind subnetKind ∧
          (s.doc id).specAttr? "name" = subnetName env b owner
      | none => found = none := by
  obtain ⟨hselect, rfl⟩ := reads_eq_ok.mp hrun
  refine ⟨rfl, ?_⟩
  have hfound := selectFirst_eq_ok hselect
  let fits (v : Option Val × Option Val) : Bool :=
    match v.2 with
    | some own => own.pyEq c.addressPool
    | none => false
  have hshown : (shows subnetKind "name" "address_prefix" s p.infrastructure).find?
        (fun entry => fits entry.2) =
      (p.infrastructure.find? fun e => Holds? (isSubnetOf c.addressPool (s.doc e.doc))).map
        fun e => (e.component, specPair "name" "address_prefix" (s.doc e.doc)) := by
    rw [shows, List.find?_map, List.find?_filter]
    congr 2
    funext e
    rw [holds?_isSubnetOf]
    simp [fits]
  have hplan : ((shows subnetKind "name" "address_prefix" s p.infrastructure).find?
        (fun entry => fits entry.2)).map Prod.snd =
      (joined replaced.subnet samePool seen c).map (subnetFields env b) := by
    rw [h.subnets, find?_expose, List.map_map, joined]
    change (visible _ (seen.map (subnetFields env b))).find? fits = _
    rw [visible_map, List.find?_map]
    rfl
  rw [List.find?_map, Function.comp_def] at hfound
  rw [hshown] at hplan
  cases hjoined : joined replaced.subnet samePool seen c with
  | none =>
      rw [hjoined] at hplan
      simp only [Option.map_none, Option.map_eq_none_iff] at hplan
      rw [hfound]
      simpa using hplan
  | some owner =>
      rw [hjoined] at hplan
      simp only [Option.map_some, Option.map_map, Option.map_eq_some_iff] at hplan
      obtain ⟨e, he, hfields⟩ := hplan
      refine ⟨e.doc, ?_, h.allocated e (List.mem_of_find?_eq_some he), ?_,
        congrArg Prod.fst hfields⟩
      · rw [hfound]
        simpa using ⟨e, he, rfl⟩
      · have hholds := List.find?_some he
        simp only [holds?_isSubnetOf, Bool.and_eq_true] at hholds
        exact holds?_kindIs.mp hholds.1

/-- The documents created for a component that brings a new address pool. -/
theorem Represents.introduce (h : Represents b env replaced s p seen placed)
    {c : NetComponent} {s₁ s₂ s₃ : Store} {subnet nsg association : DocId} {p₁ p₂ : Progress}
    {rules subnetName' nsgName' : Val} (hrules : c.rules = some rules)
    (hp₁ : p₁ = p.append subnet (some c.key))
    (hp₂ : p₂ = { p₁.append nsg (some c.key) with nsg := some nsg })
    (hsubnet : b.getSubnet env c.addressPool c.key 0 s = .ok (subnet, s₁))
    (hnsg : b.getNetworkSecurityGroup env c.key rules 0 s₁ = .ok (nsg, s₂))
    (hsubnetName : (s₂.doc subnet).specAttr? "name" = some subnetName')
    (hnsgName : (s₂.doc nsg).specAttr? "name" = some nsgName')
    (hassociation : b.getSubnetNetworkSecurityGroupAssociation env c.key subnetName' nsgName' 0
      s₂ = .ok (association, s₃)) :
    Keeps networkKinds s s₃ ∧ subnet < s₃.next ∧ (s₃.doc subnet).IsKind subnetKind ∧
      (s₃.doc subnet).specAttr? "name" = subnetName env b c ∧
      Represents b env replaced s₃ (p₂.append association (some c.key)) (seen ++ [c]) placed := by
  obtain ⟨hkeep₁, hlt₁, hkind₁, hread₁, htracked₁, hshow₁, hother₁⟩ :=
    h.toTracked.emit (by simp [mem_networkKinds]) (by simp) hsubnet (some c.key)
  obtain ⟨hkeep₂, hlt₂, hkind₂, hread₂, htracked₂, hshow₂, hother₂⟩ :=
    htracked₁.emit (by simp [mem_networkKinds]) (by simp) hnsg (some c.key)
  obtain ⟨hkeep₃, hlt₃, hkind₃, hread₃, htracked₃, hshow₃, hother₃⟩ :=
    htracked₂.emit (by simp [mem_networkKinds]) (by simp) hassociation (some c.key)
  have hname₁ : (s₁.doc subnet).specAttr? "name" = subnetName env b c := hread₁ _ _ rfl
  have hname₂ : (s₂.doc nsg).specAttr? "name" = groupName env b c := hread₂ _ _ rfl
  have hsame₂ : s₂.doc subnet = s₁.doc subnet := hkeep₂.same hlt₁ hkind₁ (by simp)
  have hsame₃ : s₃.doc subnet = s₂.doc subnet :=
    hkeep₃.same (hlt₁.trans_le hkeep₂.next) (hsame₂ ▸ hkind₁) (by simp)
  have hsame₃' : s₃.doc nsg = s₂.doc nsg := hkeep₃.same hlt₂ hkind₂ (by simp)
  have hkeeps : Keeps networkKinds s s₃ :=
    ((hkeep₁.mono (by simp [networkKinds])).trans (hkeep₂.mono (by simp [networkKinds]))).trans
      (hkeep₃.mono (by simp [networkKinds]))
  have hown : ∀ {s infrastructure}, Tracked b replaced s infrastructure →
      ∀ {kind} (field : Replaced → Bool),
        field (replacedIn b.docs s) = (ownDoc b.docs kind s).isSome →
          (ownDoc b.docs kind s).isSome = field replaced := by
    intro s infrastructure htracked kind field hfield
    rw [← hfield, htracked.replacedIn_eq]
  subst hp₁
  subst hp₂
  refine ⟨hkeeps, hlt₁.trans_le (hkeep₂.next.trans hkeep₃.next), ?_, ?_, ?_⟩
  · rw [hsame₃, hsame₂]
    exact hkind₁
  · rw [hsame₃, hsame₂, hname₁]
  · exact {
      toTracked := htracked₃
      subnets := by
        refine (hother₃ _ _ _ (by decide)).trans ((hother₂ _ _ _ (by decide)).trans ?_)
        rw [hshow₁, h.subnets, List.map_append, List.map_singleton, expose_append,
          hown h.toTracked Replaced.subnet rfl, specPair, hname₁, hread₁ "address_prefix" _ rfl]
        rfl
      groups := by
        refine (hother₃ _ _ _ (by decide)).trans ?_
        rw [hshow₂, hother₁ _ _ _ (by decide), h.groups, List.map_append,
          List.map_singleton, expose_append, hown htracked₁ Replaced.group rfl, specPair,
          hname₂, hread₂ "rules" _ rfl, ← hrules]
        rfl
      associations := by
        refine (hshow₃ _ _).trans ?_
        rw [hother₂ _ _ _ (by decide), hother₁ _ _ _ (by decide), h.associations,
          List.map_append, List.map_singleton, expose_append,
          hown htracked₂ Replaced.association rfl, specPair,
          hread₃ "subnet_name" _ rfl, hread₃ "security_group_name" _ rfl,
          ← hsubnetName, ← hnsgName, hsame₂, hname₁, hname₂]
        rfl
      interfaces := by
        refine (hother₃ _ _ _ (by decide)).trans ((hother₂ _ _ _ (by decide)).trans ?_)
        rw [hother₁ _ _ _ (by decide), h.interfaces]
      nsg := by
        intro last hlast
        rw [List.getLast?_append, List.getLast?_singleton, Option.some_or] at hlast
        cases hlast
        exact ⟨nsg, rfl, hlt₂.trans_le hkeep₃.next, hsame₃' ▸ hkind₂, hsame₃' ▸ hname₂⟩ }

/-- The subnet of a component, and what it brings. -/
theorem Represents.subnetFor (h : Represents b env replaced s p seen placed)
    (hgroups : b.useNetworkSecurityGroups.truthy = true) {c : NetComponent}
    {vmConfig subnet : DocId} {p' : Progress} (hvm : vmConfig < s.next)
    (hkind : (s.doc vmConfig).IsKind vmKind)
    (hrules : ((s.doc vmConfig).specAttr? "security").bind (·.attr? "rules") = c.rules)
    (hrun : b.subnetFor env c.key c.addressPool vmConfig p s = .ok ((subnet, p'), s')) :
    Keeps networkKinds s s' ∧ subnet < s'.next ∧ (s'.doc subnet).IsKind subnetKind ∧
      (s'.doc subnet).specAttr? "name" =
        subnetName env b (place replaced.subnet samePool seen c).owner ∧
      Represents b env replaced s' p' (bring replaced.subnet samePool seen c) placed := by
  rw [InfrastructureBuilder.subnetFor, BuildM.bind_eq_ok] at hrun
  obtain ⟨found, s₀, hselect, hrun⟩ := hrun
  obtain ⟨rfl, hfound⟩ := h.selectSubnet hselect
  cases hjoined : joined replaced.subnet samePool seen c with
  | some owner =>
      rw [hjoined] at hfound
      obtain ⟨id, rfl, hlt, hsubnet, hname⟩ := hfound
      obtain ⟨heq, rfl⟩ := BuildM.pure_eq_ok.mp hrun
      cases heq
      simp only [place, bring, hjoined]
      exact ⟨.refl _ _, hlt, hsubnet, hname, h⟩
  | none =>
      rw [hjoined] at hfound
      subst hfound
      simp only [hgroups, if_true, BuildM.bind_eq_ok] at hrun
      obtain ⟨id, s₁, hsubnet, security, _, hread₁, rules, _, hread₂, nsg, s₂, hnsg,
        subnetName', _, hread₃, nsgName', _, hread₄, association, s₃, hassociation,
        hpure⟩ := hrun
      obtain ⟨hsecurity, rfl⟩ := specAttr_eq_ok.mp hread₁
      obtain ⟨hget, rfl⟩ := lift_eq_ok.mp hread₂
      obtain ⟨hsubnetName, rfl⟩ := specAttr_eq_ok.mp hread₃
      obtain ⟨hnsgName, rfl⟩ := specAttr_eq_ok.mp hread₄
      obtain ⟨heq, rfl⟩ := BuildM.pure_eq_ok.mp hpure
      cases heq
      have hkeep := (h.toTracked.emit (by simp [mem_networkKinds]) (by simp) hsubnet none).1
      have hrules' : c.rules = some rules := by
        rw [hkeep.same hvm hkind (by decide)] at hsecurity
        rw [← hrules, hsecurity]
        exact Val.getAttr_eq_ok.mp hget
      simp only [place, bring, hjoined]
      exact h.introduce hrules' rfl rfl hsubnet hnsg hsubnetName hnsgName hassociation

/-- `configWith` on a kind that is not of the network. -/
theorem Represents.configWith_other (h : Represents b env replaced s p seen placed)
    {kind : String} {fields : List (String × Val)} (hvm : ConfigKind kind)
    (hfields : (dictKeys fields).Nodup) (hout : kind ∉ networkKinds)
    (hrun : configWith .azure env b.docs kind fields s = .ok (id, s')) (component : Option String) :
    Keeps {kind} s s' ∧ id < s'.next ∧ (s'.doc id).IsKind kind ∧
      Represents b env replaced s' (p.append id component) seen placed := by
  obtain ⟨hkeep, -, hlt, hkind, -⟩ := configWith_eq_ok h.docs hvm hfields hrun
  have hkeeps := h.keeps hkeep fun other hother => by
    rw [Set.mem_singleton_iff]
    rintro rfl
    exact hout hother
  exact ⟨hkeep, hlt, hkind, hkeeps.append hlt hkind hout component⟩

/-- The kind of the availability sets. -/
abbrev availabilitySetKind : String := "infrastructure/availability-set"

theorem Represents.availabilitySetFor (h : Represents b env replaced s p seen placed)
    {componentKey : String} {componentValue : Val} {availabilitySet : Option DocId}
    {p' : Progress}
    (hrun : b.availabilitySetFor env componentKey componentValue p s =
      .ok ((availabilitySet, p'), s')) :
    Keeps {availabilitySetKind} s s' ∧ Represents b env replaced s' p' seen placed := by
  unfold InfrastructureBuilder.availabilitySetFor at hrun
  cases hname : componentValue.attr? "availability_set" with
  | none =>
      rw [hname] at hrun
      obtain ⟨heq, rfl⟩ := BuildM.pure_eq_ok.mp hrun
      cases heq
      exact ⟨.refl _ _, h⟩
  | some name =>
      simp only [hname] at hrun
      rw [BuildM.bind_eq_ok] at hrun
      obtain ⟨found, s₀, hselect, hrun⟩ := hrun
      obtain ⟨-, rfl⟩ := reads_eq_ok.mp hselect
      cases found with
      | some id =>
          obtain ⟨heq, rfl⟩ := BuildM.pure_eq_ok.mp hrun
          cases heq
          exact ⟨.refl _ _, h⟩
      | none =>
          rw [BuildM.bind_eq_ok] at hrun
          obtain ⟨created, s₁, hcreate, hrun⟩ := hrun
          rw [InfrastructureBuilder.getAvailabilitySet, BuildM.bind_eq_ok] at hcreate
          obtain ⟨own, _, hread, hcreate⟩ := hcreate
          obtain ⟨hown, rfl⟩ := reads_eq_ok.mp hread
          have hown := selectFirst_eq_ok hown
          cases own with
          | none =>
              obtain ⟨rfl, rfl⟩ := BuildM.pure_eq_ok.mp hcreate
              obtain ⟨heq, rfl⟩ := BuildM.pure_eq_ok.mp hrun
              cases heq
              exact ⟨.refl _ _, h⟩
          | some id =>
              have hmem := List.mem_of_find?_eq_some hown.symm
              have hholds := List.find?_some hown.symm
              have hkind : (s.doc id).IsKind availabilitySetKind :=
                (kindAndNameAre_eq_ok_true.mp (holds?_eq_true.mp hholds)).1
              simp only [BuildM.bind_eq_ok, lift_eq_ok] at hcreate
              obtain ⟨string, _, ⟨-, rfl⟩, _, s₂, hset, hpure⟩ := hcreate
              obtain ⟨rfl, rfl⟩ := BuildM.pure_eq_ok.mp hpure
              obtain ⟨heq, rfl⟩ := BuildM.pure_eq_ok.mp hrun
              cases heq
              have hkeep : Keeps {availabilitySetKind} _ _ := setSpecAttr_keeps hkind
                (Set.mem_singleton _) (fun heq => absurd heq (by decide)) hset
              have hlt := h.docs id hmem
              refine ⟨hkeep, (h.keeps hkeep ?_).append (hlt.trans_le hkeep.next)
                ((hkeep.isKind hlt _).mpr hkind) ?_ _⟩
              · intro kind hkind'
                rw [mem_networkKinds] at hkind'
                rcases hkind' with rfl | rfl | rfl | rfl <;> decide
              · rw [mem_networkKinds]
                decide

/-! ### Machines -/

/-- The kind of the public IPs. -/
abbrev publicIpKind : String := "infrastructure/public-ip"

/-- The kinds a machine's iteration assigns to. -/
def machineKinds : Set String := {publicIpKind, interfaceKind, vmKind}

theorem subnetKind_notMem : subnetKind ∉ machineKinds := by
  change ¬ (subnetKind = publicIpKind ∨ subnetKind = interfaceKind ∨ subnetKind = vmKind)
  decide

theorem Represents.publicIpFor (h : Represents b env replaced s p seen placed)
    {componentKey : String} {vmConfig : DocId} {index : Nat} {name : Val} {p' : Progress}
    (hrun : b.publicIpFor env componentKey vmConfig index p s = .ok ((name, p'), s')) :
    Keeps {publicIpKind} s s' ∧ Represents b env replaced s' p' seen placed := by
  unfold InfrastructureBuilder.publicIpFor at hrun
  split at hrun
  · rw [BuildM.bind_eq_ok] at hrun
    obtain ⟨publicIp, s₁, hget, hrun⟩ := hrun
    rw [BuildM.bind_eq_ok] at hrun
    obtain ⟨_, _, hread, hpure⟩ := hrun
    obtain ⟨-, rfl⟩ := specAttr_eq_ok.mp hread
    obtain ⟨heq, rfl⟩ := BuildM.pure_eq_ok.mp hpure
    cases heq
    simp only [InfrastructureBuilder.getPublicIp, BuildM.bind_eq_ok, specAttr_eq_ok,
      lift_eq_ok] at hget
    obtain ⟨_, _, ⟨-, rfl⟩, _, _, ⟨-, rfl⟩, _, _, ⟨-, rfl⟩, _, _, ⟨-, rfl⟩, _, _, ⟨-, rfl⟩,
      hconfig⟩ := hget
    obtain ⟨hkeep, -, -, hrep⟩ := h.configWith_other (by decide) (by simp)
      (by rw [mem_networkKinds]; decide) hconfig (some componentKey)
    exact ⟨hkeep, hrep⟩
  · obtain ⟨heq, rfl⟩ := BuildM.pure_eq_ok.mp hrun
    cases heq
    exact ⟨.refl _ _, h⟩

theorem Represents.nsgName (h : Represents b env replaced s p seen placed)
    (hgroups : b.useNetworkSecurityGroups.truthy = true) {last : NetComponent}
    (hlast : seen.getLast? = some last) {name : Val} (hrun : b.nsgName p s = .ok (name, s')) :
    some name = groupName env b last ∧ s' = s := by
  obtain ⟨id, hnsg, -, -, hname⟩ := h.nsg last hlast
  simp only [InfrastructureBuilder.nsgName, hgroups, if_true, hnsg] at hrun
  obtain ⟨hread, rfl⟩ := specAttr_eq_ok.mp hrun
  exact ⟨hread.symm.trans hname, rfl⟩

/-- Emitting the interface of a machine. -/
theorem Represents.networkInterface (h : Represents b env replaced s p seen placed)
    {placement : Placement NetComponent} {vmConfig : DocId} {index : Nat}
    {subnetName' nsgName' publicIpName : Val}
    (hsubnet : some subnetName' = subnetName env b placement.owner)
    (hgroup : some nsgName' = groupName env b placement.group)
    (hrun : b.getNetworkInterface env placement.component.key vmConfig subnetName' nsgName'
      publicIpName index s = .ok (id, s')) :
    Keeps {interfaceKind} s s' ∧ id < s'.next ∧
      Represents b env replaced s' (p.append id (some placement.component.key)) seen
        (placed ++ [placement]) := by
  simp only [InfrastructureBuilder.getNetworkInterface, BuildM.bind_eq_ok, specAttr_eq_ok,
    lift_eq_ok] at hrun
  obtain ⟨_, _, ⟨-, rfl⟩, _, _, ⟨-, rfl⟩, hconfig⟩ := hrun
  obtain ⟨hkeep, hlt, hkind, hread, htracked, hshow, hother⟩ :=
    h.toTracked.emit (by simp [mem_networkKinds]) (by simp) hconfig
      (some placement.component.key)
  have hown : (ownDoc b.docs interfaceKind s).isSome = replaced.interface :=
    congrArg Replaced.interface h.replacedIn_eq
  refine ⟨hkeep, hlt, ?_⟩
  exact {
    toTracked := htracked
    subnets := (hother _ _ _ (by decide)).trans h.subnets
    groups := (hother _ _ _ (by decide)).trans h.groups
    associations := (hother _ _ _ (by decide)).trans h.associations
    interfaces := by
      refine (hshow _ _).trans ?_
      rw [h.interfaces, List.map_append, List.map_singleton, expose_append, hown, specPair,
        hread "subnet_name" _ rfl, hread "security_group_name" _ rfl, hsubnet, hgroup]
      rfl
    nsg := h.nsg.keeps hkeep (by rw [Set.mem_singleton_iff]; decide) }

/-- A copy of a machine definition is one. -/
theorem getVm_eq_ok {componentKey : String} {vmConfig vm : DocId}
    {availabilitySet : Option DocId} {networkInterfaceName : Val} {index : Nat}
    (hkind : (s.doc vmConfig).IsKind vmKind)
    (hrun : b.getVm env componentKey vmConfig availabilitySet networkInterfaceName index s =
      .ok (vm, s')) :
    Keeps {vmKind} s s' ∧ vm < s'.next ∧ (s'.doc vm).IsKind vmKind := by
  simp only [InfrastructureBuilder.getVm, BuildM.bind_eq_ok, readDoc, reads_eq_ok, newDoc_eq_ok,
    lift_eq_ok, appendTags, specAttr_eq_ok] at hrun
  obtain ⟨copy, _, ⟨hcopy, rfl⟩, id, s₁, ⟨rfl, rfl⟩, _, _, ⟨-, rfl⟩, _, s₂, hset, hrun⟩ := hrun
  cases hcopy
  have hlt : s.next < (s.alloc (s.doc vmConfig)).next := Nat.lt_succ_self _
  have hkind₁ : ((s.alloc (s.doc vmConfig)).doc s.next).IsKind vmKind := by
    rw [s.alloc_doc_self]
    exact hkind
  obtain ⟨hkeep₂, -, -⟩ := setSpecAttrs_eq_ok hkind₁ (fun _ => by simp) (by simp) hset
  have hkind₂ := (hkeep₂.isKind hlt vmKind).mpr hkind₁
  obtain ⟨_, s₃, ⟨_, _, ⟨-, rfl⟩, _, _, ⟨-, rfl⟩, htags⟩, _, _, ⟨-, rfl⟩, hrun⟩ := hrun
  obtain ⟨hkeep₃, hkind₃, -⟩ := setSpecAttr_machine (Or.inr hkind₂) (by decide) htags
  have hkeep := ((Keeps.alloc {vmKind} s (s.doc vmConfig)).trans hkeep₂).trans hkeep₃
  have hlt₃ := hlt.trans_le (hkeep₂.next.trans hkeep₃.next)
  split at hrun
  · simp [lift_eq_ok] at hrun
  · simp only [BuildM.bind_eq_ok, lift_eq_ok] at hrun
    obtain ⟨_, _, ⟨-, rfl⟩, _, s₄, hkey, hrun⟩ := hrun
    obtain ⟨hkeep₄, hkind₄, -⟩ := setSpecAttr_machine (Or.inr hkind₃) (by decide) hkey
    cases availabilitySet with
    | none =>
        obtain ⟨rfl, rfl⟩ := BuildM.pure_eq_ok.mp hrun
        exact ⟨hkeep.trans hkeep₄, hlt₃.trans_le hkeep₄.next, hkind₄⟩
    | some set =>
        simp only [BuildM.bind_eq_ok, specAttr_eq_ok] at hrun
        obtain ⟨_, _, ⟨-, rfl⟩, _, s₅, hname, hpure⟩ := hrun
        obtain ⟨rfl, rfl⟩ := BuildM.pure_eq_ok.mp hpure
        obtain ⟨hkeep₅, hkind₅, -⟩ := setSpecAttr_machine (Or.inr hkind₄) (by decide) hname
        exact ⟨(hkeep.trans hkeep₄).trans hkeep₅,
          hlt₃.trans_le (hkeep₄.next.trans hkeep₅.next), hkind₅⟩

/-- One machine adds one interface in the placement of its component. -/
theorem Represents.buildMachine (h : Represents b env replaced s p seen placed)
    (hgroups : b.useNetworkSecurityGroups.truthy = true) {placement : Placement NetComponent}
    (hlast : seen.getLast? = some placement.group) {vmConfig subnet : DocId}
    (hvm : vmConfig < s.next) (hvmKind : (s.doc vmConfig).IsKind vmKind)
    (hsubnet : subnet < s.next) (hsubnetKind : (s.doc subnet).IsKind subnetKind)
    (hname : (s.doc subnet).specAttr? "name" = subnetName env b placement.owner)
    {availabilitySet : Option DocId} {index : Nat} {p' : Progress}
    (hrun : b.buildMachine env placement.component.key vmConfig subnet availabilitySet p index s =
      .ok (p', s')) :
    Keeps machineKinds s s' ∧
      Represents b env replaced s' p' seen (placed ++ [placement]) := by
  rw [InfrastructureBuilder.buildMachine, BuildM.bind_eq_ok] at hrun
  obtain ⟨⟨publicIpName, p₁⟩, s₁, hpublicIp, hrun⟩ := hrun
  obtain ⟨hkeep₁, h₁⟩ := h.publicIpFor hpublicIp
  simp only [BuildM.bind_eq_ok] at hrun
  obtain ⟨nsgName', s₂, hnsg, subnetName', s₃, hread₃, nic, s₄, hnic, nicName, s₅, hread₅, vm,
    s₆, hvmRun, hpure⟩ := hrun
  obtain ⟨hgroup, rfl⟩ := h₁.nsgName hgroups hlast hnsg
  obtain ⟨hsubnetName, rfl⟩ := specAttr_eq_ok.mp hread₃
  obtain ⟨-, rfl⟩ := specAttr_eq_ok.mp hread₅
  obtain ⟨rfl, rfl⟩ := BuildM.pure_eq_ok.mp hpure
  rw [hkeep₁.same hsubnet hsubnetKind (by decide), hname] at hsubnetName
  obtain ⟨hkeep₄, hlt₄, h₄⟩ := h₁.networkInterface hsubnetName.symm hgroup hnic
  have hvm₁ := hvm.trans_le hkeep₁.next
  have hkind₄ := (hkeep₄.isKind hvm₁ vmKind).mpr ((hkeep₁.isKind hvm vmKind).mpr hvmKind)
  obtain ⟨hkeep₆, hlt₆, hkind₆⟩ := getVm_eq_ok hkind₄ hvmRun
  have hout : ∀ kind ∈ networkKinds, kind ∉ ({vmKind} : Set String) := fun kind hkind heq =>
    vmKind_notMem (Set.mem_singleton_iff.mp heq ▸ hkind)
  refine ⟨((hkeep₁.mono ?_).trans (hkeep₄.mono ?_)).trans (hkeep₆.mono ?_),
    (h₄.keeps hkeep₆ hout).append hlt₆ hkind₆ vmKind_notMem _⟩ <;>
    simp [machineKinds]

theorem Represents.buildMachines (h : Represents b env replaced s p seen placed)
    (hgroups : b.useNetworkSecurityGroups.truthy = true) {placement : Placement NetComponent}
    (hlast : seen.getLast? = some placement.group) {vmConfig subnet : DocId}
    (hvm : vmConfig < s.next) (hvmKind : (s.doc vmConfig).IsKind vmKind)
    (hsubnet : subnet < s.next) (hsubnetKind : (s.doc subnet).IsKind subnetKind)
    (hname : (s.doc subnet).specAttr? "name" = subnetName env b placement.owner)
    {availabilitySet : Option DocId} {index remaining : Nat} {p' : Progress}
    (hrun : b.buildMachines env placement.component.key vmConfig subnet availabilitySet p index
      remaining s = .ok (p', s')) :
    Keeps machineKinds s s' ∧
      Represents b env replaced s' p' seen (placed ++ List.replicate remaining placement) := by
  induction remaining generalizing s p placed index with
  | zero =>
      obtain ⟨rfl, rfl⟩ := BuildM.pure_eq_ok.mp hrun
      exact ⟨.refl _ _, by simpa using h⟩
  | succ remaining ih =>
      rw [InfrastructureBuilder.buildMachines, BuildM.bind_eq_ok] at hrun
      obtain ⟨p₁, s₁, hmachine, hrun⟩ := hrun
      obtain ⟨hkeep, h₁⟩ := h.buildMachine hgroups hlast hvm hvmKind hsubnet hsubnetKind hname
        hmachine
      have hsame : s₁.doc subnet = s.doc subnet :=
        hkeep.same hsubnet hsubnetKind subnetKind_notMem
      obtain ⟨hkeep', h'⟩ := ih h₁ (hvm.trans_le hkeep.next)
        ((hkeep.isKind hvm vmKind).mpr hvmKind) (hsubnet.trans_le hkeep.next)
        (hsame ▸ hsubnetKind) (hsame ▸ hname) hrun
      refine ⟨hkeep.trans hkeep', ?_⟩
      rwa [List.replicate_succ, ← List.singleton_append, ← List.append_assoc]

/-! ### Components -/

/-- What the initial documents say about a component still holds when its turn
comes. -/
theorem machineSecurity_of_keeps {s₀ : Store} (hdocs : ∀ id ∈ b.docs, id < s₀.next)
    {changing : Set String} (hkeep : Keeps changing s₀ s) (machineSelector : Val) :
    machineSecurity env b.clusterModel (b.docs.map s.doc) machineSelector =
      machineSecurity env b.clusterModel (b.docs.map s₀.doc) machineSelector := by
  have hsteps : List.Forall₂ (DocStep changing) (b.docs.map s₀.doc) (b.docs.map s.doc) := by
    rw [List.forall₂_map_left_iff, List.forall₂_map_right_iff, List.forall₂_same]
    exact fun id hid => hkeep.doc id (hdocs id hid)
  exact machineSecurity_congr hsteps _ _

theorem Represents.buildComponent {s₀ : Store} (h : Represents b env replaced s p seen placed)
    (hgroups : b.useNetworkSecurityGroups.truthy = true)
    (hdocs : ∀ id ∈ b.docs, id < s₀.next) (hinit : Keeps Set.univ s₀ s)
    {cloudInit : DocId} {component : String × Val} {p' : Progress}
    (hrun : b.buildComponent env cloudInit p component.1 component.2 s = .ok (p', s')) :
    ∃ c, netComponent env b.clusterModel (b.docs.map s₀.doc) component = .ok c ∧
      Keeps Set.univ s s' ∧
      match c with
      | none => p' = p ∧ s' = s
      | some c => c.key = component.1 ∧ Represents b env replaced s' p'
          (bring replaced.subnet samePool seen c)
          (placed ++ List.replicate c.count (place replaced.subnet samePool seen c)) := by
  simp only [InfrastructureBuilder.buildComponent, BuildM.bind_eq_ok, lift_eq_ok] at hrun
  obtain ⟨count, _, ⟨hcount, rfl⟩, inactive, _, ⟨hinactive, rfl⟩, hrun⟩ := hrun
  cases inactive with
  | true =>
      rw [if_pos rfl] at hrun
      obtain ⟨rfl, rfl⟩ := BuildM.pure_eq_ok.mp hrun
      exact ⟨none, by simp [netComponent, hcount, hinactive], .refl _ _, rfl, rfl⟩
  | false =>
      rw [if_neg Bool.false_ne_true] at hrun
      simp only [BuildM.bind_eq_ok, lift_eq_ok, specAttr_eq_ok] at hrun
      obtain ⟨vmConfig, s₁, hvm, _, _, ⟨-, rfl⟩, _, s₂, hset, addressPool, _, ⟨hpool, rfl⟩,
        ⟨subnet, p₃⟩, s₃, hsubnet, ⟨availabilitySet, p₄⟩, s₄, havailability, vmCount, _,
        ⟨hvmCount, rfl⟩, hrun⟩ := hrun
      obtain ⟨hkeep₁, hlt₁, hmachine₁, machineSelector, hselector, hsecurity₁⟩ :=
        getVirtualMachine_keeps h.docs h.unique hvm
      obtain ⟨hkeep₂, hkind₂, hsecurity₂⟩ := setSpecAttr_machine hmachine₁ (by decide) hset
      have hkind₁ := (hkeep₂.isKind hlt₁ vmKind).mp hkind₂
      let c : NetComponent := ⟨component.1, addressPool, vmCount.toNat,
        (machineSecurity env b.clusterModel (b.docs.map s₀.doc) machineSelector).bind
          (·.attr? "rules")⟩
      have hc : netComponent env b.clusterModel (b.docs.map s₀.doc) component = .ok (some c) := by
        simp [netComponent, hcount, hinactive, hvmCount, hselector, hpool, c]
      have hvmout : ∀ kind ∈ networkKinds, kind ∉ ({vmKind} : Set String) :=
        fun kind hkind heq => vmKind_notMem (Set.mem_singleton_iff.mp heq ▸ hkind)
      have h₂ := (h.keeps hkeep₁ hvmout).keeps hkeep₂ hvmout
      have hlt₂ := hlt₁.trans_le hkeep₂.next
      have hrules : ((s₂.doc vmConfig).specAttr? "security").bind (·.attr? "rules") =
          c.rules := by
        rw [hsecurity₂, hsecurity₁ hkind₁, machineSecurity_of_keeps hdocs hinit]
      obtain ⟨hkeep₃, hsubnetLt, hsubnetKind, hsubnetName, h₃⟩ :=
        h₂.subnetFor (c := c) hgroups hlt₂ hkind₂ hrules hsubnet
      obtain ⟨hkeep₄, h₄⟩ := h₃.availabilitySetFor havailability
      have hsame : s₄.doc subnet = s₃.doc subnet :=
        hkeep₄.same hsubnetLt hsubnetKind (by rw [Set.mem_singleton_iff]; decide)
      have hmachines : b.buildMachines env (place replaced.subnet samePool seen c).component.key
          vmConfig subnet availabilitySet p₄ 0 c.count s₄ = .ok (p', s') := by
        rw [place_component]
        exact hrun
      obtain ⟨hkeep₅, h₅⟩ := h₄.buildMachines hgroups (getLast?_bring seen c)
        (hlt₂.trans_le (hkeep₃.next.trans hkeep₄.next))
        ((hkeep₄.isKind (hlt₂.trans_le hkeep₃.next) vmKind).mpr
          ((hkeep₃.isKind hlt₂ vmKind).mpr hkind₂))
        (hsubnetLt.trans_le hkeep₄.next) (hsame ▸ hsubnetKind) (hsame ▸ hsubnetName)
        hmachines
      refine ⟨some c, hc, ?_, rfl, h₅⟩
      have huniv : ∀ {changing s s'}, Keeps changing s s' → Keeps Set.univ s s' :=
        fun hkeep => hkeep.mono (Set.subset_univ _)
      exact ((((huniv hkeep₁).trans (huniv hkeep₂)).trans (huniv hkeep₃)).trans
        (huniv hkeep₄)).trans (huniv hkeep₅)

/-- The component loop places the active components one after the other. -/
theorem Represents.buildComponents {s₀ : Store} (h : Represents b env replaced s p seen placed)
    (hgroups : b.useNetworkSecurityGroups.truthy = true)
    (hdocs : ∀ id ∈ b.docs, id < s₀.next) (hinit : Keeps Set.univ s₀ s)
    {cloudInit : DocId} {components : Entries} {p' : Progress}
    (hrun : b.buildComponents env cloudInit p components s = .ok (p', s')) :
    Keeps Set.univ s s' ∧
      ∃ cs, activeComponents env b.clusterModel (b.docs.map s₀.doc) components = .ok cs ∧
        Represents b env replaced s' p' (cs.foldl (bring replaced.subnet samePool) seen)
          (placed ++ placements replaced.subnet samePool NetComponent.count seen cs) := by
  induction components generalizing s p seen placed with
  | nil =>
      obtain ⟨rfl, rfl⟩ := BuildM.pure_eq_ok.mp hrun
      exact ⟨.refl _ _, [], rfl, by simpa [placements] using h⟩
  | cons component rest ih =>
      rw [InfrastructureBuilder.buildComponents, BuildM.bind_eq_ok] at hrun
      obtain ⟨p₁, s₁, hcomponent, hrun⟩ := hrun
      obtain ⟨c, hc, hkeep, hstep⟩ := h.buildComponent hgroups hdocs hinit hcomponent
      cases c with
      | none =>
          obtain ⟨rfl, rfl⟩ := hstep
          obtain ⟨hkeep', cs, hcs, h'⟩ := ih h hinit hrun
          exact ⟨hkeep', cs, by simp [activeComponents, hc, hcs], h'⟩
      | some c =>
          obtain ⟨hkeep', cs, hcs, h'⟩ := ih hstep.2 (hinit.trans hkeep) hrun
          refine ⟨hkeep.trans hkeep', c :: cs, by simp [activeComponents, hc, hcs], ?_⟩
          rwa [List.foldl_cons, placements, ← List.append_assoc]

/-! ### The whole run -/

/-- The kind of the cloud-init data. -/
abbrev cloudInitKind : String := "infrastructure/cloud-init-custom-data"

/-- The components of the cluster model. -/
def componentsOf (clusterModel : Val) : Res Entries := do
  let components ← attrPath clusterModel ["specification", "components"]
  components.asDict

theorem setOsDistribution_keeps {cloudInit : DocId} {u : Unit}
    (hkind : (s.doc cloudInit).IsKind cloudInitKind)
    (hrun : InfrastructureBuilder.setOsDistribution env cloudInit p s = .ok (u, s')) :
    Keeps {cloudInitKind} s s' := by
  rw [InfrastructureBuilder.setOsDistribution, BuildM.bind_eq_ok] at hrun
  obtain ⟨firstVm, s₁, hselect, hrun⟩ := hrun
  obtain ⟨-, rfl⟩ := reads_eq_ok.mp hselect
  cases firstVm with
  | none =>
      obtain ⟨-, rfl⟩ := BuildM.pure_eq_ok.mp hrun
      exact .refl _ _
  | some vm =>
      simp only [BuildM.bind_eq_ok, readDoc, reads_eq_ok, lift_eq_ok] at hrun
      obtain ⟨_, _, ⟨-, rfl⟩, _, _, ⟨-, rfl⟩, hset⟩ := hrun
      exact setSpecAttr_keeps hkind (Set.mem_singleton _) (fun heq => absurd heq (by decide)) hset

/-- What the network documents of a run show is the network plan of its active
components. -/
theorem run_represents (hdocs : ∀ id ∈ b.docs, id < s.next)
    (hunique : ∀ id ∈ b.docs, (s.doc id).KeysUnique)
    (hgroups : b.useNetworkSecurityGroups.truthy = true)
    (hrun : b.run env s = .ok (infrastructure, s')) :
    ∃ components cs, componentsOf b.clusterModel = .ok components ∧
      activeComponents env b.clusterModel (b.docs.map s.doc) components = .ok cs ∧
      ∃ nsg, Represents b env (replacedIn b.docs s) s' ⟨infrastructure, nsg⟩
        (introducing (replacedIn b.docs s).subnet samePool cs)
        (placements (replacedIn b.docs s).subnet samePool NetComponent.count [] cs) := by
  simp only [InfrastructureBuilder.run, BuildM.bind_eq_ok, lift_eq_ok,
    InfrastructureBuilder.getResourceGroup, InfrastructureBuilder.getVirtualNetwork] at hrun
  obtain ⟨resourceGroup, s₁, ⟨_, _, ⟨-, rfl⟩, hresourceGroup⟩, vnet, s₂,
    ⟨_, _, ⟨-, rfl⟩, hvnet⟩, sharedStorage, s₃, hstorage, cloudInit, s₄, hcloudInit,
    value, _, ⟨hvalue, rfl⟩, components, _, ⟨hcomponents, rfl⟩, p, s₅, hloop, _, s₆, hos,
    hpure⟩ := hrun
  obtain ⟨heq, rfl⟩ := BuildM.pure_eq_ok.mp hpure
  have h₀ : Represents b env (replacedIn b.docs s) s ⟨[], none⟩ [] [] := {
    docs := hdocs
    unique := hunique
    allocated := by simp
    shared := by simp
    replacedIn_eq := rfl
    subnets := by simp [shows]
    groups := by simp [shows]
    associations := by simp [shows]
    interfaces := by simp [shows]
    nsg := by simp [NamesGroup] }
  obtain ⟨hkeep₁, -, -, h₁⟩ := h₀.configWith_other (by decide) (by simp)
    (by rw [mem_networkKinds]; decide) hresourceGroup none
  obtain ⟨hkeep₂, -, -, h₂⟩ := h₁.configWith_other (by decide) (by simp)
    (by rw [mem_networkKinds]; decide) hvnet none
  obtain ⟨hkeep₃, -, -, h₃⟩ := h₂.configWith_other (by decide) (by simp)
    (by rw [mem_networkKinds]; decide) hstorage none
  obtain ⟨hkeep₄, -, hlt₄, hkind₄, -⟩ :=
    configWith_eq_ok h₃.docs (by decide) (by simp) hcloudInit
  have hcloudOut : ∀ kind ∈ networkKinds, kind ∉ ({cloudInitKind} : Set String) := by
    intro kind hkind heq
    rw [Set.mem_singleton_iff.mp heq, mem_networkKinds] at hkind
    revert hkind
    decide
  have h₄ := h₃.keeps hkeep₄ hcloudOut
  have huniv : ∀ {changing s s'}, Keeps changing s s' → Keeps Set.univ s s' :=
    fun hkeep => hkeep.mono (Set.subset_univ _)
  have hinit := (((huniv hkeep₁).trans (huniv hkeep₂)).trans (huniv hkeep₃)).trans (huniv hkeep₄)
  obtain ⟨hkeep₅, cs, hcs, h₅⟩ := h₄.buildComponents hgroups hdocs hinit hloop
  have hkeep₆ := setOsDistribution_keeps ((hkeep₅.isKind hlt₄ _).mpr hkind₄) hos
  have hlt₅ := hlt₄.trans_le hkeep₅.next
  have h₆ := (h₅.keeps hkeep₆ hcloudOut).append (hlt₅.trans_le hkeep₆.next)
    ((hkeep₆.isKind hlt₅ _).mpr ((hkeep₅.isKind hlt₄ _).mpr hkind₄))
    (by rw [mem_networkKinds]; decide) none
  subst heq
  refine ⟨components, cs, by simp [componentsOf, hvalue, hcomponents], hcs, p.nsg, ?_⟩
  rw [List.nil_append] at h₆
  exact h₆

end

end Azure

end LambdaStack
