/-
# What emitted documents refer to

The documents of an infrastructure refer to one another by the names in their
specifications. An infrastructure is a well-formed graph where the documents of a kind
have different names and every name that is mentioned is that of an emitted document.
Where each request has a document of its own, both can be read off the ledger.
-/

import LambdaStack.Engine.Providers.Ledger
import LambdaStack.Helpers.ResourceNames

namespace LambdaStack

open Lib BuildM

/-- The keys of the components stay different in the names of their resources. -/
def KeysApart (lower : String → String) (components : Entries) : Prop :=
  ((dictKeys components).map (resourceKey lower)).Nodup

theorem KeysApart.nodup {lower : String → String} {components : Entries}
    (h : KeysApart lower components) : (dictKeys components).Nodup :=
  List.Nodup.of_map _ h

theorem KeysApart.eq {lower : String → String} {components : Entries}
    (h : KeysApart lower components) {key other : String} (hkey : key ∈ dictKeys components)
    (hother : other ∈ dictKeys components) (heq : resourceKey lower key = resourceKey lower other) :
    key = other :=
  List.inj_on_of_nodup_map h hkey hother heq

/-- Resources of one type with the same name have the same component and index. -/
theorem KeysApart.index_eq {lower : String → String} {components : Entries}
    (h : KeysApart lower components) (hlower : LowersWords lower)
    {pre clusterName resourceType key other : String} {i j : Nat} (htype : Plain resourceType)
    (hkey : key ∈ dictKeys components) (hother : other ∈ dictKeys components)
    (heq : resourceName lower pre clusterName (resourceType ++ "-" ++ toString i) (some key) =
      resourceName lower pre clusterName (resourceType ++ "-" ++ toString j) (some other)) :
    key = other ∧ i = j := by
  obtain ⟨hsame, hindex⟩ := (resourceName_indexed_eq_iff hlower htype).mp heq
  exact ⟨h.eq hkey hother hsame, hindex⟩

/-- The emitted documents of a kind. -/
def ofKind (kind : String) (s : Store) (ids : List DocId) : List DocId :=
  ids.filter fun id => Holds? (kindIs kind (s.doc id))

/-- The names of the emitted documents of a kind. -/
def namesOf (kind : String) (s : Store) (ids : List DocId) : List (Option Val) :=
  (ofKind kind s ids).map fun id => (s.doc id).specAttr? "name"

/-- The documents of each kind have different names. -/
def NamesApart (s : Store) (ids : List DocId) : Prop := ∀ kind, (namesOf kind s ids).Nodup

/-- A document of the kind has been emitted under the name. -/
def IsEmitted (kind : String) (name : Val) (s : Store) (ids : List DocId) : Prop :=
  ∃ id ∈ ids, (s.doc id).IsKind kind ∧ (s.doc id).specAttr? "name" = some name

/-- The names a value mentions: the items of a list, or a name that is not empty. -/
def mentioned : Val → List Val
  | .list items => items
  | .scalar (.str "" _) => []
  | value => [value]

/-- The names a document mentions in a field of its specification. -/
def specNames (key : String) (x : Val) : List Val :=
  match x.specAttr? key with
  | some value => mentioned value
  | none => []

/-- How the documents of a kind mention documents of another kind. -/
structure Reference where
  kind : String
  names : Val → List Val
  target : String

/-- Every name the documents of the kind mention is that of an emitted document. -/
def Reference.Closed (r : Reference) (s : Store) (ids : List DocId) : Prop :=
  ∀ id ∈ ids, (s.doc id).IsKind r.kind → ∀ name ∈ r.names (s.doc id),
    IsEmitted r.target name s ids

/-- The documents of each kind have different names, and none mentions a document that
has not been emitted. -/
structure WellFormedGraph (references : List Reference) (s : Store) (ids : List DocId) :
    Prop where
  names : NamesApart s ids
  closed : ∀ r ∈ references, r.Closed s ids

section

variable {s s' : Store} {ids ids' : List DocId} {id : DocId} {kind key : String} {name : Val}

theorem mem_ofKind : id ∈ ofKind kind s ids ↔ id ∈ ids ∧ (s.doc id).IsKind kind := by
  rw [ofKind, List.mem_filter, holds?_kindIs]

theorem mem_mentioned_str {text : String} (h : name ∈ mentioned (.str text)) :
    name = .str text := by
  unfold mentioned at h
  split at h
  · next heq => cases heq
  · cases h
  · exact List.mem_singleton.mp h

theorem mem_specNames (h : name ∈ specNames key (s.doc id)) :
    ∃ value, (s.doc id).specAttr? key = some value ∧ name ∈ mentioned value := by
  unfold specNames at h
  cases hvalue : (s.doc id).specAttr? key with
  | none =>
      rw [hvalue] at h
      cases h
  | some value =>
      rw [hvalue] at h
      exact ⟨value, rfl, h⟩

/-- A kind of which there is at most one document. -/
theorem namesOf_nodup_of_single (h : (ofKind kind s ids).length ≤ 1) :
    (namesOf kind s ids).Nodup := by
  rw [namesOf]
  cases hlist : ofKind kind s ids with
  | nil => exact List.nodup_nil
  | cons first rest =>
      obtain rfl : rest = [] := by simpa [hlist] using h
      exact List.nodup_singleton _

theorem eq_of_single {other : DocId} (h : (ofKind kind s ids).length ≤ 1) (hid : id ∈ ids)
    (hkind : (s.doc id).IsKind kind) (hother : other ∈ ids)
    (hotherKind : (s.doc other).IsKind kind) :
    id = other := by
  have hmem : id ∈ ofKind kind s ids := mem_ofKind.mpr ⟨hid, hkind⟩
  have hmem' : other ∈ ofKind kind s ids := mem_ofKind.mpr ⟨hother, hotherKind⟩
  cases hlist : ofKind kind s ids with
  | nil =>
      rw [hlist] at hmem
      cases hmem
  | cons first rest =>
      obtain rfl : rest = [] := by simpa [hlist] using h
      rw [hlist] at hmem hmem'
      exact (List.mem_singleton.mp hmem).trans (List.mem_singleton.mp hmem').symm

/-- Among documents of different kinds there is at most one of a kind. -/
theorem length_ofKind_le {kinds : List String}
    (h : List.Forall₂ (fun id kind => (s.doc id).IsKind kind) ids kinds) (hkinds : kinds.Nodup)
    (kind : String) : (ofKind kind s ids).length ≤ 1 := by
  have hcount : ids.countP (fun id => Holds? (kindIs kind (s.doc id))) = kinds.count kind := by
    refine countP_forall₂ h fun id own hown => ?_
    rw [Bool.eq_iff_iff, holds?_kindIs, beq_iff_eq, Val.IsKind, hown]
    simp
  rw [ofKind, ← List.countP_eq_length_filter, hcount]
  exact List.nodup_iff_count_le_one.mp hkinds kind

/-- A step that leaves the documents of a kind as they are. -/
theorem IsEmitted.keeps {changing : Set String} (h : IsEmitted kind name s ids)
    (hlt : ∀ id ∈ ids, id < s.next) (hkeep : Keeps changing s s') (hout : kind ∉ changing)
    (hsub : ids ⊆ ids') : IsEmitted kind name s' ids' := by
  obtain ⟨id, hid, hkind, hname⟩ := h
  have hsame := hkeep.same (hlt id hid) hkind hout
  exact ⟨id, hsub hid, hsame ▸ hkind, hsame ▸ hname⟩

end

namespace Ledger

universe u

variable {R : Type u} {kind : String} {fields : R → List (String × Val)} {s : Store}
  {ids : List DocId} {entries : List (DocId × R)} {id : DocId} {nameOf : R → Val}

/-- Each document of the kind shows one of the requests. -/
theorem exists_shows (h : Ledger none kind fields s ids entries) (hid : id ∈ ids)
    (hkind : (s.doc id).IsKind kind) :
    ∃ r ∈ entries.map Prod.snd, Shows (fields r) (s.doc id) := by
  have hmem : id ∈ entries.map Prod.fst := by
    rw [← h.order]
    exact mem_ofKind.mpr ⟨hid, hkind⟩
  obtain ⟨e, he, rfl⟩ := List.mem_map.mp hmem
  exact ⟨e.2, List.mem_map_of_mem he, h.shows e.1 _ (h.issued.latest_eq he)⟩

theorem namesOf_eq (h : Ledger none kind fields s ids entries)
    (hname : ∀ r, (fields r).lookup "name" = some (nameOf r)) :
    namesOf kind s ids = (entries.map Prod.snd).map fun r => some (nameOf r) := by
  have horder : ofKind kind s ids = entries.map Prod.fst := h.order
  rw [namesOf, horder, List.map_map, List.map_map]
  refine List.map_congr_left fun e he => ?_
  exact h.specAttr?_eq he "name" (hname e.2)

/-- Requests with different names have documents with different names. -/
theorem namesOf_nodup (h : Ledger none kind fields s ids entries)
    (hname : ∀ r, (fields r).lookup "name" = some (nameOf r)) {K : Type*} {keyOf : R → K}
    (hkeys : ((entries.map Prod.snd).map keyOf).Nodup)
    (hinj : ∀ r ∈ entries.map Prod.snd, ∀ r' ∈ entries.map Prod.snd, nameOf r = nameOf r' →
      keyOf r = keyOf r') :
    (namesOf kind s ids).Nodup := by
  rw [h.namesOf_eq hname]
  refine (List.Nodup.of_map keyOf hkeys).map_on ?_
  intro r hr r' hr' heq
  exact List.inj_on_of_nodup_map hkeys hr hr' (hinj r hr r' hr' (Option.some.inj heq))

/-- The document of a request has been emitted under the name of the request. -/
theorem isEmitted (h : Ledger none kind fields s ids entries)
    (hname : ∀ r, (fields r).lookup "name" = some (nameOf r)) {r : R}
    (hr : r ∈ entries.map Prod.snd) : IsEmitted kind (nameOf r) s ids := by
  obtain ⟨e, he, rfl⟩ := List.mem_map.mp hr
  obtain ⟨hid, hkind⟩ := h.mem_ids (r := e.2) he
  exact ⟨e.1, hid, hkind, h.specAttr?_eq he "name" (hname e.2)⟩

/-- What the documents of the kind mention in a field is emitted where the field of each
request mentions emitted documents. -/
theorem closed (h : Ledger none kind fields s ids entries) {key target : String}
    {valueOf : R → Val} (hvalue : ∀ r, (fields r).lookup key = some (valueOf r))
    (hemitted : ∀ r ∈ entries.map Prod.snd, ∀ name ∈ mentioned (valueOf r),
      IsEmitted target name s ids) : Reference.Closed ⟨kind, specNames key, target⟩ s ids := by
  intro id hid hkind name hname
  obtain ⟨r, hr, hshows⟩ := h.exists_shows hid hkind
  obtain ⟨value, hread, hmem⟩ := mem_specNames hname
  rw [hshows key _ (hvalue r)] at hread
  cases hread
  exact hemitted r hr name hmem

end Ledger

end LambdaStack
