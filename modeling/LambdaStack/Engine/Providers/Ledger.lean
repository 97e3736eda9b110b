/-
# What a builder has emitted

A ledger lists the requests a builder has made for the documents of a kind, each
with the document it got. A kind the user replaces is one shared document, which
shows the request that was made last; otherwise every request has a document of
its own.
-/

import Mathlib.Data.List.Find
import Mathlib.Data.List.Induction
import LambdaStack.Engine.Providers.DocFrame

namespace LambdaStack

open Lib BuildM

universe u

variable {R : Type u}

/-- The last request that got a document. -/
def latest (entries : List (DocId × R)) (id : DocId) : Option R :=
  (entries.reverse.find? fun e => e.1 == id).map Prod.snd

/-- A document has the fields a request assigned to it. -/
def Shows (fields : List (String × Val)) (x : Val) : Prop :=
  ∀ key value, fields.lookup key = some value → x.specAttr? key = some value

/-- A document that is the user's own, or a new one where the user has none. -/
def IsIssued (own : Option DocId) (next id : DocId) : Prop :=
  match own with
  | some own => id = own
  | none => next ≤ id

/-- The requests got the user's own document, or documents of their own. -/
def Issued (own : Option DocId) (entries : List (DocId × R)) : Prop :=
  match own with
  | some own => ∀ e ∈ entries, e.1 = own
  | none => (entries.map Prod.fst).Nodup

/-- Among the emitted documents those of a kind are the requested ones in order, and
each shows the last request that got it. -/
structure Ledger (own : Option DocId) (kind : String) (fields : R → List (String × Val))
    (s : Store) (ids : List DocId) (entries : List (DocId × R)) : Prop where
  order : ids.filter (fun id => Holds? (kindIs kind (s.doc id))) = entries.map Prod.fst
  issued : Issued own entries
  shows : ∀ id r, latest entries id = some r → Shows (fields r) (s.doc id)

/-- The emitted documents of a kind show what was computed for each request. -/
def ShowsEach (fields : R → List (String × Val)) (kind : String) (s : Store) (ids : List DocId)
    (requests : List R) : Prop :=
  List.Forall₂ (fun id r => Shows (fields r) (s.doc id))
    (ids.filter fun id => Holds? (kindIs kind (s.doc id))) requests

/-- The requests whose fields are shown. -/
def visible (shared : Bool) (requests : List R) : List R :=
  if shared then requests.getLast?.toList else requests

/-- The request that is shown in place of one. -/
def current (shared : Bool) (requests : List R) (r : R) : R :=
  if shared then requests.getLast?.getD r else r

/-- The document a request got, or none where there is no request. -/
def Got (entries : List (DocId × R)) (found : Option DocId) (request : Option R) : Prop :=
  match request with
  | some r => ∃ id, found = some id ∧ (id, r) ∈ entries
  | none => found = none

section

variable {entries : List (DocId × R)} {id : DocId} {r : R} {own : Option DocId}

theorem Got.mono {entries' : List (DocId × R)} {found : Option DocId} {request : Option R}
    (h : Got entries found request) (hsub : entries ⊆ entries') : Got entries' found request := by
  cases request with
  | none => exact h
  | some r =>
      obtain ⟨id, hid, hmem⟩ := h
      exact ⟨id, hid, hsub hmem⟩

theorem latest_append_self (entries : List (DocId × R)) (id : DocId) (r : R) :
    latest (entries ++ [(id, r)]) id = some r := by
  simp [latest]

theorem latest_append_ne {other : DocId} (h : other ≠ id) (entries : List (DocId × R)) (r : R) :
    latest (entries ++ [(id, r)]) other = latest entries other := by
  simp [latest, h.symm]

theorem mem_of_latest (h : latest entries id = some r) : (id, r) ∈ entries := by
  rw [latest, Option.map_eq_some_iff] at h
  obtain ⟨e, he, rfl⟩ := h
  have hid : e.1 = id := by simpa using List.find?_some he
  rw [← hid]
  exact List.mem_reverse.mp (List.mem_of_find?_eq_some he)

theorem latest_isSome (h : id ∈ entries.map Prod.fst) : ∃ r, latest entries id = some r := by
  obtain ⟨e, he, rfl⟩ := List.mem_map.mp h
  have hsome : (entries.reverse.find? fun other => other.1 == e.1).isSome = true := by
    rw [List.find?_isSome]
    exact ⟨e, List.mem_reverse.mpr he, by simp⟩
  obtain ⟨e', he'⟩ := Option.isSome_iff_exists.mp hsome
  exact ⟨e'.2, by rw [latest, he']; rfl⟩

theorem shows_of_forall {fields : List (String × Val)} {x : Val}
    (h : ∀ field ∈ fields, x.specAttr? field.1 = some field.2) : Shows fields x :=
  fun key value hvalue => h (key, value) (Lib.mem_of_lookup_eq_some hvalue)

/-- What a document shows in the fields of one request it shows in those of another with
the same keys. -/
theorem eq_of_shows {fields fields' : List (String × Val)} {x : Val}
    (hkeys : dictKeys fields = dictKeys fields') (hnodup : (dictKeys fields).Nodup)
    (h : Shows fields x) (h' : Shows fields' x) : fields = fields' := by
  have hform : ∀ {z : List (String × Val)}, (dictKeys z).Nodup → Shows z x →
      z = (dictKeys z).map fun key => (key, (x.specAttr? key).getD .null) := by
    intro z hz hshows
    rw [dictKeys, List.map_map]
    symm
    refine (List.map_congr_left fun e he => ?_).trans (List.map_id z)
    rw [Function.comp_apply, hshows e.1 e.2 (Lib.lookup_eq_some_of_mem hz he)]
    rfl
  rw [hform hnodup h, hform (hkeys ▸ hnodup) h', hkeys]

theorem issued_nil (own : Option DocId) : Issued own ([] : List (DocId × R)) := by
  cases own with
  | none => exact List.nodup_nil
  | some own => exact fun e he => absurd he List.not_mem_nil

/-- One more request gets the user's own document or a new one. -/
theorem Issued.append {next : DocId} (h : Issued own entries)
    (hlt : ∀ e ∈ entries, e.1 < next)
    (hown : IsIssued own next id) (r : R) : Issued own (entries ++ [(id, r)]) := by
  cases own with
  | some own =>
      intro e he
      rcases List.mem_append.mp he with he | he
      · exact h e he
      · rw [List.mem_singleton.mp he]
        exact hown
  | none =>
      change ((entries ++ [(id, r)]).map Prod.fst).Nodup
      rw [List.map_append, List.map_singleton, List.nodup_append]
      refine ⟨h, List.nodup_singleton _, ?_⟩
      intro a ha b hb heq
      obtain ⟨e, he, rfl⟩ := List.mem_map.mp ha
      rw [List.mem_singleton.mp hb] at heq
      exact absurd (hlt e he) (Nat.not_lt.mpr (heq ▸ hown))

/-- What a requested document shows. -/
theorem Issued.latest_eq (h : Issued own entries) (hmem : (id, r) ∈ entries) :
    latest entries id = some (current own.isSome (entries.map Prod.snd) r) := by
  cases own with
  | none =>
      obtain ⟨r', hr'⟩ := latest_isSome (List.mem_map_of_mem (f := Prod.fst) hmem)
      have hsame : (id, r') = (id, r) :=
        List.inj_on_of_nodup_map h (mem_of_latest hr') hmem rfl
      rw [hr', current, if_neg (by simp)]
      simpa using hsame
  | some own =>
      rw [Option.isSome_some, current, if_pos rfl]
      cases entries using List.reverseRecOn with
      | nil => cases hmem
      | append_singleton rest e =>
          have hid : id = e.1 := (h _ hmem).trans (h e (by simp)).symm
          rw [hid, show e = (e.1, e.2) from rfl, latest_append_self]
          simp

/-- A document that is requested at most once shows its request. -/
theorem visible_eq {shared : Bool} {requests : List R}
    (h : shared = true → requests.length ≤ 1) : visible shared requests = requests := by
  cases shared with
  | false => rfl
  | true =>
      cases requests with
      | nil => rfl
      | cons first rest =>
          have hrest : rest = [] := by simpa using h rfl
          rw [hrest]
          rfl

theorem current_eq {shared : Bool} {requests more : List R}
    (h : shared = true → more.length ≤ 1) (hbegin : requests <+: more) (hmem : r ∈ more) :
    current shared requests r = r := by
  cases shared with
  | false => rfl
  | true =>
      obtain ⟨only, rfl⟩ : ∃ only, more = [only] := by
        have hlength := h rfl
        have hpos := List.length_pos_of_mem hmem
        exact List.length_eq_one_iff.mp (by omega)
      rw [List.mem_singleton.mp hmem]
      rcases List.prefix_cons_iff.mp hbegin with rfl | ⟨rest, rfl, hrest⟩
      · rfl
      · rw [List.prefix_nil.mp hrest]
        rfl

/-- The request that is shown in place of one is one of them. -/
theorem current_mem {requests : List R} (shared : Bool) (hmem : r ∈ requests) :
    current shared requests r ∈ requests := by
  unfold current
  split
  · cases hlast : requests.getLast? with
    | none => exact hmem
    | some last => exact List.mem_of_getLast? hlast
  · exact hmem

theorem current_false (requests : List R) (r : R) : current false requests r = r := rfl

theorem visible_false (requests : List R) : visible false requests = requests := rfl

end

/-- The document of a kind has had fields assigned, and no other document has changed. -/
structure Assigned (id : DocId) (kind : String) (fields : List (String × Val)) (s s' : Store) :
    Prop where
  keep : Keeps {kind} s s'
  frame : s.Frame {id} s'
  isKind : (s'.doc id).IsKind kind
  read : ∀ key, (s'.doc id).specAttr? key = (fields.lookup key).or ((s.doc id).specAttr? key)

theorem Assigned.trans {id : DocId} {kind : String} {first second : List (String × Val)}
    {s s₁ s₂ : Store} (h : Assigned id kind first s s₁) (h' : Assigned id kind second s₁ s₂) :
    Assigned id kind (second ++ first) s s₂ where
  keep := h.keep.trans h'.keep
  frame := h.frame.trans h'.frame
  isKind := h'.isKind
  read key := by rw [h'.read, h.read, List.lookup_append, Option.or_assoc]

theorem assigned_setSpecAttr {id : DocId} {kind key : String} {value : Val} {s s' : Store}
    {u : Unit} (hkind : (s.doc id).IsKind kind) (hkey : kind = vmKind → key ≠ "security")
    (h : setSpecAttr id key value s = .ok (u, s')) : Assigned id kind [(key, value)] s s' := by
  obtain ⟨doc, hdoc, rfl⟩ := setSpecAttr_eq_ok.mp h
  have hstep : DocStep {kind} (s.doc id) doc :=
    .withSpecAttr hkind (Set.mem_singleton _) hkey hdoc
  refine ⟨.write hstep, s.frame_write (Set.mem_singleton _) doc, ?_, fun other => ?_⟩
  · rw [s.write_doc_self, Val.IsKind, hstep.kind]
    exact hkind
  · rw [s.write_doc_self, Val.specAttr?_withSpecAttr hdoc, List.lookup_cons]
    by_cases heq : other = key
    · simp [heq]
    · have hne : (other == key) = false := by simpa using heq
      simp [heq, hne]

theorem assigned_setSpecAttrs {id : DocId} {kind : String} {fields : List (String × Val)}
    {s s' : Store} {u : Unit} (hlt : id < s.next) (hkind : (s.doc id).IsKind kind)
    (hsecurity : kind = vmKind → "security" ∉ dictKeys fields) (hfields : (dictKeys fields).Nodup)
    (h : setSpecAttrs id fields s = .ok (u, s')) : Assigned id kind fields s s' := by
  obtain ⟨hkeep, hframe, hread⟩ := setSpecAttrs_eq_ok hkind hsecurity hfields h
  exact ⟨hkeep, hframe, (hkeep.isKind hlt kind).mpr hkind, hread⟩

namespace Ledger

variable {kind : String} {fields : R → List (String × Val)} {s s' : Store} {ids : List DocId}
  {own : Option DocId} {entries : List (DocId × R)} {id : DocId} {r : R}

theorem nil (own : Option DocId) (kind : String) (fields : R → List (String × Val))
    (h : ∀ id ∈ ids, ¬ (s.doc id).IsKind kind) : Ledger own kind fields s ids [] where
  order := by
    rw [List.map_nil, List.filter_eq_nil_iff]
    intro id hid
    rw [holds?_kindIs]
    exact h id hid
  issued := issued_nil own
  shows id r h := by cases h

theorem mem_ids (h : Ledger own kind fields s ids entries) (hmem : (id, r) ∈ entries) :
    id ∈ ids ∧ (s.doc id).IsKind kind := by
  have hid : id ∈ entries.map Prod.fst := List.mem_map_of_mem (f := Prod.fst) hmem
  rw [← h.order, List.mem_filter, holds?_kindIs] at hid
  exact hid

/-- The user's own document is emitted once it has been requested. -/
theorem own_mem {own : DocId} (h : Ledger (some own) kind fields s ids entries)
    (hne : entries ≠ []) : own ∈ ids := by
  obtain ⟨e, rest, rfl⟩ := List.exists_cons_of_ne_nil hne
  have hfirst : e.1 = own := h.issued e List.mem_cons_self
  rw [← hfirst]
  exact (h.mem_ids (r := e.2) List.mem_cons_self).1

/-- A step that keeps the kinds and what is shown. -/
theorem congr (h : Ledger own kind fields s ids entries)
    (hkind : ∀ id ∈ ids, ((s'.doc id).IsKind kind ↔ (s.doc id).IsKind kind))
    (hshows : ∀ id r, (id, r) ∈ entries → Shows (fields r) (s.doc id) →
      Shows (fields r) (s'.doc id)) : Ledger own kind fields s' ids entries where
  order := by
    rw [← h.order]
    refine List.filter_congr fun id hid => ?_
    rw [Bool.eq_iff_iff, holds?_kindIs, holds?_kindIs]
    exact hkind id hid
  issued := h.issued
  shows id r hlatest := hshows id r (mem_of_latest hlatest) (h.shows id r hlatest)

/-- A step on documents of other kinds. -/
theorem keeps (h : Ledger own kind fields s ids entries) {changing : Set String}
    (hkeep : Keeps changing s s') (hout : kind ∉ changing) (hlt : ∀ id ∈ ids, id < s.next) :
    Ledger own kind fields s' ids entries := by
  apply h.congr
  · intro id hid
    exact hkeep.isKind (hlt id hid) kind
  · intro id r hmem hshows
    obtain ⟨hid, hkind⟩ := h.mem_ids hmem
    rwa [hkeep.same (hlt id hid) hkind hout]

/-- Emitting a document of another kind. -/
theorem append_other (h : Ledger own kind fields s ids entries)
    (hkind : ¬ (s.doc id).IsKind kind) : Ledger own kind fields s (ids ++ [id]) entries where
  order := by
    have hholds : Holds? (kindIs kind (s.doc id)) = false := by
      rw [← Bool.not_eq_true, holds?_kindIs]
      exact hkind
    rw [List.filter_append, h.order, List.filter_singleton, hholds]
    simp
  issued := h.issued
  shows := h.shows

/-- The user's own document or a new one is issued to one more request. -/
theorem issue (h : Ledger own kind fields s ids entries) (hlt : ∀ id ∈ ids, id < s.next)
    (hown : IsIssued own s.next id) (r : R) : Issued own (entries ++ [(id, r)]) :=
  h.issued.append (fun e he => hlt e.1 (h.mem_ids (r := e.2) he).1) hown r

/-- Emitting the document a request has got. -/
theorem append (h : Ledger own kind fields s ids entries) (hlt : ∀ id ∈ ids, id < s.next)
    {changing : Set String} (hkeep : Keeps changing s s')
    (hframe : ∀ other < s.next, (s.doc other).IsKind kind → other ≠ id →
      s'.doc other = s.doc other)
    (hissued : Issued own (entries ++ [(id, r)]))
    (hkind : (s'.doc id).IsKind kind) (hshows : Shows (fields r) (s'.doc id)) :
    Ledger own kind fields s' (ids ++ [id]) (entries ++ [(id, r)]) where
  order := by
    have hsame : ids.filter (fun id => Holds? (kindIs kind (s'.doc id))) =
        ids.filter fun id => Holds? (kindIs kind (s.doc id)) :=
      List.filter_congr fun id hid => by
        rw [Bool.eq_iff_iff, holds?_kindIs, holds?_kindIs]
        exact hkeep.isKind (hlt id hid) kind
    rw [List.filter_append, hsame, h.order, List.map_append, List.filter_singleton,
      holds?_kindIs.mpr hkind]
    rfl
  issued := hissued
  shows other r' hlatest := by
    by_cases heq : other = id
    · subst heq
      rw [latest_append_self] at hlatest
      cases hlatest
      exact hshows
    · rw [latest_append_ne heq] at hlatest
      obtain ⟨hid, hkind⟩ := h.mem_ids (mem_of_latest hlatest)
      rw [hframe other (hlt other hid) hkind heq]
      exact h.shows other r' hlatest

/-- A field of a requested document. -/
theorem specAttr?_eq (h : Ledger own kind fields s ids entries) (hmem : (id, r) ∈ entries)
    (key : String) {value : Val}
    (hvalue : (fields (current own.isSome (entries.map Prod.snd) r)).lookup key = some value) :
    (s.doc id).specAttr? key = some value :=
  h.shows id _ (h.issued.latest_eq hmem) key value hvalue

/-- Where what is shown in place of a request is the same, each request is shown. -/
theorem showsEach (h : Ledger own kind fields s ids entries)
    {fields' : R → List (String × Val)}
    (hsame : ∀ r ∈ entries.map Prod.snd,
      fields (current own.isSome (entries.map Prod.snd) r) = fields' r) :
    ShowsEach fields' kind s ids (entries.map Prod.snd) := by
  rw [ShowsEach, h.order, List.forall₂_map_left_iff, List.forall₂_map_right_iff,
    List.forall₂_same]
  intro e he
  rw [← hsame e.2 (List.mem_map_of_mem he)]
  exact h.shows e.1 _ (h.issued.latest_eq he)

/-- One document can show what was computed for each of its requests only where that is
the same for all of them. -/
theorem eq_of_showsEach {o : DocId} (h : Ledger (some o) kind fields s ids entries)
    {fields' : R → List (String × Val)} {requests : List R}
    (hkeys : ∀ r r', dictKeys (fields' r) = dictKeys (fields' r'))
    (hnodup : ∀ r, (dictKeys (fields' r)).Nodup)
    (heach : ShowsEach fields' kind s ids requests) :
    ∀ r ∈ requests, ∀ r' ∈ requests, fields' r = fields' r' := by
  have hown : ∀ r ∈ requests, Shows (fields' r) (s.doc o) := by
    intro r hr
    obtain ⟨id, hid, hshows⟩ := exists_of_mem_forall₂ heach.flip hr
    rw [h.order] at hid
    obtain ⟨e, he, rfl⟩ := List.mem_map.mp hid
    rwa [h.issued e he] at hshows
  intro r hr r' hr'
  exact eq_of_shows (hkeys r r') (hnodup r) (hown r hr) (hown r' hr')

/-- A search among the emitted documents for one of the kind that shows a value is a
search among the visible requests. -/
theorem find?_eq (h : Ledger own kind fields s ids entries) {key : String} {valueOf : R → Val}
    (hkey : ∀ r, (fields r).lookup key = some (valueOf r)) {query : Val → Bool} (p : Val → Bool)
    (hquery : ∀ x, query x = (Holds? (kindIs kind x) && (x.specAttr? key).any p)) :
    Got entries (ids.find? (query ∘ s.doc))
      ((visible own.isSome (entries.map Prod.snd)).find? (p ∘ valueOf)) := by
  have hfind : ids.find? (query ∘ s.doc) =
      (entries.map Prod.fst).find? fun id => ((s.doc id).specAttr? key).any p := by
    rw [← h.order, List.find?_filter]
    congr 1
    funext id
    simp [hquery]
  have hany : ∀ e ∈ entries, ((s.doc e.1).specAttr? key).any p =
      p (valueOf (current own.isSome (entries.map Prod.snd) e.2)) := by
    intro e he
    rw [h.specAttr?_eq he key (hkey _)]
    rfl
  have hsearch : entries.find? ((fun id => ((s.doc id).specAttr? key).any p) ∘ Prod.fst) =
      entries.find? fun e => p (valueOf (current own.isSome (entries.map Prod.snd) e.2)) :=
    List.find?_congr hany
  rw [hfind, List.find?_map, hsearch]
  cases own with
  | none =>
      rw [Option.isSome_none, visible_false, List.find?_map]
      simp only [current_false]
      cases hfound : entries.find? ((p ∘ valueOf) ∘ Prod.snd) with
      | none =>
          change Option.map _ _ = none
          rw [Option.map_eq_none_iff]
          exact hfound
      | some e =>
          rw [Option.map_some]
          refine ⟨e.1, ?_, List.mem_of_find?_eq_some hfound⟩
          rw [Option.map_eq_some_iff]
          exact ⟨e, hfound, rfl⟩
  | some own =>
      -- every document is the user's own, which shows the last request
      cases entries using List.reverseRecOn with
      | nil => simp [visible, Got]
      | append_singleton rest last =>
          have hlast : ∀ r : R, current true ((rest ++ [last]).map Prod.snd) r = last.2 := by
            intro r
            simp [current]
          have hvisible : visible true ((rest ++ [last]).map Prod.snd) = [last.2] := by
            simp [visible]
          rw [Option.isSome_some, hvisible, List.find?_singleton]
          simp only [hlast]
          cases hp : p (valueOf last.2) with
          | false => simp [hp, Got]
          | true =>
              rw [if_pos (by exact hp)]
              refine ⟨own, ?_, ?_⟩
              · rw [Option.map_eq_some_iff]
                cases rest with
                | nil => exact ⟨last, rfl, h.issued last (by simp)⟩
                | cons first rest => exact ⟨first, rfl, h.issued first (by simp)⟩
              · rw [← h.issued last (by simp)]
                simp

end Ledger

/-! ## Documents of several kinds -/

/-- The requests for documents of several kinds, with the documents they got. -/
abbrev Requests {K : Type} (Request : K → Type u) : Type u := (k : K) → List (DocId × Request k)

section

variable {K : Type} [DecidableEq K] {Request : K → Type u} {requests : Requests Request} {k : K}

/-- One more request of a kind. -/
def Requests.add (requests : Requests Request) (k : K) (id : DocId) (r : Request k) :
    Requests Request :=
  Function.update requests k (requests k ++ [(id, r)])

@[simp]
theorem Requests.add_self (requests : Requests Request) (k : K) (id : DocId) (r : Request k) :
    requests.add k id r k = requests k ++ [(id, r)] := by
  simp [Requests.add]

theorem Requests.add_ne (requests : Requests Request) {other : K} (h : other ≠ k) (id : DocId)
    (r : Request k) : requests.add k id r other = requests other := by
  simp [Requests.add, h]

theorem Requests.subset_add (requests : Requests Request) (k other : K) (id : DocId)
    (r : Request k) : requests other ⊆ requests.add k id r other := by
  by_cases h : other = k
  · subst h
    rw [Requests.add_self]
    exact List.subset_append_left _ _
  · rw [requests.add_ne h]
    exact fun _ h => h

/-- The ledgers after a document of a kind has been emitted for a request. -/
theorem ledger_append {ownOf : K → Option DocId} {kindOf : K → String}
    {fieldsOf : (k : K) → Request k → List (String × Val)} {s s' : Store} {ids : List DocId}
    {id : DocId} {r : Request k} (hkinds : Function.Injective kindOf)
    (h : ∀ k, Ledger (ownOf k) (kindOf k) (fieldsOf k) s ids (requests k))
    (hlt : ∀ id ∈ ids, id < s.next) (hkeep : Keeps {kindOf k} s s') (hframe : s.Frame {id} s')
    (hissued : Issued (ownOf k) (requests k ++ [(id, r)])) (hkind : (s'.doc id).IsKind (kindOf k))
    (hshows : Shows (fieldsOf k r) (s'.doc id)) (other : K) :
    Ledger (ownOf other) (kindOf other) (fieldsOf other) s' (ids ++ [id])
      (requests.add k id r other) := by
  by_cases heq : other = k
  · subst heq
    rw [Requests.add_self]
    exact (h other).append hlt hkeep (fun i hi _ hne => hframe.2 i hi hne) hissued hkind hshows
  · rw [requests.add_ne heq]
    have hne : kindOf other ≠ kindOf k := fun h => heq (hkinds h)
    apply ((h other).keeps hkeep (by simpa using hne) hlt).append_other
    intro hisOther
    exact hne (by simpa using hisOther.symm.trans hkind)

/-- The same for the user's own document or a new one. -/
theorem ledger_add {ownOf : K → Option DocId} {kindOf : K → String}
    {fieldsOf : (k : K) → Request k → List (String × Val)} {s s' : Store} {ids : List DocId}
    {id : DocId} {r : Request k} (hkinds : Function.Injective kindOf)
    (h : ∀ k, Ledger (ownOf k) (kindOf k) (fieldsOf k) s ids (requests k))
    (hlt : ∀ id ∈ ids, id < s.next) (hkeep : Keeps {kindOf k} s s') (hframe : s.Frame {id} s')
    (hown : IsIssued (ownOf k) s.next id) (hkind : (s'.doc id).IsKind (kindOf k))
    (hshows : Shows (fieldsOf k r) (s'.doc id)) (other : K) :
    Ledger (ownOf other) (kindOf other) (fieldsOf other) s' (ids ++ [id])
      (requests.add k id r other) :=
  ledger_append hkinds h hlt hkeep hframe ((h k).issue hlt hown r) hkind hshows other

end

/-! ## Emitting documents of some kinds -/

section

variable {s s' : Store} {ids ids' : List DocId}

/-- Documents have been emitted after those there were, each of one of the kinds. -/
structure Emits (kinds : Set String) (s : Store) (ids ids' : List DocId) : Prop where
  new : ∃ new, ids' = ids ++ new ∧
    ∀ id ∈ new, id < s.next ∧ ∃ kind ∈ kinds, (s.doc id).IsKind kind

theorem Emits.refl (kinds : Set String) (s : Store) (ids : List DocId) : Emits kinds s ids ids :=
  ⟨[], (List.append_nil ids).symm, fun _ h => absurd h List.not_mem_nil⟩

theorem Emits.mono {kinds kinds' : Set String} (h : Emits kinds s ids ids')
    (hsub : kinds ⊆ kinds') : Emits kinds' s ids ids' := by
  obtain ⟨new, rfl, hnew⟩ := h.new
  refine ⟨new, rfl, fun id hid => ?_⟩
  obtain ⟨hlt, kind, hmem, hkind⟩ := hnew id hid
  exact ⟨hlt, kind, hsub hmem, hkind⟩

/-- A step that keeps the kinds. -/
theorem Emits.kept {kinds : Set String} (h : Emits kinds s ids ids') (hnext : s.next ≤ s'.next)
    (hkept : ∀ id < s.next, (s'.doc id).attr? "kind" = (s.doc id).attr? "kind") :
    Emits kinds s' ids ids' := by
  obtain ⟨new, rfl, hnew⟩ := h.new
  refine ⟨new, rfl, fun id hid => ?_⟩
  obtain ⟨hlt, kind, hmem, hkind⟩ := hnew id hid
  exact ⟨hlt.trans_le hnext, kind, hmem, by rwa [Val.IsKind, hkept id hlt]⟩

theorem Emits.keeps {kinds changing : Set String} (h : Emits kinds s ids ids')
    (hkeep : Keeps changing s s') : Emits kinds s' ids ids' :=
  h.kept hkeep.next fun id hlt => (hkeep.doc id hlt).kind

theorem Emits.append {kinds : Set String} {kind : String} {id : DocId}
    (h : Emits kinds s ids ids') (hlt : id < s.next) (hmem : kind ∈ kinds)
    (hkind : (s.doc id).IsKind kind) : Emits kinds s ids (ids' ++ [id]) := by
  obtain ⟨new, rfl, hnew⟩ := h.new
  refine ⟨new ++ [id], List.append_assoc _ _ _, fun other hother => ?_⟩
  rcases List.mem_append.mp hother with hother | hother
  · exact hnew other hother
  · rw [List.mem_singleton.mp hother]
    exact ⟨hlt, kind, hmem, hkind⟩

theorem Emits.subset {kinds : Set String} (h : Emits kinds s ids ids') : ids ⊆ ids' := by
  obtain ⟨new, rfl, -⟩ := h.new
  exact List.subset_append_left ids new

theorem Emits.trans {kinds : Set String} {ids₁ ids₂ ids₃ : List DocId}
    (h : Emits kinds s ids₁ ids₂) (h' : Emits kinds s ids₂ ids₃) : Emits kinds s ids₁ ids₃ := by
  obtain ⟨new, rfl, hnew⟩ := h.new
  obtain ⟨new', rfl, hnew'⟩ := h'.new
  refine ⟨new ++ new', List.append_assoc _ _ _, fun id hid => ?_⟩
  exact (List.mem_append.mp hid).elim (hnew id) (hnew' id)

/-- No document of another kind is among the emitted ones. -/
theorem Emits.filter_eq {kinds : Set String} (h : Emits kinds s ids ids')
    {kind : String} (hkind : kind ∉ kinds) :
    ids'.filter (fun id => Holds? (kindIs kind (s.doc id))) =
      ids.filter fun id => Holds? (kindIs kind (s.doc id)) := by
  obtain ⟨new, rfl, hnew⟩ := h.new
  have hnone : new.filter (fun id => Holds? (kindIs kind (s.doc id))) = [] := by
    rw [List.filter_eq_nil_iff]
    intro id hid hholds
    obtain ⟨-, other, hmem, hother⟩ := hnew id hid
    cases hother.symm.trans (holds?_kindIs.mp hholds)
    exact hkind hmem
  rw [List.filter_append, hnone, List.append_nil]

end

end LambdaStack
