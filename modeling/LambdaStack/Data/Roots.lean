/-
# Documents nothing refers to

No object refers to the top of a loaded document. What a computation stores it has
read from an object or made itself, so it stays that way, and a step on the inside
of documents changes no top.
-/

import LambdaStack.Data.Sharing
import LambdaStack.Lib.Lists

namespace LambdaStack

open Lib

namespace Heap

/-- The roots are allocated, and no object refers to one of them. -/
structure Rooted (R : Set Addr) (h : Heap) : Prop extends h.WellFormed where
  roots : ∀ a ∈ R, a < h.next
  apart : ∀ b < h.next, ∀ a ∈ R, ¬ h.Refers b a

/-- A scalar or a reference to an allocated object. -/
def Holds (h : Heap) (x : Ref) : Prop := ∀ a, x = .obj a → a < h.next

/-- A reference an object may be given. -/
def Inner (R : Set Addr) (h : Heap) (x : Ref) : Prop := ∀ a, x = .obj a → a < h.next ∧ a ∉ R

/-- A step changes no root but the one it is about. -/
structure Spares (R : Set Addr) (x : Ref) (h h' : Heap) : Prop where
  rooted : h'.Rooted R
  next_le : h.next ≤ h'.next
  same : ∀ a ∈ R, x ≠ .obj a → h'.obj a = h.obj a

section

variable {R : Set Addr} {h h' h₁ : Heap} {x y r : Ref} {key : String} {a : Addr}

theorem holds_scalar (h : Heap) (s : Scalar) : h.Holds (.scalar s) := fun _ heq => by cases heq

theorem inner_scalar (R : Set Addr) (h : Heap) (s : Scalar) : h.Inner R (.scalar s) :=
  fun _ heq => by cases heq

theorem Inner.holds (hx : h.Inner R x) : h.Holds x := fun a ha => (hx a ha).1

theorem Holds.mono (hx : h.Holds x) (hle : h.next ≤ h'.next) : h'.Holds x :=
  fun a ha => (hx a ha).trans_le hle

theorem Inner.mono (hx : h.Inner R x) (hle : h.next ≤ h'.next) : h'.Inner R x :=
  fun a ha => ⟨(hx a ha).1.trans_le hle, (hx a ha).2⟩

theorem Rooted.mono {R' : Set Addr} (h₀ : h.Rooted R) (hsub : R' ⊆ R) : h.Rooted R' :=
  { h₀ with
    roots := fun a ha => h₀.roots a (hsub ha)
    apart := fun b hb a ha => h₀.apart b hb a (hsub ha) }

/-- What an object holds may be given to another one. -/
theorem Rooted.inner_of_mem (h₀ : h.Rooted R) (ha : a < h.next) (hr : r ∈ (h.obj a).refs) :
    h.Inner R r := by
  rintro b rfl
  exact ⟨h₀.allocated a ha b hr, fun hb => h₀.apart a ha b hb hr⟩

theorem Rooted.inner_of_attr? (h₀ : h.Rooted R) (hx : h.Holds x) (hr : h.attr? x key = some r) :
    h.Inner R r := by
  obtain ⟨a, entries, rfl, hobj, hlookup⟩ := attr?_eq_some.mp hr
  apply h₀.inner_of_mem (hx a rfl)
  rw [hobj]
  exact List.mem_map.mpr ⟨(key, r), mem_of_lookup_eq_some hlookup, rfl⟩

/-- A new object of references that may be held. -/
theorem Rooted.alloc (h₀ : h.Rooted R) {o : Obj} (ho : ∀ r ∈ o.refs, h.Inner R r)
    (hkeys : ∀ entries, o = .dict entries → (dictKeys entries).Nodup) : (h.alloc o).Rooted R := by
  have hrefs : ∀ b < (h.alloc o).next, ∀ r ∈ ((h.alloc o).obj b).refs, h.Inner R r := by
    intro b hb r hr
    rcases Nat.lt_succ_iff_lt_or_eq.mp hb with hold | rfl
    · rw [alloc_obj_of_lt _ hold] at hr
      exact h₀.inner_of_mem hold hr
    · rw [alloc_obj_self] at hr
      exact ho r hr
  exact {
    allocated := fun b hb a ha => (hrefs b hb _ ha a rfl).1.trans (Nat.lt_succ_self _)
    keys := h₀.keys.alloc hkeys
    roots := fun a ha => (h₀.roots a ha).trans (Nat.lt_succ_self _)
    apart := fun b hb a ha hrefers => (hrefs b hb _ hrefers a rfl).2 ha }

/-- An object is given other references that may be held. -/
theorem Rooted.write (h₀ : h.Rooted R) {o : Obj} (ho : ∀ r ∈ o.refs, h.Inner R r)
    (hkeys : ∀ entries, o = .dict entries → (dictKeys entries).Nodup) :
    (h.write a o).Rooted R := by
  have hrefs : ∀ b < h.next, ∀ r ∈ ((h.write a o).obj b).refs, h.Inner R r := by
    intro b hb r hr
    by_cases heq : b = a
    · subst heq
      rw [write_obj_self] at hr
      exact ho r hr
    · rw [write_obj_ne _ heq] at hr
      exact h₀.inner_of_mem hb hr
  refine { allocated := ?_, keys := ?_, roots := h₀.roots, apart := ?_ }
  · intro b hb c hc
    exact (hrefs b hb _ hc c rfl).1
  · intro b entries hobj
    by_cases heq : b = a
    · subst heq
      rw [write_obj_self] at hobj
      exact hkeys entries hobj
    · rw [write_obj_ne _ heq] at hobj
      exact h₀.keys b entries hobj
  · intro b hb c hc hrefers
    exact (hrefs b hb _ hrefers c rfl).2 hc

theorem Spares.refl (h₀ : h.Rooted R) (x : Ref) : h.Spares R x h :=
  ⟨h₀, le_rfl, fun _ _ _ => rfl⟩

theorem Spares.trans (hfirst : h.Spares R x h₁) (hsecond : h₁.Spares R x h') : h.Spares R x h' where
  rooted := hsecond.rooted
  next_le := hfirst.next_le.trans hsecond.next_le
  same a ha hne := (hsecond.same a ha hne).trans (hfirst.same a ha hne)

/-- A step on the inside of documents changes no root at all. -/
theorem Spares.inside (hstep : h.Spares R y h') (hy : h.Inner R y) :
    ∀ a ∈ R, h'.obj a = h.obj a := by
  intro a ha
  apply hstep.same a ha
  rintro rfl
  exact (hy a rfl).2 ha

theorem Spares.of_inner (hstep : h.Spares R y h') (hy : h.Inner R y) (x : Ref) :
    h.Spares R x h' :=
  ⟨hstep.rooted, hstep.next_le, fun a ha _ => hstep.inside hy a ha⟩

theorem attr?_congr (hobj : h'.obj a = h.obj a) (key : String) :
    h'.attr? (.obj a) key = h.attr? (.obj a) key := by
  simp only [attr?, hobj]

/-! ## Loading -/

/-- New objects that refer to new ones only refer to none of the roots. -/
theorem Rooted.extend (h₀ : h.Rooted R) (hext : h.Extends h₁) (hkeys : h₁.UniqueKeys) :
    h₁.Rooted R := by
  refine { h₀.toWellFormed.extend hext hkeys with
    roots := fun a ha => (h₀.roots a ha).trans_le hext.next_le
    apart := ?_ }
  intro b hb a ha hrefers
  by_cases hold : b < h.next
  · rw [Refers, hext.obj_eq b hold] at hrefers
    exact h₀.apart b hold a ha hrefers
  · have hnew := hext.fresh b (Nat.not_lt.mp hold) hb _ hrefers a rfl
    exact absurd (h₀.roots a ha) (Nat.not_lt.mpr hnew.1)

/-- The object that is made last is a root. -/
theorem Rooted.alloc_root (h₀ : h.Rooted R) {o : Obj} (ho : ∀ r ∈ o.refs, h.Inner R r)
    (hkeys : ∀ entries, o = .dict entries → (dictKeys entries).Nodup) :
    (h.alloc o).Rooted (insert h.next R) := by
  have hall := h₀.alloc ho hkeys
  refine { hall.toWellFormed with roots := ?_, apart := ?_ }
  · rintro a (rfl | ha)
    · exact Nat.lt_succ_self _
    · exact hall.roots a ha
  · rintro b hb a (rfl | ha) hrefers
    · rcases Nat.lt_succ_iff_lt_or_eq.mp hb with hold | rfl
      · rw [Refers, alloc_obj_of_lt _ hold] at hrefers
        exact absurd (h₀.allocated b hold _ hrefers) (Nat.lt_irrefl _)
      · rw [Refers, alloc_obj_self] at hrefers
        exact absurd (ho _ hrefers _ rfl).1 (Nat.lt_irrefl _)
    · exact hall.apart b hb a ha hrefers

/-- What has been loaded: the roots there were are roots still, the objects there were
are the same, and the new document has a root of its own. -/
structure RootLoaded (R : Set Addr) (h : Heap) (x : Ref) (h' : Heap) : Prop where
  rooted : h'.Rooted R
  next_le : h.next ≤ h'.next
  obj_eq : ∀ a < h.next, h'.obj a = h.obj a
  root : ∀ a, x = .obj a → h.next ≤ a ∧ h'.Rooted (insert a R)

theorem Rooted.load_alloc (h₀ : h.Rooted R) {o : Obj} (hloads : h.Loads o.refs h₁)
    (hkeys : h₁.UniqueKeys) (ho : ∀ entries, o = .dict entries → (dictKeys entries).Nodup) :
    RootLoaded R h (.obj h₁.next) (h₁.alloc o) := by
  have hrooted := h₀.extend hloads.toExtends hkeys
  have hinner : ∀ r ∈ o.refs, h₁.Inner R r := fun r hr a ha =>
    ⟨(hloads.within r hr a ha).2, fun hroot =>
      absurd (h₀.roots a hroot) (Nat.not_lt.mpr (hloads.within r hr a ha).1)⟩
  have halloc := h₀.extend hloads.alloc.toExtends (hkeys.alloc ho)
  refine ⟨halloc, hloads.alloc.next_le, hloads.alloc.obj_eq, ?_⟩
  rintro a heq
  cases heq
  exact ⟨hloads.next_le, hrooted.alloc_root hinner ho⟩

theorem Rooted.load (h₀ : h.Rooted R) {v : Val} (hv : v.WellFormed) :
    RootLoaded R h (h.load v).1 (h.load v).2 := by
  cases v with
  | scalar s => exact ⟨h₀, le_rfl, fun _ _ => rfl, fun _ heq => by cases heq⟩
  | list items =>
      have hitems := Val.wellFormed_list_iff.mp hv
      exact h₀.load_alloc (loadItems_loads h fun x _ => load_loads x)
        (h₀.keys.loadItems fun x hx _ hkeys => hkeys.load (hitems x hx)) fun _ heq => by cases heq
  | dict entries =>
      obtain ⟨hnodup, hvalues⟩ := Val.wellFormed_dict_iff.mp hv
      refine h₀.load_alloc (loadEntries_loads h fun entry _ => load_loads entry.2)
        (h₀.keys.loadEntries fun entry hentry _ hkeys => hkeys.load (hvalues entry hentry)) ?_
      intro refs heq
      cases heq
      rwa [dictKeys_loadEntries]

/-- The mapping has the entries of the tree. -/
def HasEntries (h : Heap) (x : Ref) (v : Val) : Prop :=
  ∀ key, h.attr? x key = none ∧ v.attr? key = none ∨
    ∃ w h₁, v.attr? key = some w ∧ h.attr? x key = some (Heap.load w h₁).1

theorem HasEntries.none_iff {v : Val} (hx : h.HasEntries x v) (key : String) :
    h.attr? x key = none ↔ v.attr? key = none := by
  rcases hx key with ⟨hr, hv⟩ | ⟨w, h₁, hv, hr⟩
  · exact iff_of_true hr hv
  · simp [hr, hv]

theorem HasEntries.scalar_iff {v : Val} (hx : h.HasEntries x v) {s : Scalar} :
    h.attr? x key = some (.scalar s) ↔ v.attr? key = some (.scalar s) := by
  rcases hx key with ⟨hr, hv⟩ | ⟨w, h₁, hv, hr⟩
  · simp [hr, hv]
  · rw [hr, hv]
    cases w with
    | scalar t => simp [Heap.load]
    | list | dict => simp [Heap.load]

/-- An entry of a loaded document is a loaded document. -/
theorem lookup_loadEntries (entries : Entries) (h : Heap) (key : String) :
    (h.loadEntries entries).1.lookup key = none ∧ entries.lookup key = none ∨
      ∃ w h₁, entries.lookup key = some w ∧
        (h.loadEntries entries).1.lookup key = some (Heap.load w h₁).1 := by
  induction entries generalizing h with
  | nil => exact .inl ⟨rfl, rfl⟩
  | cons entry rest ih =>
      obtain ⟨own, x⟩ := entry
      rw [show (h.loadEntries ((own, x) :: rest)).1 =
        (own, (h.load x).1) :: ((h.load x).2.loadEntries rest).1 from rfl, List.lookup_cons,
        List.lookup_cons]
      cases key == own with
      | true => exact .inr ⟨x, h, rfl, rfl⟩
      | false => exact ih (h.load x).2

theorem hasEntries_load (v : Val) (h : Heap) : (h.load v).2.HasEntries (h.load v).1 v := by
  intro key
  cases v with
  | scalar s => exact .inl ⟨rfl, rfl⟩
  | list items =>
      refine .inl ⟨?_, rfl⟩
      have hself : (h.load (.list items)).2.obj (h.loadItems items).2.next =
          .list (h.loadItems items).1 := alloc_obj_self _ _
      rw [show (h.load (.list items)).1 = .obj (h.loadItems items).2.next from rfl, attr?]
      simp only [hself]
  | dict entries =>
      have hself : (h.load (.dict entries)).2.obj (h.loadEntries entries).2.next =
          .dict (h.loadEntries entries).1 := alloc_obj_self _ _
      rw [show (h.load (.dict entries)).1 = .obj (h.loadEntries entries).2.next from rfl, attr?]
      simp only [hself]
      exact lookup_loadEntries entries h key

/-! ## Reading -/

/-- What a mapping is read as has its keys. -/
theorem read_dict {depth : Nat} {v : Val} {entries : List (String × Ref)}
    (hobj : h.obj a = .dict entries) (hread : h.read (depth + 1) (.obj a) = .ok v) :
    ∃ values, v = .dict values ∧ List.Forall₂
      (fun entry value => value.1 = entry.1 ∧ h.read depth entry.2 = .ok value.2)
      entries values := by
  simp only [read, hobj, Lib.bind_eq_ok, Except.ok.injEq] at hread
  obtain ⟨values, hvalues, rfl⟩ := hread
  refine ⟨values, rfl, (Lib.mapM_eq_ok.mp hvalues).imp ?_⟩
  rintro ⟨key, ref⟩ ⟨own, value⟩ hentry
  simp only [Lib.bind_eq_ok, Except.ok.injEq, Prod.mk.injEq] at hentry
  obtain ⟨x, hx, rfl, rfl⟩ := hentry
  exact ⟨rfl, hx⟩

theorem read_scalar {depth : Nat} {s : Scalar} {v : Val}
    (hread : h.read depth (.scalar s) = .ok v) : v = .scalar s := by
  cases depth <;> exact (Except.ok.inj hread).symm

/-- The scalars a mapping holds are read. -/
theorem attr?_read {depth : Nat} {s : Scalar} {v : Val} (hattr : h.attr? x key = some (.scalar s))
    (hread : h.read depth x = .ok v) : v.attr? key = some (.scalar s) := by
  obtain ⟨a, entries, rfl, hobj, hlookup⟩ := attr?_eq_some.mp hattr
  cases depth with
  | zero => cases hread
  | succ depth =>
      obtain ⟨values, rfl, hvalues⟩ := read_dict hobj hread
      change values.lookup key = _
      clear hobj hread hattr
      induction hvalues with
      | nil => cases hlookup
      | @cons entry value entries values hentry _ ih =>
          obtain ⟨own, ref⟩ := entry
          obtain ⟨own', y⟩ := value
          obtain ⟨rfl, hy⟩ := hentry
          rw [List.lookup_cons] at hlookup ⊢
          cases heq : key == own' with
          | true =>
              simp only [heq, Option.some.injEq] at hlookup ⊢
              subst hlookup
              exact read_scalar hy
          | false =>
              simp only [heq] at hlookup ⊢
              exact ih hlookup

/-- What is read off Python objects is a Python document. -/
theorem UniqueKeys.read (hkeys : h.UniqueKeys) {depth : Nat} {v : Val}
    (hread : h.read depth x = .ok v) : v.WellFormed := by
  induction depth generalizing x v with
  | zero =>
      cases x with
      | scalar s => rw [read_scalar hread]; exact .scalar s
      | obj a => cases hread
  | succ depth ih =>
      cases x with
      | scalar s => rw [read_scalar hread]; exact .scalar s
      | obj a =>
          cases hobj : h.obj a with
          | list items =>
              simp only [Heap.read, hobj, Lib.bind_eq_ok, Except.ok.injEq] at hread
              obtain ⟨values, hvalues, rfl⟩ := hread
              rw [Val.wellFormed_list_iff]
              intro y hy
              obtain ⟨ref, -, href⟩ := Lib.exists_of_mem_mapM hvalues hy
              exact ih href
          | dict entries =>
              obtain ⟨values, rfl, hvalues⟩ := read_dict hobj hread
              have hsame : dictKeys entries = dictKeys values := by
                rw [← List.forall₂_eq_eq_eq, dictKeys, dictKeys, List.forall₂_map_left_iff,
                  List.forall₂_map_right_iff]
                exact hvalues.imp fun _ _ hentry => hentry.1.symm
              refine Val.wellFormed_dict_iff.mpr ⟨hsame ▸ hkeys a entries hobj, ?_⟩
              intro value hvalue
              obtain ⟨entry, -, -, hentry⟩ := exists_of_mem_forall₂ hvalues.flip hvalue
              exact ih hentry

end

end Heap

namespace HeapM

open Heap

variable {R : Set Addr} {h h' : Heap} {x value r : Ref} {key : String}

/-- An entry of a mapping is assigned. -/
structure Assigns (R : Set Addr) (x : Ref) (key : String) (h h' : Heap) : Prop
    extends Spares R x h h' where
  others : ∀ a ∈ R, x = .obj a → ∀ other, other ≠ key → h'.attr? x other = h.attr? x other

/-- A step on the inside of documents leaves the entries of the others alone. -/
theorem Assigns.of_inner {y : Ref} (hstep : Spares R y h h') (hy : h.Inner R y) (x : Ref)
    (key : String) : Assigns R x key h h' := by
  refine ⟨hstep.of_inner hy x, ?_⟩
  rintro a ha rfl other -
  exact attr?_congr (hstep.inside hy a ha) other

theorem Assigns.trans {h₁ : Heap} (hfirst : Assigns R x key h h₁)
    (hsecond : Assigns R x key h₁ h') : Assigns R x key h h' := by
  refine ⟨hfirst.toSpares.trans hsecond.toSpares, fun a ha heq other hne => ?_⟩
  rw [hsecond.others a ha heq other hne, hfirst.others a ha heq other hne]

theorem mem_refs_dictSet {entries : List (String × Ref)}
    (hr : r ∈ (Obj.dict (dictSet key value entries)).refs) :
    r = value ∨ r ∈ (Obj.dict entries).refs := by
  obtain ⟨entry, hentry, rfl⟩ := List.mem_map.mp hr
  rcases mem_dictSet hentry with rfl | hold
  · exact Or.inl rfl
  · exact Or.inr (List.mem_map_of_mem hold)

theorem setItem_assigns (h₀ : h.Rooted R) (hx : h.Holds x) (hvalue : h.Inner R value) {u : Unit}
    (hrun : setItem x key value h = .ok (u, h')) :
    Assigns R x key h h' ∧ h'.attr? x key = some value := by
  obtain ⟨a, entries, rfl, hobj, rfl⟩ := setItem_eq_ok.mp hrun
  have hrooted : (h.write a (.dict (dictSet key value entries))).Rooted R := by
    apply h₀.write
    · intro r hr
      rcases mem_refs_dictSet hr with rfl | hold
      · exact hvalue
      · exact h₀.inner_of_mem (hx a rfl) (hobj ▸ hold)
    · intro refs heq
      cases heq
      exact nodup_dictKeys_dictSet (h₀.keys a entries hobj) value
  refine ⟨⟨⟨hrooted, le_rfl, ?_⟩, ?_⟩, ?_⟩
  · intro b _ hne
    exact write_obj_ne h (fun heq => hne (congrArg Ref.obj heq.symm)) _
  · intro b _ heq other hne
    simp only [attr?, write_obj_self, hobj, lookup_dictSet_ne hne]
  · simp only [attr?, write_obj_self, lookup_dictSet_self]

theorem append_spares (h₀ : h.Rooted R) (hx : h.Holds x) (hvalue : h.Inner R value) {u : Unit}
    (hrun : append x value h = .ok (u, h')) : Spares R x h h' := by
  cases x with
  | scalar s => cases hrun
  | obj a =>
      simp only [append] at hrun
      cases hobj : h.obj a with
      | dict entries => simp [hobj] at hrun
      | list items =>
          simp only [hobj, Except.ok.injEq, Prod.mk.injEq, true_and] at hrun
          subst hrun
          refine ⟨?_, le_rfl, fun b _ hne =>
            write_obj_ne h (fun heq => hne (congrArg Ref.obj heq.symm)) _⟩
          apply h₀.write
          · intro r hr
            rcases List.mem_append.mp hr with hold | hnew
            · exact h₀.inner_of_mem (hx a rfl) (by rw [hobj]; exact hold)
            · rwa [List.mem_singleton.mp hnew]
          · intro entries heq
            cases heq

/-- The rule for a loop. -/
theorem forEach_invariant {α : Type} {items : List α} {body : α → HeapM Unit} {I : Heap → Prop}
    {u : Unit} (hbody : ∀ item ∈ items, ∀ {h h' : Heap}, I h → body item h = .ok ((), h') → I h')
    (hI : I h) (hrun : forEach items body h = .ok (u, h')) : I h' := by
  induction items generalizing h with
  | nil =>
      obtain ⟨-, rfl⟩ := HeapM.pure_eq_ok.mp hrun
      exact hI
  | cons item rest ih =>
      obtain ⟨h₁, hfirst, hrest⟩ := forEach_cons_eq_ok.mp hrun
      exact ih (fun other hother => hbody other (List.mem_cons_of_mem item hother))
        (hbody item List.mem_cons_self hI hfirst) hrest

/-- What one iteration brings about and the iterations keep. -/
theorem forEach_reached {α : Type} {items : List α} {body : α → HeapM Unit} {I J : Heap → Prop}
    {item : α} {u : Unit} (hmem : item ∈ items)
    (hbody : ∀ other ∈ items, ∀ {h h' : Heap}, I h → body other h = .ok ((), h') → I h')
    (hreach : ∀ {h h' : Heap}, I h → body item h = .ok ((), h') → J h')
    (hkeep : ∀ other ∈ items, ∀ {h h' : Heap}, I h ∧ J h → body other h = .ok ((), h') → J h')
    (hI : I h) (hrun : forEach items body h = .ok (u, h')) : J h' := by
  induction items generalizing h with
  | nil => cases hmem
  | cons first rest ih =>
      obtain ⟨h₁, hfirst, hrest⟩ := forEach_cons_eq_ok.mp hrun
      have hI₁ := hbody first List.mem_cons_self hI hfirst
      have hbody' := fun other hother {h h' : Heap} =>
        @hbody other (List.mem_cons_of_mem first hother) h h'
      rcases List.mem_cons.mp hmem with rfl | hmem
      · refine (forEach_invariant (I := fun h => I h ∧ J h) ?_ ⟨hI₁, hreach hI hfirst⟩ hrest).2
        intro other hother h h' hboth hrun
        exact ⟨hbody' other hother hboth.1 hrun,
          hkeep other (List.mem_cons_of_mem item hother) hboth hrun⟩
      · exact ih hmem hbody' (fun other hother => hkeep other (List.mem_cons_of_mem first hother))
          hI₁ hrest

theorem newList_spares (h₀ : h.Rooted R) {items : List Ref} (hitems : ∀ r ∈ items, h.Inner R r)
    (hrun : newList items h = .ok (r, h')) :
    h'.Inner R r ∧ ∀ x, Spares R x h h' := by
  cases hrun
  have hrooted : (h.alloc (.list items)).Rooted R :=
    h₀.alloc hitems fun _ heq => by cases heq
  refine ⟨?_, fun x => ⟨hrooted, Nat.le_succ _, fun a ha _ => ?_⟩⟩
  · rintro a heq
    cases heq
    exact ⟨Nat.lt_succ_self _, fun hroot => Nat.lt_irrefl _ (h₀.roots _ hroot)⟩
  · exact alloc_obj_of_lt h (h₀.roots a ha) _

/-- Loaded documents: each has a root of its own and the entries of its tree. -/
structure LoadedAll (R : Set Addr) (vs : List Val) (refs : List Ref) (h h' : Heap) : Prop where
  rooted : h'.Rooted (R ∪ {a | Ref.obj a ∈ refs})
  next_le : h.next ≤ h'.next
  obj_eq : ∀ a < h.next, h'.obj a = h.obj a
  fresh : ∀ a, Ref.obj a ∈ refs → h.next ≤ a
  entries : List.Forall₂ (fun v ref => h'.HasEntries ref v) vs refs

theorem loadAll_loadedAll {vs : List Val} {refs : List Ref} (h₀ : h.Rooted R)
    (hvs : ∀ v ∈ vs, v.WellFormed) (hrun : loadAll vs h = .ok (refs, h')) :
    LoadedAll R vs refs h h' := by
  induction vs generalizing R h refs with
  | nil =>
      obtain ⟨rfl, rfl⟩ := HeapM.pure_eq_ok.mp hrun
      refine ⟨h₀.mono ?_, le_rfl, fun _ _ => rfl, ?_, .nil⟩
      · rintro a (ha | ha)
        · exact ha
        · cases ha
      · intro a ha
        cases ha
  | cons v rest ih =>
      obtain ⟨ref, h₁, hload, hrun⟩ := HeapM.bind_eq_ok.mp hrun
      obtain ⟨others, h₂, hothers, hret⟩ := HeapM.bind_eq_ok.mp hrun
      obtain ⟨rfl, rfl⟩ := HeapM.pure_eq_ok.mp hret
      rw [List.forall_mem_cons] at hvs
      have hfirst := h₀.load hvs.1
      rw [show h.load v = (ref, h₁) from Except.ok.inj hload] at hfirst
      have hroots : h₁.Rooted (R ∪ {a | ref = .obj a}) := by
        cases ref with
        | scalar s =>
            refine hfirst.rooted.mono ?_
            rintro a (ha | ha)
            · exact ha
            · cases ha
        | obj b =>
            refine (hfirst.root b rfl).2.mono ?_
            rintro a (ha | ha)
            · exact Or.inr ha
            · cases ha
              exact Or.inl rfl
      have hrest := ih hroots hvs.2 hothers
      have hlt : ∀ a, ref = .obj a → a < h₁.next := fun a ha => hroots.roots a (Or.inr ha)
      refine ⟨hrest.rooted.mono ?_, hfirst.next_le.trans hrest.next_le, ?_, ?_,
        .cons ?_ hrest.entries⟩
      · rintro a (ha | ha)
        · exact Or.inl (Or.inl ha)
        · rcases List.mem_cons.mp ha with rfl | ha
          · exact Or.inl (Or.inr rfl)
          · exact Or.inr ha
      · intro a ha
        rw [hrest.obj_eq a (ha.trans_le hfirst.next_le), hfirst.obj_eq a ha]
      · intro a ha
        rcases List.mem_cons.mp ha with rfl | ha
        · exact (hfirst.root a rfl).1
        · exact hfirst.next_le.trans (hrest.fresh a ha)
      · have hentries := hasEntries_load v h
        rw [show h.load v = (ref, h₁) from Except.ok.inj hload] at hentries
        cases ref with
        | scalar s => exact hentries
        | obj a =>
            intro key
            rw [attr?_congr (hrest.obj_eq a (hlt a rfl))]
            exact hentries key

end HeapM

end LambdaStack
