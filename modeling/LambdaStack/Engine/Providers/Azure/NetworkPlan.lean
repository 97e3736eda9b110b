/-
# Which group guards which interface

The network of a cluster as a function of its components, in the order of the
cluster model. A component brings a new address pool, and with it a subnet, a
security group and their association, or joins the subnet of an earlier one;
its interfaces name the subnet of its pool and the group that was created last.
A kind of document the user replaces is one shared object, of which the emitted
infrastructure shows the last assignment only.
-/

import Mathlib.Data.List.Induction

namespace LambdaStack.Azure

universe u v w

section Shared

variable {L : Type u} {V : Type v}

/-- What is read at the end off documents that were emitted with the given
values: a shared document shows the last of them everywhere. -/
def expose (shared : Bool) (entries : List (L × V)) : List (L × V) :=
  match shared, entries.getLast? with
  | true, some last => entries.map fun entry => (entry.1, last.2)
  | _, _ => entries

/-- Emit a document that shows `entry`. -/
def emit (shared : Bool) (shown : List (L × V)) (entry : L × V) : List (L × V) :=
  (if shared then shown.map fun old => (old.1, entry.2) else shown) ++ [entry]

@[simp]
theorem expose_nil (shared : Bool) : expose shared ([] : List (L × V)) = [] := by
  cases shared <;> rfl

theorem expose_false (entries : List (L × V)) : expose false entries = entries := by
  simp [expose]

theorem expose_true_append (entries : List (L × V)) (entry : L × V) :
    expose true (entries ++ [entry]) =
      (entries ++ [entry]).map fun old => (old.1, entry.2) := by
  simp [expose]

/-- Emitting one more document. -/
theorem expose_append (shared : Bool) (entries : List (L × V)) (entry : L × V) :
    expose shared (entries ++ [entry]) = emit shared (expose shared entries) entry := by
  cases shared with
  | false => simp [expose_false, emit]
  | true =>
      rw [expose_true_append]
      cases hlast : entries.getLast? with
      | none => simp [List.getLast?_eq_none_iff.mp hlast, expose, emit]
      | some last => simp [expose, emit, hlast]

theorem expose_map {L' V' : Type w} (shared : Bool) (entries : List (L × V))
    (g : L → L') (f : V → V') :
    expose shared (entries.map fun entry => (g entry.1, f entry.2)) =
      (expose shared entries).map fun entry => (g entry.1, f entry.2) := by
  induction entries using List.reverseRecOn with
  | nil => simp
  | append_singleton entries entry ih =>
      rw [List.map_append, List.map_singleton, expose_append, expose_append, ih]
      cases shared <;> simp [emit]

/-- The entries shown for a list, with labels and values given by functions. -/
theorem mem_expose_map {X : Type u} {D : Type v} {L' : Type w} {V' : Type w} (shared : Bool)
    (xs : List X) (lab : X → L) (val : X → D) (g : L → L') (f : D → V') {label : L'} {value : V'} :
    (label, value) ∈ expose shared (xs.map fun x => (g (lab x), f (val x))) ↔
      ∃ e ∈ expose shared (xs.map fun x => (lab x, val x)), g e.1 = label ∧ f e.2 = value := by
  have hmap : xs.map (fun x => (g (lab x), f (val x))) =
      (xs.map fun x => (lab x, val x)).map fun e => (g e.1, f e.2) := by
    rw [List.map_map]
    rfl
  rw [hmap, expose_map]
  simp only [List.mem_map, Prod.mk.injEq]

/-- Sharing changes what is shown, not for which components. -/
theorem fst_mem_of_mem_expose {shared : Bool} {entries : List (L × V)} {entry : L × V}
    (h : entry ∈ expose shared entries) : ∃ old ∈ entries, old.1 = entry.1 := by
  cases shared with
  | false =>
      rw [expose_false] at h
      exact ⟨entry, h, rfl⟩
  | true =>
      unfold expose at h
      split at h
      · obtain ⟨old, hold, rfl⟩ := List.mem_map.mp h
        exact ⟨old, hold, rfl⟩
      · exact ⟨entry, h, rfl⟩

end Shared

section Plan

variable {C : Type u} (shared : Bool) (samePool : C → C → Bool)

/-- The components whose subnets an address pool is looked up in, among those
that brought a new pool so far. -/
def visible (seen : List C) : List C := if shared then seen.getLast?.toList else seen

theorem visible_map {D : Type v} (f : C → D) (seen : List C) :
    visible shared (seen.map f) = (visible shared seen).map f := by
  cases shared with
  | false => rfl
  | true => cases h : seen.getLast? <;> simp [visible, h]

/-- A search in what the documents show is a search among the visible values. -/
theorem find?_expose {L : Type u} {V : Type v} (shared : Bool) (entries : List (L × V))
    (f : V → Bool) :
    ((expose shared entries).find? fun entry => f entry.2).map Prod.snd =
      (visible shared (entries.map Prod.snd)).find? f := by
  cases shared with
  | false =>
      rw [expose_false, visible, if_neg (by simp), List.find?_map]
      rfl
  | true =>
      rw [visible, if_pos rfl]
      induction entries using List.reverseRecOn with
      | nil => rfl
      | append_singleton entries entry _ =>
          rw [expose_true_append, List.map_append (f := Prod.snd), List.map_singleton,
            List.getLast?_append]
          simp only [List.getLast?_singleton, Option.some_or, Option.toList_some,
            List.find?_singleton]
          cases hf : f entry.2 with
          | true => cases entries <;> simp [hf]
          | false =>
              rw [List.find?_eq_none.mpr]
              · rfl
              · intro old hold
                obtain ⟨old', -, rfl⟩ := List.mem_map.mp hold
                simp [hf]

/-- The component whose subnet a component joins. -/
def joined (seen : List C) (c : C) : Option C := (visible shared seen).find? (samePool · c)

/-- The components that have brought a pool after one more component: it does
when it joins no subnet. -/
def bring (seen : List C) (c : C) : List C :=
  match joined shared samePool seen c with
  | some _ => seen
  | none => seen ++ [c]

/-- The components that bring a new address pool, in order. -/
def introducing (cs : List C) : List C := cs.foldl (bring shared samePool) []

/-- An interface of a component: the component its subnet was created for, and
the one its security group was. -/
structure Placement (C : Type u) where
  component : C
  owner : C
  group : C

/-- The placement of a component after the components in `seen` have brought
their pools. A component that joins a subnet gets the last group. -/
def place (seen : List C) (c : C) : Placement C :=
  match joined shared samePool seen c with
  | some owner => ⟨c, owner, seen.getLast?.getD c⟩
  | none => ⟨c, c, c⟩

/-- The placements of all interfaces, `count c` of them for the component `c`. -/
def placements (count : C → Nat) (seen : List C) : List C → List (Placement C)
  | [] => []
  | c :: rest =>
      List.replicate (count c) (place shared samePool seen c) ++
        placements count (bring shared samePool seen c) rest

variable {shared samePool}

/-- The group of a component is the one that was created last. -/
theorem getLast?_bring (seen : List C) (c : C) :
    (bring shared samePool seen c).getLast? = some (place shared samePool seen c).group := by
  unfold bring place
  cases h : joined shared samePool seen c with
  | none => simp
  | some owner =>
      cases hlast : seen.getLast? with
      | some last => simp
      | none =>
          rw [List.getLast?_eq_none_iff] at hlast
          subst hlast
          cases shared <;> simp [joined, visible] at h

theorem place_component (seen : List C) (c : C) :
    (place shared samePool seen c).component = c := by
  unfold place
  cases joined shared samePool seen c <;> rfl

theorem component_mem_of_mem_placements {count : C → Nat} {seen cs : List C} {p : Placement C}
    (h : p ∈ placements shared samePool count seen cs) : p.component ∈ cs := by
  induction cs generalizing seen with
  | nil => cases h
  | cons c rest ih =>
      rcases List.mem_append.mp h with h | h
      · rw [List.eq_of_mem_replicate h, place_component]
        exact List.mem_cons_self
      · exact List.mem_cons_of_mem c (ih h)

end Plan

/-- The kinds of network documents the user replaces. -/
structure Replaced where
  subnet : Bool
  group : Bool
  association : Bool
  interface : Bool

section Properties

variable {C : Type u} {K : Type v} {R : Type w} (replaced : Replaced)
  (samePool : C → C → Bool) (count : C → Nat) (key : C → K)

/-- The placements the emitted interfaces show, by component. -/
def shownPlacements (cs : List C) : List (C × Placement C) :=
  expose replaced.interface
    ((placements replaced.subnet samePool count [] cs).map fun p => (p.component, p))

/-- The components whose associations are shown. -/
def shownAssociations (cs : List C) : List (C × C) :=
  expose replaced.association
    ((introducing replaced.subnet samePool cs).map fun c => (c, c))

/-- The components whose groups are shown. -/
def shownGroups (cs : List C) : List (C × C) :=
  expose replaced.group ((introducing replaced.subnet samePool cs).map fun c => (c, c))

/-- Every interface names the group that an association ties to its subnet. -/
def GroupsFitSubnets (cs : List C) : Prop :=
  ∀ p ∈ shownPlacements replaced samePool count cs,
    ∃ a ∈ shownAssociations replaced samePool cs,
      key a.2 = key p.2.owner ∧ key a.2 = key p.2.group

/-- The group an interface of a component names has every rule of the
component. -/
def GroupsHaveRules (rules : C → List R) (sameRule : R → R → Bool) (cs : List C) : Prop :=
  ∀ p ∈ shownPlacements replaced samePool count cs,
    ∃ g ∈ shownGroups replaced samePool cs, key g.2 = key p.2.group ∧
      ∀ rule ∈ rules p.1, ∃ rule' ∈ rules g.2, sameRule rule' rule = true

end Properties

end LambdaStack.Azure
