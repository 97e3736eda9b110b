/-
# Merging changes the top of one document only

`merge_objdict` writes to the mapping it merges into and to the inside of documents,
so the other documents keep their top. A scalar of the extending document takes the
place of the entry of its key, which must have its type.
-/

import LambdaStack.Data.Roots
import LambdaStack.Helpers.ObjectMerge
import LambdaStack.Lib.StateFrame

namespace LambdaStack

open Lib HeapM

namespace Objects

variable {R : Set Addr} {h h' h₁ : Heap} {x extendBy : Ref} {key : String} {u : Unit}

/-! ## Replacing yes and no -/

/-- An entry stays, or it was yes or no. -/
def ReplacedAt (h h' : Heap) (x : Ref) (key : String) : Prop :=
  h'.attr? x key = h.attr? x key ∨ ∃ s type b, h.attr? x key = some (.scalar (.str s type)) ∧
    yesno? s = some b ∧ h'.attr? x key = some (.scalar (.bool b))

/-- A text that is there was there before. -/
theorem ReplacedAt.text {s : String} {type : StrType} (hstep : ReplacedAt h h' x key)
    (htext : h'.attr? x key = some (.scalar (.str s type))) :
    h.attr? x key = some (.scalar (.str s type)) := by
  rcases hstep with hsame | ⟨s', type', b, -, -, hnew⟩
  · rw [← hsame, htext]
  · cases htext.symm.trans hnew

/-- An entry that is missing was missing before. -/
theorem ReplacedAt.none_iff (hstep : ReplacedAt h h' x key) :
    h'.attr? x key = none ↔ h.attr? x key = none := by
  rcases hstep with hsame | ⟨s', type', b, hown, -, hnew⟩
  · rw [hsame]
  · simp [hown, hnew]

/-- Only the top of one document is changed, and there only yes and no. -/
structure KeepsPlain (R : Set Addr) (x : Ref) (h h' : Heap) : Prop
    extends h.Spares R x h' where
  replaced : ∀ a ∈ R, x = .obj a → ∀ key, ReplacedAt h h' x key

theorem KeepsPlain.refl (h₀ : h.Rooted R) (x : Ref) : KeepsPlain R x h h :=
  ⟨.refl h₀ x, fun _ _ _ _ => .inl rfl⟩

theorem KeepsPlain.trans (hfirst : KeepsPlain R x h h₁) (hsecond : KeepsPlain R x h₁ h') :
    KeepsPlain R x h h' := by
  refine ⟨hfirst.toSpares.trans hsecond.toSpares, fun a ha heq key => ?_⟩
  have hthen := hsecond.replaced a ha heq key
  rcases hfirst.replaced a ha heq key with hsame | ⟨s, type, b, hown, hyesno, hnew⟩
  · rwa [ReplacedAt, hsame] at hthen
  · refine .inr ⟨s, type, b, hown, hyesno, ?_⟩
    rcases hthen with hsame | ⟨_, _, _, hagain, -, -⟩
    · rw [hsame, hnew]
    · cases hnew.symm.trans hagain

theorem KeepsPlain.of_inner {y : Ref} (hstep : h.Spares R y h') (hy : h.Inner R y) (x : Ref) :
    KeepsPlain R x h h' := by
  refine ⟨hstep.of_inner hy x, ?_⟩
  rintro a ha rfl key
  exact .inl (Heap.attr?_congr (hstep.inside hy a ha) key)

/-- Replacing yes and no changes one document only. -/
theorem replaceYesno_keepsPlain {depth : Nat} (h₀ : h.Rooted R) (hx : h.Holds x)
    (hrun : replaceYesno depth x h = .ok (u, h')) : KeepsPlain R x h h' := by
  induction depth generalizing x h h' with
  | zero =>
      cases x with
      | scalar s =>
          obtain ⟨-, rfl⟩ := HeapM.pure_eq_ok.mp hrun
          exact .refl h₀ _
      | obj a => cases hrun
  | succ depth ih =>
      cases x with
      | scalar s =>
          obtain ⟨-, rfl⟩ := HeapM.pure_eq_ok.mp hrun
          exact .refl h₀ _
      | obj a =>
          simp only [replaceYesno] at hrun
          cases hobj : h.obj a with
          | list items =>
              rw [hobj] at hrun
              -- the items are inside the document, so its own list stays
              refine forEach_invariant (I := fun h₁ => KeepsPlain R (.obj a) h h₁) ?_
                (.refl h₀ _) hrun
              intro item hitem h₁ h₂ hkeeps hbody
              have hinner : h₁.Inner R item :=
                (h₀.inner_of_mem (hx a rfl) (hobj ▸ hitem)).mono hkeeps.next_le
              exact hkeeps.trans
                (.of_inner (ih hkeeps.rooted hinner.holds hbody).toSpares hinner _)
          | dict entries =>
              rw [hobj] at hrun
              refine forEach_invariant (I := fun h₁ => KeepsPlain R (.obj a) h h₁) ?_
                (.refl h₀ _) hrun
              intro key _ h₁ h₂ hkeeps hbody
              obtain ⟨val, _, hget, hbody⟩ := HeapM.bind_eq_ok.mp hbody
              obtain ⟨hval, rfl⟩ := getItem_eq_ok.mp hget
              have hx₁ := hx.mono hkeeps.next_le
              have hinner := hkeeps.rooted.inner_of_attr? hx₁ hval
              refine hkeeps.trans ?_
              have hinside : replaceYesno depth val h₁ = .ok ((), h₂) →
                  KeepsPlain R (.obj a) h₁ h₂ := fun hrun =>
                .of_inner (ih hkeeps.rooted hinner.holds hrun).toSpares hinner _
              cases val with
              | obj b => exact hinside hbody
              | scalar atom =>
                  cases atom with
                  | null | bool | int | float => exact hinside hbody
                  | str s =>
                      cases hyesno : yesno? s with
                      | none =>
                          simp only [hyesno] at hbody
                          obtain ⟨-, rfl⟩ := HeapM.pure_eq_ok.mp hbody
                          exact .refl hkeeps.rooted _
                      | some b =>
                          simp only [hyesno] at hbody
                          obtain ⟨hassigns, hset⟩ :=
                            setItem_assigns hkeeps.rooted hx₁ (Heap.inner_scalar R h₁ _) hbody
                          refine ⟨hassigns.toSpares, fun c hc heq other => ?_⟩
                          by_cases hother : other = key
                          · rw [hother]
                            exact .inr ⟨s, _, b, hval, hyesno, hset⟩
                          · exact .inl (hassigns.others c hc heq other hother)

/-! ## Merging lists -/

theorem itemsOf_eq_ok {items : List Ref} :
    itemsOf x h = .ok (items, h') ↔
      (∃ a, x = .obj a ∧ h.obj a = .list items) ∧ h = h' := by
  rw [itemsOf, HeapM.reads_eq_ok]
  cases x with
  | scalar s => simp
  | obj a => cases hobj : h.obj a <;> simp [hobj]

theorem preserves_reads {α : Type} (f : Heap → Res α) : Preserves (· = ·) (HeapM.reads f) :=
  preserves_of_same fun _ _ _ hrun => (HeapM.reads_eq_ok.mp hrun).2.symm

theorem preserves_assertUnique (depth : Nat) (items : List Ref) (key type : String) :
    Preserves (· = ·) (assertUniqueNamesInNamedList depth items key type) := by
  apply (preserves_reads _).bind
  intro names
  cases names.find? fun name => 1 < names.countP (·.pyEq name) with
  | none => exact preserves_pure ()
  | some name => exact preserves_of_same fun _ _ _ hrun => by cases hrun

theorem preserves_matchesOf (depth : Nat) (item : Ref) (items : List Ref) :
    Preserves (· = ·) (matchesOf depth item items) := by
  induction items with
  | nil => exact preserves_pure []
  | cons y rest ih =>
      apply (preserves_reads _).bind
      intro named
      apply Preserves.ite _ ih
      apply (preserves_reads _).bind
      intro name
      apply (preserves_reads _).bind
      intro own
      apply (preserves_reads _).bind
      intro same
      apply ih.bind
      intro found
      exact preserves_pure _

theorem mem_of_matchesOf {depth : Nat} {item y : Ref} {items found : List Ref}
    (hrun : matchesOf depth item items h = .ok (found, h')) (hy : y ∈ found) : y ∈ items := by
  induction items generalizing h h' found with
  | nil =>
      obtain ⟨rfl, -⟩ := HeapM.pure_eq_ok.mp hrun
      cases hy
  | cons head rest ih =>
      obtain ⟨named, h₁, -, hrun⟩ := HeapM.bind_eq_ok.mp hrun
      cases named with
      | false => exact List.mem_cons_of_mem _ (ih hrun hy)
      | true =>
          simp only [if_true, HeapM.bind_eq_ok] at hrun
          obtain ⟨_, _, -, _, _, -, same, _, -, others, h₂, hothers, hret⟩ := hrun
          obtain ⟨rfl, -⟩ := HeapM.pure_eq_ok.mp hret
          cases same with
          | false => exact List.mem_cons_of_mem _ (ih hothers hy)
          | true =>
              rcases List.mem_cons.mp hy with rfl | hy
              · exact List.mem_cons_self
              · exact List.mem_cons_of_mem _ (ih hothers hy)

theorem preserves_nameKnown (depth : Nat) (name : Ref) (items : List Ref) :
    Preserves (· = ·) (nameKnown depth name items) := by
  induction items with
  | nil => exact preserves_pure false
  | cons y rest ih =>
      apply (preserves_reads _).bind
      intro own
      apply (preserves_reads _).bind
      intro same
      apply ih.bind
      intro known
      exact preserves_pure _

/-- Adding the items without a match changes no top. -/
theorem appendUnmatched_spares {depth : Nat} {items : List Ref} (h₀ : h.Rooted R)
    (hx : h.Holds x) (hitems : ∀ r ∈ items, h.Inner R r)
    (hrun : appendUnmatched depth x key items h = .ok (u, h')) (y : Ref) : h.Spares R y h' := by
  refine forEach_invariant (I := fun h₁ => h.Spares R y h₁) ?_ (.refl h₀ y) hrun
  intro item hitem h₁ h₂ hspares hbody
  obtain ⟨marker, _, hmarker, hbody⟩ := HeapM.bind_eq_ok.mp hbody
  obtain ⟨-, rfl⟩ := HeapM.reads_eq_ok.mp hmarker
  cases marker with
  | true =>
      obtain ⟨-, rfl⟩ := HeapM.pure_eq_ok.mp hbody
      exact hspares
  | false =>
      simp only [Bool.false_eq_true, if_false, HeapM.bind_eq_ok, getItem_eq_ok,
        itemsOf_eq_ok] at hbody
      obtain ⟨list, _, ⟨hlist, rfl⟩, own, _, ⟨-, rfl⟩, name, _, ⟨-, rfl⟩, known, h₃, hknown,
        hbody⟩ := hbody
      obtain rfl : h₁ = h₃ := (preserves_nameKnown depth name own).rel hknown
      cases known with
      | true =>
          obtain ⟨-, rfl⟩ := HeapM.pure_eq_ok.mp hbody
          exact hspares
      | false =>
          have hinner := hspares.rooted.inner_of_attr? (hx.mono hspares.next_le) hlist
          have hstep := append_spares hspares.rooted hinner.holds
            ((hitems item hitem).mono hspares.next_le) hbody
          exact hspares.trans (hstep.of_inner hinner y)

/-- Merging a list assigns the entry of the list, or changes no top. -/
theorem mergeListBody_assigns {depth : Nat} {merge : Ref → Ref → HeapM Unit}
    (hmerge : ∀ {x y : Ref} {h h' : Heap}, h.Rooted R → h.Holds x → h.Holds y →
      merge x y h = .ok ((), h') → h.Spares R x h')
    (h₀ : h.Rooted R) (hx : h.Holds x) (hextend : h.Inner R extendBy)
    (hrun : mergeListBody depth merge x extendBy key h = .ok (u, h')) :
    Assigns R x key h h' := by
  simp only [mergeListBody, HeapM.bind_eq_ok, getItem_eq_ok, itemsOf_eq_ok,
    HeapM.reads_eq_ok] at hrun
  obtain ⟨current, _, ⟨hcurrent, rfl⟩, currentItems, _, ⟨⟨a, rfl, ha⟩, rfl⟩, items, _,
    ⟨⟨b, rfl, hb⟩, rfl⟩, named, _, ⟨-, rfl⟩, hrun⟩ := hrun
  have hcurrentInner : ∀ r ∈ currentItems, h.Inner R r := fun r hr =>
    h₀.inner_of_mem ((h₀.inner_of_attr? hx hcurrent).holds a rfl) (ha ▸ hr)
  have hinner : ∀ r ∈ items, h.Inner R r := fun r hr =>
    h₀.inner_of_mem (hextend.holds b rfl) (hb ▸ hr)
  cases named with
  | false => exact (setItem_assigns h₀ hx hextend hrun).1
  | true =>
      simp only [if_true, HeapM.bind_eq_ok, mergeStrategy, HeapM.reads_eq_ok] at hrun
      obtain ⟨merged, _, ⟨-, rfl⟩, _, h₁, hunique, _, h₂, hunique', hrun⟩ := hrun
      obtain rfl : h = h₁ := (preserves_assertUnique depth currentItems key "default").rel hunique
      obtain rfl : h = h₂ := (preserves_assertUnique depth items key "input").rel hunique'
      cases merged with
      | false =>
          simp only [Bool.false_eq_true, if_false, HeapM.bind_eq_ok, HeapM.reads_eq_ok,
            Except.ok.injEq] at hrun
          obtain ⟨kept, _, ⟨rfl, rfl⟩, list, h₁, hlist, hset⟩ := hrun
          obtain ⟨hnew, hspares⟩ := newList_spares h₀
            (fun r hr => hinner r (List.mem_filter.mp hr).1) hlist
          have hnone := hspares (.scalar .null)
          exact (Assigns.of_inner hnone (Heap.inner_scalar R h _) x key).trans
            (setItem_assigns hnone.rooted (hx.mono hnone.next_le) hnew hset).1
      | true =>
          simp only [if_true, HeapM.bind_eq_ok] at hrun
          obtain ⟨_, h₁, hloop, hrun⟩ := hrun
          have hnone : h.Spares R (.scalar .null) h₁ := by
            refine forEach_invariant (I := fun h₁ => h.Spares R (.scalar .null) h₁) ?_
              (.refl h₀ _) hloop
            intro item hitem h₂ h₃ hspares hbody
            obtain ⟨found, h₄, hfound, hbody⟩ := HeapM.bind_eq_ok.mp hbody
            obtain rfl : h₂ = h₄ := (preserves_matchesOf depth item items).rel hfound
            have hitem₂ := (hcurrentInner item hitem).mono hspares.next_le
            rcases found with _ | ⟨y, _ | ⟨other, rest⟩⟩
            · obtain ⟨-, rfl⟩ := HeapM.pure_eq_ok.mp hbody
              exact hspares
            · have hy := (hinner y (mem_of_matchesOf hfound List.mem_cons_self)).mono
                hspares.next_le
              exact hspares.trans
                ((hmerge hspares.rooted hitem₂.holds hy.holds hbody).of_inner hitem₂ _)
            · obtain ⟨-, rfl⟩ := HeapM.pure_eq_ok.mp hbody
              exact hspares
          have hadded := appendUnmatched_spares hnone.rooted (hx.mono hnone.next_le)
            (fun r hr => (hinner r hr).mono hnone.next_le) hrun (.scalar .null)
          exact .of_inner (hnone.trans hadded) (Heap.inner_scalar R h _) x key

/-! ## Merging mappings -/

/-- What the loop of the merger does with a key. -/
structure MergesKey (R : Set Addr) (x extendBy : Ref) (key : String) (h h' : Heap) : Prop
    extends Assigns R x key h h' where
  has : ∃ v, h.attr? extendBy key = some v
  sets : ∀ s, h.attr? extendBy key = some (.scalar s) → h'.attr? x key = some (.scalar s)
  sameType : ∀ s v, h.attr? x key = some (.scalar s) → h.attr? extendBy key = some v →
    h.pyType v = h.pyType (.scalar s)

/-- No scalar is a mapping or a list. -/
theorem pyType_scalar_ne (h : Heap) (s : Scalar) :
    h.pyType (.scalar s) ≠ .objDict ∧ h.pyType (.scalar s) ≠ .list := by
  cases s <;> simp [Heap.pyType, Val.pyType]

theorem mergeEntry_mergesKey {merge : Ref → Ref → HeapM Unit}
    {mergeList : Ref → Ref → String → HeapM Unit}
    (hmerge : ∀ {x y : Ref} {h h' : Heap}, h.Rooted R → h.Holds x → h.Holds y →
      merge x y h = .ok ((), h') → h.Spares R x h')
    (hlist : ∀ {x y : Ref} {key : String} {h h' : Heap}, h.Rooted R → h.Holds x → h.Inner R y →
      mergeList x y key h = .ok ((), h') → Assigns R x key h h')
    (h₀ : h.Rooted R) (hx : h.Holds x) (hextend : h.Holds extendBy)
    (hrun : mergeEntry merge mergeList x extendBy key h = .ok (u, h')) :
    MergesKey R x extendBy key h h' := by
  simp only [mergeEntry, HeapM.bind_eq_ok, getItem_eq_ok, HeapM.reads_eq_ok,
    Except.ok.injEq] at hrun
  obtain ⟨val, _, ⟨hval, rfl⟩, current, _, ⟨hcurrent, rfl⟩, hrun⟩ := hrun
  have hinner := h₀.inner_of_attr? hextend hval
  cases current with
  | none =>
      obtain ⟨hassigns, hset⟩ := setItem_assigns h₀ hx hinner hrun
      refine ⟨hassigns, ⟨val, hval⟩, fun s hs => ?_, fun s v hs => ?_⟩
      · rw [hset, ← hval, hs]
      · rw [hcurrent] at hs
        cases hs
  | some current =>
      simp only [HeapM.bind_eq_ok, HeapM.reads_eq_ok, Except.ok.injEq] at hrun
      obtain ⟨left, _, ⟨rfl, rfl⟩, right, _, ⟨rfl, rfl⟩, hrun⟩ := hrun
      have hcurrentInner := h₀.inner_of_attr? hx hcurrent
      have hnotScalar : ∀ {w r type}, h.attr? w key = some r → h.pyType r = type →
          type = .objDict ∨ type = .list → ∀ s, h.attr? w key ≠ some (.scalar s) := by
        rintro w r type hr rfl htype s hs
        cases hr.symm.trans hs
        exact htype.elim (pyType_scalar_ne h s).1 (pyType_scalar_ne h s).2
      split at hrun
      · next hdicts =>
          refine ⟨.of_inner (hmerge h₀ hcurrentInner.holds hinner.holds hrun) hcurrentInner x key,
            ⟨val, hval⟩, fun s hs => ?_, fun s v hs => ?_⟩
          · exact absurd hs (hnotScalar hval hdicts.2 (.inl rfl) s)
          · exact absurd hs (hnotScalar hcurrent hdicts.1 (.inl rfl) s)
      · split at hrun
        · next hlists =>
            refine ⟨hlist h₀ hx hinner hrun, ⟨val, hval⟩, fun s hs => ?_, fun s v hs => ?_⟩
            · exact absurd hs (hnotScalar hval hlists.2 (.inr rfl) s)
            · exact absurd hs (hnotScalar hcurrent hlists.1 (.inr rfl) s)
        · split at hrun
          · next htypes =>
              obtain ⟨hassigns, hset⟩ := setItem_assigns h₀ hx hinner hrun
              refine ⟨hassigns, ⟨val, hval⟩, fun s hs => ?_, fun s v hs hv => ?_⟩
              · rw [hset, ← hval, hs]
              · cases hv.symm.trans hval
                cases hcurrent.symm.trans hs
                exact htypes.symm
          · cases hrun

/-- `merge_list` as `merge_objdict` calls it. -/
def mergeListAt : Nat → Ref → Ref → String → HeapM Unit
  | 0 => fun _ _ _ => raise .recursionError
  | depth + 1 => mergeListBody (depth + 1) (mergeObjdict depth)

theorem mergeObjdict_succ (depth : Nat) (x extendBy : Ref) :
    mergeObjdict (depth + 1) x extendBy =
      entriesOf extendBy >>= fun entries =>
        forEach (dictKeys entries)
          (mergeEntry (mergeObjdict depth) (mergeListAt depth) x extendBy) := by
  cases depth <;> rfl

theorem mergeListAt_assigns {depth : Nat}
    (hmerge : ∀ below < depth, ∀ {x y : Ref} {h h' : Heap}, h.Rooted R → h.Holds x → h.Holds y →
      mergeObjdict below x y h = .ok ((), h') → h.Spares R x h')
    (h₀ : h.Rooted R) (hx : h.Holds x) (hextend : h.Inner R extendBy)
    (hrun : mergeListAt depth x extendBy key h = .ok (u, h')) : Assigns R x key h h' := by
  cases depth with
  | zero => cases hrun
  | succ below => exact mergeListBody_assigns (hmerge below (Nat.lt_succ_self _)) h₀ hx hextend hrun

/-- Merging changes the top of one document only. -/
theorem mergeObjdict_spares (depth : Nat) : ∀ {x extendBy : Ref} {h h' : Heap}, h.Rooted R →
    h.Holds x → h.Holds extendBy → mergeObjdict depth x extendBy h = .ok ((), h') →
    h.Spares R x h' := by
  induction depth using Nat.strong_induction_on with
  | h depth ih =>
      intro x extendBy h h' h₀ hx hextend hrun
      cases depth with
      | zero => cases hrun
      | succ depth =>
          rw [mergeObjdict_succ, HeapM.bind_eq_ok] at hrun
          obtain ⟨entries, _, hentries, hloop⟩ := hrun
          obtain ⟨-, rfl⟩ := entriesOf_eq_ok.mp hentries
          refine forEach_invariant (I := fun h₁ => h.Spares R x h₁) ?_ (.refl h₀ x) hloop
          intro key _ h₁ h₂ hspares hbody
          exact hspares.trans (mergeEntry_mergesKey (ih depth (Nat.lt_succ_self _))
            (mergeListAt_assigns fun below hlt => ih below (hlt.trans (Nat.lt_succ_self _)))
            hspares.rooted (hx.mono hspares.next_le) (hextend.mono hspares.next_le)
            hbody).toSpares

theorem mergeEntry_of_spares {depth : Nat} {h₁ h₂ : Heap} (hx : h.Holds x)
    (hextend : h.Holds extendBy) (hspares : h.Spares R x h₁)
    (hbody : mergeEntry (mergeObjdict depth) (mergeListAt depth) x extendBy key h₁ =
      .ok ((), h₂)) : MergesKey R x extendBy key h₁ h₂ :=
  mergeEntry_mergesKey (mergeObjdict_spares depth)
    (mergeListAt_assigns fun below _ => mergeObjdict_spares below) hspares.rooted
    (hx.mono hspares.next_le) (hextend.mono hspares.next_le) hbody

/-- What each key of a document keeps, the merging of the document keeps. -/
theorem mergeObjdict_invariant {depth : Nat} {I : Heap → Prop} (h₀ : h.Rooted R)
    (hx : h.Holds x) (hextend : h.Holds extendBy) (hI : I h)
    (hstep : ∀ {key : String} {h₁ h₂ : Heap}, h.Spares R x h₁ → I h₁ →
      MergesKey R x extendBy key h₁ h₂ → I h₂)
    (hrun : mergeObjdict depth x extendBy h = .ok (u, h')) : I h' := by
  cases depth with
  | zero => cases hrun
  | succ depth =>
      rw [mergeObjdict_succ, HeapM.bind_eq_ok] at hrun
      obtain ⟨entries, _, hentries, hloop⟩ := hrun
      obtain ⟨-, rfl⟩ := entriesOf_eq_ok.mp hentries
      have hall : h.Spares R x h' ∧ I h' := by
        refine forEach_invariant (I := fun h₁ => h.Spares R x h₁ ∧ I h₁) ?_ ⟨.refl h₀ x, hI⟩ hloop
        rintro key _ h₁ h₂ ⟨hspares, hI₁⟩ hbody
        have hmerges := mergeEntry_of_spares hx hextend hspares hbody
        exact ⟨hspares.trans hmerges.toSpares, hstep hspares hI₁ hmerges⟩
      exact hall.2

/-- What merging a key brings about and the other keys keep. -/
theorem mergeObjdict_reached {depth : Nat} {I J : Heap → Prop} (h₀ : h.Rooted R)
    (hx : h.Holds x) (hextend : h.Holds extendBy) (hI : I h)
    (hkey : ∃ v, h.attr? extendBy key = some v)
    (hstep : ∀ {own : String} {h₁ h₂ : Heap}, h.Spares R x h₁ → I h₁ →
      MergesKey R x extendBy own h₁ h₂ → I h₂)
    (hreach : ∀ {h₁ h₂ : Heap}, h.Spares R x h₁ → I h₁ →
      MergesKey R x extendBy key h₁ h₂ → J h₂)
    (hkeep : ∀ {own : String} {h₁ h₂ : Heap}, h.Spares R x h₁ → J h₁ →
      MergesKey R x extendBy own h₁ h₂ → J h₂)
    (hrun : mergeObjdict depth x extendBy h = .ok (u, h')) : J h' := by
  cases depth with
  | zero => cases hrun
  | succ depth =>
      rw [mergeObjdict_succ, HeapM.bind_eq_ok] at hrun
      obtain ⟨entries, _, hentries, hloop⟩ := hrun
      obtain ⟨⟨a, rfl, hobj⟩, rfl⟩ := entriesOf_eq_ok.mp hentries
      obtain ⟨v, hv⟩ := hkey
      have hmem : key ∈ dictKeys entries := by
        rw [Heap.attr?, hobj] at hv
        exact mem_dictKeys_of_lookup_eq_some hv
      refine forEach_reached (I := fun h₁ => h.Spares R x h₁ ∧ I h₁) hmem ?_ ?_ ?_
        ⟨.refl h₀ x, hI⟩ hloop
      · rintro own - h₁ h₂ ⟨hspares, hI₁⟩ hbody
        have hmerges := mergeEntry_of_spares hx hextend hspares hbody
        exact ⟨hspares.trans hmerges.toSpares, hstep hspares hI₁ hmerges⟩
      · rintro h₁ h₂ ⟨hspares, hI₁⟩ hbody
        exact hreach hspares hI₁ (mergeEntry_of_spares hx hextend hspares hbody)
      · rintro own - h₁ h₂ ⟨⟨hspares, -⟩, hJ⟩ hbody
        exact hkeep hspares hJ (mergeEntry_of_spares hx hextend hspares hbody)

section

variable {depth : Nat} {a d : Addr} (h₀ : h.Rooted R) (ha : a ∈ R) (hd : d ∈ R) (hne : d ≠ a)

include h₀ ha in
theorem holds_root : h.Holds (.obj a) := by
  rintro b heq
  cases heq
  exact h₀.roots a ha

include hd hne in
/-- The extending document keeps its entries. -/
theorem attr?_extending {h₁ : Heap} (hspares : h.Spares R (.obj a) h₁) (key : String) :
    h₁.attr? (.obj d) key = h.attr? (.obj d) key :=
  Heap.attr?_congr (hspares.same d hd fun heq => hne (by cases heq; rfl)) key

include h₀ ha hd hne

/-- An entry stays when the extending document has none of the key. -/
theorem mergeObjdict_absent (habsent : h.attr? (.obj d) key = none)
    (hrun : mergeObjdict depth (.obj a) (.obj d) h = .ok (u, h')) :
    h'.attr? (.obj a) key = h.attr? (.obj a) key := by
  refine mergeObjdict_invariant (I := fun h₁ => h₁.attr? (.obj a) key = h.attr? (.obj a) key) h₀
    (holds_root h₀ ha) (holds_root h₀ hd) rfl ?_ hrun
  intro own h₁ h₂ hspares hkept hmerges
  have hother : key ≠ own := by
    rintro rfl
    obtain ⟨v, hv⟩ := hmerges.has
    rw [attr?_extending hd hne hspares, habsent] at hv
    cases hv
  rw [hmerges.others a ha rfl key hother, hkept]

/-- A scalar of the extending document is what the merged one has. -/
theorem mergeObjdict_overrides {s : Scalar} (hextend : h.attr? (.obj d) key = some (.scalar s))
    (hrun : mergeObjdict depth (.obj a) (.obj d) h = .ok (u, h')) :
    h'.attr? (.obj a) key = some (.scalar s) := by
  refine mergeObjdict_reached (I := fun _ => True)
    (J := fun h₁ => h₁.attr? (.obj a) key = some (.scalar s)) h₀ (holds_root h₀ ha)
    (holds_root h₀ hd) trivial ⟨_, hextend⟩ (fun _ _ _ => trivial) ?_ ?_ hrun
  · intro h₁ h₂ hspares _ hmerges
    exact hmerges.sets s ((attr?_extending hd hne hspares key).trans hextend)
  · intro own h₁ h₂ hspares hset hmerges
    by_cases heq : key = own
    · subst heq
      exact hmerges.sets s ((attr?_extending hd hne hspares key).trans hextend)
    · rw [hmerges.others a ha rfl key heq, hset]

/-- What takes the place of a scalar is a scalar of the same type. -/
theorem mergeObjdict_scalar {s : Scalar} {v : Ref}
    (hcurrent : h.attr? (.obj a) key = some (.scalar s)) (hextend : h.attr? (.obj d) key = some v)
    (hrun : mergeObjdict depth (.obj a) (.obj d) h = .ok (u, h')) :
    ∃ t, v = .scalar t ∧ (Val.scalar t).pyType = (Val.scalar s).pyType := by
  have hvisit : ∀ {h₁ h₂ : Heap}, h.Spares R (.obj a) h₁ → (∃ t,
      h₁.attr? (.obj a) key = some (.scalar t) ∧
        (Val.scalar t).pyType = (Val.scalar s).pyType) →
      MergesKey R (.obj a) (.obj d) key h₁ h₂ →
      ∃ t, v = .scalar t ∧ (Val.scalar t).pyType = (Val.scalar s).pyType := by
    rintro h₁ h₂ hspares ⟨t, ht, htype⟩ hmerges
    have hsame := hmerges.sameType t v ht ((attr?_extending hd hne hspares key).trans hextend)
    cases v with
    | scalar t' => exact ⟨t', rfl, hsame.trans htype⟩
    | obj b =>
        have hnot := pyType_scalar_ne h₁ t
        rw [← hsame, Heap.pyType] at hnot
        split at hnot
        · exact absurd rfl hnot.2
        · exact absurd rfl hnot.1
  refine mergeObjdict_reached (I := fun h₁ => ∃ t, h₁.attr? (.obj a) key = some (.scalar t) ∧
      (Val.scalar t).pyType = (Val.scalar s).pyType)
    (J := fun _ => ∃ t, v = .scalar t ∧ (Val.scalar t).pyType = (Val.scalar s).pyType) h₀
    (holds_root h₀ ha) (holds_root h₀ hd) ⟨s, hcurrent, rfl⟩ ⟨v, hextend⟩ ?_ hvisit
    (fun _ hreached _ => hreached) hrun
  rintro own h₁ h₂ hspares ⟨t, ht, htype⟩ hmerges
  by_cases heq : key = own
  · subst heq
    obtain ⟨t', rfl, htype'⟩ := hvisit hspares ⟨t, ht, htype⟩ hmerges
    exact ⟨t', hmerges.sets t' ((attr?_extending hd hne hspares key).trans hextend), htype'⟩
  · exact ⟨t, (hmerges.others a ha rfl key heq).trans ht, htype⟩

end

end Objects

end LambdaStack
