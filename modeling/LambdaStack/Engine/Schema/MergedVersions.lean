/-
# The version of a merged document

The merger stamps the default document of a kind before it merges the document of the
user, so a merged document has the version that runs where the user's has none, and the
version of the user's otherwise. It has the kind and the name of the user's.
-/

import LambdaStack.Engine.Schema.DefaultMerger
import LambdaStack.Helpers.MergedRoots

namespace LambdaStack

open Lib HeapM

/-- The document was stamped by the version. -/
def Val.Stamped (version : String) (x : Val) : Prop := x.attrStr? "version" = some version

/-- The document has no version, or this one. -/
def Val.NoOtherVersion (version : String) (x : Val) : Prop :=
  ∀ v, x.attr? "version" = some v → v.str? = some version

theorem Val.Stamped.noOtherVersion {version : String} {x : Val} (h : x.Stamped version) :
    x.NoOtherVersion version := by
  intro v hv
  rwa [Val.Stamped, Val.attrStr?, hv] at h

/-- A document that was merged from the user's: it has the kind and the name of the user's,
and its version, or where the user's has none the one that runs. -/
structure Val.MergedHead (version : String) (own merged : Val) : Prop where
  named : ∀ key ∈ ["kind", "name"], ∃ s type, own.attr? key = some (.scalar (.str s type)) ∧
    merged.attr? key = some (.scalar (.str s type))
  version : ∃ t, merged.attr? "version" = some (.str t) ∧
    (own.attr? "version" = none ∧ t = version ∨ own.attr? "version" = some (.str t))

/-- The merged document is stamped exactly where the user's has no other version. -/
theorem Val.MergedHead.stamped_iff {version : String} {own merged : Val}
    (h : Val.MergedHead version own merged) :
    merged.Stamped version ↔ own.NoOtherVersion version := by
  obtain ⟨t, hmerged, ⟨hnone, rfl⟩ | hown⟩ := h.version
  · refine iff_of_true ?_ fun v hv => ?_
    · rw [Val.Stamped, Val.attrStr?, hmerged]
      rfl
    · cases hnone.symm.trans hv
  · rw [Val.Stamped, Val.attrStr?, hmerged, Val.NoOtherVersion, hown]
    simp

theorem Val.MergedHead.noOtherVersion_iff {version : String} {own merged : Val}
    (h : Val.MergedHead version own merged) :
    merged.NoOtherVersion version ↔ own.NoOtherVersion version := by
  refine ⟨fun hmerged => h.stamped_iff.mp ?_, fun hown => (h.stamped_iff.mpr hown).noOtherVersion⟩
  obtain ⟨t, hversion, -⟩ := h.version
  rw [Val.Stamped, Val.attrStr?, hversion]
  exact hmerged _ hversion

namespace DefaultMerger

variable {env : Env} {R : Set Addr} {h h' h₁ : Heap} {doc x : Ref} {docs files : List Ref}
  {u : Unit}

/-- The version of a merged object, given the entry of the document it was merged from. -/
def VersionFrom (version : String) (own merged : Option Ref) : Prop :=
  ∃ t, merged = some (.scalar (.str t)) ∧
    (own = none ∧ t = version ∨ own = some (.scalar (.str t)))

theorem VersionFrom.of_replaced {version : String} {merged : Option Ref}
    (hversion : VersionFrom version (h'.attr? x "version") merged)
    (hreplaced : Objects.ReplacedAt h h' x "version") :
    VersionFrom version (h.attr? x "version") merged := by
  obtain ⟨t, hmerged, ⟨hnone, rfl⟩ | hown⟩ := hversion
  · exact ⟨t, hmerged, .inl ⟨hreplaced.none_iff.mp hnone, rfl⟩⟩
  · exact ⟨t, hmerged, .inr (hreplaced.text hown)⟩

/-! ## Selecting -/

theorem preserves_attrIsRef (key : String) (value x : Ref) :
    Preserves (· = ·) (attrIsRef env key value x) := by
  apply (Objects.preserves_reads _).bind
  intro own
  exact Objects.preserves_reads _

theorem selectNamed_eq_ok {name : Ref} {found : Option Ref}
    (hrun : selectNamed env name files h = .ok (found, h')) :
    h = h' ∧ ∀ x, found = some x → x ∈ files := by
  induction files generalizing h with
  | nil =>
      obtain ⟨rfl, rfl⟩ := HeapM.pure_eq_ok.mp hrun
      exact ⟨rfl, fun _ heq => by cases heq⟩
  | cons y rest ih =>
      obtain ⟨answer, h₁, hanswer, hrun⟩ := HeapM.bind_eq_ok.mp hrun
      obtain rfl : h = h₁ := (preserves_attrIsRef "name" name y).rel hanswer
      cases answer with
      | true =>
          obtain ⟨rfl, rfl⟩ := HeapM.pure_eq_ok.mp hrun
          refine ⟨rfl, fun x heq => ?_⟩
          cases heq
          exact List.mem_cons_self
      | false =>
          obtain ⟨rfl, hmem⟩ := ih hrun
          exact ⟨rfl, fun x heq => List.mem_cons_of_mem y (hmem x heq)⟩

theorem selectDefaultConfig_eq_ok {found : Option Ref}
    (hrun : selectDefaultConfig env doc docs h = .ok (found, h')) :
    h = h' ∧ ∀ x, found = some x → x ∈ docs := by
  induction docs generalizing h with
  | nil =>
      obtain ⟨rfl, rfl⟩ := HeapM.pure_eq_ok.mp hrun
      exact ⟨rfl, fun _ heq => by cases heq⟩
  | cons y rest ih =>
      have hskip : selectDefaultConfig env doc rest h = .ok (found, h') →
          h = h' ∧ ∀ x, found = some x → x ∈ y :: rest := fun hrun =>
        ⟨(ih hrun).1, fun x heq => List.mem_cons_of_mem y ((ih hrun).2 x heq)⟩
      obtain ⟨named, h₁, hnamed, hrun⟩ := HeapM.bind_eq_ok.mp hrun
      obtain rfl : h = h₁ := (preserves_attrIsRef "name" _ y).rel hnamed
      cases named with
      | false => exact hskip hrun
      | true =>
          simp only [if_true, HeapM.bind_eq_ok, getAttr_eq_ok] at hrun
          obtain ⟨kind, _, ⟨-, rfl⟩, answer, h₁, hanswer, hrun⟩ := hrun
          obtain rfl : h = h₁ := (preserves_attrIsRef "kind" kind y).rel hanswer
          cases answer with
          | false => exact hskip hrun
          | true =>
              obtain ⟨rfl, rfl⟩ := HeapM.pure_eq_ok.mp hrun
              refine ⟨rfl, fun x heq => ?_⟩
              cases heq
              exact List.mem_cons_self

/-! ## Stamping and merging -/

/-- What merging a document into one of the loaded defaults does. -/
structure MergedInto (version : String) (R : Set Addr) (doc merged : Ref) (h h' : Heap) : Prop
    extends h.Spares R merged h' where
  obj : ∃ a, merged = .obj a
  scalars : ∀ d ∈ R, doc = .obj d → doc ≠ merged → ∀ key s,
    h.attr? doc key = some (.scalar s) → h'.attr? merged key = some (.scalar s)
  version : ∀ d ∈ R, doc = .obj d → doc ≠ merged →
    VersionFrom version (h.attr? doc "version") (h'.attr? merged "version")

/-- The same when the document has not been changed before. -/
theorem MergedInto.after {version : String} {merged : Ref}
    (hspares : h.Spares R merged h₁) (hinto : MergedInto version R doc merged h₁ h') :
    MergedInto version R doc merged h h' := by
  have hattr : ∀ d ∈ R, doc = .obj d → doc ≠ merged → ∀ key,
      h₁.attr? doc key = h.attr? doc key := by
    rintro d hd rfl hne key
    exact Heap.attr?_congr (hspares.same d hd fun heq => hne heq.symm) key
  refine ⟨hspares.trans hinto.toSpares, hinto.obj, fun d hd hdoc hne key s hs => ?_,
    fun d hd hdoc hne => ?_⟩
  · exact hinto.scalars d hd hdoc hne key s ((hattr d hd hdoc hne key).trans hs)
  · rw [← hattr d hd hdoc hne]
    exact hinto.version d hd hdoc hne

/-- A default is stamped before the document is merged into it. -/
theorem stampAndMerge {merged : Ref} (h₀ : h.Rooted R) (hmerged : ∀ a, merged = .obj a → a ∈ R)
    (hdoc : h.Holds doc) {v : Unit}
    (hset : setItem merged "version" (.scalar (.str env.version)) h = .ok (v, h₁))
    (hmerge : Objects.mergeObjdict env.depth merged doc h₁ = .ok (u, h')) :
    MergedInto env.version R doc merged h h' := by
  have hholds : h.Holds merged := fun a ha => h₀.roots a (hmerged a ha)
  obtain ⟨hassigns, hversion⟩ :=
    setItem_assigns h₀ hholds (Heap.inner_scalar R h _) hset
  have hspares := Objects.mergeObjdict_spares env.depth hassigns.rooted
    (hholds.mono hassigns.next_le) (hdoc.mono hassigns.next_le) hmerge
  obtain ⟨a, _, rfl, -⟩ := Heap.attr?_eq_some.mp hversion
  have ha := hmerged a rfl
  refine MergedInto.after hassigns.toSpares ⟨hspares, ⟨a, rfl⟩, ?_, ?_⟩
  · rintro d hd rfl hne key s hs
    have hne : d ≠ a := fun heq => hne (congrArg Ref.obj heq)
    exact Objects.mergeObjdict_overrides hassigns.rooted ha hd hne hs hmerge
  · rintro d hd rfl hne
    have hne : d ≠ a := fun heq => hne (congrArg Ref.obj heq)
    cases hown : h₁.attr? (.obj d) "version" with
    | none =>
        refine ⟨env.version, ?_, .inl ⟨rfl, rfl⟩⟩
        rw [Objects.mergeObjdict_absent hassigns.rooted ha hd hne hown hmerge, hversion]
    | some v =>
        -- the stamp is a plain string, so the version of the document is one too
        obtain ⟨own, rfl, htype⟩ :=
          Objects.mergeObjdict_scalar hassigns.rooted ha hd hne hversion hown hmerge
        obtain ⟨t, rfl⟩ : ∃ t, own = .str t := by
          cases own with
          | str t type =>
              cases type with
              | str => exact ⟨t, rfl⟩
              | _ => cases htype
          | _ => cases htype
        exact ⟨t, Objects.mergeObjdict_overrides hassigns.rooted ha hd hne hown hmerge, .inr rfl⟩

/-- The references of a list are scalars or roots. -/
def RootsOf (R : Set Addr) (refs : List Ref) : Prop := ∀ x ∈ refs, ∀ a, x = .obj a → a ∈ R

theorem rootsOf_loaded (R : Set Addr) (refs : List Ref) :
    RootsOf (R ∪ {a | Ref.obj a ∈ refs}) refs := by
  rintro x hx a rfl
  exact Or.inr hx

theorem RootsOf.holds {refs : List Ref} (hrefs : RootsOf R refs) (h₀ : h.Rooted R) :
    ∀ x ∈ refs, h.Holds x := fun x hx a ha => h₀.roots a (hrefs x hx a ha)

theorem holds_getD {found : Option Ref} {refs : List Ref} (hrefs : ∀ x ∈ refs, h.Holds x)
    (hfound : ∀ x, found = some x → x ∈ refs) : h.Holds (found.getD (.scalar .null)) := by
  cases found with
  | none => exact Heap.holds_scalar h .null
  | some x => exact hrefs x (hfound x rfl)

theorem mergeDefault_mergedInto {merged : Ref} (h₀ : h.Rooted R) (hfiles : RootsOf R files)
    (hdocs : ∀ x ∈ docs, h.Holds x) (hdoc : h.Holds doc)
    (hrun : mergeDefault env docs files doc h = .ok (merged, h')) :
    merged ∈ files ∧ MergedInto env.version R doc merged h h' := by
  simp only [mergeDefault, HeapM.bind_eq_ok] at hrun
  obtain ⟨config, h₁, hconfig, found, h₂, hfound, _, h₃, hfirst, _, h₄, hset, _, h₅, hmerge,
    hret⟩ := hrun
  obtain ⟨rfl, hconfigMem⟩ := selectDefaultConfig_eq_ok hconfig
  obtain ⟨rfl, hfoundMem⟩ := selectNamed_eq_ok hfound
  obtain ⟨rfl, rfl⟩ := HeapM.pure_eq_ok.mp hret
  cases found with
  | none =>
      obtain ⟨a, _, heq, -⟩ := setItem_eq_ok.mp hset
      cases heq
  | some x =>
      have hx := hfoundMem x rfl
      -- the user's own default document comes first
      have hspares : h.Spares R x h₃ := by
        cases config with
        | none =>
            obtain ⟨-, rfl⟩ := HeapM.pure_eq_ok.mp hfirst
            exact .refl h₀ x
        | some own =>
            exact Objects.mergeObjdict_spares env.depth h₀ (hfiles.holds h₀ x hx)
              (hdocs own (hconfigMem own rfl)) hfirst
      exact ⟨hx, .after hspares (stampAndMerge hspares.rooted (hfiles x hx)
        (hdoc.mono hspares.next_le) hset hmerge)⟩

theorem stringOf_eq_ok {s : String} :
    stringOf x h = .ok (s, h') ↔ (∃ type, x = .scalar (.str s type)) ∧ h = h' := by
  unfold stringOf
  split
  · simp [HeapM.pure_eq_ok]
  · next hother =>
      simp only [HeapM.raise_eq_ok, false_iff, not_and]
      rintro ⟨type, heq⟩
      exact absurd heq (hother s type)

theorem mergeParent_mergedInto {depth : Nat} {merged : Ref} (h₀ : h.Rooted R)
    (hfiles : RootsOf R files) (hdocs : ∀ x ∈ docs, h.Holds x) (hdoc : h.Holds doc)
    (hrun : mergeParent env docs files depth doc h = .ok (merged, h')) :
    merged ∈ files ∧ MergedInto env.version R doc merged h h' := by
  induction depth generalizing doc h' merged with
  | zero => cases hrun
  | succ depth ih =>
      rw [mergeParent, HeapM.bind_eq_ok] at hrun
      obtain ⟨basedOn, _, hbasedOn, hrun⟩ := hrun
      obtain ⟨-, rfl⟩ := HeapM.reads_eq_ok.mp hbasedOn
      cases basedOn with
      | none => exact mergeDefault_mergedInto h₀ hfiles hdocs hdoc hrun
      | some basedOn =>
          simp only [HeapM.bind_eq_ok, getAttr_eq_ok, stringOf_eq_ok] at hrun
          obtain ⟨name, _, ⟨-, rfl⟩, _, _, ⟨-, rfl⟩, _, _, ⟨-, rfl⟩, parent, h₃, hparent, merged',
            h₄, hparentRun, _, h₅, hset, _, h₆, hmerge, hret⟩ := hrun
          obtain ⟨rfl, hmem⟩ := selectNamed_eq_ok hparent
          obtain ⟨rfl, rfl⟩ := HeapM.pure_eq_ok.mp hret
          -- the parent is one of the loaded defaults, and so is what it is merged into
          obtain ⟨hmerged, hinto⟩ := ih (holds_getD (hfiles.holds h₀) hmem) hparentRun
          have hspares := hinto.toSpares
          exact ⟨hmerged, .after hspares (stampAndMerge hspares.rooted (hfiles merged' hmerged)
            (hdoc.mono hspares.next_le) hset hmerge)⟩

/-! ## One document -/

/-- A merged object has the kind and the name of the document it was merged from. -/
structure HeadFrom (version : String) (h : Heap) (doc : Ref) (h' : Heap) (merged : Ref) :
    Prop where
  named : ∀ key ∈ ["kind", "name"], ∃ s type, h.attr? doc key = some (.scalar (.str s type)) ∧
    h'.attr? merged key = some (.scalar (.str s type))
  version : VersionFrom version (h.attr? doc "version") (h'.attr? merged "version")

/-- Before yes and no were replaced in the document. -/
theorem HeadFrom.of_replaced {version : String} {merged : Ref}
    (hhead : HeadFrom version h₁ doc h' merged)
    (hreplaced : ∀ key, Objects.ReplacedAt h h₁ doc key) : HeadFrom version h doc h' merged where
  named key hkey := by
    obtain ⟨s, type, hown, hmerged⟩ := hhead.named key hkey
    exact ⟨s, type, (hreplaced key).text hown, hmerged⟩
  version := hhead.version.of_replaced (hreplaced "version")

/-- When the merged object has been left alone since. -/
theorem HeadFrom.congr {version : String} {merged : Ref}
    (hhead : HeadFrom version h doc h₁ merged)
    (hattr : ∀ key, h'.attr? merged key = h₁.attr? merged key) :
    HeadFrom version h doc h' merged where
  named key hkey := by
    obtain ⟨s, type, hown, hmerged⟩ := hhead.named key hkey
    exact ⟨s, type, hown, (hattr key).trans hmerged⟩
  version := by
    rw [hattr]
    exact hhead.version

/-- What the loop body does: the merged document is a new one. -/
structure DocumentMerged (version : String) (R : Set Addr) (doc merged : Ref) (h h' : Heap) :
    Prop where
  next_le : h.next ≤ h'.next
  root : ∃ a, merged = .obj a ∧ h.next ≤ a ∧ h'.Rooted (insert a R)
  same : ∀ a ∈ R, doc ≠ .obj a → h'.obj a = h.obj a
  replaced : ∀ a ∈ R, ∀ key, Objects.ReplacedAt h h' (.obj a) key
  head : HeadFrom version h doc h' merged

theorem wellFormed_files {schema : SchemaDir} {provider kind : String} {files : List Val}
    (h : schema.loadAllSchemaObjs provider kind = .ok files) : ∀ v ∈ files, v.WellFormed := by
  obtain ⟨directory, hfile, -⟩ := SchemaDir.docsOf_eq_ok h
  exact schema.wellFormed hfile

theorem mergeDocument_documentMerged {merged : Ref} (h₀ : h.Rooted R) (hdocs : RootsOf R docs)
    (hdoc : doc ∈ docs) (hrun : mergeDocument env docs doc h = .ok (merged, h')) :
    DocumentMerged env.version R doc merged h h' := by
  simp only [mergeDocument, HeapM.bind_eq_ok, getAttr_eq_ok, stringOf_eq_ok,
    HeapM.reads_eq_ok] at hrun
  obtain ⟨_, h₁, hreplace, provider, _, ⟨-, rfl⟩, _, _, ⟨-, rfl⟩, _, _, ⟨hkind, rfl⟩, kind, _,
    ⟨⟨kindType, rfl⟩, rfl⟩, files, _, ⟨hfiles, rfl⟩, refs, h₂, hload, _, _, ⟨hname, rfl⟩, name, _,
    ⟨⟨nameType, rfl⟩, rfl⟩, hmerge⟩ := hrun
  obtain ⟨d, _, rfl, -⟩ := Heap.attr?_eq_some.mp hkind
  have hd : d ∈ R := hdocs _ hdoc d rfl
  have hkeeps := Objects.replaceYesno_keepsPlain h₀ (hdocs.holds h₀ _ hdoc) hreplace
  have hloaded := loadAll_loadedAll hkeeps.rooted (wellFormed_files hfiles) hload
  obtain ⟨hmem, hinto⟩ := mergeParent_mergedInto hloaded.rooted (rootsOf_loaded R refs)
    (fun x hx => ((hdocs.holds h₀ x hx).mono hkeeps.next_le).mono hloaded.next_le)
    (((hdocs.holds h₀ _ hdoc).mono hkeeps.next_le).mono hloaded.next_le) hmerge
  obtain ⟨a, rfl⟩ := hinto.obj
  have hfresh := hloaded.fresh a hmem
  have hne : ∀ b ∈ R, Ref.obj a ≠ .obj b := by
    rintro b hb heq
    cases heq
    exact absurd (hkeeps.rooted.roots a hb) (Nat.not_lt.mpr hfresh)
  -- after yes and no have been replaced, the roots of the input stay
  have hsame₂ : ∀ b ∈ R, h₂.obj b = h₁.obj b := fun b hb =>
    hloaded.obj_eq b (hkeeps.rooted.roots b hb)
  have hsame : ∀ b ∈ R, h'.obj b = h₁.obj b := fun b hb =>
    (hinto.same b (Or.inl hb) (hne b hb)).trans (hsame₂ b hb)
  have hreplaced : ∀ b ∈ R, ∀ key, Objects.ReplacedAt h h₁ (.obj b) key := by
    intro b hb key
    by_cases heq : d = b
    · subst heq
      exact hkeeps.replaced d hd rfl key
    · exact .inl (Heap.attr?_congr (hkeeps.same b hb fun h => heq (by cases h; rfl)) key)
  have hattr : ∀ key, h₂.attr? (.obj d) key = h₁.attr? (.obj d) key :=
    Heap.attr?_congr (hsame₂ d hd)
  have hhead : HeadFrom env.version h₁ (.obj d) h' (.obj a) := by
    refine ⟨fun key hkey => ?_, ?_⟩
    · obtain ⟨s, type, hs⟩ : ∃ s type, h₁.attr? (.obj d) key = some (.scalar (.str s type)) := by
        rcases List.mem_pair.mp hkey with rfl | rfl
        · exact ⟨kind, kindType, hkind⟩
        · exact ⟨name, nameType, (hattr "name").symm.trans hname⟩
      exact ⟨s, type, hs, hinto.scalars d (Or.inl hd) rfl (hne d hd).symm key _
        ((hattr key).trans hs)⟩
    · have hversion := hinto.version d (Or.inl hd) rfl (hne d hd).symm
      rwa [hattr] at hversion
  refine ⟨(hkeeps.next_le.trans hloaded.next_le).trans hinto.next_le,
    ⟨a, rfl, hkeeps.next_le.trans hfresh, hinto.rooted.mono ?_⟩, ?_, ?_,
    hhead.of_replaced (hreplaced d hd)⟩
  · rintro b (rfl | hb)
    · exact Or.inr hmem
    · exact Or.inl hb
  · exact fun b hb hdoc => (hsame b hb).trans (hkeeps.same b hb hdoc)
  · intro b hb key
    have hstep := hreplaced b hb key
    rwa [Objects.ReplacedAt, ← Heap.attr?_congr (hsame b hb) key] at hstep

/-! ## The run -/

/-- The loop merges each document into a document of its own. -/
theorem mergeDocuments_heads {rest merged : List Ref} (h₀ : h.Rooted R)
    (hdocs : RootsOf R docs) (hrest : ∀ x ∈ rest, x ∈ docs)
    (hrun : mergeDocuments env docs rest h = .ok (merged, h')) :
    h'.UniqueKeys ∧ (∀ a ∈ R, Ref.obj a ∉ rest → h'.obj a = h.obj a) ∧
      List.Forall₂ (fun doc merged => HeadFrom env.version h doc h' merged) rest merged := by
  induction rest generalizing R h merged with
  | nil =>
      obtain ⟨rfl, rfl⟩ := HeapM.pure_eq_ok.mp hrun
      exact ⟨h₀.keys, fun _ _ _ => rfl, .nil⟩
  | cons doc rest ih =>
      simp only [mergeDocuments, HeapM.bind_eq_ok] at hrun
      obtain ⟨first, h₁, hfirst, others, h₂, hothers, hret⟩ := hrun
      obtain ⟨rfl, rfl⟩ := HeapM.pure_eq_ok.mp hret
      rw [List.forall_mem_cons] at hrest
      have hstep := mergeDocument_documentMerged h₀ hdocs hrest.1 hfirst
      obtain ⟨a, rfl, hfresh, hrooted⟩ := hstep.root
      obtain ⟨hkeys, hsame, hpairs⟩ := ih hrooted
        (fun x hx b hb => Or.inr (hdocs x hx b hb)) hrest.2 hothers
      have hnotMem : ∀ {x}, x ∈ rest → x ≠ .obj a := by
        rintro x hx rfl
        exact absurd (h₀.roots a (hdocs _ (hrest.2 _ hx) a rfl)) (Nat.not_lt.mpr hfresh)
      refine ⟨hkeys, fun b hb hnot => ?_, .cons ?_ ?_⟩
      · rw [List.mem_cons, not_or] at hnot
        rw [hsame b (Or.inr hb) hnot.2, hstep.same b hb (Ne.symm hnot.1)]
      · exact hstep.head.congr
          (Heap.attr?_congr (hsame a (Or.inl rfl) fun hmem => hnotMem hmem rfl))
      · refine ((List.forall₂_and_left rest others).mpr ⟨fun x hx => hx, hpairs⟩).imp ?_
        rintro x merged ⟨hx, hhead⟩
        refine hhead.of_replaced fun key => ?_
        cases x with
        | scalar s => exact .inl rfl
        | obj b => exact hstep.replaced b (hdocs _ (hrest.2 _ hx) b rfl) key

/-- Read as trees, with the input document as it was loaded. -/
theorem HeadFrom.mergedHead {version : String} {depth : Nat} {ref mergedRef : Ref}
    {own merged : Val} (hhead : HeadFrom version h ref h' mergedRef)
    (hentries : h.HasEntries ref own) (hread : h'.read depth mergedRef = .ok merged) :
    Val.MergedHead version own merged where
  named key hkey := by
    obtain ⟨s, type, hown, hmerged⟩ := hhead.named key hkey
    exact ⟨s, type, hentries.scalar_iff.mp hown, Heap.attr?_read hmerged hread⟩
  version := by
    obtain ⟨t, hmerged, hown⟩ := hhead.version
    refine ⟨t, Heap.attr?_read hmerged hread, ?_⟩
    rcases hown with ⟨hnone, heq⟩ | hsome
    · exact .inl ⟨(hentries.none_iff "version").mp hnone, heq⟩
    · exact .inr (hentries.scalar_iff.mp hsome)

/-- A run merges each input document over a stamped default, and all merged documents are
Python documents. -/
theorem run_heads {input merged : List Val} (hinput : ∀ v ∈ input, v.WellFormed)
    (hrun : run env input = .ok merged) :
    List.Forall₂ (Val.MergedHead env.version) input merged ∧ ∀ x ∈ merged, x.WellFormed := by
  simp only [run, Lib.bind_eq_ok, Prod.exists] at hrun
  obtain ⟨mergedRefs, h', hobjects, hread⟩ := hrun
  simp only [runObjects, HeapM.bind_eq_ok] at hobjects
  obtain ⟨refs, h₁, hload, hmerge⟩ := hobjects
  have hempty : Heap.empty.Rooted (∅ : Set Addr) :=
    { Heap.wellFormed_empty with
      roots := fun a ha => by cases ha
      apart := fun b _ a ha => by cases ha }
  have hloaded := loadAll_loadedAll hempty hinput hload
  obtain ⟨hkeys, -, hpairs⟩ := mergeDocuments_heads hloaded.rooted
    (rootsOf_loaded ∅ refs) (fun x hx => hx) hmerge
  refine ⟨?_, fun x hx => ?_⟩
  · have hrefs : List.Forall₂ (fun own mergedRef => ∃ ref, h₁.HasEntries ref own ∧
        HeadFrom env.version h₁ ref h' mergedRef) input mergedRefs :=
      forall₂_of_common hloaded.entries.flip hpairs
        fun ref own mergedRef hentries hhead => ⟨ref, hentries, hhead⟩
    exact forall₂_of_common hrefs.flip (mapM_eq_ok.mp hread)
      fun mergedRef own merged ⟨ref, hentries, hhead⟩ hread => hhead.mergedHead hentries hread
  · obtain ⟨ref, -, href⟩ := exists_of_mem_mapM hread hx
    exact hkeys.read href

end DefaultMerger

end LambdaStack
