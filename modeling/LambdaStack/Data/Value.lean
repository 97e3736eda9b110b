/-
# Documents as trees of Python values

A YAML document, once `dict_to_objdict` has converted it, is a tree of `ObjDict`
mappings with string keys, lists and scalars. The loader is the round-trip one: to
write a scalar back as it was, it gives block strings, numbers in another base and
anchored scalars classes of their own, which the conversion copies. Equality is
Python's `==`, which does not see these classes: mappings compare without regard to
the order of their keys, and booleans, integers and floats compare as numbers. Floats
are the finite ones, kept as the rationals they denote; dates and scalars with an
explicit tag are left out.
-/

import Mathlib.Data.Rat.Defs
import LambdaStack.Lib.Dict
import LambdaStack.Lib.Result

namespace LambdaStack

open Lib

/-- The classes of a boolean: an anchored one is no `bool` but an `int` of its own. -/
inductive BoolType
  | bool | scalarBoolean
  deriving DecidableEq, Repr

/-- The classes of an integer: `ScalarInt` has an anchor, underscores or leading
zeros, the others another base. -/
inductive IntType
  | int | scalarInt | binaryInt | octalInt | hexInt | hexCapsInt
  deriving DecidableEq, Repr

/-- The classes of a float: those of a YAML document are `ScalarFloat`. -/
inductive FloatType
  | float | scalarFloat
  deriving DecidableEq, Repr

/-- The classes of a string: `PlainScalarString` has an anchor, the other two are
block strings. -/
inductive StrType
  | str | plainScalarString | literalScalarString | foldedScalarString
  deriving DecidableEq, Repr

/-- The scalars a YAML loader produces, with their classes. -/
inductive Scalar
  | null
  | bool (b : Bool) (type : BoolType := .bool)
  | int (i : Int) (type : IntType := .int)
  | float (q : Rat) (type : FloatType := .float)
  | str (s : String) (type : StrType := .str)
  deriving DecidableEq, Repr

namespace Scalar

/-- The number a boolean, an integer or a float stands for. -/
def num? : Scalar → Option Rat
  | .bool b _ => some (if b then 1 else 0)
  | .int i _ => some i
  | .float q _ => some q
  | .null => none
  | .str _ _ => none

/-- The text of a string, of whichever class. -/
def str? : Scalar → Option String
  | .str s _ => some s
  | _ => none

end Scalar

/-- A document or a part of one. -/
inductive Val
  | scalar (s : Scalar)
  | list (items : List Val)
  | dict (entries : List (String × Val))
  deriving Repr

/-- The entries of a mapping in iteration order. -/
abbrev Entries := List (String × Val)

/-- What `type` returns on the values of a document. -/
inductive PyType
  | noneType
  | bool (type : BoolType)
  | int (type : IntType)
  | float (type : FloatType)
  | str (type : StrType)
  | list
  | objDict
  deriving DecidableEq, Repr

namespace Val

/-- A string value. -/
abbrev str (s : String) : Val := .scalar (.str s)

/-- An integer value. -/
abbrev int (i : Int) : Val := .scalar (.int i)

/-- A boolean value. -/
abbrev bool (b : Bool) : Val := .scalar (.bool b)

/-- The value written as nothing in YAML. -/
abbrev null : Val := .scalar .null

/-- Python's `type`. -/
def pyType : Val → PyType
  | .scalar .null => .noneType
  | .scalar (.bool _ type) => .bool type
  | .scalar (.int _ type) => .int type
  | .scalar (.float _ type) => .float type
  | .scalar (.str _ type) => .str type
  | .list _ => .list
  | .dict _ => .objDict

/-- The text of a value that is a string. -/
def str? : Val → Option String
  | .scalar s => s.str?
  | _ => none

@[simp]
theorem str?_str (s : String) (type : StrType) : (Val.scalar (.str s type)).str? = some s := rfl

theorem str?_eq_some {x : Val} {s : String} :
    x.str? = some s ↔ ∃ type, x = .scalar (.str s type) := by
  cases x with
  | list | dict => simp [str?]
  | scalar a => cases a <;> simp [str?, Scalar.str?]

/-- `hasattr` and attribute access on an `ObjDict`, as an option. No other value
of a document has the attributes the program asks for. -/
def attr? (x : Val) (key : String) : Option Val :=
  match x with
  | .dict entries => entries.lookup key
  | _ => none

/-- `hasattr(x, key)`. -/
def hasAttr (x : Val) (key : String) : Bool := (x.attr? key).isSome

/-- The text of `x.key`, where it is a string. -/
def attrStr? (x : Val) (key : String) : Option String := (x.attr? key).bind str?

theorem attrStr?_eq_some {x : Val} {key s : String} :
    x.attrStr? key = some s ↔ ∃ own, x.attr? key = some own ∧ own.str? = some s :=
  Option.bind_eq_some_iff

/-- `x.kind == kind`, for a document that has a kind. -/
def IsKind (x : Val) (kind : String) : Prop := (x.attr? "kind").bind str? = some kind

theorem isKind_iff {x : Val} {kind : String} :
    x.IsKind kind ↔ ∃ own, x.attr? "kind" = some own ∧ own.str? = some kind :=
  Option.bind_eq_some_iff

theorem IsKind.unique {x : Val} {kind kind' : String} (h : x.IsKind kind) (h' : x.IsKind kind') :
    kind = kind' := Option.some.inj (h.symm.trans h')

/-- Induction over a document: a list holds its items, a mapping its values. -/
@[elab_as_elim]
theorem induct {P : Val → Prop} (scalar : ∀ s, P (.scalar s))
    (list : ∀ items, (∀ x ∈ items, P x) → P (.list items))
    (dict : ∀ entries : Entries, (∀ entry ∈ entries, P entry.2) → P (.dict entries)) :
    ∀ v, P v
  | .scalar s => scalar s
  | .list items => list items fun x _ => induct scalar list dict x
  | .dict entries => dict entries fun entry _ => induct scalar list dict entry.2
termination_by v => sizeOf v
decreasing_by
  · have := List.sizeOf_lt_of_mem ‹x ∈ items›
    simp only [Val.list.sizeOf_spec]
    omega
  · have hmem := List.sizeOf_lt_of_mem ‹entry ∈ entries›
    have hsnd : sizeOf entry.2 < sizeOf entry := by
      cases entry
      simp only [Prod.mk.sizeOf_spec]
      omega
    simp only [Val.dict.sizeOf_spec]
    omega

end Val

namespace Scalar

/-- Python's `==` on scalars. -/
def pyEq (a b : Scalar) : Bool :=
  match a.num?, b.num? with
  | some x, some y => x == y
  | none, none => a.str? == b.str?
  | _, _ => false

theorem pyEq_refl (a : Scalar) : a.pyEq a = true := by
  unfold pyEq
  cases h : a.num? <;> simp

theorem pyEq_symm {a b : Scalar} (h : a.pyEq b = true) : b.pyEq a = true := by
  unfold pyEq at h ⊢
  cases ha : a.num? <;> cases hb : b.num? <;> simp_all

theorem pyEq_trans {a b c : Scalar} (hab : a.pyEq b = true) (hbc : b.pyEq c = true) :
    a.pyEq c = true := by
  unfold pyEq at hab hbc ⊢
  cases ha : a.num? <;> cases hb : b.num? <;> cases hc : c.num? <;> simp_all

@[simp]
theorem pyEq_str (s t : String) (type type' : StrType) :
    (Scalar.str s type).pyEq (.str t type') = decide (s = t) := by
  simp only [pyEq, num?, str?]
  exact Bool.beq_eq_decide_eq _ _ |>.trans (by simp)

end Scalar

namespace Val

mutual
/-- Python's `==`. Two mappings are equal when they have as many keys and each
key of the first is a key of the second with an equal value. -/
def pyEq : Val → Val → Bool
  | .scalar a, .scalar b => a.pyEq b
  | .list xs, .list ys => pyEqItems xs ys
  | .dict es, .dict fs => es.length == fs.length && pyEqEntries es fs
  | _, _ => false
termination_by structural x => x

/-- The items of two lists, pairwise. -/
def pyEqItems : List Val → List Val → Bool
  | [], [] => true
  | x :: xs, y :: ys => pyEq x y && pyEqItems xs ys
  | _, _ => false
termination_by structural x => x

/-- Each entry of the first mapping is in the second. -/
def pyEqEntries : Entries → Entries → Bool
  | [], _ => true
  | entry :: rest, fs => pyEqEntry entry fs && pyEqEntries rest fs
termination_by structural x => x

/-- One entry of the first mapping is in the second. -/
def pyEqEntry : String × Val → Entries → Bool
  | (key, v), fs =>
      match fs.lookup key with
      | some w => pyEq v w
      | none => false
termination_by structural x => x
end

theorem pyEqItems_iff {xs ys : List Val} :
    pyEqItems xs ys = true ↔ List.Forall₂ (fun x y => x.pyEq y = true) xs ys := by
  induction xs generalizing ys with
  | nil => cases ys <;> simp [pyEqItems]
  | cons x xs ih => cases ys <;> simp [pyEqItems, ih]

theorem pyEqEntries_iff {es fs : Entries} :
    pyEqEntries es fs = true ↔
      ∀ entry ∈ es, ∃ w, fs.lookup entry.1 = some w ∧ entry.2.pyEq w = true := by
  induction es with
  | nil => simp [pyEqEntries]
  | cons entry rest ih =>
      have hentry : pyEqEntry entry fs = true ↔
          ∃ w, fs.lookup entry.1 = some w ∧ entry.2.pyEq w = true := by
        unfold pyEqEntry
        cases fs.lookup entry.1 <;> simp
      simp only [pyEqEntries, Bool.and_eq_true, hentry, ih, List.forall_mem_cons]

theorem pyEq_dict_iff {es fs : Entries} :
    (Val.dict es).pyEq (.dict fs) = true ↔ es.length = fs.length ∧
      ∀ entry ∈ es, ∃ w, fs.lookup entry.1 = some w ∧ entry.2.pyEq w = true := by
  simp [pyEq, pyEqEntries_iff]

theorem pyEq_list_iff {xs ys : List Val} :
    (Val.list xs).pyEq (.list ys) = true ↔
      List.Forall₂ (fun x y => x.pyEq y = true) xs ys := by
  simp [pyEq, pyEqItems_iff]

/-- A document whose mappings hold each key once, as every Python `dict` does. -/
inductive WellFormed : Val → Prop
  | scalar (s : Scalar) : WellFormed (.scalar s)
  | list {items : List Val} (hitems : ∀ x ∈ items, WellFormed x) : WellFormed (.list items)
  | dict {entries : Entries} (hkeys : (dictKeys entries).Nodup)
      (hvalues : ∀ entry ∈ entries, WellFormed entry.2) : WellFormed (.dict entries)

@[simp]
theorem wellFormed_scalar (s : Scalar) : WellFormed (.scalar s) := .scalar s

@[simp]
theorem wellFormed_list_iff {items : List Val} :
    WellFormed (.list items) ↔ ∀ x ∈ items, WellFormed x :=
  ⟨fun h => by cases h; assumption, .list⟩

@[simp]
theorem wellFormed_dict_iff {entries : Entries} :
    WellFormed (.dict entries) ↔
      (dictKeys entries).Nodup ∧ ∀ entry ∈ entries, WellFormed entry.2 :=
  ⟨fun h => by cases h; exact ⟨‹_›, ‹_›⟩, fun h => .dict h.1 h.2⟩

theorem WellFormed.attr? {x value : Val} {key : String} (hx : x.WellFormed)
    (h : x.attr? key = some value) : value.WellFormed := by
  cases x with
  | dict entries =>
      exact (wellFormed_dict_iff.mp hx).2 _ (mem_of_lookup_eq_some h)
  | scalar s => cases h
  | list items => cases h

theorem pyEq_refl {a : Val} (ha : a.WellFormed) : a.pyEq a = true := by
  induction a using Val.induct with
  | scalar s => exact s.pyEq_refl
  | list items ih =>
      rw [pyEq_list_iff, List.forall₂_same]
      exact fun x hx => ih x hx (wellFormed_list_iff.mp ha x hx)
  | dict entries ih =>
      obtain ⟨hkeys, hvalues⟩ := wellFormed_dict_iff.mp ha
      refine pyEq_dict_iff.mpr ⟨rfl, fun entry hentry => ⟨entry.2, ?_, ?_⟩⟩
      · exact lookup_eq_some_of_mem hkeys hentry
      · exact ih entry hentry (hvalues entry hentry)

theorem pyEq_trans {a b c : Val} (hab : a.pyEq b = true) (hbc : b.pyEq c = true) :
    a.pyEq c = true := by
  induction a using Val.induct generalizing b c with
  | scalar s =>
      cases b <;> cases c <;> simp_all [pyEq]
      exact Scalar.pyEq_trans hab hbc
  | list xs ih =>
      cases b with
      | scalar | dict => simp [pyEq] at hab
      | list ys =>
          cases c with
          | scalar | dict => simp [pyEq] at hbc
          | list zs =>
              rw [pyEq_list_iff] at hab hbc ⊢
              induction hab generalizing zs with
              | nil => cases hbc; exact .nil
              | cons hxy hrest ihrest =>
                  cases hbc with
                  | cons hyz hbc =>
                      exact .cons (ih _ (by simp) hxy hyz)
                        (ihrest (fun x hx => ih x (by simp [hx])) _ hbc)
  | dict es ih =>
      cases b with
      | scalar | list => simp [pyEq] at hab
      | dict fs =>
          cases c with
          | scalar | list => simp [pyEq] at hbc
          | dict gs =>
              obtain ⟨hlen, hab⟩ := pyEq_dict_iff.mp hab
              obtain ⟨hlen', hbc⟩ := pyEq_dict_iff.mp hbc
              refine pyEq_dict_iff.mpr ⟨hlen.trans hlen', fun entry hentry => ?_⟩
              obtain ⟨v, hv, hev⟩ := hab entry hentry
              obtain ⟨w, hw, hvw⟩ := hbc _ (mem_of_lookup_eq_some hv)
              exact ⟨w, hw, ih entry hentry hev hvw⟩

theorem pyEq_symm {a b : Val} (ha : a.WellFormed) (hb : b.WellFormed)
    (hab : a.pyEq b = true) : b.pyEq a = true := by
  induction a using Val.induct generalizing b with
  | scalar s =>
      cases b with
      | scalar t => exact Scalar.pyEq_symm hab
      | list | dict => simp [pyEq] at hab
  | list xs ih =>
      cases b with
      | scalar | dict => simp [pyEq] at hab
      | list ys =>
          rw [pyEq_list_iff] at hab ⊢
          rw [wellFormed_list_iff] at ha hb
          induction hab with
          | nil => exact .nil
          | cons hxy hrest ihrest =>
              exact .cons (ih _ (by simp) (ha _ (by simp)) (hb _ (by simp)) hxy)
                (ihrest (fun x hx => ih x (by simp [hx])) (fun x hx => ha x (by simp [hx]))
                  (fun y hy => hb y (by simp [hy])))
  | dict es ih =>
      cases b with
      | scalar | list => simp [pyEq] at hab
      | dict fs =>
          obtain ⟨hlen, hab⟩ := pyEq_dict_iff.mp hab
          obtain ⟨hes, hesv⟩ := wellFormed_dict_iff.mp ha
          obtain ⟨hfs, hfsv⟩ := wellFormed_dict_iff.mp hb
          -- as many keys on both sides, so the keys of `fs` are those of `es`
          have hsub : dictKeys es ⊆ dictKeys fs := fun key hkey => by
            obtain ⟨entry, hentry, rfl⟩ := List.mem_map.mp hkey
            obtain ⟨w, hw, _⟩ := hab entry hentry
            exact mem_dictKeys_of_lookup_eq_some hw
          have hperm : (dictKeys es).Perm (dictKeys fs) :=
            (List.subperm_of_subset hes hsub).perm_of_length_le
              (by simp [dictKeys, hlen])
          refine pyEq_dict_iff.mpr ⟨hlen.symm, fun entry hentry => ?_⟩
          have hkey : entry.1 ∈ dictKeys es :=
            hperm.mem_iff.mpr (List.mem_map.mpr ⟨entry, hentry, rfl⟩)
          obtain ⟨⟨key, v⟩, hmem, hkeyeq⟩ := List.mem_map.mp hkey
          obtain rfl : key = entry.1 := hkeyeq
          obtain ⟨w, hw, hvw⟩ := hab _ hmem
          have hwe : w = entry.2 :=
            Option.some.inj (hw.symm.trans (lookup_eq_some_of_mem hfs hentry))
          subst hwe
          exact ⟨v, lookup_eq_some_of_mem hes hmem,
            ih _ hmem (hesv _ hmem) (hfsv _ hentry) hvw⟩

/-- Two values equal to a third are equal. -/
theorem pyEq_of_pyEq_right {a b c : Val} (hb : b.WellFormed) (hc : c.WellFormed)
    (hac : a.pyEq c = true) (hbc : b.pyEq c = true) : a.pyEq b = true :=
  pyEq_trans hac (pyEq_symm hb hc hbc)

/-- The key occurs in the document. -/
inductive Mentions (key : String) : Val → Prop
  | here {entries : Entries} (hkey : key ∈ dictKeys entries) : Mentions key (.dict entries)
  | entry {entries : Entries} {entry : String × Val} (hmem : entry ∈ entries)
      (h : Mentions key entry.2) : Mentions key (.dict entries)
  | item {items : List Val} {x : Val} (hmem : x ∈ items) (h : Mentions key x) :
      Mentions key (.list items)

theorem not_mentions_scalar {key : String} (s : Scalar) : ¬ Mentions key (.scalar s) := by
  intro h
  cases h

theorem mentions_list_iff {key : String} {items : List Val} :
    Mentions key (.list items) ↔ ∃ x ∈ items, Mentions key x := by
  constructor
  · rintro (_ | _ | ⟨hmem, h⟩)
    exact ⟨_, hmem, h⟩
  · rintro ⟨x, hmem, h⟩
    exact .item hmem h

theorem mentions_dict_iff {key : String} {entries : Entries} :
    Mentions key (.dict entries) ↔
      key ∈ dictKeys entries ∨ ∃ entry ∈ entries, Mentions key entry.2 := by
  constructor
  · rintro (hkey | ⟨hmem, h⟩)
    · exact Or.inl hkey
    · exact Or.inr ⟨_, hmem, h⟩
  · rintro (hkey | ⟨entry, hmem, h⟩)
    · exact .here hkey
    · exact .entry hmem h

end Val

end LambdaStack
