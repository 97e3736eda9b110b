/-
# The parents of a path

The filter `parent_paths` of the playbooks. It climbs from a path with
`os.path.dirname` until it is at the root, which a relative path and a path with
two leading slashes never reach. A path without superfluous slashes is a list of
components, and its parents are what the shorter lists denote.
-/

import Mathlib.Data.List.Chain
import Mathlib.Data.List.DropRight
import LambdaStack.Lib.WhileLoop

namespace LambdaStack

open Lib

namespace PathFilter

/-- A character a path is taken apart at. -/
def isSlash (c : Char) : Bool := c = '/'

/-- The part of `dirname` that removes trailing slashes, unless there is nothing else. -/
def stripSlashes (head : List Char) : List Char :=
  if head.all isSlash then head else head.rdropWhile isSlash

/-- `os.path.dirname` on the characters of a path. -/
def dirnameChars (path : List Char) : List Char :=
  stripSlashes (path.rdropWhile fun c => !isSlash c)

/-- `os.path.dirname`. -/
def dirname (path : String) : String := String.ofList (dirnameChars path.toList)

/-- `exclude or ['/']`. -/
def excludedPaths : Option (List String) → List String
  | none => ["/"]
  | some [] => ["/"]
  | some (path :: rest) => path :: rest

/-- The variables of the loop. -/
structure Climb where
  path : String
  paths : List String

/-- The body of the loop. -/
def climb (excluded : List String) (s : Climb) : Climb :=
  let path := dirname s.path
  { path := path, paths := if path ∉ excluded then s.paths ++ [path] else s.paths }

/-- `get_parent_paths`, for a number of tests of its loop that may not be enough. -/
def getParentPaths (fuel : Nat) (path : String) (exclude : Option (List String)) :
    Option (List String) :=
  (whileLoop (fun s => s.path ≠ "/") (climb (excludedPaths exclude)) fuel ⟨path, []⟩).map
    Climb.paths

/-! ## Where the climb leads -/

/-- The path has exactly one leading slash. -/
def StartsWithOneSlash (path : String) : Prop := path.toList.takeWhile isSlash = ['/']

instance (path : String) : Decidable (StartsWithOneSlash path) :=
  inferInstanceAs (Decidable (_ = _))

section

variable {path : List Char}

/-- A path is the part `dirname` keeps and a name. -/
theorem exists_split (path : List Char) : ∃ head name, path = head ++ name ∧
    head = path.rdropWhile (fun c => !isSlash c) ∧ (∀ c ∈ name, isSlash c = false) ∧
    ∀ h : head ≠ [], isSlash (head.getLast h) = true := by
  refine ⟨_, _, List.rdropWhile_append_rtakeWhile.symm, rfl, fun c hc => ?_, fun h => ?_⟩
  · simpa using List.mem_rtakeWhile_imp hc
  · simpa using List.rdropWhile_last_not _ _ h

/-- The head that is stripped is a beginning with some other character, and slashes. -/
theorem exists_stripped {head : List Char} (h : ¬ head.all isSlash = true) :
    ∃ slashes, head = stripSlashes head ++ slashes ∧ (∀ c ∈ slashes, isSlash c = true) ∧
      ∃ c ∈ stripSlashes head, isSlash c = false := by
  refine ⟨head.rtakeWhile isSlash, ?_, fun c hc => List.mem_rtakeWhile_imp hc, ?_⟩
  · rw [stripSlashes, if_neg h, List.rdropWhile_append_rtakeWhile]
  · by_contra hnone
    push Not at hnone
    rw [stripSlashes, if_neg h] at hnone
    refine h (List.all_eq_true.mpr fun c hc => ?_)
    rw [← List.rdropWhile_append_rtakeWhile (p := isSlash) (l := head), List.mem_append] at hc
    rcases hc with hc | hc
    · simpa using hnone c hc
    · exact List.mem_rtakeWhile_imp hc

/-- A beginning with some other character has all the leading slashes. -/
theorem takeWhile_append_of_mem {xs : List Char} (ys : List Char)
    (h : ∃ c ∈ xs, isSlash c = false) : (xs ++ ys).takeWhile isSlash = xs.takeWhile isSlash := by
  rw [List.takeWhile_append, if_neg]
  intro hlength
  obtain ⟨c, hc, hfalse⟩ := h
  have hall := List.takeWhile_eq_self_iff.mp
    ((List.takeWhile_prefix isSlash).eq_of_length hlength) c hc
  rw [hfalse] at hall
  cases hall

/-- `dirname` keeps the leading slashes. -/
theorem takeWhile_dirnameChars (path : List Char) :
    (dirnameChars path).takeWhile isSlash = path.takeWhile isSlash := by
  obtain ⟨head, name, rfl, hhead, hname, -⟩ := exists_split path
  rw [dirnameChars, ← hhead]
  by_cases hall : head.all isSlash = true
  · have hslashes := List.all_eq_true.mp hall
    have hnone : name.takeWhile isSlash = [] := by
      cases name with
      | nil => rfl
      | cons c rest => rw [List.takeWhile_cons, if_neg (by simp [hname c List.mem_cons_self])]
    rw [stripSlashes, if_pos hall, List.takeWhile_append_of_pos hslashes, hnone, List.append_nil]
    exact List.takeWhile_eq_self_iff.mpr hslashes
  · obtain ⟨slashes, heq, -, hother⟩ := exists_stripped hall
    conv_rhs => rw [heq, List.append_assoc]
    rw [takeWhile_append_of_mem _ hother]

/-- Below the root, `dirname` makes a path with one leading slash shorter. -/
theorem length_dirnameChars_lt (hone : path.takeWhile isSlash = ['/']) (hne : path ≠ ['/']) :
    (dirnameChars path).length < path.length := by
  obtain ⟨head, name, rfl, hhead, -, hlast⟩ := exists_split path
  rw [dirnameChars, ← hhead, List.length_append]
  by_cases hall : head.all isSlash = true
  · have hname : name ≠ [] := by
      rintro rfl
      rw [List.append_nil, List.takeWhile_eq_self_iff.mpr (List.all_eq_true.mp hall)] at hone
      exact hne (by rw [List.append_nil, hone])
    rw [stripSlashes, if_pos hall]
    have := List.length_pos_iff.mpr hname
    omega
  · obtain ⟨slashes, heq, -, c, hc, hother⟩ := exists_stripped hall
    have hslashes : slashes ≠ [] := by
      rintro rfl
      rw [List.append_nil] at heq
      have hnil : head ≠ [] := by
        rintro rfl
        exact hall rfl
      have hstripped : head.rdropWhile isSlash = head := by
        rwa [stripSlashes, if_neg hall, eq_comm] at heq
      exact List.rdropWhile_eq_self_iff.mp hstripped hnil (hlast hnil)
    have hlength := congrArg List.length heq
    rw [List.length_append] at hlength
    have := List.length_pos_iff.mpr hslashes
    omega

end

theorem startsWithOneSlash_dirname {path : String} :
    StartsWithOneSlash (dirname path) ↔ StartsWithOneSlash path := by
  rw [StartsWithOneSlash, StartsWithOneSlash, dirname, String.toList_ofList,
    takeWhile_dirnameChars]

theorem startsWithOneSlash_root : StartsWithOneSlash "/" := by decide

/-- The climb from a path with one leading slash ends. -/
theorem whileLoop_climb_ends (excluded : List String) {s : Climb}
    (hs : StartsWithOneSlash s.path) :
    ∃ fuel s', whileLoop (fun s => s.path ≠ "/") (climb excluded) fuel s = some s' := by
  refine ⟨_, whileLoop_ends (I := fun s => StartsWithOneSlash s.path)
    (fun s => s.path.toList.length) (fun s hone htest => ⟨?_, ?_⟩) hs⟩
  · exact startsWithOneSlash_dirname.mpr hone
  · have hne : s.path.toList ≠ ['/'] := by
      intro heq
      have hroot : s.path = "/" := String.toList_injective heq
      simp [hroot] at htest
    change (String.ofList (dirnameChars s.path.toList)).toList.length < _
    rw [String.toList_ofList]
    exact length_dirnameChars_lt hone hne

/-- The climb from any other path does not end. -/
theorem whileLoop_climb_diverges (excluded : List String) {s : Climb}
    (hs : ¬ StartsWithOneSlash s.path) (fuel : Nat) :
    whileLoop (fun s => s.path ≠ "/") (climb excluded) fuel s = none := by
  refine whileLoop_diverges (I := fun s => ¬ StartsWithOneSlash s.path) (fun s hnot => ?_)
    (fun s hnot => ?_) hs fuel
  · rw [decide_eq_true_iff]
    intro heq
    rw [heq] at hnot
    exact hnot startsWithOneSlash_root
  · exact fun hone => hnot (startsWithOneSlash_dirname.mp hone)

/-! ## Paths as lists of components -/

/-- The name of a file or a directory. -/
structure Component where
  chars : List Char
  nonempty : chars ≠ []
  noSlash : ∀ c ∈ chars, isSlash c = false

/-- A component after a slash. -/
def Component.below (part : Component) : List Char := '/' :: part.chars

/-- The characters of the absolute path with the components, from the root down. -/
def absoluteChars (parts : List Component) : List Char :=
  if parts.isEmpty then ['/'] else parts.flatMap Component.below

/-- The absolute path with the components. -/
def absolute (parts : List Component) : String := String.ofList (absoluteChars parts)

/-- The paths above an absolute path, from the nearest up to the root. -/
def properAncestors (parts : List Component) : List String :=
  (List.range parts.length).reverse.map fun n => absolute (parts.take n)

/-- An absolute path without repeated or trailing slashes. -/
def IsClean (path : String) : Prop :=
  path.toList.head? = some '/' ∧
    path.toList.IsChain (fun c d => ¬ (isSlash c = true ∧ isSlash d = true)) ∧
    (path = "/" ∨ path.toList.getLast? ≠ some '/')

instance (path : String) : Decidable (IsClean path) :=
  inferInstanceAs (Decidable (_ ∧ _ ∧ _))

section

variable {parts : List Component} {part : Component}

theorem absoluteChars_nil : absoluteChars [] = ['/'] := rfl

theorem absoluteChars_of_ne_nil (h : parts ≠ []) :
    absoluteChars parts = parts.flatMap Component.below := by
  rw [absoluteChars, if_neg]
  rwa [List.isEmpty_iff]

theorem absoluteChars_concat :
    absoluteChars (parts ++ [part]) = parts.flatMap Component.below ++ part.below := by
  rw [absoluteChars_of_ne_nil (by simp), List.flatMap_append, List.flatMap_singleton]

/-- The path of some components ends in a character of the last one. -/
theorem exists_absoluteChars_eq_concat (h : parts ≠ []) :
    ∃ chars c, absoluteChars parts = chars ++ [c] ∧ isSlash c = false := by
  obtain ⟨above, last, rfl⟩ := List.eq_nil_or_concat parts |>.resolve_left h
  obtain ⟨chars, c, hchars⟩ := List.eq_nil_or_concat last.chars |>.resolve_left last.nonempty
  refine ⟨above.flatMap Component.below ++ '/' :: chars, c, ?_, last.noSlash c (by simp [hchars])⟩
  rw [List.concat_eq_append, absoluteChars_concat, Component.below, hchars]
  simp

/-- `dirname` removes the last component. -/
theorem dirnameChars_absoluteChars :
    dirnameChars (absoluteChars (parts ++ [part])) = absoluteChars parts := by
  have hhead : (absoluteChars (parts ++ [part])).rdropWhile (fun c => !isSlash c) =
      parts.flatMap Component.below ++ ['/'] := by
    rw [absoluteChars_concat, Component.below,
      show '/' :: part.chars = ['/'] ++ part.chars from rfl, ← List.append_assoc,
      List.rdropWhile, List.reverse_append,
      List.dropWhile_append_of_pos fun c hc => by
        simpa using part.noSlash c (List.mem_reverse.mp hc),
      ← List.rdropWhile, List.rdropWhile_concat_neg _ _ _ (by decide)]
  rw [dirnameChars, hhead]
  by_cases hnil : parts = []
  · subst hnil
    rfl
  · obtain ⟨chars, c, hchars, hc⟩ := exists_absoluteChars_eq_concat hnil
    rw [← absoluteChars_of_ne_nil hnil, hchars, stripSlashes, if_neg (by simp [hc]),
      List.rdropWhile_concat_pos _ _ _ (by decide), List.rdropWhile_concat_neg _ _ _ (by simp [hc])]

theorem dirname_absolute : dirname (absolute (parts ++ [part])) = absolute parts := by
  rw [dirname, absolute, String.toList_ofList, dirnameChars_absoluteChars, absolute]

theorem absolute_nil : absolute [] = "/" := rfl

theorem absolute_eq_root_iff : absolute parts = "/" ↔ parts = [] := by
  refine ⟨fun h => ?_, fun h => h ▸ rfl⟩
  by_contra hne
  obtain ⟨chars, c, hchars, hc⟩ := exists_absoluteChars_eq_concat hne
  have hroot : chars ++ [c] = [] ++ ['/'] := by
    rw [← hchars, ← String.toList_ofList (l := absoluteChars parts)]
    exact congrArg String.toList h
  obtain ⟨-, hlast⟩ := List.append_inj' hroot rfl
  cases hlast
  cases hc

/-- The ancestors of a path below another are the other and its ancestors. -/
theorem properAncestors_concat :
    properAncestors (parts ++ [part]) = absolute parts :: properAncestors parts := by
  rw [properAncestors, List.length_append, List.length_singleton, List.range_succ,
    List.reverse_append, List.reverse_singleton, List.singleton_append, List.map_cons,
    List.take_left]
  refine congrArg _ (List.map_congr_left fun n hn => ?_)
  rw [List.take_append_of_le_length]
  exact (List.mem_range.mp (List.mem_reverse.mp hn)).le

theorem length_absoluteChars_lt :
    (absoluteChars parts).length < (absoluteChars (parts ++ [part])).length := by
  have hpart := List.length_pos_iff.mpr part.nonempty
  rw [absoluteChars_concat, List.length_append, Component.below, List.length_cons]
  by_cases hnil : parts = []
  · subst hnil
    simpa [absoluteChars_nil] using hpart
  · rw [absoluteChars_of_ne_nil hnil]
    omega

/-- The ancestors of a path are shorter. -/
theorem length_lt_of_mem_properAncestors {path : String} (h : path ∈ properAncestors parts) :
    path.toList.length < (absoluteChars parts).length := by
  induction parts using List.reverseRecOn with
  | nil => cases h
  | append_singleton parts part ih =>
      rw [properAncestors_concat, List.mem_cons] at h
      rcases h with rfl | h
      · rw [absolute, String.toList_ofList]
        exact length_absoluteChars_lt
      · exact (ih h).trans length_absoluteChars_lt

/-- Each ancestor of a path is listed once. -/
theorem nodup_properAncestors (parts : List Component) : (properAncestors parts).Nodup := by
  induction parts using List.reverseRecOn with
  | nil => exact List.nodup_nil
  | append_singleton parts part ih =>
      rw [properAncestors_concat, List.nodup_cons]
      refine ⟨fun hmem => ?_, ih⟩
      have hlt := length_lt_of_mem_properAncestors hmem
      rw [absolute, String.toList_ofList] at hlt
      exact Nat.lt_irrefl _ hlt

/-- The climb from an absolute path collects its ancestors. -/
theorem whileLoop_climb_absolute (excluded : List String) (parts : List Component)
    (paths : List String) :
    ∃ fuel, whileLoop (fun s => s.path ≠ "/") (climb excluded) fuel ⟨absolute parts, paths⟩ =
      some ⟨"/", paths ++ (properAncestors parts).filter (· ∉ excluded)⟩ := by
  induction parts using List.reverseRecOn generalizing paths with
  | nil => exact ⟨1, by simp [absolute_nil, whileLoop, properAncestors]⟩
  | append_singleton parts part ih =>
      obtain ⟨fuel, hfuel⟩ := ih
        (if absolute parts ∉ excluded then paths ++ [absolute parts] else paths)
      refine ⟨fuel + 1, ?_⟩
      have hbelow : absolute (parts ++ [part]) ≠ "/" := by
        rw [Ne, absolute_eq_root_iff]
        simp
      rw [whileLoop_of_test (by simpa using hbelow), climb, dirname_absolute, hfuel,
        properAncestors_concat, List.filter_cons]
      by_cases hmem : absolute parts ∈ excluded <;> simp [hmem]

/-- A component after a slash has no two slashes next to each other. -/
theorem isChain_below (part : Component) :
    part.below.IsChain fun c d => ¬ (isSlash c = true ∧ isSlash d = true) := by
  rw [Component.below, List.isChain_cons]
  refine ⟨fun d hd hslash => ?_, ?_⟩
  · rw [part.noSlash d (List.mem_of_mem_head? hd)] at hslash
    exact Bool.false_ne_true hslash.2
  · refine List.Pairwise.isChain (List.pairwise_of_forall_mem_list fun c hc d _ hslash => ?_)
    rw [part.noSlash c hc] at hslash
    exact Bool.false_ne_true hslash.1

theorem isChain_absoluteChars (parts : List Component) :
    (absoluteChars parts).IsChain fun c d => ¬ (isSlash c = true ∧ isSlash d = true) := by
  induction parts using List.reverseRecOn with
  | nil => exact List.isChain_singleton _
  | append_singleton parts part ih =>
      rw [absoluteChars_concat]
      by_cases hnil : parts = []
      · subst hnil
        exact isChain_below part
      · obtain ⟨chars, c, hchars, hc⟩ := exists_absoluteChars_eq_concat hnil
        rw [← absoluteChars_of_ne_nil hnil]
        refine List.isChain_append.mpr ⟨ih, isChain_below part, fun x hx y _ hslash => ?_⟩
        rw [hchars, List.getLast?_concat, Option.mem_some_iff] at hx
        rw [← hx, hc] at hslash
        exact Bool.false_ne_true hslash.1

theorem head?_absoluteChars (parts : List Component) :
    (absoluteChars parts).head? = some '/' := by
  cases parts with
  | nil => rfl
  | cons part rest => rfl

/-- A clean path has components. -/
theorem exists_absoluteChars {path : List Char} (hroot : path.head? = some '/')
    (hchain : path.IsChain fun c d => ¬ (isSlash c = true ∧ isSlash d = true))
    (hlast : path = ['/'] ∨ path.getLast? ≠ some '/') :
    ∃ parts, path = absoluteChars parts := by
  induction hlength : path.length using Nat.strongRecOn generalizing path with
  | ind n ih =>
      rcases hlast with rfl | hlast
      · exact ⟨[], rfl⟩
      obtain ⟨head, name, rfl, -, hname, hhead⟩ := exists_split path
      have hne : name ≠ [] := by
        rintro rfl
        have hnil : head ≠ [] := by
          rintro rfl
          cases hroot
        rw [List.append_nil, List.getLast?_eq_some_getLast hnil] at hlast
        exact hlast (congrArg some (by simpa [isSlash] using hhead hnil))
      obtain ⟨above, rfl⟩ : ∃ above, head = above ++ ['/'] := by
        rcases List.eq_nil_or_concat head with rfl | ⟨above, c, rfl⟩
        · cases name with
          | nil => exact absurd rfl hne
          | cons c rest =>
              cases hroot
              cases hname '/' List.mem_cons_self
        · have hc : c = '/' := by simpa [isSlash] using hhead (by simp)
          exact ⟨above, by rw [hc, List.concat_eq_append]⟩
      by_cases hnil : above = []
      · subst hnil
        exact ⟨[⟨name, hne, hname⟩], by simp [absoluteChars, Component.below]⟩
      · -- what is above the last slash is a shorter path that is clean
        rw [List.append_assoc] at hroot hchain hlength
        have hchains := List.isChain_append.mp hchain
        have hend : above.getLast? ≠ some '/' := fun h =>
          hchains.2.2 '/' h '/' rfl ⟨rfl, rfl⟩
        have hshort : above.length < n := by
          rw [← hlength, List.length_append]
          exact Nat.lt_add_of_pos_right (by simp)
        obtain ⟨parts, hparts⟩ := ih above.length hshort
          (by rwa [List.head?_append_of_ne_nil _ hnil] at hroot) hchains.1 (Or.inr hend) rfl
        have hpartsne : parts ≠ [] := by
          rintro rfl
          rw [hparts] at hend
          exact hend rfl
        refine ⟨parts ++ [⟨name, hne, hname⟩], ?_⟩
        rw [absoluteChars_concat, ← absoluteChars_of_ne_nil hpartsne, ← hparts,
          List.append_assoc]
        rfl

/-- The clean paths are those that are made of components. -/
theorem isClean_iff {path : String} : IsClean path ↔ ∃ parts, path = absolute parts := by
  constructor
  · rintro ⟨hroot, hchain, hlast⟩
    obtain ⟨parts, hparts⟩ := exists_absoluteChars hroot hchain
      (hlast.imp_left fun h => congrArg String.toList h)
    exact ⟨parts, by rw [absolute, ← hparts, String.ofList_toList]⟩
  · rintro ⟨parts, rfl⟩
    rw [IsClean, absolute_eq_root_iff, absolute, String.toList_ofList]
    refine ⟨head?_absoluteChars parts, isChain_absoluteChars parts, ?_⟩
    refine or_iff_not_imp_left.mpr fun hne => ?_
    obtain ⟨chars, c, hchars, hc⟩ := exists_absoluteChars_eq_concat hne
    rw [hchars, List.getLast?_concat]
    rintro h
    cases h
    cases hc

end

/-! ## What the filter returns -/

/-- The filter returns, and what it returns for a path of components are its proper
ancestors that are not excluded, each of them once. -/
def ReturnsAncestors (path : String) (exclude : Option (List String)) : Prop :=
  ∃ fuel paths, getParentPaths fuel path exclude = some paths ∧
    ∀ parts, path = absolute parts →
      paths = (properAncestors parts).filter (· ∉ exclude.getD ["/"]) ∧ paths.Nodup

/-- The root is the last ancestor of every other path. -/
theorem root_mem_properAncestors {parts : List Component} (h : parts ≠ []) :
    "/" ∈ properAncestors parts := by
  rw [properAncestors]
  refine List.mem_map.mpr ⟨0, ?_, rfl⟩
  rw [List.mem_reverse, List.mem_range]
  exact List.length_pos_iff.mpr h

/-- An exclude list is used as given, unless it is empty. -/
theorem excludedPaths_eq {exclude : Option (List String)} (h : exclude ≠ some []) :
    excludedPaths exclude = exclude.getD ["/"] := by
  rcases exclude with _ | _ | ⟨path, rest⟩
  · rfl
  · exact absurd rfl h
  · rfl

/-- The ancestors of an absolute path are found with enough tests. -/
theorem exists_getParentPaths_absolute (parts : List Component) (exclude : Option (List String)) :
    ∃ fuel, getParentPaths fuel (absolute parts) exclude =
      some ((properAncestors parts).filter (· ∉ excludedPaths exclude)) := by
  obtain ⟨fuel, hfuel⟩ := whileLoop_climb_absolute (excludedPaths exclude) parts []
  exact ⟨fuel, by rw [getParentPaths, hfuel]; rfl⟩

theorem getParentPaths_unique {path : String} {exclude : Option (List String)}
    {fuel fuel' : Nat} {paths paths' : List String}
    (h : getParentPaths fuel path exclude = some paths)
    (h' : getParentPaths fuel' path exclude = some paths') : paths = paths' := by
  obtain ⟨s, hs, rfl⟩ := Option.map_eq_some_iff.mp h
  obtain ⟨s', hs', rfl⟩ := Option.map_eq_some_iff.mp h'
  rw [whileLoop_unique hs hs']

/-- The filter ends for the paths with one leading slash and no others, and it is right
unless it is told to exclude nothing of a path below the root. -/
theorem getParentPaths_returnsAncestors_iff (path : String) (exclude : Option (List String)) :
    ReturnsAncestors path exclude ↔
      StartsWithOneSlash path ∧ (exclude = some [] → IsClean path → path = "/") := by
  constructor
  · rintro ⟨fuel, paths, hrun, hright⟩
    refine ⟨?_, ?_⟩
    · by_contra hnot
      rw [getParentPaths, whileLoop_climb_diverges (s := ⟨path, []⟩) _ hnot] at hrun
      cases hrun
    · rintro rfl hclean
      obtain ⟨parts, rfl⟩ := isClean_iff.mp hclean
      rw [absolute_eq_root_iff]
      by_contra hne
      obtain ⟨fuel', hrun'⟩ := exists_getParentPaths_absolute parts (some [])
      obtain ⟨hpaths, -⟩ := hright parts rfl
      rw [getParentPaths_unique hrun hrun'] at hpaths
      -- the root is among the expected paths and not among the returned ones
      have hroot : "/" ∈ (properAncestors parts).filter (· ∉ excludedPaths (some [])) := by
        rw [hpaths]
        exact List.mem_filter.mpr ⟨root_mem_properAncestors hne, by simp⟩
      simpa [excludedPaths] using (List.mem_filter.mp hroot).2
  · rintro ⟨hone, hexclude⟩
    obtain ⟨fuel, s, hrun⟩ := whileLoop_climb_ends (excludedPaths exclude)
      (s := ⟨path, []⟩) hone
    have hpaths : getParentPaths fuel path exclude = some s.paths := by
      rw [getParentPaths, hrun]
      rfl
    refine ⟨fuel, s.paths, hpaths, fun parts heq => ?_⟩
    obtain ⟨fuel', hrun'⟩ := exists_getParentPaths_absolute parts exclude
    rw [← heq] at hrun'
    rw [getParentPaths_unique hpaths hrun']
    refine ⟨?_, (nodup_properAncestors parts).filter _⟩
    by_cases hempty : exclude = some []
    · have hroot := hexclude hempty (isClean_iff.mpr ⟨parts, heq⟩)
      rw [heq, absolute_eq_root_iff] at hroot
      rw [hroot]
      rfl
    · rw [excludedPaths_eq hempty]

/-- A relative path is climbed forever, and the root is left out of the parents of a
path although the list of exclusions is empty. -/
theorem getParentPaths_varLog :
    ¬ ReturnsAncestors "var/log" none ∧ ¬ ReturnsAncestors "/var/log" (some []) := by
  constructor
  · rintro ⟨fuel, paths, hrun, -⟩
    rw [getParentPaths, whileLoop_climb_diverges (s := ⟨"var/log", []⟩) _ (by decide)] at hrun
    cases hrun
  · rintro ⟨fuel, paths, hrun, hright⟩
    have hreturned : getParentPaths 3 "/var/log" (some []) = some ["/var"] := by decide
    cases getParentPaths_unique hrun hreturned
    obtain ⟨hexpected, -⟩ := hright [⟨['v', 'a', 'r'], by decide, by simp [isSlash]⟩,
      ⟨['l', 'o', 'g'], by decide, by simp [isSlash]⟩] (by decide)
    revert hexpected
    decide

end PathFilter

end LambdaStack
