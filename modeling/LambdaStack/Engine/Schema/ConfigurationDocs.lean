/-
# Which configuration documents an apply has

`ConfigurationAppender` answers a request for each feature of each active
component: with the user's document of the kind and name, with a document it has
appended already, or with a merged one. A document of the user is appended for
every request it answers, so the documents are complete and distinct exactly when
no such document answers two requests and no feature asks for a required kind
that is not there under the requested name.
-/

import LambdaStack.Engine.Providers.DocFrame
import LambdaStack.Engine.Schema.ConfigurationAppender
import LambdaStack.Lib.Answers
import LambdaStack.Lib.Lists

namespace LambdaStack

open Lib BuildM

namespace ConfigurationAppender

/-! ## The documents a cluster model asks for -/

/-- A feature of an active component: the kind and the name of its configuration. -/
structure Request where
  kind : String
  selector : Val

/-- The document has the kind and the name of the request. -/
def named (q : Request) (x : Val) : Bool := Holds? (kindAndNameAre q.kind q.selector x)

/-- The document has the kind. -/
def isOfKind (kind : String) (x : Val) : Bool := Holds? (kindIs kind x)

/-- Both values are there and they are equal. -/
def bothEq : Option Val → Option Val → Bool
  | some x, some y => x.pyEq y
  | _, _ => false

/-- The documents have one kind and one name. -/
def sameConfig (x y : Val) : Bool :=
  bothEq (x.attr? "kind") (y.attr? "kind") && bothEq (x.attr? "name") (y.attr? "name")

variable (schema : SchemaDir)

/-- The required document of a kind: the user's first one, or that of the schema files. -/
def requiredTree (docs : List Val) (kind : String) : Res Val := do
  let doc ← selectFirst docs (kindIs kind)
  match doc with
  | some doc => .ok doc
  | none => schema.loadSchemaObj "common" kind

/-- The request of a feature of a component. -/
def featureRequest (configSelector featureKey : Val) : Res Request := do
  let featureKey ← featureKey.asStr
  .ok ⟨"configuration/" ++ featureKey, configSelector⟩

/-- The requests of a component. -/
def componentRequests (featuresMap : Val) (component : String × Val) : Res (List Request) := do
  let count ← component.2.getAttr "count"
  let inactive ← count.ltOne
  if inactive then .ok []
  else do
    let configSelector ← component.2.getAttr "configuration"
    let rolesMapping ← attrPath featuresMap ["specification", "roles_mapping"]
    let features ← rolesMapping.getItem component.1
    let features ← features.asList
    features.mapM (featureRequest configSelector)

/-- The requests of all components. -/
def requestsOf (docs : List Val) : Res (List Request) := do
  let clusterModel ← selectSingle docs (kindIs "lambdastack-cluster")
  let featuresMap ← requiredTree schema docs "configuration/feature-mapping"
  let components ← attrPath clusterModel ["specification", "components"]
  let components ← components.asDict
  let requests ← components.mapM (componentRequests featuresMap)
  .ok requests.flatten

/-- Exactly one document for each request and of each required kind, and no two of
one kind and name. -/
structure Complete (requests : List Request) (docs : List Val) : Prop where
  features : ∀ q ∈ requests, docs.countP (named q) = 1
  required : ∀ kind ∈ requiredDocs, docs.countP (isOfKind kind) = 1
  distinct : docs.Pairwise fun x y => ¬ sameConfig x y = true

/-- No document of the user answers two requests, and a request for a required kind
is only made where the user has no such document and the required one has its name. -/
structure SelectsOnce (docs : List Val) (requests : List Request) : Prop where
  once : requests.Pairwise fun q q' => (docs.find? (named q)).isSome →
    ¬ (q.kind = q'.kind ∧ q.selector.pyEq q'.selector = true)
  required : ∀ q ∈ requests, q.kind ∈ requiredDocs →
    docs.find? (named q) = none ∧
      ∃ doc, requiredTree schema docs q.kind = .ok doc ∧ named q doc = true

/-! ## Kinds and names -/

theorem bothEq_str_iff {x : Option Val} {s : String} {type : StrType} :
    bothEq x (some (.scalar (.str s type))) = true ↔ x.bind Val.str? = some s := by
  cases x with
  | none => simp [bothEq]
  | some x => simp [bothEq, pyEq_str_eq_true]

/-- What is equal to a string has its text. -/
theorem bothEq_iff_of_str? {x y : Option Val} {s : String} (h : y.bind Val.str? = some s) :
    bothEq x y = true ↔ x.bind Val.str? = some s := by
  obtain ⟨own, rfl, htext⟩ := Option.bind_eq_some_iff.mp h
  obtain ⟨type, rfl⟩ := Val.str?_eq_some.mp htext
  exact bothEq_str_iff

/-- What identifies a document for the appender. -/
structure DocName where
  kind : Option Val
  name : Option Val
  wellFormed : ∀ x, name = some x → x.WellFormed

namespace DocName

/-- The document has this kind and this name. -/
def Describes (d : DocName) (x : Val) : Prop :=
  x.attr? "kind" = d.kind ∧ x.attr? "name" = d.name

/-- The name of a document. -/
def ofDoc (x : Val) (hx : x.WellFormed) : DocName :=
  ⟨x.attr? "kind", x.attr? "name", fun _ h => hx.attr? h⟩

/-- The kind and the name a request asks for. -/
def fits (q : Request) (d : DocName) : Bool :=
  bothEq d.kind (some (.str q.kind)) && bothEq d.name (some q.selector)

def like (d e : DocName) : Bool := bothEq d.kind e.kind && bothEq d.name e.name

variable {d e : DocName} {q q' : Request} {x y : Val}

theorem fits_eq_true : d.fits q = true ↔ d.kind.bind Val.str? = some q.kind ∧
    ∃ name, d.name = some name ∧ name.pyEq q.selector = true := by
  rw [fits, Bool.and_eq_true, bothEq_str_iff]
  refine and_congr_right fun _ => ?_
  cases hname : d.name <;> simp [bothEq]

theorem Describes.named_eq (h : d.Describes x) (q : Request) : named q x = d.fits q := by
  rw [Bool.eq_iff_iff, named, holds?_eq_true, kindAndNameAre_eq_ok_true, attrIs_eq_ok,
    Val.IsKind, h.1, h.2, fits_eq_true]

theorem Describes.isOfKind_eq (h : d.Describes x) (kind : String) :
    isOfKind kind x = bothEq d.kind (some (.str kind)) := by
  rw [Bool.eq_iff_iff, isOfKind, holds?_eq_true, kindIs_eq_ok_true, Val.IsKind, h.1,
    bothEq_str_iff]

theorem Describes.sameConfig_eq (h : d.Describes x) (h' : e.Describes y) :
    sameConfig x y = d.like e := by
  rw [sameConfig, like, h.1, h.2, h'.1, h'.2]

end DocName

/-- A request with a selector that is a Python value. -/
abbrev WfRequest := {q : Request // q.selector.WellFormed}

theorem selector_pyEq_of_fits {q q' : WfRequest} {d : DocName} (h : d.fits q.1 = true)
    (h' : d.fits q'.1 = true) :
    q.1.kind = q'.1.kind ∧ q.1.selector.pyEq q'.1.selector = true := by
  obtain ⟨hkind, name, hname, heq⟩ := DocName.fits_eq_true.mp h
  obtain ⟨hkind', name', hname', heq'⟩ := DocName.fits_eq_true.mp h'
  rw [hkind, Option.some.injEq] at hkind'
  rw [hname, Option.some.injEq] at hname'
  subst hname'
  refine ⟨by simpa using hkind', ?_⟩
  exact Val.pyEq_trans (Val.pyEq_symm (d.wellFormed name hname) q.2 heq) heq'

/-- How the appender answers: the user's documents are its own answers. -/
def answering (names : List DocName) : Answering WfRequest DocName where
  own q := names.find? (·.fits q.1)
  fits q d := d.fits q.1 = true
  like d e := d.like e = true
  own_fits h := List.find?_some h
  own_eq := by
    intro q q' d h h'
    obtain ⟨hkind, heq⟩ := selector_pyEq_of_fits h h'
    congr 1
    funext e
    rw [Bool.eq_iff_iff, DocName.fits_eq_true, DocName.fits_eq_true, hkind]
    refine and_congr_right fun _ => exists_congr fun name => and_congr_right fun hname => ?_
    exact ⟨fun h => Val.pyEq_trans h heq, fun h =>
      Val.pyEq_of_pyEq_right q.2 q'.2 h heq⟩
  fits_iff_like := by
    intro q d e h
    obtain ⟨hkind, name, hname, heq⟩ := DocName.fits_eq_true.mp h
    have hwf := d.wellFormed name hname
    rw [DocName.fits, DocName.like, Bool.and_eq_true, Bool.and_eq_true, bothEq_str_iff,
      bothEq_iff_of_str? hkind, hname]
    refine and_congr_right fun _ => ?_
    cases hother : e.name with
    | none => simp [bothEq]
    | some other =>
        simp only [bothEq]
        exact ⟨fun h => Val.pyEq_of_pyEq_right hwf q.2 h heq, fun h => Val.pyEq_trans h heq⟩

end ConfigurationAppender

end LambdaStack
