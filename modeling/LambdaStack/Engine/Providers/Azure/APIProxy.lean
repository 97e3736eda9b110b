/-
# What the Azure proxy makes of the output of a command

`APIProxy.run` removes all white space from what the Azure CLI printed, then all
terminal control sequences, and decodes the rest; what cannot be decoded is an empty
mapping. The white space goes from inside the strings too, so the value that comes back
is that of the text with its strings stripped.
-/

import LambdaStack.Lib.Json
import LambdaStack.Helpers.DocListHelpers

namespace LambdaStack

open Lib

namespace Azure.APIProxy

/-! ## The rewriting -/

/-- The characters `\s` stands for. -/
def isSpace (c : Char) : Bool :=
  let n := c.toNat
  (0x09 ≤ n && n ≤ 0x0D) || (0x1C ≤ n && n ≤ 0x20) || n = 0x85 || n = 0xA0 || n = 0x1680 ||
    (0x2000 ≤ n && n ≤ 0x200A) || n = 0x2028 || n = 0x2029 || n = 0x202F || n = 0x205F || n = 0x3000

/-- `re.sub(r'\s+', '', data)`. -/
def removeSpaces (data : List Char) : List Char := data.filter fun c => !isSpace c

/-- `[0-?]`. -/
def isParameter (c : Char) : Bool := 0x30 ≤ c.toNat && c.toNat ≤ 0x3F

/-- `[ -\/]`. -/
def isIntermediate (c : Char) : Bool := 0x20 ≤ c.toNat && c.toNat ≤ 0x2F

/-- `[@-~]`. -/
def isFinal (c : Char) : Bool := 0x40 ≤ c.toNat && c.toNat ≤ 0x7E

/-- What follows `[0-?]*[ -\/]*[@-~]`. The three sets are disjoint, so no repetition can
be cut short to let the rest match. -/
def afterIntroducer (text : List Char) : Option (List Char) :=
  match (text.dropWhile isParameter).dropWhile isIntermediate with
  | [] => none
  | c :: rest => if isFinal c then some rest else none

/-- What follows a control sequence `(\x9B|\x1B\[)[0-?]*[ -\/]*[@-~]` the text begins with. -/
def matchEscape : List Char → Option (List Char)
  | [] => none
  | c :: rest =>
      if c = '\u009B' then afterIntroducer rest
      else if c = '\u001B' then
        match rest with
        | [] => none
        | d :: rest => if d = '[' then afterIntroducer rest else none
      else none

theorem length_afterIntroducer {text rest : List Char} (h : afterIntroducer text = some rest) :
    rest.length < text.length := by
  unfold afterIntroducer at h
  have hle : ((text.dropWhile isParameter).dropWhile isIntermediate).length ≤ text.length :=
    Nat.le_trans (List.dropWhile_sublist _).length_le (List.dropWhile_sublist _).length_le
  split at h
  · cases h
  · next c rest' heq =>
      rw [heq, List.length_cons] at hle
      split at h
      · cases h
        exact hle
      · cases h

theorem matchEscape_cons (c : Char) (rest : List Char) :
    matchEscape (c :: rest) =
      if c = '\u009B' then afterIntroducer rest
      else if c = '\u001B' then
        match rest with
        | [] => none
        | d :: rest => if d = '[' then afterIntroducer rest else none
      else none := rfl

theorem length_matchEscape {text rest : List Char} (h : matchEscape text = some rest) :
    rest.length < text.length := by
  cases text with
  | nil => cases h
  | cons c text =>
      rw [matchEscape_cons] at h
      rw [List.length_cons]
      by_cases hc : c = '\u009B'
      · rw [if_pos hc] at h
        have := length_afterIntroducer h
        omega
      by_cases hc' : c = '\u001B'
      · rw [if_neg hc, if_pos hc'] at h
        cases text with
        | nil => cases h
        | cons d text =>
            by_cases hd : d = '['
            · simp only [if_pos hd] at h
              have := length_afterIntroducer h
              rw [List.length_cons]
              omega
            · simp only [if_neg hd] at h
              cases h
      · rw [if_neg hc, if_neg hc'] at h
        cases h

/-- `re.sub(r'(\x9B|\x1B\[)[0-?]*[ -\/]*[@-~]', '', data)`. -/
def removeEscapes : List Char → List Char
  | [] => []
  | c :: rest =>
      match _h : matchEscape (c :: rest) with
      | some rest' => removeEscapes rest'
      | none => c :: removeEscapes rest
termination_by text => text.length
decreasing_by
  · exact length_matchEscape _h
  · simp

/-- `run` on what the command printed and its exit code. `loads` is `json.loads`, with
`none` for its exceptions. -/
def run (loads : List Char → Option Json) (cmd : String) (logCmd : Bool) (data : List Char)
    (returncode : Int) : Res Json :=
  let output := (loads (removeEscapes (removeSpaces data))).getD (.object [])
  if returncode ≠ 0 then
    .error (.exception
      (if logCmd then "Error running: \"" ++ cmd ++ "\"" else "Error running Azure APIProxy cmd"))
  else .ok output

/-- What a loop over a decoded value goes through. -/
def elements : Json → Res (List Json)
  | .array items => .ok items
  | .object members => .ok (members.map fun member => .string member.1)
  | .string codePoints => .ok (codePoints.map fun point => .string [point])
  | _ => .error .typeError

/-- The code points of a string of the configuration. -/
def codePoints (s : String) : List Nat := s.toList.map Char.toNat

/-- `x[key]`. -/
def getItem (x : Json) (key : String) : Res Json :=
  match x with
  | .object members =>
      match members.lookup (codePoints key) with
      | some value => .ok value
      | none => .error (.keyError key)
  | _ => .error .typeError

/-- `x['name'] == subscription_name`. -/
def isSubscription (subscriptionName : String) (x : Json) : Res Bool := do
  let name ← getItem x "name"
  match name with
  | .string points => .ok (points == codePoints subscriptionName)
  | _ => .ok false

/-- `login_account`. -/
def loginAccount (loads : List Char → Option Json) (subscriptionName : String)
    (data : List Char) (returncode : Int) : Res Json := do
  let allSubscription ← run loads "az login" true data returncode
  let subscriptions ← elements allSubscription
  let subscription ← selectFirst subscriptions (isSubscription subscriptionName)
  match subscription with
  | none => .error (.exception
      ("User does not have access to subscription: \"" ++ subscriptionName ++ "\""))
  | some subscription => .ok subscription

/-! ## What the command prints -/

/-- A terminal escape that sets a colour. -/
inductive IsColour : List Char → Prop
  | escape {parameters : List Char} (h : ∀ c ∈ parameters, isParameter c = true) :
      IsColour ('\u001B' :: '[' :: parameters ++ ['m'])
  | control {parameters : List Char} (h : ∀ c ∈ parameters, isParameter c = true) :
      IsColour ('\u009B' :: parameters ++ ['m'])

/-- White space and colours. -/
inductive IsGap : List Char → Prop
  | nil : IsGap []
  | space {c : Char} {rest : List Char} (h : isJsonSpace c = true) (hrest : IsGap rest) :
      IsGap (c :: rest)
  | colour {escape rest : List Char} (h : IsColour escape) (hrest : IsGap rest) :
      IsGap (escape ++ rest)

/-- The command prints a text of the tree with colours between the tokens. -/
structure Prints (tree : JsonTree) (layout : Layout) : Prop where
  tokens : layout.tokens = tree.tokens
  gaps : ∀ gap ∈ layout.gaps, IsGap gap

/-- `loads` gives every text of the tree its value. -/
def Decodes (loads : List Char → Option Json) (tree : JsonTree) : Prop :=
  ∀ text, tree.IsText text → loads text = some tree.value

/-- The characters of a string that are left. -/
def keeps : StringChar → Bool
  | .plain c _ => !isSpace c
  | _ => true

/-- The tree with the white space taken out of its strings. -/
def stripped (tree : JsonTree) : JsonTree := tree.mapStrings (·.filter keeps)

/-- No string has white space that is written as such. -/
def NoSpaceInStrings (tree : JsonTree) : Prop :=
  ∀ chars, Token.string chars ∈ tree.tokens → ∀ c ∈ chars, keeps c = true

/-- No control sequence begins in a string, once the white space is gone. -/
def NoEscapeInStrings (layout : Layout) : Prop :=
  ∀ before gap chars after, layout.parts = before ++ (gap, Token.string chars) :: after →
    ∀ first rest, removeSpaces (Token.string chars).text = first ++ '\u009B' :: rest →
      matchEscape ('\u009B' :: rest ++ removeSpaces (Layout.text ⟨after, layout.trailing⟩)) = none

/-! ## What the rewriting leaves -/

theorem removeEscapes_of_match {text rest : List Char} (h : matchEscape text = some rest) :
    removeEscapes text = removeEscapes rest := by
  cases text with
  | nil => cases h
  | cons c text =>
      rw [removeEscapes]
      split
      · next rest' heq =>
          rw [h] at heq
          cases heq
          rfl
      · next heq =>
          rw [h] at heq
          cases heq

theorem removeEscapes_cons {c : Char} {rest : List Char} (h : matchEscape (c :: rest) = none) :
    removeEscapes (c :: rest) = c :: removeEscapes rest := by
  rw [removeEscapes]
  split
  · next heq =>
      rw [h] at heq
      cases heq
  · rfl

/-- A stretch in which no control sequence begins stays. -/
theorem removeEscapes_append {text follow : List Char}
    (h : ∀ first c rest, text = first ++ c :: rest → matchEscape (c :: rest ++ follow) = none) :
    removeEscapes (text ++ follow) = text ++ removeEscapes follow := by
  induction text with
  | nil => rfl
  | cons c text ih =>
      have hfirst : matchEscape (c :: (text ++ follow)) = none := h [] c text rfl
      rw [List.cons_append, removeEscapes_cons hfirst, ih, List.cons_append]
      intro first d rest heq
      exact h (c :: first) d rest (by rw [heq, List.cons_append])

theorem matchEscape_eq_none {c : Char} (hc : c ≠ '\u009B') (hc' : c ≠ '\u001B')
    (rest : List Char) : matchEscape (c :: rest) = none := by
  rw [matchEscape_cons, if_neg hc, if_neg hc']

/-- A control sequence of parameters and a final `m`. -/
theorem afterIntroducer_colour {parameters : List Char}
    (h : ∀ c ∈ parameters, isParameter c = true) (rest : List Char) :
    afterIntroducer (parameters ++ 'm' :: rest) = some rest := by
  unfold afterIntroducer
  have hm : isParameter 'm' = false := by decide
  have hm' : isIntermediate 'm' = false := by decide
  have hm'' : isFinal 'm' = true := by decide
  rw [List.dropWhile_append_of_pos h, List.dropWhile_cons_of_neg (by simp [hm]),
    List.dropWhile_cons_of_neg (by simp [hm'])]
  simp [hm'']

theorem matchEscape_colour {escape : List Char} (h : IsColour escape) (rest : List Char) :
    matchEscape (escape ++ rest) = some rest := by
  cases h with
  | @escape parameters h =>
      have hne : ('\u001B' : Char) ≠ '\u009B' := by decide
      simp only [List.cons_append, List.append_assoc, List.nil_append]
      rw [matchEscape_cons, if_neg hne, if_pos rfl]
      simp only [if_true]
      exact afterIntroducer_colour h rest
  | @control parameters h =>
      simp only [List.cons_append, List.append_assoc, List.nil_append]
      rw [matchEscape_cons, if_pos rfl]
      exact afterIntroducer_colour h rest

theorem isSpace_of_isParameter {c : Char} (h : isParameter c = true) : isSpace c = false := by
  simp only [isParameter, Bool.and_eq_true, decide_eq_true_eq] at h
  simp only [isSpace, Bool.or_eq_false_iff, Bool.and_eq_false_iff, decide_eq_false_iff_not]
  omega

theorem isSpace_of_isJsonSpace {c : Char} (h : isJsonSpace c = true) : isSpace c = true := by
  simp only [isJsonSpace, List.contains_eq_mem, List.mem_cons, List.not_mem_nil, or_false,
    decide_eq_true_eq] at h
  rcases h with rfl | rfl | rfl | rfl <;> decide

theorem removeSpaces_append (text follow : List Char) :
    removeSpaces (text ++ follow) = removeSpaces text ++ removeSpaces follow :=
  List.filter_append ..

theorem removeSpaces_colour {escape : List Char} (h : IsColour escape) :
    removeSpaces escape = escape := by
  rw [removeSpaces, List.filter_eq_self]
  cases h with
  | escape h =>
      intro c hc
      simp only [List.cons_append, List.mem_cons, List.mem_append, List.not_mem_nil, or_false] at hc
      rcases hc with rfl | rfl | hc | rfl
      · decide
      · decide
      · rw [isSpace_of_isParameter (h c hc), Bool.not_false]
      · decide
  | control h =>
      intro c hc
      simp only [List.cons_append, List.mem_cons, List.mem_append, List.not_mem_nil, or_false] at hc
      rcases hc with rfl | hc | rfl
      · decide
      · rw [isSpace_of_isParameter (h c hc), Bool.not_false]
      · decide

/-- What stands between the tokens goes. -/
theorem removeEscapes_gap {gap : List Char} (h : IsGap gap) (follow : List Char) :
    removeEscapes (removeSpaces gap ++ follow) = removeEscapes follow := by
  induction h with
  | nil => rfl
  | @space c rest h _ ih =>
      rw [removeSpaces, List.filter_cons_of_neg (by simp [isSpace_of_isJsonSpace h])]
      exact ih
  | @colour escape rest h _ ih =>
      rw [removeSpaces_append, removeSpaces_colour h, List.append_assoc,
        removeEscapes_of_match (matchEscape_colour h _)]
      exact ih

theorem toNat_of_isWordChar {c : Char} (h : isWordChar c = true) :
    0x2B ≤ c.toNat ∧ c.toNat ≤ 0x7D := by
  simp only [isWordChar, Bool.or_eq_true, List.contains_eq_mem, List.mem_cons, List.not_mem_nil,
    or_false, decide_eq_true_eq] at h
  rcases h with h | rfl | rfl | rfl | rfl | rfl | rfl | rfl | rfl | rfl
  · change (decide (c.val ≥ 'A'.val ∧ c.val ≤ 'Z'.val) || (c.val ≥ 'a'.val && c.val ≤ 'z'.val) ||
      (c.val ≥ '0'.val && c.val ≤ '9'.val)) = true at h
    simp only [Bool.or_eq_true, Bool.and_eq_true, decide_eq_true_eq, ge_iff_le,
      UInt32.le_iff_toNat_le] at h
    simp only [Char.toNat]
    have hA : 'A'.val.toNat = 65 := rfl
    have hZ : 'Z'.val.toNat = 90 := rfl
    have ha : 'a'.val.toNat = 97 := rfl
    have hz : 'z'.val.toNat = 122 := rfl
    have h0 : '0'.val.toNat = 48 := rfl
    have h9 : '9'.val.toNat = 57 := rfl
    omega
  all_goals decide

theorem isSpace_of_isWordChar {c : Char} (h : isWordChar c = true) : isSpace c = false := by
  have := toNat_of_isWordChar h
  simp only [isSpace, Bool.or_eq_false_iff, Bool.and_eq_false_iff, decide_eq_false_iff_not]
  omega

theorem isSpace_hexDigit (d : HexDigit) : isSpace d.char = false := by
  obtain ⟨value, upper⟩ := d
  revert value upper
  decide

theorem toNat_hexDigit (d : HexDigit) : 0x30 ≤ d.char.toNat ∧ d.char.toNat ≤ 0x66 := by
  obtain ⟨value, upper⟩ := d
  revert value upper
  decide

theorem removeSpaces_char (c : StringChar) :
    removeSpaces c.text = if keeps c then c.text else [] := by
  cases c with
  | plain c h => cases hc : isSpace c <;> simp [removeSpaces, StringChar.text, keeps, hc]
  | escape e => cases e <;> decide
  | unicode a b c d =>
      have hbackslash : isSpace '\\' = false := by decide
      have hu : isSpace 'u' = false := by decide
      simp [removeSpaces, StringChar.text, keeps, isSpace_hexDigit, hbackslash, hu]

theorem removeSpaces_string (chars : List StringChar) :
    removeSpaces (Token.string chars).text = (Token.string (chars.filter keeps)).text := by
  have hchars : removeSpaces (chars.flatMap StringChar.text) =
      (chars.filter keeps).flatMap StringChar.text := by
    induction chars with
    | nil => rfl
    | cons c rest ih =>
        rw [List.flatMap_cons, removeSpaces_append, removeSpaces_char, ih]
        cases hc : keeps c <;> simp [hc]
  have hquote : isSpace '"' = false := by decide
  rw [Token.text, Token.text, removeSpaces_append, removeSpaces,
    List.filter_cons_of_pos (by simp [hquote]), ← removeSpaces, hchars]
  simp [removeSpaces, hquote]

/-- No character of a string is a control character of ASCII. -/
theorem toNat_string {chars : List StringChar} :
    ∀ c ∈ (Token.string chars).text, 0x20 ≤ c.toNat := by
  have hchar : ∀ d : StringChar, ∀ c ∈ d.text, 0x20 ≤ c.toNat := by
    intro d c hc
    cases d with
    | plain d h =>
        rw [StringChar.text, List.mem_singleton] at hc
        exact hc ▸ h.1
    | escape e =>
        simp only [StringChar.text, List.mem_cons, List.not_mem_nil, or_false] at hc
        rcases hc with rfl | rfl
        · decide
        · cases e <;> decide
    | unicode a b d e =>
        simp only [StringChar.text, List.mem_cons, List.not_mem_nil, or_false] at hc
        rcases hc with rfl | rfl | rfl | rfl | rfl | rfl
        · decide
        · decide
        all_goals
          have := toNat_hexDigit
          grind
  intro c hc
  simp only [Token.text, List.cons_append, List.mem_cons, List.mem_append, List.mem_flatMap,
    List.not_mem_nil, or_false] at hc
  rcases hc with rfl | ⟨d, -, hc⟩ | rfl
  · decide
  · exact hchar d c hc
  · decide

theorem removeEscapes_word {text : List Char} (h : ∀ c ∈ text, isWordChar c = true)
    (follow : List Char) :
    removeEscapes (removeSpaces text ++ follow) = text ++ removeEscapes follow := by
  have hspaces : removeSpaces text = text :=
    List.filter_eq_self.mpr fun c hc => by rw [isSpace_of_isWordChar (h c hc), Bool.not_false]
  rw [hspaces]
  refine removeEscapes_append fun first c rest heq => ?_
  have hc := toNat_of_isWordChar (h c (by simp [heq]))
  refine matchEscape_eq_none ?_ ?_ _
  · rintro rfl
    exact absurd hc (by decide)
  · rintro rfl
    exact absurd hc (by decide)

theorem removeEscapes_string {chars : List StringChar} {follow : List Char}
    (h : ∀ first rest, removeSpaces (Token.string chars).text = first ++ '\u009B' :: rest →
      matchEscape ('\u009B' :: rest ++ follow) = none) :
    removeEscapes (removeSpaces (Token.string chars).text ++ follow) =
      (Token.string (chars.filter keeps)).text ++ removeEscapes follow := by
  rw [removeSpaces_string] at h ⊢
  refine removeEscapes_append fun first c rest heq => ?_
  by_cases hc : c = '\u009B'
  · subst hc
    exact h first rest heq
  · refine matchEscape_eq_none hc ?_ _
    rintro rfl
    have := toNat_string '\u001B' (by rw [heq]; simp)
    exact absurd this (by decide)

/-- The rewriting leaves the tokens, with the white space taken out of the strings. -/
theorem removeEscapes_layout {layout : Layout} (hgaps : ∀ gap ∈ layout.gaps, IsGap gap)
    (hwords : ∀ text, Token.word text ∈ layout.tokens → ∀ c ∈ text, isWordChar c = true)
    (hescape : NoEscapeInStrings layout) :
    removeEscapes (removeSpaces layout.text) =
      (layout.tokens.map (Token.mapString (·.filter keeps))).flatMap Token.text := by
  obtain ⟨parts, trailing⟩ := layout
  induction parts with
  | nil =>
      have h := removeEscapes_gap (hgaps trailing (by simp [Layout.gaps])) []
      simpa [Layout.text, Layout.tokens, removeEscapes] using h
  | cons part rest ih =>
      obtain ⟨gap, token⟩ := part
      have hrest := ih (fun gap hgap => hgaps gap (by simp_all [Layout.gaps]))
        (fun text htext => hwords text (by simp_all [Layout.tokens]))
        (fun before gap' chars after heq => hescape ((gap, token) :: before) gap' chars after
          (by rw [show rest = _ from heq, List.cons_append]))
      have htext : Layout.text ⟨(gap, token) :: rest, trailing⟩ =
          gap ++ (token.text ++ Layout.text ⟨rest, trailing⟩) := by
        simp [Layout.text]
      rw [htext, removeSpaces_append, removeSpaces_append,
        removeEscapes_gap (hgaps gap (by simp [Layout.gaps]))]
      cases token with
      | word text =>
          rw [Token.text, removeEscapes_word (hwords text (by simp [Layout.tokens])), hrest]
          simp [Layout.tokens, Token.mapString, Token.text]
      | string chars =>
          rw [removeEscapes_string (hescape [] gap chars rest rfl), hrest]
          simp [Layout.tokens, Token.mapString, Token.text]

/-! ## The value that comes back -/

theorem keeps_of_pair {c d : StringChar} (h : (StringChar.pair? c d).isSome = true) :
    keeps c = true ∧ keeps d = true := by
  cases c with
  | plain | escape => simp [StringChar.pair?] at h
  | unicode =>
      cases d with
      | plain | escape => simp [StringChar.pair?] at h
      | unicode => exact ⟨rfl, rfl⟩

theorem value_stripped {tree : JsonTree} (h : NoSpaceInStrings tree) :
    (stripped tree).value = tree.value :=
  JsonTree.value_mapStrings fun chars hchars => by rw [List.filter_eq_self.mpr (h chars hchars)]

theorem value_stripped_iff {tree : JsonTree} (hnames : tree.DistinctNames) :
    (stripped tree).value = tree.value ↔ NoSpaceInStrings tree := by
  rw [stripped, JsonTree.value_mapStrings_iff hnames]
  exact forall₂_congr fun chars _ => StringChar.decode_filter_eq_iff fun _ _ => keeps_of_pair

/-- The value of the text with its strings stripped comes back. -/
theorem run_layout {loads : List Char → Option Json} {tree : JsonTree} {layout : Layout}
    (hprints : Prints tree layout) (hloads : Decodes loads (stripped tree))
    (hescape : NoEscapeInStrings layout) (cmd : String) (logCmd : Bool) :
    run loads cmd logCmd layout.text 0 = .ok (stripped tree).value := by
  have hwords : ∀ text, Token.word text ∈ layout.tokens → ∀ c ∈ text, isWordChar c = true := by
    rw [hprints.tokens]
    exact fun text => JsonTree.isWordChar_of_mem_tokens
  have htext : removeEscapes (removeSpaces layout.text) =
      (stripped tree).tokens.flatMap Token.text := by
    rw [removeEscapes_layout hprints.gaps hwords hescape, hprints.tokens, stripped,
      JsonTree.tokens_mapStrings]
  have hdecoded := hloads _ (stripped tree).isText_compact
  simp [run, htext, hdecoded]

/-- The command returns the value that was printed, and a subscription of the configured
name is found. -/
structure ReturnsPrinted (loads : List Char → Option Json) (tree : JsonTree)
    (data : List Char) : Prop where
  run : ∀ cmd logCmd, run loads cmd logCmd data 0 = .ok tree.value
  login : ∀ subscriptionName before subscription after,
    tree.value = .array (before ++ subscription :: after) →
    (∀ x ∈ before, isSubscription subscriptionName x = .ok false) →
    isSubscription subscriptionName subscription = .ok true →
    loginAccount loads subscriptionName data 0 = .ok subscription

/-- The first subscription of the name is selected. -/
theorem selectFirst_subscription {name : String} {before after : List Json} {subscription : Json}
    (hbefore : ∀ x ∈ before, isSubscription name x = .ok false)
    (hsubscription : isSubscription name subscription = .ok true) :
    selectFirst (before ++ subscription :: after) (isSubscription name) =
      .ok (some subscription) := by
  induction before with
  | nil => rw [List.nil_append, selectFirst, hsubscription, ok_bind, if_pos rfl]
  | cons x rest ih =>
      rw [List.cons_append, selectFirst, hbefore x List.mem_cons_self, ok_bind,
        if_neg Bool.false_ne_true]
      exact ih fun y hy => hbefore y (List.mem_cons_of_mem _ hy)

theorem returnsPrinted_of_run {loads : List Char → Option Json} {tree : JsonTree}
    {data : List Char} (hrun : ∀ cmd logCmd, run loads cmd logCmd data 0 = .ok tree.value) :
    ReturnsPrinted loads tree data := by
  refine ⟨hrun, fun name before subscription after hvalue hbefore hsubscription => ?_⟩
  unfold loginAccount
  rw [hrun, ok_bind, hvalue, elements, ok_bind,
    selectFirst_subscription hbefore hsubscription, ok_bind]

/-- The proxy returns what the command printed when no string has white space in it and no
control sequence begins in one. Where none begins in one, and no object names a member
twice, it is only then that it does. -/
theorem run_returns {loads : List Char → Option Json} {tree : JsonTree} {layout : Layout}
    (hprints : Prints tree layout) (hloads : Decodes loads (stripped tree)) :
    (NoEscapeInStrings layout ∧ NoSpaceInStrings tree → ReturnsPrinted loads tree layout.text) ∧
      (NoEscapeInStrings layout → tree.DistinctNames →
        (ReturnsPrinted loads tree layout.text ↔ NoSpaceInStrings tree)) := by
  have hreturns : NoEscapeInStrings layout → NoSpaceInStrings tree →
      ReturnsPrinted loads tree layout.text := by
    intro hescape hspace
    refine returnsPrinted_of_run fun cmd logCmd => ?_
    rw [run_layout hprints hloads hescape, value_stripped hspace]
  refine ⟨fun h => hreturns h.1 h.2, fun hescape hnames => ⟨fun h => ?_, hreturns hescape⟩⟩
  have hrun := h.run "" true
  rw [run_layout hprints hloads hescape, Except.ok.injEq] at hrun
  exact (value_stripped_iff hnames).mp hrun

/-- Without the one character of control sequences that a string can have, none begins
in a string. -/
theorem noEscapeInStrings_of_not_mem {layout : Layout}
    (h : ∀ chars, Token.string chars ∈ layout.tokens → '\u009B' ∉ (Token.string chars).text) :
    NoEscapeInStrings layout := by
  intro before gap chars after hparts first rest hsplit
  have hmem : '\u009B' ∈ removeSpaces (Token.string chars).text := by simp [hsplit]
  exact absurd (List.mem_filter.mp hmem).1 (h chars (by simp [Layout.tokens, hparts]))

namespace PrintedSample

/-- `[{"name": ...}]`. -/
def tree (name : List StringChar) : JsonTree :=
  .array [.object [([.plain 'n' (by decide), .plain 'a' (by decide), .plain 'm' (by decide),
    .plain 'e' (by decide)], .string name)]]

/-- A new line and a colour before each token. -/
def layout (name : List StringChar) : Layout :=
  ⟨((tree name).tokens.map fun token => (['\n', '\u001B', '[', '0', 'm'], token)), ['\n']⟩

theorem prints (name : List StringChar) : Prints (tree name) (layout name) := by
  constructor
  · simp [layout, Layout.tokens, Function.comp_def]
  · have hcolour : IsColour ('\u001B' :: '[' :: ['0'] ++ ['m']) :=
      .escape (List.all_eq_true.mp (by decide))
    have hgap : IsGap ('\n' :: (('\u001B' :: '[' :: ['0'] ++ ['m']) ++ [])) :=
      .space (by decide) (.colour hcolour .nil)
    intro gap hmem
    simp only [Layout.gaps, layout, List.map_map, List.mem_append, List.mem_map,
      List.mem_singleton] at hmem
    rcases hmem with ⟨token, -, rfl⟩ | rfl
    · exact hgap
    · exact .space (by decide) .nil

/-- `a b`. -/
def spaced : List StringChar :=
  [.plain 'a' (by decide), .plain ' ' (by decide), .plain 'b' (by decide)]

/-- `ab`. -/
def joined : List StringChar := [.plain 'a' (by decide), .plain 'b' (by decide)]

theorem string_mem_tokens {name chars : List StringChar}
    (h : Token.string chars ∈ (tree name).tokens) :
    chars = [.plain 'n' (by decide), .plain 'a' (by decide), .plain 'm' (by decide),
      .plain 'e' (by decide)] ∨ chars = name := by
  simpa [tree, JsonTree.tokens, JsonTree.itemTokens, JsonTree.memberTokens,
    JsonTree.memberToken] using h

theorem noEscapeInStrings {name : List StringChar} (h : '\u009B' ∉ (Token.string name).text) :
    NoEscapeInStrings (layout name) := by
  refine noEscapeInStrings_of_not_mem fun chars hchars => ?_
  rw [(prints name).tokens] at hchars
  rcases string_mem_tokens hchars with rfl | rfl
  · decide
  · exact h

theorem distinctNames {name : List StringChar} : (tree name).DistinctNames := by
  refine .array fun x hx => ?_
  rw [List.mem_singleton.mp hx]
  refine .object (List.nodup_singleton _) fun member hmember => ?_
  rw [List.mem_singleton.mp hmember]
  exact .string name

end PrintedSample

/-- A name with a space comes back without it, however other texts are decoded. -/
theorem run_strips_names : ∃ (tree : JsonTree) (layout : Layout), Prints tree layout ∧
    (∃ loads, Decodes loads (stripped tree)) ∧
      ∀ loads, Decodes loads (stripped tree) → ¬ ReturnsPrinted loads tree layout.text := by
  refine ⟨_, _, PrintedSample.prints PrintedSample.spaced, ⟨fun _ => some _, fun _ _ => rfl⟩, ?_⟩
  intro loads hloads hreturns
  have hrun := hreturns.run "az login" true
  rw [run_layout (PrintedSample.prints _) hloads (PrintedSample.noEscapeInStrings (by decide)),
    Except.ok.injEq, value_stripped_iff PrintedSample.distinctNames] at hrun
  exact absurd (hrun PrintedSample.spaced (by simp [PrintedSample.tree, JsonTree.tokens,
    JsonTree.itemTokens, JsonTree.memberTokens, JsonTree.memberToken]) (.plain ' ' (by decide))
    (by simp [PrintedSample.spaced])) (by decide)

/-- A name without white space. -/
theorem run_returns_sample :
    ReturnsPrinted (fun _ => some (PrintedSample.tree PrintedSample.joined).value)
      (PrintedSample.tree PrintedSample.joined)
      (PrintedSample.layout PrintedSample.joined).text := by
  have hspace : NoSpaceInStrings (PrintedSample.tree PrintedSample.joined) := by
    intro chars hchars
    rcases PrintedSample.string_mem_tokens hchars with rfl | rfl <;> decide
  have hloads : Decodes (fun _ => some (PrintedSample.tree PrintedSample.joined).value)
      (stripped (PrintedSample.tree PrintedSample.joined)) :=
    fun _ _ => congrArg some (value_stripped hspace).symm
  exact (run_returns (PrintedSample.prints _) hloads).1
    ⟨PrintedSample.noEscapeInStrings (by decide), hspace⟩

end Azure.APIProxy

end LambdaStack
