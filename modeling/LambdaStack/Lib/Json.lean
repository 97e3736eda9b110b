/-
# JSON texts

A JSON value and the texts that spell it out. A text is that of a tree of literals with
white space between its tokens; the tree also says how each string is written, character
by character, and its value is what a decoder makes of it: escapes are resolved, pairs of
surrogates joined, and the last of several members of one name counts.
-/

import LambdaStack.Lib.Dict

namespace Lib

/-! ## Values -/

/-- A JSON value. A string is its code points, which may be lone surrogates, and a
number the literal its value is computed from. -/
inductive Json
  | null
  | bool (b : Bool)
  | number (literal : List Char)
  | string (codePoints : List Nat)
  | array (items : List Json)
  | object (members : List (List Nat × Json))

/-! ## Literals -/

/-- The characters a backslash may be followed by, but for `u`. -/
inductive ShortEscape
  | quote | backslash | slash | backspace | formFeed | newline | carriageReturn | tab

def ShortEscape.char : ShortEscape → Char
  | .quote => '"'
  | .backslash => '\\'
  | .slash => '/'
  | .backspace => 'b'
  | .formFeed => 'f'
  | .newline => 'n'
  | .carriageReturn => 'r'
  | .tab => 't'

def ShortEscape.code : ShortEscape → Nat
  | .quote => 0x22
  | .backslash => 0x5C
  | .slash => 0x2F
  | .backspace => 0x08
  | .formFeed => 0x0C
  | .newline => 0x0A
  | .carriageReturn => 0x0D
  | .tab => 0x09

/-- A hexadecimal digit; a letter may be written in either case. -/
structure HexDigit where
  value : Fin 16
  upper : Bool

def HexDigit.char (d : HexDigit) : Char :=
  if d.value.val < 10 then Char.ofNat (0x30 + d.value.val)
  else if d.upper then Char.ofNat (0x37 + d.value.val) else Char.ofNat (0x57 + d.value.val)

/-- A character that stands for itself in a string literal. -/
def IsPlainChar (c : Char) : Prop := 0x20 ≤ c.toNat ∧ c ≠ '"' ∧ c ≠ '\\'

instance (c : Char) : Decidable (IsPlainChar c) := inferInstanceAs (Decidable (_ ∧ _))

/-- One character of a string, as it is written. -/
inductive StringChar
  | plain (c : Char) (h : IsPlainChar c)
  | escape (e : ShortEscape)
  | unicode (a b c d : HexDigit)

namespace StringChar

def text : StringChar → List Char
  | plain c _ => [c]
  | escape e => ['\\', e.char]
  | unicode a b c d => ['\\', 'u', a.char, b.char, c.char, d.char]

def code : StringChar → Nat
  | plain c _ => c.toNat
  | escape e => e.code
  | unicode a b c d => ((a.value.val * 16 + b.value.val) * 16 + c.value.val) * 16 + d.value.val

/-- The code point two `\u` escapes stand for that are a pair of surrogates. -/
def pair? : StringChar → StringChar → Option Nat
  | high@(unicode ..), low@(unicode ..) =>
      if 0xD800 ≤ high.code ∧ high.code ≤ 0xDBFF ∧ 0xDC00 ≤ low.code ∧ low.code ≤ 0xDFFF then
        some (0x10000 + (high.code - 0xD800) * 0x400 + (low.code - 0xDC00))
      else none
  | _, _ => none

/-- The code points of a string. -/
def decode : List StringChar → List Nat
  | [] => []
  | [c] => [c.code]
  | c :: d :: rest =>
      match pair? c d with
      | some point => point :: decode rest
      | none => c.code :: decode (d :: rest)

theorem length_decode_cons_cons (c d : StringChar) (rest : List StringChar) :
    (decode (c :: d :: rest)).length =
      if (pair? c d).isSome then (decode rest).length + 1 else (decode (d :: rest)).length + 1 := by
  rw [decode]
  cases pair? c d <;> rfl

/-- One more character is at most one more code point: it may complete a pair. -/
theorem length_decode_cons (c : StringChar) (chars : List StringChar) :
    (decode (c :: chars)).length ≤ (decode chars).length + 1 ∧
      (decode chars).length ≤ (decode (c :: chars)).length := by
  induction chars generalizing c with
  | nil => simp [decode]
  | cons d rest ih =>
      obtain ⟨hle, hge⟩ := ih d
      rw [length_decode_cons_cons c d rest]
      split <;> omega

/-- Characters that are dropped and belong to no pair are missing in the string. -/
theorem length_decode_filter {keep : StringChar → Bool}
    (hkeep : ∀ c d, (pair? c d).isSome = true → keep c = true ∧ keep d = true)
    (chars : List StringChar) : (decode (chars.filter keep)).length ≤ (decode chars).length ∧
      ((∃ c ∈ chars, keep c = false) →
        (decode (chars.filter keep)).length < (decode chars).length) := by
  fun_induction decode chars with
  | case1 => simp [decode]
  | case2 c =>
      cases hc : keep c <;> simp [decode, hc]
  | case3 c d rest point hpair ih =>
      obtain ⟨hc, hd⟩ := hkeep c d (by rw [hpair, Option.isSome_some])
      obtain ⟨hle, hlt⟩ := ih
      rw [List.filter_cons_of_pos hc, List.filter_cons_of_pos hd, length_decode_cons_cons,
        if_pos (by rw [hpair, Option.isSome_some]), List.length_cons]
      refine ⟨by omega, ?_⟩
      rintro ⟨e, he, hdropped⟩
      have hrest : e ∈ rest := by
        rcases List.mem_cons.mp he with rfl | he
        · rw [hc] at hdropped
          cases hdropped
        · rcases List.mem_cons.mp he with rfl | he
          · rw [hd] at hdropped
            cases hdropped
          · exact he
      have := hlt ⟨e, hrest, hdropped⟩
      omega
  | case4 c d rest _ ih =>
      obtain ⟨hle, hlt⟩ := ih
      rw [List.length_cons]
      cases hc : keep c with
      | true =>
          rw [List.filter_cons_of_pos hc]
          have hcons := (length_decode_cons c ((d :: rest).filter keep)).1
          refine ⟨by omega, ?_⟩
          rintro ⟨e, he, hdropped⟩
          rcases List.mem_cons.mp he with rfl | he
          · rw [hc] at hdropped
            cases hdropped
          · have := hlt ⟨e, he, hdropped⟩
            omega
      | false =>
          rw [List.filter_cons_of_neg (by simp [hc])]
          exact ⟨by omega, fun _ => by omega⟩

theorem decode_filter_eq_iff {keep : StringChar → Bool}
    (hkeep : ∀ c d, (pair? c d).isSome = true → keep c = true ∧ keep d = true)
    {chars : List StringChar} :
    decode (chars.filter keep) = decode chars ↔ ∀ c ∈ chars, keep c = true := by
  constructor
  · intro h
    by_contra hall
    push Not at hall
    have hlt := (length_decode_filter hkeep chars).2 (by simpa using hall)
    rw [h] at hlt
    exact absurd hlt (Nat.lt_irrefl _)
  · intro h
    rw [List.filter_eq_self.mpr h]

end StringChar

def IsDigits (text : List Char) : Prop := text ≠ [] ∧ ∀ c ∈ text, c.isDigit = true

/-- The literals of numbers. -/
def IsNumber (text : List Char) : Prop :=
  ∃ sign whole fraction exponent, text = sign ++ whole ++ fraction ++ exponent ∧
    (sign = [] ∨ sign = ['-']) ∧ (IsDigits whole ∧ (whole.head? = some '0' → whole = ['0'])) ∧
    (fraction = [] ∨ ∃ digits, IsDigits digits ∧ fraction = '.' :: digits) ∧
    (exponent = [] ∨ ∃ e sign digits, e ∈ ['e', 'E'] ∧ sign ∈ [[], ['+'], ['-']] ∧
      IsDigits digits ∧ exponent = e :: sign ++ digits)

structure NumberLiteral where
  text : List Char
  isNumber : IsNumber text

/-- The characters of the words of the grammar. -/
def isWordChar (c : Char) : Bool :=
  c.isAlphanum || ['[', ']', '\x7b', '\x7d', ',', ':', '+', '-', '.'].contains c

theorem isWordChar_of_isDigit {c : Char} (h : c.isDigit = true) : isWordChar c = true := by
  simp [isWordChar, Char.isAlphanum, h]

theorem isWordChar_number (literal : NumberLiteral) :
    ∀ c ∈ literal.text, isWordChar c = true := by
  obtain ⟨text, sign, whole, fraction, exponent, rfl, hsign, hwhole, hfraction, hexponent⟩ := literal
  have hdigits : ∀ {digits}, IsDigits digits → ∀ c ∈ digits, isWordChar c = true :=
    fun h c hc => isWordChar_of_isDigit (h.2 c hc)
  have hsign : ∀ c ∈ sign, isWordChar c = true := by
    rcases hsign with rfl | rfl <;> exact List.all_eq_true.mp (by decide)
  have hfraction : ∀ c ∈ fraction, isWordChar c = true := by
    rcases hfraction with rfl | ⟨digits, h, rfl⟩
    · simp
    · exact List.forall_mem_cons.mpr ⟨by decide, hdigits h⟩
  have hexponent : ∀ c ∈ exponent, isWordChar c = true := by
    rcases hexponent with rfl | ⟨e, sign, digits, he, hsign, h, rfl⟩
    · simp
    · have he : isWordChar e = true := by
        simp only [List.mem_cons, List.not_mem_nil, or_false] at he
        rcases he with rfl | rfl <;> decide
      have hsign : ∀ c ∈ sign, isWordChar c = true := by
        simp only [List.mem_cons, List.not_mem_nil, or_false] at hsign
        rcases hsign with rfl | rfl | rfl <;> exact List.all_eq_true.mp (by decide)
      simp only [List.cons_append, List.forall_mem_cons, List.forall_mem_append]
      exact ⟨he, hsign, hdigits h⟩
  simp only [List.forall_mem_append]
  exact ⟨⟨⟨hsign, hdigits hwhole.1⟩, hfraction⟩, hexponent⟩

/-! ## Trees -/

/-- A JSON value as it is written. -/
inductive JsonTree
  | null
  | bool (b : Bool)
  | number (literal : NumberLiteral)
  | string (chars : List StringChar)
  | array (items : List JsonTree)
  | object (members : List (List StringChar × JsonTree))

/-- A token of a text: a string literal, or any other word of the grammar. -/
inductive Token
  | word (text : List Char)
  | string (chars : List StringChar)

def Token.text : Token → List Char
  | .word text => text
  | .string chars => '"' :: chars.flatMap StringChar.text ++ ['"']

/-- A token with its string written otherwise. -/
def Token.mapString (f : List StringChar → List StringChar) : Token → Token
  | .word text => .word text
  | .string chars => .string (f chars)

namespace JsonTree

/-- Induction over a tree: an array holds its items, an object its members' values. -/
@[elab_as_elim]
theorem induct {P : JsonTree → Prop} (null : P .null) (bool : ∀ b, P (.bool b))
    (number : ∀ literal, P (.number literal)) (string : ∀ chars, P (.string chars))
    (array : ∀ items : List JsonTree, (∀ x ∈ items, P x) → P (.array items))
    (object : ∀ members : List (List StringChar × JsonTree),
      (∀ member ∈ members, P member.2) → P (.object members)) : ∀ tree, P tree
  | .null => null
  | .bool b => bool b
  | .number literal => number literal
  | .string chars => string chars
  | .array items => array items fun x _ => induct null bool number string array object x
  | .object members =>
      object members fun member _ => induct null bool number string array object member.2
termination_by tree => sizeOf tree
decreasing_by
  · have := List.sizeOf_lt_of_mem ‹x ∈ items›
    simp only [JsonTree.array.sizeOf_spec]
    omega
  · have hmem := List.sizeOf_lt_of_mem ‹member ∈ members›
    have hsnd : sizeOf member.2 < sizeOf member := by
      cases member
      simp only [Prod.mk.sizeOf_spec]
      omega
    simp only [JsonTree.object.sizeOf_spec]
    omega

mutual
/-- The value that is written. -/
def value : JsonTree → Json
  | .null => .null
  | .bool b => .bool b
  | .number literal => .number literal.text
  | .string chars => .string (StringChar.decode chars)
  | .array items => .array (values items)
  | .object members => .object (dictOf (memberValues members))
termination_by structural x => x

def values : List JsonTree → List Json
  | [] => []
  | x :: rest => value x :: values rest
termination_by structural x => x

def memberValues : List (List StringChar × JsonTree) → List (List Nat × Json)
  | [] => []
  | member :: rest => memberValue member :: memberValues rest
termination_by structural x => x

def memberValue : List StringChar × JsonTree → List Nat × Json
  | (name, x) => (StringChar.decode name, value x)
termination_by structural x => x
end

mutual
/-- The tokens of a text, in order. -/
def tokens : JsonTree → List Token
  | .null => [.word "null".toList]
  | .bool b => [.word (if b then "true".toList else "false".toList)]
  | .number literal => [.word literal.text]
  | .string chars => [.string chars]
  | .array items => .word ['['] :: itemTokens items ++ [.word [']']]
  | .object members => .word ['\x7b'] :: memberTokens members ++ [.word ['\x7d']]
termination_by structural x => x

def itemTokens : List JsonTree → List Token
  | [] => []
  | x :: rest => tokens x ++ (if rest.isEmpty then [] else .word [','] :: itemTokens rest)
termination_by structural x => x

def memberTokens : List (List StringChar × JsonTree) → List Token
  | [] => []
  | member :: rest =>
      memberToken member ++ (if rest.isEmpty then [] else .word [','] :: memberTokens rest)
termination_by structural x => x

def memberToken : List StringChar × JsonTree → List Token
  | (name, x) => .string name :: .word [':'] :: tokens x
termination_by structural x => x
end

mutual
/-- The tree with each string written otherwise. -/
def mapStrings (f : List StringChar → List StringChar) : JsonTree → JsonTree
  | .null => .null
  | .bool b => .bool b
  | .number literal => .number literal
  | .string chars => .string (f chars)
  | .array items => .array (mapItems f items)
  | .object members => .object (mapMembers f members)
termination_by structural x => x

def mapItems (f : List StringChar → List StringChar) : List JsonTree → List JsonTree
  | [] => []
  | x :: rest => mapStrings f x :: mapItems f rest
termination_by structural x => x

def mapMembers (f : List StringChar → List StringChar) :
    List (List StringChar × JsonTree) → List (List StringChar × JsonTree)
  | [] => []
  | member :: rest => mapMember f member :: mapMembers f rest
termination_by structural x => x

def mapMember (f : List StringChar → List StringChar) :
    List StringChar × JsonTree → List StringChar × JsonTree
  | (name, x) => (f name, mapStrings f x)
termination_by structural x => x
end

/-- No object gives two members of one name. -/
inductive DistinctNames : JsonTree → Prop
  | null : DistinctNames .null
  | bool (b : Bool) : DistinctNames (.bool b)
  | number (literal : NumberLiteral) : DistinctNames (.number literal)
  | string (chars : List StringChar) : DistinctNames (.string chars)
  | array {items : List JsonTree} (h : ∀ x ∈ items, DistinctNames x) : DistinctNames (.array items)
  | object {members : List (List StringChar × JsonTree)}
      (hnames : (members.map fun member => StringChar.decode member.1).Nodup)
      (h : ∀ member ∈ members, DistinctNames member.2) : DistinctNames (.object members)

@[simp]
theorem values_eq_map (items : List JsonTree) : values items = items.map value := by
  induction items with
  | nil => rfl
  | cons x rest ih => rw [values, ih, List.map_cons]

@[simp]
theorem memberValues_eq_map (members : List (List StringChar × JsonTree)) :
    memberValues members =
      members.map fun member => (StringChar.decode member.1, member.2.value) := by
  induction members with
  | nil => rfl
  | cons member rest ih => rw [memberValues, ih, List.map_cons, memberValue]

@[simp]
theorem mapItems_eq_map (f : List StringChar → List StringChar) (items : List JsonTree) :
    mapItems f items = items.map (mapStrings f) := by
  induction items with
  | nil => rfl
  | cons x rest ih => rw [mapItems, ih, List.map_cons]

@[simp]
theorem mapMembers_eq_map (f : List StringChar → List StringChar)
    (members : List (List StringChar × JsonTree)) :
    mapMembers f members = members.map fun member => (f member.1, mapStrings f member.2) := by
  induction members with
  | nil => rfl
  | cons member rest ih => rw [mapMembers, ih, List.map_cons, mapMember]

theorem memberToken_eq (member : List StringChar × JsonTree) :
    memberToken member = .string member.1 :: .word [':'] :: member.2.tokens := by
  obtain ⟨name, x⟩ := member
  rw [memberToken]

theorem tokens_mapStrings (f : List StringChar → List StringChar) (tree : JsonTree) :
    (tree.mapStrings f).tokens = tree.tokens.map (Token.mapString f) := by
  induction tree using induct with
  | null | bool | number | string => rfl
  | array items ih =>
      have hitems : itemTokens (items.map (mapStrings f)) =
          (itemTokens items).map (Token.mapString f) := by
        induction items with
        | nil => rfl
        | cons x rest ihrest =>
            have hrest := ihrest fun y hy => ih y (List.mem_cons_of_mem _ hy)
            cases rest with
            | nil => simp [itemTokens, ih x List.mem_cons_self]
            | cons y rest =>
                rw [List.map_cons, itemTokens, ih x List.mem_cons_self, hrest]
                simp [itemTokens, Token.mapString]
      simp [mapStrings, tokens, hitems, Token.mapString]
  | object members ih =>
      have hmembers : memberTokens (members.map fun member => (f member.1, mapStrings f member.2)) =
          (memberTokens members).map (Token.mapString f) := by
        induction members with
        | nil => rfl
        | cons member rest ihrest =>
            have hrest := ihrest fun y hy => ih y (List.mem_cons_of_mem _ hy)
            have hfirst := ih member List.mem_cons_self
            cases rest with
            | nil => simp [memberTokens, memberToken_eq, hfirst, Token.mapString]
            | cons y rest =>
                rw [List.map_cons, memberTokens, memberToken, hfirst, hrest]
                simp [memberTokens, memberToken_eq, Token.mapString]
      simp [mapStrings, tokens, hmembers, Token.mapString]

/-- The strings of an array are those of its items. -/
theorem string_mem_itemTokens {chars : List StringChar} {items : List JsonTree} :
    Token.string chars ∈ itemTokens items ↔ ∃ x ∈ items, Token.string chars ∈ x.tokens := by
  induction items with
  | nil => simp [itemTokens]
  | cons x rest ih =>
      cases rest with
      | nil => simp [itemTokens]
      | cons y rest =>
          rw [itemTokens, List.mem_append, List.isEmpty_cons, if_neg Bool.false_ne_true,
            List.mem_cons, ih]
          simp

theorem string_mem_memberTokens {chars : List StringChar}
    {members : List (List StringChar × JsonTree)} :
    Token.string chars ∈ memberTokens members ↔
      ∃ member ∈ members, chars = member.1 ∨ Token.string chars ∈ member.2.tokens := by
  induction members with
  | nil => simp [memberTokens]
  | cons member rest ih =>
      cases rest with
      | nil => simp [memberTokens, memberToken_eq]
      | cons y rest =>
          rw [memberTokens, List.mem_append, List.isEmpty_cons, if_neg Bool.false_ne_true,
            List.mem_cons, ih]
          simp [memberToken_eq]

/-- Strings that are written otherwise and stay the same leave the value as it is. -/
theorem value_mapStrings {f : List StringChar → List StringChar} {tree : JsonTree}
    (h : ∀ chars, Token.string chars ∈ tree.tokens →
      StringChar.decode (f chars) = StringChar.decode chars) :
    (tree.mapStrings f).value = tree.value := by
  induction tree using induct with
  | null | bool | number => rfl
  | string chars =>
      rw [mapStrings, value, value, h chars (by simp [tokens])]
  | array items ih =>
      rw [mapStrings, value, value, values_eq_map, values_eq_map, mapItems_eq_map, List.map_map]
      refine congrArg _ (List.map_congr_left fun x hx => ih x hx fun chars hchars => ?_)
      refine h chars ?_
      simp only [tokens, List.cons_append, List.mem_cons, List.mem_append]
      exact Or.inr (Or.inl (string_mem_itemTokens.mpr ⟨x, hx, hchars⟩))
  | object members ih =>
      have hmem : ∀ chars, Token.string chars ∈ memberTokens members →
          StringChar.decode (f chars) = StringChar.decode chars := by
        intro chars hchars
        refine h chars ?_
        simp only [tokens, List.cons_append, List.mem_cons, List.mem_append]
        exact Or.inr (Or.inl hchars)
      rw [mapStrings, value, value, memberValues_eq_map, memberValues_eq_map, mapMembers_eq_map,
        List.map_map]
      refine congrArg _ (congrArg _ (List.map_congr_left fun member hmember => ?_))
      have hname := hmem member.1 (string_mem_memberTokens.mpr ⟨member, hmember, Or.inl rfl⟩)
      have hvalue := ih member hmember fun chars hchars =>
        hmem chars (string_mem_memberTokens.mpr ⟨member, hmember, Or.inr hchars⟩)
      simp [hname, hvalue]

/-- Where no name is given twice, only strings that stay the same leave the value. -/
theorem value_mapStrings_iff {f : List StringChar → List StringChar} {tree : JsonTree}
    (hnames : tree.DistinctNames) :
    (tree.mapStrings f).value = tree.value ↔ ∀ chars, Token.string chars ∈ tree.tokens →
      StringChar.decode (f chars) = StringChar.decode chars := by
  refine ⟨fun h => ?_, value_mapStrings⟩
  induction tree using induct with
  | null => simp [tokens]
  | bool b => simp [tokens]
  | number literal => simp [tokens]
  | string chars =>
      intro other hother
      simp only [tokens, List.mem_singleton, Token.string.injEq] at hother
      subst hother
      simpa [mapStrings, value] using h
  | array items ih =>
      intro chars hchars
      have hmem : Token.string chars ∈ itemTokens items := by simpa [tokens] using hchars
      obtain ⟨x, hx, hchars⟩ := string_mem_itemTokens.mp hmem
      rw [mapStrings, value, value, values_eq_map, values_eq_map, mapItems_eq_map, List.map_map,
        Json.array.injEq, List.map_inj_left] at h
      cases hnames with
      | array hitems => exact ih x hx (hitems x hx) (h x hx) chars hchars
  | object members ih =>
      intro chars hchars
      have hmem : Token.string chars ∈ memberTokens members := by simpa [tokens] using hchars
      obtain ⟨member, hmember, hchars⟩ := string_mem_memberTokens.mp hmem
      cases hnames with
      | object hnames hmembers =>
          have hkeys : (dictKeys (memberValues members)).Nodup := by
            simpa [dictKeys, Function.comp_def] using hnames
          rw [mapStrings, value, value, Json.object.injEq, dictOf_eq_self hkeys] at h
          -- no two of the names have become one
          have hlength := congrArg List.length h
          rw [dictOf_eq_self_of_length (by simpa using hlength)] at h
          rw [memberValues_eq_map, memberValues_eq_map, mapMembers_eq_map, List.map_map,
            List.map_inj_left] at h
          obtain ⟨hname, hvalue⟩ := Prod.mk.inj (h member hmember)
          rcases hchars with rfl | hchars
          · exact hname
          · exact ih member hmember (hmembers member hmember) hvalue chars hchars

theorem word_mem_itemTokens {text : List Char} {items : List JsonTree}
    (h : Token.word text ∈ itemTokens items) :
    text = [','] ∨ ∃ x ∈ items, Token.word text ∈ x.tokens := by
  induction items with
  | nil => simp [itemTokens] at h
  | cons x rest ih =>
      rw [itemTokens, List.mem_append] at h
      rcases h with h | h
      · exact Or.inr ⟨x, List.mem_cons_self, h⟩
      · cases rest with
        | nil => simp at h
        | cons y rest =>
            rw [List.isEmpty_cons, if_neg Bool.false_ne_true, List.mem_cons, Token.word.injEq] at h
            rcases h with h | h
            · exact Or.inl h
            · rcases ih h with h | ⟨z, hz, h⟩
              · exact Or.inl h
              · exact Or.inr ⟨z, List.mem_cons_of_mem _ hz, h⟩

theorem word_mem_memberTokens {text : List Char} {members : List (List StringChar × JsonTree)}
    (h : Token.word text ∈ memberTokens members) :
    text = [','] ∨ text = [':'] ∨ ∃ member ∈ members, Token.word text ∈ member.2.tokens := by
  induction members with
  | nil => simp [memberTokens] at h
  | cons member rest ih =>
      rw [memberTokens, List.mem_append, memberToken_eq] at h
      rcases h with h | h
      · simp only [List.mem_cons, reduceCtorEq, false_or, Token.word.injEq] at h
        rcases h with h | h
        · exact Or.inr (Or.inl h)
        · exact Or.inr (Or.inr ⟨member, List.mem_cons_self, h⟩)
      · cases rest with
        | nil => simp at h
        | cons y rest =>
            rw [List.isEmpty_cons, if_neg Bool.false_ne_true, List.mem_cons, Token.word.injEq] at h
            rcases h with h | h
            · exact Or.inl h
            · rcases ih h with h | h | ⟨z, hz, h⟩
              · exact Or.inl h
              · exact Or.inr (Or.inl h)
              · exact Or.inr (Or.inr ⟨z, List.mem_cons_of_mem _ hz, h⟩)

theorem isWordChar_of_mem_tokens {tree : JsonTree} {text : List Char}
    (h : Token.word text ∈ tree.tokens) : ∀ c ∈ text, isWordChar c = true := by
  induction tree using induct with
  | null =>
      simp only [tokens, List.mem_singleton, Token.word.injEq] at h
      subst h
      exact List.all_eq_true.mp (by decide)
  | bool b =>
      simp only [tokens, List.mem_singleton, Token.word.injEq] at h
      subst h
      cases b <;> exact List.all_eq_true.mp (by decide)
  | number literal =>
      simp only [tokens, List.mem_singleton, Token.word.injEq] at h
      subst h
      exact isWordChar_number literal
  | string chars => simp [tokens] at h
  | array items ih =>
      simp only [tokens, List.cons_append, List.mem_cons, List.mem_append, List.not_mem_nil,
        or_false, Token.word.injEq] at h
      rcases h with rfl | h | rfl
      · exact List.all_eq_true.mp (by decide)
      · rcases word_mem_itemTokens h with rfl | ⟨x, hx, h⟩
        · exact List.all_eq_true.mp (by decide)
        · exact ih x hx h
      · exact List.all_eq_true.mp (by decide)
  | object members ih =>
      simp only [tokens, List.cons_append, List.mem_cons, List.mem_append, List.not_mem_nil,
        or_false, Token.word.injEq] at h
      rcases h with rfl | h | rfl
      · exact List.all_eq_true.mp (by decide)
      · rcases word_mem_memberTokens h with rfl | rfl | ⟨member, hmember, h⟩
        · exact List.all_eq_true.mp (by decide)
        · exact List.all_eq_true.mp (by decide)
        · exact ih member hmember h
      · exact List.all_eq_true.mp (by decide)

end JsonTree

/-! ## Texts -/

/-- A printed text: what stands before each of its tokens, and after the last one. -/
structure Layout where
  parts : List (List Char × Token)
  trailing : List Char

namespace Layout

def text (layout : Layout) : List Char :=
  layout.parts.flatMap (fun part => part.1 ++ part.2.text) ++ layout.trailing

def tokens (layout : Layout) : List Token := layout.parts.map Prod.snd

/-- What is printed beside the tokens. -/
def gaps (layout : Layout) : List (List Char) := layout.parts.map Prod.fst ++ [layout.trailing]

end Layout

/-- The white space of the grammar. -/
def isJsonSpace (c : Char) : Bool := [' ', '\t', '\n', '\r'].contains c

/-- A JSON text of the tree: its tokens with white space between them. -/
def JsonTree.IsText (tree : JsonTree) (text : List Char) : Prop :=
  ∃ layout : Layout, layout.tokens = tree.tokens ∧
    (∀ gap ∈ layout.gaps, ∀ c ∈ gap, isJsonSpace c = true) ∧ layout.text = text

/-- The tokens with nothing between them are a text. -/
theorem JsonTree.isText_compact (tree : JsonTree) :
    tree.IsText (tree.tokens.flatMap Token.text) := by
  refine ⟨⟨tree.tokens.map fun token => ([], token), []⟩, ?_, ?_, ?_⟩
  · simp [Layout.tokens, Function.comp_def]
  · intro gap hgap
    have hnil : gap = [] := by
      simp only [Layout.gaps, List.map_map, List.mem_append, List.mem_map,
        List.mem_singleton] at hgap
      rcases hgap with ⟨_, -, rfl⟩ | rfl <;> rfl
    simp [hnil]
  · simp [Layout.text, List.flatMap_map]

end Lib
