import KgaGateway.Lib.JsonText

/-!
# Relative references

How an HTTP client turns a relative URL text into a target: the text is cut at
the first `#` and then at the first `?`, the segments of the path are appended
to those of the base URL, `.` and `..` are dot segments, and every segment is
percent-encoded. Escapes that are there already are kept, so encoding works on
*tokens*, an escape or a character.

Encoding does not change what a text decodes to (`decode_encode`); what a text
decodes to is the text itself exactly when it has no escape
(`decode_eq_utf8_iff`).
-/

namespace KgaGateway

namespace Uri

open JsonText (hexValue)

/-! ## Tokens -/

/-- The byte two hexadecimal digits stand for. -/
def escapedByte (high low : Char) : Option UInt8 := do
  let h ← hexValue high
  let l ← hexValue low
  return UInt8.ofNat (16 * h + l)

/-- A part of a text. -/
inductive Token : Type where
  /-- `%`, two hexadecimal digits, and the byte they stand for -/
  | escape : Char → Char → UInt8 → Token
  | plain : Char → Token

/-- The tokens of a text. -/
def tokens : List Char → List Token
  | '%' :: a :: b :: rest =>
    match escapedByte a b with
    | some byte => .escape a b byte :: tokens rest
    | none => .plain '%' :: tokens (a :: b :: rest)
  | c :: rest => .plain c :: tokens rest
  | [] => []

/-- What a token decodes to. -/
def Token.bytes : Token → List UInt8
  | escape _ _ byte => [byte]
  | plain c => String.utf8EncodeChar c

/-- A token, encoded: escapes and safe characters are kept. -/
def Token.encode (safe : Char → Bool) : Token → List Char
  | escape a b _ => ['%', a, b]
  | plain c => if safe c then [c] else (String.utf8EncodeChar c).flatMap Text.quoteByte

/-- Percent-encode a text. -/
def encodeChars (safe : Char → Bool) (l : List Char) : List Char :=
  (tokens l).flatMap (Token.encode safe)

/-- Percent-decode a text; a percent sign that starts no escape stands for
itself. -/
def decodeChars (l : List Char) : List UInt8 := (tokens l).flatMap Token.bytes

/-- The bytes of a text. -/
def utf8Chars (l : List Char) : List UInt8 := l.flatMap String.utf8EncodeChar

/-- Two characters that form an escape with a percent sign before them. -/
def FormsEscape (l : List Char) : Prop :=
  ∃ a b rest byte, l = a :: b :: rest ∧ escapedByte a b = some byte

theorem tokens_escape {a b : Char} {byte : UInt8} (h : escapedByte a b = some byte)
    (rest : List Char) : tokens ('%' :: a :: b :: rest) = .escape a b byte :: tokens rest := by
  rw [tokens, h]

theorem tokens_plain {c : Char} {rest : List Char} (h : c = '%' → ¬ FormsEscape rest) :
    tokens (c :: rest) = .plain c :: tokens rest := by
  rw [tokens.eq_def]
  split
  · rename_i a b rest' heq
    obtain ⟨rfl, rfl⟩ := List.cons.inj heq
    split
    · rename_i byte hbyte
      exact absurd ⟨a, b, rest', byte, rfl, hbyte⟩ (h rfl)
    · rfl
  · rename_i heq
    obtain ⟨rfl, rfl⟩ := List.cons.inj heq
    rfl
  · rename_i heq
    cases heq

/-- The two ways a text starts. -/
theorem tokens_cases (c : Char) (rest : List Char) :
    (∃ a b rest' byte, c = '%' ∧ rest = a :: b :: rest' ∧ escapedByte a b = some byte) ∨
      (c = '%' → ¬ FormsEscape rest) := by
  by_cases h : c = '%' ∧ FormsEscape rest
  · obtain ⟨hc, a, b, rest', byte, hrest, hbyte⟩ := h
    exact Or.inl ⟨a, b, rest', byte, hc, hrest, hbyte⟩
  · exact Or.inr fun hc hforms => h ⟨hc, hforms⟩

theorem escapedByte_percent_left (b : Char) : escapedByte '%' b = none := rfl

theorem escapedByte_percent_right (a : Char) : escapedByte a '%' = none := by
  have hpercent : hexValue '%' = none := by decide
  rw [escapedByte, hpercent]
  cases hexValue a <;> rfl

/-- Induction along the tokens of a text. -/
theorem tokens_induction {motive : List Char → Prop} (nil : motive [])
    (escape : ∀ a b byte rest, escapedByte a b = some byte → motive rest →
      motive ('%' :: a :: b :: rest))
    (plain : ∀ c rest, (c = '%' → ¬ FormsEscape rest) → motive rest → motive (c :: rest))
    (l : List Char) : motive l := by
  induction hn : l.length using Nat.strong_induction_on generalizing l with
  | _ n ih =>
    cases l with
    | nil => exact nil
    | cons c rest =>
      rcases tokens_cases c rest with ⟨a, b, rest', byte, rfl, rfl, hbyte⟩ | hplain
      · refine escape a b byte rest' hbyte (ih rest'.length ?_ rest' rfl)
        simp only [List.length_cons] at hn
        omega
      · refine plain c rest hplain (ih rest.length ?_ rest rfl)
        simp only [List.length_cons] at hn
        omega

/-! ## Encoding keeps the meaning -/

/-- An encoded byte is an escape for it. -/
theorem tokens_quoteByte (byte : UInt8) (rest : List Char) :
    ∃ a b, Text.quoteByte byte ++ rest = '%' :: a :: b :: rest ∧
      escapedByte a b = some byte := by
  have hdigit : ∀ n : Fin 16, hexValue (Nat.digitChar n).toUpper = some n.val := by decide
  have hhigh := hdigit ⟨byte.toNat / 16, by have := byte.toNat_lt; omega⟩
  have hlow := hdigit ⟨byte.toNat % 16, by omega⟩
  refine ⟨_, _, rfl, ?_⟩
  have hsum : 16 * (byte.toNat / 16) + byte.toNat % 16 = byte.toNat := by omega
  rw [escapedByte, hhigh, hlow]
  simp only [Option.bind_eq_bind, Option.bind_some, hsum, UInt8.ofNat_toNat]
  rfl

theorem decode_quoteBytes (bytes : List UInt8) (rest : List Char) :
    decodeChars (bytes.flatMap Text.quoteByte ++ rest) = bytes ++ decodeChars rest := by
  induction bytes with
  | nil => rfl
  | cons byte bytes ih =>
    obtain ⟨a, b, htext, hbyte⟩ := tokens_quoteByte byte (bytes.flatMap Text.quoteByte ++ rest)
    rw [List.flatMap_cons, List.append_assoc, htext, decodeChars, tokens_escape hbyte,
      List.flatMap_cons, ← decodeChars, ih]
    rfl

section Encode

variable {safe : Char → Bool}

theorem encodeChars_escape {a b : Char} {byte : UInt8} (h : escapedByte a b = some byte)
    (rest : List Char) :
    encodeChars safe ('%' :: a :: b :: rest) = '%' :: a :: b :: encodeChars safe rest := by
  rw [encodeChars, tokens_escape h, List.flatMap_cons]
  rfl

theorem encodeChars_safe {c : Char} {rest : List Char} (h : c = '%' → ¬ FormsEscape rest)
    (hsafe : safe c = true) : encodeChars safe (c :: rest) = c :: encodeChars safe rest := by
  rw [encodeChars, tokens_plain h, List.flatMap_cons, Token.encode, if_pos hsafe]
  rfl

theorem encodeChars_of_not_safe {c : Char} {rest : List Char} (h : c = '%' → ¬ FormsEscape rest)
    (hsafe : safe c = false) : encodeChars safe (c :: rest) =
      (String.utf8EncodeChar c).flatMap Text.quoteByte ++ encodeChars safe rest := by
  rw [encodeChars, tokens_plain h, List.flatMap_cons, Token.encode, if_neg (by simp [hsafe])]
  rfl

/-- The first character is kept, or what replaces it starts with a percent
sign. -/
theorem encodeChars_cons (c : Char) (rest : List Char) :
    encodeChars safe (c :: rest) = c :: encodeChars safe rest ∨
      ∃ t, encodeChars safe (c :: rest) = '%' :: t := by
  rcases tokens_cases c rest with ⟨a, b, rest', byte, rfl, rfl, hbyte⟩ | hplain
  · exact Or.inr ⟨_, encodeChars_escape hbyte rest'⟩
  · cases hsafe : safe c with
    | true => exact Or.inl (encodeChars_safe hplain hsafe)
    | false =>
      obtain ⟨byte, bytes, hbytes⟩ := List.exists_cons_of_ne_nil (@String.utf8EncodeChar_ne_nil c)
      rw [encodeChars_of_not_safe hplain hsafe, hbytes, List.flatMap_cons, List.append_assoc]
      exact Or.inr ⟨_, rfl⟩

/-- Encoding makes no escape out of characters that formed none: a percent sign
is no hexadecimal digit. -/
theorem not_formsEscape_encodeChars {l : List Char} (h : ¬ FormsEscape l) :
    ¬ FormsEscape (encodeChars safe l) := by
  rintro ⟨a, b, t, byte, heq, hbyte⟩
  cases l with
  | nil => cases heq
  | cons x rest =>
    rcases @encodeChars_cons safe x rest with hx | ⟨t', hx⟩
    · rw [hx] at heq
      obtain ⟨rfl, hrest⟩ := List.cons.inj heq
      cases rest with
      | nil => cases hrest
      | cons y rest =>
        rcases @encodeChars_cons safe y rest with hy | ⟨t', hy⟩
        · rw [hy] at hrest
          obtain ⟨rfl, -⟩ := List.cons.inj hrest
          exact h ⟨x, y, rest, byte, rfl, hbyte⟩
        · rw [hy] at hrest
          obtain ⟨rfl, -⟩ := List.cons.inj hrest
          rw [escapedByte_percent_right] at hbyte
          cases hbyte
    · rw [hx] at heq
      obtain ⟨rfl, -⟩ := List.cons.inj heq
      rw [escapedByte_percent_left] at hbyte
      cases hbyte

/-- **Encoding keeps what a text decodes to**, whatever characters are safe. By
induction along the tokens. -/
theorem decode_encodeChars (l : List Char) : decodeChars (encodeChars safe l) = decodeChars l := by
  induction l using tokens_induction with
  | nil => rfl
  | escape a b byte rest hbyte ih =>
    rw [encodeChars_escape hbyte, decodeChars, tokens_escape hbyte, List.flatMap_cons,
      ← decodeChars, ih, decodeChars, decodeChars, tokens_escape hbyte, List.flatMap_cons]
  | plain c rest hplain ih =>
    have hdecode : decodeChars (c :: rest) = String.utf8EncodeChar c ++ decodeChars rest := by
      rw [decodeChars, tokens_plain hplain, List.flatMap_cons]
      rfl
    cases hsafe : safe c with
    | false => rw [encodeChars_of_not_safe hplain hsafe, decode_quoteBytes, ih, hdecode]
    | true =>
      have hplain' : c = '%' → ¬ FormsEscape (encodeChars safe rest) :=
        fun hc => not_formsEscape_encodeChars (hplain hc)
      rw [encodeChars_safe hplain hsafe, decodeChars, tokens_plain hplain', List.flatMap_cons,
        ← decodeChars, ih, hdecode]
      rfl

/-- A text of safe characters without a percent sign is its own encoding. -/
theorem encodeChars_eq_self {l : List Char} (h : ∀ c ∈ l, safe c = true ∧ c ≠ '%') :
    encodeChars safe l = l := by
  induction l with
  | nil => rfl
  | cons c rest ih =>
    obtain ⟨⟨hsafe, hc⟩, hrest⟩ := List.forall_mem_cons.mp h
    rw [encodeChars_safe (fun heq => absurd heq hc) hsafe, ih hrest]

end Encode

/-! ## Texts that decode to themselves -/

/-- An escape somewhere in the text. -/
def HasEscape (l : List Char) : Prop :=
  ∃ before after, l = before ++ '%' :: after ∧ FormsEscape after

theorem hasEscape_cons {c : Char} {rest : List Char} (h : c = '%' → ¬ FormsEscape rest) :
    HasEscape (c :: rest) ↔ HasEscape rest := by
  constructor
  · rintro ⟨before, after, heq, hforms⟩
    cases before with
    | nil =>
      obtain ⟨rfl, rfl⟩ := List.cons.inj heq
      exact absurd hforms (h rfl)
    | cons x before =>
      obtain ⟨-, rfl⟩ := List.cons.inj heq
      exact ⟨before, after, rfl, hforms⟩
  · rintro ⟨before, after, rfl, hforms⟩
    exact ⟨c :: before, after, rfl, hforms⟩

/-- Without an escape a text decodes to its bytes. -/
theorem decode_of_not_hasEscape {l : List Char} (h : ¬ HasEscape l) :
    decodeChars l = utf8Chars l := by
  induction l using tokens_induction with
  | nil => rfl
  | escape a b byte rest hbyte ih =>
    exact absurd ⟨[], a :: b :: rest, rfl, a, b, rest, byte, rfl, hbyte⟩ h
  | plain c rest hplain ih =>
    rw [hasEscape_cons hplain] at h
    rw [decodeChars, tokens_plain hplain, List.flatMap_cons, ← decodeChars, ih h]
    rfl

/-- Decoding never adds a byte. -/
theorem length_decode_le (l : List Char) : (decodeChars l).length ≤ (utf8Chars l).length := by
  induction l using tokens_induction with
  | nil => exact le_refl _
  | escape a b byte rest hbyte ih =>
    rw [decodeChars, tokens_escape hbyte, List.flatMap_cons, ← decodeChars]
    simp only [Token.bytes, utf8Chars, List.flatMap_cons, List.length_append,
      List.length_singleton, String.length_utf8EncodeChar] at ih ⊢
    have := Char.utf8Size_pos a
    omega
  | plain c rest hplain ih =>
    rw [decodeChars, tokens_plain hplain, List.flatMap_cons, ← decodeChars]
    simp only [Token.bytes, utf8Chars, List.flatMap_cons, List.length_append] at ih ⊢
    omega

/-- An escape takes three bytes and decodes to one. -/
theorem length_decode_lt {l : List Char} (h : HasEscape l) :
    (decodeChars l).length < (utf8Chars l).length := by
  induction l using tokens_induction with
  | nil =>
    obtain ⟨before, after, heq, -⟩ := h
    simp at heq
  | escape a b byte rest hbyte =>
    have hrest := length_decode_le rest
    rw [decodeChars, tokens_escape hbyte, List.flatMap_cons, ← decodeChars]
    simp only [Token.bytes, utf8Chars, List.flatMap_cons, List.length_append,
      List.length_singleton, String.length_utf8EncodeChar] at hrest ⊢
    have := Char.utf8Size_pos a
    have := Char.utf8Size_pos b
    omega
  | plain c rest hplain ih =>
    have hrest := ih ((hasEscape_cons hplain).mp h)
    rw [decodeChars, tokens_plain hplain, List.flatMap_cons, ← decodeChars]
    simp only [Token.bytes, utf8Chars, List.flatMap_cons, List.length_append] at hrest ⊢
    omega

/-- **A text decodes to itself exactly if it has no escape.** -/
theorem decode_eq_utf8_iff {l : List Char} : decodeChars l = utf8Chars l ↔ ¬ HasEscape l := by
  constructor
  · intro h hescape
    have := length_decode_lt hescape
    rw [h] at this
    exact lt_irrefl _ this
  · exact decode_of_not_hasEscape

/-! ## Resolution -/

/-- The characters that are never encoded. -/
def isUnreserved (c : Char) : Bool := c.isAlphanum || ['-', '.', '_', '~'].contains c

/-- Percent-encode. -/
def encode (safe : Char → Bool) (s : String) : String := String.ofList (encodeChars safe s.toList)

/-- Percent-decode. -/
def decode (s : String) : List UInt8 := decodeChars s.toList

/-- The bytes of a string. -/
def utf8 (s : String) : List UInt8 := utf8Chars s.toList

/-- What a request is sent to: the segments of the path, and the query. -/
structure Target : Type where
  path : List String
  query : String
  deriving DecidableEq

/-- Append a segment to a path, unless it is a dot segment. -/
def push (safe : Char → Bool) (path : List String) (segment : String) : List String :=
  if segment = "." then path
  else if segment = ".." then path.dropLast
  else path ++ [encode safe segment]

/-- The segments of the path of a relative reference. -/
def segments (path : String) : List String :=
  Text.split '/' (String.ofList (path.toList.dropWhile (· == '/')))

/-- Resolve a relative reference against the path of a base URL. -/
def resolve (safe : Char → Bool) (base : List String) (reference : String) : Target :=
  let (hierarchy, _, _) := Text.partition '#' reference
  let (path, _, query) := Text.partition '?' hierarchy
  ⟨(segments path).foldl (push safe) base, query⟩

/-- The part of a text that goes into the path. -/
def stem (s : String) : String := (Text.partition '?' (Text.partition '#' s).1).1

example : resolve isUnreserved ["v1"] "/items/a b%41/../c?d#e" = ⟨["v1", "items", "c"], "d"⟩ := by
  decide

theorem decode_encode (safe : Char → Bool) (s : String) : decode (encode safe s) = decode s := by
  rw [decode, encode, String.toList_ofList, decode_encodeChars, decode]

theorem utf8_append (s t : String) : utf8 (s ++ t) = utf8 s ++ utf8 t := by
  simp [utf8, utf8Chars]

/-- The bytes determine the string. -/
theorem utf8_inj {s t : String} (h : utf8 s = utf8 t) : s = t := by
  rw [← String.toByteArray_inj, ← String.utf8Encode_toList, ← String.utf8Encode_toList,
    List.utf8Encode, List.utf8Encode]
  exact congrArg List.toByteArray h

/-- A text is its own stem, or it has a fragment or a query and is longer than
its stem. -/
theorem stem_cases (s : String) :
    ('#' ∉ s.toList ∧ '?' ∉ s.toList ∧ stem s = s) ∨
      (stem s).toList ⊆ s.toList ∧ (utf8 (stem s)).length < (utf8 s).length := by
  have hcut : ∀ (sep : Char) (before after : String),
      before.toList ⊆ (before ++ String.ofList [sep] ++ after).toList ∧
        (utf8 before).length < (utf8 (before ++ String.ofList [sep] ++ after)).length := by
    intro sep before after
    have hpos := Char.utf8Size_pos sep
    refine ⟨by simp, ?_⟩
    simp only [utf8_append, List.length_append]
    simp only [utf8, utf8Chars, String.toList_ofList, List.flatMap_cons, List.flatMap_nil,
      List.append_nil, String.length_utf8EncodeChar]
    omega
  rw [stem]
  rcases Text.partition_cases '#' s with ⟨hs, hpart⟩ | ⟨before, after, hs, hpart⟩
  · rw [hpart]
    rcases Text.partition_cases '?' s with ⟨hs', hpart'⟩ | ⟨before, after, hs', hpart'⟩
    · rw [hpart']
      exact Or.inl ⟨hs, hs', rfl⟩
    · rw [hpart']
      conv => right; rw [hs']
      exact Or.inr (hcut '?' before after)
  · rw [hpart]
    obtain ⟨hsub, hlt⟩ := hcut '#' before after
    rw [← hs] at hsub hlt
    rcases Text.partition_cases '?' before with ⟨-, hpart'⟩ | ⟨before', after', hs', hpart'⟩
    · rw [hpart']
      exact Or.inr ⟨hsub, hlt⟩
    · rw [hpart']
      obtain ⟨hsub', hlt'⟩ := hcut '?' before' after'
      rw [← hs'] at hsub' hlt'
      exact Or.inr ⟨List.Subset.trans hsub' hsub, hlt'.trans hlt⟩

theorem stem_subset (s : String) : (stem s).toList ⊆ s.toList := by
  rcases stem_cases s with ⟨-, -, h⟩ | ⟨h, -⟩
  · rw [h]
    exact List.Subset.refl _
  · exact h

theorem stem_append {a : String} (hfragment : '#' ∉ a.toList) (hquery : '?' ∉ a.toList)
    (s : String) : stem (a ++ s) = a ++ stem s := by
  rw [stem, Text.partition_append_left hfragment, Text.partition_append_left hquery, stem]

theorem resolve_path (safe : Char → Bool) (base : List String) (reference : String) :
    (resolve safe base reference).path =
      (segments (stem reference)).foldl (push safe) base := by
  rcases hfragment : Text.partition '#' reference with ⟨hierarchy, hash, fragment⟩
  rcases hquery : Text.partition '?' hierarchy with ⟨path, mark, query⟩
  simp only [resolve, stem, hfragment, hquery]

theorem resolve_query {reference : String} (hfragment : '#' ∉ reference.toList)
    (hquery : '?' ∉ reference.toList) (safe : Char → Bool) (base : List String) :
    (resolve safe base reference).query = "" := by
  simp only [resolve, Text.partition_of_not_mem hfragment, Text.partition_of_not_mem hquery]

/-- Pushing a segment appends one that decodes to it, or makes the path no
longer. -/
theorem push_cases (safe : Char → Bool) (path : List String) (segment : String) :
    (segment ≠ "." ∧ segment ≠ ".." ∧ push safe path segment = path ++ [encode safe segment]) ∨
      (segment = "." ∨ segment = "..") ∧ (push safe path segment).length ≤ path.length := by
  rw [push]
  by_cases hdot : segment = "."
  · rw [if_pos hdot]
    exact Or.inr ⟨Or.inl hdot, le_refl _⟩
  · rw [if_neg hdot]
    by_cases hdots : segment = ".."
    · rw [if_pos hdots, List.length_dropLast]
      exact Or.inr ⟨Or.inr hdots, Nat.sub_le ..⟩
    · rw [if_neg hdots]
      exact Or.inl ⟨hdot, hdots, rfl⟩

end Uri

end KgaGateway
