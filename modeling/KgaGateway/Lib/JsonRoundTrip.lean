import KgaGateway.Lib.JsonText

/-!
# Loading what was dumped

`load_dump`: the parser reads back every value whose objects have distinct
keys. The pieces are read one after the other, so each lemma has a rest of the
text behind the piece it is about. Only a number needs to know how that rest
starts (`Delimited`); inside a container a comma or a bracket follows.
-/

namespace KgaGateway

namespace JsonText

/-! ## Strings -/

theorem hexValue_digitChar {n : Nat} (h : n < 16) : hexValue (Nat.digitChar n) = some n := by
  have hall : ∀ d : Fin 16, hexValue (Nat.digitChar d) = some d.val := by decide
  exact hall ⟨n, h⟩

/-- An escaped unit reads back. -/
theorem readUnit_hexDigits {n : Nat} (h : n < 65536) (rest : List Char) :
    readUnit (Json.hexDigits 4 n ++ rest) = some (n, rest) := by
  simp only [Json.hexDigits, List.nil_append, List.cons_append, readUnit,
    hexValue_digitChar (Nat.mod_lt _ (by omega : 16 > 0)), Option.bind_eq_bind, Option.bind_some,
    Option.pure_def, Option.some.injEq, Prod.mk.injEq, and_true]
  omega

/-- An escaped character of the basic plane. -/
theorem unescape_unit {n : Nat} (h : n < 0xD800 ∨ 0xDFFF < n ∧ n < 65536) (rest : List Char) :
    unescape ('u' :: (Json.hexDigits 4 n ++ rest)) = some (Char.ofNat n, rest) := by
  simp only [unescape, readUnit_hexDigits (by omega : n < 65536)]
  rw [if_pos (by omega)]

/-- An escaped surrogate pair. -/
theorem unescape_pair {n m : Nat} (hn : 0xD800 ≤ n ∧ n < 0xDC00) (hm : 0xDC00 ≤ m ∧ m ≤ 0xDFFF)
    (rest : List Char) :
    unescape ('u' :: (Json.hexDigits 4 n ++ (escapeUnit m ++ rest))) =
      some (Char.ofNat (0x10000 + (n - 0xD800) * 0x400 + (m - 0xDC00)), rest) := by
  simp only [escapeUnit, List.cons_append, unescape, readUnit_hexDigits (by omega : n < 65536),
    readUnit_hexDigits (by omega : m < 65536)]
  rw [if_neg (by omega), if_pos ⟨hn.2, hm⟩]

theorem toNat_cases (c : Char) :
    c.toNat < 0xD800 ∨ (0xDFFF < c.toNat ∧ c.toNat < 0x110000) := c.valid

/-- An escape, or a character that needs none. -/
theorem escapeChar_cases (c : Char) :
    (escapeChar c = [c] ∧ c ≠ '"' ∧ c ≠ '\\' ∧ 32 ≤ c.toNat) ∨
      ∃ e, escapeChar c = '\\' :: e ∧ ∀ rest, unescape (e ++ rest) = some (c, rest) := by
  have hofNat : ∀ n, c.toNat = n → Char.ofNat n = c := by
    rintro n rfl
    exact Char.ofNat_toNat c
  have hvalid := toNat_cases c
  by_cases h1 : c = '"'
  · exact Or.inr ⟨['"'], if_pos h1, fun rest => by rw [h1]; rfl⟩
  by_cases h2 : c = '\\'
  · exact Or.inr ⟨['\\'], by rw [escapeChar, if_neg h1, if_pos h2], fun rest => by rw [h2]; rfl⟩
  rw [escapeChar, if_neg h1, if_neg h2]
  by_cases h3 : c = '\n'
  · exact Or.inr ⟨['n'], if_pos h3, fun rest => by rw [h3]; rfl⟩
  by_cases h4 : c = '\r'
  · exact Or.inr ⟨['r'], by rw [if_neg h3, if_pos h4], fun rest => by rw [h4]; rfl⟩
  by_cases h5 : c = '\t'
  · exact Or.inr ⟨['t'], by rw [if_neg h3, if_neg h4, if_pos h5], fun rest => by rw [h5]; rfl⟩
  rw [if_neg h3, if_neg h4, if_neg h5]
  by_cases h6 : c.toNat = 8
  · exact Or.inr ⟨['b'], if_pos h6, fun rest => by rw [← hofNat 8 h6]; rfl⟩
  by_cases h7 : c.toNat = 12
  · exact Or.inr ⟨['f'], by rw [if_neg h6, if_pos h7], fun rest => by rw [← hofNat 12 h7]; rfl⟩
  rw [if_neg h6, if_neg h7]
  by_cases h8 : 32 ≤ c.toNat ∧ c.toNat ≤ 126
  · exact Or.inl ⟨if_pos h8, h1, h2, h8.1⟩
  rw [if_neg h8]
  by_cases h9 : c.toNat < 0x10000
  · refine Or.inr ⟨_, if_pos h9, fun rest => ?_⟩
    rw [List.cons_append, unescape_unit (by omega), hofNat _ rfl]
  · -- a surrogate pair
    have hlow : (c.toNat - 0x10000) % 0x400 < 0x400 := Nat.mod_lt _ (by omega)
    refine Or.inr ⟨'u' :: (Json.hexDigits 4 (0xD800 + (c.toNat - 0x10000) / 0x400) ++
      escapeUnit (0xDC00 + (c.toNat - 0x10000) % 0x400)), if_neg h9, fun rest => ?_⟩
    rw [List.cons_append, List.append_assoc, unescape_pair (by omega) (by omega),
      hofNat _ (by omega)]

theorem stringBody_escapeChar (fuel : Nat) (c : Char) (rest : List Char) :
    stringBody (fuel + 1) (escapeChar c ++ rest) =
      (stringBody fuel rest).map fun p => (c :: p.1, p.2) := by
  rcases escapeChar_cases c with ⟨hc, hquote, hslash, hge⟩ | ⟨e, hc, he⟩
  · rw [hc, List.singleton_append, stringBody, if_neg hquote, if_neg hslash, if_neg (by omega)]
  · rw [hc, List.cons_append, stringBody, if_neg (by decide), if_pos rfl, he]

/-- The characters of a dumped string read back, with fuel to spare. -/
theorem stringBody_flatMap (rest : List Char) :
    ∀ (l : List Char) (fuel : Nat), l.length < fuel →
      stringBody fuel (l.flatMap escapeChar ++ '"' :: rest) = some (l, rest)
  | [], fuel + 1, _ => by simp [stringBody]
  | c :: l, fuel + 1, h => by
    have ih := stringBody_flatMap rest l fuel (by simpa using h)
    rw [List.flatMap_cons, List.append_assoc, stringBody_escapeChar, ih]
    rfl

theorem length_le_flatMap (l : List Char) : l.length ≤ (l.flatMap escapeChar).length := by
  induction l with
  | nil => simp
  | cons c l ih =>
    have hpos : 1 ≤ (escapeChar c).length := by
      rcases escapeChar_cases c with ⟨hc, -⟩ | ⟨e, hc, -⟩ <;> simp [hc]
    rw [List.flatMap_cons, List.length_append, List.length_cons]
    omega

/-- A dumped string reads back. -/
theorem readStr_dumpStr (s : String) (rest : List Char) :
    ∃ body, dumpStr s ++ rest = '"' :: body ∧ readStr body = some (s, rest) := by
  refine ⟨s.toList.flatMap escapeChar ++ '"' :: rest, by simp [dumpStr], ?_⟩
  have hlen := length_le_flatMap s.toList
  rw [readStr, stringBody_flatMap rest s.toList _ (by rw [List.length_append]; omega)]
  simp

/-! ## Numbers -/

/-- What may follow a number: nothing that would go on with it. -/
def Delimited (rest : List Char) : Prop :=
  ∀ c ∈ rest.head?, c.isDigit = false ∧ c ≠ '.' ∧ c ≠ 'e' ∧ c ≠ 'E'

theorem delimited_nil : Delimited [] := by
  rintro c ⟨⟩

theorem delimited_cons {c : Char} {rest : List Char}
    (h : c.isDigit = false ∧ c ≠ '.' ∧ c ≠ 'e' ∧ c ≠ 'E') : Delimited (c :: rest) := by
  rintro d ⟨⟩
  exact h

theorem takeWhile_isDigit_append {digits rest : List Char} (hd : ∀ c ∈ digits, c.isDigit = true)
    (hr : ∀ c ∈ rest.head?, c.isDigit = false) :
    (digits ++ rest).takeWhile Char.isDigit = digits := by
  rw [List.takeWhile_append_of_pos hd]
  cases rest with
  | nil => simp
  | cons c rest => simp [hr c rfl]

/-- Integer digits stop where the digits stop. -/
theorem integerPart_append {digits rest : List Char} (hint : FloatText.isInteger digits = true)
    (hd : ∀ c ∈ digits, c.isDigit = true) (hr : ∀ c ∈ rest.head?, c.isDigit = false) :
    integerPart (digits ++ rest) = digits := by
  rcases digits with _ | ⟨c, digits⟩
  · simp [FloatText.isInteger] at hint
  · by_cases hc : c = '0'
    · -- a leading zero stands alone
      obtain rfl : digits = [] := by simpa [FloatText.isInteger, hc] using hint
      rw [hc]
      rfl
    · rw [integerPart, if_neg (by simpa using hc), takeWhile_isDigit_append hd hr]

/-- A fraction, or none. -/
def IsFractionPart (l : List Char) : Prop :=
  l = [] ∨ ∃ digits, l = '.' :: digits ∧ digits ≠ [] ∧ ∀ c ∈ digits, c.isDigit = true

/-- An exponent as `repr` writes it, or none. -/
def IsExponentPart (l : List Char) : Prop :=
  l = [] ∨ ∃ sign digits, l = 'e' :: sign :: digits ∧ (sign = '+' ∨ sign = '-') ∧ digits ≠ [] ∧
    ∀ c ∈ digits, c.isDigit = true

/-- What can follow the digits in a number, or follow the number. -/
theorem head_exponent_append {exponent rest : List Char} (he : IsExponentPart exponent)
    (hr : Delimited rest) : ∀ c ∈ (exponent ++ rest).head?, c.isDigit = false ∧ c ≠ '.' := by
  rcases he with rfl | ⟨sign, digits, rfl, -, -, -⟩
  · intro c hc
    exact ⟨(hr c hc).1, (hr c hc).2.1⟩
  · rintro c ⟨⟩
    exact ⟨by decide, by decide⟩

theorem head_fraction_append {fraction rest : List Char} (hf : IsFractionPart fraction)
    (hr : ∀ c ∈ rest.head?, c.isDigit = false ∧ c ≠ '.') :
    ∀ c ∈ (fraction ++ rest).head?, c.isDigit = false := by
  rcases hf with rfl | ⟨digits, rfl, -, -⟩
  · exact fun c hc => (hr c hc).1
  · rintro c ⟨⟩
    decide

theorem fractionPart_append {fraction rest : List Char} (hf : IsFractionPart fraction)
    (hr : ∀ c ∈ rest.head?, c.isDigit = false ∧ c ≠ '.') :
    fractionPart (fraction ++ rest) = fraction := by
  rcases hf with rfl | ⟨digits, rfl, hne, hd⟩
  · rcases rest with _ | ⟨c, rest⟩
    · rfl
    · rw [List.nil_append, fractionPart, if_neg fun h => (hr c rfl).2 h.1]
  · have htake := takeWhile_isDigit_append hd fun c hc => (hr c hc).1
    rw [List.cons_append, fractionPart, htake, if_pos ⟨rfl, hne⟩]

theorem exponentPart_append {exponent rest : List Char} (he : IsExponentPart exponent)
    (hr : Delimited rest) : exponentPart (exponent ++ rest) = exponent := by
  rcases he with rfl | ⟨sign, digits, rfl, hsign, hne, hd⟩
  · rcases rest with _ | ⟨c, _ | ⟨s, rest⟩⟩
    · rfl
    · rfl
    · obtain ⟨-, -, he, hE⟩ := hr c rfl
      rw [List.nil_append, exponentPart, if_neg (not_or.mpr ⟨he, hE⟩)]
  · have htake := takeWhile_isDigit_append hd fun c hc => (hr c hc).1
    rw [List.cons_append, List.cons_append, exponentPart, htake, if_pos (Or.inl rfl),
      if_pos ⟨hsign, hne⟩]

/-- The parts of a number that is written out in full. -/
theorem numberParts_append {digits fraction exponent rest : List Char}
    (hint : FloatText.isInteger digits = true) (hd : ∀ c ∈ digits, c.isDigit = true)
    (hf : IsFractionPart fraction) (he : IsExponentPart exponent) (hr : Delimited rest) :
    numberParts (digits ++ (fraction ++ (exponent ++ rest))) =
      (digits, fraction ++ exponent, rest) := by
  have hexp := head_exponent_append he hr
  have hint' := integerPart_append hint hd (head_fraction_append hf hexp)
  simp only [numberParts, hint', List.drop_left, fractionPart_append hf hexp,
    exponentPart_append he hr]

theorem isExponentPart_of_isExponent {l : List Char} (h : FloatText.isExponent l = true) :
    IsExponentPart l ∧ l ≠ [] := by
  unfold FloatText.isExponent at h
  split at h
  · rename_i sign digits
    simp only [Bool.and_eq_true, Bool.or_eq_true, beq_iff_eq, Bool.not_eq_true',
      List.isEmpty_eq_false_iff, List.all_eq_true] at h
    obtain ⟨⟨hsign, hne⟩, hd⟩ := h
    exact ⟨Or.inr ⟨sign, digits, rfl, hsign, hne, hd⟩, List.cons_ne_nil _ _⟩
  · cases h

/-- What `isFraction` accepts, part by part. -/
theorem isFraction_parts {l : List Char} (h : FloatText.isFraction l = true) :
    ∃ fraction exponent, l = fraction ++ exponent ∧ IsFractionPart fraction ∧
      IsExponentPart exponent ∧ fraction ++ exponent ≠ [] := by
  unfold FloatText.isFraction at h
  split at h
  · rename_i rest
    simp only [Bool.and_eq_true, Bool.or_eq_true, beq_iff_eq, Bool.not_eq_true',
      List.isEmpty_eq_false_iff] at h
    obtain ⟨hne, hexp⟩ := h
    have hfraction : IsFractionPart ('.' :: rest.takeWhile Char.isDigit) :=
      Or.inr ⟨_, rfl, hne, fun c hc => List.mem_takeWhile_imp hc⟩
    refine ⟨'.' :: rest.takeWhile Char.isDigit, rest.dropWhile Char.isDigit, ?_, hfraction, ?_,
      List.cons_ne_nil _ _⟩
    · rw [List.cons_append, List.takeWhile_append_dropWhile]
    · exact hexp.imp id fun h => (isExponentPart_of_isExponent h).1.resolve_left
        (isExponentPart_of_isExponent h).2
  · obtain ⟨hexp, hne⟩ := isExponentPart_of_isExponent h
    exact ⟨[], l, rfl, Or.inl rfl, hexp, hne⟩

/-- A finite `repr` without its sign is digits, a fraction and an exponent. -/
theorem isUnsigned_parts {l : List Char} (h : FloatText.isUnsigned l = true) :
    ∃ digits fraction exponent, l = digits ++ (fraction ++ exponent) ∧
      FloatText.isInteger digits = true ∧ (∀ c ∈ digits, c.isDigit = true) ∧
      IsFractionPart fraction ∧ IsExponentPart exponent ∧ fraction ++ exponent ≠ [] := by
  obtain ⟨hint, hfrac⟩ := Bool.and_eq_true_iff.mp h
  obtain ⟨fraction, exponent, hl, hf, he, hne⟩ := isFraction_parts hfrac
  refine ⟨l.takeWhile Char.isDigit, fraction, exponent, ?_, hint,
    fun c hc => List.mem_takeWhile_imp hc, hf, he, hne⟩
  rw [← hl, List.takeWhile_append_dropWhile]

/-- Decimal digits have no leading zero. -/
theorem head_toDigits (n : Nat) (h : n ≠ 0) : (Nat.toDigits 10 n).head? ≠ some '0' := by
  induction n using Nat.strong_induction_on with
  | _ n ih =>
    by_cases hlt : n < 10
    · have hsmall : ∀ d : Fin 10, d.val ≠ 0 → Nat.digitChar d.val ≠ '0' := by decide
      rw [Nat.toDigits_of_lt_base hlt]
      simpa using hsmall ⟨n, hlt⟩ h
    · have hdiv := ih (n / 10) (by omega) (by omega)
      have hne := @Nat.toDigits_ne_nil (n / 10) 10
      rw [Nat.toDigits_of_base_le (by omega) (by omega), List.head?_append_of_ne_nil _ hne]
      exact hdiv

theorem isInteger_toDigits (n : Nat) : FloatText.isInteger (Nat.toDigits 10 n) = true := by
  by_cases h : n = 0
  · rw [h]
    decide
  · simp [FloatText.isInteger, head_toDigits n h, Nat.toDigits_ne_nil]

variable {reader : FloatReader}

/-- A decimal integer reads back. -/
theorem readNumber_toDigits (negative : Bool) (n : Nat) {rest : List Char} (hr : Delimited rest) :
    readNumber reader negative (Nat.toDigits 10 n ++ rest) =
      some (.int (if negative then -(n : Int) else n), rest) := by
  have hd : ∀ c ∈ Nat.toDigits 10 n, c.isDigit = true := fun c hc =>
    Nat.isDigit_of_mem_toDigits (by decide) (by decide) hc
  have hparts : numberParts (Nat.toDigits 10 n ++ rest) = (Nat.toDigits 10 n, [], rest) :=
    @numberParts_append _ [] [] rest (isInteger_toDigits n) hd (Or.inl rfl) (Or.inl rfl) hr
  obtain ⟨c, t, hct⟩ := List.exists_cons_of_ne_nil (@Nat.toDigits_ne_nil n 10)
  have hval : Nat.ofDigitChars 10 (c :: t) 0 = n := hct ▸ Nat.ofDigitChars_ten_toDigits
  rw [readNumber, hparts, hct]
  simp only [hval]

/-- A finite `repr` reads back. -/
theorem readNumber_unsigned (negative : Bool) {l rest : List Char}
    (h : FloatText.isUnsigned l = true) (hr : Delimited rest) :
    readNumber reader negative (l ++ rest) =
      some (.float (reader.read ((if negative then ['-'] else []) ++ l)), rest) := by
  obtain ⟨digits, fraction, exponent, rfl, hint, hd, hf, he, hne⟩ := isUnsigned_parts h
  have hparts : numberParts (digits ++ (fraction ++ exponent) ++ rest) =
      (digits, fraction ++ exponent, rest) := by
    rw [List.append_assoc, List.append_assoc]
    exact numberParts_append hint hd hf he hr
  obtain ⟨c, digits, rfl⟩ : ∃ c t, digits = c :: t := by
    apply List.exists_cons_of_ne_nil
    rintro rfl
    simp [FloatText.isInteger] at hint
  obtain ⟨d, tail, htail⟩ := List.exists_cons_of_ne_nil hne
  rw [readNumber, hparts, htail]
  simp only [List.append_assoc]

/-! ## Values -/

/-- How a dumped value starts: with a character that is neither whitespace nor
the end of a container. -/
def Opens (l : List Char) : Prop :=
  ∃ c t, l = c :: t ∧ isBlank c = false ∧ c ≠ ']' ∧ c ≠ '}'

theorem opens_cons {c : Char} (h : isBlank c = false ∧ c ≠ ']' ∧ c ≠ '}') (t : List Char) :
    Opens (c :: t) :=
  ⟨c, t, rfl, h⟩

theorem opens_of_isDigit {c : Char} {t : List Char} (h : c.isDigit = true) : Opens (c :: t) := by
  refine ⟨c, t, rfl, ?_, ?_, ?_⟩
  · by_contra hb
    simp only [isBlank, Bool.not_eq_false, Bool.or_eq_true, beq_iff_eq] at hb
    rcases hb with ((rfl | rfl) | rfl) | rfl <;> exact absurd h (by decide)
  · rintro rfl
    exact absurd h (by decide)
  · rintro rfl
    exact absurd h (by decide)

theorem skip_of_opens {l : List Char} (h : Opens l) (rest : List Char) :
    skip (l ++ rest) = l ++ rest := by
  obtain ⟨c, t, rfl, hb, -, -⟩ := h
  simp [skip, hb]

theorem toString_int_cases (n : Int) :
    (∃ k : Nat, n = k ∧ (toString n).toList = Nat.toDigits 10 k) ∨
      ∃ k : Nat, n = -(k : Int) ∧ (toString n).toList = '-' :: Nat.toDigits 10 k := by
  cases n with
  | ofNat k => exact Or.inl ⟨k, rfl, Nat.toList_repr⟩
  | negSucc k =>
    have hneg : toString (Int.negSucc k) = "-" ++ (k + 1).repr := rfl
    refine Or.inr ⟨k + 1, rfl, ?_⟩
    rw [hneg, String.toList_append, Nat.toList_repr]
    rfl

/-- The ways a float is dumped. -/
theorem dumpFloat_cases (x : PyFloat) :
    (dumpFloat x = ['I', 'n', 'f', 'i', 'n', 'i', 't', 'y'] ∧ x.text = "inf") ∨
    (dumpFloat x = '-' :: ['I', 'n', 'f', 'i', 'n', 'i', 't', 'y'] ∧ x.text = "-inf") ∨
    (dumpFloat x = ['N', 'a', 'N'] ∧ x.text = "nan") ∨
    (dumpFloat x = x.text.toList ∧ FloatText.isUnsigned x.text.toList = true) ∨
    ∃ l, dumpFloat x = '-' :: l ∧ x.text.toList = '-' :: l ∧ FloatText.isUnsigned l = true := by
  have hrepr := x.isRepr
  have htext : ∀ l : List Char, x.text.toList = l → x.text = String.ofList l := by
    rintro l rfl
    exact String.ofList_toList.symm
  unfold dumpFloat
  split_ifs with h1 h2 h3
  · exact Or.inl ⟨rfl, h1⟩
  · exact Or.inr (Or.inl ⟨rfl, h2⟩)
  · exact Or.inr (Or.inr (Or.inl ⟨rfl, h3⟩))
  · refine Or.inr (Or.inr (Or.inr ?_))
    unfold FloatText.isRepr at hrepr
    split at hrepr
    · rename_i l heq
      rcases Bool.or_eq_true_iff.mp hrepr with hl | hl
      · exact Or.inr ⟨l, heq, heq, hl⟩
      · rw [beq_iff_eq.mp hl] at heq
        exact absurd (htext _ heq) h2
    · rename_i l heq
      rcases Bool.or_eq_true_iff.mp hrepr with hrepr | hl
      · rcases Bool.or_eq_true_iff.mp hrepr with hl | hl
        · exact Or.inl ⟨rfl, hl⟩
        · exact absurd (htext _ (beq_iff_eq.mp hl)) h1
      · exact absurd (htext _ (beq_iff_eq.mp hl)) h3

/-- A text that starts with a digit is a number. -/
theorem readValue_of_isDigit {c : Char} (h : c.isDigit = true) (fuel : Nat) (t : List Char) :
    readValue reader (fuel + 1) (c :: t) = readNumber reader false (c :: t) := by
  have hne : ∀ d : Char, d.isDigit = false → c ≠ d := by
    rintro d hd rfl
    rw [h] at hd
    cases hd
  rw [readValue, if_neg (hne _ (by decide)), if_neg (hne _ (by decide)), if_neg (hne _ (by decide)),
    if_neg (hne _ (by decide)), if_pos h]

/-- A sign before a digit is that of a number. -/
theorem readValue_minus {c : Char} (h : c.isDigit = true) (fuel : Nat) (t : List Char) :
    readValue reader (fuel + 1) ('-' :: c :: t) = readNumber reader true (c :: t) := by
  have hne : c ≠ 'I' := by
    rintro rfl
    exact absurd h (by decide)
  have hword : dropWord ['I', 'n', 'f', 'i', 'n', 'i', 't', 'y'] (c :: t) = none := by
    simp [dropWord, Ne.symm hne]
  simp [readValue, hword]

theorem head_of_isUnsigned {l : List Char} (h : FloatText.isUnsigned l = true) :
    ∃ c t, l = c :: t ∧ c.isDigit = true := by
  obtain ⟨digits, fraction, exponent, rfl, hint, hd, -⟩ := isUnsigned_parts h
  cases digits with
  | nil => simp [FloatText.isInteger] at hint
  | cons c digits => exact ⟨c, _, rfl, hd c (List.mem_cons_self ..)⟩

theorem head_of_toDigits (n : Nat) : ∃ c t, Nat.toDigits 10 n = c :: t ∧ c.isDigit = true := by
  obtain ⟨c, t, hct⟩ := List.exists_cons_of_ne_nil (@Nat.toDigits_ne_nil n 10)
  exact ⟨c, t, hct, Nat.isDigit_of_mem_toDigits (by decide) (by decide)
    (hct ▸ List.mem_cons_self ..)⟩

theorem readValue_int (n : Int) (fuel : Nat) {rest : List Char} (hr : Delimited rest) :
    readValue reader (fuel + 1) (dump (.int n) ++ rest) = some (.int n, rest) := by
  rw [dump]
  rcases toString_int_cases n with ⟨k, rfl, htext⟩ | ⟨k, rfl, htext⟩
  · obtain ⟨c, t, hct, hc⟩ := head_of_toDigits k
    rw [htext, hct, List.cons_append, readValue_of_isDigit hc, ← List.cons_append, ← hct,
      readNumber_toDigits false k hr]
    rfl
  · obtain ⟨c, t, hct, hc⟩ := head_of_toDigits k
    rw [htext, hct, List.cons_append, List.cons_append, readValue_minus hc, ← List.cons_append,
      ← hct, readNumber_toDigits true k hr]
    rfl

theorem float_eq {x : PyFloat} {text : String} (h : FloatText.isRepr text.toList = true)
    (ht : x.text = text) : floatOf text h = .float x := by
  obtain ⟨t, hrepr⟩ := x
  obtain rfl : t = text := ht
  rfl

theorem readValue_float (x : PyFloat) (fuel : Nat) {rest : List Char} (hr : Delimited rest) :
    readValue reader (fuel + 1) (dump (.float x) ++ rest) = some (.float x, rest) := by
  rw [dump]
  rcases dumpFloat_cases x with ⟨hd, ht⟩ | ⟨hd, ht⟩ | ⟨hd, ht⟩ | ⟨hd, hu⟩ | ⟨l, hd, ht, hu⟩
  · rw [hd, ← float_eq (by decide) ht]
    rfl
  · rw [hd, ← float_eq (by decide) ht]
    rfl
  · rw [hd, ← float_eq (by decide) ht]
    rfl
  · obtain ⟨c, t, hct, hc⟩ := head_of_isUnsigned hu
    rw [hd, hct, List.cons_append, readValue_of_isDigit hc, ← List.cons_append, ← hct,
      readNumber_unsigned false hu hr]
    simp [reader.read_text]
  · obtain ⟨c, t, rfl, hc⟩ := head_of_isUnsigned hu
    rw [hd, List.cons_append, List.cons_append, readValue_minus hc, ← List.cons_append,
      readNumber_unsigned true hu hr]
    simp [← ht, reader.read_text]

/-- A dumped value opens. -/
theorem opens_dump (j : Json) : Opens (dump j) := by
  cases j with
  | null =>
    rw [dump]
    exact opens_cons (by decide) _
  | bool b =>
    cases b with
    | true =>
      rw [dump]
      exact opens_cons (by decide) _
    | false =>
      rw [dump]
      exact opens_cons (by decide) _
  | int n =>
    rw [dump]
    rcases toString_int_cases n with ⟨k, -, htext⟩ | ⟨k, -, htext⟩
    · obtain ⟨c, t, hct, hc⟩ := head_of_toDigits k
      rw [htext, hct]
      exact opens_of_isDigit hc
    · rw [htext]
      exact opens_cons (by decide) _
  | float x =>
    rw [dump]
    rcases dumpFloat_cases x with ⟨hd, -⟩ | ⟨hd, -⟩ | ⟨hd, -⟩ | ⟨hd, hu⟩ | ⟨l, hd, -, -⟩
    · rw [hd]
      exact opens_cons (by decide) _
    · rw [hd]
      exact opens_cons (by decide) _
    · rw [hd]
      exact opens_cons (by decide) _
    · obtain ⟨c, t, hct, hc⟩ := head_of_isUnsigned hu
      rw [hd, hct]
      exact opens_of_isDigit hc
    · rw [hd]
      exact opens_cons (by decide) _
  | str s =>
    rw [dump, dumpStr]
    exact opens_cons (by decide) _
  | arr l =>
    rw [dump]
    exact opens_cons (by decide) _
  | obj m =>
    rw [dump]
    exact opens_cons (by decide) _

theorem dump_items_cons (j : Json) (l : List Json) :
    dump.items (j :: l) = dump j ++ if l = [] then [] else ',' :: ' ' :: dump.items l := by
  cases l <;> simp [dump.items]

theorem dump_members_cons (k : String) (j : Json) (m : List (String × Json)) :
    dump.members ((k, j) :: m) =
      dumpStr k ++ ':' :: ' ' ::
        (dump j ++ if m = [] then [] else ',' :: ' ' :: dump.members m) := by
  cases m <;> simp [dump.members]

theorem opens_append {l : List Char} (h : Opens l) (rest : List Char) : Opens (l ++ rest) := by
  obtain ⟨c, t, rfl, hc⟩ := h
  exact ⟨c, t ++ rest, rfl, hc⟩

theorem skip_eq_of_opens {l : List Char} (h : Opens l) : skip l = l := by
  have := skip_of_opens h []
  rwa [List.append_nil] at this

theorem skip_space (l : List Char) : skip (' ' :: l) = skip l := rfl

theorem skip_comma (l : List Char) : skip (',' :: l) = ',' :: l := rfl

theorem skip_colon (l : List Char) : skip (':' :: l) = ':' :: l := rfl

theorem opens_items {l : List Json} (h : l ≠ []) (rest : List Char) :
    Opens (dump.items l ++ rest) := by
  obtain ⟨j, l, rfl⟩ := List.exists_cons_of_ne_nil h
  rw [dump_items_cons, List.append_assoc]
  exact opens_append (opens_dump j) _

theorem opens_members {m : List (String × Json)} (h : m ≠ []) (rest : List Char) :
    Opens (dump.members m ++ rest) := by
  obtain ⟨⟨k, j⟩, m, rfl⟩ := List.exists_cons_of_ne_nil h
  rw [dump_members_cons, List.append_assoc]
  exact opens_cons (by decide) _

/-- A container that is not empty is read item by item. -/
theorem readValue_arr {l : List Char} (h : Opens l) (fuel : Nat) :
    readValue reader (fuel + 1) ('[' :: l) =
      (readItems reader fuel l).map fun p => (.arr p.1, p.2) := by
  have hskip := skip_eq_of_opens h
  obtain ⟨c, t, rfl, -, hc, -⟩ := h
  simp only [readValue, Char.reduceEq, if_false, if_true, hskip]
  split
  · rename_i heq
    exact absurd (List.cons.inj heq).1 hc
  · rfl

theorem readValue_obj {l : List Char} (h : Opens l) (fuel : Nat) :
    readValue reader (fuel + 1) ('{' :: l) =
      (readMembers reader fuel l).map fun p => (.obj (Json.update [] p.1), p.2) := by
  have hskip := skip_eq_of_opens h
  obtain ⟨c, t, rfl, -, -, hc⟩ := h
  simp only [readValue, Char.reduceEq, if_false, if_true, hskip]
  split
  · rename_i heq
    exact absurd (List.cons.inj heq).1 hc
  · rfl

mutual

/-- A dumped value reads back. The recursion is on the value; the text of a
part is shorter than the text of the whole, so the fuel suffices. -/
theorem readValue_dump : ∀ (j : Json) (fuel : Nat) (rest : List Char), j.DistinctKeys →
    (dump j).length ≤ fuel → Delimited rest →
      readValue reader fuel (dump j ++ rest) = some (j, rest)
  | j, 0, rest, _, hfuel, _ => by
    obtain ⟨c, t, hct, -⟩ := opens_dump j
    simp [hct] at hfuel
  | .null, fuel + 1, rest, _, _, _ => by
    rw [dump]
    rfl
  | .bool true, fuel + 1, rest, _, _, _ => by
    rw [dump]
    rfl
  | .bool false, fuel + 1, rest, _, _, _ => by
    rw [dump]
    rfl
  | .int n, fuel + 1, rest, _, _, hr => readValue_int n fuel hr
  | .float x, fuel + 1, rest, _, _, hr => readValue_float x fuel hr
  | .str s, fuel + 1, rest, _, _, _ => by
    obtain ⟨body, hbody, hread⟩ := readStr_dumpStr s rest
    rw [dump, hbody, readValue, if_pos rfl, hread]
    rfl
  | .arr [], fuel + 1, rest, _, _, _ => by
    rw [dump, dump.items]
    rfl
  | .arr (j :: l), fuel + 1, rest, hd, hfuel, _ => by
    have hne : j :: l ≠ [] := List.cons_ne_nil _ _
    rw [dump, List.length_cons, List.length_append, List.length_singleton] at hfuel
    have hitems := readItems_dump (j :: l) fuel rest hne hd (by omega)
    have hopens := opens_items hne (']' :: rest)
    rw [dump, List.cons_append, List.append_assoc, List.singleton_append, readValue_arr hopens,
      hitems]
    rfl
  | .obj [], fuel + 1, rest, _, _, _ => by
    rw [dump, dump.members]
    rfl
  | .obj (m :: ms), fuel + 1, rest, hd, hfuel, _ => by
    have hne : m :: ms ≠ [] := List.cons_ne_nil _ _
    rw [dump, List.length_cons, List.length_append, List.length_singleton] at hfuel
    have hmembers := readMembers_dump (m :: ms) fuel rest hne hd.2 (by omega)
    have hopens := opens_members hne ('}' :: rest)
    rw [dump, List.cons_append, List.append_assoc, List.singleton_append, readValue_obj hopens,
      hmembers, Option.map_some, Json.update_of_nodup (by simpa using hd.1)]
    rfl

/-- The items of a dumped list read back, up to the bracket. -/
theorem readItems_dump : ∀ (l : List Json) (fuel : Nat) (rest : List Char), l ≠ [] →
    Json.DistinctKeys.items l → (dump.items l).length + 1 ≤ fuel →
      readItems reader fuel (dump.items l ++ ']' :: rest) = some (l, rest)
  | [], _, _, hne, _, _ => absurd rfl hne
  | _ :: _, 0, _, _, _, hfuel => by omega
  | j :: l, fuel + 1, rest, _, hd, hfuel => by
    rw [dump_items_cons, List.length_append] at hfuel
    rw [dump_items_cons, List.append_assoc, readItems]
    by_cases hl : l = []
    · obtain rfl := hl
      have hvalue := readValue_dump j fuel (']' :: rest) hd.1 (by omega)
        (delimited_cons (by decide))
      rw [if_pos rfl, List.nil_append, hvalue]
      rfl
    · rw [if_neg hl] at hfuel ⊢
      simp only [List.length_cons] at hfuel
      have hvalue := readValue_dump j fuel (',' :: ' ' :: dump.items l ++ ']' :: rest) hd.1
        (by omega) (delimited_cons (by decide))
      have hitems := readItems_dump l fuel rest hl hd.2 (by omega)
      rw [hvalue]
      simp only [List.cons_append, skip_comma, skip_space, skip_eq_of_opens (opens_items hl _),
        hitems]
      rfl

/-- The entries of a dumped object read back, up to the brace. -/
theorem readMembers_dump : ∀ (m : List (String × Json)) (fuel : Nat) (rest : List Char), m ≠ [] →
    Json.DistinctKeys.members m → (dump.members m).length + 1 ≤ fuel →
      readMembers reader fuel (dump.members m ++ '}' :: rest) = some (m, rest)
  | [], _, _, hne, _, _ => absurd rfl hne
  | _ :: _, 0, _, _, _, hfuel => by omega
  | (k, j) :: m, fuel + 1, rest, _, hd, hfuel => by
    rw [dump_members_cons, List.length_append, List.length_cons, List.length_cons,
      List.length_append] at hfuel
    rw [dump_members_cons]
    simp only [List.append_assoc, List.cons_append]
    obtain ⟨body, hbody, hread⟩ := readStr_dumpStr k (':' :: ' ' ::
      (dump j ++ ((if m = [] then [] else ',' :: ' ' :: dump.members m) ++ '}' :: rest)))
    rw [hbody, readMembers]
    simp only [hread, skip_colon, skip_space, skip_eq_of_opens (opens_append (opens_dump j) _)]
    by_cases hm : m = []
    · obtain rfl := hm
      have hvalue := readValue_dump j fuel ('}' :: rest) hd.1 (by omega)
        (delimited_cons (by decide))
      rw [if_pos rfl, List.nil_append, hvalue]
      rfl
    · rw [if_neg hm] at hfuel ⊢
      simp only [List.length_cons] at hfuel
      have hvalue := readValue_dump j fuel (',' :: ' ' :: dump.members m ++ '}' :: rest) hd.1
        (by omega) (delimited_cons (by decide))
      have hmembers := readMembers_dump m fuel rest hm hd.2 (by omega)
      rw [hvalue]
      simp only [List.cons_append, skip_comma, skip_space, skip_eq_of_opens (opens_members hm _),
        hmembers]
      rfl

end

/-- **Loading inverts dumping**, for a value whose objects have distinct keys. -/
theorem load_dump {j : Json} (h : j.DistinctKeys) : load reader (dump j) = some j := by
  have hskip : skip (dump j) = dump j := skip_eq_of_opens (opens_dump j)
  have hvalue := @readValue_dump reader j (dump j).length [] h le_rfl delimited_nil
  rw [List.append_nil] at hvalue
  simp only [load, hskip, hvalue]
  rfl

end JsonText

end KgaGateway
