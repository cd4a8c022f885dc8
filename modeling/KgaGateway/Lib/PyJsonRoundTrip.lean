import KgaGateway.Lib.JsonRoundTrip
import KgaGateway.Lib.PyJson

/-!
# What comes back of a dumped value

`load_text`: loading the text of an encodable value gives what the value
becomes. `iterencode_spec`: that text is what `json.dump` writes, unless it
raises. As for documents, each lemma has a rest of the text behind the piece
it is about; inside a string the rest matters too, because an escaped high
surrogate looks for a low one behind it (`LeavesAlone`).
-/

namespace KgaGateway

namespace PyJson

open JsonText (Delimited Opens delimited_cons opens_cons opens_of_isDigit opens_append
  skip_eq_of_opens skip_comma skip_space skip_colon)

/-! ## Strings -/

theorem hexValue_lt {c : Char} {n : Nat} (h : JsonText.hexValue c = some n) : n < 16 := by
  have hle : ∀ a b : Char, a ≤ b → a.toNat ≤ b.toNat := fun a b hab => hab
  have h0 : '0'.toNat = 48 := rfl
  have h9 : '9'.toNat = 57 := rfl
  have ha : 'a'.toNat = 97 := rfl
  have hf : 'f'.toNat = 102 := rfl
  have hA : 'A'.toNat = 65 := rfl
  have hF : 'F'.toNat = 70 := rfl
  unfold JsonText.hexValue at h
  split_ifs at h with hd hlow hup
  · have := hle _ _ hd.2
    obtain rfl := Option.some.inj h
    omega
  · have := hle _ _ hlow.2
    obtain rfl := Option.some.inj h
    omega
  · have := hle _ _ hup.2
    obtain rfl := Option.some.inj h
    omega

theorem readUnit_lt {l rest : List Char} {n : Nat} (h : JsonText.readUnit l = some (n, rest)) :
    n < 0x10000 := by
  unfold JsonText.readUnit at h
  split at h
  · simp only [Option.bind_eq_bind, Option.bind_eq_some_iff] at h
    obtain ⟨a, ha, b, hb, c, hc, d, hd, heq⟩ := h
    have := hexValue_lt ha
    have := hexValue_lt hb
    have := hexValue_lt hc
    have := hexValue_lt hd
    obtain ⟨rfl, -⟩ := Prod.mk.inj (Option.some.inj heq)
    omega
  · cases h

theorem ofChar_ofNat {n : Nat} (h : n < 0xD800 ∨ 0xDFFF < n ∧ n < 0x110000) :
    PyStr.ofChar (Char.ofNat n) = CodePoint.ofNat n := by
  have hvalid : n.isValidChar := by
    simp only [Nat.isValidChar]
    omega
  rw [PyStr.ofChar, Char.ofNat, dif_pos hvalid]
  rfl

theorem ofNat_val (c : CodePoint) : CodePoint.ofNat c.val = c :=
  Fin.ext (Nat.mod_eq_of_lt c.isLt)

theorem isHigh_ofNat {n : Nat} (h : n < 0x110000) :
    PyStr.isHigh (CodePoint.ofNat n) = decide (0xD800 ≤ n ∧ n < 0xDC00) := by
  rw [PyStr.isHigh, CodePoint.val_ofNat, Nat.mod_eq_of_lt h]

theorem isLow_ofNat {n : Nat} (h : n < 0x110000) :
    PyStr.isLow (CodePoint.ofNat n) = decide (0xDC00 ≤ n ∧ n ≤ 0xDFFF) := by
  rw [PyStr.isLow, CodePoint.val_ofNat, Nat.mod_eq_of_lt h]

/-- An escape that stands for a character stands for its code point. -/
theorem unescape_of_char {l rest : List Char} {c : Char}
    (h : JsonText.unescape l = some (c, rest)) : unescape l = some (PyStr.ofChar c, rest) := by
  rw [unescape.eq_def]
  split
  · rename_i behind
    rw [JsonText.unescape] at h
    cases hunit : JsonText.readUnit behind with
    | none =>
      rw [hunit] at h
      cases h
    | some p =>
      obtain ⟨n, after⟩ := p
      have hn := readUnit_lt hunit
      simp only [hunit] at h ⊢
      split_ifs at h with hplain
      · obtain ⟨rfl, rfl⟩ := Prod.mk.inj (Option.some.inj h)
        rw [isHigh_ofNat (by omega), if_neg (by simp; omega), ofChar_ofNat (by omega)]
      · split at h
        · rename_i low
          cases hlow : JsonText.readUnit low with
          | none =>
            rw [hlow] at h
            cases h
          | some q =>
            obtain ⟨m, after'⟩ := q
            have hm := readUnit_lt hlow
            simp only [hlow] at h ⊢
            split_ifs at h with hpair
            obtain ⟨rfl, rfl⟩ := Prod.mk.inj (Option.some.inj h)
            rw [isHigh_ofNat (by omega), if_pos (by simp; omega), isLow_ofNat (by omega),
              if_pos (by simp; omega), PyStr.join, CodePoint.val_ofNat, CodePoint.val_ofNat,
              Nat.mod_eq_of_lt (by omega), Nat.mod_eq_of_lt (by omega), ofChar_ofNat (by omega)]
        · cases h
  · rw [h]
    rfl

/-- A text that no high surrogate before it joins with. -/
def LeavesAlone (t : List Char) : Prop :=
  ∀ behind, t = '\\' :: 'u' :: behind →
    ∃ m rest, JsonText.readUnit behind = some (m, rest) ∧
      PyStr.isLow (CodePoint.ofNat m) = false

theorem leavesAlone_escapeUnit {n : Nat} (hn : n < 0x10000)
    (h : PyStr.isLow (CodePoint.ofNat n) = false) (t : List Char) :
    LeavesAlone (JsonText.escapeUnit n ++ t) := by
  intro behind heq
  obtain ⟨-, htail⟩ := List.cons.inj heq
  obtain ⟨-, rfl⟩ := List.cons.inj htail
  exact ⟨n, t, JsonText.readUnit_hexDigits hn t, h⟩

theorem leavesAlone_of_head {c : Char} (h : c ≠ '\\') (t : List Char) : LeavesAlone (c :: t) := by
  intro behind heq
  exact absurd (List.cons.inj heq).1 h

/-- An escape that stands for a character does not start with a low
surrogate. -/
theorem leavesAlone_of_unescape {l rest : List Char} {c : Char}
    (h : JsonText.unescape l = some (c, rest)) : LeavesAlone ('\\' :: l) := by
  intro behind heq
  obtain ⟨-, rfl⟩ := List.cons.inj heq
  rw [JsonText.unescape] at h
  cases hunit : JsonText.readUnit behind with
  | none =>
    rw [hunit] at h
    cases h
  | some p =>
    obtain ⟨n, after⟩ := p
    have hn := readUnit_lt hunit
    refine ⟨n, after, rfl, ?_⟩
    rw [isLow_ofNat (by omega), decide_eq_false_iff_not]
    simp only [hunit] at h
    split_ifs at h with hplain
    · omega
    · split at h
      · rename_i low
        cases hlow : JsonText.readUnit low with
        | none =>
          rw [hlow] at h
          cases h
        | some q =>
          simp only [hlow] at h
          split_ifs at h with hpair
          omega
      · cases h

/-- A dumped code point that is no low surrogate. -/
theorem leavesAlone_escapePoint {d : CodePoint} (h : PyStr.isLow d = false) (t : List Char) :
    LeavesAlone (escapePoint d ++ t) := by
  rw [escapePoint]
  split
  · rename_i hsurrogate
    have hhigh : PyStr.isHigh d = true := by simpa [h] using hsurrogate
    rw [PyStr.isHigh, decide_eq_true_eq] at hhigh
    exact leavesAlone_escapeUnit (by omega) (by rwa [ofNat_val]) t
  · rcases JsonText.escapeChar_cases (Char.ofNat d.val) with ⟨hc, -, hslash, -⟩ | ⟨e, hc, he⟩
    · rw [hc]
      exact leavesAlone_of_head hslash t
    · rw [hc]
      exact leavesAlone_of_unescape (he t)

/-- A code point that joins with nothing reads back. -/
theorem stringBody_escapePoint (fuel : Nat) {c : CodePoint} {t : List Char}
    (h : PyStr.isHigh c = true → LeavesAlone t) :
    stringBody (fuel + 1) (escapePoint c ++ t) =
      (stringBody fuel t).map fun p => (c :: p.1, p.2) := by
  have hlt := c.isLt
  rw [escapePoint]
  split
  · rename_i hsurrogate
    have hunit : c.val < 0x10000 := by
      simp only [PyStr.isHigh, PyStr.isLow, Bool.or_eq_true, decide_eq_true_eq] at hsurrogate
      omega
    have hread := JsonText.readUnit_hexDigits hunit t
    have hunescape : unescape ('u' :: (Json.hexDigits 4 c.val ++ t)) = some (c, t) := by
      simp only [unescape, hread, ofNat_val]
      split
      · rename_i hhigh
        split
        · rename_i behind
          obtain ⟨m, rest, hm, hlow⟩ := h hhigh behind rfl
          simp only [hm, hlow]
          rfl
        · rfl
      · rfl
    rw [JsonText.escapeUnit, List.cons_append, List.cons_append, stringBody, if_neg (by decide),
      if_pos rfl, hunescape]
  · rename_i hsurrogate
    simp only [PyStr.isHigh, PyStr.isLow, Bool.or_eq_true, decide_eq_true_eq, not_or,
      not_and_or] at hsurrogate
    have hchar : PyStr.ofChar (Char.ofNat c.val) = c := by
      rw [ofChar_ofNat (by omega), ofNat_val]
    rcases JsonText.escapeChar_cases (Char.ofNat c.val) with ⟨hc, hquote, hslash, hge⟩ | ⟨e, hc, he⟩
    · rw [hc, List.singleton_append, stringBody, if_neg hquote, if_neg hslash, if_neg (by omega),
        hchar]
    · have hunescape := unescape_of_char (he t)
      rw [hchar] at hunescape
      rw [hc, List.cons_append, stringBody, if_neg (by decide), if_pos rfl, hunescape]

/-- Two halves of a pair read back as one code point. -/
theorem stringBody_pair (fuel : Nat) {high low : CodePoint} (hh : PyStr.isHigh high = true)
    (hl : PyStr.isLow low = true) (t : List Char) :
    stringBody (fuel + 1) (escapePoint high ++ (escapePoint low ++ t)) =
      (stringBody fuel t).map fun p => (PyStr.join high low :: p.1, p.2) := by
  have hhigh := hh
  have hlow := hl
  rw [PyStr.isHigh, decide_eq_true_eq] at hhigh
  rw [PyStr.isLow, decide_eq_true_eq] at hlow
  have hread := JsonText.readUnit_hexDigits (show high.val < 65536 by omega)
    ('\\' :: 'u' :: (Json.hexDigits 4 low.val ++ t))
  have hread' := JsonText.readUnit_hexDigits (show low.val < 65536 by omega) t
  have hunescape : unescape ('u' :: (Json.hexDigits 4 high.val ++
      '\\' :: 'u' :: (Json.hexDigits 4 low.val ++ t))) = some (PyStr.join high low, t) := by
    simp only [unescape, hread, ofNat_val, hh, if_true, hread', hl]
  have htext : escapePoint high ++ (escapePoint low ++ t) = '\\' :: 'u' ::
      (Json.hexDigits 4 high.val ++ '\\' :: 'u' :: (Json.hexDigits 4 low.val ++ t)) := by
    rw [escapePoint, hh, Bool.true_or, if_pos rfl, escapePoint, hl, Bool.or_true, if_pos rfl]
    rfl
  rw [htext, stringBody, if_neg (by decide), if_pos rfl, hunescape]

/-- The code points of a dumped string read back with the pairs joined. By
induction along the pairs. -/
theorem stringBody_flatMap (s : PyStr) (rest : List Char) :
    ∀ fuel, s.length < fuel →
      stringBody fuel (s.flatMap escapePoint ++ '"' :: rest) = some (PyStr.joinPairs s, rest) := by
  induction s using PyStr.pair_induction with
  | nil =>
    rintro (_ | fuel) h
    · cases h
    · rfl
  | pair high low t hh hl ih =>
    rintro (_ | fuel) h
    · cases h
    · simp only [List.length_cons] at h
      rw [List.flatMap_cons, List.flatMap_cons, List.append_assoc, List.append_assoc,
        stringBody_pair fuel hh hl, ih fuel (by omega), PyStr.joinPairs_pair hh hl]
      rfl
  | single c t hc ih =>
    rintro (_ | fuel) h
    · cases h
    · simp only [List.length_cons] at h
      have halone : PyStr.isHigh c = true →
          LeavesAlone (t.flatMap escapePoint ++ '"' :: rest) := by
        intro hhigh
        cases t with
        | nil => exact leavesAlone_of_head (by decide) rest
        | cons d t =>
          rw [List.flatMap_cons, List.append_assoc]
          exact leavesAlone_escapePoint (hc hhigh d rfl) _
      rw [List.flatMap_cons, List.append_assoc, stringBody_escapePoint fuel halone,
        ih fuel (by omega), PyStr.joinPairs_cons hc]
      rfl

theorem escapePoint_ne_nil (c : CodePoint) : escapePoint c ≠ [] := by
  rw [escapePoint]
  split
  · exact List.cons_ne_nil _ _
  · rcases JsonText.escapeChar_cases (Char.ofNat c.val) with ⟨hc, -⟩ | ⟨e, hc, -⟩
    · rw [hc]
      exact List.cons_ne_nil _ _
    · rw [hc]
      exact List.cons_ne_nil _ _

theorem length_le_flatMap (s : PyStr) : s.length ≤ (s.flatMap escapePoint).length := by
  induction s with
  | nil => exact le_refl _
  | cons c s ih =>
    have hpos := List.length_pos_iff.mpr (escapePoint_ne_nil c)
    rw [List.flatMap_cons, List.length_append, List.length_cons]
    omega

/-- A dumped string reads back with the pairs joined. -/
theorem readStr_dumpStr (s : PyStr) (rest : List Char) :
    ∃ body, dumpStr s ++ rest = '"' :: body ∧ readStr body = some (PyStr.joinPairs s, rest) := by
  refine ⟨s.flatMap escapePoint ++ '"' :: rest, by simp [dumpStr], ?_⟩
  have hlen := length_le_flatMap s
  exact stringBody_flatMap s rest _ (by rw [List.length_append]; omega)

/-! ## Atoms -/

variable {reader : FloatReader}

/-- How a number or a constant starts. -/
def StartsScalar (l : List Char) : Prop :=
  ∃ c t, l = c :: t ∧ c ≠ '"' ∧ c ≠ '[' ∧ c ≠ '{'

theorem startsScalar_cons {c : Char} (h : c ≠ '"' ∧ c ≠ '[' ∧ c ≠ '{') (t : List Char) :
    StartsScalar (c :: t) :=
  ⟨c, t, rfl, h⟩

theorem startsScalar_of_isDigit {c : Char} (h : c.isDigit = true) (t : List Char) :
    StartsScalar (c :: t) := by
  have hne : ∀ d : Char, d.isDigit = false → c ≠ d := by
    rintro d hd rfl
    rw [h] at hd
    cases hd
  exact ⟨c, t, rfl, hne _ (by decide), hne _ (by decide), hne _ (by decide)⟩

theorem startsScalar_append {l : List Char} (h : StartsScalar l) (rest : List Char) :
    StartsScalar (l ++ rest) := by
  obtain ⟨c, t, rfl, hc⟩ := h
  exact ⟨c, t ++ rest, rfl, hc⟩

/-- What starts so is read as in any document. -/
theorem readValue_scalar {l : List Char} (h : StartsScalar l) (fuel : Nat) :
    readValue reader (fuel + 1) l =
      (JsonText.readValue reader 1 l).map fun p => (ofJson p.1, p.2) := by
  obtain ⟨c, t, rfl, hquote, hbracket, hbrace⟩ := h
  rw [readValue, if_neg hquote, if_neg hbracket, if_neg hbrace]

theorem startsScalar_int (n : Int) : StartsScalar (toString n).toList := by
  rcases JsonText.toString_int_cases n with ⟨k, -, htext⟩ | ⟨k, -, htext⟩
  · obtain ⟨c, t, hct, hc⟩ := JsonText.head_of_toDigits k
    rw [htext, hct]
    exact startsScalar_of_isDigit hc t
  · rw [htext]
    exact startsScalar_cons (by decide) _

theorem startsScalar_float (x : PyFloat) : StartsScalar (JsonText.dumpFloat x) := by
  rcases JsonText.dumpFloat_cases x with ⟨hd, -⟩ | ⟨hd, -⟩ | ⟨hd, -⟩ | ⟨hd, hu⟩ | ⟨l, hd, -, -⟩
  · rw [hd]
    exact startsScalar_cons (by decide) _
  · rw [hd]
    exact startsScalar_cons (by decide) _
  · rw [hd]
    exact startsScalar_cons (by decide) _
  · obtain ⟨c, t, hct, hc⟩ := JsonText.head_of_isUnsigned hu
    rw [hd, hct]
    exact startsScalar_of_isDigit hc t
  · rw [hd]
    exact startsScalar_cons (by decide) _

/-- The text of an atom reads back as what the atom becomes. -/
theorem readValue_atomText {a : PyAtom} {t : List Char} (h : atomText a = some t) (fuel : Nat)
    {rest : List Char} (hr : Delimited rest) :
    readValue reader (fuel + 1) (t ++ rest) = some (.atom (jsonizeAtom a), rest) := by
  cases a with
  | none =>
    obtain rfl := Option.some.inj h
    rfl
  | bool b =>
    cases b with
    | true =>
      obtain rfl := Option.some.inj h
      rfl
    | false =>
      obtain rfl := Option.some.inj h
      rfl
  | int n =>
    obtain rfl := Option.some.inj h
    have hread := @JsonText.readValue_int reader n 0 rest hr
    rw [JsonText.dump] at hread
    rw [readValue_scalar (startsScalar_append (startsScalar_int n) rest), hread]
    rfl
  | float x i =>
    obtain rfl := Option.some.inj h
    have hread := @JsonText.readValue_float reader x 0 rest hr
    rw [JsonText.dump] at hread
    rw [readValue_scalar (startsScalar_append (startsScalar_float x) rest), hread]
    rfl
  | str s =>
    obtain rfl := Option.some.inj h
    obtain ⟨body, hbody, hread⟩ := readStr_dumpStr s rest
    rw [hbody, readValue, if_pos rfl, hread]
    rfl
  | other i => cases h

theorem opens_atomText {a : PyAtom} {t : List Char} (h : atomText a = some t) : Opens t := by
  cases a with
  | none =>
    obtain rfl := Option.some.inj h
    exact opens_cons (by decide) _
  | bool b =>
    cases b with
    | true =>
      obtain rfl := Option.some.inj h
      exact opens_cons (by decide) _
    | false =>
      obtain rfl := Option.some.inj h
      exact opens_cons (by decide) _
  | int n =>
    obtain rfl := Option.some.inj h
    have hopens := JsonText.opens_dump (.int n)
    rwa [JsonText.dump] at hopens
  | float x i =>
    obtain rfl := Option.some.inj h
    have hopens := JsonText.opens_dump (.float x)
    rwa [JsonText.dump] at hopens
  | str s =>
    obtain rfl := Option.some.inj h
    exact opens_cons (by decide) _
  | other i => cases h

/-! ## Containers -/

theorem encodable_atom {a : PyAtom} (h : encodable (.atom a) = true) :
    ∃ t, atomText a = some t ∧ text (.atom a) = t := by
  rw [encodable] at h
  obtain ⟨t, ht⟩ := Option.isSome_iff_exists.mp h
  exact ⟨t, ht, by rw [text, ht, Option.getD_some]⟩

/-- The text of a value opens. -/
theorem opens_text {v : PyVal} (h : encodable v = true) : Opens (text v) := by
  cases v with
  | atom a =>
    obtain ⟨t, ha, ht⟩ := encodable_atom h
    rw [ht]
    exact opens_atomText ha
  | list l =>
    rw [text]
    exact opens_cons (by decide) _
  | tuple l =>
    rw [text]
    exact opens_cons (by decide) _
  | dict m =>
    rw [text]
    exact opens_cons (by decide) _

theorem text_items_cons (v : PyVal) (l : List PyVal) :
    text.items (v :: l) = text v ++ if l = [] then [] else ',' :: ' ' :: text.items l := by
  cases l <;> simp [text.items]

theorem text_members_cons (k : PyAtom) (v : PyVal) (m : List (PyAtom × PyVal)) :
    text.members ((k, v) :: m) =
      dumpStr ((keyStr k).getD []) ++ ':' :: ' ' ::
        (text v ++ if m = [] then [] else ',' :: ' ' :: text.members m) := by
  cases m <;> simp [text.members]

theorem encodable_items_cons {v : PyVal} {l : List PyVal}
    (h : encodable.items (v :: l) = true) : encodable v = true ∧ encodable.items l = true :=
  (Bool.and_eq_true _ _).mp h

theorem encodable_members_cons {k : PyAtom} {v : PyVal} {m : List (PyAtom × PyVal)}
    (h : encodable.members ((k, v) :: m) = true) :
    (∃ s, keyStr k = some s) ∧ encodable v = true ∧ encodable.members m = true := by
  obtain ⟨hkv, hm⟩ := (Bool.and_eq_true _ _).mp h
  obtain ⟨hk, hv⟩ := (Bool.and_eq_true _ _).mp hkv
  exact ⟨Option.isSome_iff_exists.mp hk, hv, hm⟩

theorem opens_items {l : List PyVal} (h : encodable.items l = true) (hne : l ≠ [])
    (rest : List Char) : Opens (text.items l ++ rest) := by
  obtain ⟨v, l, rfl⟩ := List.exists_cons_of_ne_nil hne
  rw [text_items_cons, List.append_assoc]
  exact opens_append (opens_text (encodable_items_cons h).1) _

theorem opens_members {m : List (PyAtom × PyVal)} (hne : m ≠ []) (rest : List Char) :
    Opens (text.members m ++ rest) := by
  obtain ⟨⟨k, v⟩, m, rfl⟩ := List.exists_cons_of_ne_nil hne
  rw [text_members_cons, List.append_assoc]
  exact opens_cons (by decide) _

/-- A container that is not empty is read item by item. -/
theorem readValue_list {l : List Char} (h : Opens l) (fuel : Nat) :
    readValue reader (fuel + 1) ('[' :: l) =
      (readItems reader fuel l).map fun p => (.list p.1, p.2) := by
  have hskip := skip_eq_of_opens h
  obtain ⟨c, t, rfl, -, hc, -⟩ := h
  rw [readValue, if_neg (by decide), if_pos rfl, hskip]
  split
  · rename_i heq
    exact absurd (List.cons.inj heq).1 hc
  · rfl

theorem readValue_dict {l : List Char} (h : Opens l) (fuel : Nat) :
    readValue reader (fuel + 1) ('{' :: l) =
      (readMembers reader fuel l).map fun p => (strDict (dictOf p.1), p.2) := by
  have hskip := skip_eq_of_opens h
  obtain ⟨c, t, rfl, -, -, hc⟩ := h
  rw [readValue, if_neg (by decide), if_neg (by decide), if_pos rfl, hskip]
  split
  · rename_i heq
    exact absurd (List.cons.inj heq).1 hc
  · rfl

mutual

/-- The text of a value reads back as what the value becomes. The recursion is
on the value; the text of a part is shorter than the text of the whole, so the
fuel suffices. -/
theorem readValue_text : ∀ (v : PyVal) (fuel : Nat) (rest : List Char), encodable v = true →
    (text v).length ≤ fuel → Delimited rest →
      readValue reader fuel (text v ++ rest) = some (jsonize v, rest)
  | v, 0, rest, hv, hfuel, _ => by
    obtain ⟨c, t, hct, -⟩ := opens_text hv
    simp [hct] at hfuel
  | .atom a, fuel + 1, rest, hv, _, hr => by
    obtain ⟨t, ha, ht⟩ := encodable_atom hv
    rw [ht, readValue_atomText ha fuel hr, jsonize]
  | .list l, fuel + 1, rest, hv, hfuel, _ => by
    rw [text, List.length_cons, List.length_append, List.length_singleton] at hfuel
    rw [text, List.cons_append, List.append_assoc, List.singleton_append, jsonize]
    exact readValue_bracket l fuel rest hv (by omega)
  | .tuple l, fuel + 1, rest, hv, hfuel, _ => by
    rw [text, List.length_cons, List.length_append, List.length_singleton] at hfuel
    rw [text, List.cons_append, List.append_assoc, List.singleton_append, jsonize]
    exact readValue_bracket l fuel rest hv (by omega)
  | .dict [], fuel + 1, rest, _, _, _ => by
    rw [text, text.members]
    rfl
  | .dict (m :: ms), fuel + 1, rest, hv, hfuel, _ => by
    have hne : m :: ms ≠ [] := List.cons_ne_nil _ _
    rw [text, List.length_cons, List.length_append, List.length_singleton] at hfuel
    have hmembers := readMembers_text (m :: ms) fuel rest hne hv (by omega)
    have hopens := opens_members hne ('}' :: rest)
    rw [text, List.cons_append, List.append_assoc, List.singleton_append, readValue_dict hopens,
      hmembers, jsonize]
    rfl

/-- A list and a tuple have the same text, which reads back as a list. -/
theorem readValue_bracket : ∀ (l : List PyVal) (fuel : Nat) (rest : List Char),
    encodable.items l = true → (text.items l).length + 1 ≤ fuel →
      readValue reader (fuel + 1) ('[' :: (text.items l ++ ']' :: rest)) =
        some (.list (jsonize.items l), rest)
  | [], fuel, rest, _, _ => rfl
  | v :: l, fuel, rest, hl, hfuel => by
    have hne : v :: l ≠ [] := List.cons_ne_nil _ _
    have hitems := readItems_text (v :: l) fuel rest hne hl hfuel
    rw [readValue_list (opens_items hl hne _), hitems]
    rfl

/-- The items of a list read back, up to the bracket. -/
theorem readItems_text : ∀ (l : List PyVal) (fuel : Nat) (rest : List Char), l ≠ [] →
    encodable.items l = true → (text.items l).length + 1 ≤ fuel →
      readItems reader fuel (text.items l ++ ']' :: rest) = some (jsonize.items l, rest)
  | [], _, _, hne, _, _ => absurd rfl hne
  | _ :: _, 0, _, _, _, hfuel => by omega
  | v :: l, fuel + 1, rest, _, hl, hfuel => by
    obtain ⟨hv, hrest⟩ := encodable_items_cons hl
    rw [text_items_cons, List.length_append] at hfuel
    rw [text_items_cons, List.append_assoc, readItems]
    by_cases hnil : l = []
    · obtain rfl := hnil
      have hvalue := readValue_text v fuel (']' :: rest) hv (by omega)
        (delimited_cons (by decide))
      rw [if_pos rfl, List.nil_append, hvalue]
      rfl
    · rw [if_neg hnil] at hfuel ⊢
      simp only [List.length_cons] at hfuel
      have hvalue := readValue_text v fuel (',' :: ' ' :: text.items l ++ ']' :: rest) hv
        (by omega) (delimited_cons (by decide))
      have hitems := readItems_text l fuel rest hnil hrest (by omega)
      rw [hvalue]
      simp only [List.cons_append, skip_comma, skip_space,
        skip_eq_of_opens (opens_items hrest hnil _), hitems]
      rfl

/-- The entries of a dict read back, up to the brace. -/
theorem readMembers_text : ∀ (m : List (PyAtom × PyVal)) (fuel : Nat) (rest : List Char), m ≠ [] →
    encodable.members m = true → (text.members m).length + 1 ≤ fuel →
      readMembers reader fuel (text.members m ++ '}' :: rest) = some (jsonize.members m, rest)
  | [], _, _, hne, _, _ => absurd rfl hne
  | _ :: _, 0, _, _, _, hfuel => by omega
  | (k, v) :: m, fuel + 1, rest, _, hm, hfuel => by
    obtain ⟨-, hv, hrest⟩ := encodable_members_cons hm
    rw [text_members_cons, List.length_append, List.length_cons, List.length_cons,
      List.length_append] at hfuel
    rw [text_members_cons]
    simp only [List.append_assoc, List.cons_append]
    obtain ⟨body, hbody, hread⟩ := readStr_dumpStr ((keyStr k).getD []) (':' :: ' ' ::
      (text v ++ ((if m = [] then [] else ',' :: ' ' :: text.members m) ++ '}' :: rest)))
    rw [hbody, readMembers]
    simp only [hread, skip_colon, skip_space, skip_eq_of_opens (opens_append (opens_text hv) _)]
    by_cases hnil : m = []
    · obtain rfl := hnil
      have hvalue := readValue_text v fuel ('}' :: rest) hv (by omega)
        (delimited_cons (by decide))
      rw [if_pos rfl, List.nil_append, hvalue]
      rfl
    · rw [if_neg hnil] at hfuel ⊢
      simp only [List.length_cons] at hfuel
      have hvalue := readValue_text v fuel (',' :: ' ' :: text.members m ++ '}' :: rest) hv
        (by omega) (delimited_cons (by decide))
      have hmembers := readMembers_text m fuel rest hnil hrest (by omega)
      rw [hvalue]
      simp only [List.cons_append, skip_comma, skip_space,
        skip_eq_of_opens (opens_members hnil _), hmembers]
      rfl

end

/-- **Loading what was dumped** gives what the value becomes. -/
theorem load_text {v : PyVal} (h : encodable v = true) :
    load reader (text v) = some (jsonize v) := by
  have hskip : JsonText.skip (text v) = text v := skip_eq_of_opens (opens_text h)
  have hvalue := @readValue_text reader v (text v).length [] h le_rfl JsonText.delimited_nil
  rw [List.append_nil] at hvalue
  simp only [load, hskip, hvalue]
  rfl

/-! ## What is written -/

/-- How a dump ends. -/
def dumpResult (encodable : Bool) : Except String Unit :=
  if encodable then .ok ⟨⟩ else .error "TypeError"

/-- An item: what stands before it and its own text are written, in one chunk
or in several, and then the other items, if the item has a text. -/
theorem items_cons (before : List Char) (v : PyVal) (l : List PyVal) :
    ∃ chunks, chunks.flatten = before ++ (iterencode v).trace.flatten ∧
      iterencode.items before (v :: l) =
        (⟨chunks, (iterencode v).result⟩ >>= fun _ => iterencode.items [',', ' '] l) := by
  cases v with
  | atom a =>
    cases ha : atomText a with
    | some t =>
      refine ⟨[before ++ t], ?_, ?_⟩
      · simp only [iterencode, ha, Traced.emit_eq]
        simp
      · simp only [iterencode.items, iterencode, ha, Traced.emit_eq]
    | none =>
      refine ⟨[before], ?_, ?_⟩
      · simp only [iterencode, ha, Traced.raise_eq]
        simp
      · simp only [iterencode.items, iterencode, ha, Traced.emit_eq, Traced.raise_eq,
          Traced.bind_ok, Traced.bind_error]
        rfl
  | list l' =>
    refine ⟨before :: (iterencode (.list l')).trace, by simp, ?_⟩
    simp only [iterencode.items, Traced.emit_bind]
  | tuple l' =>
    refine ⟨before :: (iterencode (.tuple l')).trace, by simp, ?_⟩
    simp only [iterencode.items, Traced.emit_bind]
  | dict m =>
    refine ⟨before :: (iterencode (.dict m)).trace, by simp, ?_⟩
    simp only [iterencode.items, Traced.emit_bind]

/-- An entry likewise, if its key is rendered. -/
theorem members_cons (before : List Char) {k : PyAtom} {s : PyStr} (hk : keyStr k = some s)
    (v : PyVal) (m : List (PyAtom × PyVal)) :
    ∃ chunks, chunks.flatten =
        before ++ dumpStr s ++ ':' :: ' ' :: (iterencode v).trace.flatten ∧
      iterencode.members before ((k, v) :: m) =
        (⟨chunks, (iterencode v).result⟩ >>= fun _ => iterencode.members [',', ' '] m) := by
  refine ⟨(if before.isEmpty then [] else [before]) ++
    dumpStr s :: [':', ' '] :: (iterencode v).trace, ?_, ?_⟩
  · cases before <;> simp
  · simp only [iterencode.members, hk, Traced.emit_bind]
    cases before with
    | nil => rfl
    | cons c before => rfl

/-- A dump after a dump. -/
theorem bind_result {first next : Traced (List Char) String Unit} {b b' : Bool}
    (hb : first.result = dumpResult b) (hb' : next.result = dumpResult b') :
    (first >>= fun _ => next).result = dumpResult (b && b') := by
  obtain ⟨trace, result⟩ := first
  obtain rfl : result = dumpResult b := hb
  cases b with
  | true => exact hb'
  | false => rfl

theorem bind_trace {result : Except String Unit} (h : result = dumpResult true)
    (trace : List (List Char)) (next : Traced (List Char) String Unit) :
    ((⟨trace, result⟩ : Traced (List Char) String Unit) >>= fun _ => next).trace.flatten =
      trace.flatten ++ next.trace.flatten := by
  obtain rfl : result = dumpResult true := h
  exact List.flatten_append

mutual

/-- **What a dump writes**: all of the text of an encodable value, and for any
other value a part of something and then an exception. By recursion on the
value. -/
theorem iterencode_spec : ∀ v : PyVal,
    (iterencode v).result = dumpResult (encodable v) ∧
      (encodable v = true → (iterencode v).trace.flatten = text v)
  | .atom a => by
    cases ha : atomText a with
    | some t => simp [iterencode, ha, encodable, text, dumpResult]
    | none => simp [iterencode, ha, encodable, dumpResult]
  | .list [] => ⟨rfl, fun _ => rfl⟩
  | .list (v :: l) => by
    obtain ⟨hresult, hflat⟩ := items_spec (v :: l) ['[']
    rw [iterencode, encodable, ← Bool.and_true (encodable.items _)]
    refine ⟨bind_result hresult rfl, fun h => ?_⟩
    rw [Bool.and_true] at h
    rw [h] at hresult
    rw [bind_trace hresult, hflat h, if_neg (List.cons_ne_nil _ _), text]
    simp
  | .tuple [] => ⟨rfl, fun _ => rfl⟩
  | .tuple (v :: l) => by
    obtain ⟨hresult, hflat⟩ := items_spec (v :: l) ['[']
    rw [iterencode, encodable, ← Bool.and_true (encodable.items _)]
    refine ⟨bind_result hresult rfl, fun h => ?_⟩
    rw [Bool.and_true] at h
    rw [h] at hresult
    rw [bind_trace hresult, hflat h, if_neg (List.cons_ne_nil _ _), text]
    simp
  | .dict [] => ⟨rfl, fun _ => rfl⟩
  | .dict (m :: ms) => by
    obtain ⟨hresult, hflat⟩ := members_spec (m :: ms) []
    rw [iterencode, encodable, ← Bool.and_true (encodable.members _), Traced.emit_bind]
    refine ⟨bind_result hresult rfl, fun h => ?_⟩
    rw [Bool.and_true] at h
    rw [h] at hresult
    rw [bind_trace hresult, List.flatten_cons, hflat h, if_neg (List.cons_ne_nil _ _), text]
    simp

theorem items_spec : ∀ (l : List PyVal) (before : List Char),
    (iterencode.items before l).result = dumpResult (encodable.items l) ∧
      (encodable.items l = true → (iterencode.items before l).trace.flatten =
        if l = [] then [] else before ++ text.items l)
  | [], _ => ⟨rfl, fun _ => rfl⟩
  | v :: l, before => by
    obtain ⟨hv, hvtext⟩ := iterencode_spec v
    obtain ⟨hl, hltext⟩ := items_spec l [',', ' ']
    obtain ⟨chunks, hchunks, hitems⟩ := items_cons before v l
    rw [hitems, encodable.items]
    refine ⟨bind_result hv hl, fun h => ?_⟩
    obtain ⟨hev, hel⟩ := (Bool.and_eq_true _ _).mp h
    rw [hev] at hv
    rw [bind_trace hv, hchunks, hvtext hev, hltext hel, if_neg (List.cons_ne_nil _ _),
      text_items_cons, List.append_assoc]
    rfl

theorem members_spec : ∀ (m : List (PyAtom × PyVal)) (before : List Char),
    (iterencode.members before m).result = dumpResult (encodable.members m) ∧
      (encodable.members m = true → (iterencode.members before m).trace.flatten =
        if m = [] then [] else before ++ text.members m)
  | [], _ => ⟨rfl, fun _ => rfl⟩
  | (k, v) :: m, before => by
    obtain ⟨hv, hvtext⟩ := iterencode_spec v
    obtain ⟨hm, hmtext⟩ := members_spec m [',', ' ']
    rw [encodable.members]
    cases hk : keyStr k with
    | none =>
      simp only [iterencode.members, hk, Traced.raise_eq]
      exact ⟨rfl, fun h => by cases h⟩
    | some s =>
      obtain ⟨chunks, hchunks, hmembers⟩ := members_cons before hk v m
      rw [hmembers, Option.isSome_some, Bool.true_and]
      refine ⟨bind_result hv hm, fun h => ?_⟩
      obtain ⟨hev, hem⟩ := (Bool.and_eq_true _ _).mp h
      rw [hev] at hv
      rw [bind_trace hv, hchunks, hvtext hev, hmtext hem, if_neg (List.cons_ne_nil _ _),
        text_members_cons, hk]
      simp

end

end PyJson

end KgaGateway
