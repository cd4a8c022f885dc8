import Mathlib.Data.List.DropRight
import Mathlib.Data.List.Basic
import Mathlib.Data.List.TakeWhile

/-!
# Text: the string operations of the modelled language

Python's `str` methods as functions on `String`, each one a function on the
list of characters underneath: `split` at a separator, whitespace `words`,
`strip`, `partition`, `lower`, `upper` and `repr`.

Everything about a separator follows from one case analysis, `cut_cases`: a
string either has none or is a separator-free head, the separator, and the
rest. `split` and `partition` compute on both forms.
-/

namespace KgaGateway

namespace Text

/-! ## Characters -/

/-- The characters `str.isspace` accepts, which `strip` and `split` without a
separator work with. -/
def isSpace (c : Char) : Bool :=
  let n := c.toNat
  (9 ≤ n && n ≤ 13) || (28 ≤ n && n ≤ 32) || n == 0x85 || n == 0xA0 || n == 0x1680 ||
    (0x2000 ≤ n && n ≤ 0x200A) || n == 0x2028 || n == 0x2029 || n == 0x202F ||
    n == 0x205F || n == 0x3000

/-- Lower case, exact on Latin-1 text (which is what a header decodes to). -/
def lowerChar (c : Char) : Char :=
  let n := c.toNat
  if (65 ≤ n && n ≤ 90) || (0xC0 ≤ n && n ≤ 0xDE && n != 0xD7) then Char.ofNat (n + 32) else c

/-- Upper case, exact for comparisons with ASCII names: besides `a`–`z`, the
dotless `ı` and the long `ſ` are the characters with an ASCII upper case. -/
def upperChar (c : Char) : Char :=
  let n := c.toNat
  if 97 ≤ n && n ≤ 122 then Char.ofNat (n - 32)
  else if n == 0x131 then 'I'
  else if n == 0x17F then 'S'
  else c

/-! ## Strings -/

/-- `s.split(sep)` for a one-character separator. -/
def split (sep : Char) (s : String) : List String :=
  (s.toList.splitOn sep).map String.ofList

/-- `s.strip()`. -/
def strip (s : String) : String :=
  String.ofList ((s.toList.dropWhile isSpace).rdropWhile isSpace)

/-- `s.split()`: the whitespace-separated words. -/
def words (s : String) : List String :=
  ((s.toList.splitOnP isSpace).filter (fun w => !w.isEmpty)).map String.ofList

/-- `s.partition(sep)`: the text before the first separator, the separator,
and the text after it; the last two are empty when there is no separator. -/
def partition (sep : Char) (s : String) : String × String × String :=
  match s.toList.dropWhile (· != sep) with
  | [] => (s, "", "")
  | c :: after =>
    (String.ofList (s.toList.takeWhile (· != sep)), String.ofList [c], String.ofList after)

/-- `s.lower()`. -/
def lower (s : String) : String := String.ofList (s.toList.map lowerChar)

/-- `s.upper()`. -/
def upper (s : String) : String := String.ofList (s.toList.map upperChar)

/-- `s.rstrip(c)` for one character. -/
def rstrip (c : Char) (s : String) : String := String.ofList (s.toList.rdropWhile (· == c))

/-- `needle in s`. -/
def contains (s needle : String) : Bool := s.toList.tails.any (needle.toList.isPrefixOf ·)

/-- A byte, percent-encoded. -/
def quoteByte (b : UInt8) : List Char :=
  ['%', (Nat.digitChar (b.toNat / 16)).toUpper, (Nat.digitChar (b.toNat % 16)).toUpper]

/-- `urllib.parse.quote(s, safe)`. -/
def quote (safe : List Char) (s : String) : String :=
  String.ofList (s.toList.flatMap fun c =>
    if c.isAlphanum || ['_', '.', '-', '~'].contains c || safe.contains c then [c]
    else (String.utf8EncodeChar c).flatMap quoteByte)

example : quote ['/'] "a b/é" = "a%20b/%C3%A9" := by decide

/-- Does the text have a Latin-1 encoding? -/
def isLatin1 (s : String) : Bool := s.toList.all fun c => c.toNat < 256

/-! ## Cutting at a separator -/

/-- A string without the separator is its own only piece. -/
theorem split_eq_singleton {sep : Char} {s : String} (h : sep ∉ s.toList) :
    split sep s = [s] := by
  rw [split, List.splitOn_eq_singleton h]
  simp

/-- The first piece is the text before the first separator. -/
theorem split_append {sep : Char} {s : String} (h : sep ∉ s.toList) (t : String) :
    split sep (s ++ String.ofList [sep] ++ t) = s :: split sep t := by
  have hlist : (s ++ String.ofList [sep] ++ t).toList = s.toList ++ sep :: t.toList := by simp
  rw [split, hlist, List.splitOn_append_cons_self_of_not_mem h]
  simp [split]

/-- Every string either has no separator or is cut at its first one. -/
theorem cut_cases (sep : Char) (s : String) :
    sep ∉ s.toList ∨ ∃ before after : String,
      sep ∉ before.toList ∧ s = before ++ String.ofList [sep] ++ after := by
  by_cases h : sep ∈ s.toList
  · obtain ⟨l₁, l₂, hl, hnot⟩ := List.eq_append_cons_of_mem h
    refine Or.inr ⟨String.ofList l₁, String.ofList l₂, ?_, ?_⟩
    · rwa [String.toList_ofList]
    · rw [← String.toList_inj, hl]
      simp
  · exact Or.inl h

/-- Joining pieces without the separator and splitting gives the pieces back. -/
theorem split_intercalate {sep : Char} {pieces : List String}
    (h : ∀ piece ∈ pieces, sep ∉ piece.toList) (hne : pieces ≠ []) :
    split sep ((String.ofList [sep]).intercalate pieces) = pieces := by
  induction pieces with
  | nil => exact absurd rfl hne
  | cons piece rest ih =>
    have hpiece : sep ∉ piece.toList := h piece (List.mem_cons_self ..)
    cases rest with
    | nil => rw [String.intercalate_singleton, split_eq_singleton hpiece]
    | cons next rest =>
      rw [String.intercalate_cons_cons, split_append hpiece,
        ih (fun p hp => h p (List.mem_cons_of_mem _ hp)) (List.cons_ne_nil _ _)]

/-- No piece has the separator in it. By induction on the length: what is left
after the first separator is shorter. -/
theorem not_mem_of_mem_split {sep : Char} {s piece : String} (h : piece ∈ split sep s) :
    sep ∉ piece.toList := by
  induction hn : s.length using Nat.strong_induction_on generalizing s with
  | _ n ih =>
    rcases cut_cases sep s with hs | ⟨before, after, hbefore, rfl⟩
    · rw [split_eq_singleton hs, List.mem_singleton] at h
      rwa [h]
    · rw [split_append hbefore, List.mem_cons] at h
      rcases h with rfl | h
      · exact hbefore
      · refine ih after.length ?_ h rfl
        rw [← hn]
        simp

theorem bne_of_not_mem {sep : Char} {l : List Char} (h : sep ∉ l) :
    ∀ c ∈ l, (c != sep) = true := by
  intro c hc
  rw [bne_iff_ne]
  rintro rfl
  exact h hc

theorem partition_append {sep : Char} {s : String} (h : sep ∉ s.toList) (t : String) :
    partition sep (s ++ String.ofList [sep] ++ t) = (s, String.ofList [sep], t) := by
  have hlist : (s ++ String.ofList [sep] ++ t).toList = s.toList ++ sep :: t.toList := by simp
  have hp := bne_of_not_mem h
  rw [partition, hlist, List.dropWhile_append_of_pos hp, List.takeWhile_append_of_pos hp]
  simp

theorem partition_of_not_mem {sep : Char} {s : String} (h : sep ∉ s.toList) :
    partition sep s = (s, "", "") := by
  have hdrop : s.toList.dropWhile (· != sep) = [] :=
    List.dropWhile_eq_nil_iff.mpr (bne_of_not_mem h)
  rw [partition, hdrop]

/-- The first part is all of the text, or what is cut off starts with the
separator. -/
theorem partition_cases (sep : Char) (s : String) :
    (sep ∉ s.toList ∧ partition sep s = (s, "", "")) ∨
      ∃ before after : String, s = before ++ String.ofList [sep] ++ after ∧
        partition sep s = (before, String.ofList [sep], after) := by
  rcases cut_cases sep s with h | ⟨before, after, h, rfl⟩
  · exact Or.inl ⟨h, partition_of_not_mem h⟩
  · exact Or.inr ⟨before, after, rfl, partition_append h after⟩

/-- A text without the separator goes into the first part. -/
theorem partition_append_left {sep : Char} {a : String} (h : sep ∉ a.toList) (s : String) :
    partition sep (a ++ s) = (a ++ (partition sep s).1, (partition sep s).2) := by
  rcases cut_cases sep s with hs | ⟨before, after, hs, rfl⟩
  · rw [partition_of_not_mem hs, partition_of_not_mem (by simp [h, hs])]
  · rw [partition_append hs, ← String.append_assoc, ← String.append_assoc,
      partition_append (by simp [h, hs])]

/-! ## Stripping -/

/-- A string strips to nothing exactly when it is all whitespace. -/
theorem strip_eq_empty_iff (s : String) : strip s = "" ↔ ∀ c ∈ s.toList, isSpace c = true := by
  rw [strip, ← String.toList_inj, String.toList_ofList, String.toList_empty,
    List.rdropWhile_eq_nil_iff]
  constructor
  · intro h c hc
    rw [← List.takeWhile_append_dropWhile (p := isSpace) (l := s.toList)] at hc
    rcases List.mem_append.mp hc with hc | hc
    · exact List.mem_takeWhile_imp hc
    · exact h c hc
  · intro h c hc
    exact h c ((List.dropWhile_suffix isSpace).subset hc)

/-- No whitespace at either end. -/
def Trimmed (s : String) : Prop :=
  (∀ c ∈ s.toList.head?, isSpace c = false) ∧ ∀ c ∈ s.toList.getLast?, isSpace c = false

instance (s : String) : Decidable (Trimmed s) :=
  @instDecidableAnd _ _ (Option.decidableForallMem _) (Option.decidableForallMem _)

/-- All whitespace, possibly empty. -/
def Blank (s : String) : Prop := ∀ c ∈ s.toList, isSpace c = true

instance (s : String) : Decidable (Blank s) := List.decidableBAll _ _

/-- Stripping removes the padding of a trimmed text and nothing of the text. -/
theorem strip_padded {before s after : String} (hb : Blank before) (ha : Blank after)
    (hs : Trimmed s) (hne : s ≠ "") : strip (before ++ s ++ after) = s := by
  obtain ⟨hfirst, hlast⟩ := hs
  have hl : s.toList ≠ [] := fun h => hne (String.toList_inj.mp h)
  have hfront : (s.toList ++ after.toList).dropWhile isSpace = s.toList ++ after.toList := by
    obtain ⟨c, l, hc⟩ := List.exists_cons_of_ne_nil hl
    rw [hc] at hfirst ⊢
    exact List.dropWhile_cons_of_neg (by simp [hfirst c rfl])
  have hback : s.toList.reverse.dropWhile isSpace = s.toList.reverse := by
    obtain ⟨c, l, hc⟩ := List.exists_cons_of_ne_nil (List.reverse_ne_nil_iff.mpr hl)
    have hc' : c ∈ s.toList.getLast? := by
      rw [← List.head?_reverse, hc]
      rfl
    rw [hc]
    exact List.dropWhile_cons_of_neg (by simp [hlast c hc'])
  rw [strip, String.toList_append, String.toList_append, List.append_assoc,
    List.dropWhile_append_of_pos hb, hfront, List.rdropWhile, List.reverse_append,
    List.dropWhile_append_of_pos (fun c hc => ha c (List.mem_reverse.mp hc)), hback,
    List.reverse_reverse, String.ofList_toList]

/-- What stripping leaves is trimmed. -/
theorem trimmed_strip (s : String) : Trimmed (strip s) := by
  rw [Trimmed, strip, String.toList_ofList]
  constructor
  · intro c hc
    obtain ⟨l, hl⟩ : ∃ l, (s.toList.dropWhile isSpace).rdropWhile isSpace = c :: l :=
      List.head?_eq_some_iff.mp hc
    obtain ⟨t, ht⟩ := List.rdropWhile_prefix isSpace (s.toList.dropWhile isSpace)
    rw [hl, List.cons_append] at ht
    have hhead : (s.toList.dropWhile isSpace).head? = some c := by
      rw [← ht]
      rfl
    simpa [hhead] using List.head?_dropWhile_not isSpace s.toList
  · intro c hc
    obtain ⟨hne, rfl⟩ := List.mem_getLast?_eq_getLast hc
    simpa using List.rdropWhile_last_not isSpace _ hne

theorem strip_subset (s : String) : (strip s).toList ⊆ s.toList := by
  rw [strip, String.toList_ofList]
  have hback := (List.rdropWhile_prefix isSpace (s.toList.dropWhile isSpace)).subset
  exact List.Subset.trans hback (List.dropWhile_suffix isSpace).subset

theorem not_trimmed_of_blank {s : String} (hne : s ≠ "") (h : Blank s) : ¬ Trimmed s := by
  obtain ⟨c, l, hc⟩ := List.exists_cons_of_ne_nil fun hl => hne (String.toList_inj.mp hl)
  intro htrim
  have hspace := h c (by rw [hc]; exact List.mem_cons_self ..)
  rw [htrim.1 c (by rw [hc]; rfl)] at hspace
  cases hspace

theorem isLatin1_append (s t : String) : isLatin1 (s ++ t) = (isLatin1 s && isLatin1 t) := by
  simp [isLatin1]

theorem toNat_lt_of_isAlphanum {c : Char} (h : c.isAlphanum = true) : c.toNat < 256 := by
  have hranges : c.isAlphanum = (decide ('A'.val ≤ c.val ∧ c.val ≤ 'Z'.val) ||
      (decide ('a'.val ≤ c.val) && decide (c.val ≤ 'z'.val)) ||
      (decide ('0'.val ≤ c.val) && decide (c.val ≤ '9'.val))) := rfl
  simp only [hranges, Bool.or_eq_true, Bool.and_eq_true, decide_eq_true_eq,
    UInt32.le_iff_toNat_le] at h
  have hc : c.toNat = c.val.toNat := rfl
  have hZ : 'Z'.val.toNat = 90 := rfl
  have hz : 'z'.val.toNat = 122 := rfl
  have h9 : '9'.val.toNat = 57 := rfl
  omega

/-- A quoted text is Latin-1, if the characters left alone are. -/
theorem isLatin1_quote {safe : List Char} (h : ∀ c ∈ safe, c.toNat < 256) (s : String) :
    isLatin1 (quote safe s) = true := by
  have hdigit : ∀ n : Fin 16, (Nat.digitChar n).toUpper.toNat < 256 := by decide
  simp only [isLatin1, quote, String.toList_ofList, List.all_flatMap, List.all_eq_true,
    decide_eq_true_eq]
  intro c _ d hd
  split at hd
  · rename_i hc
    obtain rfl := List.mem_singleton.mp hd
    have hplain : ∀ d ∈ ['_', '.', '-', '~'], d.toNat < 256 := by simp
    simp only [Bool.or_eq_true, List.contains_iff_mem] at hc
    rcases hc with (hc | hc) | hc
    · exact toNat_lt_of_isAlphanum hc
    · exact hplain d hc
    · exact h d hc
  · obtain ⟨b, -, hb⟩ := List.mem_flatMap.mp hd
    have hhigh := hdigit ⟨b.toNat / 16, by have := b.toNat_lt; omega⟩
    have hlow := hdigit ⟨b.toNat % 16, by omega⟩
    simp only [quoteByte, List.mem_cons, List.not_mem_nil, or_false] at hb
    rcases hb with rfl | rfl | rfl
    · decide
    · exact hhigh
    · exact hlow

/-- A string of whitespace has no words. -/
theorem words_eq_nil {s : String} (h : ∀ c ∈ s.toList, isSpace c = true) : words s = [] := by
  have hpieces : ∀ l : List Char, (∀ c ∈ l, isSpace c = true) →
      (l.splitOnP isSpace).filter (fun w => !w.isEmpty) = [] := by
    intro l hl
    induction l with
    | nil => simp
    | cons c l ih =>
      rw [List.splitOnP_cons_eq_if_modifyHead, if_pos (hl c (List.mem_cons_self ..)),
        List.filter_cons_of_neg (by simp)]
      exact ih fun d hd => hl d (List.mem_cons_of_mem _ hd)
  rw [words, hpieces _ h, List.map_nil]

end Text

end KgaGateway
