import KgaGateway.Lib.Json

/-!
# Values of the modelled language

`Json` is what a document loads to. This is what a program may hand to the JSON
module: dicts with keys of any hashable kind, tuples, objects that JSON has no
text for, strings that need not be text (a surrogate can stand alone) and
floats that are objects, which matters for `nan`.

`PyVal.eq` is `==` as containers use it: an object is equal to itself, a `nan`
to no other object, numbers compare across their types, and dicts compare
without regard to order. How an integer compares with a float is a parameter.
-/

namespace KgaGateway

/-! ## Strings -/

/-- A code point. Unlike a `Char` it can be a surrogate. -/
abbrev CodePoint : Type := Fin 0x110000

/-- The code point with this number. -/
def CodePoint.ofNat (n : ℕ) : CodePoint := ⟨n % 0x110000, Nat.mod_lt n (by decide)⟩

@[simp] theorem CodePoint.val_ofNat (n : ℕ) : (CodePoint.ofNat n).val = n % 0x110000 := rfl

/-- A string of the modelled language. -/
abbrev PyStr : Type := List CodePoint

namespace PyStr

/-- The first half of a surrogate pair. -/
def isHigh (c : CodePoint) : Bool := decide (0xD800 ≤ c.val ∧ c.val < 0xDC00)

/-- The second half. -/
def isLow (c : CodePoint) : Bool := decide (0xDC00 ≤ c.val ∧ c.val ≤ 0xDFFF)

/-- The code point of a pair. -/
def join (high low : CodePoint) : CodePoint :=
  CodePoint.ofNat (0x10000 + (high.val - 0xD800) * 0x400 + (low.val - 0xDC00))

/-- The code point of a character. -/
def ofChar (c : Char) : CodePoint := CodePoint.ofNat c.toNat

/-- The code points of a text. -/
def ofText (l : List Char) : PyStr := l.map ofChar

/-- The string with its surrogate pairs joined. -/
def joinPairs : PyStr → PyStr
  | high :: low :: rest =>
    if isHigh high && isLow low then join high low :: joinPairs rest
    else high :: joinPairs (low :: rest)
  | [c] => [c]
  | [] => []

/-- Two halves of a pair stand next to each other. -/
def HasPair (s : PyStr) : Prop :=
  ∃ before high low after, s = before ++ high :: low :: after ∧ isHigh high = true ∧
    isLow low = true

/-- Two code points that are no pair, or are not there. -/
theorem joinPairs_cons {c : CodePoint} {rest : PyStr}
    (h : isHigh c = true → ∀ d ∈ rest.head?, isLow d = false) :
    joinPairs (c :: rest) = c :: joinPairs rest := by
  cases rest with
  | nil => rfl
  | cons d rest =>
    rw [joinPairs, if_neg]
    intro hpair
    obtain ⟨hc, hd⟩ := (Bool.and_eq_true _ _).mp hpair
    rw [h hc d rfl] at hd
    cases hd

theorem joinPairs_pair {high low : CodePoint} (hh : isHigh high = true) (hl : isLow low = true)
    (rest : PyStr) : joinPairs (high :: low :: rest) = join high low :: joinPairs rest := by
  rw [joinPairs, if_pos (by rw [hh, hl]; rfl)]

/-- A string starts with a pair, or with a code point that stays. -/
theorem pair_cases (c : CodePoint) (rest : PyStr) :
    (∃ low rest', rest = low :: rest' ∧ isHigh c = true ∧ isLow low = true) ∨
      (isHigh c = true → ∀ d ∈ rest.head?, isLow d = false) := by
  by_cases hc : isHigh c = true
  · cases rest with
    | nil => exact Or.inr fun _ d hd => by cases hd
    | cons d rest =>
      cases hd : isLow d with
      | true => exact Or.inl ⟨d, rest, rfl, hc, hd⟩
      | false =>
        refine Or.inr fun _ e he => ?_
        obtain rfl : d = e := by simpa using he
        exact hd
  · exact Or.inr fun h => absurd h hc

/-- Induction along the pairs of a string. -/
theorem pair_induction {motive : PyStr → Prop} (nil : motive [])
    (pair : ∀ high low rest, isHigh high = true → isLow low = true → motive rest →
      motive (high :: low :: rest))
    (single : ∀ c rest, (isHigh c = true → ∀ d ∈ rest.head?, isLow d = false) → motive rest →
      motive (c :: rest))
    (s : PyStr) : motive s := by
  induction hn : s.length using Nat.strong_induction_on generalizing s with
  | _ n ih =>
    cases s with
    | nil => exact nil
    | cons c rest =>
      simp only [List.length_cons] at hn
      rcases pair_cases c rest with ⟨low, rest', rfl, hc, hlow⟩ | hsingle
      · simp only [List.length_cons] at hn
        exact pair c low rest' hc hlow (ih rest'.length (by omega) rest' rfl)
      · exact single c rest hsingle (ih rest.length (by omega) rest rfl)

theorem length_joinPairs_le (s : PyStr) : (joinPairs s).length ≤ s.length := by
  induction s using pair_induction with
  | nil => exact le_refl _
  | pair high low rest hh hl ih =>
    rw [joinPairs_pair hh hl]
    simp only [List.length_cons]
    omega
  | single c rest h ih =>
    rw [joinPairs_cons h]
    simp only [List.length_cons]
    omega

theorem hasPair_cons {c : CodePoint} {rest : PyStr}
    (h : isHigh c = true → ∀ d ∈ rest.head?, isLow d = false) :
    HasPair (c :: rest) ↔ HasPair rest := by
  constructor
  · rintro ⟨before, high, low, after, heq, hh, hl⟩
    cases before with
    | nil =>
      obtain ⟨rfl, rfl⟩ := List.cons.inj heq
      rw [h hh low rfl] at hl
      cases hl
    | cons x before =>
      obtain ⟨-, rfl⟩ := List.cons.inj heq
      exact ⟨before, high, low, after, rfl, hh, hl⟩
  · rintro ⟨before, high, low, after, rfl, hh, hl⟩
    exact ⟨c :: before, high, low, after, rfl, hh, hl⟩

/-- **Joining shortens a string that has a pair, and leaves any other as it
is.** -/
theorem joinPairs_cases (s : PyStr) :
    (¬ HasPair s ∧ joinPairs s = s) ∨ (HasPair s ∧ (joinPairs s).length < s.length) := by
  induction s using pair_induction with
  | nil =>
    refine Or.inl ⟨?_, rfl⟩
    rintro ⟨before, high, low, after, heq, -⟩
    simp at heq
  | pair high low rest hh hl ih =>
    refine Or.inr ⟨⟨[], high, low, rest, rfl, hh, hl⟩, ?_⟩
    have := length_joinPairs_le rest
    rw [joinPairs_pair hh hl]
    simp only [List.length_cons]
    omega
  | single c rest h ih =>
    rw [joinPairs_cons h, hasPair_cons h]
    rcases ih with ⟨hno, heq⟩ | ⟨hpair, hlt⟩
    · exact Or.inl ⟨hno, by rw [heq]⟩
    · exact Or.inr ⟨hpair, by simpa using hlt⟩

theorem joinPairs_eq_self_iff {s : PyStr} : joinPairs s = s ↔ ¬ HasPair s := by
  rcases joinPairs_cases s with ⟨hno, heq⟩ | ⟨hpair, hlt⟩
  · exact iff_of_true heq hno
  · refine iff_of_false (fun heq => ?_) (not_not.mpr hpair)
    rw [heq] at hlt
    exact lt_irrefl _ hlt

theorem val_ofChar (c : Char) : (ofChar c).val = c.toNat := by
  have hvalid : c.toNat < 0xD800 ∨ (0xDFFF < c.toNat ∧ c.toNat < 0x110000) := c.valid
  exact Nat.mod_eq_of_lt (by omega)

/-- A text has no surrogates. -/
theorem isHigh_ofChar (c : Char) : isHigh (ofChar c) = false := by
  have hvalid : c.toNat < 0xD800 ∨ (0xDFFF < c.toNat ∧ c.toNat < 0x110000) := c.valid
  simp only [isHigh, val_ofChar, decide_eq_false_iff_not]
  omega

theorem isLow_ofChar (c : Char) : isLow (ofChar c) = false := by
  have hvalid : c.toNat < 0xD800 ∨ (0xDFFF < c.toNat ∧ c.toNat < 0x110000) := c.valid
  simp only [isLow, val_ofChar, decide_eq_false_iff_not]
  omega

theorem joinPairs_ofText (l : List Char) : joinPairs (ofText l) = ofText l := by
  apply joinPairs_eq_self_iff.mpr
  rintro ⟨before, high, low, after, heq, hh, -⟩
  have hmem : high ∈ ofText l := by
    rw [heq]
    simp
  obtain ⟨c, -, rfl⟩ := List.mem_map.mp hmem
  rw [isHigh_ofChar] at hh
  cases hh

end PyStr

/-! ## Values -/

/-- A value that holds no others. -/
inductive PyAtom : Type where
  | none : PyAtom
  | bool : Bool → PyAtom
  | int : Int → PyAtom
  /-- a float and the object it is; a `nan` that the JSON module makes is
  object `0` -/
  | float : PyFloat → ℕ → PyAtom
  | str : PyStr → PyAtom
  /-- anything JSON has no text for -/
  | other : ℕ → PyAtom
  deriving DecidableEq

/-- A value. The keys of a dict are atoms; a key that holds others, a tuple, is
an `other`. -/
inductive PyVal : Type where
  | atom : PyAtom → PyVal
  | list : List PyVal → PyVal
  | tuple : List PyVal → PyVal
  | dict : List (PyAtom × PyVal) → PyVal

/-! ## Equality -/

/-- `x is y or x == y` on floats: both zeros are equal, a `nan` is equal to
itself only. -/
def PyFloat.same (x : PyFloat) (i : ℕ) (y : PyFloat) (j : ℕ) : Bool :=
  if x.text == "nan" || y.text == "nan" then x.text == y.text && i == j
  else x == y || (["0.0", "-0.0"].contains x.text && ["0.0", "-0.0"].contains y.text)

/-- A boolean is an integer. -/
def PyAtom.asInt : PyAtom → Option Int
  | bool b => some b.toInt
  | int n => some n
  | _ => Option.none

section Equality

variable (numEq : Int → PyFloat → Bool)

/-- `x is y or x == y` on atoms. -/
def PyAtom.eq : PyAtom → PyAtom → Bool
  | none, none => true
  | str s, str t => s == t
  | other i, other j => i == j
  | float x i, float y j => x.same i y j
  | float x _, b => b.asInt.any fun n => numEq n x
  | a, float y _ => a.asInt.any fun n => numEq n y
  | a, b => a.asInt.isSome && a.asInt == b.asInt

/-- `d.get(key)`. -/
def PyVal.lookup (m : List (PyAtom × PyVal)) (key : PyAtom) : Option PyVal :=
  (m.find? fun p => p.1.eq numEq key).map Prod.snd

/-- `x is y or x == y`. -/
def PyVal.eq : PyVal → PyVal → Bool
  | atom a, atom b => a.eq numEq b
  | list l, list l' => items l l'
  | tuple l, tuple l' => items l l'
  | dict m, dict m' => m.length == m'.length && members m m'
  | _, _ => false
where
  /-- the items, one by one -/
  items : List PyVal → List PyVal → Bool
    | [], [] => true
    | v :: l, v' :: l' => v.eq v' && items l l'
    | _, _ => false
  /-- the entries of the first dict, looked up in the second -/
  members : List (PyAtom × PyVal) → List (PyAtom × PyVal) → Bool
    | [], _ => true
    | (k, v) :: m, m' =>
      (match lookup numEq m' k with
        | some v' => v.eq v'
        | Option.none => false) && members m m'

/-- All dicts have distinct keys. -/
def PyVal.DistinctKeys : PyVal → Prop
  | atom _ => True
  | list l => items l
  | tuple l => items l
  | dict m => (m.map Prod.fst).Pairwise (fun a b => a.eq numEq b = false) ∧ members m
where
  /-- the items of a list -/
  items : List PyVal → Prop
    | [] => True
    | v :: l => v.DistinctKeys ∧ items l
  /-- the entries of a dict -/
  members : List (PyAtom × PyVal) → Prop
    | [] => True
    | (_, v) :: m => v.DistinctKeys ∧ members m

/-- A dict; it and all dicts in it have distinct keys. -/
structure PyDict : Type where
  entries : List (PyAtom × PyVal)
  distinct : (PyVal.dict entries).DistinctKeys numEq

end Equality

/-- The dict as a value. -/
def PyDict.val {numEq : Int → PyFloat → Bool} (d : PyDict numEq) : PyVal := .dict d.entries

end KgaGateway
