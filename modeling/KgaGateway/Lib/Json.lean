import KgaGateway.Lib.Text

/-!
# JSON values as the modelled language holds them

`Json` is what a JSON document is once it is loaded: `None`, booleans,
integers, floats, strings, lists and string-keyed dicts. `str` is the built-in
rendering (`str(x)`), `repr` the one it uses inside containers.

A float is carried as the text of its `repr`, the shortest decimal that reads
back as the same number; nothing here computes with floats. The one thing
`repr` of a string needs from outside is which characters are printable, so
that is a parameter.
-/

namespace KgaGateway

/-! ## Floats -/

namespace FloatText

/-- `e+16`, `e-07`: what an exponent looks like. -/
def isExponent : List Char → Bool
  | 'e' :: sign :: digits =>
    (sign == '+' || sign == '-') && !digits.isEmpty && digits.all Char.isDigit
  | _ => false

/-- `.5`, `.5e-07`, `e+16`: what may follow the integer digits; something must. -/
def isFraction : List Char → Bool
  | '.' :: rest =>
    !(rest.takeWhile Char.isDigit).isEmpty &&
      (rest.dropWhile Char.isDigit == [] || isExponent (rest.dropWhile Char.isDigit))
  | rest => isExponent rest

/-- `0`, `12`: integer digits, without leading zeros. -/
def isInteger (digits : List Char) : Bool :=
  digits == ['0'] || (!digits.isEmpty && digits.head? != some '0')

/-- A finite non-negative float. -/
def isUnsigned (l : List Char) : Bool :=
  isInteger (l.takeWhile Char.isDigit) && isFraction (l.dropWhile Char.isDigit)

/-- The texts a float's `repr` takes. -/
def isRepr : List Char → Bool
  | '-' :: l => isUnsigned l || l == ['i', 'n', 'f']
  | l => isUnsigned l || l == ['i', 'n', 'f'] || l == ['n', 'a', 'n']

end FloatText

/-- A float, by its `repr`. -/
structure PyFloat : Type where
  /-- the text `repr` gives -/
  text : String
  /-- it is one a float has -/
  isRepr : FloatText.isRepr text.toList = true
  deriving DecidableEq

/-! ## Values -/

/-- A loaded JSON value. -/
inductive Json : Type where
  | null : Json
  | bool : Bool → Json
  | int : Int → Json
  | float : PyFloat → Json
  | str : String → Json
  | arr : List Json → Json
  | obj : List (String × Json) → Json

namespace Json

/-- Is it a string? -/
def isStr : Json → Bool
  | str _ => true
  | _ => false

/-- Does it hold no infinity and no `nan`? Those have no JSON text. -/
def isFinite : Json → Bool
  | float x => !(["inf", "-inf", "nan"].contains x.text)
  | arr l => items l
  | obj m => members m
  | _ => true
where
  /-- the items of a list -/
  items : List Json → Bool
    | [] => true
    | j :: l => j.isFinite && items l
  /-- the entries of a dict -/
  members : List (String × Json) → Bool
    | [] => true
    | (_, j) :: m => j.isFinite && members m

/-- What a serialiser writes that has null for infinity and `nan`. -/
def written : Json → Json
  | float x => if (float x).isFinite then float x else null
  | arr l => arr (items l)
  | obj m => obj (members m)
  | j => j
where
  /-- the items of a list -/
  items : List Json → List Json
    | [] => []
    | j :: l => j.written :: items l
  /-- the entries of a dict -/
  members : List (String × Json) → List (String × Json)
    | [] => []
    | (k, j) :: m => (k, j.written) :: members m

theorem written_items_eq (l : List Json) : written.items l = l.map written := by
  induction l with
  | nil => rfl
  | cons j l ih => rw [written.items, ih, List.map_cons]

theorem written_members_eq (m : List (String × Json)) :
    written.members m = m.map fun p => (p.1, p.2.written) := by
  induction m with
  | nil => rfl
  | cons p m ih =>
    obtain ⟨k, j⟩ := p
    rw [written.members, ih, List.map_cons]

mutual

/-- What is written is finite, whatever the value is. -/
theorem isFinite_written (j : Json) : j.written.isFinite = true := by
  cases j with
  | float x =>
    rw [written]
    split
    · assumption
    · rfl
  | arr l =>
    rw [written, isFinite]
    exact isFinite_written_items l
  | obj m =>
    rw [written, isFinite]
    exact isFinite_written_members m
  | _ => rfl

theorem isFinite_written_items (l : List Json) : isFinite.items (written.items l) = true := by
  cases l with
  | nil => rfl
  | cons j l =>
    rw [written.items, isFinite.items, isFinite_written j, isFinite_written_items l]
    rfl

theorem isFinite_written_members (m : List (String × Json)) :
    isFinite.members (written.members m) = true := by
  cases m with
  | nil => rfl
  | cons p m =>
    obtain ⟨k, j⟩ := p
    rw [written.members, isFinite.members, isFinite_written j, isFinite_written_members m]
    rfl

end

/-- Do all its objects have distinct keys, as dicts do? -/
def DistinctKeys : Json → Prop
  | arr l => items l
  | obj m => (m.map Prod.fst).Nodup ∧ members m
  | _ => True
where
  /-- the items of a list -/
  items : List Json → Prop
    | [] => True
    | j :: l => j.DistinctKeys ∧ items l
  /-- the entries of a dict -/
  members : List (String × Json) → Prop
    | [] => True
    | (_, j) :: m => j.DistinctKeys ∧ members m

/-- `bool(x)`: empty containers, the empty string, zero, `False` and `None`
are false. -/
def truthy : Json → Bool
  | null => false
  | bool b => b
  | int n => n != 0
  | float x => !(x.text == "0.0" || x.text == "-0.0")
  | str s => s != ""
  | arr l => !l.isEmpty
  | obj m => !m.isEmpty

/-- `d.get(key)` on the entries of a dict. -/
def get (members : List (String × Json)) (key : String) : Option Json :=
  (members.find? fun m => m.1 == key).map Prod.snd

theorem get_eq_none_iff {members : List (String × Json)} {key : String} :
    get members key = none ↔ key ∉ members.map Prod.fst := by
  rw [get, Option.map_eq_none_iff, List.find?_eq_none, List.mem_map]
  constructor
  · rintro h ⟨m, hm, rfl⟩
    exact h m hm (beq_self_eq_true _)
  · intro h m hm hkey
    exact h ⟨m, hm, beq_iff_eq.mp hkey⟩

theorem get_cons (k : String) (v : Json) (rest : List (String × Json)) (key : String) :
    get ((k, v) :: rest) key = if k = key then some v else get rest key := by
  rw [get, List.find?_cons]
  by_cases h : k = key
  · rw [beq_iff_eq.mpr h, if_pos h]
    rfl
  · rw [beq_eq_false_iff_ne.mpr h, if_neg h]
    rfl

theorem mem_of_get {members : List (String × Json)} {key : String} {v : Json}
    (h : get members key = some v) : (key, v) ∈ members := by
  obtain ⟨m, hm, rfl⟩ := Option.map_eq_some_iff.mp h
  have hkey := List.find?_some hm
  rw [beq_iff_eq] at hkey
  exact hkey ▸ List.mem_of_find?_eq_some hm

/-- With distinct keys an entry is what its key gives. -/
theorem get_of_mem {members : List (String × Json)} (hnodup : (members.map Prod.fst).Nodup)
    {key : String} {v : Json} (h : (key, v) ∈ members) : get members key = some v := by
  induction members with
  | nil => cases h
  | cons m rest ih =>
    obtain ⟨k, w⟩ := m
    obtain ⟨hhead, hrest⟩ := List.nodup_cons.mp hnodup
    rw [get_cons]
    rcases List.mem_cons.mp h with heq | hmem
    · cases heq
      exact if_pos rfl
    · have hne : k ≠ key := by
        rintro rfl
        exact hhead (List.mem_map.mpr ⟨_, hmem, rfl⟩)
      rw [if_neg hne, ih hrest hmem]

/-- `d[key] = value`: a key that is there keeps its place. -/
def setItem : List (String × Json) → String → Json → List (String × Json)
  | [], key, value => [(key, value)]
  | (k, v) :: rest, key, value =>
    if k == key then (key, value) :: rest else (k, v) :: setItem rest key value

/-- `{**d, **other}`. -/
def update (d other : List (String × Json)) : List (String × Json) :=
  other.foldl (fun d m => setItem d m.1 m.2) d

theorem setItem_of_not_mem {d : List (String × Json)} {key : String}
    (h : key ∉ d.map Prod.fst) (value : Json) : setItem d key value = d ++ [(key, value)] := by
  induction d with
  | nil => rfl
  | cons m d ih =>
    obtain ⟨k, v⟩ := m
    simp only [List.map_cons, List.mem_cons, not_or] at h
    rw [setItem, beq_eq_false_iff_ne.mpr (Ne.symm h.1), ih h.2]
    rfl

/-- Entries with new, distinct keys are appended. -/
theorem update_of_nodup {d other : List (String × Json)}
    (h : ((d ++ other).map Prod.fst).Nodup) : update d other = d ++ other := by
  induction other generalizing d with
  | nil => simp [update]
  | cons m other ih =>
    have hsplit : d ++ m :: other = (d ++ [m]) ++ other := by simp
    have hnot : m.1 ∉ d.map Prod.fst := by
      rw [List.map_append, List.map_cons] at h
      exact fun hmem => (List.nodup_append.mp h).2.2 _ hmem _ (List.mem_cons_self ..) rfl
    rw [hsplit] at h ⊢
    rw [← ih h, update, List.foldl_cons, setItem_of_not_mem hnot]
    rfl

theorem get_setItem (d : List (String × Json)) (k key : String) (v : Json) :
    get (setItem d k v) key = if k = key then some v else get d key := by
  induction d with
  | nil => exact get_cons k v [] key
  | cons m d ih =>
    obtain ⟨k', w⟩ := m
    rw [setItem]
    by_cases hk : k' = k
    · subst hk
      rw [if_pos (beq_self_eq_true _), get_cons, get_cons]
      by_cases hkey : k' = key
      · rw [if_pos hkey, if_pos hkey]
      · rw [if_neg hkey, if_neg hkey, if_neg hkey]
    · rw [if_neg (by simpa using hk), get_cons, get_cons, ih]
      by_cases hkey : k' = key
      · rw [if_pos hkey, if_pos hkey, if_neg]
        exact fun h => hk (hkey.trans h.symm)
      · rw [if_neg hkey, if_neg hkey]

/-- What an update gives: its own entries first. -/
theorem get_update {d other : List (String × Json)} (hnodup : (other.map Prod.fst).Nodup)
    (key : String) : get (update d other) key = (get other key).or (get d key) := by
  induction other generalizing d with
  | nil => rfl
  | cons m other ih =>
    obtain ⟨k, v⟩ := m
    obtain ⟨hhead, hrest⟩ := List.nodup_cons.mp hnodup
    rw [update, List.foldl_cons, ← update, ih hrest, get_setItem, get_cons]
    by_cases hkey : k = key
    · subst hkey
      rw [if_pos rfl, if_pos rfl, get_eq_none_iff.mpr hhead]
      rfl
    · rw [if_neg hkey, if_neg hkey]

/-! ## Rendering -/

/-- The last `width` lower-case hexadecimal digits of a number. -/
def hexDigits : Nat → Nat → List Char
  | 0, _ => []
  | width + 1, n => hexDigits width (n / 16) ++ [Nat.digitChar (n % 16)]

/-- One character of a string's `repr` between the given quotes. -/
def reprChar (printable : Char → Bool) (quote c : Char) : List Char :=
  let n := c.toNat
  if c == quote || c == '\\' then ['\\', c]
  else if c == '\t' then ['\\', 't']
  else if c == '\n' then ['\\', 'n']
  else if c == '\r' then ['\\', 'r']
  else if n < 32 || n == 127 then '\\' :: 'x' :: hexDigits 2 n
  else if n < 127 || printable c then [c]
  else if n < 0x100 then '\\' :: 'x' :: hexDigits 2 n
  else if n < 0x10000 then '\\' :: 'u' :: hexDigits 4 n
  else '\\' :: 'U' :: hexDigits 8 n

/-- `repr` of a string: single quotes, unless it has one and no double quote. -/
def reprStr (printable : Char → Bool) (s : String) : List Char :=
  let quote := if s.toList.contains '\'' && !s.toList.contains '"' then '"' else '\''
  quote :: s.toList.flatMap (reprChar printable quote) ++ [quote]

/-- `repr` of a value. -/
def repr (printable : Char → Bool) : Json → List Char
  | null => ['N', 'o', 'n', 'e']
  | bool true => ['T', 'r', 'u', 'e']
  | bool false => ['F', 'a', 'l', 's', 'e']
  | int n => (toString n).toList
  | float x => x.text.toList
  | str s => reprStr printable s
  | arr l => '[' :: [',', ' '].intercalate (reprItems l) ++ [']']
  | obj m => '{' :: [',', ' '].intercalate (reprMembers m) ++ ['}']
where
  /-- the items of a list -/
  reprItems : List Json → List (List Char)
    | [] => []
    | j :: l => repr printable j :: reprItems l
  /-- the entries of a dict -/
  reprMembers : List (String × Json) → List (List Char)
    | [] => []
    | (k, j) :: m => (reprStr printable k ++ ':' :: ' ' :: repr printable j) :: reprMembers m

/-- `str(x)`: a string is itself, anything else its `repr`. -/
def toStr (printable : Char → Bool) : Json → String
  | str s => s
  | j => String.ofList (repr printable j)

example : toStr (fun _ => true) (arr [str "a:b", int (-3), obj [("k", null)]]) =
    "['a:b', -3, \x7b'k': None\x7d]" := by decide

/-! ## How a rendering starts -/

/-- The first characters a rendering of a value that is no string can have. -/
def isStart (c : Char) : Bool :=
  c.isDigit || c == '-' || c == 'N' || c == 'T' || c == 'F' || c == 'n' || c == 'i' ||
    c == '[' || c == '{'

theorem isStart_of_isUnsigned {l : List Char} (h : FloatText.isUnsigned l = true) :
    ∃ c t, l = c :: t ∧ isStart c = true := by
  cases l with
  | nil => simp [FloatText.isUnsigned, FloatText.isInteger] at h
  | cons c t =>
    refine ⟨c, t, rfl, ?_⟩
    cases hc : c.isDigit with
    | true => simp [isStart, hc]
    | false => simp [FloatText.isUnsigned, FloatText.isInteger, hc] at h

theorem isStart_of_isRepr {l : List Char} (h : FloatText.isRepr l = true) :
    ∃ c t, l = c :: t ∧ isStart c = true := by
  unfold FloatText.isRepr at h
  split at h
  · exact ⟨'-', _, rfl, by decide⟩
  · simp only [Bool.or_eq_true, beq_iff_eq] at h
    rcases h with (h | rfl) | rfl
    · exact isStart_of_isUnsigned h
    · exact ⟨'i', _, rfl, by decide⟩
    · exact ⟨'n', _, rfl, by decide⟩

theorem isStart_of_toString (n : Int) :
    ∃ c t, (toString n).toList = c :: t ∧ isStart c = true := by
  cases n with
  | ofNat n =>
    have hlist : (toString (Int.ofNat n)).toList = Nat.toDigits 10 n := Nat.toList_repr
    obtain ⟨c, t, ht⟩ := List.exists_cons_of_ne_nil (@Nat.toDigits_ne_nil n 10)
    have hdigit : c.isDigit :=
      Nat.isDigit_of_mem_toDigits (by decide) (by decide) (ht ▸ List.mem_cons_self ..)
    exact ⟨c, t, hlist.trans ht, by simp [isStart, hdigit]⟩
  | negSucc n =>
    have hneg : toString (Int.negSucc n) = "-" ++ (n + 1).repr := rfl
    exact ⟨'-', (n + 1).repr.toList, by rw [hneg]; simp, by decide⟩

/-- **Stringified structure starts like structure**: `str` of a value that is
no string starts with a digit, a sign, a bracket or one of the letters of
`None`, `True`, `False`, `nan` and `inf`. -/
theorem isStart_of_not_isStr {printable : Char → Bool} {j : Json} (h : j.isStr = false) :
    ∃ c t, (toStr printable j).toList = c :: t ∧ isStart c = true := by
  cases j with
  | null => exact ⟨'N', _, String.toList_ofList, by decide⟩
  | bool b =>
    cases b with
    | true => exact ⟨'T', _, String.toList_ofList, by decide⟩
    | false => exact ⟨'F', _, String.toList_ofList, by decide⟩
  | int n =>
    simp only [toStr, repr, String.toList_ofList]
    exact isStart_of_toString n
  | float x =>
    simp only [toStr, repr, String.toList_ofList]
    exact isStart_of_isRepr x.isRepr
  | str s => cases h
  | arr l => exact ⟨'[', _, String.toList_ofList, by decide⟩
  | obj m => exact ⟨'{', _, String.toList_ofList, by decide⟩

end Json

end KgaGateway
