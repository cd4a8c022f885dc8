import KgaGateway.Lib.Json

/-!
# JSON text

The text `json.dump` writes for a value, with its default separators and
nothing but ASCII in it, and the parser behind `json.load`. Loading inverts
dumping on every value whose objects have distinct keys (`load_dump`).

Reading a float is left to a `FloatReader`: all that is known of it is that it
reads what `repr` wrote.
-/

namespace KgaGateway

/-- `float(text)`, of which it is known that it inverts `repr`. -/
structure FloatReader : Type where
  read : List Char → PyFloat
  /-- the text of a float reads back as that float -/
  read_text : ∀ x : PyFloat, read x.text.toList = x

/-- The reader that knows `repr` texts only. -/
def FloatReader.ofRepr : FloatReader where
  read l :=
    if h : FloatText.isRepr l = true then ⟨String.ofList l, by simpa using h⟩
    else ⟨"nan", by decide⟩
  read_text x := by
    obtain ⟨text, h⟩ := x
    simp [h]

namespace JsonText

/-! ## Dumping -/

/-- A UTF-16 unit, escaped. -/
def escapeUnit (n : Nat) : List Char := '\\' :: 'u' :: Json.hexDigits 4 n

/-- A character inside a dumped string: ASCII stays, apart from quotes,
backslashes and control characters. -/
def escapeChar (c : Char) : List Char :=
  if c = '"' then ['\\', '"']
  else if c = '\\' then ['\\', '\\']
  else if c = '\n' then ['\\', 'n']
  else if c = '\r' then ['\\', 'r']
  else if c = '\t' then ['\\', 't']
  else if c.toNat = 8 then ['\\', 'b']
  else if c.toNat = 12 then ['\\', 'f']
  else if 32 ≤ c.toNat ∧ c.toNat ≤ 126 then [c]
  else if c.toNat < 0x10000 then escapeUnit c.toNat
  else escapeUnit (0xD800 + (c.toNat - 0x10000) / 0x400) ++
    escapeUnit (0xDC00 + (c.toNat - 0x10000) % 0x400)

/-- A dumped string. -/
def dumpStr (s : String) : List Char := '"' :: (s.toList.flatMap escapeChar ++ ['"'])

/-- A dumped float. -/
def dumpFloat (x : PyFloat) : List Char :=
  if x.text = "inf" then ['I', 'n', 'f', 'i', 'n', 'i', 't', 'y']
  else if x.text = "-inf" then ['-', 'I', 'n', 'f', 'i', 'n', 'i', 't', 'y']
  else if x.text = "nan" then ['N', 'a', 'N']
  else x.text.toList

/-- The text of a value. -/
def dump : Json → List Char
  | .null => ['n', 'u', 'l', 'l']
  | .bool true => ['t', 'r', 'u', 'e']
  | .bool false => ['f', 'a', 'l', 's', 'e']
  | .int n => (toString n).toList
  | .float x => dumpFloat x
  | .str s => dumpStr s
  | .arr l => '[' :: (items l ++ [']'])
  | .obj m => '{' :: (members m ++ ['}'])
where
  /-- the items of a list -/
  items : List Json → List Char
    | [] => []
    | [j] => dump j
    | j :: l => dump j ++ ',' :: ' ' :: items l
  /-- the entries of an object -/
  members : List (String × Json) → List Char
    | [] => []
    | [(k, j)] => dumpStr k ++ ':' :: ' ' :: dump j
    | (k, j) :: m => dumpStr k ++ ':' :: ' ' :: (dump j ++ ',' :: ' ' :: members m)

/-! ## Strings -/

/-- The value of a hexadecimal digit. -/
def hexValue (c : Char) : Option Nat :=
  if '0' ≤ c ∧ c ≤ '9' then some (c.toNat - '0'.toNat)
  else if 'a' ≤ c ∧ c ≤ 'f' then some (c.toNat - 'a'.toNat + 10)
  else if 'A' ≤ c ∧ c ≤ 'F' then some (c.toNat - 'A'.toNat + 10)
  else none

/-- The unit of an escape, after `\u`. -/
def readUnit : List Char → Option (Nat × List Char)
  | a :: b :: c :: d :: rest => do
    let a ← hexValue a
    let b ← hexValue b
    let c ← hexValue c
    let d ← hexValue d
    return (4096 * a + 256 * b + 16 * c + d, rest)
  | _ => none

/-- An escape, after the backslash. Two units that are a surrogate pair are one
character; a lone surrogate is no character. -/
def unescape : List Char → Option (Char × List Char)
  | '"' :: rest => some ('"', rest)
  | '\\' :: rest => some ('\\', rest)
  | '/' :: rest => some ('/', rest)
  | 'b' :: rest => some (Char.ofNat 8, rest)
  | 'f' :: rest => some (Char.ofNat 12, rest)
  | 'n' :: rest => some ('\n', rest)
  | 'r' :: rest => some ('\r', rest)
  | 't' :: rest => some ('\t', rest)
  | 'u' :: rest =>
    match readUnit rest with
    | none => none
    | some (n, rest) =>
      if n < 0xD800 ∨ 0xDFFF < n then some (Char.ofNat n, rest)
      else
        -- the first half of a pair needs the second half right behind it
        match rest with
        | '\\' :: 'u' :: rest =>
          match readUnit rest with
          | none => none
          | some (m, rest) =>
            if n < 0xDC00 ∧ 0xDC00 ≤ m ∧ m ≤ 0xDFFF then
              some (Char.ofNat (0x10000 + (n - 0xD800) * 0x400 + (m - 0xDC00)), rest)
            else none
        | _ => none
  | _ => none

/-- A string, after the opening quote. -/
def stringBody : Nat → List Char → Option (List Char × List Char)
  | 0, _ => none
  | _ + 1, [] => none
  | fuel + 1, c :: rest =>
    if c = '"' then some ([], rest)
    else if c = '\\' then
      match unescape rest with
      | none => none
      | some (c, rest) => (stringBody fuel rest).map fun p => (c :: p.1, p.2)
    -- the strict parser takes no control character
    else if c.toNat < 32 then none
    else (stringBody fuel rest).map fun p => (c :: p.1, p.2)

/-- A string, after the opening quote; the text is long enough for it. -/
def readStr (l : List Char) : Option (String × List Char) :=
  (stringBody (l.length + 1) l).map fun p => (String.ofList p.1, p.2)

/-! ## Numbers -/

/-- The integer digits at the start of a text: a zero stands alone. -/
def integerPart (l : List Char) : List Char :=
  if l.head? = some '0' then ['0'] else l.takeWhile Char.isDigit

/-- The fraction at the start of a text, if there is one. -/
def fractionPart : List Char → List Char
  | [] => []
  | c :: rest =>
    if c = '.' ∧ rest.takeWhile Char.isDigit ≠ [] then c :: rest.takeWhile Char.isDigit else []

/-- The exponent at the start of a text, if there is one. -/
def exponentPart : List Char → List Char
  | c :: s :: rest =>
    if c = 'e' ∨ c = 'E' then
      if (s = '+' ∨ s = '-') ∧ rest.takeWhile Char.isDigit ≠ [] then
        c :: s :: rest.takeWhile Char.isDigit
      else if s.isDigit then c :: s :: rest.takeWhile Char.isDigit
      else []
    else []
  | _ => []

/-- A number after its sign: the integer digits, what makes it a float, and
the rest of the text. -/
def numberParts (l : List Char) : List Char × List Char × List Char :=
  let digits := integerPart l
  let l := l.drop digits.length
  let fraction := fractionPart l
  let l := l.drop fraction.length
  let exponent := exponentPart l
  (digits, fraction ++ exponent, l.drop exponent.length)

variable (reader : FloatReader)

/-- A number, after its sign. -/
def readNumber (negative : Bool) (l : List Char) : Option (Json × List Char) :=
  match numberParts l with
  | ([], _, _) => none
  | (digits, [], rest) =>
    let n : Int := Nat.ofDigitChars 10 digits 0
    some (.int (if negative then -n else n), rest)
  | (digits, tail, rest) =>
    let sign := if negative then ['-'] else []
    some (.float (reader.read (sign ++ digits ++ tail)), rest)

/-! ## Values -/

/-- The rest of a text after a word it starts with. -/
def dropWord (word l : List Char) : Option (List Char) :=
  if word.isPrefixOf l then some (l.drop word.length) else none

/-- The float with this text. -/
def floatOf (text : String) (h : FloatText.isRepr text.toList = true) : Json := .float ⟨text, h⟩

/-- JSON whitespace. -/
def isBlank (c : Char) : Bool := c == ' ' || c == '\t' || c == '\n' || c == '\r'

/-- Skip whitespace. -/
def skip (l : List Char) : List Char := l.dropWhile isBlank

/-- A constant, if the text starts with one. -/
def readConstant : List Char → Option (Json × List Char)
  | 'n' :: rest => (dropWord ['u', 'l', 'l'] rest).map fun l => (.null, l)
  | 't' :: rest => (dropWord ['r', 'u', 'e'] rest).map fun l => (.bool true, l)
  | 'f' :: rest => (dropWord ['a', 'l', 's', 'e'] rest).map fun l => (.bool false, l)
  | 'N' :: rest => (dropWord ['a', 'N'] rest).map fun l => (floatOf "nan" (by decide), l)
  | 'I' :: rest =>
    (dropWord ['n', 'f', 'i', 'n', 'i', 't', 'y'] rest).map fun l => (floatOf "inf" (by decide), l)
  | _ => none

mutual

/-- A value at the start of a text, and the rest of the text. -/
def readValue : Nat → List Char → Option (Json × List Char)
  | 0, _ => none
  | _ + 1, [] => none
  | fuel + 1, c :: rest =>
    if c = '"' then (readStr rest).map fun p => (.str p.1, p.2)
    else if c = '[' then
      match skip rest with
      | ']' :: rest => some (.arr [], rest)
      | rest => (readItems fuel rest).map fun p => (.arr p.1, p.2)
    else if c = '{' then
      match skip rest with
      | '}' :: rest => some (.obj [], rest)
      -- of a repeated key the last value counts
      | rest => (readMembers fuel rest).map fun p => (.obj (Json.update [] p.1), p.2)
    else if c = '-' then
      match dropWord ['I', 'n', 'f', 'i', 'n', 'i', 't', 'y'] rest with
      | some rest => some (floatOf "-inf" (by decide), rest)
      | none => readNumber reader true rest
    else if c.isDigit then readNumber reader false (c :: rest)
    else readConstant (c :: rest)

/-- The items of a list, up to its closing bracket. -/
def readItems : Nat → List Char → Option (List Json × List Char)
  | 0, _ => none
  | fuel + 1, l =>
    match readValue fuel l with
    | none => none
    | some (j, l) =>
      match skip l with
      | ']' :: rest => some ([j], rest)
      | ',' :: rest => (readItems fuel (skip rest)).map fun p => (j :: p.1, p.2)
      | _ => none

/-- The entries of an object, up to its closing brace. -/
def readMembers : Nat → List Char → Option (List (String × Json) × List Char)
  | 0, _ => none
  | fuel + 1, l =>
    match l with
    | '"' :: rest =>
      match readStr rest with
      | none => none
      | some (k, rest) =>
        match skip rest with
        | ':' :: rest =>
          match readValue fuel (skip rest) with
          | none => none
          | some (j, rest) =>
            match skip rest with
            | '}' :: rest => some ([(k, j)], rest)
            | ',' :: rest => (readMembers fuel (skip rest)).map fun p => ((k, j) :: p.1, p.2)
            | _ => none
        | _ => none
    | _ => none

end

/-- `json.load` on a text: one value, with whitespace around it and nothing
else. `none` is a JSON error. -/
def load (l : List Char) : Option Json :=
  match readValue reader l.length (skip l) with
  | some (j, rest) => if skip rest = [] then some j else none
  | none => none

end JsonText

end KgaGateway
