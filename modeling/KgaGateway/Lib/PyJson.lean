import KgaGateway.Lib.JsonText
import KgaGateway.Lib.PyValue
import KgaGateway.Lib.Traced

/-!
# The JSON module on values of the language

`iterencode` is what `json.dump` iterates over: chunks of text, in order, and
possibly an exception after some of them, for a value or a key that JSON has no
text for. `text` is the text of a value that has one, and `load` the parser
behind `json.load`, which makes lists, string-keyed dicts and strings of code
points.

What a value becomes on the way is `jsonize`: tuples are lists, keys are
strings, later entries win over earlier ones with the same key, and surrogate
pairs are single code points.
-/

namespace KgaGateway

namespace PyJson

/-! ## Strings -/

/-- A code point inside a dumped string: a surrogate is escaped like any other
unit. -/
def escapePoint (c : CodePoint) : List Char :=
  if PyStr.isHigh c || PyStr.isLow c then JsonText.escapeUnit c.val
  else JsonText.escapeChar (Char.ofNat c.val)

/-- A dumped string. -/
def dumpStr (s : PyStr) : List Char := '"' :: (s.flatMap escapePoint ++ ['"'])

/-- An escape, after the backslash. A high surrogate is joined with a low one
right behind it, and otherwise stands alone. -/
def unescape : List Char → Option (CodePoint × List Char)
  | 'u' :: rest =>
    match JsonText.readUnit rest with
    | none => none
    | some (n, rest) =>
      let unit : CodePoint := CodePoint.ofNat n
      if PyStr.isHigh unit then
        match rest with
        | '\\' :: 'u' :: behind =>
          match JsonText.readUnit behind with
          | none => none
          | some (m, behind) =>
            let low : CodePoint := CodePoint.ofNat m
            if PyStr.isLow low then some (PyStr.join unit low, behind) else some (unit, rest)
        | _ => some (unit, rest)
      else some (unit, rest)
  | rest => (JsonText.unescape rest).map fun p => (PyStr.ofChar p.1, p.2)

/-- A string, after the opening quote. -/
def stringBody : Nat → List Char → Option (PyStr × List Char)
  | 0, _ => none
  | _ + 1, [] => none
  | fuel + 1, c :: rest =>
    if c = '"' then some ([], rest)
    else if c = '\\' then
      match unescape rest with
      | none => none
      | some (c, rest) => (stringBody fuel rest).map fun p => (c :: p.1, p.2)
    -- the strict parser takes no control character
    else if c.toNat < 32 then none
    else (stringBody fuel rest).map fun p => (PyStr.ofChar c :: p.1, p.2)

/-- A string, after the opening quote; the text is long enough for it. -/
def readStr (l : List Char) : Option (PyStr × List Char) := stringBody (l.length + 1) l

/-! ## Dumping -/

/-- The text of an atom. -/
def atomText : PyAtom → Option (List Char)
  | .none => some ['n', 'u', 'l', 'l']
  | .bool true => some ['t', 'r', 'u', 'e']
  | .bool false => some ['f', 'a', 'l', 's', 'e']
  | .int n => some (toString n).toList
  | .float x _ => some (JsonText.dumpFloat x)
  | .str s => some (dumpStr s)
  | .other _ => none

/-- The string a key is rendered as. -/
def keyStr : PyAtom → Option PyStr
  | .str s => some s
  | a => (atomText a).map PyStr.ofText

/-- `JSONEncoder.iterencode`. -/
def iterencode : PyVal → Traced (List Char) String Unit
  | .atom a =>
    match atomText a with
    | some t => Traced.emit t
    | none => Traced.raise "TypeError"
  | .list [] => Traced.emit ['[', ']']
  | .list (v :: l) => do
    items ['['] (v :: l)
    Traced.emit [']']
  | .tuple [] => Traced.emit ['[', ']']
  | .tuple (v :: l) => do
    items ['['] (v :: l)
    Traced.emit [']']
  | .dict [] => Traced.emit ['{', '}']
  | .dict (m :: ms) => do
    Traced.emit ['{']
    members [] (m :: ms)
    Traced.emit ['}']
where
  /-- the items of a list, the first after the bracket and the others after the
  separator; an atom is in one chunk with what stands before it -/
  items (before : List Char) : List PyVal → Traced (List Char) String Unit
    | [] => pure ⟨⟩
    | .atom a :: l =>
      match atomText a with
      | some t => do
        Traced.emit (before ++ t)
        items [',', ' '] l
      | none => do
        Traced.emit before
        Traced.raise "TypeError"
    | v :: l => do
      Traced.emit before
      iterencode v
      items [',', ' '] l
  /-- the entries of a dict -/
  members (before : List Char) : List (PyAtom × PyVal) → Traced (List Char) String Unit
    | [] => pure ⟨⟩
    | (k, v) :: m =>
      match keyStr k with
      | none => Traced.raise "TypeError"
      | some s => do
        if before.isEmpty then pure ⟨⟩ else Traced.emit before
        Traced.emit (dumpStr s)
        Traced.emit [':', ' ']
        iterencode v
        members [',', ' '] m

/-- Does JSON have a text for all of it? -/
def encodable : PyVal → Bool
  | .atom a => (atomText a).isSome
  | .list l => items l
  | .tuple l => items l
  | .dict m => members m
where
  /-- the items of a list -/
  items : List PyVal → Bool
    | [] => true
    | v :: l => encodable v && items l
  /-- the entries of a dict -/
  members : List (PyAtom × PyVal) → Bool
    | [] => true
    | (k, v) :: m => (keyStr k).isSome && encodable v && members m

/-- The text of an encodable value. -/
def text : PyVal → List Char
  | .atom a => (atomText a).getD []
  | .list l => '[' :: (items l ++ [']'])
  | .tuple l => '[' :: (items l ++ [']'])
  | .dict m => '{' :: (members m ++ ['}'])
where
  /-- the items of a list -/
  items : List PyVal → List Char
    | [] => []
    | [v] => text v
    | v :: l => text v ++ ',' :: ' ' :: items l
  /-- the entries of a dict -/
  members : List (PyAtom × PyVal) → List Char
    | [] => []
    | [(k, v)] => dumpStr ((keyStr k).getD []) ++ ':' :: ' ' :: text v
    | (k, v) :: m =>
      dumpStr ((keyStr k).getD []) ++ ':' :: ' ' :: (text v ++ ',' :: ' ' :: members m)

/-! ## Loading -/

/-- A loaded document as a value. -/
def ofJson : Json → PyVal
  | .null => .atom .none
  | .bool b => .atom (.bool b)
  | .int n => .atom (.int n)
  | .float x => .atom (.float x 0)
  | .str s => .atom (.str (PyStr.ofText s.toList))
  | .arr l => .list (items l)
  | .obj m => .dict (members m)
where
  /-- the items of a list -/
  items : List Json → List PyVal
    | [] => []
    | j :: l => ofJson j :: items l
  /-- the entries of an object -/
  members : List (String × Json) → List (PyAtom × PyVal)
    | [] => []
    | (k, j) :: m => (.str (PyStr.ofText k.toList), ofJson j) :: members m

/-- `d[key] = value`: a key that is there keeps its place. -/
def setItem : List (PyStr × PyVal) → PyStr → PyVal → List (PyStr × PyVal)
  | [], key, value => [(key, value)]
  | (k, v) :: rest, key, value =>
    if k = key then (key, value) :: rest else (k, v) :: setItem rest key value

/-- The dict of some entries: of a repeated key the last value counts. -/
def dictOf (entries : List (PyStr × PyVal)) : List (PyStr × PyVal) :=
  entries.foldl (fun d m => setItem d m.1 m.2) []

/-- A string-keyed dict. -/
def strDict (entries : List (PyStr × PyVal)) : PyVal :=
  .dict (entries.map fun m => (.str m.1, m.2))

variable (reader : FloatReader)

mutual

/-- A value at the start of a text, and the rest of the text. Constants and
numbers are read as in any document. -/
def readValue : Nat → List Char → Option (PyVal × List Char)
  | 0, _ => none
  | _ + 1, [] => none
  | fuel + 1, c :: rest =>
    if c = '"' then (readStr rest).map fun p => (.atom (.str p.1), p.2)
    else if c = '[' then
      match JsonText.skip rest with
      | ']' :: rest => some (.list [], rest)
      | rest => (readItems fuel rest).map fun p => (.list p.1, p.2)
    else if c = '{' then
      match JsonText.skip rest with
      | '}' :: rest => some (strDict [], rest)
      | rest => (readMembers fuel rest).map fun p => (strDict (dictOf p.1), p.2)
    else (JsonText.readValue reader 1 (c :: rest)).map fun p => (ofJson p.1, p.2)

/-- The items of a list, up to its closing bracket. -/
def readItems : Nat → List Char → Option (List PyVal × List Char)
  | 0, _ => none
  | fuel + 1, l =>
    match readValue fuel l with
    | none => none
    | some (v, l) =>
      match JsonText.skip l with
      | ']' :: rest => some ([v], rest)
      | ',' :: rest => (readItems fuel (JsonText.skip rest)).map fun p => (v :: p.1, p.2)
      | _ => none

/-- The entries of an object, up to its closing brace. -/
def readMembers : Nat → List Char → Option (List (PyStr × PyVal) × List Char)
  | 0, _ => none
  | fuel + 1, l =>
    match l with
    | '"' :: rest =>
      match readStr rest with
      | none => none
      | some (k, rest) =>
        match JsonText.skip rest with
        | ':' :: rest =>
          match readValue fuel (JsonText.skip rest) with
          | none => none
          | some (v, rest) =>
            match JsonText.skip rest with
            | '}' :: rest => some ([(k, v)], rest)
            | ',' :: rest =>
              (readMembers fuel (JsonText.skip rest)).map fun p => ((k, v) :: p.1, p.2)
            | _ => none
        | _ => none
    | _ => none

end

/-- `json.load` on a text; `none` is a JSON error. -/
def load (l : List Char) : Option PyVal :=
  match readValue reader l.length (JsonText.skip l) with
  | some (v, rest) => if JsonText.skip rest = [] then some v else none
  | none => none

/-! ## What a value becomes -/

/-- An atom, dumped and loaded. -/
def jsonizeAtom : PyAtom → PyAtom
  | .float x _ => .float x 0
  | .str s => .str (PyStr.joinPairs s)
  | a => a

/-- A value, dumped and loaded. -/
def jsonize : PyVal → PyVal
  | .atom a => .atom (jsonizeAtom a)
  | .list l => .list (items l)
  | .tuple l => .list (items l)
  | .dict m => strDict (dictOf (members m))
where
  /-- the items of a list -/
  items : List PyVal → List PyVal
    | [] => []
    | v :: l => jsonize v :: items l
  /-- the entries of a dict, before repeated keys are merged -/
  members : List (PyAtom × PyVal) → List (PyStr × PyVal)
    | [] => []
    | (k, v) :: m => (PyStr.joinPairs ((keyStr k).getD []), jsonize v) :: members m

example : iterencode (.dict [(.int 1, .list [.atom .none, .tuple []]), (.other 0, .atom .none)]) =
    ⟨[['{'], ['"', '1', '"'], [':', ' '], ['[', 'n', 'u', 'l', 'l'], [',', ' '], ['[', ']'], [']']],
      .error "TypeError"⟩ := rfl

end PyJson

end KgaGateway
