import KeyAgreement.Octets.Hex

/-! JSON texts: a reader for all of them, which also takes the names of the special numbers, and a
writer for flat objects of texts. -/
namespace KeyAgreement

/-- Numbers are kept as written. -/
inductive Json where
  | null
  | truth (b : Bool)
  | number (written : List Char)
  | text (s : List Char)
  | array (items : List Json)
  | object (fields : List (List Char × Json))

namespace Json

def isBlank (c : Char) : Bool :=
  c = ' ' || c = '\t' || c = '\n' || c = '\r'

def skipBlank (cs : List Char) : List Char :=
  cs.dropWhile isBlank

def after? (word cs : List Char) : Option (List Char) :=
  if word.isPrefixOf cs then some (cs.drop word.length) else none

/-- What follows the digits before the point; only a lone zero may lead. -/
def afterWhole? : List Char → Option (List Char)
  | '0' :: rest => some rest
  | c :: rest => if c.isDigit then some (rest.dropWhile Char.isDigit) else none
  | [] => none

def afterFraction : List Char → List Char
  | '.' :: c :: rest => if c.isDigit then rest.dropWhile Char.isDigit else '.' :: c :: rest
  | cs => cs

def afterExponent : List Char → List Char
  | e :: sign :: c :: rest =>
    if e ≠ 'e' ∧ e ≠ 'E' then e :: sign :: c :: rest
    else if sign.isDigit then (c :: rest).dropWhile Char.isDigit
    else if (sign = '+' ∨ sign = '-') ∧ c.isDigit then rest.dropWhile Char.isDigit
    else e :: sign :: c :: rest
  | [e, c] => if (e = 'e' ∨ e = 'E') ∧ c.isDigit then [] else [e, c]
  | cs => cs

def afterNumber? (cs : List Char) : Option (List Char) := do
  let unsigned := (after? ['-'] cs).getD cs
  let rest ← afterWhole? unsigned
  pure (afterExponent (afterFraction rest))

/-- The words that stand for values. -/
def words : List (List Char × Json) :=
  [("null".toList, .null), ("true".toList, .truth true), ("false".toList, .truth false),
   ("NaN".toList, .number "NaN".toList), ("Infinity".toList, .number "Infinity".toList),
   ("-Infinity".toList, .number "-Infinity".toList)]

def scalar? (cs : List Char) : Option (Json × List Char) :=
  match words.findSome? fun w => (after? w.1 cs).map (w.2, ·) with
  | some found => some found
  | none => (afterNumber? cs).map fun rest => (.number (cs.take (cs.length - rest.length)), rest)

def escaped? : Char → Option Nat
  | '"' => some 34
  | '\\' => some 92
  | '/' => some 47
  | 'b' => some 8
  | 'f' => some 12
  | 'n' => some 10
  | 'r' => some 13
  | 't' => some 9
  | _ => none

/-- The units of a text up to its closing quote, and what follows. Control characters are
refused. -/
def units? : List Char → Option (List Nat × List Char)
  | [] => none
  | '"' :: rest => some ([], rest)
  | '\\' :: 'u' :: a :: b :: c :: d :: rest => do
    let high ← Hex.decode? [a, b]
    let low ← Hex.decode? [c, d]
    if high.length ≠ 1 ∨ low.length ≠ 1 then none
    let (tail, rest) ← units? rest
    pure (Octets.value (high ++ low) :: tail, rest)
  | '\\' :: c :: rest => do
    let n ← escaped? c
    let (tail, rest) ← units? rest
    pure (n :: tail, rest)
  | c :: rest => do
    if c.toNat < 32 then none
    let (tail, rest) ← units? rest
    pure (c.toNat :: tail, rest)

/-- A surrogate that stands alone has no character and is read as the replacement character. -/
def unitChar (u : Nat) : Char :=
  if 0xd800 ≤ u ∧ u < 0xe000 then '\uFFFD' else Char.ofNat u

/-- Characters of units, of which a high and a low surrogate in a row make one. -/
def joinUnits : List Nat → List Char
  | [] => []
  | [u] => [unitChar u]
  | u :: v :: rest =>
    if 0xd800 ≤ u ∧ u < 0xdc00 ∧ 0xdc00 ≤ v ∧ v < 0xe000 then
      Char.ofNat (0x10000 + (u - 0xd800) * 0x400 + (v - 0xdc00)) :: joinUnits rest
    else unitChar u :: joinUnits (v :: rest)

def text? (cs : List Char) : Option (List Char × List Char) :=
  (units? cs).map fun r => (joinUnits r.1, r.2)

mutual

def value? : (fuel : Nat) → List Char → Option (Json × List Char)
  | 0, _ => none
  | _ + 1, '"' :: rest => do
    let (s, rest) ← text? rest
    pure (.text s, rest)
  | fuel + 1, '[' :: rest =>
    match skipBlank rest with
    | ']' :: rest => some (.array [], rest)
    | rest => (items? fuel rest).map fun r => (.array r.1, r.2)
  | fuel + 1, '{' :: rest =>
    match skipBlank rest with
    | '}' :: rest => some (.object [], rest)
    | rest => (fields? fuel rest).map fun r => (.object r.1, r.2)
  | _ + 1, cs => scalar? cs

/-- Items and the bracket that closes them. -/
def items? : (fuel : Nat) → List Char → Option (List Json × List Char)
  | 0, _ => none
  | fuel + 1, cs => do
    let (v, rest) ← value? fuel cs
    match skipBlank rest with
    | ']' :: rest => pure ([v], rest)
    | ',' :: rest => (items? fuel (skipBlank rest)).map fun r => (v :: r.1, r.2)
    | _ => none

/-- Fields and the brace that closes them. -/
def fields? : (fuel : Nat) → List Char → Option (List (List Char × Json) × List Char)
  | 0, _ => none
  | fuel + 1, cs => do
    let (key, rest) ← text? (← after? ['"'] cs)
    let (v, rest) ← value? fuel (skipBlank (← after? [':'] (skipBlank rest)))
    match skipBlank rest with
    | '}' :: rest => pure ([(key, v)], rest)
    | ',' :: rest => (fields? fuel (skipBlank rest)).map fun r => ((key, v) :: r.1, r.2)
    | _ => none

end

/-- One value with blanks around it. Two steps of fuel for each character are enough, since every
second step passes one. -/
def parse? (cs : List Char) : Option Json := do
  let (v, rest) ← value? (2 * cs.length + 2) (skipBlank cs)
  if (skipBlank rest).isEmpty then some v else none

/-- The last field of the name. -/
def field? (fields : List (List Char × Json)) (name : String) : Option Json :=
  (fields.reverse.find? fun f => f.1 == name.toList).map (·.2)

def hexUnit (u : Nat) : List Char :=
  '\\' :: 'u' :: Hex.encode (Octets.ofNat 2 u)

/-- All but printing ASCII is written by its units. -/
def escape (c : Char) : List Char :=
  if c = '"' ∨ c = '\\' then ['\\', c]
  else if c = '\n' then ['\\', 'n']
  else if c = '\r' then ['\\', 'r']
  else if c = '\t' then ['\\', 't']
  else if c.toNat = 8 then ['\\', 'b']
  else if c.toNat = 12 then ['\\', 'f']
  else if 32 ≤ c.toNat ∧ c.toNat < 127 then [c]
  else if c.toNat < 0x10000 then hexUnit c.toNat
  else hexUnit (0xd800 + (c.toNat - 0x10000) / 0x400) ++
    hexUnit (0xdc00 + (c.toNat - 0x10000) % 0x400)

def writeText (s : List Char) : List Char :=
  '"' :: s.flatMap escape ++ ['"']

def writeField (f : String × List Char) : List Char :=
  writeText f.1.toList ++ ": ".toList ++ writeText f.2

def writeTexts (fields : List (String × List Char)) : List Char :=
  '{' :: ", ".toList.intercalate (fields.map writeField) ++ ['}']

end Json
end KeyAgreement
