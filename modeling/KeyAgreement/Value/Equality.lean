import KeyAgreement.Keys.Ephemeral

/-! Equality and hashing of values. Elements and ephemeral keys are compared by their octets, if
they belong to the same group or parameter set; groups, parameter sets and parties are equal to
themselves alone. -/
namespace KeyAgreement

def Element.equals (e f : Element) : Except Fault Bool :=
  if f.group = e.group then do
    let b ← e.encode
    let c ← f.encode
    pure (b == c)
  else pure false

def EphemeralKey.equals (k l : EphemeralKey) : Except Fault Bool :=
  if k.params.isSame l.params then do
    let b ← k.pack
    let c ← l.pack
    pure (b == c)
  else pure false

/-- Truth values are equal to their numbers. -/
def Datum.equals (d e : Datum) : Bool :=
  match d.number?, e.number? with
  | some m, some n => m == n
  | _, _ => d = e

/-- Tables with the same names and equal data under each, in any order. -/
def sameEntries (xs ys : List (String × Datum)) : Bool :=
  xs.length == ys.length && xs.all fun (name, d) => (ys.lookup name).any d.equals

/-- What the hash of plain data is taken of. -/
inductive PlainHashKey where
  | nothing
  | number (n : Int)
  | octets (b : Octets)
  deriving DecidableEq

namespace PlainHashKey

/-- The hash of a number keeps its sign and its remainder modulo a Mersenne prime; -1 is not a
hash. -/
def ofInt (n : Int) : PlainHashKey :=
  let r := n.tmod 0x1fffffffffffffff
  .number (if r = -1 then -2 else r)

/-- Nothing written hashes to zero. -/
def ofOctets (b : Octets) : PlainHashKey :=
  if b.isEmpty then .number 0 else .octets b

/-- Characters in little-endian units of the least width that fits them all. -/
def ofText (s : String) : PlainHashKey :=
  let codes := s.toList.map Char.toNat
  let width := if codes.all (· < 256) then 1 else if codes.all (· < 65536) then 2 else 4
  ofOctets (codes.flatMap fun c => (Octets.ofNat width c).reverse)

end PlainHashKey

def Datum.hashKey : Datum → PlainHashKey
  | .nothing => .nothing
  | .truth b => .ofInt b.toInt
  | .number n => .ofInt n
  | .octets b => .ofOctets b
  | .text s => .ofText s

/-- What a hash is taken of: two values hash alike if their keys agree. -/
inductive HashKey where
  | plain (k : PlainHashKey)
  | tuple (ks : List PlainHashKey)
  | group (G : Group)
  | params (serial : Nat)
  | party (serial : Nat)
  | generator (serial : Nat)
  | source (serial : Nat)
  deriving DecidableEq

namespace Value

/-- Values of different kinds are unequal, but octets may be fixed or not, and tuples may have
names or not. -/
def equals : Value → Value → Except Fault Bool
  | .element e, .element f => e.equals f
  | .ephemeral k, .ephemeral l => k.equals l
  | .plain d, .plain e => pure (d.equals e)
  | .octets b, .buffer c | .buffer b, .octets c | .buffer b, .buffer c => pure (b == c)
  | .list xs, .list ys => pure (xs.isEqv ys Datum.equals)
  | .table xs, .table ys => pure (sameEntries xs ys)
  | .group G, .group H => pure (G = H)
  | .params P, .params Q => pure (P.isSame Q)
  | .party S, .party T => pure (S.serial == T.serial)
  | .generator m, .generator n => pure (m == n)
  | .source m, .source n => pure (m == n)
  | v, w =>
    match v.fixedItems?, w.fixedItems? with
    | some xs, some ys => pure (xs.isEqv ys Datum.equals)
    | _, _ => pure false

/-- What may change has no hash. -/
def hashKey : Value → Except Fault HashKey
  | .plain d => pure (.plain d.hashKey)
  | .buffer _ | .list _ | .table _ => throw .wrongKind
  | .tuple items => pure (.tuple (items.map Datum.hashKey))
  | .element e => do pure (.plain (.ofOctets (← e.encode)))
  | .ephemeral k => do pure (.plain (.ofOctets (← k.pack)))
  | .staticKey k => pure (.tuple (k.items.map Datum.hashKey))
  | .verdict r => pure (.tuple (r.items.map Datum.hashKey))
  | .group G => pure (.group G)
  | .params P => pure (.params P.serial)
  | .party S => pure (.party S.serial)
  | .generator n => pure (.generator n)
  | .source n => pure (.source n)

def hashesAlike (v w : Value) : Except Fault Bool := do
  let k ← v.hashKey
  let l ← w.hashKey
  pure (k = l)

end Value
end KeyAgreement
