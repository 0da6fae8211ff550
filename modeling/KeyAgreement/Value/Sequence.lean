import KeyAgreement.Value

/-! Values as sequences: how long they are, what parts they have, and which octets they spell. -/
namespace KeyAgreement

def StaticKey.items (k : StaticKey) : List Datum :=
  [.octets k.privateKey, .octets k.publicKey]

def Verdict.items (r : Verdict) : List Datum :=
  [.truth r.succeeded, match r.agreedValue with
    | some b => .octets b
    | none => .nothing]

namespace Datum

/-- Truth values count as the numbers one and zero. -/
def number? : Datum → Option Int
  | .truth b => some b.toInt
  | .number n => some n
  | _ => none

/-- The octet that a number stands for. -/
def octet (d : Datum) : Except Fault UInt8 :=
  match d.number? with
  | some n => if 0 ≤ n ∧ n < 256 then pure (UInt8.ofNat n.toNat) else throw .digitRange
  | none => throw .wrongKind

end Datum

namespace Value

/-- The items of a tuple; static keys and verdicts are tuples whose items have names. -/
def fixedItems? : Value → Option (List Datum)
  | .tuple items => some items
  | .staticKey k => some k.items
  | .verdict r => some r.items
  | _ => none

/-- What a walk through a value meets; in a table, the names of the entries. -/
def members? : Value → Option (List Datum)
  | .list items => some items
  | .table entries => some (entries.map fun entry => .text entry.1)
  | v => v.fixedItems?

/-- The number of octets, characters or members. -/
def length : Value → Except Fault Nat
  | .octets b | .buffer b => pure b.length
  | .text s => pure s.length
  | v =>
    match v.members? with
    | some members => pure members.length
    | none => throw .wrongKind

/-- A part of a sequence, chosen by position. Tables have no order to choose by. -/
def part (choose : {α : Type} → List α → List α) : Value → Except Fault Value
  | .octets b => pure (.octets (choose b))
  | .buffer b => pure (.buffer (choose b))
  | .text s => pure (.text (String.ofList (choose s.toList)))
  | .list items => pure (.list (choose items))
  | v =>
    match v.fixedItems? with
    | some items => pure (.tuple (choose items))
    | none => throw .wrongKind

/-- The octets that a value consists of, one for each member if it is a sequence of numbers. -/
def spelled (v : Value) : Except Fault Octets :=
  match v.octets?, v.members? with
  | some b, _ => pure b
  | none, some members => members.mapM Datum.octet
  | none, none => throw .wrongKind

/-- The number that a value is, if it is one. -/
def number? : Value → Option Int
  | .plain d => d.number?
  | _ => none

/-- Octets to be changed in place; a number stands for so many zeros, if there is room for them. -/
def draft (v : Value) : Except Fault Octets :=
  match v.number? with
  | some n =>
    if 0x8000000000000000 ≤ n.natAbs then throw .overflow
    else if n < 0 then throw .digitRange
    else if 0x100000000 ≤ n then throw .noRoom
    else pure (List.replicate n.toNat 0)
  | none => v.spelled

end Value
end KeyAgreement
