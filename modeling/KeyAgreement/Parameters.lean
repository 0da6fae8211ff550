import KeyAgreement.Group
import KeyAgreement.Hash
import KeyAgreement.Octets.Hex

/-! Parameter sets, a group with the hash function used in it, and the two sides that agree under
one. -/
namespace KeyAgreement

def Group.shown : Group → String
  | .residue G => s!"<IntegerGroup {G.name}>"
  | .curve G => s!"<EllipticCurveGroup {G.name}>"

/-- Sets with equal parameters are told apart by their serial numbers. -/
structure Parameters where
  serial : Nat
  group : Group
  hash : HashFunction

namespace Parameters
variable (P : Parameters)

/-- Whether two parameter sets are one and the same. -/
def isSame (Q : Parameters) : Bool := P.serial == Q.serial

def shown : String := s!"<Params {P.group.name}/{P.hash.name}>"

/-- The name of the group, its base, its subgroup order and the name of the hash function, with a
zero octet between each two. -/
def fingerprintInput : Except Fault Octets := do
  let some name := Octets.ofAscii? P.group.name | throw .notAsciiText
  if P.group.subgroupOrder = 0 then throw .zeroOrder
  let base ← P.group.encode (P.group.basePower 1)
  let order ← Octets.fixed P.group.subgroupOrder P.group.subgroupOrder
  let some hash := Octets.ofAscii? P.hash.name | throw .notAsciiText
  pure ([0].intercalate [name, base, order, hash])

/-- Hexadecimal text that tells parameter sets apart. -/
def fingerprint : Except Fault (List Char) := do
  pure (Hex.encode (HashFunction.sha256.digest (← P.fingerprintInput)))

end Parameters

inductive Role where
  | initiator
  | responder
  deriving DecidableEq, Repr

/-- One side of an agreement under given parameters. -/
structure Party where
  serial : Nat
  role : Role
  params : Parameters

namespace Party

def shown (S : Party) : String :=
  match S.role with
  | .initiator => s!"<FHMQV_Initiator {S.params.shown}>"
  | .responder => s!"<FHMQV_Responder {S.params.shown}>"

end Party
end KeyAgreement
