import KeyAgreement.Group.Residue
import KeyAgreement.Group.Elliptic

/-! Groups of either kind, and their elements. -/
namespace KeyAgreement

inductive Group where
  | residue (G : ResidueGroup)
  | curve (G : CurveGroup)
  deriving DecidableEq

namespace Group

/-- What the elements of a group hold. -/
def Carrier : Group → Type
  | .residue _ => Int
  | .curve _ => Point

def name : Group → String
  | .residue G => G.name
  | .curve G => G.name

def subgroupOrder : Group → Int
  | .residue G => G.subgroupOrder
  | .curve G => G.subgroupOrder

/-- The number of elements of the whole group. -/
def order : Group → Int
  | .residue G => G.modulus - 1
  | .curve G => G.subgroupOrder * G.cofactor

def largestExponent (G : Group) : Int := G.subgroupOrder - 1

/-- The length of an encoded element. -/
def width : Group → Nat
  | .residue G => G.width
  | .curve G => G.width

/-- The length of an encoded exponent. -/
def scalarWidth (G : Group) : Nat := octetWidth G.subgroupOrder

def identity : (G : Group) → G.Carrier
  | .residue _ => (1 : Int)
  | .curve _ => Point.infinity

def base : (G : Group) → G.Carrier
  | .residue G => G.base
  | .curve G => G.base

def mul : (G : Group) → G.Carrier → G.Carrier → G.Carrier
  | .residue G => G.mul
  | .curve G => G.mul

/-- Powers with unreduced exponents. -/
def pow : (G : Group) → G.Carrier → Nat → G.Carrier
  | .residue G => G.pow
  | .curve G => G.pow

/-- Powers of the base; the exponent is reduced by the subgroup order. -/
def basePower : (G : Group) → Int → G.Carrier
  | .residue G => G.basePower
  | .curve G => G.basePower

def encode : (G : Group) → G.Carrier → Except Fault Octets
  | .residue G => G.encode
  | .curve G => G.encode

def decode : (G : Group) → Octets → Except BadEncoding G.Carrier
  | .residue G => G.decode
  | .curve G => G.decode

def validate : (G : Group) → (level : Int) → G.Carrier → Bool
  | .residue G => G.validate
  | .curve G => G.validate

end Group

structure Element where
  group : Group
  value : group.Carrier

namespace Element

def encode (e : Element) : Except Fault Octets :=
  e.group.encode e.value

end Element
end KeyAgreement
