import KeyAgreement.Curve
import KeyAgreement.Octets

/-! Groups of curve points, encoded by abscissa and parity of the ordinate. -/
namespace KeyAgreement

/-- Groups with equal parameters are told apart by their serial numbers. -/
structure CurveGroup where
  serial : Nat
  name : String
  curve : Curve
  subgroupOrder : Int
  cofactor : Int
  base : Point
  deriving DecidableEq

namespace CurveGroup

/-- A group without a name is called after its curve, and a cofactor of zero counts as one. -/
def make (serial : Nat) (curve : Curve) (base : Point) (order cofactor : Int)
    (curveName name : String) : CurveGroup where
  serial
  name := if name = "" then curveName else name
  curve
  subgroupOrder := order
  cofactor := if cofactor = 0 then 1 else cofactor
  base

variable (G : CurveGroup)

def coordinateWidth : Nat := octetWidth G.curve.modulus
def width : Nat := 1 + G.coordinateWidth
def scalarWidth : Nat := octetWidth G.subgroupOrder

def mul (P Q : Point) : Point := G.curve.add P Q

def pow (P : Point) (k : Nat) : Point := G.curve.scale k P

/-- The multiple of the base whose factor is reduced by the subgroup order. -/
def basePower (i : Int) : Point :=
  G.curve.scale (i.fmod G.subgroupOrder) G.base

/-- The first octet of a compressed point. -/
def parityOctet (y : Int) : UInt8 :=
  if y % 2 = 1 then 3 else 2

/-- Infinity, which has no compressed form, is written as zeros. -/
def encode : Point → Except Fault Octets
  | .infinity => pure (List.replicate G.width 0)
  | .affine x y => (parityOctet y :: ·) <$> Octets.fixed x G.curve.modulus

/-- The root with the wanted parity, given either root. -/
def ordinate (odd : Bool) (root : Int) : Int :=
  if (root % 2 = 1) = odd then root else G.curve.modulus - root

/-- Decoding by any means of finding square roots modulo the modulus. -/
def decodeWith (squareRoot? : Int → Option Int) (b : Octets) : Except BadEncoding Point :=
  if b.length ≠ G.width then throw (.wrongLength G.width b.length)
  else
    let lead := b.headD 0
    let x : Int := Octets.value (b.drop 1)
    if lead ≠ 2 ∧ lead ≠ 3 then throw .notCompressed
    else if G.curve.modulus ≤ x then throw .abscissaNotInField
    else
      match squareRoot? (G.curve.rightSide x) with
      | none => throw .notOnCurve
      | some root =>
        if root = 0 ∧ lead = 3 then throw .noOddOrdinate
        else pure (.affine x (G.ordinate (lead == 3) root))

def decode : Octets → Except BadEncoding Point :=
  G.decodeWith fun t => Modular.squareRoot? t G.curve.modulus

/-- Level 0 asks for a finite point, level 1 also for one on the curve, and higher levels also for
membership in the subgroup. -/
def validate (level : Int) : Point → Bool
  | .infinity => false
  | .affine x y =>
    (level < 1 || G.curve.contains x y)
      && (level < 2 || G.curve.scale G.subgroupOrder (.affine x y) = .infinity)

end CurveGroup
end KeyAgreement
