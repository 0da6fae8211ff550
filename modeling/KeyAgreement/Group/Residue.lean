import KeyAgreement.Modular
import KeyAgreement.Octets

/-! Groups of residues: the powers of a base modulo a number. -/
namespace KeyAgreement

/-- Groups with equal parameters are told apart by their serial numbers. -/
structure ResidueGroup where
  serial : Nat
  name : String
  modulus : Nat
  subgroupOrder : Int
  base : Int
  order_dvd : subgroupOrder ∣ (modulus : Int) - 1
  one_lt_base : 1 < base
  base_lt_modulus : base < modulus
  base_power : Modular.signedPower? base subgroupOrder modulus = some 1
  deriving DecidableEq

namespace ResidueGroup

/-- Refuses parameters under which the base does not have an order dividing `order`. A group
without a name is called after the size of its modulus. -/
def make (serial : Nat) (modulus order base : Int) (name : String) : Except Fault ResidueGroup :=
  if order = 0 then throw .zeroOrder
  else if dvd : order ∣ modulus - 1 then
    if range : 1 < base ∧ base < modulus then
      match power : Modular.signedPower? base order modulus.toNat with
      | none => throw .notInvertible
      | some r =>
        if one : r = 1 then
          pure {
            serial
            name := if name = "" then s!"I{bitWidth modulus}" else name
            modulus := modulus.toNat
            subgroupOrder := order
            base
            order_dvd := by rwa [Int.toNat_of_nonneg (by omega)]
            one_lt_base := range.1
            base_lt_modulus := by omega
            base_power := one ▸ power }
        else throw .groupRefused
    else throw .groupRefused
  else throw .groupRefused

variable (G : ResidueGroup)

def width : Nat := octetWidth G.modulus
def scalarWidth : Nat := octetWidth G.subgroupOrder

def mul (u v : Int) : Int := u * v % G.modulus

def pow (v : Int) (k : Nat) : Int := Modular.power v k G.modulus

/-- The power of the base whose exponent is reduced by the subgroup order. -/
def basePower (i : Int) : Int :=
  (Modular.signedPower? G.base (i.fmod G.subgroupOrder) G.modulus).getD 1

def encode (v : Int) : Except Fault Octets :=
  Octets.fixed v G.modulus

/-- Accepts the fixed-width encodings of 1 up to the modulus, without it. -/
def decode (b : Octets) : Except BadEncoding Int :=
  if b.length ≠ G.width then throw (.wrongLength G.width b.length)
  else if b.value = 0 ∨ G.modulus ≤ b.value then throw .notInField
  else pure b.value

/-- Level 0 asks for a residue that is not zero, level 1 also for another than one, and higher
levels also for membership in the subgroup. -/
def validate (level v : Int) : Bool :=
  0 < v && v < G.modulus
    && (level < 1 || v ≠ 1)
    && (level < 2 || Modular.signedPower? v G.subgroupOrder G.modulus = some 1)

/-- Whether the test at the level can be made: a power with a negative order needs a unit. -/
def testable (level v : Int) : Bool :=
  level < 2 || !G.validate 1 v || (Modular.signedPower? v G.subgroupOrder G.modulus).isSome

end ResidueGroup
end KeyAgreement
