import KeyAgreement.Parameters

/-! Parameter sets small enough to compute in by hand. -/
namespace KeyAgreement

/-- The squares modulo 23. -/
def residues23 : ResidueGroup where
  serial := 6
  name := "I23"
  modulus := 23
  subgroupOrder := 11
  base := 2
  order_dvd := by decide
  one_lt_base := by decide
  base_lt_modulus := by decide
  base_power := by decide +kernel

/-- All nineteen points of a curve modulo 17. -/
def curve17 : CurveGroup where
  serial := 7
  name := "E17"
  curve := ⟨17, 2, 2⟩
  subgroupOrder := 19
  cofactor := 1
  base := .affine 5 1

/-- Half of the fourteen points of a curve modulo 11; (2, 0) has order two. -/
def curve11 : CurveGroup where
  serial := 8
  name := "E11"
  curve := ⟨11, 1, 1⟩
  subgroupOrder := 7
  cofactor := 2
  base := .affine 3 3

/-- The powers of 64 modulo 67, of which there are eleven. -/
def residues67 : ResidueGroup where
  serial := 9
  name := "I7"
  modulus := 67
  subgroupOrder := 11
  base := 64
  order_dvd := by decide
  one_lt_base := by decide
  base_lt_modulus := by decide
  base_power := by decide +kernel

/-- The powers of 64 modulo 89, of which there are eleven too. -/
def residues89 : ResidueGroup where
  serial := 10
  name := "I7"
  modulus := 89
  subgroupOrder := 11
  base := 64
  order_dvd := by decide
  one_lt_base := by decide
  base_lt_modulus := by decide
  base_power := by decide +kernel

/-- The powers of 4 modulo 15, of which there are two; 15 is not prime. -/
def residues15 : ResidueGroup where
  serial := 11
  name := "I4"
  modulus := 15
  subgroupOrder := 2
  base := 4
  order_dvd := by decide
  one_lt_base := by decide
  base_lt_modulus := by decide
  base_power := by decide +kernel

namespace Parameters

def residues23 : Parameters := ⟨6, .residue KeyAgreement.residues23, .sha256⟩
def curve17 : Parameters := ⟨7, .curve KeyAgreement.curve17, .sha256⟩
def residues67 : Parameters := ⟨9, .residue KeyAgreement.residues67, .sha256⟩
def residues89 : Parameters := ⟨10, .residue KeyAgreement.residues89, .sha256⟩
end Parameters
end KeyAgreement
