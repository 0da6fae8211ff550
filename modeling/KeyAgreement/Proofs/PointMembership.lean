import KeyAgreement.Proofs.PointCompression
import Mathlib.GroupTheory.OrderOfElement

/-! What the test for membership in the subgroup finds out about points of a nonsingular curve. -/
namespace KeyAgreement
open WeierstrassCurve

namespace Curve

/-- The right side of the equation has no repeated root. -/
def Nonsingular (C : Curve) : Prop := ¬ (C.modulus : Int) ∣ 4 * C.a ^ 3 + 27 * C.b ^ 2

variable {C : Curve} [hp : Fact C.modulus.Prime]

theorem Nonsingular.discriminant_ne_zero (odd : C.modulus ≠ 2) (hC : C.Nonsingular) :
    C.equation.Δ ≠ 0 := by
  have hcubic : 4 * (C.a : ZMod C.modulus) ^ 3 + 27 * (C.b : ZMod C.modulus) ^ 2 ≠ 0 := by
    intro hzero
    apply hC
    rw [← ZMod.intCast_zmod_eq_zero_iff_dvd]
    push_cast
    exact hzero
  have hdiscriminant : C.equation.Δ =
      -2 ^ 4 * (4 * (C.a : ZMod C.modulus) ^ 3 + 27 * (C.b : ZMod C.modulus) ^ 2) := by
    simp only [WeierstrassCurve.Δ, b₂, b₄, b₆, b₈, equation]
    ring
  rw [hdiscriminant]
  exact mul_ne_zero (neg_ne_zero.mpr (pow_ne_zero 4 (Modular.two_ne_zero_of_odd odd))) hcubic

/-- Scaling by a number gives infinity for two reasons, and the second one is no matter of the
number. -/
theorem scale_eq_infinity_iff (odd : C.modulus ≠ 2) (k : Nat) (T : C.equation.Point) :
    C.scale k (C.written T) = .infinity ↔ k • T = 0 ∨ T + T = 0 := by
  by_cases hdouble : T + T = 0
  · simp only [C.scale_of_double odd k hdouble, hdouble, or_true]
  · rw [C.scale_written odd k (Or.inr hdouble), C.written_eq_infinity, or_iff_left hdouble]

end Curve

namespace CurveGroup
variable {G : CurveGroup} [hp : Fact G.curve.modulus.Prime]

/-- On a nonsingular curve all finite points are points of the group law. -/
theorem exists_written (odd : G.curve.modulus ≠ 2) (hG : G.curve.Nonsingular) {x y : Int}
    (h : G.curve.IsPoint (.affine x y)) :
    ∃ T : G.curve.equation.Point, Point.affine x y = G.curve.written T ∧ T ≠ 0 := by
  have hequation := G.equation_iff.mpr ((G.curve.contains_iff x y).mp h.passes)
  have hnonsingular := (Affine.equation_iff_nonsingular_of_Δ_ne_zero
    (hG.discriminant_ne_zero odd)).mp hequation
  exact ⟨.some x y hnonsingular, G.affine_eq_written h.reduced hnonsingular,
    Affine.Point.some_ne_zero hnonsingular⟩

/-- From level 2 on validation of a finite point is the test that scaling by the order gives
infinity. -/
theorem validate_written_iff {level : Int} (hlevel : 2 ≤ level) {T : G.curve.equation.Point}
    (hT : T ≠ 0) : G.validate level (G.curve.written T) = true ↔
      G.curve.scale G.subgroupOrder (G.curve.written T) = .infinity := by
  rcases T with _ | ⟨x, y, hxy⟩
  · exact absurd rfl hT
  · have hlevels : ¬ level < 1 ∧ ¬ level < 2 := by omega
    simp only [Curve.written, validate, contains_val hxy, hlevels, decide_false, Bool.false_or,
      Bool.true_and, decide_eq_true_iff]

namespace PrimeOrder

/-- A point that the subgroup order takes to the identity is none of order two. -/
theorem double_ne_zero (h : G.PrimeOrder) {T : G.curve.equation.Point} (hT : T ≠ 0)
    (hq : G.subgroupOrder.toNat • T = 0) : T + T ≠ 0 :=
  (G.curve.eq_zero_or_double_ne_zero h.order_mod_two hq).resolve_left hT

/-- From level 2 on, validation of a finite point takes its multiple by the subgroup order, except
that any point of order two passes. -/
theorem validate_iff_nsmul (h : G.PrimeOrder) {level : Int} (hlevel : 2 ≤ level)
    {T : G.curve.equation.Point} (hT : T ≠ 0) : G.validate level (G.curve.written T) = true ↔
      G.subgroupOrder.toNat • T = 0 ∨ T + T = 0 := by
  have horder : G.subgroupOrder = (G.subgroupOrder.toNat : Int) :=
    (Int.toNat_of_nonneg h.order_pos.le).symm
  rw [validate_written_iff hlevel hT, horder, G.curve.scale_eq_infinity_iff h.modulus_odd,
    Int.toNat_natCast]

theorem validate_iff_addOrderOf (h : G.PrimeOrder) {level : Int} (hlevel : 2 ≤ level)
    {T : G.curve.equation.Point} (hT : T ≠ 0) : G.validate level (G.curve.written T) = true ↔
      addOrderOf T = G.subgroupOrder.toNat ∨ addOrderOf T = 2 := by
  have := Fact.mk h.order_prime
  rw [h.validate_iff_nsmul hlevel hT, addOrderOf_eq_prime_iff, addOrderOf_eq_prime_iff, two_nsmul,
    and_iff_left hT, and_iff_left hT]

end PrimeOrder

/-- From level 2 on, validation of what decoding returns always has an answer: whether the order of
the point is that of the subgroup or two. It is the answer that the group law gives to whether the
point is in the subgroup exactly when the point is not its own opposite. -/
theorem membership_test_exact (h : G.PrimeOrder) (hG : G.curve.Nonsingular) {v : Value}
    {e : Element} (he : (Group.curve G).decodeValue v = .ok e) {level : Int} (hlevel : 2 ≤ level) :
    ∃ (T : G.curve.equation.Point) (passed : Bool), e = G.element (G.curve.written T) ∧ T ≠ 0 ∧
      (Group.curve G).validateValue level (.element e) = .ok passed ∧
      (passed = true ↔ addOrderOf T = G.subgroupOrder.toNat ∨ addOrderOf T = 2) ∧
      ((passed = true ↔ G.subgroupOrder.toNat • T = 0) ↔ T + T ≠ 0) := by
  obtain ⟨b, hb⟩ := Group.exists_octets_of_decodeValue he
  obtain ⟨P, hP, rfl⟩ := (Group.decodeValue_eq_ok (G := .curve G) hb).mp he
  obtain ⟨⟨x, y, rfl⟩, hpoint, -⟩ := encode_of_decode h.modulus_odd hP
  obtain ⟨T, hwritten, hT⟩ := exists_written h.modulus_odd hG hpoint
  rw [hwritten]
  refine ⟨T, G.validate level (G.curve.written T), rfl, hT,
    Group.validateValue_element (G := .curve G) h.order_pos level _,
    h.validate_iff_addOrderOf hlevel hT, ?_⟩
  have hexclusive := h.double_ne_zero hT
  rw [h.validate_iff_nsmul hlevel hT]
  constructor
  · intro hexact hdouble
    exact hexclusive (hexact.mp (Or.inr hdouble)) hdouble
  · exact or_iff_left

theorem curve11_nonsingular : curve11.curve.Nonsingular := by
  unfold Curve.Nonsingular
  decide

instance curve11_modulus_prime : Fact curve11.curve.modulus.Prime :=
  ⟨curve11_primeOrder.modulus_prime⟩

theorem curve11_decode :
    (Group.curve curve11).decodeValue (.octets [2, 2]) = .ok (curve11.element (.affine 2 0)) := by
  have hdecode : curve11.decode [2, 2] = .ok (.affine 2 0) := by decide +kernel
  exact Group.decodeValue_of_ok (G := .curve curve11) (Value.octets?_octets [2, 2]) hdecode

/-- On the curve modulo 11 the octets of the point (2, 0) are read and tested. -/
theorem curve11_membership_test_exact : curve11.PrimeOrder ∧ curve11.curve.Nonsingular ∧
    (Group.curve curve11).decodeValue (.octets [2, 2]) = .ok (curve11.element (.affine 2 0)) ∧
    ∃ (T : curve11.curve.equation.Point) (passed : Bool),
      curve11.element (.affine 2 0) = curve11.element (curve11.curve.written T) ∧ T ≠ 0 ∧
      (Group.curve curve11).validateValue 3 (.element (curve11.element (.affine 2 0))) =
        .ok passed ∧
      (passed = true ↔ addOrderOf T = curve11.subgroupOrder.toNat ∨ addOrderOf T = 2) ∧
      ((passed = true ↔ curve11.subgroupOrder.toNat • T = 0) ↔ T + T ≠ 0) :=
  ⟨curve11_primeOrder, curve11_nonsingular, curve11_decode,
    membership_test_exact curve11_primeOrder curve11_nonsingular curve11_decode (by decide)⟩

/-- It passes at level 3, though its order is two and its multiple by the subgroup order is not the
identity. -/
theorem curve11_order_two_passes :
    (Group.curve curve11).decodeValue (.octets [2, 2]) = .ok (curve11.element (.affine 2 0)) ∧
    (Group.curve curve11).validateValue 3 (.element (curve11.element (.affine 2 0))) = .ok true ∧
    ∃ T : curve11.curve.equation.Point, curve11.curve.written T = .affine 2 0 ∧
      addOrderOf T = 2 ∧ curve11.subgroupOrder.toNat • T ≠ 0 := by
  have hpoint : curve11.curve.IsPoint (.affine 2 0) := ⟨⟨by decide, by decide⟩, rfl⟩
  have hvalidate : curve11.validate 3 (.affine 2 0) = true := by decide +kernel
  obtain ⟨T, hwritten, hT⟩ :=
    exists_written curve11_primeOrder.modulus_odd curve11_nonsingular hpoint
  have hdouble : T + T = 0 := by
    have hadd := curve11.curve.add_written curve11_primeOrder.modulus_odd T T
    rw [← hwritten] at hadd
    exact curve11.curve.written_eq_infinity.mp (hadd.symm.trans (by decide))
  refine ⟨curve11_decode, ?_, T, hwritten.symm, ?_, ?_⟩
  · rw [← hvalidate]
    exact Group.validateValue_element (G := .curve curve11) curve11_primeOrder.order_pos 3 _
  · exact addOrderOf_eq_prime (by rwa [two_nsmul]) hT
  · intro hq
    exact curve11_primeOrder.double_ne_zero hT hq hdouble

end CurveGroup
end KeyAgreement
