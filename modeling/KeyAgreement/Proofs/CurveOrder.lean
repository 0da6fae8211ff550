import KeyAgreement.Parameters.Small
import KeyAgreement.Proofs.PointCodec

/-! Multiples of a base of odd prime order: they are the multiples of a point of the group law. -/
namespace KeyAgreement

namespace Curve
variable (C : Curve)

/-- Coordinates are below the modulus. -/
def Reduced : Point → Prop
  | .infinity => True
  | .affine x y => (0 ≤ x ∧ x < C.modulus) ∧ 0 ≤ y ∧ y < C.modulus

/-- Coordinates fulfil the equation of the curve. -/
def Passes : Point → Prop
  | .infinity => True
  | .affine x y => C.contains x y

theorem contains_iff (x y : Int) : C.contains x y = true ↔
    (y : ZMod C.modulus) ^ 2 = (x : ZMod C.modulus) ^ 3 + C.a * x + C.b := by
  rw [contains, decide_eq_true_iff, ← Int.dvd_iff_emod_eq_zero, ← ZMod.intCast_zmod_eq_zero_iff_dvd]
  push_cast
  rw [sub_eq_zero]
  constructor <;> intro h <;> linear_combination h

/-- A point that is its own opposite alternates with infinity. -/
theorem repeated_of_double {P : Point} (h : C.add P P = .infinity) (k : Nat) :
    C.repeated k P = if k % 2 = 1 then P else .infinity := by
  induction k using Nat.strong_induction_on with
  | h k ih =>
    rw [repeated]
    split
    · rename_i hzero
      simp [hzero]
    · have hdouble : C.add (C.repeated (k / 2) P) (C.repeated (k / 2) P) = .infinity := by
        rw [ih (k / 2) (by omega)]
        split
        · exact h
        · exact C.infinity_add _
      simp only [hdouble, infinity_add]

end Curve

namespace CurveGroup

/-- The encodings of points: zeros for infinity, else the parity of the ordinate and the
abscissa. -/
def compressed (G : CurveGroup) : G.curve.equation.Point → Octets
  | .zero => List.replicate (1 + octetWidth G.curve.modulus) 0
  | .some x y _ =>
      (if y.val % 2 = 1 then 3 else 2) :: Octets.ofNat (octetWidth G.curve.modulus) x.val

/-- The base lies on a curve over an odd prime field, and its order is an odd prime. -/
structure PrimeOrder (G : CurveGroup) : Prop where
  modulus_prime : G.curve.modulus.Prime
  modulus_odd : G.curve.modulus ≠ 2
  order_prime : G.subgroupOrder.toNat.Prime
  order_odd : G.subgroupOrder ≠ 2
  base_reduced : G.curve.Reduced G.base
  base_passes : G.curve.Passes G.base
  base_finite : G.base ≠ .infinity
  base_order : G.curve.repeated G.subgroupOrder.toNat G.base = .infinity

theorem curve17_primeOrder : curve17.PrimeOrder where
  modulus_prime := by decide
  modulus_odd := by decide
  order_prime := by decide
  order_odd := by decide
  base_reduced := by exact ⟨by decide, by decide⟩
  base_passes := rfl
  base_finite := by decide
  base_order := by decide +kernel

theorem curve11_primeOrder : curve11.PrimeOrder where
  modulus_prime := by decide
  modulus_odd := by decide
  order_prime := by decide
  order_odd := by decide
  base_reduced := by exact ⟨by decide, by decide⟩
  base_passes := rfl
  base_finite := by decide
  base_order := by decide +kernel

/-- Reduced coordinates are those of the point that they are cast to. -/
theorem affine_eq_written (G : CurveGroup) [Fact G.curve.modulus.Prime] {x y : Int}
    (hreduced : G.curve.Reduced (.affine x y)) (hxy : G.curve.equation.Nonsingular x y) :
    Point.affine x y = G.curve.written (.some x y hxy) := by
  obtain ⟨⟨hx₀, hx⟩, hy₀, hy⟩ := hreduced
  rw [Curve.written, ← G.eq_val_of_cast_eq hx₀ hx rfl, ← G.eq_val_of_cast_eq hy₀ hy rfl]

namespace PrimeOrder
variable {G : CurveGroup} (h : G.PrimeOrder)
include h

theorem order_pos : 0 < G.subgroupOrder := by
  have := h.order_prime.pos
  omega

theorem order_mod_two : G.subgroupOrder.toNat % 2 = 1 := by
  have hq := h.order_prime.eq_two_or_odd
  have := h.order_odd
  omega

/-- The base is a nonsingular point, since its odd order keeps its ordinate from being zero. -/
theorem exists_base [Fact G.curve.modulus.Prime] : ∃ B : G.curve.equation.Point,
    G.base = G.curve.written B ∧ B ≠ 0 ∧ G.subgroupOrder.toNat • B = 0 := by
  have hreduced := h.base_reduced
  have hpasses := h.base_passes
  have horder := h.base_order
  rcases hbase : G.base with _ | ⟨x, y⟩
  · exact absurd hbase h.base_finite
  rw [hbase] at hreduced hpasses horder
  have hy_ne : y ≠ 0 := by
    rintro rfl
    have hdouble : G.curve.add (.affine x 0) (.affine x 0) = .infinity := by simp [Curve.add]
    rw [G.curve.repeated_of_double hdouble, if_pos h.order_mod_two] at horder
    cases horder
  have hyval : y = (y : ZMod G.curve.modulus).val :=
    G.eq_val_of_cast_eq hreduced.2.1 hreduced.2.2 rfl
  have hnonsingular : G.curve.equation.Nonsingular x y := by
    refine (WeierstrassCurve.Affine.nonsingular_iff _ _).mpr
      ⟨G.equation_iff.mpr ((G.curve.contains_iff x y).mp hpasses), Or.inr ?_⟩
    apply (G.curve.ne_negY_iff h.modulus_odd x y).mpr
    intro hzero
    rw [hzero, ZMod.val_zero] at hyval
    exact hy_ne hyval
  have hwritten := G.affine_eq_written hreduced hnonsingular
  refine ⟨.some x y hnonsingular, hwritten, WeierstrassCurve.Affine.Point.some_ne_zero _, ?_⟩
  apply G.curve.written_injective
  rw [← G.curve.repeated_written h.modulus_odd, ← hwritten, horder]
  rfl

end PrimeOrder

variable {G : CurveGroup} [Fact G.curve.modulus.Prime]

/-- Multiples of points whose order is an odd number are taken by scaling. -/
theorem pow_written (odd : G.curve.modulus ≠ 2) {q : Nat} (hq : q % 2 = 1) (k : Nat)
    {P : G.curve.equation.Point} (hP : q • P = 0) :
    G.pow (G.curve.written P) k = G.curve.written (k • P) :=
  G.curve.scale_written odd k (G.curve.eq_zero_or_double_ne_zero hq hP)

/-- Powers of the base are the multiples of its point. -/
theorem PrimeOrder.basePower_written (h : G.PrimeOrder) {B : G.curve.equation.Point}
    (hbase : G.base = G.curve.written B) (horder : G.subgroupOrder.toNat • B = 0) (i : Int) :
    G.basePower i = G.curve.written (i • B) := by
  have hpos := h.order_pos
  have horder' : G.subgroupOrder • B = 0 := by
    rw [← Int.toNat_of_nonneg hpos.le, natCast_zsmul, horder]
  have hnonneg := Int.emod_nonneg i hpos.ne'
  have hsplit : i • B = (i % G.subgroupOrder) • B := by
    conv_lhs => rw [← Int.emod_add_mul_ediv i G.subgroupOrder, add_zsmul, mul_comm, mul_zsmul,
      horder', zsmul_zero, add_zero]
  rw [basePower, Int.fmod_eq_emod_of_nonneg _ hpos.le, hbase, hsplit, ← Int.toNat_of_nonneg hnonneg,
    natCast_zsmul]
  exact G.curve.scale_written h.modulus_odd _
    (G.curve.eq_zero_or_double_ne_zero h.order_mod_two horder)

theorem encode_written (P : G.curve.equation.Point) :
    G.encode (G.curve.written P) = .ok (G.compressed P) := by
  rcases P with _ | ⟨x, y, hxy⟩
  · rfl
  · have := x.val_lt
    have hparity : parityOctet y.val = if y.val % 2 = 1 then 3 else 2 := by
      unfold parityOctet
      congr 1
      rw [eq_iff_iff]
      omega
    rw [Curve.written, G.encode_affine (by omega) (by omega), hparity]
    rfl

theorem contains_val {x y : ZMod G.curve.modulus} (h : G.curve.equation.Nonsingular x y) :
    G.curve.contains x.val y.val = true := by
  rw [G.curve.contains_iff]
  simpa using G.equation_iff.mp h.left

/-- Multiples other than the identity are valid at every level. -/
theorem validate_written (odd : G.curve.modulus ≠ 2) (level : Int) {P : G.curve.equation.Point}
    (hP : P ≠ 0) (hq : G.subgroupOrder.toNat % 2 = 1) (horder : G.subgroupOrder.toNat • P = 0) :
    G.validate level (G.curve.written P) = true := by
  have hscale : G.curve.scale G.subgroupOrder (G.curve.written P) = .infinity := by
    have hpos : 0 ≤ G.subgroupOrder := by omega
    have hpow := pow_written odd hq G.subgroupOrder.toNat horder
    rw [horder, pow, Int.toNat_of_nonneg hpos] at hpow
    exact hpow
  rcases P with _ | ⟨x, y, hxy⟩
  · exact absurd rfl hP
  · rw [Curve.written] at hscale ⊢
    simp only [validate, contains_val hxy, hscale, decide_true, Bool.or_true, Bool.and_true]

end CurveGroup
end KeyAgreement
