import Mathlib.AlgebraicGeometry.EllipticCurve.Affine.Point
import KeyAgreement.Curve
import KeyAgreement.Proofs.PrimeField

/-! Arithmetic on written points is the group law of the nonsingular points over the field. -/
namespace KeyAgreement.Curve
open WeierstrassCurve
variable (C : Curve)

/-- The curve over the field of its modulus. -/
def equation : Affine (ZMod C.modulus) := ⟨0, 0, 0, C.a, C.b⟩

/-- A nonsingular point, written with reduced coordinates. -/
def written : C.equation.Point → Point
  | .zero => .infinity
  | .some x y _ => .affine x.val y.val

variable [hp : Fact C.modulus.Prime]

theorem emod_eq_val (z : Int) : z % C.modulus = ((z : ZMod C.modulus).val : Int) :=
  (ZMod.val_intCast z).symm

theorem emod_eq_zero_iff (z : Int) : z % C.modulus = 0 ↔ (z : ZMod C.modulus) = 0 := by
  rw [emod_eq_val, Int.natCast_eq_zero, ZMod.val_eq_zero]

/-- The third point on a line, from the slope in the field. -/
theorem chord_val {s : Int} {l x₁ y₁ x₂ : ZMod C.modulus} (hs : (s : ZMod C.modulus) = l) :
    C.chord s x₁.val y₁.val x₂.val =
      .affine (C.equation.addX x₁ x₂ l).val (C.equation.addY x₁ x₂ y₁ l).val := by
  have hx : ((s * s - x₁.val - x₂.val : Int) : ZMod C.modulus) = C.equation.addX x₁ x₂ l := by
    simp [Affine.addX, equation, hs, sq]
  simp only [chord, emod_eq_val, hx]
  congr 4
  simp [Affine.addY, Affine.negY, Affine.negAddY, equation, hs]
  ring

theorem negY_eq (x y : ZMod C.modulus) : C.equation.negY x y = -y := by
  simp [Affine.negY, equation]

/-- An ordinate that is its own opposite is zero, as the modulus is odd. -/
theorem ne_negY_iff (odd : C.modulus ≠ 2) (x y : ZMod C.modulus) :
    y ≠ C.equation.negY x y ↔ y ≠ 0 := by
  rw [negY_eq, Ne, eq_neg_iff_add_eq_zero, ← two_mul, mul_eq_zero,
    or_iff_right (Modular.two_ne_zero_of_odd odd)]

theorem chord_slope {x₁ x₂ y₁ y₂ : ZMod C.modulus} (hx : x₁ ≠ x₂) :
    C.chord ((y₁.val - y₂.val) * Modular.inverse (x₁.val - x₂.val) C.modulus % C.modulus)
        x₁.val y₁.val x₂.val =
      .affine (C.equation.addX x₁ x₂ (C.equation.slope x₁ x₂ y₁ y₂)).val
        (C.equation.addY x₁ x₂ y₁ (C.equation.slope x₁ x₂ y₁ y₂)).val := by
  apply chord_val
  have hdiff : (((x₁.val : Int) - x₂.val : Int) : ZMod C.modulus) = x₁ - x₂ := by simp
  rw [ZMod.intCast_mod, Int.cast_mul,
    Modular.cast_inverse (by rw [hdiff]; exact sub_ne_zero.mpr hx), Affine.slope_of_X_ne hx,
    div_eq_mul_inv, hdiff]
  simp

theorem tangent_slope (odd : C.modulus ≠ 2) {x y : ZMod C.modulus} (hy : y ≠ 0) :
    C.chord ((3 * x.val * x.val + C.a) * Modular.inverse (2 * y.val) C.modulus % C.modulus)
        x.val y.val x.val =
      .affine (C.equation.addX x x (C.equation.slope x x y y)).val
        (C.equation.addY x x y (C.equation.slope x x y y)).val := by
  apply chord_val
  have hdouble : ((2 * (y.val : Int) : Int) : ZMod C.modulus) = y - C.equation.negY x y := by
    rw [negY_eq]
    push_cast
    rw [ZMod.natCast_zmod_val]
    ring
  have hne : ((2 * (y.val : Int) : Int) : ZMod C.modulus) ≠ 0 := by
    push_cast
    rw [ZMod.natCast_zmod_val]
    exact mul_ne_zero (Modular.two_ne_zero_of_odd odd) hy
  rw [ZMod.intCast_mod, Int.cast_mul, Modular.cast_inverse hne,
    Affine.slope_of_Y_ne rfl ((C.ne_negY_iff odd x y).mpr hy), div_eq_mul_inv, hdouble]
  congr 1
  simp [equation]
  ring

/-- Adding written points is adding the points. -/
theorem add_written (odd : C.modulus ≠ 2) (P Q : C.equation.Point) :
    C.add (C.written P) (C.written Q) = C.written (P + Q) := by
  rcases P with _ | ⟨x₁, y₁, h₁⟩
  · exact (C.infinity_add _).trans (congrArg C.written (zero_add Q).symm)
  rcases Q with _ | ⟨x₂, y₂, h₂⟩
  · exact (C.add_infinity _).trans (congrArg C.written (add_zero _).symm)
  have hdx : (((x₁.val : Int) - x₂.val : Int) : ZMod C.modulus) = x₁ - x₂ := by simp
  have hdy : (((y₁.val : Int) - y₂.val : Int) : ZMod C.modulus) = y₁ - y₂ := by simp
  simp only [written, add, Ne, C.emod_eq_zero_iff, hdx, hdy, sub_eq_zero, Int.cast_natCast,
    ZMod.natCast_zmod_val]
  by_cases hx : x₁ = x₂
  · rw [if_neg (by simpa using hx)]
    by_cases hy : y₁ = C.equation.negY x₂ y₂
    · have hnot : ¬ (y₁ = y₂ ∧ ¬ y₁ = 0) := by
        rintro ⟨rfl, hy₀⟩
        exact (C.ne_negY_iff odd x₂ y₁).mpr hy₀ hy
      rw [Affine.Point.add_of_Y_eq hx hy, if_neg hnot, Affine.Point.zero_def]
    · have hyy := Affine.Y_eq_of_Y_ne h₁.left h₂.left hx hy
      subst hx hyy
      have hy₀ := (C.ne_negY_iff odd x₁ y₁).mp hy
      rw [Affine.Point.add_self_of_Y_ne hy, if_pos ⟨rfl, hy₀⟩]
      exact C.tangent_slope odd hy₀
  · rw [if_pos (by simpa using hx), Affine.Point.add_of_X_ne hx]
    exact C.chord_slope hx

/-- Doubling and adding is taking multiples. -/
theorem repeated_written (odd : C.modulus ≠ 2) (k : Nat) (P : C.equation.Point) :
    C.repeated k (C.written P) = C.written (k • P) := by
  induction k using Nat.strong_induction_on with
  | h k ih =>
    rw [repeated]
    split
    · rename_i hzero
      rw [hzero, zero_nsmul]
      rfl
    · have half := ih (k / 2) (by omega)
      dsimp only
      rw [half, C.add_written odd, ← add_nsmul]
      split
      · rw [C.add_written odd, ← succ_nsmul, show k / 2 + k / 2 + 1 = k by omega]
      · rw [show k / 2 + k / 2 = k by omega]

theorem written_injective : Function.Injective C.written := by
  rintro (_ | ⟨x₁, y₁, h₁⟩) (_ | ⟨x₂, y₂, h₂⟩) h
  · rfl
  · cases h
  · cases h
  · simp only [written, Point.affine.injEq, Int.natCast_inj] at h
    obtain ⟨hx, hy⟩ := h
    obtain rfl := ZMod.val_injective _ hx
    obtain rfl := ZMod.val_injective _ hy
    rfl

@[simp] theorem written_eq_infinity {P : C.equation.Point} : C.written P = .infinity ↔ P = 0 :=
  C.written_injective.eq_iff' rfl

/-- Points that are their own opposites go to infinity, whatever the scalar. -/
theorem scale_of_double (odd : C.modulus ≠ 2) (k : Int) {P : C.equation.Point} (hP : P + P = 0) :
    C.scale k (C.written P) = .infinity := by
  rcases P with _ | ⟨x, y, h⟩
  · rfl
  · have hy : y = 0 := by
      by_contra hne
      rw [Affine.Point.add_self_of_Y_ne ((C.ne_negY_iff odd x y).mpr hne)] at hP
      exact Affine.Point.some_ne_zero _ hP
    rw [written, hy, ZMod.val_zero, Nat.cast_zero, scale, if_pos rfl]

/-- Points are multiplied by plain repetition unless they are their own opposites. -/
theorem scale_written (odd : C.modulus ≠ 2) (k : Nat) {P : C.equation.Point}
    (hP : P = 0 ∨ P + P ≠ 0) : C.scale k (C.written P) = C.written (k • P) := by
  rcases P with _ | ⟨x, y, h⟩
  · rw [← Affine.Point.zero_def, nsmul_zero]
    rfl
  · have hy : y ≠ 0 := by
      rintro rfl
      refine hP.resolve_left (Affine.Point.some_ne_zero h) (Affine.Point.add_self_of_Y_eq ?_)
      rw [negY_eq, neg_zero]
    have hfinite : (y.val : Int) ≠ 0 := by rwa [Ne, Int.natCast_eq_zero, ZMod.val_eq_zero]
    have hreduced : C.reduced (.affine x.val y.val) = .affine x.val y.val := by
      simp [reduced, emod_eq_val]
    rw [← C.repeated_written odd]
    exact C.scale_of_reduced k hfinite hreduced

/-- Points whose multiple by an odd number is the identity are among them. -/
theorem eq_zero_or_double_ne_zero {q : Nat} (hq : q % 2 = 1) {P : C.equation.Point}
    (hP : q • P = 0) : P = 0 ∨ P + P ≠ 0 := by
  by_contra! h
  obtain ⟨hne, htwice⟩ := h
  apply hne
  rw [← two_nsmul] at htwice
  have hsplit : q = q / 2 * 2 + 1 := by omega
  rwa [hsplit, add_nsmul, mul_nsmul', htwice, nsmul_zero, zero_add, one_nsmul] at hP

end KeyAgreement.Curve
