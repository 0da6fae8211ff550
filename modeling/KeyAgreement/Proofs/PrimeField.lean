import Mathlib.Algebra.CharP.Algebra
import Mathlib.Algebra.Field.ZMod
import Mathlib.Algebra.QuadraticAlgebra.Defs
import Mathlib.Data.Int.ModEq
import Mathlib.NumberTheory.LegendreSymbol.Basic
import Mathlib.Tactic.LinearCombination
import KeyAgreement.Modular

/-! Arithmetic modulo a prime: repeated squaring computes powers, Euclid's algorithm finds
inverses, and squares have their roots found. -/
namespace KeyAgreement.Modular

theorem emod_range {m : Nat} (pos : 0 < m) (z : Int) : 0 ≤ z % m ∧ z % m < m :=
  ⟨Int.emod_nonneg _ (by omega), Int.emod_lt_of_pos _ (by omega)⟩

theorem power_eq (b : Int) (k m : Nat) : power b k m = b ^ k % m := by
  fun_induction power b k m with
  | case1 => simp
  | case2 k nonzero half square odd ih =>
    have twice : k / 2 + k / 2 + 1 = k := by omega
    have whole := congrArg (b ^ ·) twice
    simp only [Int.pow_succ, Int.pow_add] at whole
    simp [square, half, ih, ← whole, Int.mul_emod]
  | case3 k nonzero half square even ih =>
    have twice : k / 2 + k / 2 = k := by omega
    have whole := congrArg (b ^ ·) twice
    simp only [Int.pow_add] at whole
    simp [square, half, ih, ← whole, Int.mul_emod]

theorem signedPower?_of_nonneg (b : Int) {k : Int} (h : 0 ≤ k) (m : Nat) :
    signedPower? b k m = some (b ^ k.toNat % m) := by
  simp [signedPower?, h, power_eq]

theorem cast_power (b : Int) (k m : Nat) : ((power b k m : Int) : ZMod m) = (b : ZMod m) ^ k := by
  rw [power_eq, ZMod.intCast_mod, Int.cast_pow]

/-- The remainders stay multiples of `a` by the factors that are carried along, and the last one is
their greatest common divisor. -/
theorem cast_bezout {m : Nat} (a : ZMod m) (r₀ r₁ : Nat) (s₀ s₁ : Int)
    (h₀ : (r₀ : ZMod m) = s₀ * a) (h₁ : (r₁ : ZMod m) = s₁ * a) :
    ((Nat.gcd r₀ r₁ : Nat) : ZMod m) = (bezout r₀ r₁ s₀ s₁).2 * a := by
  fun_induction bezout r₀ r₁ s₀ s₁ with
  | case1 r₀ s₀ s₁ => simpa using h₀
  | case2 r₀ r₁ s₀ s₁ hr ih =>
    have hsplit : (r₀ : ZMod m) = r₁ * (r₀ / r₁ : Nat) + (r₀ % r₁ : Nat) := by
      rw [← Nat.cast_mul, ← Nat.cast_add, Nat.div_add_mod]
    rw [h₀, h₁] at hsplit
    have hrest : ((r₀ % r₁ : Nat) : ZMod m) = ((s₀ - (r₀ / r₁ : Nat) * s₁ : Int) : ZMod m) * a := by
      rw [Int.cast_sub, Int.cast_mul, Int.cast_natCast]
      linear_combination -hsplit
    rw [Nat.gcd_comm, Nat.gcd_rec, Nat.gcd_comm]
    exact ih h₁ hrest

/-- Over a prime every residue but zero has an inverse. -/
theorem cast_inverse {p : Nat} [Fact p.Prime] {a : Int} (ha : (a : ZMod p) ≠ 0) :
    ((inverse a p : Int) : ZMod p) = (a : ZMod p)⁻¹ := by
  have hnonneg : 0 ≤ a % p := Int.emod_nonneg _ (by have := (Fact.out : p.Prime).pos; omega)
  have hcast : (((a % p).toNat : Nat) : ZMod p) = a := by
    rw [← Int.cast_natCast, Int.toNat_of_nonneg hnonneg, ZMod.intCast_mod]
  have hgcd : Nat.gcd p (a % p).toNat = 1 := by
    apply (Nat.Prime.coprime_iff_not_dvd Fact.out).mpr
    rwa [← ZMod.natCast_eq_zero_iff, hcast]
  have h := cast_bezout (a : ZMod p) p (a % p).toNat 0 1 (by simp) (by simp [hcast])
  rw [hgcd, Nat.cast_one] at h
  rw [inverse, ZMod.intCast_mod]
  exact eq_inv_of_mul_eq_one_left h.symm

theorem two_ne_zero_of_odd {p : Nat} [Fact p.Prime] (odd : p ≠ 2) : (2 : ZMod p) ≠ 0 :=
  Ring.two_ne_zero (by rwa [ZMod.ringChar_zmod_n])

/-! Modulo an odd prime every square has its root found: the search for an offset ends, and the
power in the quadratic extension lies in the field. -/
section SquareRoots
open scoped QuadraticAlgebra
variable {p : Nat} [hp : Fact p.Prime]

theorem isNonsquare_iff (odd : p ≠ 2) (a : Int) :
    isNonsquare a p = true ↔ ¬ IsSquare (a : ZMod p) := by
  have htwo := hp.out.eq_two_or_odd
  have hpos := hp.out.two_le
  have hhalf : (p - 1) / 2 = p / 2 := by omega
  have hlast : ((p : Int) - 1) = -1 % p := by
    rw [← Int.add_emod_right (-1) p, Int.emod_eq_of_lt (by omega) (by omega)]
    omega
  have hcast : isNonsquare a p = true ↔ (a : ZMod p) ^ (p / 2) = -1 := by
    unfold isNonsquare
    rw [decide_eq_true_iff, power_eq, hhalf, hlast, ← Int.cast_pow,
      ← Int.cast_one (R := ZMod p), ← Int.cast_neg, ZMod.intCast_eq_intCast_iff]
    rfl
  rw [hcast]
  by_cases ha : (a : ZMod p) = 0
  · have hne : p / 2 ≠ 0 := by omega
    simp [ha, hne, eq_comm]
  · rw [ZMod.euler_criterion p ha]
    have : Fact (2 < p) := ⟨lt_of_le_of_ne hp.out.two_le odd.symm⟩
    constructor
    · intro h hone
      exact ZMod.neg_one_ne_one (h.symm.trans hone)
    · intro h
      exact (ZMod.pow_div_two_eq_neg_one_or_one p ha).resolve_left h

/-- If no offset worked, subtracting `a` again and again would reach every residue from zero through
squares. -/
theorem exists_nonsquare_offset (odd : p ≠ 2) {a : ZMod p} (ha : a ≠ 0) :
    ∃ t : ZMod p, ¬ IsSquare (t * t - a) := by
  by_contra! hall
  have hmultiple (k : Nat) : IsSquare (-(k * a)) := by
    induction k with
    | zero => simp
    | succ k ih =>
      obtain ⟨t, ht⟩ := ih
      have h := hall t
      rw [← ht] at h
      convert h using 1
      push_cast
      ring
  obtain ⟨u, hu⟩ := FiniteField.exists_nonsquare (F := ZMod p) (by rwa [ZMod.ringChar_zmod_n])
  apply hu
  convert hmultiple (-u / a).val using 1
  rw [ZMod.natCast_zmod_val, div_mul_cancel₀ _ ha, neg_neg]

omit hp in
theorem isNonsquare_of_offset? {a t s : Int} {count : Nat} (h : offset? a p count t = some s) :
    isNonsquare (s * s - a) p = true := by
  induction count generalizing t with
  | zero => cases h
  | succ count ih =>
    rw [offset?] at h
    split at h
    · cases h
      assumption
    · exact ih h

omit hp in
theorem exists_offset? {a t : Int} {count i : Nat} (hi : i < count)
    (hfound : isNonsquare ((t + i) * (t + i) - a) p = true) :
    ∃ s, offset? a p count t = some s := by
  induction count generalizing t i with
  | zero => omega
  | succ count ih =>
    rw [offset?]
    split
    · exact ⟨t, rfl⟩
    · rename_i hhere
      cases i with
      | zero => simp_all
      | succ i =>
        apply ih (i := i) (by omega)
        rwa [show t + 1 + i = t + (i + 1 : Nat) by push_cast; ring]

namespace Surd

/-- The surd as an element of the quadratic extension. -/
def lift (w : Int) (p : Nat) (x : Surd) : QuadraticAlgebra (ZMod p) (w : ZMod p) 0 :=
  ⟨x.u, x.v⟩

theorem lift_mul (w : Int) (x y : Surd) : (mul w p x y).lift w p = x.lift w p * y.lift w p := by
  ext
  · simp [lift, mul]
    ring
  · simp [lift, mul]

theorem lift_power (w : Int) (x : Surd) (k : Nat) : (power w p x k).lift w p = x.lift w p ^ k := by
  fun_induction power w p x k with
  | case1 => ext <;> simp [lift]
  | case2 k nonzero half square odd ih =>
    have twice : k / 2 + k / 2 + 1 = k := by omega
    rw [lift_mul, lift_mul, ih, ← pow_add, ← pow_succ, twice]
  | case3 k nonzero half square even ih =>
    have twice : k / 2 + k / 2 = k := by omega
    rw [lift_mul, ih, ← pow_add, twice]

/-- The Frobenius map takes `t + √w` to `t - √w`, as `w` has no root in the field. -/
theorem pow_succ_prime (odd : p ≠ 2) {w : ZMod p} (hw : ¬ IsSquare w) (t : ZMod p) :
    (⟨t, 1⟩ : QuadraticAlgebra (ZMod p) w 0) ^ (p + 1) = ⟨t * t - w, 0⟩ := by
  have : CharP (QuadraticAlgebra (ZMod p) w 0) p :=
    charP_of_injective_algebraMap QuadraticAlgebra.algebraMap_injective p
  have hw0 : w ≠ 0 := by
    rintro rfl
    exact hw IsSquare.zero
  have hhalf : w ^ (p / 2) = -1 :=
    (ZMod.pow_div_two_eq_neg_one_or_one p hw0).resolve_left
      fun hone => hw ((ZMod.euler_criterion p hw0).mpr hone)
  have htwice : p = 2 * (p / 2) + 1 := by
    have := hp.out.eq_two_or_odd
    omega
  have hroot : (⟨0, 1⟩ : QuadraticAlgebra (ZMod p) w 0) ^ p = ⟨0, -1⟩ := by
    have hsq : (⟨0, 1⟩ : QuadraticAlgebra (ZMod p) w 0) ^ 2 = .C w := by
      ext <;> simp [sq]
    calc (⟨0, 1⟩ : QuadraticAlgebra (ZMod p) w 0) ^ p
        = ⟨0, 1⟩ ^ (2 * (p / 2) + 1) := congrArg _ htwice
      _ = ⟨0, -1⟩ := by
        rw [pow_succ, pow_mul, hsq, ← QuadraticAlgebra.C_pow, hhalf]
        ext <;> simp
  have hsplit : (⟨t, 1⟩ : QuadraticAlgebra (ZMod p) w 0) = .C t + ⟨0, 1⟩ := by
    ext <;> simp
  rw [pow_succ, hsplit, add_pow_char, ← QuadraticAlgebra.C_pow, ZMod.pow_card, hroot]
  ext
  · simp
    ring
  · simp

/-- A square of the field whose root lies in the extension has that root in the field, if the
extension is by a nonsquare. -/
theorem re_mul_self {w a : ZMod p} (odd : p ≠ 2) (hw : ¬ IsSquare w) (ha : IsSquare a)
    {z : QuadraticAlgebra (ZMod p) w 0} (hz : z * z = ⟨a, 0⟩) : z.re * z.re = a := by
  have hre : z.re * z.re + w * z.im * z.im = a := by simpa using congrArg QuadraticAlgebra.re hz
  have him : z.re * z.im + z.im * z.re = 0 := by simpa using congrArg QuadraticAlgebra.im hz
  have hprod : z.re * z.im = 0 := by
    apply (mul_eq_zero.mp
      (show (2 : ZMod p) * (z.re * z.im) = 0 by linear_combination him)).resolve_left
    exact two_ne_zero_of_odd odd
  rcases mul_eq_zero.mp hprod with h | h
  · obtain ⟨c, rfl⟩ := ha
    by_cases him0 : z.im = 0
    · simpa [him0] using hre
    · exfalso
      apply hw
      refine ⟨c / z.im, ?_⟩
      field_simp
      rw [h] at hre
      linear_combination hre
  · simpa [h] using hre

end Surd

/-- Every square has its root found. -/
theorem exists_squareRoot? (odd : p ≠ 2) {a : Int} (ha : IsSquare (a : ZMod p)) :
    ∃ r, squareRoot? a p = some r := by
  unfold squareRoot?
  split
  · exact ⟨0, rfl⟩
  · rename_i hzero
    have ha0 : (a : ZMod p) ≠ 0 := by
      rwa [Ne, ZMod.intCast_zmod_eq_zero_iff_dvd, Int.dvd_iff_emod_eq_zero]
    obtain ⟨t, ht⟩ := exists_nonsquare_offset odd ha0
    obtain ⟨s, hs⟩ := exists_offset? (a := a) (t := 0) (ZMod.val_lt t) (by
      rw [isNonsquare_iff odd]
      simpa using ht)
    have hw := (isNonsquare_iff odd _).mp (isNonsquare_of_offset? hs)
    have hhalf : (p + 1) / 2 + (p + 1) / 2 = p + 1 := by
      have := hp.out.eq_two_or_odd
      omega
    have hsquare : (Surd.power (s * s - a) p ⟨s, 1⟩ ((p + 1) / 2)).lift (s * s - a) p *
        (Surd.power (s * s - a) p ⟨s, 1⟩ ((p + 1) / 2)).lift (s * s - a) p = ⟨a, 0⟩ := by
      rw [Surd.lift_power, ← pow_add, hhalf]
      have h := Surd.pow_succ_prime odd hw s
      simp only [Surd.lift, Int.cast_one, h]
      simp
    have hroot := Surd.re_mul_self odd hw ha hsquare
    simp only [hs, Option.bind_eq_bind, Option.bind_some]
    rw [if_pos]
    · exact ⟨_, rfl⟩
    · rw [← ZMod.intCast_eq_intCast_iff', Int.cast_mul]
      exact hroot

omit hp in
theorem squareRoot?_range {a r : Int} (pos : 0 < p) (h : squareRoot? a p = some r) :
    0 ≤ r ∧ r < p := by
  have hrange (w : Int) (x : Surd) (k : Nat) :
      0 ≤ (Surd.power w p x k).u ∧ (Surd.power w p x k).u < p := by
    rw [Surd.power]
    split
    · exact emod_range pos 1
    · dsimp only
      split <;> exact emod_range pos _
  unfold squareRoot? at h
  split at h
  · cases h
    omega
  · obtain ⟨t, _, found⟩ := Option.bind_eq_some_iff.mp h
    dsimp only at found
    split at found
    · cases found
      exact hrange _ _ _
    · cases found

end SquareRoots
end KeyAgreement.Modular
