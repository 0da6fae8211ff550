import Mathlib.Algebra.Field.ZMod
import Mathlib.GroupTheory.OrderOfElement
import KeyAgreement.Group.Residue
import KeyAgreement.Proofs.PrimeField
import KeyAgreement.Proofs.Radix

/-! Residue groups: which octets encode an element, which elements are valid, and the powers of the
base, which are those of a unit. -/
namespace KeyAgreement.ResidueGroup
variable (G : ResidueGroup)

theorem decode_eq_ok_iff {b : Octets} {v : Int} :
    G.decode b = .ok v ↔ b.length = G.width ∧ (b.value : Int) = v ∧ 0 < v ∧ v < G.modulus := by
  unfold decode
  split
  · rename_i hlength
    simp [hlength, throw, throwThe, MonadExceptOf.throw]
  · rename_i hlength
    split
    · rename_i hrange
      simp only [throw, throwThe, MonadExceptOf.throw, reduceCtorEq, false_iff]
      omega
    · rename_i hrange
      simp only [pure, Except.pure, Except.ok.injEq]
      omega

/-- Encodings of the residues other than zero are read back. -/
theorem decode_of_encode {b : Octets} {v : Int} (hpos : 0 < v) (hlt : v < G.modulus)
    (h : G.encode v = .ok b) : G.decode b = .ok v :=
  G.decode_eq_ok_iff.mpr ⟨Octets.length_of_fixed h, Octets.value_of_fixed h, hpos, hlt⟩

/-- With a positive order, validation is a test of ranges and of a power. -/
theorem validate_iff (hq : 0 < G.subgroupOrder) {level v : Int} :
    G.validate level v = true ↔ (0 < v ∧ v < G.modulus) ∧ (1 ≤ level → v ≠ 1) ∧
      (2 ≤ level → G.pow v G.subgroupOrder.toNat = 1) := by
  have hpower :
      Modular.signedPower? v G.subgroupOrder G.modulus = some (G.pow v G.subgroupOrder.toNat) := by
    rw [Modular.signedPower?_of_nonneg _ hq.le, pow, Modular.power_eq]
  simp only [validate, hpower, Bool.and_eq_true, Bool.or_eq_true, decide_eq_true_eq,
    Option.some_inj, ← not_lt, and_assoc, ← or_iff_not_imp_left]

theorem one_lt_modulus : 1 < G.modulus := by
  have hlow := G.one_lt_base
  have hhigh := G.base_lt_modulus
  omega

/-- Residues are determined by their classes. -/
theorem eq_of_cast_eq {u v : Int} (hu : 0 ≤ u ∧ u < G.modulus) (hv : 0 ≤ v ∧ v < G.modulus)
    (h : (u : ZMod G.modulus) = v) : u = v := by
  rw [ZMod.intCast_eq_intCast_iff'] at h
  rwa [Int.emod_eq_of_lt hu.1 hu.2, Int.emod_eq_of_lt hv.1 hv.2] at h

theorem emod_range (z : Int) : 0 ≤ z % G.modulus ∧ z % G.modulus < G.modulus :=
  Modular.emod_range (zero_lt_one.trans G.one_lt_modulus) z

variable {G}

theorem cast_pow (v : Int) (k : Nat) :
    ((G.pow v k : Int) : ZMod G.modulus) = (v : ZMod G.modulus) ^ k :=
  Modular.cast_power v k G.modulus

theorem cast_mul (u v : Int) : ((G.mul u v : Int) : ZMod G.modulus) = (u : ZMod G.modulus) * v := by
  rw [mul, ZMod.intCast_mod, Int.cast_mul]

theorem pow_range (v : Int) (k : Nat) : 0 ≤ G.pow v k ∧ G.pow v k < G.modulus := by
  rw [pow, Modular.power_eq]
  exact G.emod_range _

theorem mul_range (u v : Int) : 0 ≤ G.mul u v ∧ G.mul u v < G.modulus :=
  G.emod_range _

theorem base_pow_order (hq : 0 < G.subgroupOrder) :
    (G.base : ZMod G.modulus) ^ G.subgroupOrder.toNat = 1 := by
  have h := G.base_power
  rw [Modular.signedPower?_of_nonneg _ hq.le, Option.some_inj] at h
  have hcast := congrArg (Int.cast (R := ZMod G.modulus)) h
  rwa [ZMod.intCast_mod, Int.cast_pow, Int.cast_one] at hcast

/-- The encodings of the powers of the base. -/
def powerOctets (G : ResidueGroup) (k : Nat) : Octets :=
  Octets.ofNat (octetWidth G.modulus) (G.base ^ k % G.modulus).toNat

/-- The base, which has an inverse because a power of it is one. -/
def generator (hq : 0 < G.subgroupOrder) : (ZMod G.modulus)ˣ :=
  Units.ofPowEqOne G.base G.subgroupOrder.toNat (base_pow_order hq) (by omega)

variable (hq : 0 < G.subgroupOrder)

theorem generator_pow_order : generator hq ^ G.subgroupOrder.toNat = 1 :=
  Units.pow_ofPowEqOne _ _

theorem generator_ne_one : generator hq ≠ 1 := by
  intro h
  have hone : (G.base : ZMod G.modulus) = (1 : Int) := by
    rw [Int.cast_one]
    exact congrArg Units.val h
  have hlow := G.one_lt_base
  have hhigh := G.base_lt_modulus
  have := G.eq_of_cast_eq (by omega) (by omega) hone
  omega

theorem orderOf_generator (hprime : G.subgroupOrder.toNat.Prime) :
    orderOf (generator hq) = G.subgroupOrder.toNat :=
  have := Fact.mk hprime
  orderOf_eq_prime (generator_pow_order hq) (generator_ne_one hq)

include hq

theorem basePower_eq (i : Int) :
    G.basePower i = G.base ^ (i % G.subgroupOrder).toNat % G.modulus := by
  rw [basePower, Int.fmod_eq_emod_of_nonneg _ hq.le,
    Modular.signedPower?_of_nonneg _ (Int.emod_nonneg _ hq.ne'), Option.getD_some]

theorem basePower_range (i : Int) : 0 ≤ G.basePower i ∧ G.basePower i < G.modulus := by
  rw [basePower_eq hq]
  exact G.emod_range _

theorem cast_basePower (i : Int) :
    ((G.basePower i : Int) : ZMod G.modulus) = (generator hq ^ i : (ZMod G.modulus)ˣ) := by
  have horder : generator hq ^ G.subgroupOrder = 1 := by
    rw [← Int.toNat_of_nonneg hq.le, zpow_natCast, generator_pow_order]
  rw [basePower_eq hq, ZMod.intCast_mod, Int.cast_pow, zpow_eq_zpow_emod i horder,
    ← Int.toNat_of_nonneg (Int.emod_nonneg i hq.ne'), zpow_natCast, Units.val_pow_eq_pow_val]
  rfl

/-- Reducing the exponent makes no difference. -/
theorem basePower_natCast (k : Nat) : G.basePower k = G.base ^ k % G.modulus := by
  apply G.eq_of_cast_eq (basePower_range hq k) (G.emod_range _)
  rw [cast_basePower hq, zpow_natCast, Units.val_pow_eq_pow_val, ZMod.intCast_mod, Int.cast_pow]
  rfl

theorem encode_basePower (k : Nat) : G.encode (G.basePower k) = .ok (G.powerOctets k) := by
  obtain ⟨hlow, hhigh⟩ := basePower_range hq k
  rw [encode, Octets.fixed_eq_ok hlow hhigh.le, basePower_natCast hq]
  rfl

theorem mul_basePower (i j : Int) :
    G.mul (G.basePower i) (G.basePower j) = G.basePower (i + j) := by
  apply G.eq_of_cast_eq (mul_range _ _) (basePower_range hq _)
  rw [cast_mul, cast_basePower hq, cast_basePower hq, cast_basePower hq, zpow_add, Units.val_mul]

theorem pow_basePower (i : Int) (k : Nat) : G.pow (G.basePower i) k = G.basePower (i * k) := by
  apply G.eq_of_cast_eq (pow_range _ _) (basePower_range hq _)
  rw [cast_pow, cast_basePower hq, cast_basePower hq, zpow_mul, zpow_natCast,
    Units.val_pow_eq_pow_val]

theorem basePower_pos (i : Int) : 0 < G.basePower i := by
  have := Fact.mk G.one_lt_modulus
  apply lt_of_le_of_ne (basePower_range hq i).1
  intro h
  have hzero := cast_basePower hq i
  rw [← h, Int.cast_zero] at hzero
  exact (generator hq ^ i).ne_zero hzero.symm

/-- A prime order leaves the exponents that are no multiples of it away from the identity. -/
theorem basePower_ne_one (hprime : G.subgroupOrder.toNat.Prime) {i : Int}
    (hi : ¬ G.subgroupOrder ∣ i) : G.basePower i ≠ 1 := by
  intro h
  apply hi
  have hone := cast_basePower hq i
  rw [h, Int.cast_one, eq_comm, Units.val_eq_one, ← orderOf_dvd_iff_zpow_eq_one,
    orderOf_generator hq hprime, Int.toNat_of_nonneg hq.le] at hone
  exact hone

/-- Powers of the base pass the test for membership in the subgroup. -/
theorem basePower_pow_order (i : Int) : G.pow (G.basePower i) G.subgroupOrder.toNat = 1 := by
  have hlow := G.one_lt_modulus
  apply G.eq_of_cast_eq (pow_range _ _) (by omega)
  rw [cast_pow, cast_basePower hq, ← Units.val_pow_eq_pow_val, ← zpow_natCast, ← zpow_mul, mul_comm,
    zpow_mul, zpow_natCast, generator_pow_order, one_zpow, Units.val_one, Int.cast_one]

end KeyAgreement.ResidueGroup
