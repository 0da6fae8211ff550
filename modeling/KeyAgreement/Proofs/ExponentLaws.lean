import KeyAgreement.Proofs.ResidueClosure

/-! The laws of exponents in a residue group, over a prime modulus or not: powers of the base add
and multiply their exponents, which may have either sign, and other elements obey the laws of a
commutative product. -/
namespace KeyAgreement

/-- The laws of exponents, for the operations as callers have them. Each law says that all of its
results exist and that both sides are one element; elements are equal to themselves alone. What is
read counts as reachable. -/
structure Group.ExponentLaws (H : Group) : Prop where
  base_zero : H.powerOfBase 0 = .ok ⟨H, H.identity⟩
  base_add (i j : Int) : ∃ x y z, H.powerOfBase i = .ok x ∧ H.powerOfBase j = .ok y ∧
    H.product (.element x) (.element y) = .ok z ∧ H.powerOfBase (i + j) = .ok z
  base_mul (i : Int) {k : Int} (hk : 0 ≤ k) : ∃ x z, H.powerOfBase i = .ok x ∧
    H.powerOf (.element x) k = .ok z ∧ H.powerOfBase (i * k) = .ok z
  neutral {x : Element} (hx : H.Reachable x) :
    H.product (.element x) (.element ⟨H, H.identity⟩) = .ok x ∧
    H.product (.element ⟨H, H.identity⟩) (.element x) = .ok x
  commutative {x y : Element} (hx : H.Reachable x) (hy : H.Reachable y) :
    ∃ z, H.product (.element x) (.element y) = .ok z ∧ H.product (.element y) (.element x) = .ok z
  associative {x y z : Element} (hx : H.Reachable x) (hy : H.Reachable y) (hz : H.Reachable z) :
    ∃ xy yz xyz, H.product (.element x) (.element y) = .ok xy ∧
      H.product (.element y) (.element z) = .ok yz ∧
      H.product (.element xy) (.element z) = .ok xyz ∧
      H.product (.element x) (.element yz) = .ok xyz
  product_power {x y : Element} (hx : H.Reachable x) (hy : H.Reachable y) {k : Int} (hk : 0 ≤ k) :
    ∃ xy xk yk z, H.product (.element x) (.element y) = .ok xy ∧ H.powerOf (.element x) k = .ok xk ∧
      H.powerOf (.element y) k = .ok yk ∧ H.powerOf (.element xy) k = .ok z ∧
      H.product (.element xk) (.element yk) = .ok z
  power_power {x : Element} (hx : H.Reachable x) {j k : Int} (hj : 0 ≤ j) (hk : 0 ≤ k) :
    ∃ xj z, H.powerOf (.element x) j = .ok xj ∧ H.powerOf (.element xj) k = .ok z ∧
      H.powerOf (.element x) (j * k) = .ok z
  equals_iff {x y : Element} (hx : H.Reachable x) (hy : H.Reachable y) :
    Value.equals (.element x) (.element y) = .ok true ↔ x = y

namespace ResidueGroup
variable {G : ResidueGroup}

protected theorem mul_comm (u v : Int) : G.mul u v = G.mul v u := by
  unfold mul
  rw [Int.mul_comm]

protected theorem mul_assoc (u v w : Int) : G.mul (G.mul u v) w = G.mul u (G.mul v w) := by
  apply G.eq_of_cast_eq (mul_range _ _) (mul_range _ _)
  simp only [cast_mul, mul_assoc]

protected theorem mul_one {v : Int} (hv : 0 ≤ v ∧ v < G.modulus) : G.mul v 1 = v := by
  unfold mul
  rw [Int.mul_one, Int.emod_eq_of_lt hv.1 hv.2]

protected theorem mul_pow (u v : Int) (k : Nat) :
    G.pow (G.mul u v) k = G.mul (G.pow u k) (G.pow v k) := by
  apply G.eq_of_cast_eq (pow_range _ _) (mul_range _ _)
  simp only [cast_mul, cast_pow, mul_pow]

protected theorem pow_mul (v : Int) (j k : Nat) : G.pow v (j * k) = G.pow (G.pow v j) k := by
  apply G.eq_of_cast_eq (pow_range _ _) (pow_range _ _)
  simp only [cast_pow, pow_mul]

section Base
variable (hq : 0 < G.subgroupOrder)
include hq

theorem basePower_zero : G.basePower 0 = 1 := by
  have hlow := G.one_lt_modulus
  apply G.eq_of_cast_eq (basePower_range hq 0) (by omega)
  rw [cast_basePower hq, zpow_zero, Units.val_one, Int.cast_one]

/-- A prime order is the multiplicative order of the base, so that its powers repeat with that
period and no shorter one. -/
theorem basePower_eq_iff (hprime : G.subgroupOrder.toNat.Prime) {i j : Int} :
    G.basePower i = G.basePower j ↔ i ≡ j [ZMOD G.subgroupOrder] := by
  constructor
  · intro h
    have hcast := cast_basePower hq i
    rw [h, cast_basePower hq, Units.val_inj, zpow_eq_zpow_iff_modEq, orderOf_generator hq hprime,
      Int.toNat_of_nonneg hq.le] at hcast
    exact hcast.symm
  · intro h
    rw [basePower_eq hq, basePower_eq hq, h]

/-- What the operations make lies below the modulus; if that is not prime it may be zero. -/
theorem exists_range_of_reachable {x : Element} (hx : (Group.residue G).Reachable x) :
    ∃ v, x = G.element v ∧ 0 ≤ v ∧ v < G.modulus :=
  Group.exists_of_reachable (G := .residue G) (p := fun v : Int => 0 ≤ v ∧ v < G.modulus) hq
    nonzero_one.range nonzero_base.range (basePower_range hq)
    (fun hv => (nonzero_of_decode hv).range) (fun _ _ => mul_range _ _) (fun k _ => pow_range _ k)
    hx

theorem exponentLaws : (Group.residue G).ExponentLaws where
  base_zero := by
    rw [powerOfBase_element hq, basePower_zero hq]
    rfl
  base_add i j := by
    refine ⟨_, _, _, powerOfBase_element hq i, powerOfBase_element hq j, product_elements _ _, ?_⟩
    rw [powerOfBase_element hq, mul_basePower hq]
  base_mul i k hk := by
    refine ⟨_, _, powerOfBase_element hq i, powerOf_elements _ hk, ?_⟩
    rw [powerOfBase_element hq, pow_basePower hq, Int.toNat_of_nonneg hk]
  neutral hx := by
    obtain ⟨v, rfl, hv⟩ := exists_range_of_reachable hq hx
    have hone : (⟨.residue G, (Group.residue G).identity⟩ : Element) = G.element 1 := rfl
    rw [hone, product_elements, product_elements, ResidueGroup.mul_comm 1, ResidueGroup.mul_one hv]
    exact ⟨rfl, rfl⟩
  commutative hx hy := by
    obtain ⟨u, rfl, -⟩ := exists_range_of_reachable hq hx
    obtain ⟨v, rfl, -⟩ := exists_range_of_reachable hq hy
    refine ⟨_, product_elements u v, ?_⟩
    rw [product_elements, ResidueGroup.mul_comm]
  associative hx hy hz := by
    obtain ⟨u, rfl, -⟩ := exists_range_of_reachable hq hx
    obtain ⟨v, rfl, -⟩ := exists_range_of_reachable hq hy
    obtain ⟨w, rfl, -⟩ := exists_range_of_reachable hq hz
    refine ⟨_, _, _, product_elements u v, product_elements v w, product_elements _ w, ?_⟩
    rw [product_elements, ResidueGroup.mul_assoc]
  product_power hx hy k hk := by
    obtain ⟨u, rfl, -⟩ := exists_range_of_reachable hq hx
    obtain ⟨v, rfl, -⟩ := exists_range_of_reachable hq hy
    refine ⟨_, _, _, _, product_elements u v, powerOf_elements u hk, powerOf_elements v hk,
      powerOf_elements _ hk, ?_⟩
    rw [product_elements, ResidueGroup.mul_pow]
  power_power hx j k hj hk := by
    obtain ⟨v, rfl, -⟩ := exists_range_of_reachable hq hx
    refine ⟨_, _, powerOf_elements v hj, powerOf_elements _ hk, ?_⟩
    rw [powerOf_elements v (mul_nonneg hj hk), Int.toNat_mul hj hk, ResidueGroup.pow_mul]
  equals_iff hx hy := by
    obtain ⟨u, rfl, hu⟩ := exists_range_of_reachable hq hx
    obtain ⟨v, rfl, hv⟩ := exists_range_of_reachable hq hy
    have hequals :
        Value.equals (.element (G.element u)) (.element (G.element v)) = .ok (decide (u = v)) :=
      equals_of_range hu hv
    rw [hequals, Except.ok.injEq, decide_eq_true_eq]
    constructor
    · intro h
      rw [h]
    · intro h
      cases h
      rfl

end Base

/-- Whatever the modulus, the operations obey the laws of exponents. If the order is prime, powers
of the base are equal exactly if their exponents are congruent modulo the order. -/
theorem exponents_lawful (G : ResidueGroup) (hq : 0 < G.subgroupOrder) :
    (Group.residue G).ExponentLaws ∧
    (G.subgroupOrder.toNat.Prime → ∀ i j, ∃ x y, (Group.residue G).powerOfBase i = .ok x ∧
      (Group.residue G).powerOfBase j = .ok y ∧
      Value.equals (.element x) (.element y) = .ok (decide (i ≡ j [ZMOD G.subgroupOrder]))) := by
  refine ⟨exponentLaws hq, ?_⟩
  intro hprime i j
  refine ⟨_, _, powerOfBase_element hq i, powerOfBase_element hq j, ?_⟩
  have hequals :
      Value.equals (.element (G.element (G.basePower i))) (.element (G.element (G.basePower j))) =
        .ok (decide (G.basePower i = G.basePower j)) :=
      equals_of_range (basePower_range hq i) (basePower_range hq j)
  rw [hequals, decide_eq_decide.mpr (basePower_eq_iff hq hprime)]

/-- Modulo 15 the residues 3 and 5 are read, and their product is zero. The powers of the base with
the exponents -3 and 4 differ. -/
theorem residues15_exponents_lawful :
    0 < residues15.subgroupOrder ∧ residues15.subgroupOrder.toNat.Prime ∧
    ¬ residues15.modulus.Prime ∧
    (∃ x y z, (Group.residue residues15).decodeValue (.octets [3]) = .ok x ∧
      (Group.residue residues15).decodeValue (.octets [5]) = .ok y ∧
      (Group.residue residues15).product (.element x) (.element y) = .ok z ∧
      (Group.residue residues15).product (.element y) (.element x) = .ok z ∧
        z = residues15.element 0) ∧
    (∃ x y, (Group.residue residues15).powerOfBase (-3) = .ok x ∧
      (Group.residue residues15).powerOfBase 4 = .ok y ∧
      Value.equals (.element x) (.element y) = .ok false) := by
  have hq : 0 < residues15.subgroupOrder := by decide
  have hprime : residues15.subgroupOrder.toNat.Prime := by decide
  obtain ⟨hlaws, hequal⟩ := exponents_lawful residues15 hq
  have hread {b : UInt8} {v : Int} (hv : residues15.Nonzero v) (hb : [b] = residues15.octets v) :
      (Group.residue residues15).decodeValue (.octets [b]) = .ok (residues15.element v) :=
    (decodeValue_elements (Value.octets?_octets [b])).mpr ⟨v, hv, hb, rfl⟩
  have hthree := hread (b := 3) (v := 3) (by decide) (by decide)
  have hfive := hread (b := 5) (v := 5) (by decide) (by decide)
  obtain ⟨z, hz, hz'⟩ := hlaws.commutative (.decoded hthree) (.decoded hfive)
  obtain rfl : z = residues15.element 0 := Except.ok.inj (hz.symm.trans (product_elements 3 5))
  refine ⟨hq, hprime, by decide, ⟨_, _, _, hthree, hfive, hz, hz', rfl⟩, ?_⟩
  exact hequal hprime (-3) 4

end ResidueGroup
end KeyAgreement
