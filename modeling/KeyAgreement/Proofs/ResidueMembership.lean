import KeyAgreement.Proofs.Confinement
import KeyAgreement.Proofs.Operands
import Mathlib.Data.Set.Card

/-! What validation in a residue group means: which octets pass at each level, and how many. -/
namespace KeyAgreement

namespace ResidueGroup
variable (G : ResidueGroup)

/-- Powers of the base other than the identity, by an exponent below the order. -/
def IsProperPower (v : Int) : Prop :=
  ∃ k : Nat, (1 ≤ k ∧ k < G.subgroupOrder) ∧ v = G.base ^ k % G.modulus

/-- The residues that validation at a level is meant for. -/
def Admits (level v : Int) : Prop :=
  if level ≤ 0 then 1 ≤ v ∧ v < G.modulus
  else if level = 1 then 2 ≤ v ∧ v < G.modulus
  else G.IsProperPower v

variable {G}

theorem value_powerOctets (k : Nat) : ((G.powerOctets k).value : Int) = G.base ^ k % G.modulus := by
  obtain ⟨hlow, hhigh⟩ := G.emod_range (G.base ^ k)
  exact Octets.value_of_fixed (Octets.fixed_eq_ok hlow hhigh.le)

/-- Different exponents below the order have different encodings. -/
theorem injOn_powerOctets (hprime : G.subgroupOrder.toNat.Prime) :
    Set.InjOn G.powerOctets (Finset.Ico 1 G.subgroupOrder.toNat) := by
  intro j hj k hk h
  rw [Finset.coe_Ico, Set.mem_Ico] at hj hk
  have hvalue := congrArg (fun b : Octets => ((b.value : Int) : ZMod G.modulus)) h
  simp only [value_powerOctets, ZMod.intCast_mod, Int.cast_pow] at hvalue
  exact (isPrimitiveRoot_generator (order_pos_of_prime hprime) hprime).pow_inj hj.2 hk.2 hvalue

section Prime
variable (hmodulus : G.modulus.Prime) (hprime : G.subgroupOrder.toNat.Prime)
include hmodulus hprime

/-- Over a prime modulus, the test of the power with the order as exponent singles out the powers
of the base. -/
theorem isProperPower_iff {v : Int} :
    G.IsProperPower v ↔ (0 < v ∧ v < G.modulus) ∧ v ≠ 1 ∧ G.pow v G.subgroupOrder.toNat = 1 := by
  have hq := order_pos_of_prime hprime
  constructor
  · rintro ⟨k, ⟨hlow, hhigh⟩, rfl⟩
    have hnot : ¬ G.subgroupOrder ∣ (k : Int) := by
      intro hdvd
      have := Int.le_of_dvd (by omega) hdvd
      omega
    rw [← basePower_natCast hq]
    exact ⟨⟨basePower_pos hq k, (basePower_range hq k).2⟩, basePower_ne_one hq hprime hnot,
      basePower_pow_order hq k⟩
  · rintro ⟨⟨hlow, hhigh⟩, hne, hpow⟩
    obtain ⟨i, rfl⟩ := exists_basePower_of_pow_order hmodulus hprime ⟨hlow.le, hhigh⟩ hpow
    have hnonneg := Int.emod_nonneg i hq.ne'
    have hlt := Int.emod_lt_of_pos i hq
    refine ⟨(i % G.subgroupOrder).toNat, ⟨?_, by omega⟩, basePower_eq hq i⟩
    by_contra hzero
    apply hne
    rw [basePower_eq hq, show (i % G.subgroupOrder).toNat = 0 by omega, pow_zero]
    exact Int.emod_eq_of_lt (by omega) (by have := G.one_lt_modulus; omega)

theorem validate_iff_admits {level v : Int} : G.validate level v = true ↔ G.Admits level v := by
  rw [G.validate_iff (order_pos_of_prime hprime), Admits]
  split
  · omega
  · split
    · omega
    · rw [isProperPower_iff hmodulus hprime]
      constructor
      · rintro ⟨hrange, hne, hpow⟩
        exact ⟨hrange, hne (by omega), hpow (by omega)⟩
      · rintro ⟨hrange, hne, hpow⟩
        exact ⟨hrange, fun _ => hne, fun _ => hpow⟩

theorem Admits.range {level v : Int} (h : G.Admits level v) : 0 < v ∧ v < G.modulus :=
  ((G.validate_iff (order_pos_of_prime hprime)).mp ((validate_iff_admits hmodulus hprime).mpr h)).1

theorem accepts_iff_admits (level : Int) (b : Octets) :
    (Group.residue G).Accepts level (.octets b) ↔
      b.length = octetWidth G.modulus ∧ G.Admits level b.value := by
  rw [Group.accepts_iff (G := .residue G) (order_pos_of_prime hprime) (Value.octets?_octets b)]
  constructor
  · rintro ⟨v, hv, hvalid⟩
    obtain ⟨hlength, rfl, -⟩ := G.decode_eq_ok_iff.mp hv
    exact ⟨hlength, (validate_iff_admits hmodulus hprime).mp hvalid⟩
  · rintro ⟨hlength, hadmits⟩
    exact ⟨(b.value : Int), G.decode_eq_ok_iff.mpr ⟨hlength, rfl, hadmits.range hmodulus hprime⟩,
      (validate_iff_admits hmodulus hprime).mpr hadmits⟩

theorem orderOf_of_isProperPower {v : Int} (h : G.IsProperPower v) :
    orderOf (v : ZMod G.modulus) = G.subgroupOrder.toNat := by
  have := Fact.mk hprime
  have hlow := G.one_lt_modulus
  obtain ⟨⟨hpos, hlt⟩, hne, hpow⟩ := (isProperPower_iff hmodulus hprime).mp h
  apply orderOf_eq_prime
  · rw [← cast_pow, hpow, Int.cast_one]
  · intro hone
    exact hne (G.eq_of_cast_eq ⟨hpos.le, hlt⟩ (by omega) (hone.trans Int.cast_one.symm))

theorem accepted_eq_image : {b : Octets | (Group.residue G).Accepts 3 (.octets b)} =
    G.powerOctets '' Finset.Ico 1 G.subgroupOrder.toNat := by
  ext b
  rw [Set.mem_ofPred_eq, accepts_iff_admits hmodulus hprime, Set.mem_image, Finset.coe_Ico]
  constructor
  · rintro ⟨hlength, k, ⟨hlow, hhigh⟩, hk⟩
    refine ⟨k, Set.mem_Ico.mpr ⟨hlow, by omega⟩, ?_⟩
    rw [powerOctets, ← hk, Int.toNat_natCast, ← hlength, Octets.ofNat_value]
  · rintro ⟨k, hk, rfl⟩
    obtain ⟨hlow, hhigh⟩ := Set.mem_Ico.mp hk
    exact ⟨Octets.length_ofNat _ _, k, ⟨hlow, by omega⟩, value_powerOctets k⟩

end Prime

/-- Validation means what it says: octets pass at a level exactly if they are the fixed-width
encoding of a residue that the level is meant for. From level 2 on these are the powers of the base
other than one, as many as the order has exponents, and all of that order. -/
theorem accepts_exactly (G : ResidueGroup) (hmodulus : G.modulus.Prime)
    (hprime : G.subgroupOrder.toNat.Prime) :
    (∀ (level : Int) (b : Octets), (Group.residue G).Accepts level (.octets b) ↔
      ∃ v : Int, (b.length = octetWidth G.modulus ∧ (b.value : Int) = v) ∧ G.Admits level v) ∧
    ({b : Octets | (Group.residue G).Accepts 3 (.octets b)}.ncard : Int) = G.subgroupOrder - 1 ∧
    (∀ b : Octets, (Group.residue G).Accepts 3 (.octets b) →
      orderOf (b.value : ZMod G.modulus) = G.subgroupOrder.toNat) := by
  refine ⟨?_, ?_, ?_⟩
  · intro level b
    rw [accepts_iff_admits hmodulus hprime]
    constructor
    · rintro ⟨hlength, hadmits⟩
      exact ⟨b.value, ⟨hlength, rfl⟩, hadmits⟩
    · rintro ⟨v, ⟨hlength, rfl⟩, hadmits⟩
      exact ⟨hlength, hadmits⟩
  · have hq := order_pos_of_prime hprime
    rw [accepted_eq_image hmodulus hprime, (injOn_powerOctets hprime).ncard_image,
      Set.ncard_coe_finset, Nat.card_Ico]
    omega
  · intro b h
    have hpower : G.IsProperPower b.value := ((accepts_iff_admits hmodulus hprime 3 b).mp h).2
    rw [← orderOf_of_isProperPower hmodulus hprime hpower, Int.cast_natCast]

/-- Of the octets, ten pass at level 3 in the group of squares modulo 23. -/
theorem residues23_accepts_exactly :
    residues23.modulus.Prime ∧ residues23.subgroupOrder.toNat.Prime ∧
    (Group.residue residues23).Accepts 3 (.octets [13]) ∧
    ¬ (Group.residue residues23).Accepts 3 (.octets [5]) ∧
    ({b : Octets | (Group.residue residues23).Accepts 3 (.octets b)}.ncard : Int) = 10 := by
  have hmodulus : residues23.modulus.Prime := by decide
  have hprime : residues23.subgroupOrder.toNat.Prime := by decide
  obtain ⟨haccepts, hcount, -⟩ := accepts_exactly residues23 hmodulus hprime
  refine ⟨hmodulus, hprime, ?_, ?_, hcount⟩
  · exact (haccepts 3 [13]).mpr ⟨13, by decide, 7, by decide⟩
  · intro h
    obtain ⟨_, ⟨-, rfl⟩, k, ⟨-, hk⟩, hv⟩ := (haccepts 3 [5]).mp h
    have hnone : ∀ k < 11, (5 : Int) ≠ 2 ^ k % 23 := by decide
    exact hnone k (Int.ofNat_lt.mp hk) hv

end ResidueGroup
end KeyAgreement
