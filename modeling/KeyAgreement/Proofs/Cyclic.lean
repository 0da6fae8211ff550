import KeyAgreement.Group
import KeyAgreement.Proofs.CurveOrder
import KeyAgreement.Proofs.ResidueLaw

/-! Exponent arithmetic in groups of either kind. -/
namespace KeyAgreement.Group

/-- Groups in which keys can be made: any residue group, and a curve whose base has odd prime
order. -/
def Usable : Group → Prop
  | .residue _ => True
  | .curve G => G.PrimeOrder

/-- Powers of the base add and multiply their exponents, have encodings, and are read back from
them unless they are the identity. -/
structure Cyclic (G : Group) : Prop where
  order_pos : 0 < G.subgroupOrder
  mul_basePower (i j : Int) : G.mul (G.basePower i) (G.basePower j) = G.basePower (i + j)
  pow_basePower (i : Int) (k : Nat) : G.pow (G.basePower i) k = G.basePower (i * k)
  exists_encode (i : Int) : ∃ b, G.encode (G.basePower i) = .ok b
  decode_encode {i : Int} (hi : ¬ G.subgroupOrder ∣ i) {b : Octets}
    (h : G.encode (G.basePower i) = .ok b) : G.decode b = .ok (G.basePower i)
  validate_basePower (hprime : G.subgroupOrder.toNat.Prime) {i : Int} (hi : ¬ G.subgroupOrder ∣ i)
    (level : Int) : G.validate level (G.basePower i) = true

theorem cyclic_residue (G : ResidueGroup) (hq : 0 < G.subgroupOrder) :
    (Group.residue G).Cyclic where
  order_pos := hq
  mul_basePower := ResidueGroup.mul_basePower hq
  pow_basePower := ResidueGroup.pow_basePower hq
  exists_encode i := by
    obtain ⟨hlow, hhigh⟩ := ResidueGroup.basePower_range hq i
    exact ⟨_, Octets.fixed_eq_ok hlow hhigh.le⟩
  decode_encode {i} _ _ h :=
    G.decode_of_encode (ResidueGroup.basePower_pos hq i) (ResidueGroup.basePower_range hq i).2 h
  validate_basePower hprime {i} hi level := by
    apply (G.validate_iff hq).mpr
    refine ⟨⟨ResidueGroup.basePower_pos hq i, (ResidueGroup.basePower_range hq i).2⟩, ?_, ?_⟩
    · intro _
      exact ResidueGroup.basePower_ne_one hq hprime hi
    · intro _
      exact ResidueGroup.basePower_pow_order hq i

theorem cyclic_curve (G : CurveGroup) (h : G.PrimeOrder) : (Group.curve G).Cyclic := by
  have := Fact.mk h.modulus_prime
  obtain ⟨B, hbase, hB, horder⟩ := h.exists_base
  have hwritten (i : Int) : (Group.curve G).basePower i = G.curve.written (i • B) :=
    h.basePower_written hbase horder i
  have hmultiple (i : Int) : G.subgroupOrder.toNat • i • B = 0 := by
    rw [smul_comm, horder, zsmul_zero]
  have hne {i : Int} (hi : ¬ G.subgroupOrder ∣ i) : i • B ≠ 0 := by
    have := Fact.mk h.order_prime
    rwa [Ne, ← addOrderOf_dvd_iff_zsmul_eq_zero, addOrderOf_eq_prime horder hB,
      Int.toNat_of_nonneg h.order_pos.le]
  exact {
    order_pos := h.order_pos
    mul_basePower i j := by
      simp only [hwritten, add_zsmul]
      exact G.curve.add_written h.modulus_odd _ _
    pow_basePower i k := by
      simp only [hwritten, mul_comm i, mul_zsmul, natCast_zsmul]
      exact CurveGroup.pow_written h.modulus_odd h.order_mod_two k (hmultiple i)
    exists_encode i := by
      rw [hwritten]
      exact ⟨_, CurveGroup.encode_written _⟩
    decode_encode {i} hi b hb := by
      rw [hwritten] at hb ⊢
      exact G.decode_encode_written h.modulus_odd (hne hi) hb
    validate_basePower hprime i hi level := by
      rw [hwritten]
      exact CurveGroup.validate_written h.modulus_odd level (hne hi) h.order_mod_two (hmultiple i) }

theorem Usable.cyclic {G : Group} (h : G.Usable) (hq : 0 < G.subgroupOrder) : G.Cyclic := by
  cases G with
  | residue G => exact cyclic_residue G hq
  | curve G => exact cyclic_curve G h

/-- The octets are those of a power of the base: of residues, the power modulo the modulus; of
curves, the multiple in the group law of the point that is the base. -/
def WritesPower : Group → (k : Nat) → Octets → Prop
  | .residue G, k, b => b = G.powerOctets k
  | .curve G, k, b => ∃ (_ : Fact G.curve.modulus.Prime) (B : G.curve.equation.Point),
    G.base = G.curve.written B ∧ b = G.compressed (k • B)

/-- Encoding a power of the base writes it. -/
theorem Usable.encode_basePower_iff {G : Group} (h : G.Usable) (hq : 0 < G.subgroupOrder) {i : Int}
    (hi : 0 ≤ i) {b : Octets} : G.encode (G.basePower i) = .ok b ↔ G.WritesPower i.toNat b := by
  obtain ⟨k, rfl⟩ := Int.eq_ofNat_of_zero_le hi
  cases G with
  | residue G =>
    have hencode :
        (Group.residue G).encode ((Group.residue G).basePower k) = .ok (G.powerOctets k) :=
      ResidueGroup.encode_basePower hq k
    rw [hencode, Except.ok.injEq, eq_comm]
    rfl
  | curve G =>
    have := Fact.mk h.modulus_prime
    obtain ⟨B, hbase, -, horder⟩ := h.exists_base
    have hencode :
        (Group.curve G).encode ((Group.curve G).basePower k) = .ok (G.compressed (k • B)) := by
      rw [← CurveGroup.encode_written, ← natCast_zsmul]
      exact congrArg G.encode (h.basePower_written hbase horder k)
    rw [hencode, Except.ok.injEq, eq_comm]
    constructor
    · intro hb
      exact ⟨this, B, hbase, hb⟩
    · rintro ⟨_, B', hbase', hb⟩
      obtain rfl := G.curve.written_injective (hbase.symm.trans hbase')
      exact hb

end KeyAgreement.Group
