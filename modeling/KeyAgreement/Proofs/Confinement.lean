import KeyAgreement.Parameters.Small
import KeyAgreement.Proofs.Loading
import KeyAgreement.Proofs.SharedSecret
import Mathlib.RingTheory.RootsOfUnity.PrimitiveRoots

/-! Valid elements of a residue group are powers of its base, and so is what is made from them. -/
namespace KeyAgreement
open Success

namespace ResidueGroup
variable {G : ResidueGroup}

theorem order_pos_of_prime (hprime : G.subgroupOrder.toNat.Prime) : 0 < G.subgroupOrder := by
  have := hprime.pos
  omega

theorem isPrimitiveRoot_generator (hq : 0 < G.subgroupOrder)
    (hprime : G.subgroupOrder.toNat.Prime) :
    IsPrimitiveRoot (generator hq : ZMod G.modulus) G.subgroupOrder.toNat := by
  rw [IsPrimitiveRoot.coe_units_iff, ← orderOf_generator hq hprime]
  exact IsPrimitiveRoot.orderOf _

/-- A field has no more roots of unity of the order than there are powers of the base. -/
theorem exists_basePower_of_pow_order (hmodulus : G.modulus.Prime)
    (hprime : G.subgroupOrder.toNat.Prime) {v : Int} (hv : 0 ≤ v ∧ v < G.modulus)
    (h : G.pow v G.subgroupOrder.toNat = 1) : ∃ i : Int, v = G.basePower i := by
  have := Fact.mk hmodulus
  have := NeZero.mk hprime.ne_zero
  have hq := order_pos_of_prime hprime
  have hroot : (v : ZMod G.modulus) ^ G.subgroupOrder.toNat = 1 := by
    rw [← cast_pow, h, Int.cast_one]
  obtain ⟨i, -, hi⟩ := (isPrimitiveRoot_generator hq hprime).eq_pow_of_pow_eq_one hroot
  refine ⟨i, G.eq_of_cast_eq hv (basePower_range hq i) ?_⟩
  rw [cast_basePower hq, ← hi, zpow_natCast, Units.val_pow_eq_pow_val]

end ResidueGroup

namespace Group

theorem exists_basePower_of_accept (H : Group) {G : ResidueGroup} (hG : H = .residue G)
    (hmodulus : G.modulus.Prime) (hprime : G.subgroupOrder.toNat.Prime) {c : Octets} {v : H.Carrier}
    (h : H.accept 3 c = .ok v) : ∃ i, v = H.basePower i := by
  subst hG
  have hq := ResidueGroup.order_pos_of_prime hprime
  obtain ⟨⟨hlow, hhigh⟩, -, horder⟩ := (G.validate_iff hq).mp (accept_eq_ok.mp h).2
  exact ResidueGroup.exists_basePower_of_pow_order hmodulus hprime ⟨hlow.le, hhigh⟩
    (horder (by decide))

variable {G : Group}

/-- Powers of the base are those with exponents below the order. -/
theorem basePower_below_order (hq : 0 < G.subgroupOrder) (i : Int) :
    ∃ j : Nat, j < G.subgroupOrder ∧ G.basePower i = G.basePower j := by
  have hnonneg := Int.emod_nonneg i hq.ne'
  have hlt := Int.emod_lt_of_pos i hq
  refine ⟨(i % G.subgroupOrder).toNat, by omega, basePower_congr ?_⟩
  simp only [Int.fmod_eq_emod_of_nonneg _ hq.le, Int.toNat_of_nonneg hnonneg, Int.emod_emod]

theorem exists_combine_basePower (hG : G.Cyclic) (s e : Nat) (b y : Int) :
    ∃ i : Nat, i < G.subgroupOrder ∧
    G.combine s e (G.basePower b) (G.basePower y) = G.basePower i := by
  unfold combine
  rw [hG.pow_basePower, hG.mul_basePower, hG.pow_basePower]
  exact basePower_below_order hG.order_pos _

/-- On powers of the base it makes no difference to reduce the exponent. -/
theorem combine_unreduced (hG : G.Cyclic) (b y : Int) {x d a : Int} (e : Nat) (h : 0 ≤ x + d * a) :
    G.combine (G.contribution x d a) e (G.basePower b) (G.basePower y) =
      G.combine (x + d * a).toNat e (G.basePower b) (G.basePower y) := by
  rw [combine_basePower hG, combine, hG.pow_basePower, hG.mul_basePower, hG.pow_basePower,
    Int.toNat_of_nonneg h]
  congr 1
  ring

end Group

namespace Parameters
variable {P : Parameters}

/-- The shared element as the protocol writes it, with the exponent taken over the integers. -/
def unreducedElement (P : Parameters) (role : Role) (static ephemeral : Int) (t : Transcript)
    (peerStatic peerEphemeral : P.group.Carrier) : P.group.Carrier :=
  let d := P.challenge t
  let e := P.challenge t.exchanged
  match role with
  | .initiator =>
      P.group.pow (P.group.mul peerEphemeral (P.group.pow peerStatic e))
        (ephemeral + d * static).toNat
  | .responder =>
      P.group.pow (P.group.mul peerEphemeral (P.group.pow peerStatic d))
        (ephemeral + e * static).toNat

theorem sharedElement_eq_unreduced (hG : P.group.Cyclic) (role : Role) {a x : Int}
    (ha : P.IsExponent a) (hx : P.IsExponent x) (t : Transcript) (b y : Int) :
    P.sharedElement role a x t (P.group.basePower b) (P.group.basePower y) =
      P.unreducedElement role a x t (P.group.basePower b) (P.group.basePower y) := by
  have hnonneg (d : Nat) : 0 ≤ x + d * a := by
    have hx' := hx.1
    have ha' := ha.1
    positivity
  cases role with
  | initiator => exact Group.combine_unreduced hG b y _ (hnonneg _)
  | responder => exact Group.combine_unreduced hG b y _ (hnonneg _)

end Parameters

/-- Whatever keys the peer sends, a run that validates both of them and succeeds hashes a power of
the base, and reducing the exponent has not changed it. -/
theorem shared_element_confined (P : Parameters) {G : ResidueGroup} (hG : P.group = .residue G)
    (hmodulus : G.modulus.Prime) (hprime : G.subgroupOrder.toNat.Prime) (n : Nat) (role : Role)
    {a x B Y : Value} (hx : ∀ k, x = .ephemeral k → P.IsExponent k.exponent) {u : Octets}
    (h : (Party.mk n role P).agree a x B Y true = .ok (.agreed u)) :
    ∃ (k : LoadedKeys) (s : Session P) (b y : P.group.Carrier),
      (Party.mk n role P).load a x B Y = .ok k ∧
      (Party.mk n role P).negotiate a x B Y true = .ok (.opened s) ∧ s.agreedValue = .ok u ∧
      P.group.decode k.peerStaticKey = .ok b ∧ P.group.decode k.peerEphemeralKey = .ok y ∧
      (∃ i : Nat, i < P.group.subgroupOrder ∧ s.shared = P.group.basePower i) ∧
      s.shared = P.unreducedElement role k.static k.ephemeral.exponent s.transcript b y := by
  obtain ⟨s, hs, hvalue⟩ := Party.agree_eq_agreed.mp h
  obtain ⟨k, hk, hexamine⟩ := Party.negotiate_eq_ok.mp hs
  obtain ⟨-, -, ha, hephemeral, -⟩ := Party.load_eq_ok.mp hk
  obtain ⟨b, y, hb, hy, hopen⟩ := Parameters.examine_eq_opened.mp hexamine
  obtain ⟨-, own, -, rfl⟩ := Parameters.openSession_eq_ok.mp hopen
  obtain ⟨c, -, hc⟩ := Parameters.staticExponent_eq_ok.mp ha
  have ha' := Parameters.isExponent_of_exponentOf hc
  have hx' : P.IsExponent k.ephemeral.exponent := by
    rcases Parameters.ephemeralKey_cases hephemeral with hpair | ⟨hrange, -⟩
    · exact hx _ hpair
    · exact hrange
  have hcyclic : P.group.Cyclic := by
    rw [hG]
    exact Group.cyclic_residue G (ResidueGroup.order_pos_of_prime hprime)
  obtain ⟨i, rfl⟩ := P.group.exists_basePower_of_accept hG hmodulus hprime hb
  obtain ⟨j, rfl⟩ := P.group.exists_basePower_of_accept hG hmodulus hprime hy
  refine ⟨k, _, _, _, hk, hs, hvalue, (Group.accept_eq_ok.mp hb).1, (Group.accept_eq_ok.mp hy).1,
    ?_, ?_⟩
  · exact Group.exists_combine_basePower hcyclic _ _ i j
  · exact Parameters.sharedElement_eq_unreduced hcyclic role ha' hx' _ i j

/-- The squares 13 and 16 are taken from the peer, and the shared element is a power of 2. -/
theorem residues23_shared_element_confined :
    let S : Party := ⟨0, .initiator, .residues23⟩
    S.agree (.octets [3]) (.octets [5, 9]) (.octets [13]) (.octets [16]) true =
        .ok (.agreed (Hash.sha256 [13, 9, 16, 8, 13])) ∧
      ∃ s, S.negotiate (.octets [3]) (.octets [5, 9]) (.octets [13]) (.octets [16]) true =
        .ok (.opened s) ∧
        ∃ i : Nat, i < S.params.group.subgroupOrder ∧ s.shared = S.params.group.basePower i := by
  intro S
  have h : S.agree (.octets [3]) (.octets [5, 9]) (.octets [13]) (.octets [16]) true =
      .ok (.agreed (Hash.sha256 [13, 9, 16, 8, 13])) := by decide +kernel
  have hmodulus : residues23.modulus.Prime := by decide
  have hprime : residues23.subgroupOrder.toNat.Prime := by decide
  have hx (k : EphemeralKey) (hk : Value.octets [5, 9] = .ephemeral k) :
      Parameters.residues23.IsExponent k.exponent := by cases hk
  obtain ⟨_, s, _, _, -, hs, -, -, -, hpower, -⟩ :=
    shared_element_confined .residues23 rfl hmodulus hprime 0 .initiator hx h
  exact ⟨h, s, hs, hpower⟩

end KeyAgreement
