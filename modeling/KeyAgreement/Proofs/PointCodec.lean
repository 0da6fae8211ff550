import KeyAgreement.Group.Elliptic
import KeyAgreement.Proofs.PointLaw
import KeyAgreement.Proofs.Radix
import KeyAgreement.Proofs.PrimeField

/-! Compressed points are read back as they were written. -/
namespace KeyAgreement.CurveGroup
open WeierstrassCurve
variable (G : CurveGroup)

theorem encode_affine {x : Int} (hx : 0 ≤ x) (hp : x ≤ G.curve.modulus) (y : Int) :
    G.encode (.affine x y) =
      .ok (parityOctet y :: Octets.ofNat G.coordinateWidth x.toNat) := by
  rw [encode, Octets.fixed_eq_ok hx hp]
  rfl

theorem parityOctet_eq_three (y : Int) : parityOctet y = 3 ↔ y % 2 = 1 := by
  unfold parityOctet
  split <;> simp_all

variable [hp : Fact G.curve.modulus.Prime]

theorem eq_val_of_cast_eq {z : Int} {x : ZMod G.curve.modulus} (hlow : 0 ≤ z)
    (hhigh : z < G.curve.modulus) (h : (z : ZMod G.curve.modulus) = x) : z = x.val := by
  rw [← h, ← G.curve.emod_eq_val, Int.emod_eq_of_lt hlow hhigh]

/-- Of two opposite roots the parity picks one, as the modulus is odd. -/
theorem ordinate_val (odd : G.curve.modulus ≠ 2) {y : ZMod G.curve.modulus} {root : Int}
    (hlow : 0 ≤ root) (hhigh : root < G.curve.modulus)
    (hroot : (root : ZMod G.curve.modulus) = y ∨ (root : ZMod G.curve.modulus) = -y) :
    G.ordinate (parityOctet y.val == 3) root = y.val := by
  have hodd : G.curve.modulus % 2 = 1 := hp.out.eq_two_or_odd.resolve_left odd
  simp only [ordinate, beq_iff_eq, parityOctet_eq_three, eq_iff_iff]
  rcases hroot with h | h
  · rw [G.eq_val_of_cast_eq hlow hhigh h, if_pos Iff.rfl]
  · have hval := G.eq_val_of_cast_eq hlow hhigh h
    rw [ZMod.neg_val] at hval
    have hlt := y.val_lt
    split at hval
    · rename_i hy
      rw [hval, hy, ZMod.val_zero, if_pos Iff.rfl]
    · rw [if_neg (by omega)]
      omega

theorem cast_rightSide (x : Int) : ((G.curve.rightSide x : Int) : ZMod G.curve.modulus) =
    (x : ZMod G.curve.modulus) ^ 3 + G.curve.a * x + G.curve.b := by
  rw [Curve.rightSide, ZMod.intCast_mod]
  push_cast
  ring

theorem equation_iff {x y : ZMod G.curve.modulus} :
    G.curve.equation.Equation x y ↔ y ^ 2 = x ^ 3 + G.curve.a * x + G.curve.b := by
  simp [Affine.equation_iff, Curve.equation]

/-- The compressed form of a solution of the equation is read back, singular or not. -/
theorem decode_encode_val (odd : G.curve.modulus ≠ 2) {x y : ZMod G.curve.modulus}
    (hxy : G.curve.equation.Equation x y) {b : Octets}
    (h : G.encode (.affine x.val y.val) = .ok b) : G.decode b = .ok (.affine x.val y.val) := by
  have hlt := x.val_lt
  rw [G.encode_affine (by omega) (by omega)] at h
  obtain rfl := Except.ok.inj h
  have hvalue : Octets.value (Octets.ofNat G.coordinateWidth x.val) = x.val := by
    rw [Octets.value_ofNat, Nat.mod_eq_of_lt]
    exact hlt.trans (Octets.natAbs_lt_width G.curve.modulus)
  have hsquare : ((G.curve.rightSide x.val : Int) : ZMod G.curve.modulus) = y * y := by
    rw [G.cast_rightSide, Int.cast_natCast, ZMod.natCast_zmod_val, ← G.equation_iff.mp hxy, sq]
  obtain ⟨root, hfound⟩ :=
    Modular.exists_squareRoot? odd (a := G.curve.rightSide x.val) ⟨y, hsquare⟩
  obtain ⟨hlow, hhigh⟩ := Modular.squareRoot?_range hp.out.pos hfound
  have hroot : (root : ZMod G.curve.modulus) = y ∨ (root : ZMod G.curve.modulus) = -y := by
    have hsound := Modular.squareRoot?_sound hfound
    rw [← ZMod.intCast_eq_intCast_iff', Int.cast_mul, hsquare] at hsound
    exact mul_self_eq_mul_self_iff.mp hsound
  have heven : ¬ (root = 0 ∧ parityOctet y.val = 3) := by
    rintro ⟨rfl, hthree⟩
    have hy : y = 0 := by simpa [eq_comm] using hroot
    rw [parityOctet_eq_three, hy, ZMod.val_zero] at hthree
    omega
  have hlead : ¬ (parityOctet y.val ≠ 2 ∧ parityOctet y.val ≠ 3) := by
    unfold parityOctet
    split <;> simp
  simp only [decode, decodeWith, List.length_cons, Octets.length_ofNat, List.headD_cons,
    List.drop_one, List.tail_cons, Int.toNat_natCast, hvalue, hfound]
  rw [if_neg (by simp [width, Nat.add_comm]), if_neg hlead, if_neg (by omega), if_neg heven,
    G.ordinate_val odd hlow hhigh hroot]
  rfl

theorem decode_encode_written (odd : G.curve.modulus ≠ 2) {P : G.curve.equation.Point} (hP : P ≠ 0)
    {b : Octets} (h : G.encode (G.curve.written P) = .ok b) :
    G.decode b = .ok (G.curve.written P) := by
  rcases P with _ | ⟨x, y, hxy⟩
  · exact absurd rfl hP
  · exact G.decode_encode_val odd hxy.left h

end KeyAgreement.CurveGroup
