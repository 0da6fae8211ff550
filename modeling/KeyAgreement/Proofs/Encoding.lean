import KeyAgreement.Agreement
import KeyAgreement.Proofs.CurveOrder
import KeyAgreement.Proofs.ResidueLaw
import KeyAgreement.Proofs.Success

/-! Encodings have one length in each group, and arithmetic stays among the elements that have
one. -/
namespace KeyAgreement
open Success

namespace Curve
variable {C : Curve}

theorem Reduced.chord (hC : 0 < C.modulus) (slope x₁ y₁ x₂ : Int) :
    C.Reduced (C.chord slope x₁ y₁ x₂) := by
  exact ⟨Modular.emod_range hC _, Modular.emod_range hC _⟩

theorem Reduced.add {P Q : Point} (hP : C.Reduced P) (hQ : C.Reduced Q) :
    C.Reduced (C.add P Q) := by
  rcases P with _ | ⟨x₁, y₁⟩
  · rwa [C.infinity_add]
  rcases Q with _ | ⟨x₂, y₂⟩
  · rwa [C.add_infinity]
  have hC : 0 < C.modulus := by
    have := hP.1
    omega
  simp only [Curve.add]
  split
  · exact Reduced.chord hC ..
  · split
    · exact Reduced.chord hC ..
    · trivial

theorem Reduced.repeated {P : Point} (hP : C.Reduced P) (k : Nat) : C.Reduced (C.repeated k P) := by
  fun_induction C.repeated k P with
  | case1 => trivial
  | case2 k _ half double _ ih => exact (ih.add ih).add hP
  | case3 k _ half double _ ih => exact ih.add ih

theorem Reduced.scale {P : Point} (hP : C.Reduced P) (k : Int) : C.Reduced (C.scale k P) := by
  rcases P with _ | ⟨x, y⟩
  · trivial
  have hC : 0 < C.modulus := by
    have := hP.1
    omega
  rw [Curve.scale]
  split
  · trivial
  · split
    · exact hP
    · have hreduced (z : Int) : C.Reduced (.affine (x % C.modulus) (z % C.modulus)) :=
        ⟨Modular.emod_range hC x, Modular.emod_range hC z⟩
      split
      · exact (hreduced y).repeated _
      · exact (hreduced _).repeated _

end Curve

namespace CurveGroup
variable {G : CurveGroup}

theorem length_of_encode {P : Point} {b : Octets} (h : G.encode P = .ok b) :
    b.length = G.width := by
  rcases P with _ | ⟨x, y⟩
  · obtain rfl := Except.ok.inj h
    exact List.length_replicate
  · obtain ⟨c, hc, rfl⟩ := map_eq_ok.mp h
    rw [List.length_cons, Octets.length_of_fixed hc, width, coordinateWidth, Nat.add_comm]

theorem exists_encode {P : Point} (hP : G.curve.Reduced P) : ∃ b, G.encode P = .ok b := by
  rcases P with _ | ⟨x, y⟩
  · exact ⟨_, rfl⟩
  · exact ⟨_, G.encode_affine hP.1.1 hP.1.2.le y⟩

/-- Decoding gives the point with the read abscissa and the root of the read parity. -/
theorem decode_eq_ok {b : Octets} {P : Point} (h : G.decode b = .ok P) :
    b.length = G.width ∧ ∃ lead root, ∃ x : Nat, (b.headD 0 = lead ∧ (lead = 2 ∨ lead = 3)) ∧
      (Octets.value (b.drop 1) = x ∧ x < G.curve.modulus) ∧
      Modular.squareRoot? (G.curve.rightSide x) G.curve.modulus = some root ∧
        ¬ (root = 0 ∧ lead = 3) ∧
      P = .affine x (G.ordinate (lead == 3) root) := by
  unfold decode decodeWith at h
  split at h
  · cases h
  rename_i hlength
  dsimp only at h
  split at h
  · cases h
  rename_i hlead
  split at h
  · cases h
  rename_i hx
  split at h
  · cases h
  rename_i root hroot
  split at h
  · cases h
  rename_i hodd
  refine ⟨by omega, _, root, _, ⟨rfl, ?_⟩, ⟨rfl, by omega⟩, hroot, hodd, (Except.ok.inj h).symm⟩
  by_contra! hne
  exact hlead hne

theorem ordinate_range {odd : Bool} {root : Int} (hlow : 0 ≤ root) (hhigh : root < G.curve.modulus)
    (hodd : ¬ (root = 0 ∧ odd = true)) :
    0 ≤ G.ordinate odd root ∧ G.ordinate odd root < G.curve.modulus := by
  unfold ordinate
  split
  · exact ⟨hlow, hhigh⟩
  · rename_i hparity
    have hne : root ≠ 0 := by
      rintro rfl
      cases odd <;> simp_all
    omega

theorem reduced_of_decode {b : Octets} {P : Point} (h : G.decode b = .ok P) :
    G.curve.Reduced P := by
  obtain ⟨-, lead, root, x, -, ⟨-, hx⟩, hroot, hodd, rfl⟩ := decode_eq_ok h
  obtain ⟨hlow, hhigh⟩ := Modular.squareRoot?_range (by omega) hroot
  refine ⟨by omega, ordinate_range hlow hhigh ?_⟩
  simpa using hodd

end CurveGroup

namespace Group
variable {G : Group}

theorem length_of_encode {e : G.Carrier} {b : Octets} (h : G.encode e = .ok b) :
    b.length = G.width := by
  cases G with
  | residue G => exact Octets.length_of_fixed h
  | curve G => exact CurveGroup.length_of_encode h

theorem length_of_decode {b : Octets} {e : G.Carrier} (h : G.decode b = .ok e) :
    b.length = G.width := by
  cases G with
  | residue G => exact (G.decode_eq_ok_iff.mp h).1
  | curve G => exact (CurveGroup.decode_eq_ok h).1

/-- Elements whose numbers are below the modulus. -/
def Reduced : (G : Group) → G.Carrier → Prop
  | .residue G => fun v : Int => 0 ≤ v ∧ v < G.modulus
  | .curve G => G.curve.Reduced

theorem Reduced.exists_encode {e : G.Carrier} (he : G.Reduced e) : ∃ b, G.encode e = .ok b := by
  cases G with
  | residue G => exact ⟨_, Octets.fixed_eq_ok he.1 he.2.le⟩
  | curve G => exact CurveGroup.exists_encode he

theorem reduced_of_decode {b : Octets} {e : G.Carrier} (h : G.decode b = .ok e) : G.Reduced e := by
  cases G with
  | residue G =>
    obtain ⟨-, -, hlow, hhigh⟩ := G.decode_eq_ok_iff.mp h
    exact ⟨hlow.le, hhigh⟩
  | curve G => exact CurveGroup.reduced_of_decode h

theorem Reduced.mul {e f : G.Carrier} (he : G.Reduced e) (hf : G.Reduced f) :
    G.Reduced (G.mul e f) := by
  cases G with
  | residue G => exact ResidueGroup.mul_range e f
  | curve G => exact Curve.Reduced.add he hf

theorem Reduced.pow {e : G.Carrier} (he : G.Reduced e) (k : Nat) : G.Reduced (G.pow e k) := by
  cases G with
  | residue G => exact ResidueGroup.pow_range e k
  | curve G => exact Curve.Reduced.scale he k

theorem Reduced.basePower (hbase : G.Reduced G.base) (hq : 0 < G.subgroupOrder) (i : Int) :
    G.Reduced (G.basePower i) := by
  cases G with
  | residue G => exact ResidueGroup.basePower_range hq i
  | curve G => exact Curve.Reduced.scale hbase _

/-- Bases of curves have coordinates in the field; those of residue groups always do. -/
def FieldBase : Group → Prop
  | .residue _ => True
  | .curve G => G.curve.Reduced G.base

theorem FieldBase.reduced (h : G.FieldBase) : G.Reduced G.base := by
  cases G with
  | residue G => exact ⟨(zero_lt_one.trans G.one_lt_base).le, G.base_lt_modulus⟩
  | curve G => exact h

/-- The element that a side combines from accepted keys is encoded without a fault. -/
theorem Reduced.combine {b y : G.Carrier} (hb : G.Reduced b) (hy : G.Reduced y) (s e : Nat) :
    G.Reduced (G.combine s e b y) :=
  (hy.mul (hb.pow e)).pow s

end Group
end KeyAgreement
