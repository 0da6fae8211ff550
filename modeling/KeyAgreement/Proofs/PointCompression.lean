import KeyAgreement.Proofs.Encoding
import KeyAgreement.Proofs.Operands

/-! Compressed points and their octets determine each other, whichever of two roots is found. -/
namespace KeyAgreement

/-- Reduced points of the curve, infinity among them. -/
structure Curve.IsPoint (C : Curve) (P : Point) : Prop where
  reduced : C.Reduced P
  passes : C.Passes P

namespace CurveGroup

def element (G : CurveGroup) (P : Point) : Element := ⟨.curve G, P⟩

end CurveGroup

/-- Finds one of the reduced roots of every reduced square, and none of other residues. -/
structure Modular.FindsRoots (p : Nat) (find : Int → Option Int) : Prop where
  square {t : Int} (ht : 0 ≤ t ∧ t < p) (h : IsSquare (t : ZMod p)) :
    ∃ r, find t = some r ∧ (0 ≤ r ∧ r < p) ∧ r * r % p = t
  nonsquare {t : Int} (ht : 0 ≤ t ∧ t < p) (h : ¬ IsSquare (t : ZMod p)) : find t = none

theorem Modular.findsRoots_squareRoot? {p : Nat} [hp : Fact p.Prime] (odd : p ≠ 2) :
    Modular.FindsRoots p fun t => Modular.squareRoot? t p where
  square {t} ht h := by
    obtain ⟨r, hr⟩ := Modular.exists_squareRoot? odd h
    refine ⟨r, hr, Modular.squareRoot?_range hp.out.pos hr, ?_⟩
    rw [Modular.squareRoot?_sound hr, Int.emod_eq_of_lt ht.1 ht.2]
  nonsquare {t} ht h := by
    rcases hr : Modular.squareRoot? t p with _ | r
    · rfl
    · have hsound := Modular.squareRoot?_sound hr
      rw [← ZMod.intCast_eq_intCast_iff', Int.cast_mul] at hsound
      exact absurd ⟨_, hsound.symm⟩ h

/-- There are two ways to do so, as the opposites of roots are roots. -/
theorem Modular.FindsRoots.opposite {p : Nat} (hp : 0 < p) {find : Int → Option Int}
    (h : Modular.FindsRoots p find) : Modular.FindsRoots p fun t => (find t).map (-· % p) where
  square {t} ht hsquare := by
    obtain ⟨r, hr, -, hroot⟩ := h.square ht hsquare
    refine ⟨-r % p, by rw [hr, Option.map_some], Modular.emod_range hp _, ?_⟩
    rw [← Int.mul_emod, neg_mul_neg, hroot]
  nonsquare ht hnone := by rw [h.nonsquare ht hnone, Option.map_none]

namespace CurveGroup
variable {G : CurveGroup}

theorem ordinate_emod_two (hmodulus : G.curve.modulus % 2 = 1) (odd : Bool) (root : Int) :
    G.ordinate odd root % 2 = 1 ↔ odd = true := by
  unfold ordinate
  split
  · rename_i h
    rw [h]
  · rename_i h
    rw [eq_iff_iff] at h
    have hflip : (G.curve.modulus - root) % 2 = 1 ↔ ¬ root % 2 = 1 := by omega
    rw [hflip]
    tauto

/-- The ordinate has the parity that its octet asks for. -/
theorem parityOctet_ordinate (hmodulus : G.curve.modulus % 2 = 1) {lead : UInt8}
    (hlead : lead = 2 ∨ lead = 3) (root : Int) :
    parityOctet (G.ordinate (lead == 3) root) = lead := by
  unfold parityOctet
  simp only [ordinate_emod_two hmodulus, beq_iff_eq]
  rcases hlead with rfl | rfl <;> rfl

theorem cast_ordinate_mul_self (odd : Bool) (root : Int) :
    (G.ordinate odd root : ZMod G.curve.modulus) * G.ordinate odd root =
      (root : ZMod G.curve.modulus) * root := by
  unfold ordinate
  split
  · rfl
  · push_cast
    rw [ZMod.natCast_self]
    ring

variable [hp : Fact G.curve.modulus.Prime]

/-- Either of the two roots of a residue leads to the same ordinate. -/
theorem ordinate_congr (odd : G.curve.modulus ≠ 2) {lead : UInt8} (hlead : lead = 2 ∨ lead = 3)
    {r r' : Int} (hr : 0 ≤ r ∧ r < G.curve.modulus) (hr' : 0 ≤ r' ∧ r' < G.curve.modulus)
    (h : r * r % G.curve.modulus = r' * r' % G.curve.modulus) (hne : ¬ (r = 0 ∧ lead = 3)) :
    G.ordinate (lead == 3) r' = G.ordinate (lead == 3) r := by
  have hmodulus : G.curve.modulus % 2 = 1 := hp.out.eq_two_or_odd.resolve_left odd
  rw [← ZMod.intCast_eq_intCast_iff', Int.cast_mul, Int.cast_mul] at h
  have hrange : 0 ≤ G.ordinate (lead == 3) r ∧ G.ordinate (lead == 3) r < G.curve.modulus :=
    ordinate_range hr.1 hr.2 (by simpa using hne)
  have hval := G.eq_val_of_cast_eq hrange.1 hrange.2 rfl
  have hroot :=
    mul_self_eq_mul_self_iff.mp (h.symm.trans (cast_ordinate_mul_self (lead == 3) r).symm)
  have hpick := G.ordinate_val odd hr'.1 hr'.2 hroot
  rwa [← hval, parityOctet_ordinate hmodulus hlead] at hpick

theorem root_eq_zero_congr {r r' : Int} (hr' : 0 ≤ r' ∧ r' < G.curve.modulus)
    (h : r * r % G.curve.modulus = r' * r' % G.curve.modulus) (hzero : r = 0) : r' = 0 := by
  rw [hzero, ← ZMod.intCast_eq_intCast_iff', Int.cast_mul, Int.cast_mul, Int.cast_zero, mul_zero,
    eq_comm, mul_self_eq_zero, ← G.curve.emod_eq_zero_iff, Int.emod_eq_of_lt hr'.1 hr'.2] at h
  exact h

theorem rightSide_range (x : Int) :
    0 ≤ G.curve.rightSide x ∧ G.curve.rightSide x < G.curve.modulus :=
  Modular.emod_range hp.out.pos _

/-- Decoding does not depend on which of the roots is found. -/
theorem decodeWith_congr (odd : G.curve.modulus ≠ 2) {find find' : Int → Option Int}
    (hfind : Modular.FindsRoots G.curve.modulus find)
    (hfind' : Modular.FindsRoots G.curve.modulus find') (b : Octets) :
    G.decodeWith find b = G.decodeWith find' b := by
  unfold decodeWith
  split
  · rfl
  dsimp only
  split
  · rfl
  rename_i hlead
  split
  · rfl
  have hlead : b.headD 0 = 2 ∨ b.headD 0 = 3 := by tauto
  have hside := rightSide_range (G := G) (Octets.value (b.drop 1))
  by_cases hsquare :
      IsSquare ((G.curve.rightSide (Octets.value (b.drop 1)) : Int) : ZMod G.curve.modulus)
  · obtain ⟨r, hr, hrange, hroot⟩ := hfind.square hside hsquare
    obtain ⟨r', hr', hrange', hroot'⟩ := hfind'.square hside hsquare
    have hroots := hroot.trans hroot'.symm
    simp only [hr, hr']
    by_cases hzero : r = 0 ∧ b.headD 0 = 3
    · rw [if_pos hzero, if_pos ⟨root_eq_zero_congr hrange' hroots hzero.1, hzero.2⟩]
    · have hzero' : ¬ (r' = 0 ∧ b.headD 0 = 3) :=
        fun h => hzero ⟨root_eq_zero_congr hrange hroots.symm h.1, h.2⟩
      rw [if_neg hzero, if_neg hzero', ordinate_congr odd hlead hrange hrange' hroots hzero]
  · simp only [hfind.nonsquare hside hsquare, hfind'.nonsquare hside hsquare]

/-- What is read is a finite point of the curve, and is written with the octets it was read from. -/
theorem encode_of_decode (odd : G.curve.modulus ≠ 2) {b : Octets} {P : Point}
    (h : G.decode b = .ok P) :
    (∃ x y, P = .affine x y) ∧ G.curve.IsPoint P ∧ G.encode P = .ok b := by
  have hmodulus : G.curve.modulus % 2 = 1 := hp.out.eq_two_or_odd.resolve_left odd
  have hreduced := reduced_of_decode h
  obtain ⟨hlength, lead, root, x, ⟨hhead, hlead⟩, ⟨hvalue, hx⟩, hroot, -, rfl⟩ := decode_eq_ok h
  refine ⟨⟨_, _, rfl⟩, ⟨hreduced, ?_⟩, ?_⟩
  · have hsound := Modular.squareRoot?_sound hroot
    rw [← ZMod.intCast_eq_intCast_iff', Int.cast_mul, G.cast_rightSide] at hsound
    apply (G.curve.contains_iff _ _).mpr
    rw [sq, cast_ordinate_mul_self, hsound]
  · rcases b with _ | ⟨c, rest⟩
    · rw [List.length_nil, width] at hlength
      omega
    obtain rfl : c = lead := hhead
    have hrest : rest.length = G.coordinateWidth := by
      rw [List.length_cons, width] at hlength
      omega
    rw [G.encode_affine (by omega) (by omega), parityOctet_ordinate hmodulus hlead,
      Int.toNat_natCast, ← hvalue, ← hrest]
    exact congrArg (fun r => Except.ok (c :: r)) (Octets.ofNat_value rest)

theorem decode_of_encode (odd : G.curve.modulus ≠ 2) {x y : Int} (h : G.curve.IsPoint (.affine x y))
    {b : Octets} (hb : G.encode (.affine x y) = .ok b) : G.decode b = .ok (.affine x y) := by
  obtain ⟨⟨hxlow, hxhigh⟩, hylow, hyhigh⟩ := h.reduced
  have hequation := G.equation_iff.mpr ((G.curve.contains_iff x y).mp h.passes)
  have hx := G.eq_val_of_cast_eq hxlow hxhigh rfl
  have hy := G.eq_val_of_cast_eq hylow hyhigh rfl
  rw [hx, hy] at hb ⊢
  exact G.decode_encode_val odd hequation hb

omit hp in
/-- The zeros that stand for infinity are no encoding of a finite point. -/
theorem encode_affine_ne_zeros (x y : Int) :
    G.encode (.affine x y) ≠ .ok (List.replicate G.width 0) := by
  intro h
  obtain ⟨c, -, hc⟩ := Success.map_eq_ok.mp h
  rw [width, Nat.add_comm, List.replicate_succ] at hc
  have hhead := (List.cons.inj hc).1
  unfold parityOctet at hhead
  split at hhead <;> cases hhead

theorem encode_injOn (odd : G.curve.modulus ≠ 2) {P Q : Point} (hP : G.curve.IsPoint P)
    (hQ : G.curve.IsPoint Q) {b : Octets} (h : G.encode P = .ok b) (h' : G.encode Q = .ok b) :
    P = Q := by
  rcases P with _ | ⟨x, y⟩ <;> rcases Q with _ | ⟨x', y'⟩
  · rfl
  · obtain rfl := Except.ok.inj h
    exact absurd h' (encode_affine_ne_zeros x' y')
  · obtain rfl := Except.ok.inj h'
    exact absurd h (encode_affine_ne_zeros x y)
  · exact Except.ok.inj ((decode_of_encode odd hP h).symm.trans (decode_of_encode odd hQ h'))

/-- Compressed octets and finite points of the curve match one to one, infinity has octets of its
own that are not read, and all other octets are refused. Any means of finding roots gives the same
decoder. -/
theorem compression_exact (G : CurveGroup) (hmodulus : G.curve.modulus.Prime)
    (odd : G.curve.modulus ≠ 2) :
    let encode := fun P => (Group.curve G).encodeValue (.element (G.element P))
    let decode := fun b => (Group.curve G).decodeValue (.octets b)
    (∀ b e, decode b = .ok e → ∃ x y, e = G.element (.affine x y) ∧ G.curve.IsPoint (.affine x y) ∧
      encode (.affine x y) = .ok b) ∧
    (∀ x y, G.curve.IsPoint (.affine x y) → ∃ b, encode (.affine x y) = .ok b ∧
      decode b = .ok (G.element (.affine x y))) ∧
    (encode .infinity = .ok (List.replicate G.width 0) ∧
      ∃ why, Refuses (decode (List.replicate G.width 0)) .badElement (.badElement why)) ∧
    (∀ P Q b, G.curve.IsPoint P → G.curve.IsPoint Q → encode P = .ok b → encode Q = .ok b → P = Q) ∧
    (∀ b, (¬ ∃ x y, G.curve.IsPoint (.affine x y) ∧ encode (.affine x y) = .ok b) →
      ∃ why, Refuses (decode b) .badElement (.badElement why)) ∧
    (∀ find, Modular.FindsRoots G.curve.modulus find → ∀ b, G.decodeWith find b = G.decode b) := by
  intro encode decode
  have := Fact.mk hmodulus
  have hencode (P : Point) : encode P = G.encode P := (Group.curve G).encodeValue_element P
  have hrefused (b : Octets)
      (h : ¬ ∃ x y, G.curve.IsPoint (.affine x y) ∧ encode (.affine x y) = .ok b) :
      ∃ why, Refuses (decode b) .badElement (.badElement why) := by
    rcases hb : G.decode b with why | P
    · exact ⟨why, Group.decodeValue_of_error (G := .curve G) rfl hb⟩
    · obtain ⟨⟨x, y, rfl⟩, hpoint, hback⟩ := encode_of_decode odd hb
      exact absurd ⟨x, y, hpoint, (hencode _).trans hback⟩ h
  refine ⟨?_, ?_, ⟨hencode .infinity, hrefused _ ?_⟩, ?_, hrefused, ?_⟩
  · intro b e h
    obtain ⟨P, hP, rfl⟩ := (Group.decodeValue_eq_ok (G := .curve G) (Value.octets?_octets b)).mp h
    obtain ⟨⟨x, y, rfl⟩, hpoint, hback⟩ := encode_of_decode odd hP
    exact ⟨x, y, rfl, hpoint, (hencode _).trans hback⟩
  · intro x y h
    obtain ⟨b, hb⟩ := exists_encode h.reduced
    exact ⟨b, (hencode _).trans hb,
      Group.decodeValue_of_ok (G := .curve G) (Value.octets?_octets b) (decode_of_encode odd h hb)⟩
  · rintro ⟨x, y, -, h⟩
    exact encode_affine_ne_zeros x y ((hencode _).symm.trans h)
  · intro P Q b hP hQ h h'
    exact encode_injOn odd hP hQ ((hencode P).symm.trans h) ((hencode Q).symm.trans h')
  · intro find hfind b
    exact decodeWith_congr odd hfind (Modular.findsRoots_squareRoot? odd) b

/-- On the curve modulo 17 the point (9, 16) is read from its octets, also by way of the other
root. -/
theorem curve17_compression_exact : curve17.curve.modulus.Prime ∧ curve17.curve.modulus ≠ 2 ∧
    curve17.curve.IsPoint (.affine 9 16) ∧
    (∃ b, (Group.curve curve17).encodeValue (.element (curve17.element (.affine 9 16))) = .ok b ∧
      (Group.curve curve17).decodeValue (.octets b) = .ok (curve17.element (.affine 9 16))) ∧
    curve17.decodeWith (fun t => (Modular.squareRoot? t 17).map (-· % 17)) [2, 9] =
      .ok (.affine 9 16) := by
  have hmodulus : curve17.curve.modulus.Prime := by decide
  have odd : curve17.curve.modulus ≠ 2 := by decide
  have hpoint : curve17.curve.IsPoint (.affine 9 16) := ⟨⟨by decide, by decide⟩, rfl⟩
  have := Fact.mk hmodulus
  have hfind := (Modular.findsRoots_squareRoot? odd).opposite hmodulus.pos
  obtain ⟨-, hread, -, -, -, hroots⟩ := compression_exact curve17 hmodulus odd
  refine ⟨hmodulus, odd, hpoint, hread 9 16 hpoint, (hroots _ hfind [2, 9]).trans ?_⟩
  decide +kernel

end CurveGroup
end KeyAgreement
