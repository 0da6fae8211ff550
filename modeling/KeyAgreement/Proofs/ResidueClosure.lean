import KeyAgreement.Parameters.Small
import KeyAgreement.Proofs.Operands
import KeyAgreement.Proofs.ResidueLaw
import KeyAgreement.Value.Equality

/-! Whatever the operations of a residue group over a prime make is a residue other than zero, and
each of these has one encoding. -/
namespace KeyAgreement
open Success

namespace ResidueGroup
variable (G : ResidueGroup)

def element (v : Int) : Element := ⟨.residue G, v⟩

/-- The residues from 1 up to the modulus, without it. -/
def Nonzero (v : Int) : Prop := 1 ≤ v ∧ v ≤ (G.modulus : Int) - 1

instance (v : Int) : Decidable (G.Nonzero v) :=
  inferInstanceAs (Decidable (1 ≤ v ∧ v ≤ (G.modulus : Int) - 1))

/-- The encoding of a residue. -/
def octets (v : Int) : Octets := Octets.ofNat G.width v.toNat

variable {G} {u v : Int}

theorem nonzero_of_cast_ne_zero (hv : 0 ≤ v ∧ v < G.modulus) (h : (v : ZMod G.modulus) ≠ 0) :
    G.Nonzero v := by
  have hne : v ≠ 0 := by
    rintro rfl
    exact h Int.cast_zero
  unfold Nonzero
  omega

theorem Nonzero.cast_ne_zero (hv : G.Nonzero v) : (v : ZMod G.modulus) ≠ 0 := by
  intro h
  have hlow := hv.1
  have hhigh := hv.2
  have hdvd := Int.le_of_dvd (by omega) ((ZMod.intCast_zmod_eq_zero_iff_dvd v G.modulus).mp h)
  omega

theorem nonzero_one : G.Nonzero 1 := by
  have := G.one_lt_modulus
  unfold Nonzero
  omega

theorem nonzero_base : G.Nonzero G.base := by
  have hlow := G.one_lt_base
  have hhigh := G.base_lt_modulus
  unfold Nonzero
  omega

theorem nonzero_basePower (hq : 0 < G.subgroupOrder) (i : Int) : G.Nonzero (G.basePower i) := by
  have hlow := basePower_pos hq i
  have hhigh := (basePower_range hq i).2
  unfold Nonzero
  omega

theorem nonzero_of_decode {b : Octets} (h : G.decode b = .ok v) : G.Nonzero v := by
  obtain ⟨-, -, hlow, hhigh⟩ := G.decode_eq_ok_iff.mp h
  unfold Nonzero
  omega

/-- Over a prime modulus no product of residues other than zero is zero. -/
theorem Nonzero.mul (hmodulus : G.modulus.Prime) (hu : G.Nonzero u) (hv : G.Nonzero v) :
    G.Nonzero (G.mul u v) := by
  have := Fact.mk hmodulus
  apply nonzero_of_cast_ne_zero (mul_range u v)
  rw [cast_mul]
  exact mul_ne_zero hu.cast_ne_zero hv.cast_ne_zero

theorem Nonzero.pow (hmodulus : G.modulus.Prime) (hv : G.Nonzero v) (k : Nat) :
    G.Nonzero (G.pow v k) := by
  have := Fact.mk hmodulus
  apply nonzero_of_cast_ne_zero (pow_range v k)
  rw [cast_pow]
  exact pow_ne_zero k hv.cast_ne_zero

theorem powerOfBase_element (hq : 0 < G.subgroupOrder) (i : Int) :
    (Group.residue G).powerOfBase i = .ok (G.element (G.basePower i)) :=
  Group.powerOfBase_eq (G := .residue G) hq i

theorem product_elements (u v : Int) :
    (Group.residue G).product (.element (G.element u)) (.element (G.element v)) =
      .ok (G.element (G.mul u v)) :=
  Group.product_element (G := .residue G) u v

theorem powerOf_elements (v : Int) {i : Int} (hi : 0 ≤ i) :
    (Group.residue G).powerOf (.element (G.element v)) i = .ok (G.element (G.pow v i.toNat)) :=
  Group.powerOf_element (G := .residue G) v hi

/-- None of the operations leaves the residues other than zero. -/
theorem exists_nonzero_of_reachable (hmodulus : G.modulus.Prime) (hq : 0 < G.subgroupOrder)
    {x : Element} (hx : (Group.residue G).Reachable x) : ∃ v, x = G.element v ∧ G.Nonzero v :=
  Group.exists_of_reachable (G := .residue G) (p := G.Nonzero) hq nonzero_one nonzero_base
    (nonzero_basePower hq) nonzero_of_decode (Nonzero.mul hmodulus) (fun k hv => hv.pow hmodulus k)
    hx

theorem encode_of_range (hv : 0 ≤ v ∧ v < G.modulus) : G.encode v = .ok (G.octets v) :=
  Octets.fixed_eq_ok hv.1 hv.2.le

theorem octets_inj (hu : 0 ≤ u ∧ u < G.modulus) (hv : 0 ≤ v ∧ v < G.modulus) :
    G.octets u = G.octets v ↔ u = v := by
  constructor
  · intro h
    rw [← Octets.value_of_fixed (encode_of_range hu), h, Octets.value_of_fixed (encode_of_range hv)]
  · rintro rfl
    rfl

/-- Elements are equal if their residues are. -/
theorem equals_of_range (hu : 0 ≤ u ∧ u < G.modulus) (hv : 0 ≤ v ∧ v < G.modulus) :
    (G.element u).equals (G.element v) = .ok (decide (u = v)) := by
  have hencode {w : Int} (hw : 0 ≤ w ∧ w < G.modulus) : (G.element w).encode = .ok (G.octets w) :=
    encode_of_range hw
  unfold Element.equals
  rw [if_pos (show (G.element v).group = (G.element u).group from rfl), hencode hu, hencode hv]
  simp only [ok_bind, beq_eq_decide, octets_inj hu hv]
  rfl

theorem Nonzero.range (hv : G.Nonzero v) : 0 ≤ v ∧ v < G.modulus := by
  have hlow := hv.1
  have hhigh := hv.2
  omega

theorem Nonzero.encode_eq (hv : G.Nonzero v) : G.encode v = .ok (G.octets v) :=
  encode_of_range hv.range

theorem Nonzero.value_octets (hv : G.Nonzero v) : ((G.octets v).value : Int) = v :=
  Octets.value_of_fixed hv.encode_eq

/-- Decoding takes the encodings of the residues other than zero and no other octets. -/
theorem decode_eq_ok_iff_octets {b : Octets} :
    G.decode b = .ok v ↔ G.Nonzero v ∧ b = G.octets v := by
  constructor
  · intro h
    obtain ⟨hlength, hvalue, -⟩ := G.decode_eq_ok_iff.mp h
    refine ⟨nonzero_of_decode h, ?_⟩
    rw [octets, ← hlength, ← hvalue, Int.toNat_natCast, Octets.ofNat_value]
  · rintro ⟨hv, rfl⟩
    have hlow := hv.1
    have hhigh := hv.2
    exact G.decode_of_encode (by omega) (by omega) hv.encode_eq

/-- What is read, and what is not, among octets in a value of either kind. -/
theorem decodeValue_elements {a : Value} {b : Octets} (ha : a.octets? = some b) {x : Element} :
    (Group.residue G).decodeValue a = .ok x ↔
      ∃ v, G.Nonzero v ∧ b = G.octets v ∧ x = G.element v := by
  rw [Group.decodeValue_eq_ok ha]
  constructor
  · rintro ⟨v, hv, rfl⟩
    obtain ⟨hnonzero, hb⟩ := decode_eq_ok_iff_octets.mp hv
    exact ⟨v, hnonzero, hb, rfl⟩
  · rintro ⟨v, hnonzero, hb, rfl⟩
    exact ⟨v, decode_eq_ok_iff_octets.mpr ⟨hnonzero, hb⟩, rfl⟩

theorem Nonzero.encodeValue_eq (hv : G.Nonzero v) :
    (Group.residue G).encodeValue (.element (G.element v)) = .ok (G.octets v) :=
  (Group.encodeValue_element (G := .residue G) v).trans hv.encode_eq

theorem exists_decodeValue_iff {a : Value} {b : Octets} (ha : a.octets? = some b) :
    (∃ x, (Group.residue G).decodeValue a = .ok x) ↔
      ∃ v, G.Nonzero v ∧ (Group.residue G).encodeValue (.element (G.element v)) = .ok b := by
  constructor
  · rintro ⟨x, hx⟩
    obtain ⟨v, hv, rfl, -⟩ := (decodeValue_elements ha).mp hx
    exact ⟨v, hv, hv.encodeValue_eq⟩
  · rintro ⟨v, hv, hb⟩
    have hoctets : b = G.octets v := Except.ok.inj (hb.symm.trans hv.encodeValue_eq)
    exact ⟨G.element v, (decodeValue_elements ha).mpr ⟨v, hv, hoctets, rfl⟩⟩

/-- What is read is encoded to the octets it was read from. -/
theorem encodeValue_of_decodeValue {a : Value} {b : Octets} (ha : a.octets? = some b) {x : Element}
    (hx : (Group.residue G).decodeValue a = .ok x) :
    (Group.residue G).encodeValue (.element x) = .ok b := by
  obtain ⟨v, hv, rfl, rfl⟩ := (decodeValue_elements ha).mp hx
  exact hv.encodeValue_eq

theorem residues23_reachable : (Group.residue residues23).Reachable (residues23.element 14) := by
  have hread : (Group.residue residues23).decodeValue (.buffer [5]) = .ok (residues23.element 5) :=
    (decodeValue_elements (Value.octets?_buffer [5])).mpr ⟨5, by decide, rfl, rfl⟩
  have hpower : residues23.pow 5 3 = 10 := by decide +kernel
  have hbase : residues23.basePower (-2) = 6 := by decide +kernel
  have hcube := powerOf_elements (G := residues23) 5 (i := 3) (by decide)
  have hnegative := powerOfBase_element (G := residues23) (by decide) (-2)
  rw [show (3 : Int).toNat = 3 from rfl, hpower] at hcube
  rw [hbase] at hnegative
  exact .product (.power (.decoded hread) hcube) (.powerOfBase hnegative) (product_elements 10 6)

/-- What the operations make is a residue from 1 up to the modulus, without it, which is encoded in
the fixed width and read back; and the operations can always go on. Decoding takes the encodings of
these residues, each to the same octets, and refuses any other octets as no element. Elements are
equal if their residues are. -/
theorem reachable_elements_encoded (G : ResidueGroup) (hmodulus : G.modulus.Prime)
    (hq : 0 < G.subgroupOrder) :
      (∀ x, (Group.residue G).Reachable x → ∃ v b, x = G.element v ∧ G.Nonzero v ∧
      (Group.residue G).encodeValue (.element x) = .ok b ∧ b.length = (Group.residue G).width ∧
      ∃ y, (Group.residue G).decodeValue (.octets b) = .ok y ∧
        Value.equals (.element y) (.element x) = .ok true) ∧
    (∀ i, ∃ x, (Group.residue G).powerOfBase i = .ok x) ∧
    (∀ x y, (Group.residue G).Reachable x → (Group.residue G).Reachable y →
      (∃ z, (Group.residue G).product (.element x) (.element y) = .ok z) ∧
      ∀ i, 0 ≤ i → ∃ z, (Group.residue G).powerOf (.element x) i = .ok z) ∧
    (∀ (a : Value) (b : Octets), a.octets? = some b →
      ((∃ x, (Group.residue G).decodeValue a = .ok x) ↔
        ∃ v, G.Nonzero v ∧ (Group.residue G).encodeValue (.element (G.element v)) = .ok b) ∧
      (∀ x, (Group.residue G).decodeValue a = .ok x →
        (Group.residue G).encodeValue (.element x) = .ok b) ∧
      ((∀ x, (Group.residue G).decodeValue a ≠ .ok x) →
        ∃ why, Refuses ((Group.residue G).decodeValue a) .badElement (.badElement why))) ∧
    (∀ u v, (Group.residue G).Reachable (G.element u) → (Group.residue G).Reachable (G.element v) →
      Value.equals (.element (G.element u)) (.element (G.element v)) = .ok (decide (u = v))) := by
  have hreach {x : Element} := exists_nonzero_of_reachable (x := x) hmodulus hq
  refine ⟨?_, fun i => ⟨_, powerOfBase_element hq i⟩, ?_, ?_, ?_⟩
  · intro x hx
    obtain ⟨v, rfl, hv⟩ := hreach hx
    refine ⟨v, G.octets v, rfl, hv, hv.encodeValue_eq, Octets.length_ofNat _ _, G.element v, ?_, ?_⟩
    · exact (decodeValue_elements (Value.octets?_octets _)).mpr ⟨v, hv, rfl, rfl⟩
    · exact (equals_of_range hv.range hv.range).trans (congrArg Except.ok (decide_eq_true rfl))
  · intro x y hx hy
    obtain ⟨u, rfl, -⟩ := hreach hx
    obtain ⟨v, rfl, -⟩ := hreach hy
    exact ⟨⟨_, product_elements u v⟩, fun i hi => ⟨_, powerOf_elements u hi⟩⟩
  · intro a b ha
    exact ⟨exists_decodeValue_iff ha, fun x hx => encodeValue_of_decodeValue ha hx,
      Group.decodeValue_of_ne_ok ha⟩
  · intro u v hu hv
    obtain ⟨u', heq, hu'⟩ := hreach hu
    obtain ⟨v', heq', hv'⟩ := hreach hv
    cases heq
    cases heq'
    exact equals_of_range hu'.range hv'.range

/-- The cube of the residue 5 that is read, times the power of the base with the exponent -2, is
encoded and differs from the base. -/
theorem residues23_reachable_elements_encoded :
    residues23.modulus.Prime ∧ 0 < residues23.subgroupOrder ∧
    (Group.residue residues23).Reachable (residues23.element 14) ∧
    (∃ b, (Group.residue residues23).encodeValue (.element (residues23.element 14)) = .ok b ∧
      b.length = 1) ∧
    (∃ x, (Group.residue residues23).decodeValue (.octets [22]) = .ok x) ∧
    (∃ why, Refuses ((Group.residue residues23).decodeValue (.octets [23])) .badElement
      (.badElement why)) ∧
    Value.equals (.element (residues23.element 14)) (.element (residues23.element 2)) =
      .ok false := by
  have hmodulus : residues23.modulus.Prime := by decide
  have hq : 0 < residues23.subgroupOrder := by decide
  obtain ⟨hencoded, -, -, hread, hequal⟩ := reachable_elements_encoded residues23 hmodulus hq
  refine ⟨hmodulus, hq, residues23_reachable, ?_, ?_, ?_, hequal 14 2 residues23_reachable .base⟩
  · obtain ⟨_, b, -, -, hb, hlength, -⟩ := hencoded _ residues23_reachable
    exact ⟨b, hb, hlength⟩
  · exact (hread _ [22] rfl).1.mpr ⟨22, by decide, by decide⟩
  · apply (hread _ [23] rfl).2.2
    intro x hx
    obtain ⟨v, hv, hb⟩ := (hread _ [23] rfl).1.mp ⟨x, hx⟩
    have hoctets : residues23.octets v = [23] := Except.ok.inj (hv.encodeValue_eq.symm.trans hb)
    have hvalue : (23 : Int) = v := by rw [← hv.value_octets, hoctets]; rfl
    exact absurd hv (by rw [← hvalue]; decide)

end ResidueGroup
end KeyAgreement
