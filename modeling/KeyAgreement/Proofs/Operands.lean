import KeyAgreement.Group.Operand
import KeyAgreement.Proofs.ResidueLaw
import KeyAgreement.Proofs.Run

/-! Decoding and validation as callers see them, on octets and elements among the values of any
kind. -/
namespace KeyAgreement

/-- With a positive order the test for membership in the subgroup can always be made. -/
theorem ResidueGroup.testable_of_pos (G : ResidueGroup) (hq : 0 < G.subgroupOrder) (level v : Int) :
    G.testable level v = true := by
  have hpower : (Modular.signedPower? v G.subgroupOrder G.modulus).isSome = true := by
    rw [Modular.signedPower?_of_nonneg _ hq.le, Option.isSome_some]
  simp only [testable, hpower, Bool.or_true]

namespace Group
open Success
variable {G : Group}

theorem decodeValue_of_ok {v : Value} {b : Octets} {e : G.Carrier} (hv : v.octets? = some b)
    (h : G.decode b = .ok e) : G.decodeValue v = .ok ⟨G, e⟩ := by
  unfold decodeValue
  rw [Value.contentOr_eq_ok.mpr hv, ok_bind, h]
  rfl

/-- Octets that encode no element are refused as such. -/
theorem decodeValue_of_error {v : Value} {b : Octets} {why : BadEncoding} (hv : v.octets? = some b)
    (h : G.decode b = .error why) : Refuses (G.decodeValue v) .badElement (.badElement why) := by
  unfold decodeValue
  rw [Value.contentOr_eq_ok.mpr hv, ok_bind, h]
  exact ⟨rfl, rfl⟩

theorem decodeValue_eq_ok {v : Value} {b : Octets} {x : Element} (hv : v.octets? = some b) :
    G.decodeValue v = .ok x ↔ ∃ e, G.decode b = .ok e ∧ x = ⟨G, e⟩ := by
  rcases h : G.decode b with why | e
  · rw [(decodeValue_of_error hv h).1]
    simp
  · rw [decodeValue_of_ok hv h]
    simp [eq_comm]

/-- There is no other fault than that of the encoding. -/
theorem decodeValue_of_ne_ok {v : Value} {b : Octets} (hv : v.octets? = some b)
    (h : ∀ x, G.decodeValue v ≠ .ok x) :
    ∃ why, Refuses (G.decodeValue v) .badElement (.badElement why) := by
  rcases hb : G.decode b with why | e
  · exact ⟨why, decodeValue_of_error hv hb⟩
  · exact absurd (decodeValue_of_ok hv hb) (h _)

/-- Values that are read hold octets. -/
theorem exists_octets_of_decodeValue {v : Value} {x : Element} (h : G.decodeValue v = .ok x) :
    ∃ b, v.octets? = some b := by
  obtain ⟨b, hb, -⟩ := bind_eq_ok.mp h
  exact ⟨b, Value.contentOr_eq_ok.mp hb⟩

theorem encodeValue_element (e : G.Carrier) : G.encodeValue (.element ⟨G, e⟩) = G.encode e := by
  unfold encodeValue
  rw [operand_element, ok_bind]

theorem powerOfBase_eq (hq : 0 < G.subgroupOrder) (i : Int) :
    G.powerOfBase i = .ok ⟨G, G.basePower i⟩ := by
  unfold powerOfBase
  rw [if_neg hq.ne']
  rfl

theorem product_element (e f : G.Carrier) :
    G.product (.element ⟨G, e⟩) (.element ⟨G, f⟩) = .ok ⟨G, G.mul e f⟩ := by
  unfold product
  simp only [operand_element, ok_bind]
  rfl

theorem powerOf_element (e : G.Carrier) {i : Int} (hi : 0 ≤ i) :
    G.powerOf (.element ⟨G, e⟩) i = .ok ⟨G, G.pow e i.toNat⟩ := by
  unfold powerOf
  simp only [operand_element, ok_bind, if_neg (not_lt.mpr hi)]
  rfl

/-- Powers are only taken with exponents that are not negative. -/
theorem nonneg_of_powerOf {e : G.Carrier} {i : Int} {x : Element}
    (h : G.powerOf (.element ⟨G, e⟩) i = .ok x) : 0 ≤ i := by
  by_contra hneg
  unfold powerOf at h
  simp only [operand_element, ok_bind, if_pos (not_le.mp hneg)] at h
  cases h

theorem testable_of_order_pos (hq : 0 < G.subgroupOrder) (level : Int) (e : G.Carrier) :
    G.testable level e = true := by
  cases G with
  | residue G => exact G.testable_of_pos hq level e
  | curve G => rfl

theorem validateValue_element (hq : 0 < G.subgroupOrder) (level : Int) (e : G.Carrier) :
    G.validateValue level (.element ⟨G, e⟩) = .ok (G.validate level e) := by
  unfold validateValue
  rw [operand_element]
  exact if_pos (testable_of_order_pos hq level e)

/-- The value encodes an element of the group that is valid at the level. -/
def Accepts (G : Group) (level : Int) (v : Value) : Prop :=
  ∃ x, G.decodeValue v = .ok x ∧ G.validateValue level (.element x) = .ok true

theorem accepts_iff (hq : 0 < G.subgroupOrder) {level : Int} {v : Value} {b : Octets}
    (hv : v.octets? = some b) :
    G.Accepts level v ↔ ∃ e, G.decode b = .ok e ∧ G.validate level e = true := by
  constructor
  · rintro ⟨x, hx, hvalid⟩
    obtain ⟨e, he, rfl⟩ := (decodeValue_eq_ok hv).mp hx
    rw [validateValue_element hq] at hvalid
    exact ⟨e, he, Except.ok.inj hvalid⟩
  · rintro ⟨e, he, hvalid⟩
    refine ⟨⟨G, e⟩, decodeValue_of_ok hv he, ?_⟩
    rw [validateValue_element hq, hvalid]

/-- What finitely many operations of a group make, from its identity, its base and what it reads. -/
inductive Reachable (G : Group) : Element → Prop where
  | identity : G.Reachable ⟨G, G.identity⟩
  | base : G.Reachable ⟨G, G.base⟩
  | powerOfBase {i : Int} {x : Element} : G.powerOfBase i = .ok x → G.Reachable x
  | decoded {v : Value} {x : Element} : G.decodeValue v = .ok x → G.Reachable x
  | product {x y z : Element} : G.Reachable x → G.Reachable y →
      G.product (.element x) (.element y) = .ok z → G.Reachable z
  | power {x y : Element} {i : Int} :
    G.Reachable x → G.powerOf (.element x) i = .ok y → G.Reachable y

/-- By induction on how an element is made: what holds of the identity, the base and its powers and
all that is read, and is kept by products and powers, holds of whatever they make. -/
theorem exists_of_reachable {p : G.Carrier → Prop} (hq : 0 < G.subgroupOrder)
    (identity : p G.identity) (base : p G.base) (basePower : ∀ i, p (G.basePower i))
    (decoded : ∀ {b e}, G.decode b = .ok e → p e) (mul : ∀ {e f}, p e → p f → p (G.mul e f))
    (pow : ∀ {e} k, p e → p (G.pow e k)) {x : Element} (hx : G.Reachable x) :
    ∃ e : G.Carrier, x = ⟨G, e⟩ ∧ p e := by
  induction hx with
  | identity => exact ⟨_, rfl, identity⟩
  | base => exact ⟨_, rfl, base⟩
  | @powerOfBase i x h =>
    rw [powerOfBase_eq hq] at h
    exact ⟨_, (Except.ok.inj h).symm, basePower i⟩
  | decoded h =>
    obtain ⟨b, hb⟩ := exists_octets_of_decodeValue h
    obtain ⟨e, he, rfl⟩ := (decodeValue_eq_ok hb).mp h
    exact ⟨e, rfl, decoded he⟩
  | product _ _ h ihx ihy =>
    obtain ⟨e, rfl, he⟩ := ihx
    obtain ⟨f, rfl, hf⟩ := ihy
    rw [product_element] at h
    exact ⟨_, (Except.ok.inj h).symm, mul he hf⟩
  | @power x y i _ h ih =>
    obtain ⟨e, rfl, he⟩ := ih
    rw [powerOf_element e (nonneg_of_powerOf h)] at h
    exact ⟨_, (Except.ok.inj h).symm, pow i.toNat he⟩

end Group
end KeyAgreement
