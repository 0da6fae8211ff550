import KeyAgreement.Proofs.Radix
import KeyAgreement.Proofs.Run

/-! Own keys as they are loaded: which faults stop them, in which order. -/
namespace KeyAgreement
open Success

namespace Value

theorem octets?_eq_some {v : Value} {b : Octets} (h : v.octets? = some b) :
    v = .octets b ∨ v = .buffer b := by
  unfold Value.octets? at h
  split at h
  · obtain rfl := Option.some.inj h
    exact Or.inl rfl
  · obtain rfl := Option.some.inj h
    exact Or.inr rfl
  · cases h

theorem contentOr_of_some {v : Value} {b : Octets} (h : v.octets? = some b) (f : Fault) :
    v.contentOr f = .ok b :=
  contentOr_eq_ok.mpr h

theorem contentOr_of_none {v : Value} (h : v.octets? = none) (f : Fault) :
    v.contentOr f = .error f := by
  unfold contentOr
  rw [h]
  rfl

/-- The value consists of octets, fixed or not, that have the property. -/
def satisfies (v : Value) (p : Octets → Bool) : Bool :=
  match v with
  | .octets b | .buffer b => p b
  | _ => false

/-- The value consists of octets. -/
def isOctets (v : Value) : Bool := v.satisfies fun _ => true

theorem satisfies_eq_any (v : Value) (p : Octets → Bool) : v.satisfies p = v.octets?.any p := by
  cases v with
  | plain d => cases d <;> rfl
  | _ => rfl

theorem isOctets_eq_isSome (v : Value) : v.isOctets = v.octets?.isSome := by
  rw [isOctets, satisfies_eq_any]
  cases v.octets? <;> rfl

theorem isOctets_eq_false {v : Value} : v.isOctets = false ↔ v.octets? = none := by
  rw [isOctets_eq_isSome, Option.isSome_eq_false_iff, Option.isNone_iff_eq_none]

theorem exists_octets {v : Value} (h : v.isOctets ≠ false) : ∃ b, v.octets? = some b := by
  rw [isOctets_eq_isSome, Bool.ne_false_iff] at h
  exact Option.isSome_iff_exists.mp h

theorem satisfies_of_some {v : Value} {b : Octets} (h : v.octets? = some b) (p : Octets → Bool) :
    v.satisfies p = p b := by
  rw [satisfies_eq_any, h, Option.any_some]

theorem satisfies_eq_true {v : Value} {p : Octets → Bool} :
    v.satisfies p = true ↔ ∃ b, v.octets? = some b ∧ p b = true := by
  simp [satisfies_eq_any, Option.any_eq_true]

/-- Ephemeral keys as a caller may hand them in: packed, or made with a public key that consists of
octets. -/
def IsEphemeralKey : Value → Prop
  | .ephemeral k => k.publicKey.octets?.isSome
  | v => v.octets?.isSome

end Value

namespace Parameters
variable {P : Parameters}

/-- The octets write an exponent that keys may have. -/
def inRange (P : Parameters) (b : Octets) : Bool :=
  P.IsExponent b.value

theorem exponentOf_of_length_ne {b : Octets} (h : b.length ≠ P.staticPrivateWidth) :
    P.exponentOf b = .error (.privateKeyLength P.staticPrivateWidth) := by
  unfold exponentOf
  rw [if_pos h]
  rfl

theorem exponentOf_of_not_inRange {b : Octets} (hlength : b.length = P.staticPrivateWidth)
    (h : P.inRange b = false) : P.exponentOf b = .error .privateKeyRange := by
  have hrange : ¬ (1 ≤ (b.value : Int) ∧ b.value < P.group.subgroupOrder) := of_decide_eq_false h
  unfold exponentOf
  rw [if_neg (by simp [hlength]), if_neg hrange]
  rfl

theorem exponentOf_of_inRange {b : Octets} (hlength : b.length = P.staticPrivateWidth)
    (h : P.inRange b = true) : P.exponentOf b = .ok b.value :=
  exponentOf_eq_ok.mpr ⟨hlength, rfl, of_decide_eq_true h⟩

theorem staticExponent_of_some {v : Value} {b : Octets} (h : v.octets? = some b) :
    P.staticExponent v = P.exponentOf b := by
  unfold staticExponent
  rw [Value.contentOr_of_some h]
  rfl

/-- Packed keys are split after the width of private keys. -/
theorem unpack_of_some {v : Value} {b : Octets} (h : v.octets? = some b) :
    P.unpack v =
      if b.length ≠ P.ephemeralPrivateWidth then .error (.packedLength P.ephemeralPrivateWidth)
      else (P.exponentOf (b.take P.staticPrivateWidth)).map fun x =>
        ⟨P, x, .octets (b.drop P.staticPrivateWidth)⟩ := by
  have hlength : v.length = .ok b.length := by
    rcases Value.octets?_eq_some h with rfl | rfl <;> rfl
  have hpart (choose : {α : Type} → List α → List α) :
      ∃ w, v.part choose = .ok w ∧ w.octets? = some (choose b) := by
    rcases Value.octets?_eq_some h with rfl | rfl <;> exact ⟨_, rfl, rfl⟩
  obtain ⟨exponent, hexponent, htake⟩ := hpart (·.take P.staticPrivateWidth)
  obtain ⟨publicKey, hpublicKey, hdrop⟩ := hpart (·.drop P.staticPrivateWidth)
  have hspelled : publicKey.spelled = .ok (b.drop P.staticPrivateWidth) := by
    rcases Value.octets?_eq_some hdrop with rfl | rfl <;> rfl
  rw [unpack, checkPackedLength, hlength]
  simp only [ok_bind]
  split
  · rfl
  · rw [hexponent, hpublicKey]
    simp only [ok_bind, staticExponent_of_some htake, hspelled]
    cases P.exponentOf (b.take P.staticPrivateWidth) <;> rfl

theorem ephemeralKey_eq_unpack {v : Value} {b : Octets} (h : v.octets? = some b) :
    P.ephemeralKey v = P.unpack v := by
  rcases Value.octets?_eq_some h with rfl | rfl <;> rfl

theorem IsExponent.order_pos {x : Int} (hx : P.IsExponent x) : 0 < P.group.subgroupOrder := by
  have := hx.1
  have := hx.2
  omega

/-- An exponent in the width of private keys. -/
def privateOctets (P : Parameters) (x : Int) : Octets := Octets.ofNat P.staticPrivateWidth x.toNat

theorem IsExponent.fixed_eq {x : Int} (hx : P.IsExponent x) :
    Octets.fixed x P.group.subgroupOrder = .ok (P.privateOctets x) :=
  Octets.fixed_eq_ok (by have := hx.1; omega) hx.2.le

theorem IsExponent.exponentOf_privateOctets {x : Int} (hx : P.IsExponent x) :
    P.exponentOf (P.privateOctets x) = .ok x :=
  exponentOf_eq_ok.mpr ⟨Octets.length_ofNat _ _, Octets.value_of_fixed hx.fixed_eq, hx⟩

theorem staticExponent_privateOctets {x : Int} (hx : P.IsExponent x) :
    P.staticExponent (.octets (P.privateOctets x)) = .ok x :=
  staticExponent_eq_ok.mpr ⟨_, rfl, hx.exponentOf_privateOctets⟩

theorem staticExponent_of_length_ne {v : Value}
    (h : v.satisfies (·.length = P.staticPrivateWidth) = false) :
    P.staticExponent v = .error (.privateKeyLength P.staticPrivateWidth) := by
  rcases hv : v.octets? with _ | b
  · unfold staticExponent
    rw [Value.contentOr_of_none hv]
    rfl
  · rw [Value.satisfies_of_some hv, decide_eq_false_iff_not] at h
    rw [staticExponent_of_some hv, exponentOf_of_length_ne h]

theorem staticExponent_of_not_inRange {v : Value}
    (hlength : v.satisfies (·.length = P.staticPrivateWidth) = true)
    (h : v.satisfies P.inRange = false) : P.staticExponent v = .error .privateKeyRange := by
  obtain ⟨b, hv, hb⟩ := Value.satisfies_eq_true.mp hlength
  rw [Value.satisfies_of_some hv] at h
  rw [staticExponent_of_some hv, exponentOf_of_not_inRange (of_decide_eq_true hb) h]

theorem exists_staticExponent {v : Value}
    (hlength : v.satisfies (·.length = P.staticPrivateWidth) = true)
    (h : v.satisfies P.inRange = true) : ∃ x, P.staticExponent v = .ok x := by
  obtain ⟨b, hv, hb⟩ := Value.satisfies_eq_true.mp hlength
  rw [Value.satisfies_of_some hv] at h
  exact ⟨_, (staticExponent_of_some hv).trans (exponentOf_of_inRange (of_decide_eq_true hb) h)⟩

theorem ephemeralKey_own (x : Int) (X : Value) :
    P.ephemeralKey (.ephemeral ⟨P, x, X⟩) = .ok ⟨P, x, X⟩ := by
  simp [ephemeralKey, isSame]

/-- A loaded key is the given pair, or has an exponent in range and the public key of the packed
form. -/
theorem ephemeralKey_cases {x : Value} {k : EphemeralKey} (h : P.ephemeralKey x = .ok k) :
    x = .ephemeral k ∨ P.IsExponent k.exponent ∧ P.ephemeralPublic x = .ok k.publicKey := by
  cases x with
  | ephemeral k' =>
    simp only [ephemeralKey] at h
    split at h
    · obtain rfl := Except.ok.inj h
      exact Or.inl rfl
    · cases h
  | _ =>
    simp only [ephemeralKey, unpack, bind_eq_ok, pure_eq_ok] at h
    obtain ⟨_, hlength, _, _, _, hexponent, _, hdrop, _, hspelled, rfl⟩ := h
    refine Or.inr ⟨isExponent_of_staticExponent hexponent, ?_⟩
    simp only [ephemeralPublic, hlength, hdrop, hspelled, ok_bind]
    rfl

theorem ephemeralPublic_of_ephemeralKey {x : Value} {k : EphemeralKey}
    (h : P.ephemeralKey x = .ok k) : P.ephemeralPublic x = .ok k.publicKey := by
  rcases ephemeralKey_cases h with rfl | ⟨-, hpublic⟩
  · rfl
  · exact hpublic

/-- An ephemeral key that was made under other parameters. -/
def isForeign (P : Parameters) : Value → Bool
  | .ephemeral k => k.params.serial ≠ P.serial
  | _ => false

theorem ephemeralKey_of_foreign {x : Value} (h : P.isForeign x = true) :
    P.ephemeralKey x = .error .foreignEphemeral := by
  unfold isForeign at h
  split at h
  · have hother := of_decide_eq_true h
    simp only [ephemeralKey, isSame, beq_iff_eq, hother]
    rfl
  · cases h

/-- A pair of the same parameters is taken as it is, and packed octets are taken apart. -/
theorem ephemeralKey_of_own {x : Value} (hx : x.IsEphemeralKey) (h : P.isForeign x = false) :
    (∃ k own, P.ephemeralKey x = .ok k ∧ k.publicKey.octets? = some own) ∨
    ∃ b, x.octets? = some b := by
  cases x with
  | ephemeral k =>
    obtain ⟨own, hown⟩ := Option.isSome_iff_exists.mp hx
    refine Or.inl ⟨k, own, ?_, hown⟩
    have hsame : k.params.isSame P = true := by simpa [isForeign, isSame] using h
    rw [ephemeralKey, if_pos hsame]
    rfl
  | _ => exact Or.inr (Option.isSome_iff_exists.mp hx)

theorem ephemeralKey_of_length_ne {v : Value}
    (h : v.satisfies (·.length ≠ P.ephemeralPrivateWidth) = true) :
    P.ephemeralKey v = .error (.packedLength P.ephemeralPrivateWidth) := by
  obtain ⟨b, hv, hb⟩ := Value.satisfies_eq_true.mp h
  rw [ephemeralKey_eq_unpack hv, unpack_of_some hv, if_pos (of_decide_eq_true hb)]

theorem length_take_packed {b : Octets} (h : b.length = P.ephemeralPrivateWidth) :
    (b.take P.staticPrivateWidth).length = P.staticPrivateWidth := by
  rw [List.length_take, h, ephemeralPrivateWidth, Nat.min_eq_left (Nat.le_add_right _ _)]

theorem length_drop_packed {b : Octets} (h : b.length = P.ephemeralPrivateWidth) :
    (b.drop P.staticPrivateWidth).length = P.ephemeralPublicWidth := by
  rw [List.length_drop, h, ephemeralPrivateWidth, Nat.add_sub_cancel_left]
  rfl

theorem ephemeralKey_of_not_inRange {v : Value}
    (hlength : v.satisfies (·.length ≠ P.ephemeralPrivateWidth) = false)
    (h : v.satisfies (fun b => !P.inRange (b.take P.staticPrivateWidth)) = true) :
    P.ephemeralKey v = .error .privateKeyRange := by
  obtain ⟨b, hv, hb⟩ := Value.satisfies_eq_true.mp h
  rw [Value.satisfies_of_some hv, decide_eq_false_iff_not] at hlength
  rw [ephemeralKey_eq_unpack hv, unpack_of_some hv, if_neg hlength, exponentOf_of_not_inRange
    (length_take_packed (Decidable.not_not.mp hlength)) (Bool.not_eq_true' _ |>.mp hb)]
  rfl

theorem ephemeralKey_of_inRange {v : Value} {b : Octets} (hv : v.octets? = some b)
    (hlength : b.length = P.ephemeralPrivateWidth)
    (h : P.inRange (b.take P.staticPrivateWidth) = true) : P.ephemeralKey v =
      .ok ⟨P, Octets.value (b.take P.staticPrivateWidth),
      .octets (b.drop P.staticPrivateWidth)⟩ := by
  rw [ephemeralKey_eq_unpack hv, unpack_of_some hv, if_neg (not_not_intro hlength),
    exponentOf_of_inRange (length_take_packed hlength) h]
  rfl

theorem exists_ephemeralKey {x : Value} (hx : x.IsEphemeralKey) (hown : P.isForeign x = false)
    (hlength : x.satisfies (·.length ≠ P.ephemeralPrivateWidth) = false)
    (hrange : x.satisfies (fun b => !P.inRange (b.take P.staticPrivateWidth)) = false) :
    ∃ k own, P.ephemeralKey x = .ok k ∧ k.publicKey.octets? = some own := by
  rcases ephemeralKey_of_own hx hown with hpair | ⟨b, hb⟩
  · exact hpair
  · rw [Value.satisfies_of_some hb, decide_eq_false_iff_not] at hlength
    rw [Value.satisfies_of_some hb, Bool.not_eq_false'] at hrange
    exact ⟨_, _, ephemeralKey_of_inRange hb (Decidable.not_not.mp hlength) hrange, rfl⟩

end Parameters
end KeyAgreement
