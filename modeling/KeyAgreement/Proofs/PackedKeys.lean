import KeyAgreement.Parameters.Small
import KeyAgreement.Proofs.Loading
import KeyAgreement.Value.Equality

/-! Packed ephemeral keys: which octets hold a pair, and that packing and unpacking undo each
other. -/
namespace KeyAgreement
open Success

/-- Parts of what is no octets are no octets either. -/
theorem Value.exists_octets_of_part {choose : {α : Type} → List α → List α} {v w : Value}
    {c : Octets} (hpart : v.part choose = .ok w) (hw : w.octets? = some c) :
    ∃ b, v.octets? = some b := by
  cases v with
  | plain d =>
    cases d with
    | octets b => exact ⟨b, rfl⟩
    | _ => cases hpart <;> cases hw
  | buffer b => exact ⟨b, rfl⟩
  | _ => cases hpart <;> cases hw

namespace Parameters
variable {P : Parameters} {x y : Int} {v w : Value} {X Y : Octets}

theorem length_privateOctets (x : Int) : (P.privateOctets x).length = P.staticPrivateWidth :=
  Octets.length_ofNat _ _

theorem privateOctets_value {b : Octets} (h : b.length = P.staticPrivateWidth) :
    P.privateOctets b.value = b := by
  rw [privateOctets, ← h, Int.toNat_natCast, Octets.ofNat_value]

theorem length_packed (x : Int) (hX : X.length = P.ephemeralPublicWidth) :
    (P.privateOctets x ++ X).length = P.ephemeralPrivateWidth := by
  rw [List.length_append, hX, length_privateOctets]
  rfl

/-- The packed form of a pair with an exponent in range is the private key of the exponent, then
the public key. -/
theorem IsExponent.pack_eq (hx : P.IsExponent x) (hv : v.octets? = some X) :
    EphemeralKey.pack ⟨P, x, v⟩ = .ok (P.privateOctets x ++ X) := by
  unfold EphemeralKey.pack EphemeralKey.exponentOctets
  rw [hx.fixed_eq, ok_bind, Value.content_eq_ok.mpr hv]
  rfl

theorem IsExponent.unpack_packed (hx : P.IsExponent x) (hX : X.length = P.ephemeralPublicWidth) :
    P.unpack (.octets (P.privateOctets x ++ X)) = .ok ⟨P, x, .octets X⟩ := by
  rw [unpack_of_some (Value.octets?_octets _), if_neg (not_not_intro (length_packed x hX)),
    List.take_left' (length_privateOctets x), List.drop_left' (length_privateOctets x),
    hx.exponentOf_privateOctets]
  rfl

theorem unpack_of_length_ne {b : Octets} (hv : v.octets? = some b)
    (h : b.length ≠ P.ephemeralPrivateWidth) :
    P.unpack v = .error (.packedLength P.ephemeralPrivateWidth) := by
  rw [unpack_of_some hv, if_pos h]

/-- Unpacking takes octets of the right length whose first part is an exponent in range, and
nothing else. -/
theorem unpack_eq_ok {k : EphemeralKey} : P.unpack v = .ok k ↔ ∃ b, v.octets? = some b ∧
    b.length = P.ephemeralPrivateWidth ∧ P.IsExponent (Octets.value (b.take P.staticPrivateWidth)) ∧
    k = ⟨P, Octets.value (b.take P.staticPrivateWidth), .octets (b.drop P.staticPrivateWidth)⟩ := by
  constructor
  · intro h
    have hsteps := h
    simp only [unpack, bind_eq_ok] at hsteps
    obtain ⟨_, -, w, hpart, _, hexponent, -⟩ := hsteps
    obtain ⟨c, hw, -⟩ := staticExponent_eq_ok.mp hexponent
    obtain ⟨b, hb⟩ := Value.exists_octets_of_part hpart hw
    rw [unpack_of_some hb] at h
    split at h
    · cases h
    · rename_i hlength
      obtain ⟨x, hx, rfl⟩ := map_eq_ok.mp h
      obtain ⟨-, rfl, hrange⟩ := exponentOf_eq_ok.mp hx
      exact ⟨b, hb, Decidable.not_not.mp hlength, hrange, rfl⟩
  · rintro ⟨b, hb, hlength, hrange, rfl⟩
    rw [unpack_of_some hb, if_neg (not_not_intro hlength),
      exponentOf_of_inRange (length_take_packed hlength) (decide_eq_true hrange)]
    rfl

theorem pack_of_unpack {k : EphemeralKey} {b : Octets} (hv : v.octets? = some b)
    (h : P.unpack v = .ok k) : k.pack = .ok b := by
  obtain ⟨c, hc, hlength, hrange, rfl⟩ := unpack_eq_ok.mp h
  obtain rfl := Option.some.inj (hv.symm.trans hc)
  rw [hrange.pack_eq (Value.octets?_octets _), privateOctets_value (length_take_packed hlength),
    List.take_append_drop]

/-- Pairs with exponents in range are equal if their exponents and their public keys are: the
private part of the packed form has a fixed width, so that the packed forms agree in both parts or
differ. -/
theorem IsExponent.equals_eq (hx : P.IsExponent x) (hy : P.IsExponent y) (hv : v.octets? = some X)
    (hw : w.octets? = some Y) :
    Value.equals (.ephemeral ⟨P, x, v⟩) (.ephemeral ⟨P, y, w⟩) = .ok (decide (x = y ∧ X = Y)) := by
  have hpacked : P.privateOctets x ++ X = P.privateOctets y ++ Y ↔ x = y ∧ X = Y := by
    constructor
    · intro h
      obtain ⟨hprivate, hpublic⟩ := List.append_inj h
        ((length_privateOctets x).trans (length_privateOctets y).symm)
      have hexponent := hx.exponentOf_privateOctets
      rw [hprivate, hy.exponentOf_privateOctets] at hexponent
      exact ⟨(Except.ok.inj hexponent).symm, hpublic⟩
    · rintro ⟨rfl, rfl⟩
      rfl
  have hequals : Value.equals (.ephemeral ⟨P, x, v⟩) (.ephemeral ⟨P, y, w⟩) =
      EphemeralKey.equals ⟨P, x, v⟩ ⟨P, y, w⟩ := rfl
  rw [hequals, EphemeralKey.equals, if_pos (by simp [isSame]), hx.pack_eq hv, hy.pack_eq hw]
  simp only [ok_bind, beq_eq_decide, hpacked]
  rfl

/-- However its octets are held, a public key makes the same pair. -/
theorem IsExponent.equals_octets (hx : P.IsExponent x) (hv : v.octets? = some X) :
    Value.equals (.ephemeral ⟨P, x, .octets X⟩) (.ephemeral ⟨P, x, v⟩) = .ok true := by
  rw [hx.equals_eq hx (Value.octets?_octets X) hv]
  simp

/-- A pair made under the parameters, with an exponent in range and a public key that consists of
the octets `X`, as many as an encoded element has. -/
structure PackableKey (P : Parameters) (k : EphemeralKey) (X : Octets) : Prop where
  params : k.params = P
  exponent : P.IsExponent k.exponent
  publicKey : k.publicKey.octets? = some X
  width : X.length = P.ephemeralPublicWidth

/-- Octets are unpacked exactly if they have the length of packed keys and their first part holds
an exponent in range, and packing gives them back. A packable pair is unpacked from its packed form
with the same exponent and public key, and is equal to the result. Two of them are equal if they
agree in both. -/
theorem packed_form_exact (P : Parameters) :
    (∀ (v : Value) (b : Octets), v.octets? = some b →
      if b.length ≠ P.ephemeralPrivateWidth then
        Refuses (P.unpack v) .valueError (.packedLength P.ephemeralPrivateWidth)
      else if ¬ P.IsExponent (Octets.value (b.take P.staticPrivateWidth)) then
        Refuses (P.unpack v) .valueError .privateKeyRange
      else ∃ k, P.unpack v = .ok k ∧ k.pack = .ok b) ∧
    (∀ k X, P.PackableKey k X → ∃ b l, k.pack = .ok b ∧ P.unpack (.octets b) = .ok l ∧
      l.exponent = k.exponent ∧ l.publicKey = .octets X ∧
      Value.equals (.ephemeral l) (.ephemeral k) = .ok true) ∧
    (∀ k X l Y, P.PackableKey k X → P.PackableKey l Y →
      Value.equals (.ephemeral k) (.ephemeral l) =
        .ok (decide (k.exponent = l.exponent ∧ X = Y))) := by
  refine ⟨?_, ?_, ?_⟩
  · intro v b hv
    split
    · rename_i hlength
      exact ⟨unpack_of_length_ne hv hlength, rfl⟩
    rename_i hlength
    rw [not_not] at hlength
    split
    · rename_i hrange
      rw [unpack_of_some hv, if_neg (not_not_intro hlength),
        exponentOf_of_not_inRange (length_take_packed hlength) (decide_eq_false hrange)]
      exact ⟨rfl, rfl⟩
    · rename_i hrange
      have hunpack := unpack_eq_ok.mpr ⟨b, hv, hlength, not_not.mp hrange, rfl⟩
      exact ⟨_, hunpack, pack_of_unpack hv hunpack⟩
  · rintro ⟨_, x, v⟩ X ⟨rfl, hx, hv, hwidth⟩
    exact ⟨_, _, hx.pack_eq hv, hx.unpack_packed hwidth, rfl, rfl, hx.equals_octets hv⟩
  · rintro ⟨_, x, v⟩ X ⟨_, y, w⟩ Y ⟨rfl, hx, hv, -⟩ ⟨hparams, hy, hw, -⟩
    cases hparams
    exact hx.equals_eq hy hv hw

/-- On the curve modulo 17 the exponent 18 is unpacked and 19, the order, is not; and a pair with
the exponent 5 differs from one with the exponent 6 and the same public key. -/
theorem curve17_packed_form_exact :
    (∃ k, Parameters.curve17.unpack (.buffer [18, 2, 9]) = .ok k ∧ k.pack = .ok [18, 2, 9]) ∧
    Refuses (Parameters.curve17.unpack (.octets [19, 2, 9])) .valueError .privateKeyRange ∧
    Refuses (Parameters.curve17.unpack (.octets [5, 2])) .valueError (.packedLength 3) ∧
    Parameters.curve17.PackableKey ⟨.curve17, 5, .octets [2, 9]⟩ [2, 9] ∧
    Parameters.curve17.PackableKey ⟨.curve17, 6, .buffer [2, 9]⟩ [2, 9] ∧
    (∃ l, Parameters.curve17.unpack (.octets [6, 2, 9]) = .ok l ∧
      Value.equals (.ephemeral l) (.ephemeral ⟨.curve17, 6, .buffer [2, 9]⟩) = .ok true) ∧
    Value.equals (.ephemeral ⟨.curve17, 5, .octets [2, 9]⟩)
        (.ephemeral ⟨.curve17, 6, .buffer [2, 9]⟩) = .ok false := by
  have hk : Parameters.curve17.PackableKey ⟨.curve17, 5, .octets [2, 9]⟩ [2, 9] :=
    ⟨rfl, by decide, rfl, by decide⟩
  have hl : Parameters.curve17.PackableKey ⟨.curve17, 6, .buffer [2, 9]⟩ [2, 9] :=
    ⟨rfl, by decide, rfl, by decide⟩
  obtain ⟨hunpack, hpack, hequals⟩ := packed_form_exact .curve17
  have hinside := hunpack (.buffer [18, 2, 9]) _ rfl
  have houtside := hunpack (.octets [19, 2, 9]) _ rfl
  have hshort := hunpack (.octets [5, 2]) _ rfl
  rw [if_neg (by decide), if_neg (by decide)] at hinside
  rw [if_neg (by decide), if_pos (by decide)] at houtside
  rw [if_pos (by decide)] at hshort
  obtain ⟨b, l, hb, hunpacked, -, -, hsame⟩ := hpack _ _ hl
  have hwritten : b = [6, 2, 9] := Except.ok.inj (hb.symm.trans rfl)
  rw [hwritten] at hunpacked
  exact ⟨hinside, houtside, hshort, hk, hl, ⟨l, hunpacked, hsame⟩, hequals _ _ _ _ hk hl⟩

end Parameters
end KeyAgreement
