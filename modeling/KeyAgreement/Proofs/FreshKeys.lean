import KeyAgreement.Keys.Generation
import KeyAgreement.Parameters.Small
import KeyAgreement.Proofs.Draws
import KeyAgreement.Proofs.Encoding
import KeyAgreement.Proofs.Operands
import KeyAgreement.Proofs.PackedKeys
import KeyAgreement.Proofs.SharedSecret
import KeyAgreement.Proofs.Uniformity

/-! Keys drawn from a source: their exponents are in range, and every peer takes their public
halves. -/
namespace KeyAgreement
open Success
namespace Parameters
variable {P : Parameters} {s s' : Source}

theorem isExponent_of_drawExponent {x : Int} (h : P.drawExponent.Returns s x s') :
    P.IsExponent x := by
  obtain ⟨hlow, hhigh⟩ := Draw.exponent_range h
  unfold Group.largestExponent at hhigh
  exact ⟨hlow, by omega⟩

theorem staticPublic_privateOctets {x : Int} (hx : P.IsExponent x) :
    P.staticPublic (.octets (P.privateOctets x)) = P.group.encode (P.group.basePower x) := by
  unfold staticPublic
  rw [staticExponent_privateOctets hx, ok_bind]

theorem drawStaticPrivate_returns {a : Octets} : P.drawStaticPrivate.Returns s a s' ↔
    ∃ x, P.drawExponent.Returns s x s' ∧ a = P.privateOctets x := by
  simp only [drawStaticPrivate, Draw.bind_returns, Draw.lift_returns]
  constructor
  · rintro ⟨x, _, hx, ha, rfl⟩
    exact ⟨x, hx, Except.ok.inj (ha.symm.trans (isExponent_of_drawExponent hx).fixed_eq)⟩
  · rintro ⟨x, hx, rfl⟩
    exact ⟨x, _, hx, (isExponent_of_drawExponent hx).fixed_eq, rfl⟩

theorem drawStaticKey_returns {k : StaticKey} : P.drawStaticKey.Returns s k s' ↔
    ∃ x, P.drawExponent.Returns s x s' ∧ k.privateKey = P.privateOctets x ∧
      P.group.encode (P.group.basePower x) = .ok k.publicKey := by
  simp only [drawStaticKey, Draw.bind_returns, Draw.lift_returns, Draw.pure_returns]
  constructor
  · rintro ⟨a, _, ha, A, _, ⟨hA, rfl⟩, rfl, rfl⟩
    obtain ⟨x, hx, rfl⟩ := drawStaticPrivate_returns.mp ha
    rw [staticPublic_privateOctets (isExponent_of_drawExponent hx)] at hA
    exact ⟨x, hx, rfl, hA⟩
  · rintro ⟨x, hx, hprivate, hpublic⟩
    rw [← staticPublic_privateOctets (isExponent_of_drawExponent hx), ← hprivate] at hpublic
    exact ⟨_, _, drawStaticPrivate_returns.mpr ⟨x, hx, hprivate⟩, _, _, ⟨hpublic, rfl⟩, rfl, rfl⟩

theorem drawEphemeralKey_returns {k : EphemeralKey} : P.drawEphemeralKey.Returns s k s' ↔
    ∃ x X, P.drawExponent.Returns s x s' ∧ P.group.encode (P.group.basePower x) = .ok X ∧
      k = ⟨P, x, .octets X⟩ := by
  simp only [drawEphemeralKey, Draw.bind_returns, Draw.lift_returns, Draw.pure_returns]
  constructor
  · rintro ⟨x, _, hx, X, _, ⟨hX, rfl⟩, rfl, rfl⟩
    exact ⟨x, X, hx, hX, rfl⟩
  · rintro ⟨x, X, hx, hX, rfl⟩
    exact ⟨x, _, hx, X, _, ⟨hX, rfl⟩, rfl, rfl⟩

/-- Both halves of a key with the exponent `x`: the private one writes it and is read back, and the
public one writes that power of the base, belongs to the private one and is valid at every
level. -/
structure UsableKey (P : Parameters) (x : Int) (privateKey publicKey : Octets) : Prop where
  exponent : 1 ≤ x ∧ x < P.group.subgroupOrder
  privateWritten : privateKey = Octets.ofNat (octetWidth P.group.subgroupOrder) x.toNat
  privateLength : privateKey.length = P.staticPrivateWidth
  loaded : P.staticExponent (.octets privateKey) = .ok x
  publicWritten : P.group.WritesPower x.toNat publicKey
  encoded : P.group.encode (P.group.basePower x) = .ok publicKey
  publicLength : publicKey.length = P.staticPublicWidth
  decoded : P.group.decodeValue (.octets publicKey) = .ok ⟨P.group, P.group.basePower x⟩
  valid (level : Int) :
    P.group.validateValue level (.element ⟨P.group, P.group.basePower x⟩) = .ok true
  derived : P.staticPublic (.octets privateKey) = .ok publicKey

theorem IsExponent.usableKey {x : Int} (hx : P.IsExponent x) (usable : P.group.Usable)
    (hprime : P.group.subgroupOrder.toNat.Prime) {X : Octets}
    (hX : P.group.encode (P.group.basePower x) = .ok X) : P.UsableKey x (P.privateOctets x) X :=
  have hG := usable.cyclic hx.order_pos
  { exponent := hx
    privateWritten := rfl
    privateLength := Octets.length_ofNat _ _
    loaded := staticExponent_privateOctets hx
    publicWritten := (usable.encode_basePower_iff hx.order_pos (zero_le_one.trans hx.1)).mp hX
    encoded := hX
    publicLength := Group.length_of_encode hX
    decoded := Group.decodeValue_of_ok rfl (hG.decode_encode hx.not_dvd hX)
    valid level := by
      rw [Group.validateValue_element hG.order_pos, hG.validate_basePower hprime hx.not_dvd]
    derived := (staticPublic_privateOctets hx).trans hX }

theorem IsExponent.ephemeralPublic_packed {x : Int} (hx : P.IsExponent x) {X : Octets}
    (hX : X.length = P.ephemeralPublicWidth) :
    P.ephemeralPublic (.octets (P.privateOctets x ++ X)) = .ok (.octets X) := by
  have hload : P.ephemeralKey (.octets (P.privateOctets x ++ X)) = .ok ⟨P, x, .octets X⟩ :=
    hx.unpack_packed hX
  exact ephemeralPublic_of_ephemeralKey hload

/-- An ephemeral key that its owner can load and pack, with a public half that every peer
accepts. -/
structure UsableEphemeralKey (P : Parameters) (k : EphemeralKey) (publicKey packed : Octets) :
    Prop where
  usable : P.UsableKey k.exponent (P.privateOctets k.exponent) publicKey
  loaded : P.ephemeralKey (.ephemeral k) = .ok k
  extracted : P.ephemeralPublic (.ephemeral k) = .ok (.octets publicKey)
  packs : k.pack = .ok packed
  packedLength : packed.length = P.ephemeralPrivateWidth
  extractedPacked : P.ephemeralPublic (.octets packed) = .ok (.octets publicKey)

/-- Whatever the source answers, the keys that are drawn from it can be used: the exponent is in
range and is read back from the private key, and the public key is its power of the base, which
every peer accepts. What any other source has answered until a draw returns is a script. -/
theorem drawn_keys_usable (P : Parameters) (usable : P.group.Usable)
    (hprime : P.group.subgroupOrder.toNat.Prime) (s s' : Source) :
    P.ephemeralPublicWidth = P.staticPublicWidth ∧
    (∀ a, P.drawStaticPrivate.Returns s a s' → ∃ x A, P.UsableKey x a A) ∧
    (∀ k, P.drawStaticKey.Returns s k s' → ∃ x, P.UsableKey x k.privateKey k.publicKey) ∧
    (∀ k, P.drawEphemeralKey.Returns s k s' → ∃ X packed, P.UsableEphemeralKey k X packed) := by
  have hq : 0 < P.group.subgroupOrder := by
    have := hprime.pos
    omega
  have hG := usable.cyclic hq
  refine ⟨rfl, ?_, ?_, ?_⟩
  · intro a h
    obtain ⟨x, hdraw, rfl⟩ := drawStaticPrivate_returns.mp h
    obtain ⟨A, hA⟩ := hG.exists_encode x
    exact ⟨x, A, (isExponent_of_drawExponent hdraw).usableKey usable hprime hA⟩
  · intro k h
    obtain ⟨x, hdraw, hprivate, hpublic⟩ := drawStaticKey_returns.mp h
    rw [hprivate]
    exact ⟨x, (isExponent_of_drawExponent hdraw).usableKey usable hprime hpublic⟩
  · intro k h
    obtain ⟨x, X, hdraw, hX, rfl⟩ := drawEphemeralKey_returns.mp h
    have hx := isExponent_of_drawExponent hdraw
    have hwidth := Group.length_of_encode hX
    exact ⟨X, P.privateOctets x ++ X, hx.usableKey usable hprime hX, ephemeralKey_own x _, rfl,
      hx.pack_eq rfl, length_packed x hwidth, hx.ephemeralPublic_packed hwidth⟩

/-- On the curve modulo 17 the answer 31 is too large, and the answer 4 makes keys with the
exponent 5, whose power of the base has the abscissa 9 and an even ordinate. -/
theorem curve17_drawn_keys_usable :
    Parameters.curve17.group.Usable ∧ Parameters.curve17.group.subgroupOrder.toNat.Prime ∧
      let s : Source := .scripted [.ok [31], .ok [4]]
      let s' : Source := .scripted []
      (Parameters.curve17.drawStaticPrivate.Returns s [5] s' ∧ ∃ x A,
        Parameters.curve17.UsableKey x [5] A) ∧
      (Parameters.curve17.drawStaticKey.Returns s ⟨[5], [2, 9]⟩ s' ∧
        Parameters.curve17.UsableKey 5 [5] [2, 9]) ∧
      (Parameters.curve17.drawEphemeralKey.Returns s ⟨.curve17, 5, .octets [2, 9]⟩ s' ∧
        Parameters.curve17.UsableEphemeralKey ⟨.curve17, 5, .octets [2, 9]⟩ [2, 9] [5, 2, 9]) := by
  have husable : Parameters.curve17.group.Usable := CurveGroup.curve17_primeOrder
  have hprime := CurveGroup.curve17_primeOrder.order_prime
  have hskip : (Draw.range 1 19).PassesOver [31] :=
    Draw.passesOver_of_attempt (by decide) rfl (Draw.attempt_range_eq (by decide) rfl)
  have hsettle : (Draw.range 1 19).Settles [4] 5 :=
    (Draw.settles_iff (by decide) rfl).mpr (Draw.attempt_range_eq (by decide) rfl)
  have hdraw : Parameters.curve17.drawExponent.Returns (.scripted [.ok [31], .ok [4]]) 5
      (.scripted []) :=
    (hskip [.ok [4]]).trans (hsettle [])
  have hpublic :
      Parameters.curve17.group.encode (Parameters.curve17.group.basePower 5) = .ok [2, 9] := by
    decide +kernel
  have hprivate := drawStaticPrivate_returns.mpr ⟨5, hdraw, rfl⟩
  have hpair := drawStaticKey_returns (k := ⟨[5], [2, 9]⟩).mpr ⟨5, hdraw, rfl, hpublic⟩
  have hephemeral := drawEphemeralKey_returns.mpr ⟨5, [2, 9], hdraw, hpublic, rfl⟩
  obtain ⟨-, huse, huse', huse''⟩ := drawn_keys_usable .curve17 husable hprime
    (.scripted [.ok [31], .ok [4]]) (.scripted [])
  refine ⟨husable, hprime, ⟨hprivate, huse _ hprivate⟩, ⟨hpair, ?_⟩, hephemeral, ?_⟩
  · obtain ⟨x, hx⟩ := huse' _ hpair
    obtain rfl := Except.ok.inj (hx.loaded.symm.trans rfl)
    exact hx
  · obtain ⟨X, packed, hX⟩ := huse'' _ hephemeral
    obtain rfl := Except.ok.inj (hpublic.symm.trans hX.usable.encoded)
    obtain rfl := Except.ok.inj (hX.packs.symm.trans rfl)
    exact hX

end Parameters
end KeyAgreement
