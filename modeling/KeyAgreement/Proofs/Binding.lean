import KeyAgreement.Parameters.Small
import KeyAgreement.Proofs.Encoding
import KeyAgreement.Proofs.Loading

/-! What a run hashes determines its public keys and its shared element. -/
namespace KeyAgreement
open Success

namespace Transcript

/-- The four public keys have one length. -/
structure HasWidth (t : Transcript) (w : Nat) : Prop where
  initiatorEphemeral : t.initiatorEphemeral.length = w
  responderEphemeral : t.responderEphemeral.length = w
  initiatorStatic : t.initiatorStatic.length = w
  responderStatic : t.responderStatic.length = w

/-- Though nothing separates the pieces, they can be told apart by their common length. -/
theorem HasWidth.keyInput_inj {t t' : Transcript} {w : Nat} {z z' : Octets} (ht : t.HasWidth w)
    (ht' : t'.HasWidth w) (hz : z.length = w) (hz' : z'.length = w)
    (h : t.keyInput z = t'.keyInput z') : t = t' ∧ z = z' := by
  obtain ⟨hshared, hkeys⟩ := List.append_inj h (hz.trans hz'.symm)
  unfold octets at hkeys
  simp only [List.append_assoc] at hkeys
  obtain ⟨hX, hkeys⟩ :=
    List.append_inj hkeys (ht.initiatorEphemeral.trans ht'.initiatorEphemeral.symm)
  obtain ⟨hY, hkeys⟩ :=
    List.append_inj hkeys (ht.responderEphemeral.trans ht'.responderEphemeral.symm)
  obtain ⟨hA, hB⟩ := List.append_inj hkeys (ht.initiatorStatic.trans ht'.initiatorStatic.symm)
  refine ⟨?_, hshared⟩
  cases t
  cases t'
  simp_all only

end Transcript

/-- The four public keys as one side sees them. -/
structure PublicKeys where
  ownEphemeral : Octets
  peerEphemeral : Octets
  ownStatic : Octets
  peerStatic : Octets
  deriving DecidableEq, Repr

namespace PublicKeys

def transcript (K : PublicKeys) : Role → Transcript
  | .initiator => ⟨K.ownEphemeral, K.peerEphemeral, K.ownStatic, K.peerStatic⟩
  | .responder => ⟨K.peerEphemeral, K.ownEphemeral, K.peerStatic, K.ownStatic⟩

theorem transcript_injective (role : Role) {K K' : PublicKeys}
    (h : K.transcript role = K'.transcript role) : K = K' := by
  cases role <;> cases K <;> cases K' <;> simp_all [transcript]

/-- In the other role the keys make another transcript, unless both sides have the same ones. -/
theorem same_of_transcript_eq {role role' : Role} (hrole : role ≠ role') {K : PublicKeys}
    (h : K.transcript role = K.transcript role') :
    K.ownEphemeral = K.peerEphemeral ∧ K.ownStatic = K.peerStatic := by
  cases role <;> cases role'
  · exact absurd rfl hrole
  · exact ⟨congrArg Transcript.initiatorEphemeral h, congrArg Transcript.initiatorStatic h⟩
  · exact ⟨congrArg Transcript.responderEphemeral h, congrArg Transcript.responderStatic h⟩
  · exact absurd rfl hrole

end PublicKeys

namespace Parameters
variable {P : Parameters}

/-- Packed keys, and those whose public key is as long as an encoded element. -/
def IsFixedWidthKey (P : Parameters) : Value → Prop
  | .ephemeral k => k.publicKey.satisfies (·.length = P.ephemeralPublicWidth) = true
  | v => v.octets?.isSome

theorem IsFixedWidthKey.length_eq {x : Value} (hx : P.IsFixedWidthKey x) {k : EphemeralKey}
    {own : Octets} (hk : P.ephemeralKey x = .ok k) (hown : k.publicKey.octets? = some own) :
    own.length = P.group.width := by
  have hpacked {b : Octets} (hb : x.octets? = some b) : own.length = P.group.width := by
    rw [ephemeralKey_eq_unpack hb, unpack_of_some hb] at hk
    split at hk
    · cases hk
    · rename_i hlength
      obtain ⟨_, _, rfl⟩ := map_eq_ok.mp hk
      obtain rfl := Option.some.inj hown
      rw [List.length_drop, Decidable.not_not.mp hlength, ephemeralPrivateWidth,
        Nat.add_sub_cancel_left, staticPublicWidth]
  cases x with
  | ephemeral k' =>
    have hpublic : k'.publicKey = k.publicKey := Except.ok.inj (ephemeralPublic_of_ephemeralKey hk)
    obtain ⟨b, hb, hlength⟩ := Value.satisfies_eq_true.mp hx
    rw [hpublic] at hb
    obtain rfl := Option.some.inj (hb.symm.trans hown)
    exact of_decide_eq_true hlength
  | _ =>
    obtain ⟨b, hb⟩ := Option.isSome_iff_exists.mp hx
    exact hpacked hb

end Parameters

namespace Party
variable {S : Party} {a x B Y : Value} {flag : Bool}

/-- The public keys of a run can be made from, or read off, what the caller hands in. -/
structure Sees (S : Party) (a x B Y : Value) (K : PublicKeys) : Prop where
  ownStatic : ∃ i, S.params.staticExponent a = .ok i ∧
    S.params.group.encode (S.params.group.basePower i) = .ok K.ownStatic
  ownEphemeral : ∃ v, S.params.ephemeralPublic x = .ok v ∧ v.octets? = some K.ownEphemeral
  peerStatic : B.octets? = some K.peerStatic
  peerEphemeral : Y.octets? = some K.peerEphemeral

/-- A successful run with the session that it opens, its public keys, the octets `z` of its shared
element, and the octets `m` whose hash is the agreed value. -/
structure Hashes (S : Party) (a x B Y : Value) (flag : Bool) (u : Octets) (K : PublicKeys)
    (z m : Octets) : Prop where
  sees : S.Sees a x B Y K
  opens : ∃ s : Session S.params, S.negotiate a x B Y flag = .ok (.opened s) ∧
    s.transcript = K.transcript S.role ∧ S.params.group.encode s.shared = .ok z ∧ s.keyInput = .ok m
  agreed : u = S.params.hash.digest m

theorem Hashes.input_eq {u z m : Octets} {K : PublicKeys} (h : S.Hashes a x B Y flag u K z m) :
    m = (K.transcript S.role).keyInput z := by
  obtain ⟨s, -, htranscript, hz, hm⟩ := h.opens
  obtain ⟨z', hz', rfl⟩ := Session.keyInput_eq_ok.mp hm
  obtain rfl := Except.ok.inj (hz.symm.trans hz')
  rw [htranscript]

/-- All five pieces that a successful run hashes are as long as an encoded element. -/
theorem exists_hashes {u : Octets} (hx : S.params.IsFixedWidthKey x)
    (h : S.agree a x B Y flag = .ok (.agreed u)) : ∃ K z m, S.Hashes a x B Y flag u K z m ∧
      z.length = S.params.group.width ∧ (K.transcript S.role).HasWidth S.params.group.width := by
  obtain ⟨s, hs, hvalue⟩ := agree_eq_agreed.mp h
  obtain ⟨k, b, y, own, hk, hb, hy, -, hown, rfl⟩ := negotiate_eq_opened.mp hs
  obtain ⟨hB, hY, ha, hx', hA⟩ := load_eq_ok.mp hk
  rw [Session.agreedValue_eq] at hvalue
  obtain ⟨m, hm, hu⟩ := map_eq_ok.mp hvalue
  obtain ⟨z, hz, -⟩ := Session.keyInput_eq_ok.mp hm
  let K : PublicKeys := ⟨own, k.peerEphemeralKey, k.staticKey, k.peerStaticKey⟩
  have htranscript : k.transcript own S.role = K.transcript S.role := by
    cases S.role <;> rfl
  have hownWidth := hx.length_eq hx' hown
  have hBWidth := Group.length_of_decode (Group.accept_eq_ok.mp hb).1
  have hYWidth := Group.length_of_decode (Group.accept_eq_ok.mp hy).1
  have hAWidth := Group.length_of_encode hA
  refine ⟨K, z, m,
    ⟨⟨⟨_, ha, hA⟩, ⟨_, Parameters.ephemeralPublic_of_ephemeralKey hx', hown⟩, hB, hY⟩,
    ⟨_, hs, htranscript, hz, hm⟩, hu.symm⟩, Group.length_of_encode hz, ?_⟩
  cases S.role with
  | initiator => exact ⟨hownWidth, hYWidth, hAWidth, hBWidth⟩
  | responder => exact ⟨hYWidth, hownWidth, hBWidth, hAWidth⟩

end Party

/-- Two successful runs that hash the same octets have the same public keys in the same places, and
the same shared element. So, unless the hash collides, other keys or the other role lead to another
agreed value. -/
theorem agreed_value_binds_keys (P : Parameters) (n n' : Nat) (role role' : Role)
    {a x B Y a' x' B' Y' : Value} (flag flag' : Bool) {u u' : Octets} (hx : P.IsFixedWidthKey x)
    (hx' : P.IsFixedWidthKey x') (h : (Party.mk n role P).agree a x B Y flag = .ok (.agreed u))
    (h' : (Party.mk n' role' P).agree a' x' B' Y' flag' = .ok (.agreed u')) :
    ∃ K z m K' z' m', (Party.mk n role P).Hashes a x B Y flag u K z m ∧
      (Party.mk n' role' P).Hashes a' x' B' Y' flag' u' K' z' m' ∧
      (m = m' → K.transcript role = K'.transcript role' ∧ z = z') ∧
      ((P.hash.digest m = P.hash.digest m' → m = m') →
        (role = role' → K ≠ K' → u ≠ u') ∧
        (role ≠ role' → K = K' → ¬ (K.ownEphemeral = K.peerEphemeral ∧ K.ownStatic = K.peerStatic) →
          u ≠ u')) := by
  obtain ⟨K, z, m, hK, hz, hwidth⟩ := Party.exists_hashes hx h
  obtain ⟨K', z', m', hK', hz', hwidth'⟩ := Party.exists_hashes hx' h'
  have hbinds : m = m' → K.transcript role = K'.transcript role' ∧ z = z' := by
    intro hm
    apply hwidth.keyInput_inj hwidth' hz hz'
    rw [← hK.input_eq, ← hK'.input_eq, hm]
  refine ⟨K, z, m, K', z', m', hK, hK', hbinds, ?_⟩
  intro hcollision
  have htranscript (hu : u = u') : K.transcript role = K'.transcript role' := by
    rw [hK.agreed, hK'.agreed] at hu
    exact (hbinds (hcollision hu)).1
  constructor
  · rintro rfl hne hu
    exact hne (PublicKeys.transcript_injective role (htranscript hu))
  · rintro hrole rfl hne hu
    exact hne (PublicKeys.same_of_transcript_eq hrole (htranscript hu))

/-- With the peer's ephemeral key 16 replaced by 8, other octets are hashed. -/
theorem residues23_agreed_value_binds_keys :
    let S : Party := ⟨0, .initiator, .residues23⟩
    let run := fun Y => S.agree (.octets [3]) (.octets [5, 9]) (.octets [13]) (.octets Y) true
    let hashes := fun Y => S.Hashes (.octets [3]) (.octets [5, 9]) (.octets [13]) (.octets Y) true
    ∃ u u', run [16] = .ok (.agreed u) ∧ run [8] = .ok (.agreed u') ∧
      ∃ K z m K' z' m', hashes [16] u K z m ∧ hashes [8] u' K' z' m' ∧ m ≠ m' := by
  intro S run hashes
  have h : run [16] = .ok (.agreed (Hash.sha256 [13, 9, 16, 8, 13])) := by decide +kernel
  have h' : run [8] = .ok (.agreed (Hash.sha256 [2, 9, 8, 8, 13])) := by decide +kernel
  have hx : Parameters.residues23.IsFixedWidthKey (.octets [5, 9]) := rfl
  obtain ⟨K, z, m, K', z', m', hK, hK', hbinds, -⟩ :=
    agreed_value_binds_keys .residues23 0 0 .initiator .initiator true true hx hx h h'
  refine ⟨_, _, h, h', K, z, m, K', z', m', hK, hK', ?_⟩
  intro hm
  obtain rfl := PublicKeys.transcript_injective .initiator (hbinds hm).1
  have hpeer : (some [16] : Option Octets) = some [8] :=
    hK.sees.peerEphemeral.trans hK'.sees.peerEphemeral.symm
  exact absurd hpeer (by decide)

end KeyAgreement
