import KeyAgreement.Parameters.Small
import KeyAgreement.Proofs.Cyclic
import KeyAgreement.Proofs.Loading

/-! Both sides of an honest run reach the same power of the base, and with it the same agreed
value. -/
namespace KeyAgreement
open Success

namespace Group
variable {G : Group}

theorem basePower_congr {i j : Int} (h : i.fmod G.subgroupOrder = j.fmod G.subgroupOrder) :
    G.basePower i = G.basePower j := by
  cases G with
  | residue G => exact congrArg (fun r => (Modular.signedPower? G.base r G.modulus).getD 1) h
  | curve G => exact congrArg (fun r => G.curve.scale r G.base) h

/-- On powers of the base, the reduced contribution is as good as the unreduced one. -/
theorem combine_basePower (hG : G.Cyclic) (b y x d a : Int) (e : Nat) :
    G.combine (G.contribution x d a) e (G.basePower b) (G.basePower y) =
      G.basePower ((x + d * a) * (y + e * b)) := by
  have hnonneg := Int.emod_nonneg (x + d * a) hG.order_pos.ne'
  unfold combine contribution
  rw [hG.pow_basePower, hG.mul_basePower, hG.pow_basePower]
  apply basePower_congr
  simp only [Int.fmod_eq_emod_of_nonneg _ hG.order_pos.le, Int.toNat_of_nonneg hnonneg]
  have hreduced : (x + d * a) % G.subgroupOrder ≡ x + d * a [ZMOD G.subgroupOrder] :=
    Int.mod_modEq _ _
  calc (y + b * e) * ((x + d * a) % G.subgroupOrder)
      ≡ (y + b * e) * (x + d * a) [ZMOD G.subgroupOrder] := hreduced.mul_left _
    _ = (x + d * a) * (y + e * b) := by ring

end Group

namespace Parameters
variable {P : Parameters}

theorem IsExponent.not_dvd {x : Int} (hx : P.IsExponent x) : ¬ P.group.subgroupOrder ∣ x := by
  intro h
  have := Int.le_of_dvd (by have := hx.1; omega) h
  have := hx.2
  omega

/-- The keys of an honest run: one's own exponents, and encodings of powers of the base. -/
structure Honest (P : Parameters) (k : LoadedKeys) (own : Octets) (b y : Int) : Prop where
  static : P.IsExponent k.static
  peerStatic : P.IsExponent b
  peerEphemeral : P.IsExponent y
  ownEphemeralKey : k.ephemeral.publicKey.octets? = some own
  peerStaticKey : P.group.encode (P.group.basePower b) = .ok k.peerStaticKey
  peerEphemeralKey : P.group.encode (P.group.basePower y) = .ok k.peerEphemeralKey

theorem initiator_shared (hG : P.group.Cyclic) (a b x y : Int) (t : Transcript) :
    P.sharedElement .initiator a x t (P.group.basePower b) (P.group.basePower y) =
      P.group.basePower ((x + P.challenge t * a) * (y + P.challenge t.exchanged * b)) :=
  Group.combine_basePower hG b y x _ a _

theorem responder_shared (hG : P.group.Cyclic) (a b x y : Int) (t : Transcript) :
    P.sharedElement .responder b y t (P.group.basePower a) (P.group.basePower x) =
      P.group.basePower ((x + P.challenge t * a) * (y + P.challenge t.exchanged * b)) :=
  (Group.combine_basePower hG a x y _ b _).trans (congrArg _ (mul_comm _ _))

variable {k : LoadedKeys} {own : Octets} {b y : Int}

/-- Honest peer keys can only be taken for the powers that they encode. -/
theorem Honest.session_eq (hk : Honest P k own b y) (hG : P.group.Cyclic) {role : Role}
    {flag : Bool} {s : Session P} (h : P.examine role k flag = .ok (.opened s)) :
    s = P.sessionOf role k own (P.group.basePower b) (P.group.basePower y) := by
  obtain ⟨e, f, he, hf, hopen⟩ := examine_eq_opened.mp h
  obtain ⟨_, own', hown, rfl⟩ := openSession_eq_ok.mp hopen
  have hbe := (hG.decode_encode hk.peerStatic.not_dvd hk.peerStaticKey).symm.trans
    (Group.accept_eq_ok.mp he).1
  have hyf := (hG.decode_encode hk.peerEphemeral.not_dvd hk.peerEphemeralKey).symm.trans
    (Group.accept_eq_ok.mp hf).1
  obtain rfl := Except.ok.inj hbe
  obtain rfl := Except.ok.inj hyf
  obtain rfl := Option.some.inj (hk.ownEphemeralKey.symm.trans hown)
  rfl

/-- If the order is prime, honest peer keys are accepted. -/
theorem Honest.examine_eq (hk : Honest P k own b y) (hG : P.group.Cyclic)
    (fits : P.suite.challengeWidth ≤ P.suite.digestSize)
    (hprime : P.group.subgroupOrder.toNat.Prime) (role : Role) (flag : Bool) :
    P.examine role k flag =
      .ok (.opened (P.sessionOf role k own (P.group.basePower b) (P.group.basePower y))) := by
  have haccept {i : Int} {c : Octets} (hi : P.IsExponent i) (level : Int)
      (hc : P.group.encode (P.group.basePower i) = .ok c) :
      P.group.accept level c = .ok (P.group.basePower i) :=
    Group.accept_eq_ok.mpr
      ⟨hG.decode_encode hi.not_dvd hc, hG.validate_basePower hprime hi.not_dvd level⟩
  refine examine_eq_opened.mpr ⟨_, _, haccept hk.peerStatic _ hk.peerStaticKey,
    haccept hk.peerEphemeral _ hk.peerEphemeralKey, ?_⟩
  exact openSession_eq_ok.mpr ⟨fits, own, hk.ownEphemeralKey, rfl⟩

end Parameters

theorem Party.load_own {P : Parameters} (n : Nat) (role : Role) {a : Int} (ha : P.IsExponent a)
    (x : Int) (X B Y : Octets) {A : Octets} (hA : P.group.encode (P.group.basePower a) = .ok A) :
    (Party.mk n role P).load (.octets (P.privateOctets a)) (.ephemeral ⟨P, x, .octets X⟩)
        (.octets B) (.octets Y) =
      .ok ⟨a, ⟨P, x, .octets X⟩, A, B, Y⟩ :=
  Party.load_eq_ok.mpr
    ⟨rfl, rfl, Parameters.staticExponent_privateOctets ha, Parameters.ephemeralKey_own x _, hA⟩

/-- What one side hashes in an honest run: its shared element is the power of the base that its
session reaches, and `encoded` is that element's encoding. -/
theorem Party.agree_honest {S : Party} {a x B Y : Value} (flag : Bool) {k : LoadedKeys}
    {own encoded : Octets} {b y : Int} (hload : S.load a x B Y = .ok k)
    (hk : S.params.Honest k own b y) (hG : S.params.group.Cyclic)
    (hencoded : S.params.group.encode (S.params.sessionOf S.role k own (S.params.group.basePower b)
      (S.params.group.basePower y)).shared = .ok encoded) :
    let result := Outcome.result <$> S.agree a x B Y flag
    let value := S.params.hash.digest ((k.transcript own S.role).keyInput encoded)
    (∀ u, result = .ok ⟨true, some u⟩ → u = value) ∧
    (S.params.suite.challengeWidth ≤ S.params.suite.digestSize →
      S.params.group.subgroupOrder.toNat.Prime → result = .ok ⟨true, some value⟩) := by
  intro result value
  have hvalue : (S.params.sessionOf S.role k own (S.params.group.basePower b)
      (S.params.group.basePower y)).agreedValue = .ok value := by
    rw [Session.agreedValue_eq, Session.keyInput_eq_ok.mpr ⟨encoded, hencoded, rfl⟩]
    rfl
  constructor
  · intro u hu
    obtain ⟨s, hs, hsu⟩ := agree_eq_agreed.mp (result_eq_agreed.mp hu)
    obtain ⟨k', hk', hexamine⟩ := negotiate_eq_ok.mp hs
    obtain rfl := Except.ok.inj (hload.symm.trans hk')
    obtain rfl := hk.session_eq hG hexamine
    exact Except.ok.inj (hsu.symm.trans hvalue)
  · intro fits hprime
    apply result_eq_agreed.mpr (agree_eq_agreed.mpr _)
    exact ⟨_, negotiate_eq_ok.mpr ⟨k, hload, hk.examine_eq hG fits hprime S.role flag⟩, hvalue⟩

/-- An initiator and a responder with honest keys that both succeed have the same agreed value, the
hash of the power (x + d a) (y + e b) of the base and of the four public keys. The challenges d and
e are truncated hashes of these keys, reduced by the order. If the order is prime, both do
succeed. -/
theorem initiator_agrees_with_responder (P : Parameters)
    (fits : ((bitWidth P.group.subgroupOrder + 1) / 2 + 7) / 8 ≤ P.hash.digestSize)
    (usable : P.group.Usable) {a b x y : Int} (ha : P.IsExponent a) (hb : P.IsExponent b)
    (hx : P.IsExponent x) (hy : P.IsExponent y) (m n : Nat) (validateB validateA : Bool) :
    let q := P.group.subgroupOrder
    let challenge (keys : Octets) : Nat :=
      Octets.value ((P.hash.digest keys).take (((bitWidth q + 1) / 2 + 7) / 8)) % q.toNat
    let privateKey (x : Int) : Value := .octets (Octets.ofNat (octetWidth q) x.toNat)
    ∃ A B X Y, P.group.WritesPower a.toNat A ∧ P.group.WritesPower b.toNat B ∧
      P.group.WritesPower x.toNat X ∧ P.group.WritesPower y.toNat Y ∧
      let d := challenge (X ++ Y ++ A ++ B)
      let e := challenge (Y ++ X ++ A ++ B)
      let initiatorResult := Outcome.result <$> (Party.mk m .initiator P).agree (privateKey a)
        (.ephemeral ⟨P, x, .octets X⟩) (.octets B) (.octets Y) validateB
      let responderResult := Outcome.result <$> (Party.mk n .responder P).agree (privateKey b)
        (.ephemeral ⟨P, y, .octets Y⟩) (.octets A) (.octets X) validateA
      ∃ shared, P.group.WritesPower ((x + d * a) * (y + e * b)).toNat shared ∧
        let value := P.hash.digest (shared ++ X ++ Y ++ A ++ B)
        (∀ u v, initiatorResult = .ok ⟨true, some u⟩ → responderResult = .ok ⟨true, some v⟩ →
          u = v ∧ u = value) ∧
        (q.toNat.Prime → initiatorResult = .ok ⟨true, some value⟩ ∧
          responderResult = .ok ⟨true, some value⟩) := by
  intro q challenge privateKey
  have hq := ha.order_pos
  have hG := usable.cyclic hq
  have hwrites {i : Int} {c : Octets} (hi : 0 ≤ i)
      (hc : P.group.encode (P.group.basePower i) = .ok c) : P.group.WritesPower i.toNat c :=
    (usable.encode_basePower_iff hq hi).mp hc
  have hnonneg {i : Int} (hi : P.IsExponent i) : 0 ≤ i := zero_le_one.trans hi.1
  obtain ⟨A, hA⟩ := hG.exists_encode a
  obtain ⟨B, hB⟩ := hG.exists_encode b
  obtain ⟨X, hX⟩ := hG.exists_encode x
  obtain ⟨Y, hY⟩ := hG.exists_encode y
  refine ⟨A, B, X, Y, hwrites (hnonneg ha) hA, hwrites (hnonneg hb) hB, hwrites (hnonneg hx) hX,
    hwrites (hnonneg hy) hY, ?_⟩
  intro d e initiatorResult responderResult
  -- The runs take their challenges from a transcript, the responder the one with the keys
  -- exchanged.
  let t : Transcript := ⟨X, Y, A, B⟩
  have hd : P.challenge t = d := Parameters.challenge_eq hq t
  have he : P.challenge t.exchanged = e := Parameters.challenge_eq hq t.exchanged
  obtain ⟨shared, hshared⟩ := hG.exists_encode ((x + d * a) * (y + e * b))
  have hproduct : 0 ≤ (x + d * a) * (y + e * b) := by
    have := hnonneg ha
    have := hnonneg hb
    have := hnonneg hx
    have := hnonneg hy
    positivity
  refine ⟨shared, hwrites hproduct hshared, ?_⟩
  intro value
  rw [← hd, ← he] at hshared
  have hinitiator := Party.agree_honest validateB
    (Party.load_own m .initiator ha x X B Y hA) ⟨ha, hb, hy, rfl, hB, hY⟩ hG
    ((congrArg P.group.encode (Parameters.initiator_shared hG a b x y _)).trans hshared)
  have hresponder := Party.agree_honest validateA
    (Party.load_own n .responder hb y Y A X hB) ⟨hb, ha, hx, rfl, hA, hX⟩ hG
    ((congrArg P.group.encode (Parameters.responder_shared hG a b x y _)).trans hshared)
  have hvalue : P.hash.digest (t.keyInput shared) = value := by
    rw [Transcript.keyInput, Transcript.octets, ← List.append_assoc, ← List.append_assoc,
      ← List.append_assoc]
  constructor
  · intro u v hu hv
    have hu' := (hinitiator.1 u hu).trans hvalue
    have hv' := (hresponder.1 v hv).trans hvalue
    exact ⟨hu'.trans hv'.symm, hu'⟩
  · intro hprime
    rw [← hvalue]
    exact ⟨hinitiator.2 fits hprime, hresponder.2 fits hprime⟩

/-- On the curve modulo 17 with the exponents 3, 7, 5 and 11 the challenges are 18 and 6, and both
sides hash the power (5 + 18 * 3) (11 + 6 * 7) of the base, which is the eleventh again. -/
theorem curve17_initiator_agrees_with_responder :
    let P : Parameters := .curve17
    let value := P.hash.digest ([2, 13] ++ [2, 9] ++ [2, 13] ++ [2, 10] ++ [2, 0])
    P.group.Usable ∧ P.group.WritesPower 3 [2, 10] ∧ P.group.WritesPower 7 [2, 0] ∧
      P.group.WritesPower 5 [2, 9] ∧ P.group.WritesPower 11 [2, 13] ∧
      Octets.value ((P.hash.digest ([2, 9] ++ [2, 13] ++ [2, 10] ++ [2, 0])).take 1) % 19 = 18 ∧
      Octets.value ((P.hash.digest ([2, 13] ++ [2, 9] ++ [2, 10] ++ [2, 0])).take 1) % 19 = 6 ∧
      P.group.WritesPower ((5 + 18 * 3) * (11 + 6 * 7)) [2, 13] ∧
      Outcome.result <$> (Party.mk 0 .initiator P).agree (.octets [3])
        (.ephemeral ⟨P, 5, .octets [2, 9]⟩) (.octets [2, 0]) (.octets [2, 13]) true =
          .ok ⟨true, some value⟩ ∧
      Outcome.result <$> (Party.mk 1 .responder P).agree (.octets [7])
        (.ephemeral ⟨P, 11, .octets [2, 13]⟩) (.octets [2, 10]) (.octets [2, 9]) false =
          .ok ⟨true, some value⟩ := by
  intro P value
  have husable : P.group.Usable := CurveGroup.curve17_primeOrder
  have hq : 0 < P.group.subgroupOrder := by decide
  obtain ⟨A, B, X, Y, hA, hB, hX, hY, shared, hshared, -, hsucceed⟩ :=
    initiator_agrees_with_responder P (by decide) husable (a := 3) (b := 7)
      (x := 5) (y := 11) ⟨by decide, by decide⟩ ⟨by decide, by decide⟩ ⟨by decide, by decide⟩
      ⟨by decide, by decide⟩ 0 1 true false
  have hwrites {i : Int} {b c : Octets} (hi : 0 ≤ i) (hb : P.group.WritesPower i.toNat b)
      (hc : P.group.encode (P.group.basePower i) = .ok c) : b = c :=
    Except.ok.inj (((husable.encode_basePower_iff hq hi).mpr hb).symm.trans hc)
  obtain rfl : A = [2, 10] := hwrites (by decide) hA (by decide +kernel)
  obtain rfl : B = [2, 0] := hwrites (by decide) hB (by decide +kernel)
  obtain rfl : X = [2, 9] := hwrites (by decide) hX (by decide +kernel)
  obtain rfl : Y = [2, 13] := hwrites (by decide) hY (by decide +kernel)
  have hd : Octets.value ((P.hash.digest ([2, 9] ++ [2, 13] ++ [2, 10] ++ [2, 0])).take 1) % 19 =
      18 := by
    decide +kernel
  have he : Octets.value ((P.hash.digest ([2, 13] ++ [2, 9] ++ [2, 10] ++ [2, 0])).take 1) % 19 =
      6 := by
    decide +kernel
  have hchallenge : ((bitWidth P.group.subgroupOrder + 1) / 2 + 7) / 8 = 1 := by decide
  have horder : P.group.subgroupOrder.toNat = 19 := rfl
  dsimp only at hshared
  rw [hchallenge, horder, hd, he] at hshared
  obtain rfl : shared = [2, 13] := hwrites (by decide) hshared (by decide +kernel)
  have hwidth : octetWidth P.group.subgroupOrder = 1 := by decide
  have hboth := hsucceed CurveGroup.curve17_primeOrder.order_prime
  dsimp only at hboth
  rw [hwidth] at hboth
  exact ⟨husable, hA, hB, hX, hY, hd, he, hshared, hboth⟩

end KeyAgreement
