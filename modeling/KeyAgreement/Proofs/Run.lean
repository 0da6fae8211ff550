import KeyAgreement.Agreement
import KeyAgreement.Proofs.Success

/-! What the steps of a run have done when they succeed. -/
namespace KeyAgreement
open Success

theorem Value.contentOr_eq_ok {v : Value} {f : Fault} {b : Octets} :
    v.contentOr f = .ok b ↔ v.octets? = some b := by
  unfold Value.contentOr
  cases v.octets? <;> simp

theorem Value.content_eq_ok {v : Value} {b : Octets} : v.content = .ok b ↔ v.octets? = some b :=
  Value.contentOr_eq_ok

theorem peerOctets_eq_ok {v : Value} {b : Octets} : peerOctets v = .ok b ↔ v.octets? = some b :=
  Value.contentOr_eq_ok

theorem Group.accept_eq_ok {G : Group} {level : Int} {b : Octets} {e : G.Carrier} :
    G.accept level b = .ok e ↔ G.decode b = .ok e ∧ G.validate level e = true := by
  unfold accept
  cases h : G.decode b with
  | error why => simp
  | ok f =>
    simp only [Except.ok.injEq]
    by_cases hv : G.validate level f = true
    · simp only [hv, if_true, Except.ok.injEq]
      constructor
      · rintro rfl
        exact ⟨rfl, hv⟩
      · exact And.left
    · simp only [hv]
      constructor
      · simp
      · rintro ⟨rfl, hv'⟩
        exact absurd hv' hv

namespace Suite
variable {H : Suite} {length : Int}

theorem checkLength_eq_ok {u : Unit} : H.checkLength length = .ok u ↔ length ≤ H.digestSize := by
  unfold checkLength
  split <;> simp <;> omega

theorem challenge_eq_take (t : Transcript) :
    H.challenge t = (H.hash.digest t.octets).take H.challengeWidth := by
  unfold challenge cut
  rw [if_pos (by omega), Int.toNat_natCast]

theorem checkLength_of_short (h : H.digestSize < length) :
    H.checkLength length = .error (.digestTooShort length H.digestSize) := by
  unfold checkLength
  rw [if_pos h]
  rfl

end Suite

namespace Parameters
variable {P : Parameters}

/-- Exponents that keys may have. -/
def IsExponent (P : Parameters) (x : Int) : Prop := 1 ≤ x ∧ x < P.group.subgroupOrder

instance (x : Int) : Decidable (P.IsExponent x) :=
  inferInstanceAs (Decidable (1 ≤ x ∧ x < P.group.subgroupOrder))

theorem challenge_eq (hq : 0 < P.group.subgroupOrder) (t : Transcript) :
    P.challenge t = Octets.value ((P.hash.digest t.octets).take P.suite.challengeWidth) %
      P.group.subgroupOrder.toNat := by
  rw [challenge, Suite.challenge_eq_take, Int.fmod_eq_emod_of_nonneg _ (Int.le_of_lt hq),
    Int.toNat_emod (Int.natCast_nonneg _) (Int.le_of_lt hq), Int.toNat_natCast]
  rfl

theorem exponentOf_eq_ok {b : Octets} {x : Int} : P.exponentOf b = .ok x ↔
    b.length = P.staticPrivateWidth ∧ (b.value : Int) = x ∧ P.IsExponent x := by
  unfold exponentOf
  split
  · rename_i hlength
    simp [hlength]
  · rename_i hlength
    have hlength : b.length = P.staticPrivateWidth := by omega
    split
    · rename_i hrange
      simp only [pure_eq_ok, hlength, true_and]
      constructor
      · rintro rfl
        exact ⟨rfl, hrange⟩
      · exact fun h => h.1
    · rename_i hrange
      simp only [throw_ne_ok, false_iff]
      rintro ⟨-, rfl, h⟩
      exact hrange h

theorem isExponent_of_exponentOf {b : Octets} {x : Int} (h : P.exponentOf b = .ok x) :
    P.IsExponent x :=
  (exponentOf_eq_ok.mp h).2.2

theorem staticExponent_eq_ok {v : Value} {x : Int} : P.staticExponent v = .ok x ↔
    ∃ b, v.octets? = some b ∧ P.exponentOf b = .ok x := by
  simp [staticExponent, Value.contentOr_eq_ok]

theorem isExponent_of_staticExponent {v : Value} {x : Int} (h : P.staticExponent v = .ok x) :
    P.IsExponent x := by
  obtain ⟨b, -, hb⟩ := staticExponent_eq_ok.mp h
  exact isExponent_of_exponentOf hb

end Parameters

/-- The public keys of a run in the order of the transcript, given the octets of the own ephemeral
one. -/
def LoadedKeys.transcript (k : LoadedKeys) (own : Octets) : Role → Transcript
  | .initiator => ⟨own, k.peerEphemeralKey, k.staticKey, k.peerStaticKey⟩
  | .responder => ⟨k.peerEphemeralKey, own, k.peerStaticKey, k.staticKey⟩

namespace Parameters
variable (P : Parameters)

/-- The session that given keys open, with the peer's ones as elements. -/
def sessionOf (role : Role) (k : LoadedKeys) (own : Octets)
    (peerStatic peerEphemeral : P.group.Carrier) : Session P where
  transcript := k.transcript own role
  shared := P.sharedElement role k.static k.ephemeral.exponent (k.transcript own role) peerStatic
    peerEphemeral

variable {P}

theorem openSession_eq_ok {role : Role} {k : LoadedKeys} {b y : P.group.Carrier} {s : Session P} :
    P.openSession role k b y = .ok s ↔ P.suite.challengeWidth ≤ P.suite.digestSize ∧
      ∃ own, k.ephemeral.publicKey.octets? = some own ∧ P.sessionOf role k own b y = s := by
  cases role with
  | initiator =>
    simp [openSession, Role.inOrder, Suite.openTranscript, Transcript.ofValues,
      Suite.checkLength_eq_ok, Value.content_eq_ok, sessionOf, LoadedKeys.transcript]
  | responder =>
    simp [openSession, Role.inOrder, Suite.openTranscript, Transcript.ofValues,
      Suite.checkLength_eq_ok, Value.content_eq_ok, sessionOf, LoadedKeys.transcript]

theorem examine_of_static_rejected {role : Role} {k : LoadedKeys} {flag : Bool} {why : Rejection}
    (h : P.group.accept (staticLevel flag) k.peerStaticKey = .error why) :
    P.examine role k flag = .ok (.rejected .static why) := by
  unfold examine
  rw [h]
  rfl

theorem examine_of_ephemeral_rejected {role : Role} {k : LoadedKeys} {flag : Bool}
    {b : P.group.Carrier} {why : Rejection}
    (hb : P.group.accept (staticLevel flag) k.peerStaticKey = .ok b)
    (h : P.group.accept 3 k.peerEphemeralKey = .error why) :
    P.examine role k flag = .ok (.rejected .ephemeral why) := by
  unfold examine
  rw [hb, h]
  rfl

theorem examine_of_accepted {role : Role} {k : LoadedKeys} {flag : Bool} {b y : P.group.Carrier}
    (hb : P.group.accept (staticLevel flag) k.peerStaticKey = .ok b)
    (hy : P.group.accept 3 k.peerEphemeralKey = .ok y) :
    P.examine role k flag = .opened <$> P.openSession role k b y := by
  unfold examine
  rw [hb, hy]

theorem examine_eq_opened {role : Role} {k : LoadedKeys} {flag : Bool} {s : Session P} :
    P.examine role k flag = .ok (.opened s) ↔ ∃ b y,
      P.group.accept (staticLevel flag) k.peerStaticKey = .ok b ∧
      P.group.accept 3 k.peerEphemeralKey = .ok y ∧ P.openSession role k b y = .ok s := by
  unfold examine
  split
  · rename_i h
    simp [h]
  · rename_i b h
    split
    · rename_i h'
      simp [h']
    · rename_i y h'
      simp [h, h']

end Parameters

namespace Session
variable {P : Parameters} {s : Session P}

theorem keyInput_eq_ok {m : Octets} : s.keyInput = .ok m ↔
    ∃ encoded, P.group.encode s.shared = .ok encoded ∧ s.transcript.keyInput encoded = m := by
  simp [keyInput]

theorem agreedValue_eq (s : Session P) : s.agreedValue = P.hash.digest <$> s.keyInput := by
  have hwhole (m : Octets) :
      cut (P.suite.hash.digest m) P.suite.digestSize = P.suite.hash.digest m := by
    have h := cut_length (P.suite.hash.digest m)
    rwa [P.suite.hash.length_digest] at h
  unfold agreedValue keyInput Suite.key
  simp only [hwhole]
  cases P.group.encode s.shared <;> rfl

end Session

namespace Party
variable {S : Party} {a x B Y : Value} {flag : Bool}

theorem load_eq_ok {k : LoadedKeys} : S.load a x B Y = .ok k ↔
    B.octets? = some k.peerStaticKey ∧ Y.octets? = some k.peerEphemeralKey ∧
    S.params.staticExponent a = .ok k.static ∧ S.params.ephemeralKey x = .ok k.ephemeral ∧
    S.params.group.encode (S.params.group.basePower k.static) = .ok k.staticKey := by
  simp only [load, bind_eq_ok, peerOctets_eq_ok, pure_eq_ok]
  constructor
  · rintro ⟨_, hB, _, hY, _, ha, _, hx, _, hA, rfl⟩
    exact ⟨hB, hY, ha, hx, hA⟩
  · rintro ⟨hB, hY, ha, hx, hA⟩
    exact ⟨_, hB, _, hY, _, ha, _, hx, _, hA, rfl⟩

theorem negotiate_eq_ok {r : Admission S.params} : S.negotiate a x B Y flag = .ok r ↔
    ∃ k, S.load a x B Y = .ok k ∧ S.params.examine S.role k flag = .ok r := by
  simp [negotiate]

/-- Keys that load open a session if the peer's are accepted and the digest is long enough for the
challenges. -/
theorem negotiate_eq_opened {s : Session S.params} : S.negotiate a x B Y flag = .ok (.opened s) ↔
    ∃ k b y own, S.load a x B Y = .ok k ∧
      S.params.group.accept (staticLevel flag) k.peerStaticKey = .ok b ∧
      S.params.group.accept 3 k.peerEphemeralKey = .ok y ∧
      S.params.suite.challengeWidth ≤ S.params.suite.digestSize ∧
      k.ephemeral.publicKey.octets? = some own ∧ S.params.sessionOf S.role k own b y = s := by
  simp only [negotiate_eq_ok, Parameters.examine_eq_opened, Parameters.openSession_eq_ok]
  constructor
  · rintro ⟨k, hk, b, y, hb, hy, hlong, own, hown, hs⟩
    exact ⟨k, b, y, own, hk, hb, hy, hlong, hown, hs⟩
  · rintro ⟨k, b, y, own, hk, hb, hy, hlong, hown, hs⟩
    exact ⟨k, hk, b, y, hb, hy, hlong, own, hown, hs⟩

theorem result_eq_agreed {r : Except Fault Outcome} {u : Octets} :
    Outcome.result <$> r = .ok ⟨true, some u⟩ ↔ r = .ok (.agreed u) := by
  rcases r with f | v | ⟨key, why⟩ <;>
    simp [Outcome.result, Verdict.failed, Functor.map, Except.map]

theorem agree_eq_agreed {u : Octets} : S.agree a x B Y flag = .ok (.agreed u) ↔
    ∃ s, S.negotiate a x B Y flag = .ok (.opened s) ∧ s.agreedValue = .ok u := by
  unfold agree
  rcases S.negotiate a x B Y flag with f | s | ⟨key, why⟩ <;> simp [Admission.outcome]

end Party
end KeyAgreement
