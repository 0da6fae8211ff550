import KeyAgreement.Parameters.Small
import KeyAgreement.Proofs.Encoding
import KeyAgreement.Proofs.Loading

/-! How a run ends on arguments of any kind. -/
namespace KeyAgreement
open Success

namespace Group
variable {G : Group}

/-- The octets encode an element that is valid at the level. -/
def acceptable (G : Group) (level : Int) (b : Octets) : Bool :=
  match G.decode b with
  | .ok e => G.validate level e
  | .error _ => false

theorem exists_accept_of_acceptable {level : Int} {b : Octets} (h : G.acceptable level b = true) :
    ∃ e, G.accept level b = .ok e := by
  unfold acceptable at h
  split at h
  · rename_i e he
    exact ⟨e, accept_eq_ok.mpr ⟨he, h⟩⟩
  · cases h

theorem exists_reject_of_not_acceptable {level : Int} {b : Octets}
    (h : G.acceptable level b = false) : ∃ why, G.accept level b = .error why := by
  rcases hb : G.accept level b with why | e
  · exact ⟨why, rfl⟩
  · obtain ⟨hdecode, hvalid⟩ := accept_eq_ok.mp hb
    unfold acceptable at h
    rw [hdecode] at h
    exact absurd hvalid (by simp [h])

end Group

namespace Parameters
variable {P : Parameters}

theorem openSession_of_short (role : Role) (k : LoadedKeys) (b y : P.group.Carrier)
    (h : P.suite.digestSize < P.suite.challengeWidth) :
    P.openSession role k b y =
      .error (.digestTooShort P.suite.challengeWidth P.suite.digestSize) := by
  have hcheck := Suite.checkLength_of_short (Int.ofNat_lt.mpr h)
  unfold openSession Suite.openTranscript
  rw [hcheck]
  rfl

/-- A session with elements that were decoded ends with an agreed value. -/
theorem exists_agreedValue (role : Role) (k : LoadedKeys) (own : Octets) {b y : P.group.Carrier}
    (hb : P.group.Reduced b) (hy : P.group.Reduced y) : ∃ value, value.length = P.suite.digestSize ∧
      (P.sessionOf role k own b y).agreedValue = .ok value := by
  have hreduced : P.group.Reduced (P.sessionOf role k own b y).shared := hb.combine hy _ _
  obtain ⟨encoded, hencoded⟩ := hreduced.exists_encode
  refine ⟨P.hash.digest ((k.transcript own role).keyInput encoded), P.hash.length_digest _, ?_⟩
  rw [Session.agreedValue_eq, Session.keyInput_eq_ok.mpr ⟨encoded, hencoded, rfl⟩]
  rfl

end Parameters

namespace Party
variable {S : Party} {a x B Y : Value} {flag : Bool}

theorem load_of_octets {b y : Octets} (hB : B.octets? = some b) (hY : Y.octets? = some y) :
    S.load a x B Y = (do
      let static ← S.params.staticExponent a
      let ephemeral ← S.params.ephemeralKey x
      let staticKey ← S.params.group.encode (S.params.group.basePower static)
      pure ⟨static, ephemeral, staticKey, b, y⟩) := by
  unfold load
  rw [peerOctets_eq_ok.mpr hB, peerOctets_eq_ok.mpr hY]
  rfl

theorem load_of_static_not_octets (h : B.octets? = none) :
    S.load a x B Y = .error (.peerKeyNotOctets B.kind) := by
  unfold load
  rw [peerOctets, Value.contentOr_of_none h]
  rfl

theorem load_of_ephemeral_not_octets {b : Octets} (hB : B.octets? = some b)
    (h : Y.octets? = none) : S.load a x B Y = .error (.peerKeyNotOctets Y.kind) := by
  unfold load
  rw [peerOctets_eq_ok.mpr hB, peerOctets, Value.contentOr_of_none h]
  rfl

theorem load_of_static_error {b y : Octets} {f : Fault} (hB : B.octets? = some b)
    (hY : Y.octets? = some y) (h : S.params.staticExponent a = .error f) :
    S.load a x B Y = .error f := by
  rw [load_of_octets hB hY, h]
  rfl

theorem load_of_ephemeral_error {b y : Octets} {static : Int} {f : Fault}
    (hB : B.octets? = some b) (hY : Y.octets? = some y)
    (ha : S.params.staticExponent a = .ok static) (h : S.params.ephemeralKey x = .error f) :
    S.load a x B Y = .error f := by
  rw [load_of_octets hB hY, ha, h]
  rfl

theorem agree_of_load_error {f : Fault} (h : S.load a x B Y = .error f) :
    S.agree a x B Y flag = .error f := by
  unfold agree negotiate
  rw [h]
  rfl

theorem agree_of_load {k : LoadedKeys} (h : S.load a x B Y = .ok k) :
    S.agree a x B Y flag = S.params.examine S.role k flag >>= Admission.outcome := by
  unfold agree negotiate
  rw [h]
  rfl

/-- Once the keys are loaded, the peer's ones decide whether there is an agreed value, and the
sizes of challenge and digest whether it can be hashed. -/
theorem result_of_load {k : LoadedKeys} {own : Octets} (hload : S.load a x B Y = .ok k)
    (hown : k.ephemeral.publicKey.octets? = some own) :
    let P := S.params
    let result := Outcome.result <$> S.agree a x B Y flag
    if P.group.acceptable (staticLevel flag) k.peerStaticKey = false then result = .ok .failed
    else if P.group.acceptable 3 k.peerEphemeralKey = false then result = .ok .failed
    else if P.suite.digestSize < P.suite.challengeWidth then
      Refuses result .valueError (.digestTooShort P.suite.challengeWidth P.suite.digestSize)
    else ∃ value, value.length = P.suite.digestSize ∧ result = .ok ⟨true, some value⟩ := by
  intro P result
  have hresult : result = Outcome.result <$> (P.examine S.role k flag >>= Admission.outcome) :=
    congrArg (Outcome.result <$> ·) (agree_of_load hload)
  by_cases hstatic : P.group.acceptable (staticLevel flag) k.peerStaticKey = false
  · obtain ⟨why, hwhy⟩ := Group.exists_reject_of_not_acceptable hstatic
    rw [if_pos hstatic, hresult, Parameters.examine_of_static_rejected hwhy]
    rfl
  obtain ⟨b, hb⟩ := Group.exists_accept_of_acceptable (eq_true_of_ne_false hstatic)
  rw [if_neg hstatic]
  by_cases hephemeral : P.group.acceptable 3 k.peerEphemeralKey = false
  · obtain ⟨why, hwhy⟩ := Group.exists_reject_of_not_acceptable hephemeral
    rw [if_pos hephemeral, hresult, Parameters.examine_of_ephemeral_rejected hb hwhy]
    rfl
  obtain ⟨y, hy⟩ := Group.exists_accept_of_acceptable (eq_true_of_ne_false hephemeral)
  rw [if_neg hephemeral, hresult, Parameters.examine_of_accepted hb hy]
  by_cases hshort : P.suite.digestSize < P.suite.challengeWidth
  · rw [if_pos hshort, Parameters.openSession_of_short _ _ _ _ hshort]
    exact ⟨rfl, rfl⟩
  rw [if_neg hshort]
  have hopen : P.openSession S.role k b y = .ok (P.sessionOf S.role k own b y) :=
    Parameters.openSession_eq_ok.mpr ⟨Nat.le_of_not_lt hshort, own, hown, rfl⟩
  have hb' := Group.reduced_of_decode (Group.accept_eq_ok.mp hb).1
  have hy' := Group.reduced_of_decode (Group.accept_eq_ok.mp hy).1
  obtain ⟨value, hlength, hvalue⟩ := Parameters.exists_agreedValue S.role k own hb' hy'
  refine ⟨value, hlength, ?_⟩
  rw [hopen]
  change Outcome.result <$> (Outcome.agreed <$> (P.sessionOf S.role k own b y).agreedValue) = _
  rw [hvalue]
  rfl

/-- Keys that fit the parameters are loaded: the public key of an exponent always has an
encoding. -/
theorem exists_load {b y : Octets} {static : Int} {k : EphemeralKey}
    (hbase : S.params.group.FieldBase) (hB : B.octets? = some b) (hY : Y.octets? = some y)
    (ha : S.params.staticExponent a = .ok static) (hx : S.params.ephemeralKey x = .ok k) :
    ∃ A, S.load a x B Y = .ok ⟨static, k, A, b, y⟩ := by
  have hq := (Parameters.isExponent_of_staticExponent ha).order_pos
  obtain ⟨A, hA⟩ := (hbase.reduced.basePower hq static).exists_encode
  exact ⟨A, load_eq_ok.mpr ⟨hB, hY, ha, hx, hA⟩⟩

/-- How a run ends on arguments of any kind: the first of these that applies. -/
theorem result_of_agree (S : Party) (hbase : S.params.group.FieldBase) (a : Value) {x : Value}
    (hx : x.IsEphemeralKey) (B Y : Value) (flag : Bool) :
    let P := S.params
    let q := P.group.subgroupOrder
    let width := octetWidth q
    let elementWidth := match P.group with
      | .residue G => octetWidth G.modulus
      | .curve G => 1 + octetWidth G.curve.modulus
    let packedWidth := width + elementWidth
    let challengeWidth := ((bitWidth q + 1) / 2 + 7) / 8
    let inRange : Octets → Bool := fun b => 1 ≤ (b.value : Int) ∧ b.value < q
    let result := Outcome.result <$> S.agree a x B Y flag
    if B.isOctets = false then Refuses result .typeError (.peerKeyNotOctets B.kind)
    else if Y.isOctets = false then Refuses result .typeError (.peerKeyNotOctets Y.kind)
    else if a.satisfies (·.length = width) = false then
      Refuses result .valueError (.privateKeyLength width)
    else if a.satisfies inRange = false then Refuses result .valueError .privateKeyRange
    else if P.isForeign x = true then Refuses result .wrongGroup .foreignEphemeral
    else if x.satisfies (·.length ≠ packedWidth) = true then
      Refuses result .valueError (.packedLength packedWidth)
    else if x.satisfies (fun b => !inRange (b.take width)) = true then
      Refuses result .valueError .privateKeyRange
    else if B.satisfies (P.group.acceptable (if flag then 3 else 1)) = false then
      result = .ok ⟨false, none⟩
    else if Y.satisfies (P.group.acceptable 3) = false then result = .ok ⟨false, none⟩
    else if P.hash.digestSize < challengeWidth then
      Refuses result .valueError (.digestTooShort challengeWidth P.hash.digestSize)
    else ∃ value, value.length = P.hash.digestSize ∧ result = .ok ⟨true, some value⟩ := by
  intro P q width elementWidth packedWidth challengeWidth inRange result
  have hpackedWidth : P.ephemeralPrivateWidth = packedWidth := by
    unfold packedWidth elementWidth Parameters.ephemeralPrivateWidth Parameters.staticPublicWidth
    cases P.group <;> rfl
  rw [← hpackedWidth]
  have hfault {kind : FaultKind} {f : Fault} (h : S.load a x B Y = .error f)
      (hkind : f.kind = kind) : Refuses result kind f :=
    ⟨congrArg (Outcome.result <$> ·) (agree_of_load_error h), hkind⟩
  by_cases hB : B.isOctets = false
  · rw [if_pos hB]
    exact hfault (load_of_static_not_octets (Value.isOctets_eq_false.mp hB)) rfl
  rw [if_neg hB]
  obtain ⟨b, hB⟩ := Value.exists_octets hB
  by_cases hY : Y.isOctets = false
  · rw [if_pos hY]
    exact hfault (load_of_ephemeral_not_octets hB (Value.isOctets_eq_false.mp hY)) rfl
  rw [if_neg hY]
  obtain ⟨y, hY⟩ := Value.exists_octets hY
  -- What loading does from here on depends on the own keys alone, and what follows it on the
  -- loaded keys.
  by_cases hlength : a.satisfies (·.length = width) = false
  · rw [if_pos hlength]
    have ha := Parameters.staticExponent_of_length_ne hlength
    exact hfault (load_of_static_error hB hY ha) rfl
  rw [if_neg hlength]
  by_cases hrange : a.satisfies inRange = false
  · rw [if_pos hrange]
    have ha := Parameters.staticExponent_of_not_inRange (eq_true_of_ne_false hlength) hrange
    exact hfault (load_of_static_error hB hY ha) rfl
  rw [if_neg hrange]
  obtain ⟨static, ha⟩ :=
    Parameters.exists_staticExponent (eq_true_of_ne_false hlength) (eq_true_of_ne_false hrange)
  by_cases hforeign : P.isForeign x = true
  · rw [if_pos hforeign]
    have hx := Parameters.ephemeralKey_of_foreign hforeign
    exact hfault (load_of_ephemeral_error hB hY ha hx) rfl
  rw [if_neg hforeign]
  by_cases hpacked : x.satisfies (·.length ≠ P.ephemeralPrivateWidth) = true
  · rw [if_pos hpacked]
    have hx := Parameters.ephemeralKey_of_length_ne hpacked
    exact hfault (load_of_ephemeral_error hB hY ha hx) rfl
  rw [if_neg hpacked]
  by_cases hpart : x.satisfies (fun b => !inRange (b.take width)) = true
  · rw [if_pos hpart]
    have hx := Parameters.ephemeralKey_of_not_inRange (eq_false_of_ne_true hpacked) hpart
    exact hfault (load_of_ephemeral_error hB hY ha hx) rfl
  rw [if_neg hpart]
  obtain ⟨k, own, hk, hown⟩ := Parameters.exists_ephemeralKey hx (eq_false_of_ne_true hforeign)
    (eq_false_of_ne_true hpacked) (eq_false_of_ne_true hpart)
  obtain ⟨A, hloaded⟩ := exists_load hbase hB hY ha hk
  rw [Value.satisfies_of_some hB, Value.satisfies_of_some hY]
  exact result_of_load hloaded hown

end Party

/-- Packed keys and peer keys of the group of squares modulo 23 are taken. -/
theorem residues23_result_of_agree : (Value.octets [5, 9]).IsEphemeralKey ∧
    ∃ value, value.length = 32 ∧
      Outcome.result <$> (Party.mk 0 .responder .residues23).agree (.octets [3]) (.octets [5, 9])
        (.octets [13]) (.buffer [16]) true = .ok ⟨true, some value⟩ := by
  have hx : (Value.octets [5, 9]).IsEphemeralKey := rfl
  have h := Party.result_of_agree (Party.mk 0 .responder .residues23) trivial (.octets [3]) hx
    (.octets [13]) (.buffer [16]) true
  dsimp only at h
  rw [if_neg (by decide), if_neg (by decide), if_neg (by decide), if_neg (by decide +kernel),
    if_neg (by decide), if_neg (by decide), if_neg (by decide +kernel), if_neg (by decide +kernel),
    if_neg (by decide +kernel), if_neg (by decide +kernel)] at h
  exact ⟨hx, h⟩

end KeyAgreement
