import KeyAgreement.Proofs.Endings
import KeyAgreement.Proofs.ResidueClosure

/-! What a run takes from a peer whose static key it does not validate in full. -/
namespace KeyAgreement
open Success

namespace ResidueGroup
variable {G : ResidueGroup}

theorem Nonzero.encode_iff_decode {v : Int} (hv : G.Nonzero v) {b : Octets} :
    G.encode v = .ok b ↔ G.decode b = .ok v := by
  rw [decode_eq_ok_iff_octets, hv.encode_eq, Except.ok.injEq, eq_comm]
  exact (and_iff_right hv).symm

/-- The octets encode a residue other than zero and one that the subgroup does not hold. -/
def EncodesOutsider (G : ResidueGroup) (b : Octets) : Prop :=
  ∃ v : Int, G.encode v = .ok b ∧ 2 ≤ v ∧ v < G.modulus ∧ v ^ G.subgroupOrder.toNat % G.modulus ≠ 1

end ResidueGroup

namespace Group
variable {G : Group}

/-- Higher levels ask for more. -/
theorem validate_of_le {level level' : Int} (hle : level ≤ level') {e : G.Carrier}
    (h : G.validate level' e = true) : G.validate level e = true := by
  have hlower {n : Int} (hn : level' < n) : level < n := hle.trans_lt hn
  cases G with
  | residue G =>
    simp only [validate, ResidueGroup.validate, Bool.and_eq_true, Bool.or_eq_true,
      decide_eq_true_eq] at h ⊢
    obtain ⟨⟨hrange, hone⟩, hsubgroup⟩ := h
    exact ⟨⟨hrange, hone.imp_left hlower⟩, hsubgroup.imp_left hlower⟩
  | curve G =>
    cases e with
    | infinity => cases h
    | affine x y =>
      simp only [validate, CurveGroup.validate, Bool.and_eq_true, Bool.or_eq_true,
        decide_eq_true_eq] at h ⊢
      obtain ⟨hcurve, hsubgroup⟩ := h
      exact ⟨hcurve.imp_left hlower, hsubgroup.imp_left hlower⟩

theorem accept_of_le {level level' : Int} (hle : level ≤ level') {b : Octets} {e : G.Carrier}
    (h : G.accept level' b = .ok e) : G.accept level b = .ok e := by
  obtain ⟨hdecode, hvalid⟩ := accept_eq_ok.mp h
  exact accept_eq_ok.mpr ⟨hdecode, validate_of_le hle hvalid⟩

theorem acceptable_iff {level : Int} {b : Octets} :
    G.acceptable level b = true ↔ ∃ e, G.decode b = .ok e ∧ G.validate level e = true := by
  unfold acceptable
  rcases G.decode b with why | e <;> simp

theorem acceptable_of_le {level level' : Int} (hle : level ≤ level') {b : Octets}
    (h : G.acceptable level' b = true) : G.acceptable level b = true := by
  obtain ⟨e, hdecode, hvalid⟩ := acceptable_iff.mp h
  exact acceptable_iff.mpr ⟨e, hdecode, validate_of_le hle hvalid⟩

end Group

namespace ResidueGroup
variable {G : ResidueGroup} {b : Octets}

theorem acceptable_iff {level : Int} : (Group.residue G).acceptable level b = true ↔
    ∃ v : Int, G.decode b = .ok v ∧ G.validate level v = true :=
  Group.acceptable_iff

/-- Relaxed validation takes more than full validation does, and what it takes in addition are
outsiders. -/
theorem encodesOutsider_iff (hq : 0 < G.subgroupOrder) : G.EncodesOutsider b ↔
    (Group.residue G).acceptable 1 b = true ∧ (Group.residue G).acceptable 3 b = false := by
  have hpower (v : Int) : G.pow v G.subgroupOrder.toNat = v ^ G.subgroupOrder.toNat % G.modulus :=
    Modular.power_eq ..
  rw [← Bool.not_eq_true, acceptable_iff, acceptable_iff]
  simp only [G.validate_iff hq, hpower]
  constructor
  · rintro ⟨v, hencode, hlow, hhigh, hpow⟩
    have hnonzero : G.Nonzero v := ⟨by omega, by omega⟩
    have hdecode := hnonzero.encode_iff_decode.mp hencode
    refine ⟨⟨v, hdecode, ⟨by omega, hhigh⟩, fun _ => by omega,
      fun hlevel => absurd hlevel (by decide)⟩, ?_⟩
    rintro ⟨w, hw, -, -, hsubgroup⟩
    obtain rfl : v = w := Except.ok.inj (hdecode.symm.trans hw)
    exact hpow (hsubgroup (by decide))
  · rintro ⟨⟨v, hdecode, ⟨hlow, hhigh⟩, hone, -⟩, hnot⟩
    have hone := hone le_rfl
    have hnonzero : G.Nonzero v := ⟨by omega, by omega⟩
    refine ⟨v, hnonzero.encode_iff_decode.mpr hdecode, by omega, hhigh, fun hpow => ?_⟩
    exact hnot ⟨v, hdecode, ⟨hlow, hhigh⟩, fun _ => hone, fun _ => hpow⟩

end ResidueGroup

namespace Parameters

/-- Own keys that a run takes: a static private key with an exponent in range, and an ephemeral one
that is a pair of the same parameters or is packed with an exponent in range. -/
structure FitKeys (P : Parameters) (a x : Value) : Prop where
  staticLength : a.satisfies (·.length = P.staticPrivateWidth) = true
  staticRange : a.satisfies P.inRange = true
  ephemeral : x.IsEphemeralKey
  own : P.isForeign x = false
  packedLength : x.satisfies (·.length ≠ P.ephemeralPrivateWidth) = false
  packedRange : x.satisfies (fun b => !P.inRange (b.take P.staticPrivateWidth)) = false

theorem FitKeys.order_pos {P : Parameters} {a x : Value} (h : P.FitKeys a x) :
    0 < P.group.subgroupOrder := by
  obtain ⟨static, ha⟩ := exists_staticExponent h.staticLength h.staticRange
  exact (isExponent_of_staticExponent ha).order_pos

end Parameters

namespace Party
variable {S : Party} {a x B Y : Value} {b y : Octets}

theorem exists_load_of_fitKeys (hbase : S.params.group.FieldBase) (hkeys : S.params.FitKeys a x)
    (hB : B.octets? = some b) (hY : Y.octets? = some y) : ∃ k own, S.load a x B Y = .ok k ∧
      k.peerStaticKey = b ∧ k.peerEphemeralKey = y ∧ k.ephemeral.publicKey.octets? = some own := by
  obtain ⟨static, ha⟩ := Parameters.exists_staticExponent hkeys.staticLength hkeys.staticRange
  obtain ⟨e, own, hx, hown⟩ :=
    Parameters.exists_ephemeralKey hkeys.ephemeral hkeys.own hkeys.packedLength hkeys.packedRange
  obtain ⟨A, hload⟩ := exists_load hbase hB hY ha hx
  exact ⟨_, own, hload, rfl, rfl, hown⟩

/-- With a static key that passes in full, a run does not depend on how it is validated. -/
theorem agree_relaxed_eq_full {k : LoadedKeys} (hload : S.load a x B Y = .ok k)
    {e : S.params.group.Carrier} (h : S.params.group.accept 3 k.peerStaticKey = .ok e) :
    S.agree a x B Y false = S.agree a x B Y true := by
  have hrelaxed : S.params.group.accept 1 k.peerStaticKey = .ok e :=
    Group.accept_of_le (by decide) h
  have hexamine : S.params.examine S.role k false = S.params.examine S.role k true := by
    unfold Parameters.examine
    rw [staticLevel, staticLevel, if_neg Bool.false_ne_true, if_pos rfl, hrelaxed, h]
  rw [agree_of_load hload, agree_of_load hload, hexamine]

/-- The run ends without an agreed value, and its caller is told no more. -/
def Fails (S : Party) (a x B Y : Value) (flag : Bool) : Prop :=
  Outcome.result <$> S.agree a x B Y flag = .ok .failed

section Loaded
variable {k : LoadedKeys} {own : Octets} {flag : Bool} (hload : S.load a x B Y = .ok k)
  (hown : k.ephemeral.publicKey.octets? = some own)
include hload hown

/-- Once the keys are loaded, a run fails if one of the peer's keys is not acceptable. -/
theorem fails_iff : S.Fails a x B Y flag ↔
    S.params.group.acceptable (staticLevel flag) k.peerStaticKey = false ∨
    S.params.group.acceptable 3 k.peerEphemeralKey = false := by
  have hresult := @result_of_load S a x B Y flag k own hload hown
  unfold Fails
  dsimp only at hresult
  split_ifs at hresult with hstatic hephemeral hshort
  · simp only [hresult, hstatic, true_or]
  · simp only [hresult, hephemeral, or_true]
  · obtain ⟨hfault, -⟩ := hresult
    simp [hfault, hstatic, hephemeral]
  · obtain ⟨value, -, hvalue⟩ := hresult
    simp [hvalue, hstatic, hephemeral, Verdict.failed]

/-- It agrees on a value if both are, and if the digest is as long as a challenge. -/
theorem agreed_iff : (∃ u, S.agree a x B Y flag = .ok (.agreed u)) ↔
    S.params.suite.challengeWidth ≤ S.params.suite.digestSize ∧
    S.params.group.acceptable (staticLevel flag) k.peerStaticKey = true ∧
    S.params.group.acceptable 3 k.peerEphemeralKey = true := by
  have hresult := @result_of_load S a x B Y flag k own hload hown
  dsimp only at hresult
  constructor
  · rintro ⟨u, hu⟩
    rw [hu] at hresult
    split_ifs at hresult with hstatic hephemeral hshort
    · cases hresult
    · cases hresult
    · cases hresult.1
    · exact ⟨Nat.le_of_not_lt hshort, eq_true_of_ne_false hstatic, eq_true_of_ne_false hephemeral⟩
  · rintro ⟨hlong, hstatic, hephemeral⟩
    rw [if_neg (by simp [hstatic]), if_neg (by simp [hephemeral]), if_neg hlong.not_gt] at hresult
    obtain ⟨u, -, hu⟩ := hresult
    exact ⟨u, result_eq_agreed.mp hu⟩

end Loaded

/-- Relaxed validation differs from full validation on static keys outside of the subgroup, and on
no others: there it takes what full validation refuses, if nothing else stands in the way. Both
hold the ephemeral key to the full test. -/
theorem relaxed_validation_exact (S : Party) {G : ResidueGroup} (hG : S.params.group = .residue G)
    {a x : Value} (hkeys : S.params.FitKeys a x) {B Y : Value} {b y : Octets}
    (hB : B.octets? = some b) (hY : Y.octets? = some y) :
    (∀ u, S.agree a x B Y true = .ok (.agreed u) → S.agree a x B Y false = .ok (.agreed u)) ∧
    (S.Fails a x B Y false → S.Fails a x B Y true) ∧
    ((∃ u, S.agree a x B Y false = .ok (.agreed u)) ∧ S.Fails a x B Y true ↔
      S.params.suite.challengeWidth ≤ S.params.suite.digestSize ∧
        S.params.group.acceptable 3 y = true ∧
      G.EncodesOutsider b) ∧
    (¬ G.EncodesOutsider b →
      Outcome.result <$> S.agree a x B Y false = Outcome.result <$> S.agree a x B Y true) ∧
    (S.params.group.acceptable 3 y = false → ∀ flag, S.Fails a x B Y flag) := by
  have hq : 0 < G.subgroupOrder := by
    have hpos := hkeys.order_pos
    rwa [hG] at hpos
  have hbase : S.params.group.FieldBase := by
    rw [hG]
    trivial
  have houtsider : G.EncodesOutsider b ↔
      S.params.group.acceptable 1 b = true ∧ S.params.group.acceptable 3 b = false := by
    rw [hG]
    exact ResidueGroup.encodesOutsider_iff hq
  obtain ⟨k, own, hload, rfl, rfl, hown⟩ := exists_load_of_fitKeys hbase hkeys hB hY
  have hfails (flag : Bool) : S.Fails a x B Y flag ↔ _ := fails_iff hload hown
  have hagreed (flag : Bool) : (∃ u, S.agree a x B Y flag = .ok (.agreed u)) ↔ _ :=
    agreed_iff hload hown
  have hsame (h : S.params.group.acceptable 3 k.peerStaticKey = true) :
      S.agree a x B Y false = S.agree a x B Y true := by
    obtain ⟨e, he⟩ := Group.exists_accept_of_acceptable h
    exact agree_relaxed_eq_full hload he
  refine ⟨?_, ?_, ?_, ?_, ?_⟩
  · intro u hu
    obtain ⟨-, hstatic, -⟩ := (hagreed true).mp ⟨u, hu⟩
    rwa [hsame hstatic]
  · intro hrelaxed
    refine (hfails true).mpr (((hfails false).mp hrelaxed).imp_left fun hstatic => ?_)
    rw [← Bool.not_eq_true] at hstatic ⊢
    exact fun hfull => hstatic (Group.acceptable_of_le (by decide) hfull)
  · rw [hagreed, hfails, houtsider]
    constructor
    · rintro ⟨⟨hlong, hrelaxed, hephemeral⟩, hfull | hrejected⟩
      · exact ⟨hlong, hephemeral, hrelaxed, hfull⟩
      · exact absurd hephemeral (by simp [hrejected])
    · rintro ⟨hlong, hephemeral, hrelaxed, hfull⟩
      exact ⟨⟨hlong, hrelaxed, hephemeral⟩, .inl hfull⟩
  · intro hnot
    by_cases hfull : S.params.group.acceptable 3 k.peerStaticKey = true
    · rw [hsame hfull]
    rw [Bool.not_eq_true] at hfull
    have hrelaxed : S.params.group.acceptable 1 k.peerStaticKey = false :=
      eq_false_of_ne_true fun h => hnot (houtsider.mpr ⟨h, hfull⟩)
    exact ((hfails false).mpr (.inl hrelaxed)).trans ((hfails true).mpr (.inl hfull)).symm
  · intro hephemeral flag
    exact (hfails flag).mpr (.inr hephemeral)

/-- The residue 5 is no square modulo 23. As a static key it is taken by the relaxed run alone, and
as an ephemeral key by neither run. -/
theorem residues23_relaxed_validation_exact :
    let S : Party := ⟨0, .initiator, .residues23⟩
    S.params.FitKeys (.octets [3]) (.octets [5, 9]) ∧
    (∃ u, S.agree (.octets [3]) (.octets [5, 9]) (.octets [13]) (.octets [16]) true =
      .ok (.agreed u) ∧
      S.agree (.octets [3]) (.octets [5, 9]) (.octets [13]) (.octets [16]) false =
        .ok (.agreed u)) ∧
    (∃ u, S.agree (.octets [3]) (.octets [5, 9]) (.octets [5]) (.octets [16]) false =
      .ok (.agreed u)) ∧
    S.Fails (.octets [3]) (.octets [5, 9]) (.octets [5]) (.octets [16]) true ∧
    ∀ flag, S.Fails (.octets [3]) (.octets [5, 9]) (.octets [5]) (.octets [5]) flag := by
  intro S
  have hkeys : S.params.FitKeys (.octets [3]) (.octets [5, 9]) :=
    ⟨by decide, by decide, rfl, rfl, by decide, by decide⟩
  have hfull : ∃ u, S.agree (.octets [3]) (.octets [5, 9]) (.octets [13]) (.octets [16]) true =
      .ok (.agreed u) := ⟨Hash.sha256 [13, 9, 16, 8, 13], by decide +kernel⟩
  obtain ⟨u, hu⟩ := hfull
  obtain ⟨hsame, -⟩ :=
    relaxed_validation_exact S rfl hkeys (Value.octets?_octets [13]) (Value.octets?_octets [16])
  obtain ⟨-, -, hpart, -⟩ :=
    relaxed_validation_exact S rfl hkeys (Value.octets?_octets [5]) (Value.octets?_octets [16])
  obtain ⟨-, -, -, -, hneither⟩ :=
    relaxed_validation_exact S rfl hkeys (Value.octets?_octets [5]) (Value.octets?_octets [5])
  have houtsider : residues23.EncodesOutsider [5] := ⟨5, by decide, by decide, by decide, by decide⟩
  obtain ⟨hrelaxed, hrefused⟩ := hpart.mpr ⟨by decide +kernel, by decide +kernel, houtsider⟩
  exact ⟨hkeys, ⟨u, hu, hsame u hu⟩, hrelaxed, hrefused, hneither (by decide +kernel)⟩

end Party
end KeyAgreement
