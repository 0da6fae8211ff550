import KeyAgreement.Agreement
import KeyAgreement.Proofs.RelaxedValidation

/-! What a run tells its caller and its log beside the agreed value does not depend on the own
secrets. -/
namespace KeyAgreement
open Success
variable {P : Parameters}

namespace Outcome
variable {why : Rejection}

theorem logRecord_static :
    logRecord .static why = "rejecting static public key: " ++ why.message := by
  have hstart :
      "rejecting static public key: " = "rejecting " ++ "static" ++ " public key: " := by decide
  rw [hstart]
  rfl

theorem logRecord_ephemeral :
    logRecord .ephemeral why = "rejecting ephemeral public key: " ++ why.message := by
  have hstart :
      "rejecting ephemeral public key: " = "rejecting " ++ "ephemeral" ++ " public key: " := by
    decide
  rw [hstart]
  rfl

end Outcome

namespace Group
variable {G : Group} {level : Int} {b : Octets} {why : Rejection}

/-- Why octets are refused at a level, in the words of the log: they encode no element, or one that
fails the test. -/
def refusalReason (G : Group) (level : Int) (b : Octets) : String :=
  match G.decode b with
  | .error why => why.message
  | .ok _ => s!"failed level {level} validation"

theorem message_of_accept (h : G.accept level b = .error why) :
    why.message = G.refusalReason level b := by
  unfold accept at h
  unfold refusalReason
  rcases hb : G.decode b with why' | e
  · rw [hb] at h
    cases h
    rfl
  · simp only [hb] at h
    split at h
    · cases h
    · cases h
      rfl

end Group

namespace Parameters

theorem run_decodeLogged (level : Int) (key : PeerKey) (b : Octets) (log : List String) :
    (P.decodeLogged level key b).run.run log =
      match P.group.accept level b with
      | .ok e => (.ok (some e), log)
      | .error why => (.ok none, log ++ [Outcome.logRecord key why]) := by
  unfold decodeLogged Group.accept
  rcases P.group.decode b with why | e
  · rfl
  · by_cases hvalid : P.group.validate level e = true
    · simp only [hvalid, if_true]
      rfl
    · simp only [hvalid]
      rfl

/-- Why a run refuses the peer's keys, if it does. -/
def refusal (P : Parameters) (flag : Bool) (b y : Octets) : Option (PeerKey × Rejection) :=
  match P.group.accept (staticLevel flag) b, P.group.accept 3 y with
  | .error why, _ => some (.static, why)
  | .ok _, .error why => some (.ephemeral, why)
  | .ok _, .ok _ => none

theorem acceptable_eq_isOk (level : Int) (b : Octets) :
    P.group.acceptable level b = (P.group.accept level b).isOk := by
  unfold Group.acceptable Group.accept
  rcases P.group.decode b with why | e
  · rfl
  · by_cases hvalid : P.group.validate level e = true
    · simp only [hvalid, if_true]
      rfl
    · simp only [hvalid]
      rfl

/-- Both keys have to be acceptable: the static one at the level that is asked for, the ephemeral
one in full. -/
theorem refusal_eq_none_iff {flag : Bool} {b y : Octets} : P.refusal flag b y = none ↔
    P.group.acceptable (if flag then 3 else 1) b = true ∧ P.group.acceptable 3 y = true := by
  unfold refusal
  rw [acceptable_eq_isOk, acceptable_eq_isOk, ← staticLevel]
  rcases P.group.accept (staticLevel flag) b with why | e
  · simp [Except.isOk, Except.toBool]
  · rcases P.group.accept 3 y with why | e'
    · simp [Except.isOk, Except.toBool]
    · simp [Except.isOk, Except.toBool]

/-- The record names the static key whenever it is not acceptable, whatever the ephemeral key is. -/
theorem logRecord_of_refusal {flag : Bool} {b y : Octets} {key : PeerKey} {why : Rejection}
    (h : P.refusal flag b y = some (key, why)) : Outcome.logRecord key why =
      if P.group.acceptable (if flag then 3 else 1) b then
        "rejecting ephemeral public key: " ++ P.group.refusalReason 3 y
      else "rejecting static public key: " ++ P.group.refusalReason (if flag then 3 else 1) b := by
  rw [acceptable_eq_isOk, ← staticLevel]
  unfold refusal at h
  rcases hstatic : P.group.accept (staticLevel flag) b with why' | e
  · rw [hstatic] at h
    cases h
    exact Group.message_of_accept hstatic ▸ Outcome.logRecord_static
  rcases hephemeral : P.group.accept 3 y with why' | e'
  · rw [hstatic, hephemeral] at h
    cases h
    exact Group.message_of_accept hephemeral ▸ Outcome.logRecord_ephemeral
  · rw [hstatic, hephemeral] at h
    cases h

/-- Own keys that a run loads without a fault; of an ephemeral pair the public half has to consist
of octets. -/
structure Loads (P : Parameters) (a x : Value) : Prop where
  static : ∃ i, P.staticExponent a = .ok i
  ephemeral : ∃ k, P.ephemeralKey x = .ok k
  pair : ∀ k, x = .ephemeral k → k.publicKey.octets?.isSome

/-- The public half of a packed key consists of octets anyway. -/
theorem Loads.exists_own {a x : Value} (h : P.Loads a x) :
    ∃ k own, P.ephemeralKey x = .ok k ∧ k.publicKey.octets? = some own := by
  obtain ⟨k, hk⟩ := h.ephemeral
  suffices hown : k.publicKey.octets?.isSome by
    obtain ⟨own, hown⟩ := Option.isSome_iff_exists.mp hown
    exact ⟨k, own, hk, hown⟩
  rcases ephemeralKey_cases hk with rfl | ⟨-, hpublic⟩
  · exact h.pair k rfl
  · cases x with
    | ephemeral k' =>
      have hsame : k'.publicKey = k.publicKey := Except.ok.inj hpublic
      rw [← hsame]
      exact h.pair k' rfl
    | _ =>
      simp only [ephemeralPublic, bind_eq_ok, pure_eq_ok] at hpublic
      obtain ⟨_, -, _, -, _, -, hoctets⟩ := hpublic
      rw [← hoctets]
      rfl

end Parameters

namespace Party
variable {S T : Party} {a x B Y a' x' B' Y' : Value} {flag : Bool} {b y : Octets}

/-- What a run writes to the log. A fault is not logged. -/
def records : Except Fault Outcome → List String
  | .ok outcome => outcome.log
  | .error _ => []

/-- With its log a run ends as without it. -/
theorem run_agreeLogged (log : List String) : (S.agreeLogged a x B Y flag).run.run log =
    (Outcome.result <$> S.agree a x B Y flag, log ++ records (S.agree a x B Y flag)) := by
  unfold agreeLogged
  rw [run_bind, run_lift]
  rcases hload : S.load a x B Y with f | k
  · rw [agree_of_load_error hload]
    simp [records]
  rw [agree_of_load hload]
  simp only [run_bind, Parameters.run_decodeLogged, Parameters.examine]
  rcases S.params.group.accept (staticLevel flag) k.peerStaticKey with why | peerStatic
  · rfl
  simp only [run_bind, Parameters.run_decodeLogged]
  rcases S.params.group.accept 3 k.peerEphemeralKey with why | peerEphemeral
  · rfl
  simp only [run_bind, run_lift]
  rcases S.params.openSession S.role k peerStatic peerEphemeral with f | s
  · have hend : (Admission.opened (P := S.params) <$> Except.error f >>= Admission.outcome) =
        .error f := rfl
    rw [hend]
    simp [records]
  have hend :
      (Admission.opened <$> Except.ok s >>= Admission.outcome) = Outcome.agreed <$> s.agreedValue :=
    rfl
  rw [hend]
  dsimp only
  rcases s.agreedValue with f | value
  · simp [records]
  · simp [records, Outcome.log]
    rfl

/-- What stops a run once its keys are loaded is a refusal, or a digest that is too short for the
challenges. -/
theorem outcome_of_load {k : LoadedKeys} {own : Octets} (hload : S.load a x B Y = .ok k)
    (hown : k.ephemeral.publicKey.octets? = some own) :
    let P := S.params
    match P.refusal flag k.peerStaticKey k.peerEphemeralKey with
    | some (key, why) => S.agree a x B Y flag = .ok (.rejected key why)
    | none =>
      if P.suite.digestSize < P.suite.challengeWidth then
        S.agree a x B Y flag = .error (.digestTooShort P.suite.challengeWidth P.suite.digestSize)
      else ∃ u, S.agree a x B Y flag = .ok (.agreed u) := by
  intro P
  have hagree : S.agree a x B Y flag = P.examine S.role k flag >>= Admission.outcome :=
    agree_of_load hload
  unfold Parameters.refusal
  rcases hb : P.group.accept (staticLevel flag) k.peerStaticKey with why | b
  · rw [hagree, Parameters.examine_of_static_rejected hb]
    rfl
  rcases hy : P.group.accept 3 k.peerEphemeralKey with why | y
  · rw [hagree, Parameters.examine_of_ephemeral_rejected hb hy]
    rfl
  dsimp only
  by_cases hshort : P.suite.digestSize < P.suite.challengeWidth
  · rw [if_pos hshort, hagree, Parameters.examine_of_accepted hb hy,
      Parameters.openSession_of_short _ _ _ _ hshort]
    rfl
  · rw [if_neg hshort]
    have hstatic := Group.acceptable_iff.mpr ⟨b, Group.accept_eq_ok.mp hb⟩
    have hephemeral := Group.acceptable_iff.mpr ⟨y, Group.accept_eq_ok.mp hy⟩
    exact (agreed_iff hload hown).mpr ⟨Nat.le_of_not_lt hshort, hstatic, hephemeral⟩

/-- Whatever was logged before, the run ends with the result for its caller and adds these
records. -/
def Ends (S : Party) (a x B Y : Value) (flag : Bool) (result : Except Fault Verdict)
    (records : List String) : Prop :=
  ∀ log, (S.agreeLogged a x B Y flag).run.run log = (result, log ++ records)

theorem ends_of_agree {outcome : Except Fault Outcome} (h : S.agree a x B Y flag = outcome) :
    S.Ends a x B Y flag (Outcome.result <$> outcome) (records outcome) := by
  intro log
  rw [run_agreeLogged, h]

/-- The parameters and the peer's keys say how a run ends, but for the value that is agreed on. -/
theorem ends_of_loads (hbase : P.group.FieldBase) (hS : S.params = P) (hkeys : P.Loads a x)
    (hB : B.octets? = some b) (hY : Y.octets? = some y) :
    match P.refusal flag b y with
    | some (key, why) => S.Ends a x B Y flag (.ok .failed) [Outcome.logRecord key why]
    | none =>
      if P.suite.digestSize < P.suite.challengeWidth then
        S.Ends a x B Y flag (.error (.digestTooShort P.suite.challengeWidth P.suite.digestSize)) []
      else ∃ u, S.Ends a x B Y flag (.ok ⟨true, some u⟩) [] := by
  subst hS
  obtain ⟨i, ha⟩ := hkeys.static
  obtain ⟨k, own, hk, hown⟩ := hkeys.exists_own
  obtain ⟨A, hload⟩ := exists_load hbase hB hY ha hk
  have houtcome := @outcome_of_load S a x B Y flag _ own hload hown
  dsimp only at houtcome
  rcases hrefusal : S.params.refusal flag b y with _ | ⟨key, why⟩
  · rw [hrefusal] at houtcome
    dsimp only at houtcome ⊢
    split_ifs at houtcome ⊢
    · exact ends_of_agree houtcome
    · obtain ⟨u, hu⟩ := houtcome
      exact ⟨u, ends_of_agree hu⟩
  · rw [hrefusal] at houtcome
    exact ends_of_agree houtcome

/-- Two runs with the same keys of the peer under the same parameters may differ in their own keys
and in their roles. Either both agree on a value, or both fail, or both meet a digest that is too
short, and nothing that is the runs' own decides which; and both log the same: one record if they
fail, which names the static key whenever that is not acceptable, and nothing otherwise. -/
theorem own_secrets_unobservable (hbase : P.group.FieldBase) (hS : S.params = P)
    (hT : T.params = P) (hkeys : P.Loads a x) (hkeys' : P.Loads a' x') (hB : B.octets? = some b)
    (hY : Y.octets? = some y) (hB' : B'.octets? = some b) (hY' : Y'.octets? = some y)
    (flag : Bool) :
    let level : Int := if flag then 3 else 1
    let admitted : Prop := P.group.acceptable level b = true ∧ P.group.acceptable 3 y = true
    let challengeWidth := ((bitWidth P.group.subgroupOrder + 1) / 2 + 7) / 8
    let tooShort : Fault := .digestTooShort challengeWidth P.hash.digestSize
    let record : String :=
      if P.group.acceptable level b then
        "rejecting ephemeral public key: " ++ P.group.refusalReason 3 y
      else "rejecting static public key: " ++ P.group.refusalReason level b
    (admitted ∧ challengeWidth ≤ P.hash.digestSize ∧ ∃ u u',
      S.Ends a x B Y flag (.ok ⟨true, some u⟩) [] ∧
        T.Ends a' x' B' Y' flag (.ok ⟨true, some u'⟩) []) ∨
    (¬ admitted ∧ S.Ends a x B Y flag (.ok ⟨false, none⟩) [record] ∧
      T.Ends a' x' B' Y' flag (.ok ⟨false, none⟩) [record]) ∨
    (admitted ∧ P.hash.digestSize < challengeWidth ∧ tooShort.kind = .valueError ∧
      S.Ends a x B Y flag (.error tooShort) [] ∧ T.Ends a' x' B' Y' flag (.error tooShort) []) := by
  intro level admitted challengeWidth tooShort record
  have h := @ends_of_loads P S a x B Y flag b y hbase hS hkeys hB hY
  have h' := @ends_of_loads P T a' x' B' Y' flag b y hbase hT hkeys' hB' hY'
  have hadmits : P.refusal flag b y = none ↔ admitted := Parameters.refusal_eq_none_iff
  rcases hrefusal : P.refusal flag b y with _ | ⟨key, why⟩
  · rw [hrefusal] at h h' hadmits
    dsimp only at h h'
    split_ifs at h h' with hshort
    · exact .inr (.inr ⟨hadmits.mp rfl, hshort, rfl, h, h'⟩)
    · obtain ⟨u, hu⟩ := h
      obtain ⟨u', hu'⟩ := h'
      exact .inl ⟨hadmits.mp rfl, Nat.le_of_not_lt hshort, u, u', hu, hu'⟩
  · rw [hrefusal] at h h' hadmits
    have hrecord : Outcome.logRecord key why = record := Parameters.logRecord_of_refusal hrefusal
    rw [← hrecord]
    refine .inr (.inl ⟨?_, h, h'⟩)
    intro hadmitted
    cases hadmits.mpr hadmitted

/-- The residue 5 is no square modulo 23. An initiator with packed keys and a responder with a pair
both log that its static key is refused, whatever the ephemeral one is. -/
theorem residues23_own_secrets_unobservable :
    let S : Party := ⟨0, .initiator, .residues23⟩
    let T : Party := ⟨1, .responder, .residues23⟩
    let pair : Value := .ephemeral ⟨.residues23, 7, .octets [13]⟩
    let record := "rejecting static public key: failed level 3 validation"
    Parameters.residues23.group.FieldBase ∧
      Parameters.residues23.Loads (.octets [3]) (.octets [5, 9]) ∧
    Parameters.residues23.Loads (.octets [10]) pair ∧
    S.agree (.octets [3]) (.octets [5, 9]) (.octets [5]) (.octets [0]) true =
      .ok (.rejected .static (.invalid 3)) ∧
    (Outcome.rejected .static (.invalid 3)).log = [record] ∧
    S.Ends (.octets [3]) (.octets [5, 9]) (.octets [5]) (.octets [0]) true (.ok ⟨false, none⟩)
      [record] ∧
    T.Ends (.octets [10]) pair (.buffer [5]) (.octets [0]) true (.ok ⟨false, none⟩) [record] := by
  intro S T pair record
  have hagree : S.agree (.octets [3]) (.octets [5, 9]) (.octets [5]) (.octets [0]) true =
      .ok (.rejected .static (.invalid 3)) := by
    decide +kernel
  have hlog : (Outcome.rejected .static (.invalid 3)).log = [record] := by decide +kernel
  have hkeys : Parameters.residues23.Loads (.octets [3]) (.octets [5, 9]) :=
    ⟨⟨3, by decide⟩, ⟨_, by rfl⟩, nofun⟩
  have hkeys' : Parameters.residues23.Loads (.octets [10]) pair := by
    refine ⟨⟨10, by decide⟩, ⟨_, by rfl⟩, ?_⟩
    intro k hk
    obtain rfl := Value.ephemeral.inj hk
    rfl
  have hbase : Parameters.residues23.group.FieldBase := trivial
  have hS : S.params = .residues23 := rfl
  have hT : T.params = .residues23 := rfl
  have hstatic' : (Value.buffer [5]).octets? = some [5] := rfl
  have h := own_secrets_unobservable hbase hS hT hkeys hkeys' (Value.octets?_octets [5])
    (Value.octets?_octets [0]) hstatic' (Value.octets?_octets [0]) true
  have hrefused : Parameters.residues23.group.acceptable 3 [5] = false := by decide +kernel
  have hreason : Parameters.residues23.group.refusalReason 3 [5] = "failed level 3 validation" := by
    decide +kernel
  simp only [if_true, hrefused, hreason, Bool.false_eq_true, if_false, false_and, false_or,
    not_false_iff, true_and, or_false] at h
  exact ⟨hbase, hkeys, hkeys', hagree, hlog, h⟩

end Party
end KeyAgreement
