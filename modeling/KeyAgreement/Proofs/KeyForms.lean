import KeyAgreement.Proofs.StoredKeys

/-! The forms of an ephemeral key: the pair itself, its packed octets, and the pair that is
restored from its stored form lead every run to the same end. -/
namespace KeyAgreement
open Success

namespace Parameters
variable {P : Parameters} {k : LoadedKeys} {e : EphemeralKey} {X : Octets}

section Congruence
variable (hexponent : k.ephemeral.exponent = e.exponent)
  (hk : k.ephemeral.publicKey.octets? = some X) (he : e.publicKey.octets? = some X)
include hexponent hk he

/-- Of the own pair a session takes the exponent and the octets of the public key, and nothing
else. -/
theorem openSession_congr (role : Role) (b y : P.group.Carrier) :
    P.openSession role k b y = P.openSession role { k with ephemeral := e } b y := by
  cases role <;>
    simp only [openSession, Role.inOrder, Suite.openTranscript, Transcript.ofValues,
      Value.content_eq_ok.mpr hk, Value.content_eq_ok.mpr he, hexponent]

theorem examine_congr (role : Role) (flag : Bool) :
    P.examine role k flag = P.examine role { k with ephemeral := e } flag := by
  unfold examine
  simp only [openSession_congr hexponent hk he]

end Congruence

/-- Under the parameters the value is loaded as a pair with the exponent `x` and the public octets
`X`. -/
def LoadsAs (P : Parameters) (form : Value) (x : Int) (X : Octets) : Prop :=
  ∃ e, P.ephemeralKey form = .ok e ∧ e.exponent = x ∧ e.publicKey.octets? = some X

end Parameters

namespace Party
variable {S : Party} {form form' : Value} {x : Int} {X : Octets}

/-- Forms that are loaded alike end a run alike: with the same fault, or the same outcome and so
the same log. -/
theorem agree_congr (h : S.params.LoadsAs form x X) (h' : S.params.LoadsAs form' x X)
    (a B Y : Value) (flag : Bool) : S.agree a form B Y flag = S.agree a form' B Y flag := by
  obtain ⟨e, hload, rfl, he⟩ := h
  obtain ⟨e', hload', hexponent, he'⟩ := h'
  unfold agree negotiate load
  dsimp only
  rw [hload, hload']
  rcases peerOctets B with f | b
  · rfl
  rcases peerOctets Y with f | y
  · rfl
  rcases S.params.staticExponent a with f | static
  · rfl
  simp only [ok_bind]
  rcases S.params.group.encode (S.params.group.basePower static) with f | A
  · rfl
  have hexamine :=
    Parameters.examine_congr (P := S.params) (k := ⟨static, e, A, b, y⟩) hexponent.symm he he'
    S.role flag
  exact congrArg (· >>= Admission.outcome) hexamine

/-- The value can be handed in for the pair `k` with the public octets `X`: every run ends as it
does with the pair, and the same public octets are read off. -/
structure StandsFor (S : Party) (form : Value) (k : EphemeralKey) (X : Octets) : Prop where
  agree (a B Y : Value) (flag : Bool) : S.agree a form B Y flag = S.agree a (.ephemeral k) B Y flag
  publicKey : ∃ v, S.params.ephemeralPublic form = .ok v ∧ v.octets? = some X

theorem standsFor_of_loadsAs {k : EphemeralKey} (h : S.params.LoadsAs form x X)
    (hk : S.params.LoadsAs (.ephemeral k) x X) : S.StandsFor form k X where
  agree := agree_congr h hk
  publicKey := by
    obtain ⟨e, hload, -, he⟩ := h
    exact ⟨_, Parameters.ephemeralPublic_of_ephemeralKey hload, he⟩

/-- The packed octets of a pair made under the party's parameters, and the pair restored from its
stored form, can be handed in for it. With names in ASCII and a base that can be encoded there is a
stored form. -/
theorem key_forms_interchangeable (S : Party) {k : EphemeralKey} {X : Octets}
    (hk : S.params.PackableKey k X) : S.StandsFor (.ephemeral k) k X ∧
    (∃ b, k.pack = .ok b ∧ S.StandsFor (.octets b) k X) ∧
    (S.params.group.FieldBase → IsAscii S.params.group.name.toList →
      IsAscii S.params.hash.name.toList →
      ∃ data, k.store = .ok data) ∧
    (∀ data, k.store = .ok data → ∃ l, S.params.restore (.octets data) = .ok l ∧
      S.StandsFor (.ephemeral l) k X) := by
  obtain ⟨_, x, v⟩ := k
  obtain ⟨rfl, hx, hv, hwidth⟩ := hk
  have hpair : S.params.LoadsAs (.ephemeral ⟨S.params, x, v⟩) x X :=
    ⟨_, Parameters.ephemeralKey_own x v, rfl, hv⟩
  refine ⟨standsFor_of_loadsAs hpair hpair, ?_, ?_, ?_⟩
  · have hpacked : S.params.LoadsAs (.octets (S.params.privateOctets x ++ X)) x X :=
      ⟨_, hx.unpack_packed hwidth, rfl, Value.octets?_octets X⟩
    exact ⟨_, hx.pack_eq hv, standsFor_of_loadsAs hpacked hpair⟩
  · intro hbase hgroup hhash
    obtain ⟨f, hf⟩ := Parameters.exists_fingerprint hbase hx.order_pos hgroup hhash
    exact ⟨_, hx.store_eq hf hv⟩
  · intro data hdata
    obtain ⟨f, hf, -⟩ := bind_eq_ok.mp hdata
    obtain rfl := Except.ok.inj ((hx.store_eq hf hv).symm.trans hdata)
    have hrestored : S.params.LoadsAs (.ephemeral ⟨S.params, x, .octets X⟩) x X :=
      ⟨_, Parameters.ephemeralKey_own x _, rfl, Value.octets?_octets X⟩
    exact ⟨_, hx.restore_stored hf X, standsFor_of_loadsAs hrestored hpair⟩

/-- Over the squares modulo 23 the octets 5 and 9, and what is restored, lead to the agreed value
of the pair, and to its refusals too. -/
theorem residues23_key_forms_interchangeable :
    let S : Party := ⟨0, .initiator, .residues23⟩
    let k : EphemeralKey := ⟨.residues23, 5, .buffer [9]⟩
    S.params.PackableKey k [9] ∧
    S.agree (.octets [3]) (.ephemeral k) (.octets [13]) (.octets [16]) true =
      .ok (.agreed (Hash.sha256 [13, 9, 16, 8, 13])) ∧
    S.agree (.octets [3]) (.octets [5, 9]) (.octets [13]) (.octets [16]) true =
      .ok (.agreed (Hash.sha256 [13, 9, 16, 8, 13])) ∧
    ∃ data l, k.store = .ok data ∧ S.params.restore (.octets data) = .ok l ∧
      S.agree (.octets [3]) (.ephemeral l) (.octets [13]) (.octets [16]) true =
        .ok (.agreed (Hash.sha256 [13, 9, 16, 8, 13])) ∧
      S.agree (.octets [3]) (.ephemeral l) (.octets [13]) (.octets [5]) true =
        .ok (.rejected .ephemeral (.invalid 3)) := by
  intro S k
  have hk : S.params.PackableKey k [9] := ⟨rfl, by decide, rfl, by decide⟩
  have hascii : IsAscii S.params.group.name.toList ∧ IsAscii S.params.hash.name.toList := by decide
  have hwritten : k.pack = .ok [5, 9] := by decide +kernel
  have hpair : S.agree (.octets [3]) (.ephemeral k) (.octets [13]) (.octets [16]) true =
      .ok (.agreed (Hash.sha256 [13, 9, 16, 8, 13])) := by decide +kernel
  have hrefused : S.agree (.octets [3]) (.ephemeral k) (.octets [13]) (.octets [5]) true =
      .ok (.rejected .ephemeral (.invalid 3)) := by decide +kernel
  obtain ⟨-, ⟨b, hb, hpacked⟩, hexists, hstored⟩ := key_forms_interchangeable S hk
  obtain rfl := Except.ok.inj (hwritten.symm.trans hb)
  obtain ⟨data, hdata⟩ := hexists trivial hascii.1 hascii.2
  obtain ⟨l, hl, hrestored⟩ := hstored data hdata
  exact ⟨hk, hpair, (hpacked.agree _ _ _ _).trans hpair, data, l, hdata, hl,
    (hrestored.agree _ _ _ _).trans hpair, (hrestored.agree _ _ _ _).trans hrefused⟩

end Party
end KeyAgreement
