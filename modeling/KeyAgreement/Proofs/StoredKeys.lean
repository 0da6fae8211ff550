import KeyAgreement.Keys.Stored
import KeyAgreement.Proofs.Encoding
import KeyAgreement.Proofs.JsonText
import KeyAgreement.Proofs.PackedKeys

/-! Ephemeral keys stored as JSON texts: what is restored from them, and under which parameters. -/
namespace KeyAgreement
open Success

namespace Stored

/-- The octets of a written object. -/
def written (fields : List (String × List Char)) : Octets :=
  (Json.writeTexts fields).map fun c => UInt8.ofNat c.toNat

theorem ofAscii?_writeTexts (fields : List (String × List Char)) :
    Octets.ofAscii? (String.ofList (Json.writeTexts fields)) = some (written fields) := by
  have hascii := Json.isAscii_writeTexts fields
  rw [Octets.ofAscii?_eq_some (by rwa [String.toList_ofList]), String.toList_ofList]
  rfl

theorem read_written (fields : List (String × List Char)) :
    read (.octets (written fields)) = .ok (.object (fields.map Json.textField)) := by
  unfold read
  rw [Value.contentOr_octets, ok_bind, written, Octets.toAscii?_map (Json.isAscii_writeTexts _)]
  simp only [Json.parse?_writeTexts]
  rfl

theorem entry_of_field {fields : List (List Char × Json)} {name : String} {json : Json}
    (h : Json.field? fields name = some json) : entry (.object fields) name = .ok json := by
  unfold entry
  simp only [h]
  rfl

theorem octets_encode (b : Octets) : octets (.text (Hex.encode b)) = .ok b := by
  unfold octets
  simp only [Hex.decode?_encode]
  rfl

end Stored

namespace Parameters
variable {P : Parameters} {x : Int} {v data : Value} {X : Octets} {f : List Char}

/-- With names in ASCII and a base that can be encoded there is a fingerprint. -/
theorem exists_fingerprint (hbase : P.group.FieldBase) (hq : 0 < P.group.subgroupOrder)
    (hgroup : IsAscii P.group.name.toList) (hhash : IsAscii P.hash.name.toList) :
    ∃ f, P.fingerprint = .ok f := by
  obtain ⟨base, hbase⟩ := (hbase.reduced.basePower hq 1).exists_encode
  have horder := Octets.fixed_eq_ok hq.le (le_refl P.group.subgroupOrder)
  unfold fingerprint fingerprintInput
  simp only [Octets.ofAscii?_eq_some hgroup, Octets.ofAscii?_eq_some hhash, hq.ne', if_false, hbase,
    horder]
  exact ⟨_, rfl⟩

/-- The entries of a stored pair. -/
def storedFields (P : Parameters) (f : List Char) (x : Int) (X : Octets) :
    List (String × List Char) :=
  [("hashed_params", f), ("exponent", Hex.encode (P.privateOctets x)), ("public_key", Hex.encode X)]

theorem IsExponent.store_eq (hx : P.IsExponent x) (hf : P.fingerprint = .ok f)
    (hv : v.octets? = some X) :
    EphemeralKey.store ⟨P, x, v⟩ = .ok (Stored.written (P.storedFields f x X)) := by
  unfold EphemeralKey.store EphemeralKey.exponentOctets
  rw [hf, hx.fixed_eq, Value.contentOr_of_some hv]
  simp only [ok_bind]
  rw [← storedFields, Stored.ofAscii?_writeTexts]
  rfl

theorem entry_storedFields {name : String} {s : List Char} (h : (name, s) ∈ P.storedFields f x X) :
    Stored.entry (.object ((P.storedFields f x X).map Json.textField)) name = .ok (.text s) := by
  have hnames : ((P.storedFields f x X).map Prod.fst).Nodup := by simp [storedFields]
  have hfield := Json.field?_textField hnames h
  exact Stored.entry_of_field hfield

/-- What is read of a stored pair once the fingerprint has been found to be the right one. -/
def restoreEntries (P : Parameters) (json : Json) : Except Fault EphemeralKey := do
  let exponent ← P.exponentOf (← Stored.octets (← Stored.entry json "exponent"))
  let publicKey ← Stored.octets (← Stored.entry json "public_key")
  pure ⟨P, exponent, .octets publicKey⟩

theorem restore_of_fingerprint {json : Json} (hread : Stored.read data = .ok json)
    (hstamp : Stored.entry json "hashed_params" = .ok (.text f)) (hf : P.fingerprint = .ok f) :
    P.restore data = P.restoreEntries json := by
  unfold restore
  rw [hread, ok_bind, hstamp, ok_bind, hf, ok_bind]
  simp only [ne_eq, not_true_eq_false, if_false]
  rfl

/-- Another fingerprint is refused, whatever the other entries hold and whether there are any. -/
theorem restore_of_other {json stamp : Json} (hread : Stored.read data = .ok json)
    (hstamp : Stored.entry json "hashed_params" = .ok stamp) (hf : P.fingerprint = .ok f)
    (hne : stamp ≠ .text f) : P.restore data = .error .otherParameters := by
  unfold restore
  rw [hread, ok_bind, hstamp, ok_bind, hf, ok_bind]
  cases stamp with
  | text s =>
    have hs : s ≠ f := fun h => hne (congrArg Json.text h)
    simp only [ne_eq, hs, not_false_eq_true, if_true]
    rfl
  | _ => rfl

theorem restoreEntries_eq_ok {json : Json} {k : EphemeralKey} : P.restoreEntries json = .ok k ↔
    ∃ exponent publicKey b X, Stored.entry json "exponent" = .ok exponent ∧
      Stored.octets exponent = .ok b ∧ b.length = P.staticPrivateWidth ∧ P.IsExponent b.value ∧
      Stored.entry json "public_key" = .ok publicKey ∧ Stored.octets publicKey = .ok X ∧
      k = ⟨P, b.value, .octets X⟩ := by
  simp only [restoreEntries, bind_eq_ok, pure_eq_ok, exponentOf_eq_ok]
  constructor
  · rintro ⟨e, he, b, hb, x, ⟨hlength, rfl, hx⟩, p, hp, X, hX, rfl⟩
    exact ⟨e, p, b, X, he, hb, hlength, hx, hp, hX, rfl⟩
  · rintro ⟨e, p, b, X, he, hb, hlength, hx, hp, hX, rfl⟩
    exact ⟨e, he, b, hb, _, ⟨hlength, rfl, hx⟩, p, hp, X, hX, rfl⟩

/-- What a successful restoring has read, entry by entry. -/
theorem restore_eq_ok {k : EphemeralKey} : P.restore data = .ok k ↔
    ∃ json f, Stored.read data = .ok json ∧ Stored.entry json "hashed_params" = .ok (.text f) ∧
      P.fingerprint = .ok f ∧ P.restoreEntries json = .ok k := by
  constructor
  · intro h
    have hsteps := h
    simp only [restore, bind_eq_ok] at hsteps
    obtain ⟨json, hread, stamp, hstamp, f, hf, -⟩ := hsteps
    by_cases hne : stamp = .text f
    · subst hne
      rw [restore_of_fingerprint hread hstamp hf] at h
      exact ⟨json, f, hread, hstamp, hf, h⟩
    · rw [restore_of_other hread hstamp hf hne] at h
      cases h
  · rintro ⟨json, f, hread, hstamp, hf, h⟩
    rw [restore_of_fingerprint hread hstamp hf, h]

theorem stamp_storedFields (P : Parameters) (f : List Char) (x : Int) (X : Octets) :
    Stored.entry (.object ((P.storedFields f x X).map Json.textField)) "hashed_params" =
      .ok (.text f) :=
  entry_storedFields (by simp [storedFields])

/-- A stored pair is restored whatever its public key is. -/
theorem IsExponent.restore_stored (hx : P.IsExponent x) (hf : P.fingerprint = .ok f) (X : Octets) :
    P.restore (.octets (Stored.written (P.storedFields f x X))) = .ok ⟨P, x, .octets X⟩ := by
  have hexponent :
      ("exponent", Hex.encode (P.privateOctets x)) ∈ P.storedFields f x X := by simp [storedFields]
  have hpublic : ("public_key", Hex.encode X) ∈ P.storedFields f x X := by simp [storedFields]
  rw [restore_of_fingerprint (Stored.read_written _) (stamp_storedFields P f x X) hf,
    restoreEntries]
  simp only [entry_storedFields hexponent, entry_storedFields hpublic, Stored.octets_encode,
    hx.exponentOf_privateOctets, ok_bind]
  rfl

theorem residues23_fingerprint : Parameters.residues23.fingerprint =
    .ok "de9f642bb8490517bb5bf4accd8b12f76061847c17f46f9a7b6581eb406352b0".toList := by
  decide +kernel

theorem curve17_fingerprint : Parameters.curve17.fingerprint =
    .ok "868dbfa0b61226af2466323e7171e5d54d264410c78707cac6dfc581e188b953".toList := by
  decide +kernel

/-- With names in ASCII and a base that can be encoded there is a fingerprint; and with it a pair
with an exponent in range and any public key is stored, and restored equal to what it was.
Parameters with another fingerprint refuse the stored form for that, as they refuse any object with
this entry, whatever its other entries hold and whether there are any. -/
theorem stored_form_restored (P : Parameters) {x : Int} (hx : P.IsExponent x) {v : Value}
    {X : Octets} (hv : v.octets? = some X) :
    (P.group.FieldBase → IsAscii P.group.name.toList → IsAscii P.hash.name.toList →
      ∃ f, P.fingerprint = .ok f) ∧
    ∀ f, P.fingerprint = .ok f → ∃ b, EphemeralKey.store ⟨P, x, v⟩ = .ok b ∧
      P.restore (.octets b) = .ok ⟨P, x, .octets X⟩ ∧
      Value.equals (.ephemeral ⟨P, x, .octets X⟩) (.ephemeral ⟨P, x, v⟩) = .ok true ∧
      ∀ (Q : Parameters) (g : List Char), Q.fingerprint = .ok g → g ≠ f →
        Refuses (Q.restore (.octets b)) .wrongGroup .otherParameters ∧
        ∀ (data : Value) (fields : List (List Char × Json)),
          Stored.read data = .ok (.object fields) →
          Json.field? fields "hashed_params" = some (.text f) →
          Refuses (Q.restore data) .wrongGroup .otherParameters := by
  constructor
  · intro hbase hgroup hhash
    exact exists_fingerprint hbase hx.order_pos hgroup hhash
  intro f hf
  refine ⟨_, hx.store_eq hf hv, hx.restore_stored hf X, hx.equals_octets hv, ?_⟩
  intro Q g hg hne
  have hother : Json.text f ≠ .text g := fun h => hne (Json.text.inj h).symm
  constructor
  · exact ⟨restore_of_other (Stored.read_written _) (stamp_storedFields P f x X) hg hother, rfl⟩
  · intro data fields hread hfield
    exact ⟨restore_of_other hread (Stored.entry_of_field hfield) hg hother, rfl⟩

/-- A pair over the squares modulo 23 whose public key is no element at all is restored, and over
the curve modulo 17 refused, as is an object with nothing in it but the fingerprint. -/
theorem residues23_stored_form_restored :
    Parameters.residues23.group.FieldBase ∧ IsAscii Parameters.residues23.group.name.toList ∧
    IsAscii Parameters.residues23.hash.name.toList ∧ Parameters.residues23.IsExponent 5 ∧
    ∃ f b, Parameters.residues23.fingerprint = .ok f ∧
      EphemeralKey.store ⟨.residues23, 5, .buffer [0, 34, 255]⟩ = .ok b ∧
      Parameters.residues23.restore (.octets b) = .ok ⟨.residues23, 5, .octets [0, 34, 255]⟩ ∧
      Refuses (Parameters.curve17.restore (.octets b)) .wrongGroup .otherParameters ∧
      Refuses (Parameters.curve17.restore (.octets (Stored.written [("hashed_params", f)])))
        .wrongGroup .otherParameters := by
  have hascii : IsAscii Parameters.residues23.group.name.toList ∧
      IsAscii Parameters.residues23.hash.name.toList := by decide
  have hx : Parameters.residues23.IsExponent 5 := by decide
  obtain ⟨hexists, hrestore⟩ := stored_form_restored .residues23 hx (v := .buffer [0, 34, 255]) rfl
  obtain ⟨f, hf⟩ := hexists trivial hascii.1 hascii.2
  obtain ⟨b, hstored, hrestored, -, hother⟩ := hrestore f hf
  have hne : "868dbfa0b61226af2466323e7171e5d54d264410c78707cac6dfc581e188b953".toList ≠ f := by
    obtain rfl := Except.ok.inj (residues23_fingerprint.symm.trans hf)
    decide +kernel
  obtain ⟨hsame, hany⟩ := hother .curve17 _ curve17_fingerprint hne
  have hlone : Json.field? ([("hashed_params", f)].map Json.textField) "hashed_params" =
      some (.text f) :=
    Json.field?_textField (f := ("hashed_params", f)) (by simp) (List.mem_singleton_self _)
  exact ⟨trivial, hascii.1, hascii.2, hx, f, b, hf, hstored, hrestored, hsame,
    hany _ _ (Stored.read_written _) hlone⟩

/-- Whatever the data, a pair that is unpacked from them is packable, and is unpacked again from
its packed form. A pair that is restored from them has an exponent in range too, but a public key
of whatever length is stored: it is packable, and unpacked from its packed form, only if that
length is the one of an encoded element. -/
theorem restored_pair_packable (P : Parameters) (data : Value) (k : EphemeralKey) :
    (P.unpack data = .ok k → ∃ X b, P.PackableKey k X ∧ k.pack = .ok b ∧
      b.length = P.ephemeralPrivateWidth ∧ P.unpack (.octets b) = .ok k) ∧
    (P.restore data = .ok k → ∃ X b, k.params = P ∧ P.IsExponent k.exponent ∧
      k.publicKey.octets? = some X ∧
      k.pack = .ok b ∧ b.length = P.staticPrivateWidth + X.length ∧
      if X.length = P.ephemeralPublicWidth then P.PackableKey k X ∧ P.unpack (.octets b) = .ok k
      else Refuses (P.unpack (.octets b)) .valueError (.packedLength P.ephemeralPrivateWidth)) := by
  constructor
  · intro h
    obtain ⟨b, hb, hlength, hx, rfl⟩ := unpack_eq_ok.mp h
    have hwidth := length_drop_packed hlength
    have hpacked := hx.pack_eq (Value.octets?_octets (b.drop P.staticPrivateWidth))
    exact ⟨_, _, ⟨rfl, hx, rfl, hwidth⟩, hpacked, length_packed _ hwidth, hx.unpack_packed hwidth⟩
  · intro h
    obtain ⟨json, f, -, -, -, hentries⟩ := restore_eq_ok.mp h
    obtain ⟨-, -, b, X, -, -, -, hx, -, -, rfl⟩ := restoreEntries_eq_ok.mp hentries
    have hlength : (P.privateOctets b.value ++ X).length = P.staticPrivateWidth + X.length := by
      rw [List.length_append, length_privateOctets]
    refine ⟨X, _, rfl, hx, rfl, hx.pack_eq (Value.octets?_octets X), hlength, ?_⟩
    split
    · rename_i hwidth
      exact ⟨⟨rfl, hx, rfl, hwidth⟩, hx.unpack_packed hwidth⟩
    · rename_i hwidth
      refine ⟨unpack_of_length_ne (Value.octets?_octets _) ?_, rfl⟩
      rw [hlength]
      exact fun hpacked => hwidth (Nat.add_left_cancel hpacked)

/-- Packed or stored, the exponent 5 with a public key of one octet is a packable pair over the
squares modulo 23. -/
theorem residues23_restored_pair_packable :
    Parameters.residues23.unpack (.octets [5, 9]) = .ok ⟨.residues23, 5, .octets [9]⟩ ∧
    (∃ X b, Parameters.residues23.PackableKey ⟨.residues23, 5, .octets [9]⟩ X ∧
      EphemeralKey.pack ⟨.residues23, 5, .octets [9]⟩ = .ok b ∧ b.length = 2) ∧
    ∃ f, Parameters.residues23.restore
        (.octets (Stored.written (Parameters.residues23.storedFields f 5 [9]))) =
        .ok ⟨.residues23, 5, .octets [9]⟩ ∧
      ∃ b, EphemeralKey.pack ⟨.residues23, 5, .octets [9]⟩ = .ok b ∧
        Parameters.residues23.unpack (.octets b) = .ok ⟨.residues23, 5, .octets [9]⟩ := by
  have hx : Parameters.residues23.IsExponent 5 := by decide
  have hunpacked :
      Parameters.residues23.unpack (.octets [5, 9]) = .ok ⟨.residues23, 5, .octets [9]⟩ :=
    hx.unpack_packed (X := [9]) (by decide)
  have hrestored := hx.restore_stored residues23_fingerprint [9]
  obtain ⟨X, b, hpackable, hpacked, hlength, -⟩ := (restored_pair_packable _ _ _).1 hunpacked
  obtain ⟨Y, c, -, -, hY, hstored, -, hagain⟩ := (restored_pair_packable _ _ _).2 hrestored
  obtain rfl : [9] = Y := Option.some.inj hY
  rw [if_pos (by decide)] at hagain
  exact ⟨hunpacked, ⟨X, b, hpackable, hpacked, hlength.trans (by decide)⟩, _, hrestored, c, hstored,
    hagain.2⟩

/-- A stored public key of two octets is restored over the squares modulo 23, where elements have
one, and the pair is not unpacked from its packed form. -/
theorem residues23_wide_key_restored : ∃ data,
    Octets.ofAscii? ("\x7b\"hashed_params\": " ++
      "\"de9f642bb8490517bb5bf4accd8b12f76061847c17f46f9a7b6581eb406352b0\", " ++
      "\"exponent\": \"05\", \"public_key\": \"0909\"\x7d") = some data ∧
    Parameters.residues23.restore (.octets data) = .ok ⟨.residues23, 5, .octets [9, 9]⟩ ∧
    Parameters.residues23.ephemeralPublicWidth = 1 ∧
    EphemeralKey.pack ⟨.residues23, 5, .octets [9, 9]⟩ = .ok [5, 9, 9] ∧
    Parameters.residues23.unpack (.octets [5, 9, 9]) = .error (.packedLength 2) := by
  have hx : Parameters.residues23.IsExponent 5 := by decide
  exact ⟨_, by decide +kernel, hx.restore_stored residues23_fingerprint [9, 9], by decide,
    hx.pack_eq (Value.octets?_octets [9, 9]),
    unpack_of_length_ne (Value.octets?_octets _) (by decide)⟩

end Parameters
end KeyAgreement
