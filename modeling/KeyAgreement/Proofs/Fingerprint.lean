import KeyAgreement.Proofs.ResidueLaw
import KeyAgreement.Proofs.StoredKeys

/-! What the fingerprint of parameters over a residue group tells apart, and what it does not. -/
namespace KeyAgreement
open Success

namespace Octets

/-- Two ways to split octets at a zero agree, or the zero of each stands inside a part of the
other. -/
theorem append_zero_eq_iff {a b c d : Octets} : a ++ 0 :: b = c ++ 0 :: d ↔
    (a = c ∧ b = d) ∨ (∃ r, a = c ++ 0 :: r ∧ r ++ 0 :: b = d) ∨
      ∃ r, a ++ 0 :: r = c ∧ b = r ++ 0 :: d := by
  induction a generalizing c with
  | nil => cases c with
    | nil => simp
    | cons z c => simp
  | cons x a ih => cases c with
    | nil => simp
    | cons z c => by_cases hz : x = z <;> simp [hz, ih]

/-- No zero stands before the first one. -/
theorem eq_of_append_zero {a b c d : Octets} (ha : 0 ∉ a) (hc : 0 ∉ c)
    (h : a ++ 0 :: b = c ++ 0 :: d) : a = c ∧ b = d := by
  rcases append_zero_eq_iff.mp h with hsame | ⟨r, rfl, -⟩ | ⟨r, rfl, -⟩
  · exact hsame
  · simp at ha
  · simp at hc

/-- No zero stands after the last one. -/
theorem eq_of_append_last_zero {a b c d : Octets} (hb : 0 ∉ b) (hd : 0 ∉ d)
    (h : a ++ 0 :: b = c ++ 0 :: d) : a = c ∧ b = d := by
  rcases append_zero_eq_iff.mp h with hsame | ⟨r, -, rfl⟩ | ⟨r, -, rfl⟩
  · exact hsame
  · simp at hd
  · simp at hb

end Octets

namespace ResidueGroup

def baseOctets (G : ResidueGroup) : Octets := Octets.ofNat G.width G.base.toNat

def orderOctets (G : ResidueGroup) : Octets := Octets.ofNat G.scalarWidth G.subgroupOrder.toNat

/-- The groups have the same order and base, and their moduli have the same width. -/
structure Alike (G H : ResidueGroup) : Prop where
  order : G.subgroupOrder = H.subgroupOrder
  base : G.base = H.base
  width : G.width = H.width

/-- Behind a zero octet the base of the first group ends as the order of the second one begins, and
what is left of these two is the base of the second group and the order of the first. -/
def Overlaps (G H : ResidueGroup) : Prop :=
  ∃ r, G.baseOctets = H.baseOctets ++ 0 :: r ∧ r ++ 0 :: G.orderOctets = H.orderOctets

variable {G H : ResidueGroup}

theorem encode_base : G.encode G.base = .ok G.baseOctets := by
  have hlow := G.one_lt_base
  have hhigh := G.base_lt_modulus
  exact Octets.fixed_eq_ok (by omega) hhigh.le

theorem fixed_order (hq : 0 < G.subgroupOrder) :
    Octets.fixed G.subgroupOrder G.subgroupOrder = .ok G.orderOctets :=
  Octets.fixed_eq_ok hq.le le_rfl

theorem basePower_one (hq : 0 < G.subgroupOrder) : G.basePower 1 = G.base := by
  have hlow := G.one_lt_base
  have hhigh := G.base_lt_modulus
  apply G.eq_of_cast_eq (basePower_range hq 1) (by omega)
  rw [cast_basePower hq, zpow_one]
  rfl

theorem alike_iff (hG : 0 < G.subgroupOrder) (hH : 0 < H.subgroupOrder) :
    G.Alike H ↔ G.baseOctets = H.baseOctets ∧ G.orderOctets = H.orderOctets := by
  constructor
  · rintro ⟨horder, hbase, hwidth⟩
    unfold baseOctets orderOctets scalarWidth
    rw [horder, hbase, hwidth]
    exact ⟨rfl, rfl⟩
  · rintro ⟨hbase, horder⟩
    refine ⟨?_, ?_, ?_⟩
    · rw [← Octets.value_of_fixed (fixed_order hG), horder, Octets.value_of_fixed (fixed_order hH)]
    · rw [← Octets.value_of_fixed G.encode_base, hbase, Octets.value_of_fixed H.encode_base]
    · have hlength := congrArg List.length hbase
      rwa [baseOctets, baseOctets, Octets.length_ofNat, Octets.length_ofNat] at hlength

/-- Of overlapping groups, the second one has the longer order. -/
theorem Overlaps.scalarWidth_lt (h : G.Overlaps H) : G.scalarWidth < H.scalarWidth := by
  obtain ⟨r, -, horder⟩ := h
  have hlength := congrArg List.length horder
  simp only [orderOctets, List.length_append, List.length_cons, Octets.length_ofNat] at hlength
  omega

end ResidueGroup

namespace Parameters
variable {P Q : Parameters} {G H : ResidueGroup} {m m' : Octets}

/-- There is a fingerprint only if both names are ASCII and the order is positive. -/
theorem fingerprintInput_conditions (h : P.fingerprintInput = .ok m) :
    IsAscii P.group.name.toList ∧ IsAscii P.hash.name.toList ∧ 0 < P.group.subgroupOrder := by
  unfold fingerprintInput at h
  rcases hname : Octets.ofAscii? P.group.name with _ | name
  · simp [hname] at h
  simp only [hname] at h
  split at h
  · cases h
  rename_i hq
  obtain ⟨base, -, h⟩ := bind_eq_ok.mp h
  obtain ⟨order, horder, h⟩ := bind_eq_ok.mp h
  rcases hhash : Octets.ofAscii? P.hash.name with _ | hash
  · simp [hhash] at h
  refine ⟨Octets.isAscii_of_ofAscii? hname, Octets.isAscii_of_ofAscii? hhash, ?_⟩
  have hvalue := Octets.value_of_fixed horder
  omega

/-- What the fingerprint is a hash of. -/
theorem fingerprintInput_eq (hP : P.group = .residue G) (hgroup : IsAscii P.group.name.toList)
    (hhash : IsAscii P.hash.name.toList) (hq : 0 < G.subgroupOrder) :
    P.fingerprintInput =
      .ok ((Octets.ofText P.group.name ++ 0 :: (G.baseOctets ++ 0 :: G.orderOctets)) ++
        0 :: Octets.ofText P.hash.name) := by
  have horder : P.group.subgroupOrder = G.subgroupOrder := by
    rw [hP]
    rfl
  have hbase : P.group.encode (P.group.basePower 1) = .ok G.baseOctets := by
    rw [hP]
    change G.encode (G.basePower 1) = _
    rw [G.basePower_one hq, G.encode_base]
  unfold fingerprintInput
  simp only [Octets.ofAscii?_eq_ofText hgroup, Octets.ofAscii?_eq_ofText hhash, horder, hq.ne',
    if_false, hbase, G.fixed_order hq, ok_bind]
  simp [List.intercalate]

/-- Names without the octet that separates the pieces of the fingerprint. -/
structure PlainNames (P : Parameters) : Prop where
  group : '\x00' ∉ P.group.name.toList
  hash : '\x00' ∉ P.hash.name.toList

/-- The same is hashed for parameters if their names are the same and their groups are alike or
overlap. -/
theorem fingerprintInput_eq_iff (hP : P.group = .residue G) (hQ : Q.group = .residue H)
    (hplain : P.PlainNames) (hplain' : Q.PlainNames) (hm : P.fingerprintInput = .ok m)
    (hm' : Q.fingerprintInput = .ok m') :
      m = m' ↔ P.group.name = Q.group.name ∧ P.hash.name = Q.hash.name ∧
      (G.Alike H ∨ G.Overlaps H ∨ H.Overlaps G) := by
  obtain ⟨hgroup, hhash, hG⟩ := fingerprintInput_conditions hm
  obtain ⟨hgroup', hhash', hH⟩ := fingerprintInput_conditions hm'
  have hG : 0 < G.subgroupOrder := by rwa [hP] at hG
  have hH : 0 < H.subgroupOrder := by rwa [hQ] at hH
  obtain rfl := Except.ok.inj ((fingerprintInput_eq hP hgroup hhash hG).symm.trans hm)
  obtain rfl := Except.ok.inj ((fingerprintInput_eq hQ hgroup' hhash' hH).symm.trans hm')
  have hmiddle : G.baseOctets ++ 0 :: G.orderOctets = H.baseOctets ++ 0 :: H.orderOctets ↔
      G.Alike H ∨ G.Overlaps H ∨ H.Overlaps G := by
    rw [Octets.append_zero_eq_iff, ResidueGroup.alike_iff hG hH]
    simp only [ResidueGroup.Overlaps, eq_comm]
  rw [← hmiddle]
  constructor
  · intro h
    obtain ⟨hrest, hhashes⟩ := Octets.eq_of_append_last_zero
      (Octets.zero_notMem_ofText hhash hplain.hash)
      (Octets.zero_notMem_ofText hhash' hplain'.hash) h
    obtain ⟨hgroups, hmiddles⟩ := Octets.eq_of_append_zero
      (Octets.zero_notMem_ofText hgroup hplain.group)
      (Octets.zero_notMem_ofText hgroup' hplain'.group) hrest
    exact ⟨Octets.ofText_inj hgroup hgroup' hgroups, Octets.ofText_inj hhash hhash' hhashes,
      hmiddles⟩
  · rintro ⟨hgroups, hhashes, hmiddles⟩
    rw [hgroups, hhashes, hmiddles]

theorem fingerprint_of_input (hm : P.fingerprintInput = .ok m) :
    P.fingerprint = .ok (Hex.encode (HashFunction.sha256.digest m)) := by
  unfold fingerprint
  rw [hm]
  rfl

theorem staticPrivateWidth_eq (hP : P.group = .residue G) :
    P.staticPrivateWidth = G.scalarWidth := by
  unfold staticPrivateWidth
  rw [hP]
  rfl

/-- What is restored was stored with the same width of exponents. -/
theorem width_eq_of_restore {f : List Char} {x : Int} {X : Octets} {l : EphemeralKey}
    (h : Q.restore (.octets (Stored.written (P.storedFields f x X))) = .ok l) :
    P.staticPrivateWidth = Q.staticPrivateWidth := by
  obtain ⟨json, -, hread, -, -, hentries⟩ := restore_eq_ok.mp h
  obtain rfl := Except.ok.inj ((Stored.read_written _).symm.trans hread)
  obtain ⟨exponent, -, b, -, hexponent, hb, hlength, -⟩ := restoreEntries_eq_ok.mp hentries
  have hwritten :
      ("exponent", Hex.encode (P.privateOctets x)) ∈ P.storedFields f x X := by simp [storedFields]
  obtain rfl := Except.ok.inj ((entry_storedFields hwritten).symm.trans hexponent)
  obtain rfl := Except.ok.inj ((Stored.octets_encode _).symm.trans hb)
  rwa [length_privateOctets] at hlength

/-- Parameters with one order and one fingerprint restore each other's pairs. -/
theorem restore_of_order_eq {f : List Char} {x : Int}
    (horder : P.group.subgroupOrder = Q.group.subgroupOrder) (hx : P.IsExponent x)
    (hf : Q.fingerprint = .ok f) (X : Octets) :
    Q.restore (.octets (Stored.written (P.storedFields f x X))) = .ok ⟨Q, x, .octets X⟩ := by
  have hx' : Q.IsExponent x := by
    unfold IsExponent at hx ⊢
    rwa [← horder]
  have hprivate : P.privateOctets x = Q.privateOctets x := by
    unfold privateOctets staticPrivateWidth Group.scalarWidth
    rw [horder]
  rw [storedFields, hprivate, ← storedFields]
  exact hx'.restore_stored hf X

theorem restore_of_digest_ne (hm' : Q.fingerprintInput = .ok m')
    (hdigests : HashFunction.sha256.digest m ≠ HashFunction.sha256.digest m')
    (x : Int) (X : Octets) :
    Q.restore (.octets
        (Stored.written (P.storedFields (Hex.encode (HashFunction.sha256.digest m)) x X))) =
      .error .otherParameters := by
  apply restore_of_other (Stored.read_written _) (stamp_storedFields ..) (fingerprint_of_input hm')
  intro h
  have hback := congrArg Hex.decode? (Json.text.inj h)
  rw [Hex.decode?_encode, Hex.decode?_encode, Option.some_inj] at hback
  exact hdigests hback

/-- A fingerprint tells names apart, and of a residue group the order, the base and the width of
the modulus, but not the modulus itself; and the base and the order only as far as the zero octets
in them let it. Unless the two hashed texts collide, a stored pair is restored under other
parameters if the names agree and the groups are alike. -/
theorem fingerprint_exact (hP : P.group = .residue G) (hQ : Q.group = .residue H)
    (hplain : P.PlainNames) (hplain' : Q.PlainNames) (hm : P.fingerprintInput = .ok m)
    (hm' : Q.fingerprintInput = .ok m') :
      (m = m' ↔ P.group.name = Q.group.name ∧ P.hash.name = Q.hash.name ∧
      (G.Alike H ∨ G.Overlaps H ∨ H.Overlaps G)) ∧
    ((HashFunction.sha256.digest m = HashFunction.sha256.digest m' → m = m') →
      ∀ (x : Int) (v : Value) (X data : Octets), P.IsExponent x → v.octets? = some X →
        EphemeralKey.store ⟨P, x, v⟩ = .ok data →
        ((∃ l, Q.restore (.octets data) = .ok l) ↔
          P.group.name = Q.group.name ∧ P.hash.name = Q.hash.name ∧ G.Alike H)) := by
  have hsame := fingerprintInput_eq_iff hP hQ hplain hplain' hm hm'
  refine ⟨hsame, ?_⟩
  intro hcollision x v X data hx hv hdata
  obtain rfl := Except.ok.inj ((hx.store_eq (fingerprint_of_input hm) hv).symm.trans hdata)
  constructor
  · rintro ⟨l, hl⟩
    have hwidths : G.scalarWidth = H.scalarWidth := by
      rw [← staticPrivateWidth_eq hP, ← staticPrivateWidth_eq hQ]
      exact width_eq_of_restore hl
    have hinputs : m = m' := by
      apply hcollision
      by_contra hdigests
      rw [restore_of_digest_ne hm' hdigests] at hl
      cases hl
    obtain ⟨hgroups, hhashes, halike | hoverlaps | hoverlaps⟩ := hsame.mp hinputs
    · exact ⟨hgroups, hhashes, halike⟩
    · exact absurd hwidths hoverlaps.scalarWidth_lt.ne
    · exact absurd hwidths hoverlaps.scalarWidth_lt.ne'
  · rintro ⟨hgroups, hhashes, halike⟩
    have hinputs : m = m' := hsame.mpr ⟨hgroups, hhashes, .inl halike⟩
    have horder : P.group.subgroupOrder = Q.group.subgroupOrder := by
      rw [hP, hQ]
      exact halike.order
    rw [hinputs]
    exact ⟨_, restore_of_order_eq horder hx (fingerprint_of_input hm') X⟩

/-- A group with the order 03 whose base is 08 1b f1 00 01. -/
def longBase : Parameters where
  serial := 11
  group := .residue {
    serial := 11
    name := "twin"
    modulus := 52554693091
    subgroupOrder := 3
    base := 34828517377
    order_dvd := by decide
    one_lt_base := by decide
    base_lt_modulus := by decide
    base_power := by decide +kernel }
  hash := .sha256

/-- A group with the order 01 00 03 whose base is 08 1b f1. -/
def longOrder : Parameters where
  serial := 12
  group := .residue {
    serial := 12
    name := "twin"
    modulus := 786469
    subgroupOrder := 65539
    base := 531441
    order_dvd := by decide
    one_lt_base := by decide
    base_lt_modulus := by decide
    base_power := by decide +kernel }
  hash := .sha256

/-- The two groups overlap, so that the same is hashed for both, but exponents have different
widths in them. -/
theorem twins_fingerprint_exact : ∃ m m' data,
    longBase.PlainNames ∧ longOrder.PlainNames ∧
    longBase.group.subgroupOrder ≠ longOrder.group.subgroupOrder ∧
    longBase.fingerprintInput = .ok m ∧ longOrder.fingerprintInput = .ok m' ∧ m = m' ∧
    EphemeralKey.store ⟨longBase, 2, .octets [25]⟩ = .ok data ∧
    ¬ ∃ l, longOrder.restore (.octets data) = .ok l := by
  have hplain : longBase.PlainNames := ⟨by decide, by decide⟩
  have hplain' : longOrder.PlainNames := ⟨by decide, by decide⟩
  have hm : longBase.fingerprintInput = .ok
      [116, 119, 105, 110, 0, 8, 27, 241, 0, 1, 0, 3, 0, 115, 104, 97, 50, 53, 54] := by
    decide +kernel
  have hm' : longOrder.fingerprintInput = .ok
      [116, 119, 105, 110, 0, 8, 27, 241, 0, 1, 0, 3, 0, 115, 104, 97, 50, 53, 54] := by
    decide +kernel
  have hx : longBase.IsExponent 2 := by decide
  have hdata := hx.store_eq (fingerprint_of_input hm) (Value.octets?_octets [25])
  obtain ⟨hsame, hrestore⟩ := fingerprint_exact rfl rfl hplain hplain' hm hm'
  refine ⟨_, _, _, hplain, hplain', by decide, hm, hm', ?_, hdata, ?_⟩
  · exact hsame.mpr ⟨rfl, rfl, .inr (.inl ⟨[1], by decide, by decide⟩)⟩
  · rw [hrestore (fun _ => rfl) _ _ _ _ hx (Value.octets?_octets [25]) hdata]
    rintro ⟨-, -, horder, -, -⟩
    exact absurd horder (by decide)

/-- The moduli 67 and 89 have one width, 64 has the order 11 modulo both of them, and the groups
come by the same name. So the same is hashed for them, and a pair that was stored under the first
is restored under the second. -/
theorem residues67_pair_restored_under_residues89 :
    ResidueGroup.make 9 67 11 64 "" = .ok KeyAgreement.residues67 ∧
    ResidueGroup.make 10 89 11 64 "" = .ok KeyAgreement.residues89 ∧
    KeyAgreement.residues67.modulus.Prime ∧ KeyAgreement.residues89.modulus.Prime ∧
    KeyAgreement.residues67.modulus ≠ KeyAgreement.residues89.modulus ∧
    Parameters.residues67.PlainNames ∧ Parameters.residues89.PlainNames ∧
    (∃ m, Parameters.residues67.fingerprintInput = .ok m ∧
      Parameters.residues89.fingerprintInput = .ok m) ∧
    ∃ data, EphemeralKey.store ⟨.residues67, 5, .octets [25]⟩ = .ok data ∧
      Parameters.residues89.restore (.octets data) = .ok ⟨.residues89, 5, .octets [25]⟩ := by
  have hm : Parameters.residues67.fingerprintInput = .ok
      [73, 55, 0, 64, 0, 11, 0, 115, 104, 97, 50, 53, 54] := by decide +kernel
  have hm' : Parameters.residues89.fingerprintInput = .ok
      [73, 55, 0, 64, 0, 11, 0, 115, 104, 97, 50, 53, 54] := by decide +kernel
  have hx : Parameters.residues67.IsExponent 5 := by decide
  have hdata := hx.store_eq (fingerprint_of_input hm) (Value.octets?_octets [25])
  have hrestored := restore_of_order_eq (Q := .residues89) rfl hx (fingerprint_of_input hm') [25]
  exact ⟨by decide +kernel, by decide +kernel, by decide, by decide, by decide,
    ⟨by decide, by decide⟩, ⟨by decide, by decide⟩, ⟨_, hm, hm'⟩, _, hdata, hrestored⟩

end Parameters

end KeyAgreement
