import KeyAgreement.Octets.Hex

/-! ASCII texts and the octets that stand for them. -/
namespace KeyAgreement

/-- Characters that one octet below 128 stands for. -/
def IsAscii (cs : List Char) : Prop := ∀ c ∈ cs, c.toNat < 128

instance (cs : List Char) : Decidable (IsAscii cs) :=
  List.decidableBAll _ cs

theorem IsAscii.cons {c : Char} {cs : List Char} (hc : c.toNat < 128) (hcs : IsAscii cs) :
    IsAscii (c :: cs) := by
  simpa [IsAscii] using ⟨hc, hcs⟩

theorem IsAscii.append {cs ds : List Char} (hc : IsAscii cs) (hd : IsAscii ds) :
    IsAscii (cs ++ ds) := by
  intro c h
  rcases List.mem_append.mp h with h | h
  · exact hc c h
  · exact hd c h

theorem IsAscii.flatMap {α : Type} {f : α → List Char} (hf : ∀ a, IsAscii (f a)) (as : List α) :
    IsAscii (as.flatMap f) := by
  intro c h
  obtain ⟨a, -, hc⟩ := List.mem_flatMap.mp h
  exact hf a c hc

namespace Octets

theorem ofAscii?_eq_some {s : String} (h : IsAscii s.toList) :
    ofAscii? s = some (s.toList.map fun c => UInt8.ofNat c.toNat) := by
  rw [ofAscii?, if_pos]
  simpa [IsAscii] using h

/-- The octets of ASCII characters stand for them again. -/
theorem toAscii?_map {cs : List Char} (h : IsAscii cs) :
    toAscii? (cs.map fun c => UInt8.ofNat c.toNat) = some cs := by
  have hlow (c : Char) (hc : c ∈ cs) : UInt8.ofNat c.toNat < 128 := by
    have := h c hc
    rw [UInt8.lt_iff_toNat_lt, UInt8.toNat_ofNat', show (128 : UInt8).toNat = 128 from rfl]
    omega
  have hback (c : Char) (hc : c ∈ cs) : Char.ofNat (UInt8.ofNat c.toNat).toNat = c := by
    have := h c hc
    rw [UInt8.toNat_ofNat', Nat.mod_eq_of_lt (by omega), Char.ofNat_toNat]
  rw [toAscii?, if_pos (by simpa using hlow), List.map_map]
  exact congrArg some ((List.map_congr_left hback).trans (List.map_id cs))

/-- The octets of a text of ASCII characters. -/
def ofText (s : String) : Octets :=
  s.toList.map fun c => UInt8.ofNat c.toNat

theorem ofAscii?_eq_ofText {s : String} (h : IsAscii s.toList) : ofAscii? s = some (ofText s) :=
  ofAscii?_eq_some h

theorem isAscii_of_ofAscii? {s : String} {b : Octets} (h : ofAscii? s = some b) :
    IsAscii s.toList := by
  unfold ofAscii? at h
  split at h
  · rename_i hall
    simpa [IsAscii] using hall
  · cases h

theorem ofText_inj {s t : String} (hs : IsAscii s.toList) (ht : IsAscii t.toList)
    (h : ofText s = ofText t) : s = t := by
  have hback := congrArg toAscii? h
  rw [ofText, ofText, toAscii?_map hs, toAscii?_map ht, Option.some_inj] at hback
  exact String.toList_inj.mp hback

theorem zero_notMem_ofText {s : String} (hs : IsAscii s.toList) (hzero : '\x00' ∉ s.toList) :
    0 ∉ ofText s := by
  intro h
  obtain ⟨c, hc, hoctet⟩ := List.mem_map.mp h
  have hsmall := hs c hc
  have hnumber : c.toNat = 0 := by
    have hmod := congrArg UInt8.toNat hoctet
    rw [UInt8.toNat_ofNat'] at hmod
    change c.toNat % 256 = 0 at hmod
    omega
  have hchar : c = '\x00' := Char.toNat_inj.mp hnumber
  exact hzero (hchar ▸ hc)

end Octets

theorem Hex.isAscii_encode (b : Octets) : IsAscii (Hex.encode b) := by
  have hdigit : ∀ n, n < 16 → (Hex.digit n).toNat < 128 := by decide
  apply IsAscii.flatMap
  intro x c hc
  have hx := x.toNat_lt
  simp only [List.mem_cons, List.not_mem_nil, or_false] at hc
  rcases hc with rfl | rfl
  · exact hdigit _ (by omega)
  · exact hdigit _ (by omega)

end KeyAgreement
