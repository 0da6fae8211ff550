import Mathlib.Data.List.Nodup
import KeyAgreement.Json
import KeyAgreement.Proofs.AsciiText
import KeyAgreement.Proofs.Radix

/-! JSON texts as they are written are ASCII and read back: every character of a text, and every
field of a flat object. -/
namespace KeyAgreement

namespace Json

/-- The units that a character is written by: one, or a high and a low surrogate. -/
def charUnits (c : Char) : List Nat :=
  if c.toNat < 0x10000 then [c.toNat]
  else [0xd800 + (c.toNat - 0x10000) / 0x400, 0xdc00 + (c.toNat - 0x10000) % 0x400]

theorem units?_hexUnit {u : Nat} (hu : u < 0x10000) (rest : List Char) :
    units? (hexUnit u ++ rest) = (units? rest).map fun r => (u :: r.1, r.2) := by
  have hoctets : Octets.ofNat 2 u = [UInt8.ofNat (u / 256), UInt8.ofNat u] := rfl
  have hhigh := Hex.decode?_encode [UInt8.ofNat (u / 256)]
  have hlow := Hex.decode?_encode [UInt8.ofNat u]
  have hvalue : Octets.value [UInt8.ofNat (u / 256), UInt8.ofNat u] = u := by
    rw [← hoctets, Octets.value_ofNat]
    exact Nat.mod_eq_of_lt hu
  simp only [Hex.encode_cons, Hex.encode_nil] at hhigh hlow
  simp only [hexUnit, hoctets, Hex.encode_cons, Hex.encode_nil, List.cons_append, List.nil_append,
    units?, hhigh, hlow, Option.bind_eq_bind, Option.bind_some, hvalue]
  cases units? rest <;> rfl

theorem units?_plain {c : Char} (hquote : c ≠ '"') (hbackslash : c ≠ '\\') (hcontrol : 32 ≤ c.toNat)
    (rest : List Char) : units? (c :: rest) = (units? rest).map fun r => (c.toNat :: r.1, r.2) := by
  simp only [units?, hbackslash, not_lt.mpr hcontrol, false_implies, implies_true, if_false]
  cases units? rest <;> rfl

theorem units?_short {c : Char} {n : Nat} (hescaped : escaped? c = some n) (hu : c ≠ 'u')
    (rest : List Char) :
    units? ('\\' :: c :: rest) = (units? rest).map fun r => (n :: r.1, r.2) := by
  simp only [units?, hu, hescaped, false_implies, implies_true]
  cases units? rest <;> rfl

theorem toNat_lt (c : Char) : c.toNat < 0x110000 := by
  rcases c.valid with h | ⟨-, h⟩
  · exact h.trans (by decide)
  · exact h

theorem charUnits_of_lt {c : Char} (h : c.toNat < 0x10000) : charUnits c = [c.toNat] := if_pos h

/-- What is written for a character is read as its units. -/
theorem units?_escape (c : Char) (rest : List Char) :
    units? (escape c ++ rest) = (units? rest).map fun r => (charUnits c ++ r.1, r.2) := by
  unfold escape
  split
  · rename_i h
    rcases h with rfl | rfl
    · exact units?_short rfl (by decide) rest
    · exact units?_short rfl (by decide) rest
  rename_i hspecial
  obtain ⟨hquote, hbackslash⟩ := not_or.mp hspecial
  -- Line feed, carriage return and tab; then backspace and form feed, which are told by their
  -- numbers.
  iterate 3
    split
    · rename_i h
      subst h
      exact units?_short rfl (by decide) rest
  iterate 2
    split
    · rename_i h
      rw [charUnits_of_lt (by omega), h]
      exact units?_short rfl (by decide) rest
  split
  · rename_i h
    rw [charUnits_of_lt (by omega)]
    exact units?_plain hquote hbackslash h.1 rest
  split
  · rename_i h
    rw [charUnits_of_lt h]
    exact units?_hexUnit h rest
  · rename_i h
    have hlt := toNat_lt c
    rw [charUnits, if_neg h, List.append_assoc, units?_hexUnit (by omega),
      units?_hexUnit (by omega), Option.map_map]
    rfl

theorem units?_flatMap_escape (s rest : List Char) :
    units? (s.flatMap escape ++ '"' :: rest) = some (s.flatMap charUnits, rest) := by
  induction s with
  | nil => simp [units?]
  | cons c s ih => simp [units?_escape, ih]

/-- Characters are no surrogates. -/
theorem not_surrogate (c : Char) : ¬ (0xd800 ≤ c.toNat ∧ c.toNat < 0xe000) := by
  intro h
  rcases c.valid with hlow | ⟨hhigh, -⟩
  · exact absurd hlow (not_lt.mpr h.1)
  · exact absurd (Nat.succ_le_of_lt hhigh) (not_le.mpr h.2)

theorem unitChar_toNat (c : Char) : unitChar c.toNat = c := by
  rw [unitChar, if_neg (not_surrogate c), Char.ofNat_toNat]

theorem joinUnits_char (c : Char) (us : List Nat) :
    joinUnits (c.toNat :: us) = c :: joinUnits us := by
  cases us with
  | nil => rw [joinUnits, joinUnits, unitChar_toNat]
  | cons v us =>
    have hno := not_surrogate c
    rw [joinUnits, if_neg (by omega), unitChar_toNat]

/-- The units of a character are joined to it again, whatever units follow. -/
theorem joinUnits_charUnits (c : Char) (us : List Nat) :
    joinUnits (charUnits c ++ us) = c :: joinUnits us := by
  by_cases h : c.toNat < 0x10000
  · rw [charUnits_of_lt h]
    exact joinUnits_char c us
  · have hlt := toNat_lt c
    have hback : 0x10000 + (0xd800 + (c.toNat - 0x10000) / 0x400 - 0xd800) * 0x400 +
        (0xdc00 + (c.toNat - 0x10000) % 0x400 - 0xdc00) = c.toNat := by omega
    rw [charUnits, if_neg h, List.cons_append, List.cons_append, List.nil_append, joinUnits,
      if_pos (by omega), hback, Char.ofNat_toNat]

theorem joinUnits_flatMap_charUnits (s : List Char) : joinUnits (s.flatMap charUnits) = s := by
  induction s with
  | nil => rfl
  | cons c s ih => simp [joinUnits_charUnits, ih]

/-- A text is read back, whatever its characters. -/
theorem text?_escaped (s rest : List Char) :
    text? (s.flatMap escape ++ '"' :: rest) = some (s, rest) := by
  simp [text?, units?_flatMap_escape, joinUnits_flatMap_charUnits]

theorem writeText_append (s rest : List Char) :
    writeText s ++ rest = '"' :: (s.flatMap escape ++ '"' :: rest) := by
  simp [writeText]

theorem skipBlank_cons {c : Char} (h : isBlank c = false) (rest : List Char) :
    skipBlank (c :: rest) = c :: rest := by
  simp [skipBlank, h]

theorem value?_writeText (fuel : Nat) (s rest : List Char) :
    value? (fuel + 1) (writeText s ++ rest) = some (.text s, rest) := by
  rw [writeText_append]
  simp [value?, text?_escaped]

/-- A field of a flat object as it is read. -/
def textField (f : String × List Char) : List Char × Json := (f.1.toList, .text f.2)

theorem writeField_append (f : String × List Char) (rest : List Char) :
    writeField f ++ rest =
      '"' :: (f.1.toList.flatMap escape ++ '"' :: ':' :: ' ' :: (writeText f.2 ++ rest)) := by
  simp [writeField, writeText]

/-- A field is read as its name and its text, and what follows it decides how to go on. -/
theorem fields?_writeField (fuel : Nat) (f : String × List Char) (rest : List Char) :
    fields? (fuel + 2) (writeField f ++ rest) =
      match skipBlank rest with
      | '}' :: rest => some ([textField f], rest)
      | ',' :: rest => (fields? (fuel + 1) (skipBlank rest)).map fun r => (textField f :: r.1, r.2)
      | _ => none := by
  have hquote (cs : List Char) : after? ['"'] ('"' :: cs) = some cs := by simp [after?]
  have hcolon (cs : List Char) : after? [':'] (':' :: cs) = some cs := by simp [after?]
  have hblank (cs : List Char) : skipBlank (':' :: cs) = ':' :: cs := skipBlank_cons rfl cs
  have hvalue : skipBlank (' ' :: (writeText f.2 ++ rest)) = writeText f.2 ++ rest := by
    simp [writeText, skipBlank, isBlank]
  rw [writeField_append, fields?]
  simp only [hquote, text?_escaped, hblank, hcolon, hvalue, value?_writeText, Option.bind_eq_bind,
    Option.bind_some]
  rfl

/-- The fields of an object between its braces. -/
def writeFields (fs : List (String × List Char)) : List Char :=
  ", ".toList.intercalate (fs.map writeField)

theorem writeFields_singleton (f : String × List Char) : writeFields [f] = writeField f := by
  simp [writeFields]

theorem writeFields_cons_cons (f g : String × List Char) (fs : List (String × List Char)) :
    writeFields (f :: g :: fs) = writeField f ++ ',' :: ' ' :: writeFields (g :: fs) := by
  simp [writeFields]

/-- Written fields begin with a quote. -/
theorem writeFields_cons_append (f : String × List Char) (fs : List (String × List Char))
    (rest : List Char) : ∃ cs, writeFields (f :: fs) ++ rest = '"' :: cs := by
  cases fs with
  | nil =>
    exact ⟨_, (congrArg (· ++ rest) (writeFields_singleton f)).trans (writeField_append f rest)⟩
  | cons g fs =>
    rw [writeFields_cons_cons, List.append_assoc, writeField_append]
    exact ⟨_, rfl⟩

theorem skipBlank_writeFields (f : String × List Char) (fs : List (String × List Char))
    (rest : List Char) :
    skipBlank (writeFields (f :: fs) ++ rest) = writeFields (f :: fs) ++ rest := by
  obtain ⟨cs, h⟩ := writeFields_cons_append f fs rest
  rw [h]
  exact skipBlank_cons rfl cs

/-- Fields are read up to the closing brace, by induction on them; each takes one step of fuel. -/
theorem fields?_writeFields (f : String × List Char) (fs : List (String × List Char)) (fuel : Nat)
    (hfuel : fs.length + 2 ≤ fuel) (rest : List Char) :
    fields? fuel (writeFields (f :: fs) ++ '}' :: rest) = some ((f :: fs).map textField, rest) := by
  induction fs generalizing f fuel with
  | nil =>
    obtain ⟨fuel, rfl⟩ := Nat.exists_eq_add_of_le' hfuel
    have hbrace : skipBlank ('}' :: rest) = '}' :: rest := skipBlank_cons rfl rest
    simp [writeFields_singleton, fields?_writeField, hbrace]
  | cons g fs ih =>
    obtain ⟨fuel, rfl⟩ : ∃ n, fuel = n + 2 := Nat.exists_eq_add_of_le' (by omega)
    have hcomma (cs : List Char) : skipBlank (',' :: cs) = ',' :: cs := skipBlank_cons rfl cs
    have hblank (cs : List Char) : skipBlank (' ' :: cs) = skipBlank cs := by
      simp [skipBlank, isBlank]
    have hrest := ih g (fuel + 1) (by simp at hfuel; omega)
    simp [writeFields_cons_cons, fields?_writeField, hcomma, hblank, skipBlank_writeFields, hrest]

theorem length_writeFields (f : String × List Char) (fs : List (String × List Char)) :
    fs.length ≤ (writeFields (f :: fs)).length := by
  induction fs generalizing f with
  | nil => simp
  | cons g fs ih =>
    have h := ih g
    simp only [writeFields_cons_cons, List.length_append, List.length_cons]
    omega

theorem value?_fields (fuel : Nat) (cs : List Char) :
    value? (fuel + 1) ('{' :: '"' :: cs) =
      (fields? fuel ('"' :: cs)).map fun r => (.object r.1, r.2) := by
  have hquote : skipBlank ('"' :: cs) = '"' :: cs := skipBlank_cons rfl cs
  simp [value?, hquote]

/-- A written object is read as its fields. -/
theorem parse?_writeTexts (fs : List (String × List Char)) :
    parse? (writeTexts fs) = some (.object (fs.map textField)) := by
  have hwritten : writeTexts fs = '{' :: (writeFields fs ++ ['}']) := rfl
  have hopening (cs : List Char) : skipBlank ('{' :: cs) = '{' :: cs := skipBlank_cons rfl cs
  cases fs with
  | nil => rfl
  | cons f fs =>
    obtain ⟨cs, hquote⟩ := writeFields_cons_append f fs ['}']
    have hlength := length_writeFields f fs
    have hfields := fields?_writeFields f fs (2 * (writeTexts (f :: fs)).length + 1)
      (by rw [hwritten]; simp only [List.length_cons, List.length_append]; omega) []
    rw [hwritten, hquote] at hfields
    rw [parse?, hwritten, hopening, hquote, value?_fields, hfields]
    rfl

/-- Among fields with different names, each is found by its name. -/
theorem field?_textField {fs : List (String × List Char)} (hnames : (fs.map Prod.fst).Nodup)
    {f : String × List Char} (hf : f ∈ fs) : field? (fs.map textField) f.1 = some (.text f.2) := by
  have hfind : (fs.reverse.map textField).find? (fun g => g.1 == f.1.toList) =
      some (textField f) := by
    rw [List.find?_map]
    rcases h : fs.reverse.find? ((fun g => g.1 == f.1.toList) ∘ textField) with _ | g
    · exact absurd (List.find?_eq_none.mp h f (List.mem_reverse.mpr hf)) (by simp [textField])
    · have hfound := List.find?_some h
      have hname : g.1.toList = f.1.toList := eq_of_beq hfound
      have hg : g ∈ fs := List.mem_reverse.mp (List.mem_of_find?_eq_some h)
      rw [h, List.inj_on_of_nodup_map hnames hg hf (String.toList_inj.mp hname)]
      rfl
  rw [field?, ← List.map_reverse, hfind]
  rfl

theorem isAscii_hexUnit (u : Nat) : IsAscii (hexUnit u) :=
  .cons (by decide) (.cons (by decide) (Hex.isAscii_encode _))

theorem isAscii_escape (c : Char) : IsAscii (escape c) := by
  unfold escape
  split
  · rename_i h
    rcases h with rfl | rfl <;> decide
  iterate 5
    split
    · decide
  split
  · rename_i h
    intro d hd
    obtain rfl := List.mem_singleton.mp hd
    omega
  split
  · exact isAscii_hexUnit _
  · exact (isAscii_hexUnit _).append (isAscii_hexUnit _)

theorem isAscii_writeText (s : List Char) : IsAscii (writeText s) :=
  (IsAscii.cons (by decide) (IsAscii.flatMap isAscii_escape s)).append (by decide)

theorem isAscii_writeField (f : String × List Char) : IsAscii (writeField f) :=
  ((isAscii_writeText _).append (by decide)).append (isAscii_writeText _)

theorem isAscii_writeFields (fs : List (String × List Char)) : IsAscii (writeFields fs) := by
  induction fs with
  | nil => decide
  | cons f fs ih =>
    cases fs with
    | nil =>
      rw [writeFields_singleton]
      exact isAscii_writeField f
    | cons g fs =>
      rw [writeFields_cons_cons]
      exact (isAscii_writeField f).append (.cons (by decide) (.cons (by decide) ih))

/-- Whatever characters the texts hold, the written object is ASCII. -/
theorem isAscii_writeTexts (fs : List (String × List Char)) : IsAscii (writeTexts fs) :=
  (IsAscii.cons (by decide) (isAscii_writeFields fs)).append (by decide)

end Json
end KeyAgreement
