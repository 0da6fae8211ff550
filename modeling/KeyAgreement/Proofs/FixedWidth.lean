import KeyAgreement.Octets.Hex
import KeyAgreement.Proofs.Loading
import Mathlib.Order.Bounds.Defs

/-! Numbers in fixed width: which numbers fit, how wide they are written, and that octets of one
length are in the order of the numbers they write. -/
namespace KeyAgreement
open Success

/-- A width is enough for a number exactly if the number is below the power of 256. -/
theorem octetWidth_le_iff {n : Int} {width : Nat} (hwidth : 1 ≤ width) :
    octetWidth n ≤ width ↔ n.natAbs < 256 ^ width := by
  constructor
  · intro h
    exact (Octets.natAbs_lt_width n).trans_le (Nat.pow_le_pow_right (by decide) h)
  · intro h
    by_cases hn : n = 0
    · rw [hn]
      exact hwidth
    · have hlt : 2 ^ (bitWidth n - 1) < 2 ^ (8 * width) := by
        rw [Nat.pow_mul]
        exact (two_pow_le_natAbs hn).trans_lt h
      have hbits := (Nat.pow_lt_pow_iff_right (by decide)).mp hlt
      unfold octetWidth
      omega

theorem octetWidth_isLeast {n : Int} (hn : 0 ≤ n) :
    IsLeast {width : Nat | 1 ≤ width ∧ n < 256 ^ width} (octetWidth n) := by
  have hcast (width : Nat) : n < 256 ^ width ↔ n.natAbs < 256 ^ width := by
    rw [← Int.ofNat_lt, Int.natAbs_of_nonneg hn, Nat.cast_pow]
    rfl
  constructor
  · exact ⟨octetWidth_pos n, (hcast _).mpr (Octets.natAbs_lt_width n)⟩
  · rintro width ⟨hwidth, hlt⟩
    exact (octetWidth_le_iff hwidth).mpr ((hcast width).mp hlt)

namespace Hex

/-- The hexadecimal digits of a number, with zeros before them up to the width. -/
def numeral (width n : Nat) : List Char :=
  List.replicate (width - (Nat.toDigits 16 n).length) '0' ++ Nat.toDigits 16 n

/-- The number that hexadecimal digits write, most significant first. -/
def number? (text : List Char) : Option Nat :=
  text.foldlM (fun n c => (digitValue? c).map (n * 16 + ·)) 0

theorem digitChar_eq_digit : ∀ d, d < 16 → Nat.digitChar d = digit d := by
  decide

theorem numeral_one {n : Nat} (hn : n < 16) : numeral 1 n = [digit n] := by
  simp [numeral, Nat.toDigits_of_lt_base hn, digitChar_eq_digit n hn]

/-- The last digit of a padded numeral is the remainder, and what stands before it is padded by one
less. -/
theorem numeral_succ {width : Nat} (hwidth : 1 ≤ width) (n : Nat) :
    numeral (width + 1) n = numeral width (n / 16) ++ [digit (n % 16)] := by
  unfold numeral
  rw [← digitChar_eq_digit _ (Nat.mod_lt n (by decide))]
  by_cases hn : n < 16
  · have hzeros : List.replicate width '0' = List.replicate (width - 1) '0' ++ ['0'] := by
      rw [← List.replicate_succ', Nat.sub_add_cancel hwidth]
    simp [Nat.toDigits_of_lt_base hn, Nat.div_eq_of_lt hn, Nat.mod_eq_of_lt hn, hzeros]
  · rw [Nat.toDigits_of_base_le (by decide) (by omega)]
    simp

@[simp] theorem encode_append (b c : Octets) : encode (b ++ c) = encode b ++ encode c := by
  simp [encode]

/-- The octets of a number are written with the digits of its numeral, two for each octet. -/
theorem encode_ofNat {width n : Nat} (hwidth : 1 ≤ width) (hn : n < 256 ^ width) :
    encode (Octets.ofNat width n) = numeral (2 * width) n := by
  have hpair {d : Nat} (hd : d < 256) :
      encode [UInt8.ofNat d] = [digit (d / 16), digit (d % 16)] := by
    simp [Nat.mod_eq_of_lt hd]
  induction width, hwidth using Nat.le_induction generalizing n with
  | base =>
    rw [Nat.mul_one, numeral_succ le_rfl, numeral_one (by omega)]
    exact hpair hn
  | succ width hwidth ih =>
    have hrest : n / 256 < 256 ^ width := by
      rw [Nat.div_lt_iff_lt_mul (by decide)]
      exact hn
    have hlast : UInt8.ofNat n = UInt8.ofNat (n % 256) := by
      apply UInt8.toNat_inj.mp
      simp
    have hhigh : n % 256 / 16 = n / 16 % 16 := by omega
    have hlow : n % 256 % 16 = n % 16 := by omega
    rw [Octets.ofNat, encode_append, ih hrest, hlast, hpair (Nat.mod_lt n (by decide)), hhigh, hlow,
      Nat.mul_add, Nat.mul_one, numeral_succ (by omega), numeral_succ (by omega),
      Nat.div_div_eq_div_mul, List.append_assoc]
    rfl

theorem number?_encode (b : Octets) : number? (encode b) = some b.value := by
  induction b using List.reverseRecOn with
  | nil => rfl
  | append_singleton b x ih =>
    have hx := x.toNat_lt
    obtain ⟨hhigh, -⟩ := digitValue?_digit (x.toNat / 16) (by omega)
    obtain ⟨hlow, -⟩ := digitValue?_digit (x.toNat % 16) (by omega)
    unfold number? at ih ⊢
    rw [encode_append, List.foldlM_append, ih, Octets.value_concat]
    simp only [encode_cons, encode_nil, List.foldlM_cons, List.foldlM_nil, hhigh, hlow,
      Option.map_some, Option.bind_eq_bind, Option.bind_some, Option.pure_def, Option.some.injEq]
    omega

end Hex

theorem Value.bigEndian_eq {v : Value} {b : Octets} (h : v.octets? = some b) :
    v.bigEndian = .ok b.value := by
  unfold bigEndian
  rw [contentOr_of_some h]
  rfl

namespace Octets
variable {n bound : Int}

theorem fixed_eq_error (h : n < 0 ∨ bound < n) : fixed n bound = .error (.doesNotFit n bound) := by
  unfold fixed
  rw [if_pos h]
  rfl

theorem fixed_eq_error_iff : fixed n bound = .error (.doesNotFit n bound) ↔ n < 0 ∨ bound < n := by
  constructor
  · intro h
    by_contra hfits
    rw [fixed_eq_ok (by omega) (by omega)] at h
    cases h
  · exact fixed_eq_error

/-- Octets of the width of a bound are what their value is written as, if it does not exceed the
bound. -/
theorem fixed_value {b : Octets} (hlength : b.length = octetWidth bound)
    (hvalue : (b.value : Int) ≤ bound) : fixed b.value bound = .ok b := by
  rw [fixed_eq_ok (by omega) hvalue, Int.toNat_natCast, ← hlength, ofNat_value]

/-- Octets of one length are in the order of their values. -/
theorem lt_iff_value_lt {b c : Octets} (hlength : b.length = c.length) :
    b < c ↔ b.value < c.value := by
  induction b generalizing c with
  | nil =>
    rw [List.eq_nil_of_length_eq_zero hlength.symm]
    simp
  | cons x b ih =>
    cases c with
    | nil => simp at hlength
    | cons y c =>
      have hlength : b.length = c.length := by simpa using hlength
      have hb := value_lt b
      have hc := value_lt c
      rw [List.cons_lt_cons_iff, ih hlength, value_cons, value_cons, UInt8.lt_iff_toNat_lt,
        ← UInt8.toNat_inj, hlength]
      rw [hlength] at hb
      generalize 256 ^ c.length = base at hb hc
      -- A larger leading octet outweighs whatever follows it.
      have hlead {k l : Nat} (h : k < l) : k * base + base ≤ l * base := by
        rw [← Nat.succ_mul]
        exact Nat.mul_le_mul_right base h
      constructor
      · intro h
        cases h with
        | inl hlt =>
          have := hlead hlt
          omega
        | inr hlt =>
          rw [hlt.1]
          omega
      · intro h
        rcases Nat.lt_trichotomy x.toNat y.toNat with hlt | heq | hgt
        · exact .inl hlt
        · rw [heq] at h
          exact .inr ⟨heq, by omega⟩
        · have := hlead hgt
          omega

/-- A number that fits is written as octets of the width of the bound, the least that is enough,
which are read as the number. They are those that its padded hexadecimal numeral spells. -/
structure Writes (n bound : Int) (b : Octets) : Prop where
  written : fixed n bound = .ok b
  length : b.length = octetWidth bound
  least : IsLeast {width : Nat | 1 ≤ width ∧ bound < 256 ^ width} (octetWidth bound)
  read {v : Value} : v.octets? = some b → v.bigEndian = .ok n.toNat
  spelled : Hex.decode? (Hex.numeral (2 * octetWidth bound) n.toNat) = some b
  digits : Hex.number? (Hex.encode b) = some n.toNat

theorem writes_of_fits (hlow : 0 ≤ n) (hhigh : n ≤ bound) :
    Writes n bound (ofNat (octetWidth bound) n.toNat) := by
  have hwritten := fixed_eq_ok hlow hhigh
  have hvalue : (ofNat (octetWidth bound) n.toNat).value = n.toNat := by
    have := value_of_fixed hwritten
    omega
  have hlt : n.toNat < 256 ^ octetWidth bound := by
    have := natAbs_lt_width bound
    omega
  exact {
    written := hwritten
    length := length_of_fixed hwritten
    least := octetWidth_isLeast (hlow.trans hhigh)
    read := fun hv => by rw [Value.bigEndian_eq hv, hvalue]
    spelled := by rw [← Hex.encode_ofNat (octetWidth_pos bound) hlt, Hex.decode?_encode]
    digits := by rw [Hex.number?_encode, hvalue] }

/-- Numbers up to a bound and no others are written, each as octets of one width that are read
back; all octets of the width whose value is up to the bound are what it is written as; and a
smaller number comes first in their order. -/
theorem fixed_width_exact (bound : Int) :
    (∀ n, Refuses (fixed n bound) .valueError (.doesNotFit n bound) ↔ n < 0 ∨ bound < n) ∧
    (∀ n, ¬ (n < 0 ∨ bound < n) → ∃ b, Writes n bound b) ∧
    (∀ (v : Value) (b : Octets), v.octets? = some b → b.length = octetWidth bound →
      ∃ k : Nat, v.bigEndian = .ok k ∧ (k ≤ bound → fixed k bound = .ok b)) ∧
    (∀ m n, 0 ≤ m → m < n → n ≤ bound → ∃ b c, Writes m bound b ∧ Writes n bound c ∧ b < c) := by
  refine ⟨fun n => (and_iff_left rfl).trans fixed_eq_error_iff, ?_, ?_, ?_⟩
  · intro n hfits
    exact ⟨_, writes_of_fits (by omega) (by omega)⟩
  · intro v b hv hlength
    exact ⟨b.value, Value.bigEndian_eq hv, fixed_value hlength⟩
  · intro m n hm hlt hn
    have hfirst : Writes m bound _ := writes_of_fits hm (by omega)
    have hsecond : Writes n bound _ := writes_of_fits (by omega) hn
    refine ⟨_, _, hfirst, hsecond, (lt_iff_value_lt (by simp)).mpr ?_⟩
    have hvalue := value_of_fixed hfirst.written
    have hvalue' := value_of_fixed hsecond.written
    omega

/-- Up to 65536 three octets are written: 255 comes before 256, and 65537 is refused. -/
theorem three_octets_fixed_width_exact :
    Refuses (fixed 65537 65536) .valueError (.doesNotFit 65537 65536) ∧
      (Value.buffer [1, 0, 0]).bigEndian = .ok 65536 ∧
      fixed 65536 65536 = .ok [1, 0, 0] ∧ Writes 255 65536 [0, 0, 255] ∧
        Writes 256 65536 [0, 1, 0] ∧
      ([0, 0, 255] : Octets) < [0, 1, 0] := by
  obtain ⟨hrefused, -, hread, horder⟩ := fixed_width_exact 65536
  obtain ⟨k, hk, hback⟩ := hread (.buffer [1, 0, 0]) [1, 0, 0] rfl (by decide)
  obtain rfl : k = 65536 := (Except.ok.inj hk).symm
  obtain ⟨b, c, hb, hc, hlt⟩ := horder 255 256 (by decide) (by decide) (by decide)
  obtain rfl : b = [0, 0, 255] := Except.ok.inj (hb.written.symm.trans (by decide))
  obtain rfl : c = [0, 1, 0] := Except.ok.inj (hc.written.symm.trans (by decide))
  exact ⟨(hrefused 65537).mpr (by decide), hk, hback (by decide), hb, hc, hlt⟩

end Octets
end KeyAgreement
