import Mathlib.Data.Int.ModEq
import Mathlib.Data.List.Induction
import Mathlib.Tactic.Positivity
import Mathlib.Tactic.Ring
import KeyAgreement.Octets

/-! Numbers and the octets that write them: a number below its bound is read back from its fixed
width. -/
namespace KeyAgreement

theorem natAbs_lt_two_pow_bitWidth (n : Int) : n.natAbs < 2 ^ bitWidth n := by
  unfold bitWidth
  split
  · simp_all
  · exact Nat.lt_log2_self

/-- A number other than zero has a one as its leading binary digit. -/
theorem two_pow_le_natAbs {n : Int} (hn : n ≠ 0) : 2 ^ (bitWidth n - 1) ≤ n.natAbs := by
  rw [bitWidth, if_neg hn, Nat.add_sub_cancel]
  exact Nat.log2_self_le (Int.natAbs_ne_zero.mpr hn)

theorem bitWidth_le (n : Int) : bitWidth n ≤ 8 * octetWidth n := by
  unfold octetWidth
  omega

namespace Octets

theorem value_ofNat (width n : Nat) : value (ofNat width n) = n % 256 ^ width := by
  induction width generalizing n with
  | zero => simp [ofNat, Nat.mod_one]
  | succ width ih =>
    have step : n % 256 ^ (width + 1) = n / 256 % 256 ^ width * 256 + n % 256 := by
      rw [Nat.pow_succ, Nat.mul_comm (256 ^ width) 256, Nat.mod_mul]
      omega
    rw [ofNat, value_concat, ih, step]
    simp

theorem natAbs_lt_width (n : Int) : n.natAbs < 256 ^ octetWidth n := by
  have step : 2 ^ bitWidth n ≤ 2 ^ (8 * octetWidth n) :=
    Nat.pow_le_pow_right (by omega) (bitWidth_le n)
  have bits := natAbs_lt_two_pow_bitWidth n
  rw [Nat.pow_mul] at step
  exact Nat.lt_of_lt_of_le bits step

/-- Reading the octets gives the number back. -/
theorem value_of_fixed {n bound : Int} {b : Octets} (h : fixed n bound = .ok b) :
    (b.value : Int) = n := by
  unfold fixed at h
  split at h
  · cases h
  · cases h
    have lt := natAbs_lt_width bound
    rw [value_ofNat, Nat.mod_eq_of_lt (by omega)]
    omega

/-- Octets are the digits of their value. -/
theorem ofNat_value (b : Octets) : ofNat b.length b.value = b := by
  induction b using List.reverseRecOn with
  | nil => rfl
  | append_singleton b x ih =>
    have hx := x.toNat_lt
    have hrest : (value b * 256 + x.toNat) / 256 = value b := by omega
    have hlast : UInt8.ofNat (value b * 256 + x.toNat) = x := by
      apply UInt8.toNat_inj.mp
      rw [UInt8.toNat_ofNat']
      omega
    rw [List.length_append, List.length_singleton, value_concat, ofNat, hrest, hlast, ih]

theorem value_lt (b : Octets) : value b < 256 ^ b.length := by
  have h := value_ofNat b.length b.value
  rw [ofNat_value] at h
  rw [h]
  exact Nat.mod_lt _ (by positivity)

theorem value_append (b c : Octets) : value (b ++ c) = value b * 256 ^ c.length + value c := by
  induction c using List.reverseRecOn with
  | nil => simp
  | append_singleton c x ih =>
    rw [← List.append_assoc, value_concat, value_concat, ih, List.length_append,
      List.length_singleton, Nat.pow_succ]
    ring

theorem value_cons (x : UInt8) (b : Octets) :
    value (x :: b) = x.toNat * 256 ^ b.length + value b := by
  rw [← List.singleton_append, value_append]
  simp [value]

end Octets
end KeyAgreement
