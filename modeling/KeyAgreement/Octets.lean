import KeyAgreement.Fault

/-! Octet strings, their big-endian values, and the widths that numbers need. Numbers up to a bound
are written with as many octets as the bound needs. -/
namespace KeyAgreement

abbrev Octets := List UInt8

/-- The number of binary digits of the magnitude of `n`; zero has one. -/
def bitWidth (n : Int) : Nat :=
  if n = 0 then 1 else n.natAbs.log2 + 1

/-- The number of whole octets that `bitWidth n` digits fill. -/
def octetWidth (n : Int) : Nat :=
  (bitWidth n + 7) / 8

theorem bitWidth_pos (n : Int) : 0 < bitWidth n := by
  unfold bitWidth
  split <;> omega

theorem octetWidth_pos (n : Int) : 0 < octetWidth n := by
  have := bitWidth_pos n
  unfold octetWidth
  omega

namespace Octets

/-- The number that the octets write in base 256, most significant first. -/
def value (b : Octets) : Nat :=
  b.foldl (fun n x => n * 256 + x.toNat) 0

/-- The last `width` base-256 digits of a number, most significant first. -/
def ofNat : (width : Nat) → Nat → Octets
  | 0, _ => []
  | width + 1, n => ofNat width (n / 256) ++ [UInt8.ofNat n]

@[simp] theorem value_nil : value [] = 0 := rfl

@[simp] theorem value_concat (b : Octets) (x : UInt8) :
    value (b ++ [x]) = value b * 256 + x.toNat := by
  simp [value]

@[simp] theorem length_ofNat (width n : Nat) : (ofNat width n).length = width := by
  induction width generalizing n with
  | zero => rfl
  | succ width ih => simp [ofNat, ih]

/-- Octets of a text whose characters are all ASCII. -/
def ofAscii? (s : String) : Option Octets :=
  if s.toList.all (·.toNat < 128) then some (s.toList.map fun c => UInt8.ofNat c.toNat) else none

/-- The characters that ASCII octets stand for; none if an octet lies above 127. -/
def toAscii? (b : Octets) : Option (List Char) :=
  if b.all (· < 128) then some (b.map fun x => Char.ofNat x.toNat) else none

def fixed (n bound : Int) : Except Fault Octets :=
  if n < 0 ∨ bound < n then throw (.doesNotFit n bound)
  else pure (ofNat (octetWidth bound) n.toNat)

theorem fixed_eq_ok {n bound : Int} (nonneg : 0 ≤ n) (below : n ≤ bound) :
    fixed n bound = .ok (ofNat (octetWidth bound) n.toNat) := by
  rw [fixed, if_neg (by omega)]
  rfl

theorem length_of_fixed {n bound : Int} {b : Octets} (h : fixed n bound = .ok b) :
    b.length = octetWidth bound := by
  unfold fixed at h
  split at h
  · cases h
  · cases h
    simp

/-- Flips the lowest bit of one octet, as a forger on the line would; negative positions count from
the end. -/
def flipped (b : Octets) (position : Int) : Except Fault Octets :=
  if position < -b.length ∨ b.length ≤ position then throw .noSuchPosition
  else pure (b.modify (if position < 0 then position + b.length else position).toNat (· ^^^ 1))

end Octets
end KeyAgreement
