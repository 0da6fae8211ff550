import KeyAgreement.Entropy

/-! Uniform numbers below a bound, by masking octets to the bound's size and drawing again when the
number is too large. -/
namespace KeyAgreement

/-- The ones that the leading octet of a number of this size may have. -/
def leadMask (bound : Int) : Nat :=
  if bitWidth bound % 8 = 0 then 255 else (1 <<< (bitWidth bound % 8)) - 1

/-- The common ones of two numbers in endless two's complement. -/
def bitAnd : Int → Int → Int
  | .ofNat m, .ofNat n => (m &&& n : Nat)
  | .ofNat m, .negSucc n => (m - (m &&& n) : Nat)
  | .negSucc m, .ofNat n => (n - (n &&& m) : Nat)
  | .negSucc m, .negSucc n => Int.negSucc (m ||| n)

@[simp] theorem bitAnd_natCast (m n : Nat) : bitAnd m n = (m &&& n : Nat) := rfl

/-- The leading digit keeps the ones under the mask. -/
def maskLead (mask : Int) : List Int → Except Fault (List Int)
  | [] => throw .noDigits
  | d :: ds => pure (bitAnd mask d :: ds)

/-- Base-256 digits, most significant first, as a number. -/
def ofDigits (ds : List Int) : Except Fault Nat :=
  if ds.all fun d => 0 ≤ d && d < 256 then
    pure (Octets.value (ds.map fun d => UInt8.ofNat d.toNat))
  else throw .digitRange

def Octets.digits (b : Octets) : List Int :=
  b.map fun x => x.toNat

theorem leadMask_lt (bound : Int) : leadMask bound < 256 := by
  unfold leadMask
  split
  · decide
  · have : bitWidth bound % 8 ∈ List.range 8 := List.mem_range.mpr (Nat.mod_lt _ (by decide))
    exact (by decide : ∀ k ∈ List.range 8, 1 <<< k - 1 < 256) _ this

/-- Digits that stay below 256 under the mask are digits of octets. -/
theorem maskLead_digits (bound : Int) (x : UInt8) (b : Octets) :
    maskLead (leadMask bound) (Octets.digits (x :: b)) =
      .ok (Octets.digits ((x &&& UInt8.ofNat (leadMask bound)) :: b)) := by
  have lead : (x &&& UInt8.ofNat (leadMask bound)).toNat = leadMask bound &&& x.toNat := by
    rw [UInt8.toNat_and, UInt8.toNat_ofNat', Nat.mod_eq_of_lt (leadMask_lt bound), Nat.and_comm]
  simp [maskLead, Octets.digits, lead, pure, Except.pure]

theorem ofDigits_digits (b : Octets) : ofDigits b.digits = .ok b.value := by
  have small : b.digits.all fun d => 0 ≤ d && d < 256 := by
    rw [List.all_eq_true]
    intro d hd
    obtain ⟨x, _, rfl⟩ := List.mem_map.mp hd
    have := x.toNat_lt
    rw [Bool.and_eq_true, decide_eq_true_eq, decide_eq_true_eq]
    omega
  have octets : b.digits.map (fun d => UInt8.ofNat d.toNat) = b := by
    simp [Octets.digits, Function.comp_def]
  rw [ofDigits, if_pos small, octets]
  rfl

/-- One try: the number from `start` on that the draw stands for, if it is not too large. -/
def attempt (start : Int) (bound : Nat) (draw : Octets) : Except Fault (Option Int) := do
  let candidate ← ofDigits (← maskLead (leadMask bound) draw.digits)
  pure (if candidate < bound then some (start + candidate) else none)

namespace Draw

def belowFrom (start : Int) (bound : Nat) : (tries : Nat) → Draw Int
  | 0 => throw .drawsExhausted
  | tries + 1 => do
    match ← attempt start bound (← octets (octetWidth bound)) with
    | some k => pure k
    | none => belowFrom start bound tries

/-- A number from `start` up to `stop`, without it, all equally likely. -/
def range (start stop : Int) : Draw Int := do
  if stop - start ≤ 0 then throw (.emptyRange start stop)
  belowFrom start (stop - start).toNat (← get).patience

def exponent (max : Int) : Draw Int :=
  range 1 (max + 1)

end Draw
end KeyAgreement
