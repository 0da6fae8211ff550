import KeyAgreement.Octets

/-! Hexadecimal text: octets are written with two lower-case digits each, and read back with
either case and blanks between octets. -/
namespace KeyAgreement.Hex

/-- The lower-case digit for `n < 16`. -/
def digit (n : Nat) : Char :=
  if n < 10 then Char.ofNat (48 + n) else Char.ofNat (87 + n)

def digitValue? (c : Char) : Option Nat :=
  if '0' ≤ c ∧ c ≤ '9' then some (c.toNat - 48)
  else if 'a' ≤ c ∧ c ≤ 'f' then some (c.toNat - 87)
  else if 'A' ≤ c ∧ c ≤ 'F' then some (c.toNat - 55)
  else none

def encode (b : Octets) : List Char :=
  b.flatMap fun x => [digit (x.toNat / 16), digit (x.toNat % 16)]

/-- ASCII blanks: space, and the controls from tab to carriage return. -/
def isBlank (c : Char) : Bool :=
  c = ' ' || (9 ≤ c.toNat && c.toNat ≤ 13)

/-- Blanks may stand before and after an octet but not between its two digits. -/
def decode? : List Char → Option Octets
  | [] => some []
  | [c] => if isBlank c then some [] else none
  | c :: d :: rest =>
    if isBlank c then decode? (d :: rest)
    else do
      let high ← digitValue? c
      let low ← digitValue? d
      let tail ← decode? rest
      pure (UInt8.ofNat (high * 16 + low) :: tail)

@[simp] theorem encode_nil : encode [] = [] := rfl

@[simp] theorem encode_cons (x : UInt8) (b : Octets) :
    encode (x :: b) = digit (x.toNat / 16) :: digit (x.toNat % 16) :: encode b := rfl

theorem digitValue?_digit :
    ∀ n, n < 16 → digitValue? (digit n) = some n ∧ isBlank (digit n) = false := by
  decide

/-- Reading gives back what was written. -/
theorem decode?_encode (b : Octets) : decode? (encode b) = some b := by
  induction b with
  | nil => rfl
  | cons x b ih =>
    have hx : x.toNat < 256 := x.toNat_lt
    obtain ⟨high, blank⟩ := digitValue?_digit (x.toNat / 16) (by omega)
    obtain ⟨low, _⟩ := digitValue?_digit (x.toNat % 16) (by omega)
    have back : UInt8.ofNat (x.toNat / 16 * 16 + x.toNat % 16) = x := by
      rw [show x.toNat / 16 * 16 + x.toNat % 16 = x.toNat by omega]
      simp
    simp only [encode_cons, decode?, blank, high, low, ih, back, Bool.false_eq_true, ↓reduceIte,
      Option.pure_def, Option.bind_eq_bind, Option.bind_some]

end KeyAgreement.Hex
