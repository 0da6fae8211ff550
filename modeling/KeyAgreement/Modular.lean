/-! Powers, inverses and square roots of residues. -/
namespace KeyAgreement.Modular

/-- The residue of `b ^ k`, by repeated squaring. -/
def power (b : Int) (k m : Nat) : Int :=
  if k = 0 then 1 % m
  else
    let half := power b (k / 2) m
    let square := half * half % m
    if k % 2 = 1 then square * b % m else square
termination_by k

/-- Euclid's algorithm on the first two arguments, carrying along the factor of each remainder. -/
def bezout (r₀ r₁ : Nat) (s₀ s₁ : Int) : Nat × Int :=
  if r₁ = 0 then (r₀, s₀)
  else bezout r₁ (r₀ % r₁) s₁ (s₀ - (r₀ / r₁ : Nat) * s₁)
termination_by r₁
decreasing_by exact Nat.mod_lt _ (by omega)

/-- A residue whose product with `a` is one, if `a` is a unit modulo `m`. -/
def inverse (a : Int) (m : Nat) : Int :=
  (bezout m (a % m).toNat 0 1).2 % m

def isUnit (a : Int) (m : Nat) : Bool :=
  Int.gcd a m = 1

/-- The power with an exponent of either sign; negative ones need a unit. -/
def signedPower? (b k : Int) (m : Nat) : Option Int :=
  if 0 ≤ k then some (power b k.toNat m)
  else if isUnit b m then some (power (inverse b m) (-k).toNat m)
  else none

/-! Square roots of residues stand for those of the library for curves. Its callers rely on some
reduced root of every square being found, and on none being given for other residues. Here roots
are taken in a quadratic extension: if `t² - a` is no square, the power
`(t + √(t² - a)) ^ ((p + 1) / 2)` is a root of `a`. -/

/-- The number `u + v √w` for a `w` that is understood. -/
structure Surd where
  u : Int
  v : Int

namespace Surd

def mul (w : Int) (p : Nat) (x y : Surd) : Surd :=
  ⟨(x.u * y.u + x.v * y.v % p * w) % p, (x.u * y.v + x.v * y.u) % p⟩

def power (w : Int) (p : Nat) (x : Surd) (k : Nat) : Surd :=
  if k = 0 then ⟨1 % p, 0⟩
  else
    let half := power w p x (k / 2)
    let square := mul w p half half
    if k % 2 = 1 then mul w p square x else square
termination_by k

end Surd

/-- Euler's test for residues without a root. -/
def isNonsquare (a : Int) (p : Nat) : Bool :=
  power a ((p - 1) / 2) p = p - 1

/-- The first of `count` numbers from `t` on whose square differs from `a` by a nonsquare. -/
def offset? (a : Int) (p : Nat) : (count : Nat) → (t : Int) → Option Int
  | 0, _ => none
  | count + 1, t => if isNonsquare (t * t - a) p then some t else offset? a p count (t + 1)

/-- A root below the odd prime `p`, if there is one. -/
def squareRoot? (a : Int) (p : Nat) : Option Int :=
  if a % p = 0 then some 0
  else do
    let t ← offset? a p p 0
    let root := (Surd.power (t * t - a) p ⟨t, 1⟩ ((p + 1) / 2)).u
    if root * root % p = a % p then some root else none

theorem squareRoot?_sound {a r : Int} {p : Nat} (h : squareRoot? a p = some r) :
    r * r % p = a % p := by
  unfold squareRoot? at h
  split at h
  · rename_i zero
    cases h
    simp [zero]
  · obtain ⟨t, _, found⟩ := Option.bind_eq_some_iff.mp h
    dsimp only at found
    split at found
    · rename_i square
      cases found
      exact square
    · cases found

end KeyAgreement.Modular
