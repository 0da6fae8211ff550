import KeyAgreement.Modular

/-! Points of the curves `y² = x³ + a x + b` modulo a prime, and their chord-and-tangent law. The
program itself has none of this: it calls a library. All that it relies on is that addition is the
group law, and that scaling takes multiples of points that are not their own opposites and sends
the others to infinity. `Curve.Library` states these assumptions; the functions here are one way to
meet them. -/
namespace KeyAgreement

structure Curve where
  modulus : Nat
  a : Int
  b : Int
  deriving DecidableEq, Repr

/-- The point at infinity, or a pair of coordinates that need not be reduced. -/
inductive Point where
  | infinity
  | affine (x y : Int)
  deriving DecidableEq, Repr

namespace Curve

def rightSide (C : Curve) (x : Int) : Int :=
  (x * x * x + C.a * x + C.b) % C.modulus

def contains (C : Curve) (x y : Int) : Bool :=
  (y * y - (x * x * x + C.a * x + C.b)) % C.modulus = 0

/-- The third point on the line of the given slope through two points, reflected; the first point
and the second one's abscissa determine it. -/
def chord (C : Curve) (slope x₁ y₁ x₂ : Int) : Point :=
  let x := (slope * slope - x₁ - x₂) % C.modulus
  .affine x ((slope * (x₁ - x) - y₁) % C.modulus)

def add (C : Curve) : Point → Point → Point
  | .infinity, Q => Q
  | P, .infinity => P
  | .affine x₁ y₁, .affine x₂ y₂ =>
    let p := C.modulus
    if (x₁ - x₂) % p ≠ 0 then
      C.chord ((y₁ - y₂) * Modular.inverse (x₁ - x₂) p % p) x₁ y₁ x₂
    else if (y₁ - y₂) % p = 0 ∧ y₁ % p ≠ 0 then
      C.chord ((3 * x₁ * x₁ + C.a) * Modular.inverse (2 * y₁) p % p) x₁ y₁ x₂
    else .infinity

/-- The sum of `k` copies, by repeated doubling. -/
def repeated (C : Curve) (k : Nat) (P : Point) : Point :=
  if k = 0 then .infinity
  else
    let half := C.repeated (k / 2) P
    let double := C.add half half
    if k % 2 = 1 then C.add double P else double
termination_by k

/-- The point with reduced coordinates. -/
def reduced (C : Curve) : Point → Point
  | .infinity => .infinity
  | .affine x y => .affine (x % C.modulus) (y % C.modulus)

def neg (C : Curve) : Point → Point
  | .infinity => .infinity
  | .affine x y => .affine x (-y % C.modulus)

/-- Scalar multiplication, under which a point with zero ordinate goes to infinity, even by odd
scalars. The scalar one leaves points as they are written. -/
def scale (C : Curve) (k : Int) : Point → Point
  | .infinity => .infinity
  | .affine x y =>
    if y = 0 then .infinity
    else if k = 1 then .affine x y
    else if 0 ≤ k then C.repeated k.toNat (C.reduced (.affine x y))
    else C.repeated (-k).toNat (C.neg (C.reduced (.affine x y)))

@[simp] theorem infinity_add (C : Curve) (P : Point) : C.add .infinity P = P := by
  simp [add]

@[simp] theorem add_infinity (C : Curve) (P : Point) : C.add P .infinity = P := by
  cases P <;> simp [add]

@[simp] theorem repeated_zero (C : Curve) (P : Point) : C.repeated 0 P = .infinity := by
  simp [repeated]

@[simp] theorem repeated_one (C : Curve) (P : Point) : C.repeated 1 P = P := by
  simp [repeated]

/-- Points as decoding and arithmetic give them are multiplied by plain repetition, unless their
ordinate is zero. -/
theorem scale_of_reduced (C : Curve) {x y : Int} (k : Nat) (finite : y ≠ 0)
    (reduced : C.reduced (.affine x y) = .affine x y) :
    C.scale k (.affine x y) = C.repeated k (.affine x y) := by
  simp only [scale, finite, reduced, ↓reduceIte, Int.toNat_natCast, Int.natCast_nonneg]
  split
  · rename_i one
    rw [show k = 1 by omega, repeated_one]
  · rfl

end Curve
end KeyAgreement
