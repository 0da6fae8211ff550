import KeyAgreement.Proofs.PointMembership

/-! What curve groups rely on in the library that computes with points for them. The definitions
here are one library that does as much, and any other makes the same elements of a group and tests
them alike. -/
namespace KeyAgreement

/-- The functions that are called, and what is assumed of them: addition is the group law on points
with reduced coordinates, scaling takes multiples except that points of order two go to infinity,
and every reduced square has one of its reduced roots found. -/
structure Curve.Library (C : Curve) [Fact C.modulus.Prime] where
  add : Point → Point → Point
  scale : Int → Point → Point
  squareRoot? : Int → Option Int
  add_written (T U : C.equation.Point) : add (C.written T) (C.written U) = C.written (T + U)
  scale_written (k : Nat) {T : C.equation.Point} (hT : T = 0 ∨ T + T ≠ 0) :
    scale k (C.written T) = C.written (k • T)
  scale_of_double (k : Nat) {T : C.equation.Point} (hT : T + T = 0) :
    scale k (C.written T) = .infinity
  findsRoots : Modular.FindsRoots C.modulus squareRoot?

namespace Curve
variable {C : Curve} [hp : Fact C.modulus.Prime]

def library (odd : C.modulus ≠ 2) : C.Library where
  add := C.add
  scale := C.scale
  squareRoot? := fun t => Modular.squareRoot? t C.modulus
  add_written := C.add_written odd
  scale_written k := C.scale_written odd k
  scale_of_double k := C.scale_of_double odd k
  findsRoots := Modular.findsRoots_squareRoot? odd

namespace Library
variable (L L' : C.Library)

/-- Scaling a point of the group law gives another one. -/
theorem exists_scale (k : Nat) (T : C.equation.Point) :
    ∃ U, L.scale k (C.written T) = C.written U := by
  by_cases hdouble : T + T = 0
  · exact ⟨0, L.scale_of_double k hdouble⟩
  · exact ⟨k • T, L.scale_written k (Or.inr hdouble)⟩

theorem add_congr (T U : C.equation.Point) :
    L.add (C.written T) (C.written U) = L'.add (C.written T) (C.written U) := by
  rw [L.add_written, L'.add_written]

theorem scale_congr (k : Nat) (T : C.equation.Point) :
    L.scale k (C.written T) = L'.scale k (C.written T) := by
  by_cases hdouble : T + T = 0
  · rw [L.scale_of_double k hdouble, L'.scale_of_double k hdouble]
  · rw [L.scale_written k (Or.inr hdouble), L'.scale_written k (Or.inr hdouble)]

end Library
end Curve

namespace CurveGroup
variable {G : CurveGroup} [hp : Fact G.curve.modulus.Prime]

/-- All that the operations of a group make are points of the group law. -/
theorem exists_written_of_reachable (h : G.PrimeOrder) (hG : G.curve.Nonsingular) {x : Element}
    (hx : (Group.curve G).Reachable x) : ∃ T, x = G.element (G.curve.written T) := by
  have hodd := h.modulus_odd
  obtain ⟨B, hbase, -, horder⟩ := h.exists_base
  suffices hwritten : ∃ P : Point, x = G.element P ∧ ∃ T, P = G.curve.written T by
    obtain ⟨_, hx, T, rfl⟩ := hwritten
    exact ⟨T, hx⟩
  refine Group.exists_of_reachable (G := .curve G)
    (p := fun P : Point => ∃ T, P = G.curve.written T) h.order_pos ⟨0, rfl⟩ ⟨B, hbase⟩ ?_ ?_ ?_ ?_
    hx
  · intro i
    exact ⟨_, h.basePower_written hbase horder i⟩
  · intro b P hP
    obtain ⟨⟨x, y, rfl⟩, hpoint, -⟩ := encode_of_decode hodd hP
    obtain ⟨T, hT, -⟩ := exists_written hodd hG hpoint
    exact ⟨T, hT⟩
  · rintro _ _ ⟨T, rfl⟩ ⟨U, rfl⟩
    exact ⟨_, G.curve.add_written hodd T U⟩
  · rintro _ k ⟨T, rfl⟩
    exact (Curve.library hodd).exists_scale k T

/-- Whatever library computes with the points, the same octets are read as the same points, and all
elements that can be made are multiplied, raised to powers and tested alike. -/
theorem library_interchangeable (h : G.PrimeOrder) (hG : G.curve.Nonsingular)
    (L : G.curve.Library) :
    (∀ b, G.decodeWith L.squareRoot? b = G.decode b) ∧
    (∀ i : Int, L.scale (i.fmod G.subgroupOrder) G.base = G.basePower i) ∧
    (∀ P Q, (Group.curve G).Reachable (G.element P) → (Group.curve G).Reachable (G.element Q) →
      L.add P Q = G.mul P Q) ∧
    (∀ P (k : Nat), (Group.curve G).Reachable (G.element P) → L.scale k P = G.pow P k) ∧
    (∀ P (level : Int), (Group.curve G).Reachable (G.element P) → 2 ≤ level →
      (G.validate level P = true ↔ P ≠ .infinity ∧ L.scale G.subgroupOrder P = .infinity)) := by
  have hpoint {P : Point} (hP : (Group.curve G).Reachable (G.element P)) :
      ∃ T, P = G.curve.written T := by
    obtain ⟨T, hT⟩ := exists_written_of_reachable h hG hP
    cases hT
    exact ⟨T, rfl⟩
  have hscale (k : Nat) (T : G.curve.equation.Point) :
      L.scale k (G.curve.written T) = G.curve.scale k (G.curve.written T) :=
    L.scale_congr (Curve.library h.modulus_odd) k T
  refine ⟨?_, ?_, ?_, ?_, ?_⟩
  · intro b
    exact decodeWith_congr h.modulus_odd L.findsRoots
      (Modular.findsRoots_squareRoot? h.modulus_odd) b
  · intro i
    obtain ⟨B, hbase, -⟩ := h.exists_base
    have hnonneg := Int.emod_nonneg i h.order_pos.ne'
    rw [basePower, Int.fmod_eq_emod_of_nonneg _ h.order_pos.le, hbase,
      ← Int.toNat_of_nonneg hnonneg]
    exact hscale _ B
  · intro P Q hP hQ
    obtain ⟨T, rfl⟩ := hpoint hP
    obtain ⟨U, rfl⟩ := hpoint hQ
    exact L.add_congr (Curve.library h.modulus_odd) T U
  · intro P k hP
    obtain ⟨T, rfl⟩ := hpoint hP
    exact hscale k T
  · intro P level hP hlevel
    obtain ⟨T, rfl⟩ := hpoint hP
    rw [← Int.toNat_of_nonneg h.order_pos.le, hscale, Int.toNat_of_nonneg h.order_pos.le, Ne,
      G.curve.written_eq_infinity]
    by_cases hT : T = 0
    · subst hT
      simp [Curve.written, validate]
    · rw [validate_written_iff hlevel hT, and_iff_right hT]

end CurveGroup
end KeyAgreement
