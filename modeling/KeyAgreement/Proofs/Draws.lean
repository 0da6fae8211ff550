import KeyAgreement.Proofs.Success
import KeyAgreement.Sampling

/-! What draws from a source have done when they return, whatever the source answers. -/
namespace KeyAgreement

namespace Draw
open Success
variable {α β : Type} {s s' : Source}

/-- The draw returns `a` and leaves the source as `s'`. -/
def Returns (m : Draw α) (s : Source) (a : α) (s' : Source) : Prop :=
  m.run.run s = (.ok a, s')

/-- What follows a draw that returns goes on with the source it leaves. -/
theorem Returns.bind_run {m : Draw α} {a : α} (h : m.Returns s a s') (f : α → Draw β) :
    (m >>= f).run.run s = (f a).run.run s' := by
  rw [run_bind, h]

theorem bind_returns {m : Draw α} {f : α → Draw β} {b : β} :
    (m >>= f).Returns s b s' ↔ ∃ a t, m.Returns s a t ∧ (f a).Returns t b s' := by
  unfold Returns
  rw [run_bind]
  rcases m.run.run s with ⟨e | a, t⟩
  · constructor
    · intro h
      cases h
    · rintro ⟨_, _, h, -⟩
      cases h
  · constructor
    · intro h
      exact ⟨a, t, rfl, h⟩
    · rintro ⟨_, _, h, hb⟩
      cases h
      exact hb

theorem pure_returns {a b : α} : (pure a : Draw α).Returns s b s' ↔ a = b ∧ s = s' := by
  constructor
  · intro h
    cases h
    exact ⟨rfl, rfl⟩
  · rintro ⟨rfl, rfl⟩
    rfl

/-- Steps that draw nothing leave the source alone. -/
theorem lift_returns {x : Except Fault α} {b : α} :
    (liftM x : Draw α).Returns s b s' ↔ x = .ok b ∧ s = s' := by
  rw [Returns, run_lift, Prod.mk.injEq]

end Draw

theorem attempt_range {start k : Int} {bound : Nat} {draw : Octets}
    (h : attempt start bound draw = .ok (some k)) : start ≤ k ∧ k < start + bound := by
  simp only [attempt, Success.bind_eq_ok, Success.pure_eq_ok] at h
  obtain ⟨_, -, candidate, -, h⟩ := h
  split at h
  · cases h
    omega
  · cases h

namespace Draw
variable {s s' : Source}

/-- However many tries are rejected, the number returned comes from one that is not. -/
theorem belowFrom_range {start k : Int} {bound tries : Nat}
    (h : (belowFrom start bound tries).Returns s k s') : start ≤ k ∧ k < start + bound := by
  induction tries generalizing s with
  | zero => cases h
  | succ tries ih =>
    rw [belowFrom, bind_returns] at h
    obtain ⟨draw, t, -, h⟩ := h
    obtain ⟨found, u, htry, h⟩ := bind_returns.mp h
    obtain ⟨hattempt, rfl⟩ := lift_returns.mp htry
    split at h
    · obtain ⟨rfl, -⟩ := pure_returns.mp h
      exact attempt_range hattempt
    · exact ih h

theorem range_range {start stop k : Int} (h : (range start stop).Returns s k s') :
    start ≤ k ∧ k < stop := by
  unfold range at h
  split at h
  · cases h
  · obtain ⟨_, _, -, h⟩ := bind_returns.mp h
    have := belowFrom_range h
    omega

theorem exponent_range {max k : Int} (h : (exponent max).Returns s k s') : 1 ≤ k ∧ k ≤ max := by
  have := range_range h
  omega

end Draw
end KeyAgreement
