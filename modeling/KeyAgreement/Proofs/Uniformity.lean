import Mathlib.Data.Set.Card
import Mathlib.Tactic.Linarith
import KeyAgreement.Proofs.Draws
import KeyAgreement.Proofs.Radix

/-! Drawn numbers are uniform: of the replies that a draw may read, as many make it return one
number of its range as any other, and the rest make it read on. -/
namespace KeyAgreement

namespace Octets

/-- The octets whose value has the remainder `part.1` and the quotient `part.2` by a power of
two. -/
def ofParts (width bits : Nat) (part : Nat × Nat) : Octets :=
  ofNat width (part.1 + part.2 * 2 ^ bits)

variable {width bits : Nat}

theorem pow_split (hbits : bits ≤ 8 * width) : 256 ^ width = 2 ^ (8 * width - bits) * 2 ^ bits := by
  rw [← Nat.pow_add, Nat.sub_add_cancel hbits, Nat.pow_mul]

theorem value_ofParts (hbits : bits ≤ 8 * width) {part : Nat × Nat} (hlow : part.1 < 2 ^ bits)
    (hhigh : part.2 < 2 ^ (8 * width - bits)) :
    (ofParts width bits part).value = part.1 + part.2 * 2 ^ bits := by
  rw [ofParts, value_ofNat, Nat.mod_eq_of_lt]
  calc part.1 + part.2 * 2 ^ bits < (part.2 + 1) * 2 ^ bits := by linarith
    _ ≤ 2 ^ (8 * width - bits) * 2 ^ bits := Nat.mul_le_mul_right _ hhigh
    _ = 256 ^ width := (pow_split hbits).symm

/-- The octets of a length are spread evenly over the remainders of their values by a power of
two. -/
theorem ncard_value_mod_mem (hbits : bits ≤ 8 * width) {J : Finset Nat}
    (hJ : ∀ j ∈ J, j < 2 ^ bits) :
    {b : Octets | b.length = width ∧ b.value % 2 ^ bits ∈ J}.ncard =
      J.card * 2 ^ (8 * width - bits) := by
  let parts : Finset (Nat × Nat) := J ×ˢ Finset.range (2 ^ (8 * width - bits))
  have hlow {part : Nat × Nat} (h : part ∈ parts) : part.1 < 2 ^ bits :=
    hJ _ (Finset.mem_product.mp h).1
  have hvalue {part : Nat × Nat} (h : part ∈ parts) :
      (ofParts width bits part).value = part.1 + part.2 * 2 ^ bits :=
    value_ofParts hbits (hlow h) (Finset.mem_range.mp (Finset.mem_product.mp h).2)
  have hremainder {part : Nat × Nat} (h : part ∈ parts) :
      (ofParts width bits part).value % 2 ^ bits = part.1 := by
    rw [hvalue h, Nat.add_mul_mod_self_right, Nat.mod_eq_of_lt (hlow h)]
  have hquotient {part : Nat × Nat} (h : part ∈ parts) :
      (ofParts width bits part).value / 2 ^ bits = part.2 := by
    rw [hvalue h, Nat.add_mul_div_right _ _ (by positivity), Nat.div_eq_of_lt (hlow h),
      Nat.zero_add]
  have himage :
      {b : Octets | b.length = width ∧ b.value % 2 ^ bits ∈ J} = ofParts width bits '' parts := by
    ext b
    constructor
    · rintro ⟨hlength, hmem⟩
      have hlt := b.value_lt
      rw [hlength, pow_split hbits] at hlt
      refine ⟨(b.value % 2 ^ bits, b.value / 2 ^ bits), ?_, ?_⟩
      · exact Finset.mem_product.mpr
          ⟨hmem, Finset.mem_range.mpr (Nat.div_lt_of_lt_mul (by linarith))⟩
      · rw [ofParts, Nat.mod_add_div', ← hlength, ofNat_value]
    · rintro ⟨part, h, rfl⟩
      refine ⟨length_ofNat _ _, ?_⟩
      rw [hremainder h]
      exact (Finset.mem_product.mp h).1
  have hinj : Set.InjOn (ofParts width bits) parts := by
    intro part h part' h' heq
    apply Prod.ext
    · rw [← hremainder h, heq, hremainder h']
    · rw [← hquotient h, heq, hquotient h']
  rw [himage, hinj.ncard_image, Set.ncard_coe_finset, Finset.card_product, Finset.card_range]

end Octets

/-- The mask leaves as many binary digits of the leading octet as the other octets do not hold. -/
theorem leadMask_eq (bound : Int) :
    leadMask bound = 2 ^ (bitWidth bound - 8 * (octetWidth bound - 1)) - 1 := by
  have hpos := bitWidth_pos bound
  unfold leadMask octetWidth
  split
  · rw [show bitWidth bound - 8 * ((bitWidth bound + 7) / 8 - 1) = 8 by omega]
    rfl
  · rw [show bitWidth bound - 8 * ((bitWidth bound + 7) / 8 - 1) = bitWidth bound % 8 by omega,
      Nat.one_shiftLeft]

/-- The masked octet is the remainder of the leading one, and the octets after it stay. -/
theorem value_masked {bound : Int} {x : UInt8} {rest : Octets}
    (hlength : (x :: rest).length = octetWidth bound) :
    Octets.value ((x &&& UInt8.ofNat (leadMask bound)) :: rest) =
      Octets.value (x :: rest) % 2 ^ bitWidth bound := by
  have hrest : rest.length = octetWidth bound - 1 := by
    rw [← hlength, List.length_cons, Nat.add_sub_cancel]
  have hsplit :
      2 ^ bitWidth bound = 256 ^ rest.length * 2 ^ (bitWidth bound - 8 * rest.length) := by
    have := bitWidth_pos bound
    rw [show 256 = 2 ^ 8 by rfl, ← Nat.pow_mul, ← Nat.pow_add, Nat.add_sub_of_le]
    rw [hrest, octetWidth]
    omega
  have hmask : (x &&& UInt8.ofNat (leadMask bound)).toNat =
      x.toNat % 2 ^ (bitWidth bound - 8 * rest.length) := by
    rw [UInt8.toNat_and, UInt8.toNat_ofNat', Nat.mod_eq_of_lt (leadMask_lt bound), leadMask_eq,
      ← hrest, Nat.and_two_pow_sub_one_eq_mod]
  have hlow := Octets.value_lt rest
  rw [Octets.value_cons, Octets.value_cons, hmask, hsplit, Nat.mod_mul,
    Nat.add_comm (x.toNat * _), Nat.add_mul_mod_self_right, Nat.mod_eq_of_lt hlow,
    Nat.add_mul_div_right _ _ (by positivity), Nat.div_eq_of_lt hlow, Nat.zero_add]
  ring

/-- A draw stands for the last binary digits of its value, as many as the bound has. -/
theorem attempt_eq {start : Int} {bound : Nat} {draw : Octets}
    (hlength : draw.length = octetWidth bound) : attempt start bound draw =
      .ok (if draw.value % 2 ^ bitWidth bound < bound then
        some (start + (draw.value % 2 ^ bitWidth bound : Nat)) else none) := by
  have hpos := octetWidth_pos bound
  cases draw with
  | nil =>
    rw [List.length_nil] at hlength
    omega
  | cons x rest =>
    rw [attempt, maskLead_digits, Success.ok_bind, ofDigits_digits, Success.ok_bind,
      value_masked hlength]
    rfl

namespace Draw

/-- A source whose first reply is the draw. What it may reply after that is arbitrary. -/
def answering (draw : Octets) (later : List (Except Fault Octets)) : Source :=
  .scripted (.ok draw :: later)

/-- The first reply makes the draw return the number, and nothing else is read. -/
def Settles (m : Draw Int) (draw : Octets) (k : Int) : Prop :=
  ∀ later, m.Returns (answering draw later) k (.scripted later)

/-- After the first reply all is as if it had not come. -/
def PassesOver (m : Draw Int) (draw : Octets) : Prop :=
  ∀ later, m.run.run (answering draw later) = m.run.run (.scripted later)

variable {start stop : Int} {draw : Octets}

theorem range_run (hrange : start < stop) (s : Source) :
    (range start stop).run.run s = (belowFrom start (stop - start).toNat s.patience).run.run s := by
  unfold range
  rw [if_neg (by omega)]
  rfl

theorem octets_returns {count : Int} (hlength : draw.length = count)
    (later : List (Except Fault Octets)) :
    (octets count).Returns (answering draw later) draw (.scripted later) := by
  refine bind_returns.mpr ⟨draw, .scripted later, rfl, ?_⟩
  rw [if_neg (not_not_intro hlength)]
  exact pure_returns.mpr ⟨rfl, rfl⟩

/-- One try, and what becomes of the draw after it. -/
theorem range_answering (hrange : start < stop) (hlength : draw.length = octetWidth (stop - start))
    (later : List (Except Fault Octets)) :
    (range start stop).run.run (answering draw later) =
      match attempt start (stop - start).toNat draw with
      | .ok (some k) => (.ok k, .scripted later)
      | .ok none => (range start stop).run.run (.scripted later)
      | .error f => (.error f, .scripted later) := by
  have hbound : ((stop - start).toNat : Int) = stop - start := Int.toNat_of_nonneg (by omega)
  have hread := octets_returns (congrArg Nat.cast hlength) later
  rw [range_run hrange, range_run hrange]
  change (belowFrom start _ (later.length + 1 + 1)).run.run _ = _
  rw [belowFrom, hbound, hread.bind_run, Success.run_bind, Success.run_lift]
  rcases attempt start (stop - start).toNat draw with _ | _ | _ <;> rfl

section Tries
variable (hrange : start < stop) (hlength : draw.length = octetWidth (stop - start))
include hrange hlength

/-- With a draw of the size that the range needs a try is a number or none, and never fails. -/
theorem attempt_range_eq : attempt start (stop - start).toNat draw =
    .ok (if draw.value % 2 ^ bitWidth (stop - start) < (stop - start).toNat then
      some (start + (draw.value % 2 ^ bitWidth (stop - start) : Nat)) else none) := by
  have hbound : ((stop - start).toNat : Int) = stop - start := Int.toNat_of_nonneg (by omega)
  rw [attempt_eq (by rw [hbound, hlength]), hbound]

theorem attempt_eq_some {k : Int} : attempt start (stop - start).toNat draw = .ok (some k) ↔
    draw.value % 2 ^ bitWidth (stop - start) < (stop - start).toNat ∧
      start + (draw.value % 2 ^ bitWidth (stop - start) : Nat) = k := by
  rw [attempt_range_eq hrange hlength]
  split <;> simp_all

theorem settles_iff {k : Int} :
    (range start stop).Settles draw k ↔ attempt start (stop - start).toNat draw = .ok (some k) := by
  constructor
  · intro h
    have hrun := (range_answering hrange hlength []).symm.trans (h [])
    rcases htry : attempt start (stop - start).toNat draw with _ | _ | i
    · rw [htry] at hrun
      cases hrun
    · rw [htry, range_run hrange] at hrun
      cases hrun
    · rw [htry] at hrun
      cases hrun
      rfl
  · intro h later
    rw [Returns, range_answering hrange hlength, h]

theorem passesOver_of_attempt (h : attempt start (stop - start).toNat draw = .ok none) :
    (range start stop).PassesOver draw := by
  intro later
  rw [range_answering hrange hlength, h]

end Tries

/-- The replies of the length that draws below `stop - start` ask for. -/
def replies (start stop : Int) : Set Octets := {draw | draw.length = octetWidth (stop - start)}

/-- As many replies as there are settle the draw for the remainders in `J`. -/
theorem ncard_replies (hrange : start < stop) {J : Finset Nat}
    (hJ : ∀ j ∈ J, j < (stop - start).toNat) {settles : Octets → Prop}
    (h : ∀ draw ∈ replies start stop, settles draw ↔ draw.value % 2 ^ bitWidth (stop - start) ∈ J) :
    {draw ∈ replies start stop | settles draw}.ncard =
      J.card * 2 ^ (8 * octetWidth (stop - start) - bitWidth (stop - start)) := by
  have hset : {draw ∈ replies start stop | settles draw} = {draw : Octets |
      draw.length = octetWidth (stop - start) ∧ draw.value % 2 ^ bitWidth (stop - start) ∈ J} := by
    ext draw
    exact and_congr_right (h draw)
  have hlt := natAbs_lt_two_pow_bitWidth (stop - start)
  rw [hset]
  apply Octets.ncard_value_mod_mem (bitWidth_le (stop - start))
  intro j hj
  exact (hJ j hj).trans (by omega)

/-- At least half of all replies have a remainder below the bound. -/
theorem half_replies (hrange : start < stop) : 256 ^ octetWidth (stop - start) ≤
    2 * ((stop - start).toNat * 2 ^ (8 * octetWidth (stop - start) - bitWidth (stop - start))) := by
  have hhalf : 2 ^ (bitWidth (stop - start) - 1) ≤ (stop - start).toNat := by
    have := two_pow_le_natAbs (n := stop - start) (by omega)
    omega
  rw [Octets.pow_split (bitWidth_le (stop - start)), ← Nat.two_pow_pred_mul_two (bitWidth_pos _)]
  calc 2 ^ (8 * octetWidth (stop - start) - bitWidth (stop - start)) *
        (2 ^ (bitWidth (stop - start) - 1) * 2) =
      2 * (2 ^ (bitWidth (stop - start) - 1) *
        2 ^ (8 * octetWidth (stop - start) - bitWidth (stop - start))) := by ring
    _ ≤ _ := Nat.mul_le_mul_left 2 (Nat.mul_le_mul_right _ hhalf)

/-- Draws of the numbers from `start` up to `stop`, without it, that are uniform: each number has
the same weight among the replies that are asked for, the replies that give no number are passed
over, and they are half of all at most. No other number is ever returned. -/
structure UniformOn (m : Draw Int) (start stop : Int) : Prop where
  total : (replies start stop).ncard = 256 ^ octetWidth (stop - start)
  weight (k : Int) (hk : start ≤ k ∧ k < stop) :
    {draw ∈ replies start stop | m.Settles draw k}.ncard =
      2 ^ (8 * octetWidth (stop - start) - bitWidth (stop - start))
  others (draw : Octets) (hdraw : draw ∈ replies start stop)
    (hnone : ∀ k, start ≤ k ∧ k < stop → ¬ m.Settles draw k) : m.PassesOver draw
  half : 256 ^ octetWidth (stop - start) ≤
    2 * {draw ∈ replies start stop | ∃ k, m.Settles draw k}.ncard
  within (s s' : Source) (k : Int) (h : m.Returns s k s') : start ≤ k ∧ k < stop

theorem uniformOn_range (hrange : start < stop) : (range start stop).UniformOn start stop where
  total := by
    have h := Octets.ncard_value_mod_mem (Nat.zero_le (8 * octetWidth (stop - start)))
      (J := Finset.range 1) (by simp)
    simpa [replies, Nat.mod_one, Nat.pow_mul] using h
  weight k hk := by
    rw [ncard_replies hrange (J := {(k - start).toNat}), Finset.card_singleton, Nat.one_mul]
    · intro j hj
      rw [Finset.mem_singleton.mp hj]
      omega
    · intro draw hdraw
      rw [settles_iff hrange hdraw, attempt_eq_some hrange hdraw, Finset.mem_singleton]
      omega
  others draw hdraw hnone := by
    apply passesOver_of_attempt hrange hdraw
    rcases htry : attempt start (stop - start).toNat draw with _ | _ | k
    · rw [attempt_range_eq hrange hdraw] at htry
      cases htry
    · rfl
    · have hk := attempt_range htry
      exact absurd ((settles_iff hrange hdraw).mpr htry) (hnone k (by omega))
  half := by
    rw [ncard_replies hrange (J := Finset.range (stop - start).toNat), Finset.card_range]
    · exact half_replies hrange
    · intro j hj
      exact Finset.mem_range.mp hj
    · intro draw hdraw
      simp only [settles_iff hrange hdraw, attempt_eq_some hrange hdraw, Finset.mem_range,
        exists_and_left, exists_eq', and_true]
  within s s' k h := range_range h

/-- Numbers of a range are drawn uniformly, and so are the exponents from one up to a largest
one. -/
theorem drawn_numbers_uniform :
    (∀ start stop : Int, start < stop → (range start stop).UniformOn start stop) ∧
    (∀ max : Int, 1 ≤ max → (exponent max).UniformOn 1 (max + 1)) := by
  constructor
  · intro start stop hrange
    exact uniformOn_range hrange
  · intro max hmax
    exact uniformOn_range (by omega)

/-- With two octets for the numbers from -3 up to 297, each is drawn by 128 of 65536 replies.
Exponents up to 10 are drawn by 16 of 256, and the reply 31 is passed over. -/
theorem three_hundred_drawn_numbers_uniform : (-3 : Int) < 297 ∧ (1 : Int) ≤ 10 ∧
    (replies (-3) 297).ncard = 65536 ∧
    {draw ∈ replies (-3) 297 | (range (-3) 297).Settles draw 296}.ncard = 128 ∧
    {draw ∈ replies 1 11 | (exponent 10).Settles draw 10}.ncard = 16 ∧
    (exponent 10).PassesOver [31] := by
  obtain ⟨hrange, hexponent⟩ := drawn_numbers_uniform
  have hwide := hrange (-3) 297 (by decide)
  have hnarrow := hexponent 10 (by decide)
  have hpasses : (exponent 10).PassesOver [31] := by
    apply hnarrow.others _ rfl
    intro k hk hsettles
    have hless := (attempt_eq_some (by decide) rfl).mp ((settles_iff (by decide) rfl).mp hsettles)
    exact absurd hless.1 (by decide)
  exact ⟨by decide, by decide, hwide.total, hwide.weight 296 (by decide),
    hnarrow.weight 10 (by decide), hpasses⟩

end Draw
end KeyAgreement
