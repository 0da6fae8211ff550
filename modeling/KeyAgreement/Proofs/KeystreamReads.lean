import KeyAgreement.Entropy
import KeyAgreement.Proofs.AsciiText
import KeyAgreement.Proofs.Consumption

/-! A keyed source is one stream of octets: however it is read, the answers joined are the stream's
beginning, and only the number of octets read says where it goes on. The generator that makes the
stream octet by octet answers alike. -/
namespace KeyAgreement
open Success

namespace Keystream

theorem isAscii_label (i : Nat) : IsAscii s!"prng-{i}-".toList := by
  have hnumber : IsAscii (toString i).toList := by
    intro c hc
    rw [Nat.toString_eq_repr, Nat.repr_eq_ofList_toDigits, String.toList_ofList] at hc
    have hdigit :=
      Char.isDigit_iff_toNat.mp (Nat.isDigit_of_mem_toDigits (by decide) (by decide) hc)
    exact hdigit.2.trans_lt (by decide)
  rw [String.toList_append, String.toList_append]
  exact (IsAscii.append (by decide) hnumber).append (by decide)

/-- The octet at a position of the stream. -/
def octet (seed : Octets) (position : Nat) : UInt8 :=
  (block seed (position / 32)).getD (position % 32) 0

variable (seed : Octets)

theorem block_eq_map (i : Nat) : block seed i = (List.range' (32 * i) 32).map (octet seed) := by
  apply List.ext_getElem
  · rw [length_block, List.length_map, List.length_range']
  · intro j hj _
    have hj' : j < 32 := by rwa [length_block] at hj
    have hblock : (32 * i + j) / 32 = i := by omega
    have hplace : (32 * i + j) % 32 = j := by omega
    rw [List.getElem_map, List.getElem_range', Nat.one_mul, octet, hblock, hplace,
      List.getD_eq_getElem?_getD, List.getElem?_eq_getElem hj, Option.getD_some]

/-- Blocks one after the other are the octets at their positions. -/
theorem flatMap_block (first count : Nat) : (List.range' first count).flatMap (block seed) =
    (List.range' (32 * first) (32 * count)).map (octet seed) := by
  induction count generalizing first with
  | zero => rfl
  | succ count ih =>
    rw [List.range'_succ, List.flatMap_cons, ih, block_eq_map, ← List.map_append, Nat.mul_add,
      Nat.mul_one, List.range'_append_1, Nat.mul_add, Nat.mul_one, Nat.add_comm 32]

/-- Whichever blocks it is cut from, a slice has the octets at its positions. -/
theorem slice_eq_map (position count : Nat) :
    slice seed position count = (List.range' position count).map (octet seed) := by
  let first := position / 32
  let last := (position + count + 31) / 32
  have hstart : 32 * first + position % 32 = position := Nat.div_add_mod position 32
  have hlong : count ≤ 32 * (last - first) - position % 32 := by omega
  have hblocks : (List.range' (32 * first) (32 * (last - first))).drop (position % 32) =
      List.range' position count ++
        List.range' (position + count) (32 * (last - first) - position % 32 - count) := by
    rw [List.drop_range', Nat.mul_one, hstart, List.range'_append_1, Nat.add_sub_cancel' hlong]
  change
    (((List.range' first (last - first)).flatMap (block seed)).drop (position % 32)).take count = _
  rw [flatMap_block, ← List.map_drop, ← List.map_take, hblocks,
    List.take_left' (List.length_range')]

theorem length_slice (position count : Nat) : (slice seed position count).length = count := by
  rw [slice_eq_map, List.length_map, List.length_range']

theorem slice_succ (position count : Nat) :
    slice seed position (count + 1) = octet seed position :: slice seed (position + 1) count := by
  rw [slice_eq_map, slice_eq_map, List.range'_succ, List.map_cons]

theorem block_eq_slice (i : Nat) : block seed i = slice seed (32 * i) 32 := by
  rw [block_eq_map, slice_eq_map]

/-- Two reads give what one read of as many octets gives. -/
theorem slice_append (position m n : Nat) :
    slice seed position m ++ slice seed (position + m) n = slice seed position (m + n) := by
  simp only [slice_eq_map, ← List.map_append, List.range'_append_1]

/-- The stream begins with its blocks. -/
theorem slice_zero {count n : Nat} (h : count ≤ 32 * n) :
    slice seed 0 count = (blocks seed n).take count := by
  have hblocks : blocks seed n = slice seed 0 (32 * n) := by
    rw [blocks, List.range_eq_range', flatMap_block, slice_eq_map, Nat.mul_zero]
  rw [hblocks, ← Nat.add_sub_cancel' h, ← slice_append, List.take_left' (length_slice ..)]

/-- How many octets are asked for in all. A negative request asks for none. -/
def requested (counts : List Int) : Nat :=
  (counts.map Int.toNat).sum

theorem requested_cons (count : Int) (counts : List Int) :
    requested (count :: counts) = count.toNat + requested counts := by
  rw [requested, List.map_cons, List.sum_cons, requested]

/-- The pieces of the stream that requests get from a position on. -/
def pieces : Nat → List Int → List Octets
  | _, [] => []
  | position, count :: counts =>
      slice seed position count.toNat :: pieces (position + count.toNat) counts

theorem map_length_pieces (position : Nat) (counts : List Int) :
    (pieces seed position counts).map List.length = counts.map Int.toNat := by
  induction counts generalizing position with
  | nil => rfl
  | cons count counts ih => rw [pieces, List.map_cons, List.map_cons, length_slice, ih]

theorem flatten_pieces (position : Nat) (counts : List Int) :
    (pieces seed position counts).flatten = slice seed position (requested counts) := by
  induction counts generalizing position with
  | nil => exact (List.eq_nil_of_length_eq_zero (length_slice seed position 0)).symm
  | cons count counts ih => rw [pieces, List.flatten_cons, ih, slice_append, requested_cons]

namespace Generator

theorem next_of_cons {g : Generator} {x : UInt8} {rest : Octets} (h : g.rest = x :: rest) :
    next.run g = (x, ⟨g.seed, g.counter, rest⟩) := by
  obtain ⟨seed, counter, _⟩ := g
  cases h
  rfl

theorem next_of_nil {g : Generator} {x : UInt8} {rest : Octets} (hrest : g.rest = [])
    (hblock : block g.seed g.counter = x :: rest) :
    next.run g = (x, ⟨g.seed, g.counter + 1, rest⟩) := by
  obtain ⟨seed, counter, _⟩ := g
  cases hrest
  change
    ((block seed counter).head _, Generator.mk seed (counter + 1) (block seed counter).tail) = _
  simp only [hblock, List.head_cons, List.tail_cons]

/-- A generator that has given so many octets. It has made all blocks that it has begun to give. -/
def after (position : Nat) : Generator :=
  ⟨seed, (position + 31) / 32, slice seed position (32 * ((position + 31) / 32) - position)⟩

/-- One octet further, within a block or at the beginning of the next one. -/
theorem run_next (position : Nat) :
    next.run (after seed position) = (octet seed position, after seed (position + 1)) := by
  by_cases hstart : position % 32 = 0
  · have hmade : (position + 31) / 32 = position / 32 := by omega
    have hmake : (position + 1 + 31) / 32 = position / 32 + 1 := by omega
    have hrest : (after seed position).rest = [] := by
      have hnone : 32 * (position / 32) - position = 0 := by omega
      rw [after, hmade, hnone]
      exact List.eq_nil_of_length_eq_zero (length_slice ..)
    have hblock :
        block seed (position / 32) = octet seed position :: slice seed (position + 1) 31 := by
      rw [block_eq_slice, Nat.mul_div_cancel' (Nat.dvd_of_mod_eq_zero hstart), slice_succ]
    have hleft : 32 * (position / 32 + 1) - (position + 1) = 31 := by omega
    rw [next_of_nil hrest (hmade ▸ hblock), after, after, hmade, hmake, hleft]
  · have hmade : (position + 1 + 31) / 32 = (position + 31) / 32 := by omega
    have hleft :
        32 * ((position + 31) / 32) - position =
          32 * ((position + 31) / 32) - (position + 1) + 1 := by omega
    have hrest : (after seed position).rest =
        octet seed position ::
          slice seed (position + 1) (32 * ((position + 31) / 32) - (position + 1)) := by
      rw [after, hleft, slice_succ]
    rw [next_of_cons hrest, after, after, hmade]

theorem bind_run {α β : Type} {m : StateM Generator α} {f : α → StateM Generator β}
    {g g' : Generator} {a : α} (h : m.run g = (a, g')) : (m >>= f).run g = (f a).run g' := by
  rw [StateT.run_bind, h]
  rfl

theorem run_octets (position count : Nat) :
    (octets count).run (after seed position) =
      (slice seed position count, after seed (position + count)) := by
  induction count generalizing position with
  | zero =>
    rw [List.eq_nil_of_length_eq_zero (length_slice seed position 0)]
    rfl
  | succ count ih =>
    rw [octets, bind_run (run_next seed position), bind_run (ih (position + 1)), slice_succ,
      Nat.add_right_comm, Nat.add_assoc]
    rfl

/-- One call after the other takes piece after piece. -/
theorem run_calls (position : Nat) (counts : List Int) :
    (counts.mapM call).run (after seed position) =
      (pieces seed position counts, after seed (position + requested counts)) := by
  induction counts generalizing position with
  | nil => rfl
  | cons count counts ih =>
    rw [List.mapM_cons, call, bind_run (run_octets seed position count.toNat), bind_run (ih _),
      requested_cons, ← Nat.add_assoc]
    rfl

end Generator
end Keystream

namespace Draw
open Keystream
variable (seed : Octets)

/-- One read after the other takes piece after piece. -/
theorem run_reads (position : Nat) (counts : List Int) :
    (counts.mapM read).run.run (.keyed seed position) =
      (.ok (pieces seed position counts), .keyed seed (position + requested counts)) := by
  induction counts generalizing position with
  | nil => rfl
  | cons count counts ih =>
    rw [List.mapM_cons, run_bind, run_read]
    simp only [Source.read, run_bind, ih, requested_cons, Nat.add_assoc]
    rfl

/-- Of a keyed source there are always as many octets as asked for, unless fewer than none. -/
theorem run_octets_keyed {count : Int} (hcount : 0 ≤ count) (position : Nat) :
    (octets count).run.run (.keyed seed position) =
      (read count).run.run (.keyed seed position) := by
  rw [run_octets, run_read]
  simp only [Source.read, length_slice, Int.toNat_of_nonneg hcount, if_true]

theorem run_reads_checked {counts : List Int} (hcounts : ∀ count ∈ counts, 0 ≤ count)
    (position : Nat) :
    (counts.mapM octets).run.run (.keyed seed position) =
      (counts.mapM read).run.run (.keyed seed position) := by
  induction counts generalizing position with
  | nil => rfl
  | cons count counts ih =>
    obtain ⟨hcount, hcounts⟩ := List.forall_mem_cons.mp hcounts
    simp only [List.mapM_cons, run_bind, run_octets_keyed seed hcount, run_read, Source.read,
      ih hcounts]

/-- What a source that is fresh from its seed answers to requests made one after the other: each
time as many octets as are asked for, none if fewer than none are, and joined the beginning of the
stream. The total says where it goes on. A generator answers and goes on alike. -/
structure StreamAnswers (seed : Octets) (counts : List Int) (answers : List Octets) : Prop where
  run : (counts.mapM read).run.run (.keyed seed 0) = (.ok answers, .keyed seed (requested counts))
  generated :
    (counts.mapM Generator.call).run (.fresh seed) = (answers, .after seed (requested counts))
  lengths : answers.map List.length = counts.map Int.toNat
  joined {n : Nat} :
    requested counts ≤ 32 * n → answers.flatten = (blocks seed n).take (requested counts)
  checked : (∀ count ∈ counts, 0 ≤ count) →
    (counts.mapM octets).run.run (.keyed seed 0) = (.ok answers, .keyed seed (requested counts))

theorem answers_pieces (counts : List Int) : StreamAnswers seed counts (pieces seed 0 counts) := by
  have hrun := run_reads seed 0 counts
  -- A fresh generator has given nothing.
  have hgenerated : (counts.mapM Generator.call).run (.fresh seed) = _ :=
    Generator.run_calls seed 0 counts
  rw [Nat.zero_add] at hrun hgenerated
  exact {
    run := hrun
    generated := hgenerated
    lengths := map_length_pieces seed 0 counts
    joined := fun h => by rw [flatten_pieces, slice_zero seed h]
    checked := fun hcounts => by rw [run_reads_checked seed hcounts, hrun] }

/-- The stream is made of the digests of numbered labels before the seed. The answers to any
requests are what it begins with, cut to their sizes, and requests with one total get the same
octets and leave the source, or the generator, in the same place. -/
theorem reads_follow_stream :
    (∀ i : Nat, ∃ label, Octets.ofAscii? s!"prng-{i}-" = some label ∧
      block seed i = HashFunction.sha256.digest (label ++ seed)) ∧
    (∀ counts, ∃ answers, StreamAnswers seed counts answers) ∧
    ∀ counts counts', requested counts = requested counts' →
      ∃ (answers answers' : List Octets) (t : Source) (g : Generator),
      (counts.mapM read).run.run (.keyed seed 0) = (.ok answers, t) ∧
      (counts'.mapM read).run.run (.keyed seed 0) = (.ok answers', t) ∧
      (counts.mapM Generator.call).run (.fresh seed) = (answers, g) ∧
      (counts'.mapM Generator.call).run (.fresh seed) = (answers', g) ∧
      answers.flatten = answers'.flatten := by
  refine ⟨?_, fun counts => ⟨_, answers_pieces seed counts⟩, ?_⟩
  · intro i
    exact ⟨_, Octets.ofAscii?_eq_ofText (isAscii_label i), rfl⟩
  · intro counts counts' htotal
    have hrun := (answers_pieces seed counts).run
    have hgenerated := (answers_pieces seed counts).generated
    have hanswers' := answers_pieces seed counts'
    rw [htotal] at hrun hgenerated
    refine ⟨_, _, _, _, hrun, hanswers'.run, hgenerated, hanswers'.generated, ?_⟩
    rw [flatten_pieces, flatten_pieces, htotal]

/-- The second octet of the third answer comes from the second block. -/
theorem four_requests_reads_follow_stream :
    (∃ answers, StreamAnswers [115] [31, -2, 2, 0] answers ∧
      answers.map List.length = [31, 0, 2, 0] ∧
      answers.flatten = (blocks [115] 2).take 33) ∧
    requested [31, -2, 2, 0] = requested [33] ∧
    ∃ (answers answers' : List Octets) (t : Source) (g : Generator),
      ([31, -2, 2, 0].mapM read).run.run (.keyed [115] 0) = (.ok answers, t) ∧
      ([33].mapM read).run.run (.keyed [115] 0) = (.ok answers', t) ∧
      ([31, -2, 2, 0].mapM Generator.call).run (.fresh [115]) = (answers, g) ∧
      ([33].mapM Generator.call).run (.fresh [115]) = (answers', g) ∧
      answers.flatten = answers'.flatten := by
  obtain ⟨-, hanswers, hsplits⟩ := reads_follow_stream [115]
  obtain ⟨answers, h⟩ := hanswers [31, -2, 2, 0]
  have htotal : requested [31, -2, 2, 0] = requested [33] := by decide
  exact ⟨⟨answers, h, h.lengths, h.joined (by decide)⟩, htotal, hsplits _ _ htotal⟩

end Draw
end KeyAgreement
