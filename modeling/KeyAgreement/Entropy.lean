import KeyAgreement.Fault
import KeyAgreement.Hash

/-! Sources of octets, and draws from them. A keyed source reads one endless stream of digests; a
scripted one gives prepared replies, which need not have the length that was asked for. -/
namespace KeyAgreement

namespace Keystream

/-- One digest of the stream: of a label, the block's number and the seed. -/
def block (seed : Octets) (i : Nat) : Octets :=
  let label := s!"prng-{i}-"
  HashFunction.sha256.digest (label.toList.map (fun c => UInt8.ofNat c.toNat) ++ seed)

/-- The first `count` blocks. -/
def blocks (seed : Octets) (count : Nat) : Octets :=
  (List.range count).flatMap (block seed)

/-- The octets from `position` on, `count` of them. -/
def slice (seed : Octets) (position count : Nat) : Octets :=
  let first := position / 32
  let last := (position + count + 31) / 32
  (((List.range' first (last - first)).flatMap (block seed)).drop (position % 32)).take count

end Keystream

inductive Source where
  | keyed (seed : Octets) (position : Nat)
  | scripted (replies : List (Except Fault Octets))

/-- A computation that reads from a source. What was read stays read, even if the computation
fails. -/
abbrev Draw (α : Type) := ExceptT Fault (StateM Source) α

namespace Source

def read (count : Int) : Source → Except Fault Octets × Source
  | .keyed seed position =>
    (.ok (Keystream.slice seed position count.toNat), .keyed seed (position + count.toNat))
  | .scripted [] => (.error .entropyExhausted, .scripted [])
  | .scripted (reply :: replies) => (reply, .scripted replies)

/-- How many draws a sampler may make in a row, so that it ends. A scripted source runs dry before
that. A keyed source never does, and is given up after so many draws, of which at least every other
one is expected to do. -/
def patience : Source → Nat
  | .keyed _ _ => 4096
  | .scripted replies => replies.length + 1

end Source

namespace Draw

def read (count : Int) : Draw Octets :=
  ExceptT.mk fun s => s.read count

/-- Exactly as many octets as asked for. -/
def octets (count : Int) : Draw Octets := do
  let b ← read count
  if (b.length : Int) ≠ count then throw (.shortEntropy b.length count)
  pure b

end Draw
namespace Keystream

/-! The stream of a keyed source, made octet by octet: the next block is made when all of the last
one has been given. -/

theorem length_block (seed : Octets) (i : Nat) : (block seed i).length = 32 :=
  HashFunction.sha256.length_digest _

theorem block_ne_nil (seed : Octets) (i : Nat) : block seed i ≠ [] :=
  List.ne_nil_of_length_pos (by rw [length_block]; decide)

/-- A generator between two octets: the number of the block that it makes next, and what it has not
given of the last one. -/
structure Generator where
  seed : Octets
  counter : Nat
  rest : Octets

namespace Generator

def fresh (seed : Octets) : Generator :=
  ⟨seed, 0, []⟩

def next : StateM Generator UInt8 := fun g =>
  match g.rest with
  | x :: rest => (x, { g with rest })
  | [] =>
    let b := block g.seed g.counter
    (b.head (block_ne_nil g.seed g.counter), ⟨g.seed, g.counter + 1, b.tail⟩)

def octets : Nat → StateM Generator Octets
  | 0 => pure []
  | n + 1 => do
    let x ← next
    pure (x :: (← octets n))

/-- As many octets as asked for, or none if fewer than none are. -/
def call (count : Int) : StateM Generator Octets :=
  octets count.toNat

end Generator
end Keystream
end KeyAgreement
