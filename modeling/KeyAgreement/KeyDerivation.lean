import KeyAgreement.Hash
import KeyAgreement.Value.Sequence

/-! Keyed hashing (HMAC), key derivation by extraction and expansion (HKDF), and session keys that
are stretched from an agreed value. -/
namespace KeyAgreement.HashFunction

/-- Keys longer than a block are hashed first; shorter ones are filled up with zeros. -/
def blockKey (h : HashFunction) (key : Octets) : Octets :=
  let short := if h.blockSize < key.length then h.digest key else key
  short ++ List.replicate (h.blockSize - short.length) 0

def hmac (h : HashFunction) (key message : Octets) : Octets :=
  let k := h.blockKey key
  h.digest (k.map (· ^^^ 0x5c) ++ h.digest (k.map (· ^^^ 0x36) ++ message))

/-- An empty salt stands for as many zeros as a digest is long. -/
def extract (h : HashFunction) (salt material : Octets) : Octets :=
  h.hmac (if salt.isEmpty then List.replicate h.digestSize 0 else salt) material

/-- `count` further blocks, each hashed from the block before, the info and a counter. -/
def expandBlocks (h : HashFunction) (key info : Octets) :
    (count : Nat) → (last : Octets) → UInt8 → Octets
  | 0, _, _ => []
  | count + 1, last, counter =>
    let block := h.hmac key (last ++ info ++ [counter])
    block ++ h.expandBlocks key info count block (counter + 1)

def expand (h : HashFunction) (key info : Octets) (length : Nat) : Octets :=
  (h.expandBlocks key info ((length + h.digestSize - 1) / h.digestSize) [] 1).take length

theorem length_expandBlocks (h : HashFunction) (key info : Octets) (count : Nat) (last : Octets)
    (counter : UInt8) :
    (h.expandBlocks key info count last counter).length = count * h.digestSize := by
  induction count generalizing last counter with
  | zero => simp [expandBlocks]
  | succ count ih => simp [expandBlocks, ih, hmac, Nat.succ_mul, Nat.add_comm]

theorem length_expand (h : HashFunction) (key info : Octets) (length : Nat) :
    (h.expand key info length).length = length := by
  rw [expand, List.length_take, length_expandBlocks, Nat.min_eq_left]
  have pos := h.digestSize_pos
  have := Nat.lt_div_mul_add (a := length + h.digestSize - 1) pos
  omega

end KeyAgreement.HashFunction

namespace KeyAgreement

def fixedOctets : Value → Except Fault Octets
  | .octets b => pure b
  | _ => throw .notFixedOctets

/-- Nothing and whatever has length zero is an empty salt; lists of numbers spell their octets. -/
def saltOctets (salt : Value) : Except Fault Octets :=
  match salt with
  | .nothing => pure []
  | v => do if (← v.length) = 0 then pure [] else v.spelled

/-- A negative length asks for nothing. -/
def sessionKeys (hash : HashFunction) (agreedValue info : Value) (length : Int) (salt : Value) :
    Except Fault Octets := do
  let material ← fixedOctets agreedValue
  let info ← fixedOctets info
  let key := hash.extract (← saltOctets salt) material
  if 255 * hash.digestSize < length then throw (.expansionTooLong hash.digestSize)
  pure (hash.expand key info length.toNat)

end KeyAgreement
