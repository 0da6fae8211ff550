import KeyAgreement.Octets

/-! Hash functions: any map to octets of a fixed number, and those of the standards. The latter pad
messages to whole blocks and cut them into those. -/
namespace KeyAgreement.Hash

/-- A one bit, zeros, and the message's length in bits, filling the last block of `size` octets
whose final `lengthSize` octets hold the length. -/
def padded (size lengthSize : Nat) (message : Octets) : Octets :=
  let used := message.length + 1 + lengthSize
  message ++ 128 :: List.replicate ((size - used % size) % size) 0
    ++ Octets.ofNat lengthSize (8 * message.length)

def blocks (size : Nat) (b : Octets) : List Octets :=
  (List.range (b.length / size)).map fun i => (b.drop (i * size)).take size

/-! The SHA-1 hash function. -/

/-- Five words of running state. -/
structure Sha1State where
  a : UInt32
  b : UInt32
  c : UInt32
  d : UInt32
  e : UInt32

namespace Sha1

def rotate (n : UInt32) (w : UInt32) : UInt32 := w <<< n ||| w >>> (32 - n)

/-- The round function and constant, which change every twenty rounds. -/
def mix (i : Nat) (b c d : UInt32) : UInt32 :=
  if i < 20 then (b &&& c ||| ~~~b &&& d) + 0x5a827999
  else if i < 40 then (b ^^^ c ^^^ d) + 0x6ed9eba1
  else if i < 60 then (b &&& c ||| b &&& d ||| c &&& d) + 0x8f1bbcdc
  else (b ^^^ c ^^^ d) + 0xca62c1d6

def round (st : Sha1State × List UInt32) (i : Nat) : Sha1State × List UInt32 :=
  let (s, window) := st
  match window with
  | w0 :: w1 :: rest =>
    let t := rotate 5 s.a + mix i s.b s.c s.d + s.e + w0
    let next := rotate 1 (rest.getD 11 w0 ^^^ rest.getD 6 w0 ^^^ rest.getD 0 w0 ^^^ w0)
    (⟨t, s.a, rotate 30 s.b, s.c, s.d⟩, w1 :: rest ++ [next])
  | _ => st

def compress (s : Sha1State) (block : Octets) : Sha1State :=
  let words := (blocks 4 block).map fun b => UInt32.ofNat b.value
  let t := ((List.range 80).foldl round (s, words)).1
  ⟨s.a + t.a, s.b + t.b, s.c + t.c, s.d + t.d, s.e + t.e⟩

def output (s : Sha1State) : Octets :=
  [s.a, s.b, s.c, s.d, s.e].flatMap fun w => Octets.ofNat 4 w.toNat

end Sha1

def sha1 (message : Octets) : Octets :=
  Sha1.output <| (blocks 64 (padded 64 8 message)).foldl Sha1.compress
    ⟨0x67452301, 0xefcdab89, 0x98badcfe, 0x10325476, 0xc3d2e1f0⟩

theorem length_sha1 (message : Octets) : (sha1 message).length = 20 := by
  simp [sha1, Sha1.output]

/-! The SHA-2 hash functions over 32-bit and 64-bit words. -/

/-- Eight words of running state. -/
structure Sha2State (Word : Type) where
  a : Word
  b : Word
  c : Word
  d : Word
  e : Word
  f : Word
  g : Word
  h : Word

/-- What distinguishes the word sizes: the mixing functions, the round constants, and the codec. -/
structure Sha2 (Word : Type) where
  wordSize : Nat
  bigSigma0 : Word → Word
  bigSigma1 : Word → Word
  smallSigma0 : Word → Word
  smallSigma1 : Word → Word
  constants : List Word
  ofNat : Nat → Word
  toNat : Word → Nat

namespace Sha2
variable {Word : Type} [Add Word] [AndOp Word] [XorOp Word] [Complement Word]

/-- One round on the state and the next sixteen schedule words, of which the first is used up. -/
@[specialize] def round (v : Sha2 Word) (st : Sha2State Word × List Word) (constant : Word) :
    Sha2State Word × List Word :=
  let (s, window) := st
  match window with
  | w0 :: w1 :: rest =>
    let choice := (s.e &&& s.f) ^^^ (~~~s.e &&& s.g)
    let majority := (s.a &&& s.b) ^^^ (s.a &&& s.c) ^^^ (s.b &&& s.c)
    let t1 := s.h + v.bigSigma1 s.e + choice + constant + w0
    let t2 := v.bigSigma0 s.a + majority
    let next := v.smallSigma1 (rest.getD 12 w0) + rest.getD 7 w0 + v.smallSigma0 w1 + w0
    (⟨t1 + t2, s.a, s.b, s.c, s.d + t1, s.e, s.f, s.g⟩, w1 :: rest ++ [next])
  | _ => st

@[specialize] def compress (v : Sha2 Word) (s : Sha2State Word) (block : Octets) : Sha2State Word :=
  let words := (blocks v.wordSize block).map fun b => v.ofNat b.value
  let t := (v.constants.foldl v.round (s, words)).1
  ⟨s.a + t.a, s.b + t.b, s.c + t.c, s.d + t.d, s.e + t.e, s.f + t.f, s.g + t.g, s.h + t.h⟩

def output (v : Sha2 Word) (s : Sha2State Word) : Octets :=
  [s.a, s.b, s.c, s.d, s.e, s.f, s.g, s.h].flatMap fun w => Octets.ofNat v.wordSize (v.toNat w)

@[specialize] def hash (v : Sha2 Word) (start : Sha2State Word) (message : Octets) : Octets :=
  let size := 16 * v.wordSize
  v.output ((blocks size (padded size (2 * v.wordSize) message)).foldl v.compress start)

omit [Add Word] [AndOp Word] [XorOp Word] [Complement Word] in
theorem length_output (v : Sha2 Word) (s : Sha2State Word) :
    (v.output s).length = 8 * v.wordSize := by
  simp only [output, List.length_flatMap, List.map_cons, List.map_nil, List.sum_cons, List.sum_nil,
    Octets.length_ofNat]
  omega

theorem length_hash (v : Sha2 Word) (start : Sha2State Word) (message : Octets) :
    (v.hash start message).length = 8 * v.wordSize :=
  length_output v _

end Sha2

def rotate32 (n : UInt32) (w : UInt32) : UInt32 := w >>> n ||| w <<< (32 - n)
def rotate64 (n : UInt64) (w : UInt64) : UInt64 := w >>> n ||| w <<< (64 - n)

def sha2Words32 : Sha2 UInt32 where
  wordSize := 4
  bigSigma0 w := rotate32 2 w ^^^ rotate32 13 w ^^^ rotate32 22 w
  bigSigma1 w := rotate32 6 w ^^^ rotate32 11 w ^^^ rotate32 25 w
  smallSigma0 w := rotate32 7 w ^^^ rotate32 18 w ^^^ w >>> 3
  smallSigma1 w := rotate32 17 w ^^^ rotate32 19 w ^^^ w >>> 10
  constants :=
  [0x428a2f98, 0x71374491, 0xb5c0fbcf, 0xe9b5dba5, 0x3956c25b, 0x59f111f1, 0x923f82a4, 0xab1c5ed5,
   0xd807aa98, 0x12835b01, 0x243185be, 0x550c7dc3, 0x72be5d74, 0x80deb1fe, 0x9bdc06a7, 0xc19bf174,
   0xe49b69c1, 0xefbe4786, 0x0fc19dc6, 0x240ca1cc, 0x2de92c6f, 0x4a7484aa, 0x5cb0a9dc, 0x76f988da,
   0x983e5152, 0xa831c66d, 0xb00327c8, 0xbf597fc7, 0xc6e00bf3, 0xd5a79147, 0x06ca6351, 0x14292967,
   0x27b70a85, 0x2e1b2138, 0x4d2c6dfc, 0x53380d13, 0x650a7354, 0x766a0abb, 0x81c2c92e, 0x92722c85,
   0xa2bfe8a1, 0xa81a664b, 0xc24b8b70, 0xc76c51a3, 0xd192e819, 0xd6990624, 0xf40e3585, 0x106aa070,
   0x19a4c116, 0x1e376c08, 0x2748774c, 0x34b0bcb5, 0x391c0cb3, 0x4ed8aa4a, 0x5b9cca4f, 0x682e6ff3,
   0x748f82ee, 0x78a5636f, 0x84c87814, 0x8cc70208, 0x90befffa, 0xa4506ceb, 0xbef9a3f7, 0xc67178f2]
  ofNat := UInt32.ofNat
  toNat := UInt32.toNat

def sha2Words64 : Sha2 UInt64 where
  wordSize := 8
  bigSigma0 w := rotate64 28 w ^^^ rotate64 34 w ^^^ rotate64 39 w
  bigSigma1 w := rotate64 14 w ^^^ rotate64 18 w ^^^ rotate64 41 w
  smallSigma0 w := rotate64 1 w ^^^ rotate64 8 w ^^^ w >>> 7
  smallSigma1 w := rotate64 19 w ^^^ rotate64 61 w ^^^ w >>> 6
  constants :=
  [0x428a2f98d728ae22, 0x7137449123ef65cd, 0xb5c0fbcfec4d3b2f, 0xe9b5dba58189dbbc,
   0x3956c25bf348b538, 0x59f111f1b605d019, 0x923f82a4af194f9b, 0xab1c5ed5da6d8118,
   0xd807aa98a3030242, 0x12835b0145706fbe, 0x243185be4ee4b28c, 0x550c7dc3d5ffb4e2,
   0x72be5d74f27b896f, 0x80deb1fe3b1696b1, 0x9bdc06a725c71235, 0xc19bf174cf692694,
   0xe49b69c19ef14ad2, 0xefbe4786384f25e3, 0x0fc19dc68b8cd5b5, 0x240ca1cc77ac9c65,
   0x2de92c6f592b0275, 0x4a7484aa6ea6e483, 0x5cb0a9dcbd41fbd4, 0x76f988da831153b5,
   0x983e5152ee66dfab, 0xa831c66d2db43210, 0xb00327c898fb213f, 0xbf597fc7beef0ee4,
   0xc6e00bf33da88fc2, 0xd5a79147930aa725, 0x06ca6351e003826f, 0x142929670a0e6e70,
   0x27b70a8546d22ffc, 0x2e1b21385c26c926, 0x4d2c6dfc5ac42aed, 0x53380d139d95b3df,
   0x650a73548baf63de, 0x766a0abb3c77b2a8, 0x81c2c92e47edaee6, 0x92722c851482353b,
   0xa2bfe8a14cf10364, 0xa81a664bbc423001, 0xc24b8b70d0f89791, 0xc76c51a30654be30,
   0xd192e819d6ef5218, 0xd69906245565a910, 0xf40e35855771202a, 0x106aa07032bbd1b8,
   0x19a4c116b8d2d0c8, 0x1e376c085141ab53, 0x2748774cdf8eeb99, 0x34b0bcb5e19b48a8,
   0x391c0cb3c5c95a63, 0x4ed8aa4ae3418acb, 0x5b9cca4f7763e373, 0x682e6ff3d6b2b8a3,
   0x748f82ee5defb2fc, 0x78a5636f43172f60, 0x84c87814a1f0ab72, 0x8cc702081a6439ec,
   0x90befffa23631e28, 0xa4506cebde82bde9, 0xbef9a3f7b2c67915, 0xc67178f2e372532b,
   0xca273eceea26619c, 0xd186b8c721c0c207, 0xeada7dd6cde0eb1e, 0xf57d4f7fee6ed178,
   0x06f067aa72176fba, 0x0a637dc5a2c898a6, 0x113f9804bef90dae, 0x1b710b35131c471b,
   0x28db77f523047d84, 0x32caab7b40c72493, 0x3c9ebe0a15c9bebc, 0x431d67c49c100d4c,
   0x4cc5d4becb3e42b6, 0x597f299cfc657e2a, 0x5fcb6fab3ad6faec, 0x6c44198c4a475817]
  ofNat := UInt64.ofNat
  toNat := UInt64.toNat

def sha224 (message : Octets) : Octets :=
  (sha2Words32.hash
    ⟨0xc1059ed8, 0x367cd507, 0x3070dd17, 0xf70e5939,
     0xffc00b31, 0x68581511, 0x64f98fa7, 0xbefa4fa4⟩ message).take 28

def sha256 (message : Octets) : Octets :=
  sha2Words32.hash
    ⟨0x6a09e667, 0xbb67ae85, 0x3c6ef372, 0xa54ff53a,
     0x510e527f, 0x9b05688c, 0x1f83d9ab, 0x5be0cd19⟩ message

def sha384 (message : Octets) : Octets :=
  List.take 48 (sha2Words64.hash
    ⟨0xcbbb9d5dc1059ed8, 0x629a292a367cd507, 0x9159015a3070dd17, 0x152fecd8f70e5939,
     0x67332667ffc00b31, 0x8eb44a8768581511, 0xdb0c2e0d64f98fa7, 0x47b5481dbefa4fa4⟩ message)

def sha512 (message : Octets) : Octets :=
  sha2Words64.hash
    ⟨0x6a09e667f3bcc908, 0xbb67ae8584caa73b, 0x3c6ef372fe94f82b, 0xa54ff53a5f1d36f1,
     0x510e527fade682d1, 0x9b05688c2b3e6c1f, 0x1f83d9abfb41bd6b, 0x5be0cd19137e2179⟩ message

theorem length_sha224 (message : Octets) : (sha224 message).length = 28 := by
  simp [sha224, Sha2.length_hash, sha2Words32]

theorem length_sha256 (message : Octets) : (sha256 message).length = 32 :=
  Sha2.length_hash _ _ _

theorem length_sha384 (message : Octets) : (sha384 message).length = 48 := by
  simp [sha384, Sha2.length_hash, sha2Words64]

theorem length_sha512 (message : Octets) : (sha512 message).length = 64 :=
  Sha2.length_hash _ _ _

end KeyAgreement.Hash

namespace KeyAgreement

/-- A hash function, with the sizes of its digests and of its blocks in octets. -/
structure HashFunction where
  name : String
  digestSize : Nat
  blockSize : Nat
  digest : Octets → Octets
  digestSize_pos : 0 < digestSize
  length_digest (message : Octets) : (digest message).length = digestSize

namespace HashFunction

attribute [simp] length_digest

def sha1 : HashFunction := ⟨"sha1", 20, 64, Hash.sha1, by decide, Hash.length_sha1⟩
def sha224 : HashFunction := ⟨"sha224", 28, 64, Hash.sha224, by decide, Hash.length_sha224⟩
def sha256 : HashFunction := ⟨"sha256", 32, 64, Hash.sha256, by decide, Hash.length_sha256⟩
def sha384 : HashFunction := ⟨"sha384", 48, 128, Hash.sha384, by decide, Hash.length_sha384⟩
def sha512 : HashFunction := ⟨"sha512", 64, 128, Hash.sha512, by decide, Hash.length_sha512⟩

end HashFunction
end KeyAgreement
