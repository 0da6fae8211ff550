import KeyAgreement.Group.Operand

/-! Hashes over the public keys of an agreement. -/
namespace KeyAgreement

/-- The four public keys, in the order in which they are hashed. -/
structure Transcript where
  initiatorEphemeral : Octets
  responderEphemeral : Octets
  initiatorStatic : Octets
  responderStatic : Octets
  deriving DecidableEq, Repr

namespace Transcript
variable (t : Transcript)

def ofValues (X Y A B : Value) : Except Fault Transcript := do
  pure ⟨← X.content, ← Y.content, ← A.content, ← B.content⟩

/-- The keys without separators. -/
def octets : Octets :=
  t.initiatorEphemeral ++ t.responderEphemeral ++ t.initiatorStatic ++ t.responderStatic

/-- What the agreed value is a hash of: the encoded shared element before the keys. -/
def keyInput (shared : Octets) : Octets :=
  shared ++ t.octets

/-- The keys with the ephemeral ones in the other order. -/
def exchanged : Transcript :=
  { t with
    initiatorEphemeral := t.responderEphemeral
    responderEphemeral := t.initiatorEphemeral }

end Transcript

/-- Half the binary digits of the subgroup order, rounded up to whole octets. -/
def challengeWidth (q : Int) : Nat :=
  ((bitWidth q + 1) / 2 + 7) / 8

/-- The octets up to a length; a negative length counts from the end. -/
def cut (b : Octets) (length : Int) : Octets :=
  if 0 ≤ length then b.take length.toNat else b.take (b.length - length.natAbs)

/-- A group with the hash function used in it, whichever parameter set they come from. -/
structure Suite where
  group : Group
  hash : HashFunction

namespace Suite
variable (H : Suite)

def digestSize : Nat := H.hash.digestSize

def challengeWidth : Nat := KeyAgreement.challengeWidth H.group.subgroupOrder

def checkLength (length : Int) : Except Fault Unit :=
  if H.digestSize < length then throw (.digestTooShort length H.digestSize) else pure ()

def challenge (t : Transcript) : Octets :=
  cut (H.hash.digest t.octets) H.challengeWidth

def key (shared : Octets) (t : Transcript) (length : Int) : Octets :=
  cut (H.hash.digest (t.keyInput shared)) length

/-- A transcript whose challenges the digest is long enough for. The length is checked before the
keys are looked at. -/
def openTranscript (X Y A B : Value) : Except Fault Transcript := do
  H.checkLength H.challengeWidth
  Transcript.ofValues X Y A B

def challengeDigest (X Y A B : Value) : Except Fault Octets := do
  pure (H.challenge (← H.openTranscript X Y A B))

/-- The whole digest unless a length is given. -/
def keyDigest (shared X Y A B : Value) (length? : Option Int) : Except Fault Octets := do
  let encoded ← H.group.encodeValue shared
  let length := length?.getD H.digestSize
  H.checkLength length
  pure (H.key encoded (← Transcript.ofValues X Y A B) length)

end Suite

def Parameters.suite (P : Parameters) : Suite := ⟨P.group, P.hash⟩

theorem cut_length (b : Octets) : cut b b.length = b := by
  simp [cut]

end KeyAgreement
