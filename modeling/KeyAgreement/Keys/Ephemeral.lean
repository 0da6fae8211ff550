import KeyAgreement.Value.Shown

/-! Private keys in fixed width, and ephemeral keys packed into octets. -/
namespace KeyAgreement
namespace Parameters
variable (P : Parameters)

def staticPrivateWidth : Nat := P.group.scalarWidth
def staticPublicWidth : Nat := P.group.width
def ephemeralPrivateWidth : Nat := P.staticPrivateWidth + P.staticPublicWidth
def ephemeralPublicWidth : Nat := P.staticPublicWidth

/-- The exponent that a private key holds: the length must fit, and the number be positive and below
the subgroup order. -/
def exponentOf (b : Octets) : Except Fault Int :=
  if b.length ≠ P.staticPrivateWidth then throw (.privateKeyLength P.staticPrivateWidth)
  else if 1 ≤ (b.value : Int) ∧ b.value < P.group.subgroupOrder then pure b.value
  else throw .privateKeyRange

def staticExponent (v : Value) : Except Fault Int := do
  P.exponentOf (← v.contentOr (.privateKeyLength P.staticPrivateWidth))

end Parameters

namespace EphemeralKey

def exponentOctets (k : EphemeralKey) : Except Fault Octets :=
  Octets.fixed k.exponent k.params.group.subgroupOrder

/-- The packed form: the exponent in fixed width, then the public key. -/
def pack (k : EphemeralKey) : Except Fault Octets := do
  let exponent ← k.exponentOctets
  let publicKey ← k.publicKey.content
  pure (exponent ++ publicKey)

end EphemeralKey

namespace Parameters
variable (P : Parameters)

def checkPackedLength (v : Value) : Except Fault Unit := do
  if (← v.length) ≠ P.ephemeralPrivateWidth then throw (.packedLength P.ephemeralPrivateWidth)

/-- The key that packed octets hold. The public half is not compared with the exponent. -/
def unpack (v : Value) : Except Fault EphemeralKey := do
  P.checkPackedLength v
  let exponent ← P.staticExponent (← v.part (·.take P.staticPrivateWidth))
  let publicKey ← (← v.part (·.drop P.staticPrivateWidth)).spelled
  pure ⟨P, exponent, .octets publicKey⟩

/-- The public half of an ephemeral key or of its packed form, as it stands there. -/
def ephemeralPublic : Value → Except Fault Value
  | .ephemeral k => pure k.publicKey
  | v => do
    P.checkPackedLength v
    pure (.octets (← (← v.part (·.drop P.staticPrivateWidth)).spelled))

/-- An ephemeral key must have been made under these very parameters. -/
def ephemeralKey : Value → Except Fault EphemeralKey
  | .ephemeral k => if k.params.isSame P then pure k else throw .foreignEphemeral
  | v => P.unpack v

end Parameters

namespace Value

/-- Other values than parameter sets are refused, or cannot even be shown. -/
def asParameters : Value → Except Fault Parameters
  | .params P => pure P
  | v => do
    let _ ← v.shown
    throw .notParameters

def asEphemeral : Value → Except Fault EphemeralKey
  | .ephemeral k => pure k
  | _ => throw .noSuchOperation

def makeEphemeral (params : Value) (exponent : Int) (publicKey : Value) :
    Except Fault EphemeralKey := do
  pure ⟨← params.asParameters, exponent, publicKey⟩

def unpackUnder (params data : Value) : Except Fault EphemeralKey := do
  (← params.asParameters).unpack data

/-- The octets of an element or of an ephemeral key; a number is written as a single octet. -/
def toOctets (v : Value) : Except Fault Octets :=
  match v, v.number? with
  | .element e, _ => e.encode
  | .ephemeral k, _ => k.pack
  | _, some n => if 0 ≤ n ∧ n < 256 then pure [UInt8.ofNat n.toNat] else throw .overflow
  | _, none => throw .noSuchOperation

end Value
end KeyAgreement
