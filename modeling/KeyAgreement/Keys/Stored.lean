import KeyAgreement.Json
import KeyAgreement.Keys.Ephemeral

/-! Ephemeral keys stored as JSON texts, with the fingerprint of their parameters. -/
namespace KeyAgreement

def EphemeralKey.store (k : EphemeralKey) : Except Fault Octets := do
  let fingerprint ← k.params.fingerprint
  let exponent ← k.exponentOctets
  let publicKey ← k.publicKey.contentOr .noSuchOperation
  let written := Json.writeTexts
    [("hashed_params", fingerprint), ("exponent", Hex.encode exponent),
     ("public_key", Hex.encode publicKey)]
  let some b := Octets.ofAscii? (String.ofList written) | throw .notAsciiText
  pure b

namespace Stored

def read (data : Value) : Except Fault Json := do
  let b ← data.contentOr .noSuchOperation
  let some text := Octets.toAscii? b | throw .notAsciiOctets
  let some json := Json.parse? text | throw .malformedJson
  pure json

def entry (stored : Json) (name : String) : Except Fault Json :=
  match stored with
  | .object fields =>
    match Json.field? fields name with
    | some json => pure json
    | none => throw (.missingEntry name)
  | _ => throw .wrongKind

def octets : Json → Except Fault Octets
  | .text s =>
    match Hex.decode? s with
    | some b => pure b
    | none => throw .malformedHex
  | _ => throw .wrongKind

end Stored

/-- The fingerprint is compared before the exponent and the public key are looked at. -/
def Parameters.restore (P : Parameters) (data : Value) : Except Fault EphemeralKey := do
  let stored ← Stored.read data
  let stamp ← Stored.entry stored "hashed_params"
  let fingerprint ← P.fingerprint
  match stamp with
  | .text s => if s ≠ fingerprint then throw .otherParameters
  | _ => throw .otherParameters
  let exponent ← P.exponentOf (← Stored.octets (← Stored.entry stored "exponent"))
  let publicKey ← Stored.octets (← Stored.entry stored "public_key")
  pure ⟨P, exponent, .octets publicKey⟩

/-- Values that are no parameter set are found out only when their fingerprint is needed. -/
def Value.restoreUnder (params data : Value) : Except Fault EphemeralKey :=
  match params with
  | .params P => P.restore data
  | _ => do
    let stored ← Stored.read data
    let _ ← Stored.entry stored "hashed_params"
    throw .noSuchOperation

end KeyAgreement
