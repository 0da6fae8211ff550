import KeyAgreement.Parameters

/-! Values of any kind, as callers may hand them in. -/
namespace KeyAgreement

/-- Plain data, which lists and tables may hold. -/
inductive Datum where
  | nothing
  | truth (b : Bool)
  | number (n : Int)
  | octets (b : Octets)
  | text (s : String)
  deriving DecidableEq, Repr

structure StaticKey where
  privateKey : Octets
  publicKey : Octets
  deriving DecidableEq, Repr

/-- The agreed value is missing unless the agreement succeeded. -/
structure Verdict where
  succeeded : Bool
  agreedValue : Option Octets
  deriving DecidableEq, Repr

def Verdict.failed : Verdict := ⟨false, none⟩

mutual

/-- Buffers, lists and tables may change, octets and tuples may not. Key generators and sources are
known by serial number alone. -/
inductive Value where
  | plain (d : Datum)
  | buffer (b : Octets)
  | list (items : List Datum)
  | tuple (items : List Datum)
  | table (entries : List (String × Datum))
  | element (e : Element)
  | ephemeral (k : EphemeralKey)
  | staticKey (k : StaticKey)
  | verdict (r : Verdict)
  | group (G : Group)
  | params (P : Parameters)
  | party (S : Party)
  | generator (serial : Nat)
  | source (serial : Nat)

/-- An exponent with the public key made from it. Neither is checked. -/
structure EphemeralKey where
  params : Parameters
  exponent : Int
  publicKey : Value

end

namespace Value

@[match_pattern] abbrev nothing : Value := .plain .nothing
@[match_pattern] abbrev truth (b : Bool) : Value := .plain (.truth b)
@[match_pattern] abbrev number (n : Int) : Value := .plain (.number n)
@[match_pattern] abbrev octets (b : Octets) : Value := .plain (.octets b)
@[match_pattern] abbrev text (s : String) : Value := .plain (.text s)

/-- The content of octet strings, fixed or not. -/
def octets? : Value → Option Octets
  | .octets b | .buffer b => some b
  | _ => none

/-- The content, or the fault of not being octets. -/
def contentOr (v : Value) (fault : Fault) : Except Fault Octets :=
  match v.octets? with
  | some b => pure b
  | none => throw fault

/-- Octets to be hashed or joined. -/
def content (v : Value) : Except Fault Octets :=
  v.contentOr .wrongKind

end Value

def Datum.kind : Datum → String
  | .nothing => "<class 'NoneType'>"
  | .truth _ => "<class 'bool'>"
  | .number _ => "<class 'int'>"
  | .octets _ => "<class 'bytes'>"
  | .text _ => "<class 'str'>"

namespace Value

def kind : Value → String
  | .plain d => d.kind
  | .buffer _ => "<class 'bytearray'>"
  | .list _ => "<class 'list'>"
  | .tuple _ => "<class 'tuple'>"
  | .table _ => "<class 'dict'>"
  | .element _ => "<class 'fhmqv.groups._Element'>"
  | .ephemeral _ => "<class 'fhmqv.keys.EphemeralKeyPair'>"
  | .staticKey _ => "<class 'fhmqv.keys.StaticKeyPair'>"
  | .verdict _ => "<class 'fhmqv.fhmqv.AgreementResult'>"
  | .group (.residue _) => "<class 'fhmqv.groups.IntegerGroup'>"
  | .group (.curve _) => "<class 'fhmqv.ec_groups.EllipticCurveGroup'>"
  | .params _ => "<class 'fhmqv.params.Params'>"
  | .party ⟨_, .initiator, _⟩ => "<class 'fhmqv.fhmqv.FHMQV_Initiator'>"
  | .party ⟨_, .responder, _⟩ => "<class 'fhmqv.fhmqv.FHMQV_Responder'>"
  | .generator _ => "<class 'fhmqv.keys.KeyPairGenerator'>"
  | .source _ => "<class 'fhmqv.test.common.PRG'>"

@[simp] theorem octets?_octets (b : Octets) : (octets b).octets? = some b := rfl
@[simp] theorem octets?_buffer (b : Octets) : (buffer b).octets? = some b := rfl
@[simp] theorem contentOr_octets (b : Octets) (f : Fault) : (octets b).contentOr f = .ok b := rfl

/-- The number that octets write. -/
def bigEndian (v : Value) : Except Fault Nat := do
  pure (← v.contentOr (.notOctets v.kind)).value

end Value
end KeyAgreement
