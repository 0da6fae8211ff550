import KeyAgreement.Agreement.Session
import KeyAgreement.Keys.Ephemeral

/-! The sides of an agreement, made for a role, and their runs, from keys of any kind to their
outcomes. -/
namespace KeyAgreement

def peerOctets (v : Value) : Except Fault Octets :=
  v.contentOr (.peerKeyNotOctets v.kind)

namespace Party
variable (S : Party)

def agreedValueWidth : Nat := S.params.suite.digestSize

/-- The peer's keys have to be octets, and the own ones to fit the parameters. -/
def load (staticPrivate ephemeralPrivate staticOther ephemeralOther : Value) :
    Except Fault LoadedKeys := do
  let P := S.params
  let peerStaticKey ← peerOctets staticOther
  let peerEphemeralKey ← peerOctets ephemeralOther
  let static ← P.staticExponent staticPrivate
  let ephemeral ← P.ephemeralKey ephemeralPrivate
  let staticKey ← P.group.encode (P.group.basePower static)
  pure { static, ephemeral, staticKey, peerStaticKey, peerEphemeralKey }

def negotiate (staticPrivate ephemeralPrivate staticOther ephemeralOther : Value)
    (validateStatic : Bool) : Except Fault (Admission S.params) := do
  let k ← S.load staticPrivate ephemeralPrivate staticOther ephemeralOther
  S.params.examine S.role k validateStatic

def agree (staticPrivate ephemeralPrivate staticOther ephemeralOther : Value)
    (validateStatic : Bool) :
    Except Fault Outcome := do
  (← S.negotiate staticPrivate ephemeralPrivate staticOther ephemeralOther validateStatic).outcome

end Party

/-- How a role may be asked for. -/
inductive RoleChoice where
  | role (r : Role)
  | abstract
  | named (name : Value)

/-- Names of roles are the octet strings of one letter, fixed or not. -/
def RoleChoice.resolve : RoleChoice → Except Fault Role
  | .role r => pure r
  | .abstract => throw .abstractRole
  | .named name =>
    match name.octets? with
    | some [73] => pure .initiator
    | some [82] => pure .responder
    | _ => do throw (.unknownRole (← name.shown))

/-- The role is looked at before the parameters. -/
def Party.make (serial : Nat) (choice : RoleChoice) (params : Value) : Except Fault Party := do
  let role ← choice.resolve
  pure ⟨serial, role, ← params.asParameters⟩

/-! A side's run as its caller and its log see it: a key that is refused is logged on the way, and
the caller learns the verdict. -/

/-- A computation that logs. What was logged stays logged, even if the computation fails. -/
abbrev Logged (α : Type) := ExceptT Fault (StateM (List String)) α

namespace Logged

def record (key : PeerKey) (why : Rejection) : Logged Unit :=
  modify (· ++ [Outcome.logRecord key why])

end Logged

namespace Parameters
variable (P : Parameters)

/-- The element that a key of the peer encodes, if it is valid at the level. -/
def decodeLogged (level : Int) (key : PeerKey) (b : Octets) : Logged (Option P.group.Carrier) := do
  match P.group.decode b with
  | .error why =>
    Logged.record key (.badEncoding why)
    pure none
  | .ok e =>
    if P.group.validate level e then pure (some e)
    else
      Logged.record key (.invalid level)
      pure none

end Parameters

namespace Party
variable (S : Party)

def agreeLogged (staticPrivate ephemeralPrivate staticOther ephemeralOther : Value)
    (validateStatic : Bool) :
    Logged Verdict := do
  let k ← S.load staticPrivate ephemeralPrivate staticOther ephemeralOther
  let some peerStatic ← S.params.decodeLogged (staticLevel validateStatic) .static k.peerStaticKey
    | pure .failed
  let some peerEphemeral ← S.params.decodeLogged 3 .ephemeral k.peerEphemeralKey
    | pure .failed
  let s ← S.params.openSession S.role k peerStatic peerEphemeral
  let value ← s.agreedValue
  pure ⟨true, some value⟩

end Party
end KeyAgreement
