import KeyAgreement.Transcript
import KeyAgreement.Value

/-! How a run of the agreement ends, what its caller and its log are told, and what a side computes
once both of the peer's keys are accepted. -/
namespace KeyAgreement

/-- Which of the peer's keys is meant. -/
inductive PeerKey where
  | static
  | ephemeral
  deriving DecidableEq, Repr

inductive Rejection where
  | badEncoding (why : BadEncoding)
  | invalid (level : Int)
  deriving DecidableEq, Repr

def Rejection.message : Rejection → String
  | .badEncoding why => why.message
  | .invalid level => s!"failed level {level} validation"

/-- How a run ends that no fault stops. -/
inductive Outcome where
  | agreed (value : Octets)
  | rejected (key : PeerKey) (why : Rejection)
  deriving DecidableEq, Repr

namespace Outcome

/-- A caller does not learn why a key was refused. -/
def result : Outcome → Verdict
  | .agreed value => ⟨true, some value⟩
  | .rejected _ _ => .failed

def logRecord (key : PeerKey) (why : Rejection) : String :=
  let which := match key with
    | .static => "static"
    | .ephemeral => "ephemeral"
  s!"rejecting {which} public key: {why.message}"

def log : Outcome → List String
  | .agreed _ => []
  | .rejected key why => [logRecord key why]

end Outcome

/-! With static exponents a, b, ephemeral exponents x, y and challenges d, e hashed from the public
keys, both sides reach the power (x + d a) (y + e b) of the base. -/

namespace Role

/-- The initiator's item first, given the own and the peer's one. -/
def inOrder {α : Type} (mine theirs : α) : Role → α × α
  | .initiator => (mine, theirs)
  | .responder => (theirs, mine)

/-- The challenge that goes with the own static key, then the one that goes with the peer's. -/
def challenges {α : Type} (d e : α) : Role → α × α
  | .initiator => (d, e)
  | .responder => (e, d)

end Role

namespace Group
variable (G : Group)

/-- The element that octets of the peer encode, if it is valid at the level. -/
def accept (level : Int) (b : Octets) : Except Rejection G.Carrier :=
  match G.decode b with
  | .error why => .error (.badEncoding why)
  | .ok e => if G.validate level e then .ok e else .error (.invalid level)

/-- The exponent that a side contributes, reduced by the subgroup order. -/
def contribution (ephemeral challenge static : Int) : Nat :=
  ((ephemeral + challenge * static).fmod G.subgroupOrder).toNat

/-- The peer's ephemeral key times its static key under its challenge, to the power of the own
contribution. -/
def combine (contribution challenge : Nat) (peerStatic peerEphemeral : G.Carrier) : G.Carrier :=
  G.pow (G.mul peerEphemeral (G.pow peerStatic challenge)) contribution

end Group

/-- The keys of a run: the own ones as loaded, with the static public key made anew, and the peer's
ones as they came. -/
structure LoadedKeys where
  static : Int
  ephemeral : EphemeralKey
  staticKey : Octets
  peerStaticKey : Octets
  peerEphemeralKey : Octets

/-- The transcript and the shared element of a run in which both of the peer's keys were
accepted. -/
structure Session (P : Parameters) where
  transcript : Transcript
  shared : P.group.Carrier

namespace Session
variable {P : Parameters}

/-- What the agreed value is a hash of. -/
def keyInput (s : Session P) : Except Fault Octets := do
  pure (s.transcript.keyInput (← P.group.encode s.shared))

def agreedValue (s : Session P) : Except Fault Octets := do
  pure (P.suite.key (← P.group.encode s.shared) s.transcript P.suite.digestSize)

end Session

/-- How far a run gets before the agreed value is hashed. -/
inductive Admission (P : Parameters) where
  | opened (s : Session P)
  | rejected (key : PeerKey) (why : Rejection)

/-- A refused key ends the run, and an opened session ends with its agreed value. -/
def Admission.outcome {P : Parameters} : Admission P → Except Fault Outcome
  | .opened s => .agreed <$> s.agreedValue
  | .rejected key why => pure (.rejected key why)

/-- The peer's static key is validated in full, unless it was before and only group membership has
to be checked. -/
def staticLevel (validateStatic : Bool) : Int :=
  if validateStatic then 3 else 1

namespace Parameters
variable (P : Parameters)

/-- The challenge of a transcript as an exponent. -/
def challenge (t : Transcript) : Nat :=
  (((P.suite.challenge t).value : Int).fmod P.group.subgroupOrder).toNat

/-- The element that the side with the role reaches under the challenges of a transcript. -/
def sharedElement (role : Role) (static ephemeral : Int) (t : Transcript)
    (peerStatic peerEphemeral : P.group.Carrier) : P.group.Carrier :=
  let (mine, theirs) := role.challenges (P.challenge t) (P.challenge t.exchanged)
  P.group.combine (P.group.contribution ephemeral mine static) theirs peerStatic peerEphemeral

/-- The session of the side with the role and the keys that are given, the peer's ones also as
elements. -/
def openSession (role : Role) (k : LoadedKeys) (peerStatic peerEphemeral : P.group.Carrier) :
    Except Fault (Session P) := do
  let (X, Y) := role.inOrder k.ephemeral.publicKey (.octets k.peerEphemeralKey)
  let (A, B) := role.inOrder (.octets k.staticKey) (.octets k.peerStaticKey)
  let t ← P.suite.openTranscript X Y A B
  pure ⟨t, P.sharedElement role k.static k.ephemeral.exponent t peerStatic peerEphemeral⟩

/-- The peer's static key is looked at first. Its ephemeral key is always validated in full. -/
def examine (role : Role) (k : LoadedKeys) (validateStatic : Bool) : Except Fault (Admission P) :=
  match P.group.accept (staticLevel validateStatic) k.peerStaticKey with
  | .error why => pure (.rejected .static why)
  | .ok peerStatic =>
    match P.group.accept 3 k.peerEphemeralKey with
    | .error why => pure (.rejected .ephemeral why)
    | .ok peerEphemeral => .opened <$> P.openSession role k peerStatic peerEphemeral

end Parameters

end KeyAgreement
