import KeyAgreement.Keys.Ephemeral
import KeyAgreement.Sampling

/-! Fresh keys, drawn from a source. -/
namespace KeyAgreement.Parameters
variable (P : Parameters)

def drawExponent : Draw Int :=
  Draw.exponent P.group.largestExponent

def drawStaticPrivate : Draw Octets := do
  let x ← P.drawExponent
  Octets.fixed x P.group.subgroupOrder

def staticPublic (privateKey : Value) : Except Fault Octets := do
  let x ← P.staticExponent privateKey
  P.group.encode (P.group.basePower x)

def drawStaticKey : Draw StaticKey := do
  let privateKey ← P.drawStaticPrivate
  let publicKey ← P.staticPublic (.octets privateKey)
  pure ⟨privateKey, publicKey⟩

def drawEphemeralKey : Draw EphemeralKey := do
  let x ← P.drawExponent
  let publicKey ← P.group.encode (P.group.basePower x)
  pure ⟨P, x, .octets publicKey⟩

end KeyAgreement.Parameters

namespace KeyAgreement

inductive KeyKind where
  | staticPrivate
  | static
  | ephemeral
  deriving DecidableEq, Repr

/-- What a generator, or a party, is asked for: a key of a kind under its parameters. -/
structure KeyRequest where
  params : Parameters
  kind : KeyKind

inductive FreshKey where
  | staticPrivate (privateKey : Octets)
  | static (k : StaticKey)
  | ephemeral (k : EphemeralKey)

namespace KeyRequest

def draw (r : KeyRequest) : Draw FreshKey :=
  match r.kind with
  | .staticPrivate => .staticPrivate <$> r.params.drawStaticPrivate
  | .static => .static <$> r.params.drawStaticKey
  | .ephemeral => .ephemeral <$> r.params.drawEphemeralKey

/-- One request after the other to the same source. After a fault the next request goes on with
what was not read. -/
def drawAll : List KeyRequest → Source → List (Except Fault FreshKey) × Source
  | [], s => ([], s)
  | r :: rs, s =>
    let (key, t) := r.draw.run.run s
    let (keys, u) := drawAll rs t
    (key :: keys, u)

end KeyRequest
end KeyAgreement
