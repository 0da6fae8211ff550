import KeyAgreement.Value.Shown

/-! Group operations on values of any kind. Each operand is checked wholly before the next one. -/
namespace KeyAgreement.Group
variable (G : Group)

/-- What the element holds, if the value is an element of this group. -/
def operand : Value → Except Fault G.Carrier
  | .element e =>
    if own : e.group = G then pure (own ▸ e.value)
    else throw (.foreignElement e.group.name G.name)
  | v => do throw (.notElement (← v.shown))

def powerOfBase (i : Int) : Except Fault Element :=
  if G.subgroupOrder = 0 then throw .zeroOrder else pure ⟨G, G.basePower i⟩

def powerOf (v : Value) (i : Int) : Except Fault Element := do
  let e ← G.operand v
  if i < 0 then throw .negativeExponent
  pure ⟨G, G.pow e i.toNat⟩

def product (v w : Value) : Except Fault Element := do
  let e ← G.operand v
  let f ← G.operand w
  pure ⟨G, G.mul e f⟩

def encodeValue (v : Value) : Except Fault Octets := do
  G.encode (← G.operand v)

def decodeValue (v : Value) : Except Fault Element := do
  match G.decode (← v.contentOr .encodingNotOctets) with
  | .ok e => pure ⟨G, e⟩
  | .error why => throw (.badElement why)

/-- Whether validation at the level can be done; only a negative subgroup order stands in its
way. -/
def testable : (G : Group) → (level : Int) → G.Carrier → Bool
  | .residue G => G.testable
  | .curve _ => fun _ _ => true

/-- Values that are no elements of the group are invalid at every level. -/
def validateValue (level : Int) (v : Value) : Except Fault Bool :=
  match G.operand v with
  | .error _ => pure false
  | .ok e => if G.testable level e then pure (G.validate level e) else throw .notInvertible

@[simp] theorem operand_element (e : G.Carrier) : G.operand (.element ⟨G, e⟩) = .ok e := by
  simp [operand, pure, Except.pure]

end KeyAgreement.Group

namespace KeyAgreement.Value

def asElement : Value → Except Fault Element
  | .element e => pure e
  | _ => throw .noSuchOperation

def product (v w : Value) : Except Fault Element := do
  (← v.asElement).group.product v w

def powerOf (v : Value) (i : Int) : Except Fault Element := do
  (← v.asElement).group.powerOf v i

end KeyAgreement.Value
