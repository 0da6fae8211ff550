/-! Causes of refusal, the kinds that callers tell them apart by, and the wording of those that
have one. -/
namespace KeyAgreement

/-- Why octets do not encode an element. -/
inductive BadEncoding where
  | wrongLength (expected actual : Nat)
  | notInField
  | notCompressed
  | abscissaNotInField
  | notOnCurve
  | noOddOrdinate
  deriving DecidableEq, Repr

def BadEncoding.message : BadEncoding → String
  | .wrongLength expected actual => s!"element should be {expected} bytes, not {actual}"
  | .notInField => "alleged element not in the field"
  | .notCompressed => "not a compressed point"
  | .abscissaNotInField => "x coordinate not in the field"
  | .notOnCurve => "x coordinate does not lie on the curve"
  | .noOddOrdinate => "no point with odd y at this x"

/-- Texts inside a cause show a value or name its kind. -/
inductive Fault where
  | badElement (why : BadEncoding)
  | encodingNotOctets
  | notElement (shown : String)
  | foreignElement (owner expected : String)
  | notOctets (kind : String)
  | peerKeyNotOctets (kind : String)
  | negativeExponent
  | doesNotFit (n bound : Int)
  | shortEntropy (got : Nat) (wanted : Int)
  | emptyRange (start stop : Int)
  | privateKeyLength (expected : Nat)
  | privateKeyRange
  | packedLength (expected : Nat)
  | digestTooShort (asked : Int) (size : Nat)
  | expansionTooLong (digestSize : Nat)
  | otherParameters
  | foreignEphemeral
  | abstractRole
  | unknownRole (shown : String)
  | zeroOrder
  | groupRefused
  | notParameters
  | notFixedOctets
  | notInvertible
  | digitRange
  | overflow
  | noRoom
  | noDigits
  | noSuchPosition
  | malformedHex
  | malformedJson
  | missingEntry (key : String)
  | notAsciiText
  | notAsciiOctets
  | wrongKind
  | noSuchOperation
  | entropyExhausted
  | drawsExhausted
  deriving DecidableEq, Repr

/-- What callers can tell faults apart by. -/
inductive FaultKind where
  | typeError
  | valueError
  | badElement
  | wrongGroup
  | unknownRole
  | zeroDivision
  | assertion
  | index
  | key
  | attribute
  | overflow
  | memory
  | json
  | asciiText
  | asciiOctets
  | exhausted
  | runtime
  | plain
  deriving DecidableEq, Repr

/-- Bad elements have a kind of their own, and so do keys of another group. Most other arguments
that are refused are of a wrong type or have a wrong value. -/
def Fault.kind : Fault → FaultKind
  | .badElement _ => .badElement
  | .abstractRole | .unknownRole _ => .unknownRole
  | .otherParameters | .foreignEphemeral => .wrongGroup
  | .encodingNotOctets | .notElement _ | .foreignElement _ _ | .notOctets _ | .peerKeyNotOctets _
  | .wrongKind => .typeError
  | .negativeExponent | .doesNotFit _ _ | .shortEntropy _ _ | .emptyRange _ _ | .privateKeyLength _
  | .privateKeyRange | .packedLength _ | .digestTooShort _ _ | .notInvertible | .digitRange
  | .malformedHex => .valueError
  | .zeroOrder => .zeroDivision
  | .groupRefused | .notParameters | .notFixedOctets => .assertion
  | .noDigits | .noSuchPosition => .index
  | .missingEntry _ => .key
  | .noSuchOperation => .attribute
  | .overflow => .overflow
  | .noRoom => .memory
  | .malformedJson => .json
  | .notAsciiText => .asciiText
  | .notAsciiOctets => .asciiOctets
  | .entropyExhausted => .exhausted
  | .drawsExhausted => .runtime
  | .expansionTooLong _ => .plain

/-- The names that callers know the kinds by. -/
def FaultKind.name : FaultKind → String
  | .typeError => "TypeError"
  | .valueError => "ValueError"
  | .badElement => "BadElement"
  | .wrongGroup => "WrongGroupError"
  | .unknownRole => "UnknownRole"
  | .zeroDivision => "ZeroDivisionError"
  | .assertion => "AssertionError"
  | .index => "IndexError"
  | .key => "KeyError"
  | .attribute => "AttributeError"
  | .overflow => "OverflowError"
  | .memory => "MemoryError"
  | .json => "JSONDecodeError"
  | .asciiText => "UnicodeEncodeError"
  | .asciiOctets => "UnicodeDecodeError"
  | .exhausted => "EntropyExhausted"
  | .runtime => "RuntimeError"
  | .plain => "Exception"

/-- The wording of a cause; the plainest causes have none. -/
def Fault.message? : Fault → Option String
  | .badElement why => some why.message
  | .encodingNotOctets => some "elements decode from bytes"
  | .notElement shown => some s!"expected a group element, got {shown}"
  | .foreignElement owner expected => some s!"element belongs to {owner}, not {expected}"
  | .notOctets kind => some s!"expected bytes, got {kind}"
  | .peerKeyNotOctets kind => some s!"public keys must be bytes, not {kind}"
  | .negativeExponent => some "negative exponent"
  | .doesNotFit n bound => some s!"{n} does not fit below {bound}"
  | .shortEntropy got wanted => some s!"entropy source returned {got} bytes, wanted {wanted}"
  | .emptyRange start stop => some s!"empty range [{start}, {stop})"
  | .privateKeyLength expected => some s!"private key should be {expected} bytes"
  | .privateKeyRange => some "private exponent out of range"
  | .packedLength expected => some s!"packed ephemeral key should be {expected} bytes"
  | .digestTooShort asked size => some s!"asked for {asked} bytes from a {size}-byte hash"
  | .expansionTooLong digestSize =>
    some <| s!"Cannot expand to more than 255 * {digestSize} = {255 * digestSize} bytes using " ++
      "the specified hash function"
  | .otherParameters =>
    some <| "EphemeralKeyPair.from_serialized() must be called with the same params= that were " ++
      "used to create the serialized data. These are different somehow."
  | .foreignEphemeral => some "ephemeral key made under other params"
  | .abstractRole => some "use FHMQV_Initiator or FHMQV_Responder"
  | .unknownRole shown => some s!"role must be RoleInitiator or RoleResponder, not {shown}"
  | _ => none

end KeyAgreement
