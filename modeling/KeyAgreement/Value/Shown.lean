import KeyAgreement.Value.Sequence
import KeyAgreement.Text

/-! How values are shown in messages. Elements show their encoding and so may fail to be shown. -/
namespace KeyAgreement

def Datum.shown : Datum → String
  | .nothing => "None"
  | .truth b => if b then "True" else "False"
  | .number n => toString n
  | .octets b => Quoted.octets b
  | .text s => Quoted.text s

namespace Shown

/-- Items between the marks of their sequence. -/
def enclosed (opening : String) (items : List String) (closing : String) : String :=
  opening ++ ", ".intercalate items ++ closing

/-- A comma follows a single item, which parentheses alone would not make a tuple. -/
def tuple : List Datum → String
  | [d] => s!"({d.shown},)"
  | items => enclosed "(" (items.map Datum.shown) ")"

/-- Entries between braces, with their names quoted. -/
def table (entries : List (String × Datum)) : String :=
  enclosed "\x7b" (entries.map fun (name, d) => Quoted.text name ++ ": " ++ d.shown) "\x7d"

/-- A tuple whose items have names. -/
def record (title : String) (names : List String) (items : List Datum) : String :=
  enclosed (title ++ "(") (List.zipWith (fun name d => name ++ "=" ++ d.shown) names items) ")"

end Shown

def Element.shown (e : Element) : Except Fault String := do
  let b ← e.encode
  pure s!"<Element {String.ofList ((Hex.encode b).take 16)} of {e.group.name}>"

def EphemeralKey.shown (k : EphemeralKey) : Except Fault String := do
  let b ← k.publicKey.contentOr .noSuchOperation
  pure s!"<EphemeralKeyPair public={String.ofList (Hex.encode b)}>"

def StaticKey.shown (k : StaticKey) : String :=
  Shown.record "StaticKeyPair" ["private_key", "public_key"] k.items

def Verdict.shown (r : Verdict) : String :=
  Shown.record "AgreementResult" ["success", "agreed_value"] r.items

def Value.shown : Value → Except Fault String
  | .plain d => pure d.shown
  | .buffer b => pure (Quoted.buffer b)
  | .list items => pure (Shown.enclosed "[" (items.map Datum.shown) "]")
  | .tuple items => pure (Shown.tuple items)
  | .table entries => pure (Shown.table entries)
  | .element e => e.shown
  | .ephemeral k => k.shown
  | .staticKey k => pure k.shown
  | .verdict r => pure r.shown
  | .group G => pure G.shown
  | .params P => pure P.shown
  | .party S => pure S.shown
  | .generator n => pure s!"<KeyPairGenerator {n}>"
  | .source n => pure s!"<PRG {n}>"

end KeyAgreement
