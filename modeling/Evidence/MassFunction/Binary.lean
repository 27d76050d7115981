import Evidence.Cbor.Decoding
import Evidence.Cbor.Encoding
import Evidence.Cbor.Value
import Evidence.MassFunction.Document

namespace Evidence

structure Payload (α : Type) where
  jsonBytes : Nat
  binaryBytes : Nat
  ratio : α

namespace MassFunction

variable {α : Type} [Scalar α]

def toBytes (m : MassFunction α) : Except (Fault α) (List UInt8) :=
  m.toDocument.map Cbor.encode

def document? (bytes : List UInt8) : Option (Value α) :=
  (Cbor.decode bytes).map fun (d, store) => store.toValue Cbor.Store.documentDepth d

/-- Fails without a reason if the bytes are no item, otherwise as reading a document does. -/
def ofBytes (bytes : List UInt8) : Option (Except (Failure α) (MassFunction α)) :=
  (document? bytes).map ofDocument

def payload (m : MassFunction α) : Except (Fault α) (Payload α) := do
  let json ← m.json
  let bytes ← m.toBytes
  let jsonBytes := (Utf8.encode json).length
  .ok ⟨jsonBytes, bytes.length,
    if jsonBytes = 0 then 0 else (bytes.length : α) / (jsonBytes : α)⟩

end MassFunction

end Evidence
