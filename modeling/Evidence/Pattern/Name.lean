import Evidence.Pattern.Sign
import Evidence.Text.Identifier

namespace Evidence.Pattern.Name

def code? : Parse Nat
  | ⟨'\\', _⟩ :: ⟨'u', _⟩ :: rest => Sign.code? true rest
  | ⟨'\\', _⟩ :: _ => none
  | signs => Sign.whole? signs

def rest? : (steps : Nat) → Parse (List Nat)
  | 0, _ => none
  | _, ⟨'>', _⟩ :: rest => some ([], rest)
  | steps + 1, signs => do
      let (code, rest) ← code? signs
      if Text.Identifier.isPart code then
        let (codes, rest) ← rest? steps rest
        some (code :: codes, rest)
      else none

def name? : Parse (List Nat) := fun signs => do
  let (code, rest) ← code? signs
  if Text.Identifier.isStart code then
    let (codes, rest) ← rest? (signs.length + 1) rest
    some (code :: codes, rest)
  else none

end Evidence.Pattern.Name
