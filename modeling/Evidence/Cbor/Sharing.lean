import Evidence.Cbor.Filling

namespace Evidence.Cbor.Reader

def setShare (id : Nat) (share : Share) : Reader Unit :=
  modify fun s => { s with shares := s.shares.set id share }

def fits (isList : Bool) (d : Datum) : Reader Bool := do
  if d.isMissing then failure
  match (← get).store.node? d with
  | some ⟨.list _, _⟩ => return isList
  | some ⟨.plain, _⟩ => return !isList
  | _ => return false

/-- A datum that can be referred to from here on. The place kept for it goes by the first byte. If
what was read does not fit there, it is read again with itself in its place, and the second reading
fills the first. -/
def shared (read : Reader Datum) : Reader Datum := do
  let before ← get
  let id := before.shares.length
  let isList := before.rest.head?.any fun b => b.toNat / 32 = 4
  let place ← make (if isList then .list [] else .plain) []
  modify fun s => { s with shares := s.shares ++ [⟨place, false⟩] }
  let d ← read
  let isReferred := ((← get).shares[id]?.map (·.isReferred)).getD false
  if !isReferred then
    setShare id ⟨d, false⟩
    return d
  else if ← fits isList d then
    fill place d
    return place
  else
    goTo before.position
    setShare id ⟨d, false⟩
    let again ← read
    if d.isMissing then failure
    let target ← made d
    fill target again
    return target

def reference (d : Datum) : Reader Datum := do
  let id ← (d.number?.bind Datum.wholeFloat?).getM
  if id < 0 then failure
  let share ← (← get).shares[id.toNat]?.getM
  setShare id.toNat { share with isReferred := true }
  return share.datum

end Evidence.Cbor.Reader
