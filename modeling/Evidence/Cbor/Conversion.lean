import Evidence.Cbor.Store
import Evidence.Moment.Basic
import Evidence.Number.Reading
import Evidence.Pattern.Basic
import Evidence.Text.Separated
import Evidence.Text.Utf8

namespace Evidence.Cbor

namespace Datum

def notNumber : Float := 0 / 0

def readFloat (s : String) : Float :=
  Float.ofBits ((Quantity.ofText s : Quantity Float).word).toBits

def wholeFloat? (x : Float) : Option Int :=
  if x.floor == x && !x.isInf then some (wholePart x) else none

def plainFloat? : Datum → Option Float
  | .absent => some notNumber
  | .null => some 0
  | .bool b => some (if b then 1 else 0)
  | .text s => some (readFloat s)
  | d => d.number?

def plainInteger? : Datum → Option Int
  | .bool b => some (if b then 1 else 0)
  | .wide n => some n
  | .text s => Decimal.whole? s
  | _ => none

end Datum

namespace Node

def textField : String := "toString"

def worthField : String := "valueOf"

def worth? (n : Node) : Option Datum :=
  if n.has worthField then none
  else
    match n.form with
    | .boxed d => some d
    | .date moment => some (.ofFloat ((moment.map Float.ofInt).getD Datum.notNumber))
    | _ => none

end Node

def objectText : String := "[object Object]"

def complaintText (name message : String) : String :=
  if message = "" then name else if name = "" then message else name ++ ": " ++ message

namespace Store

/-- The text of a datum, within so many steps and within the lists that are being written. A list
inside itself leaves a gap. -/
def textOf (s : Store) : (steps : Nat) → (within : List Nat) → Datum → Option String
  | steps, within, .object id => do
      let n ← s.nodes[id]?
      if n.has Node.textField then return (← n.worth?).plainText
      match n.form, steps with
      | .plain, _ | .labelled, _ => return objectText
      | .map _, _ => return "[object Map]"
      | .set _, _ => return "[object Set]"
      | .date moment, _ => return (moment.map Moment.text).getD Moment.invalidText
      | .pattern source flags, _ => return Pattern.text source flags
      | .bytes b, _ => return Utf8.decode b.bytes
      | .view v, _ =>
          return Text.join "," (v.words.map fun w => (Datum.ofElement v.element w).plainText)
      | .boxed d, _ => return d.plainText
      | .reader _, _ => return "function"
      | .list _, 0 | .complaint _, 0 => failure
      | .list items, steps + 1 =>
          if n.has "join" then return "[object Array]"
          if within.contains id then return ""
          let texts ← items.mapM fun d =>
            if d.isMissing then some "" else textOf s steps (id :: within) d
          return Text.join "," texts
      | .complaint message, steps + 1 =>
          let part (default : String) : Datum → Option String
            | .absent => some default
            | d => textOf s steps within d
          return complaintText (← part "Error" ((Record.get? "name" n.fields).getD .absent))
            (← part "" (message.getD ((Record.get? "message" n.fields).getD .absent)))
  | _, _, d => some d.plainText

def text? (s : Store) (d : Datum) : Option String := s.textOf (s.nodes.size + 1) [] d

def plain? (s : Store) (d : Datum) : Option Datum :=
  match s.node? d with
  | none => some d
  | some n => n.worth? <|> (s.text? d).map .text

def operand? (s : Store) (d : Datum) : Option Datum :=
  match s.node? d with
  | some ⟨.date m, fields⟩ =>
      if (Node.mk (.date m) fields).has Node.textField then s.plain? d
      else (s.text? d).map .text
  | _ => s.plain? d

def float? (s : Store) (d : Datum) : Option Float := do (← s.plain? d).plainFloat?

def integer? (s : Store) (d : Datum) : Option Int := do (← s.plain? d).plainInteger?

def whole? (s : Store) (d : Datum) : Option Int := do
  let p ← s.plain? d
  match p.number? with
  | some x => Datum.wholeFloat? x
  | none => p.plainInteger?

def sum? (s : Store) (a b : Datum) : Option Datum := do
  let p ← s.operand? a
  let q ← s.operand? b
  match p, q with
  | .text t, q => return .text (t ++ q.plainText)
  | p, .text t => return .text (p.plainText ++ t)
  | .wide m, .wide n => return .wide (m + n)
  | p, q => return .ofFloat ((← p.plainFloat?) + (← q.plainFloat?))

def exceeds? (s : Store) (d : Datum) (n : Nat) : Option Bool := do
  match ← s.plain? d with
  | .wide m => return (n : Int) < m
  | p => return Float.ofNat n < (← p.plainFloat?)

def wordOf? (s : Store) (e : Element) (d : Datum) : Option Nat :=
  if e.isExact then (s.integer? d).map (wrapped e.width) else (s.float? d).map e.wordOf

end Store

end Evidence.Cbor
