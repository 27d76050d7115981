import Evidence.Cbor.Reading
import Evidence.Moment.Basic

namespace Evidence.Cbor

inductive Echo where
  | nothing
  | null
  | text (s : String)
  | mute

namespace Echo

def itemText? : Echo → Option String
  | nothing | null => some ""
  | text s => some s
  | mute => none

def keyText? : Echo → Option String
  | nothing => some "undefined"
  | null => some "null"
  | text s => some s
  | mute => none

def isNothing : Echo → Bool
  | nothing => true
  | _ => false

def ofFloat (x : Float) : Echo :=
  if x.isNaN || x.isInf then null else text (Binary64.ofBits x.toBits).text

def ofPlain? : Datum → Option Echo
  | .absent => some nothing
  | .null => some null
  | .text s => some (text s)
  | .wide _ => none
  | d => some ((d.number?.map ofFloat).getD (text d.plainText))

end Echo

namespace Store

/-- What becomes of a datum, within so many steps and within the objects that are being written. An
object inside itself cannot be written. -/
def echo (s : Store) : (steps : Nat) → (within : List Nat) → Datum → Option Echo
  | 0, _, _ => none
  | steps + 1, within, .object id => do
      let n ← s.nodes[id]?
      let inner := echo s steps (id :: within)
      let fields : Option Echo := do
        if within.contains id then failure
        let echoes ← n.own.mapM fun p => (inner p.2).map (p.1, ·)
        return if echoes.any fun p => p.1 = Node.textField && !p.2.isNothing then .mute
          else .text objectText
      match n.form with
      | .reader _ => return .nothing
      | .bytes _ => return .text objectText
      | .date moment =>
          if n.has "toJSON" then fields
          else return (moment.map fun t => Echo.text (Moment.numericText t)).getD .null
      | .boxed (.bool b) => return .text (if b then "true" else "false")
      | .boxed (.text _) => return .text (← s.text? (.object id))
      | .boxed (.wide _) => failure
      | .boxed _ => return .ofFloat (← s.float? (.object id))
      | .list items =>
          if within.contains id then failure
          let texts ← items.mapM fun d => do (← inner d).itemText?
          return .text (Text.join "," texts)
      | _ => fields
  | _ + 1, _, d => Echo.ofPlain? d

def isName (s : String) : Bool :=
  match s.toList with
  | [] => false
  | c :: cs =>
      let isLetter (c : Char) : Bool := c.isAlpha || c = '_' || c = '$'
      isLetter c && cs.all fun d => isLetter d || d.isDigit

/-- The text of a key once its layout has been used for a while. A name stays as it is; any other
key is written down and read again, and what it is then counts. Objects whose texts are names cannot
be keys. -/
def settledKey? (s : Store) (d : Datum) : Option String := do
  if isName (← s.text? d) then d.keyText?
  else (← s.echo (s.nodes.size + 1) [] d).keyText?

end Store

end Evidence.Cbor
