import Evidence.Number.Digits
import Evidence.Text.Units

namespace Evidence.Pattern

/-- A character with its code. Where units are read rather than characters, each half of a character
beyond the basic plane is a sign of its own, which shows no character. -/
structure Sign where
  char : Char
  code : Nat
  deriving DecidableEq

/-- How a pattern is read: strictly, with no sign but with a meaning of its own; with sets that can
be put together; with groups that have names; and with how many groups there are. -/
structure Dialect where
  isStrict : Bool
  hasSets : Bool
  hasNames : Bool
  groups : Nat

abbrev Parse (β : Type) := List Sign → Option (β × List Sign)

namespace Sign

def ofChar (c : Char) : Sign := ⟨c, c.toNat⟩

def halves (c : Char) : List Sign :=
  match Text.unitsOf c with
  | [_] => [ofChar c]
  | units => units.map fun unit => ⟨Char.ofNat 0, unit⟩

def ofText (isStrict : Bool) (s : String) : List Sign :=
  if isStrict then s.toList.map ofChar else s.toList.flatMap halves

def isFirstHalf (code : Nat) : Bool := 0xD800 ≤ code && code ≤ 0xDBFF

def isSecondHalf (code : Nat) : Bool := 0xDC00 ≤ code && code ≤ 0xDFFF

def together (first second : Nat) : Nat := 0x10000 + (first - 0xD800) * 0x400 + (second - 0xDC00)

def whole? : Parse Nat
  | [] => none
  | [s] => some (s.code, [])
  | s :: t :: rest =>
      if isFirstHalf s.code ∧ isSecondHalf t.code then some (together s.code t.code, rest)
      else some (s.code, t :: rest)

def hex? (count : Nat) : Parse Nat := fun signs =>
  let digits := (signs.take count).map (·.char)
  if digits.length = count ∧ digits.all (Digits.isDigit 16) then
    some (Digits.read 16 digits, signs.drop count)
  else none

def greatestCode : Nat := 0x10FFFF

def braced? : Parse Nat := fun signs =>
  let digits := (signs.map (·.char)).takeWhile (Digits.isDigit 16)
  let code := Digits.read 16 digits
  match signs.drop digits.length with
  | ⟨'}', _⟩ :: rest => if digits ≠ [] ∧ code ≤ greatestCode then some (code, rest) else none
  | _ => none

def secondHalf? : Parse Nat
  | ⟨'\\', _⟩ :: ⟨'u', _⟩ :: signs =>
      match hex? 4 signs with
      | some (code, rest) => if isSecondHalf code then some (code, rest) else none
      | none => none
  | _ => none

def code? (isStrict : Bool) : Parse Nat := fun signs =>
  match isStrict, signs with
  | true, ⟨'{', _⟩ :: rest => braced? rest
  | _, signs =>
      match hex? 4 signs with
      | none => none
      | some (code, rest) =>
          if isStrict && isFirstHalf code then
            match secondHalf? rest with
            | some (second, rest) => some (together code second, rest)
            | none => some (code, rest)
          else some (code, rest)

def isOctal (c : Char) : Bool := Digits.isDigit 8 c

def octal (first : Char) (signs : List Sign) : Nat × List Sign :=
  let digit (c : Char) : Nat := Digits.read 8 [c]
  match signs with
  | second :: rest =>
      if isOctal second.char then
        let n := 8 * digit first + digit second.char
        match rest with
        | third :: others =>
            if n < 32 ∧ isOctal third.char then (8 * n + digit third.char, others) else (n, rest)
        | [] => (n, rest)
      else (digit first, signs)
  | [] => (digit first, [])

def controls : List (Char × Nat) := [('f', 12), ('n', 10), ('r', 13), ('t', 9), ('v', 11)]

def special : List Char :=
  ['^', '$', '\\', '.', '*', '+', '?', '(', ')', '[', ']', '{', '}', '|', '/']

def control? (d : Dialect) (inSet : Bool) (c : Char) : Option Nat :=
  if c.isAlpha ∨ (inSet ∧ !d.isStrict ∧ (c.isDigit ∨ c = '_')) then some (c.toNat % 32) else none

/-- The code of what stands after a backslash. Without strictness, what means nothing stands for
itself, and the backslash does where no control is named. -/
def escaped? (d : Dialect) (inSet : Bool) : Parse Nat
  | [] => none
  | s :: rest =>
      let itself : Option (Nat × List Sign) := if d.isStrict then none else some (s.code, rest)
      match controls.lookup s.char with
      | some code => some (code, rest)
      | none =>
          match s.char with
          | 'c' =>
              match rest.head?.bind fun t => control? d inSet t.char with
              | some code => some (code, rest.tail)
              | none => if d.isStrict then none else some ('\\'.toNat, s :: rest)
          | 'x' => (hex? 2 rest) <|> itself
          | 'u' => (code? d.isStrict rest) <|> itself
          | 'k' => if d.hasNames then none else itself
          | c =>
              if c = '0' ∧ !(rest.head?.any (·.char.isDigit)) then some (0, rest)
              else if isOctal c then if d.isStrict then none else some (octal c rest)
              else if special.contains c then some (s.code, rest)
              else itself

end Sign

end Evidence.Pattern
