import Evidence.Number.Digits
import Evidence.Text.Blank

namespace Evidence.Moment

/-- A piece of a date. A number has its value, as far as nine digits tell it, and its length; a word
has its first three letters in lower case and its length. -/
inductive Token where
  | number (n length : Nat)
  | word (start : List Char) (length : Nat)
  | sign (c : Char)
  | blank
  | other
  deriving DecidableEq

namespace Token

def signs : List Char := [':', '-', '+', '.', ')']

def countedDigits : Nat := 9

def ofDigits (digits : List Char) : Token :=
  .number (Digits.read 10 ((digits.dropWhile (· = '0')).take countedDigits)) digits.length

def isWordPart (c : Char) : Bool := 'A'.toNat ≤ c.toNat && !Text.isBlank c

def ofWord (letters : List Char) : Token := .word ((letters.take 3).map Char.toLower) letters.length

def afterParenthesis : (others : Nat) → List Char → List Char
  | _, [] => []
  | others, ')' :: cs =>
      match others with
      | 0 => cs
      | others + 1 => afterParenthesis others cs
  | others, '(' :: cs => afterParenthesis (others + 1) cs
  | others, _ :: cs => afterParenthesis others cs

def first (c : Char) (cs : List Char) : Token × List Char :=
  if Digits.isDecimal c then
    (ofDigits (c :: cs.takeWhile Digits.isDecimal), cs.dropWhile Digits.isDecimal)
  else if signs.contains c then (.sign c, cs)
  else if isWordPart c then (ofWord (c :: cs.takeWhile isWordPart), cs.dropWhile isWordPart)
  else if Text.isBlank c then (.blank, cs)
  else if c = '(' then (.other, afterParenthesis 0 cs)
  else (.other, cs)

def split : (steps : Nat) → List Char → List Token
  | 0, _ | _, [] => []
  | steps + 1, c :: cs =>
      let (token, rest) := first c cs
      token :: split steps rest

def ofText (s : String) : List Token :=
  let cs := s.toList.takeWhile (·.toNat ≠ 0)
  split cs.length cs

end Token

end Evidence.Moment
