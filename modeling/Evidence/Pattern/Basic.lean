import Evidence.Pattern.Bracket
import Evidence.Pattern.Name

namespace Evidence.Pattern

def flagLetters : List Char := ['d', 'g', 'i', 'm', 's', 'u', 'v', 'y']

def flagsAreValid (flags : List Char) : Bool :=
  flags.all flagLetters.contains && flagLetters.all (fun c => flags.count c ≤ 1) &&
    !(flags.contains 'u' && flags.contains 'v')

def greatestBound : Nat := 2147483647

def bounds? : Parse (Nat × Nat) := fun signs =>
  let digits (signs : List Sign) : List Char :=
    (signs.map (·.char)).takeWhile Digits.isDecimal
  let value (ds : List Char) : Nat := min (Digits.read 10 ds) greatestBound
  let low := digits signs
  if low = [] then none
  else
    match signs.drop low.length with
    | ⟨'}', _⟩ :: rest => some ((value low, value low), rest)
    | ⟨',', _⟩ :: ⟨'}', _⟩ :: rest => some ((value low, greatestBound), rest)
    | ⟨',', _⟩ :: rest =>
        let high := digits rest
        match rest.drop high.length with
        | ⟨'}', _⟩ :: rest => some ((value low, value high), rest)
        | _ => none
    | _ => none

/-- What is known of a pattern up to a place: the groups that are open, each with whether it can be
repeated, whether what stands before can be, and the names that were given and referred to. -/
structure Progress where
  groups : List Bool
  isRepeatable : Bool
  names : List (List Nat)
  references : List (List Nat)

namespace Progress

def repeatable (p : Progress) (isRepeatable : Bool) : Progress :=
  { p with isRepeatable := isRepeatable }

def entered (p : Progress) (group : Bool) : Progress :=
  { p with groups := group :: p.groups, isRepeatable := false }

def isComplete (p : Progress) : Bool := p.groups.isEmpty && p.references.all p.names.contains

end Progress

def opened? (d : Dialect) (p : Progress) : List Sign → Option (Progress × List Sign)
  | ⟨'?', _⟩ :: ⟨':', _⟩ :: rest => some (p.entered true, rest)
  | ⟨'?', _⟩ :: ⟨'=', _⟩ :: rest | ⟨'?', _⟩ :: ⟨'!', _⟩ :: rest =>
      some (p.entered !d.isStrict, rest)
  | ⟨'?', _⟩ :: ⟨'<', _⟩ :: ⟨'=', _⟩ :: rest | ⟨'?', _⟩ :: ⟨'<', _⟩ :: ⟨'!', _⟩ :: rest =>
      some (p.entered false, rest)
  | ⟨'?', _⟩ :: ⟨'<', _⟩ :: rest => do
      let (name, rest) ← Name.name? rest
      if p.names.contains name then none
      else some ({ p.entered true with names := name :: p.names }, rest)
  | ⟨'?', _⟩ :: _ => none
  | rest => some (p.entered true, rest)

def afterReference? (d : Dialect) (signs : List Sign) : Option (List Sign) :=
  let digits := (signs.map (·.char)).takeWhile Digits.isDecimal
  if Digits.read 10 digits ≤ d.groups then some (signs.drop digits.length) else none

def escaped? (d : Dialect) (p : Progress) : List Sign → Option (Progress × List Sign)
  | [] => none
  | s :: rest =>
      let goOn (rest : List Sign) : Progress × List Sign := (p.repeatable true, rest)
      let c := s.char
      if c = 'b' ∨ c = 'B' then some (p.repeatable false, rest)
      else if Bracket.needsClass d s then
        match Bracket.class? d (s :: rest) with
        | some (hasTexts, rest) => if hasTexts && !d.hasSets then none else some (goOn rest)
        | none => none
      else if c = 'k' ∧ (d.isStrict ∨ d.hasNames) then
        match rest with
        | ⟨'<', _⟩ :: rest => do
            let (name, rest) ← Name.name? rest
            some ({ p.repeatable true with references := name :: p.references }, rest)
        | _ => none
      else if c.isDigit ∧ c ≠ '0' then
        match afterReference? d (s :: rest) with
        | some rest => some (goOn rest)
        | none => if d.isStrict then none else (Sign.escaped? d false (s :: rest)).map (goOn ·.2)
      else (Sign.escaped? d false (s :: rest)).map (goOn ·.2)

def skipLazy : List Sign → List Sign
  | ⟨'?', _⟩ :: rest => rest
  | rest => rest

def step? (d : Dialect) (p : Progress) (s : Sign) (rest : List Sign) :
    Option (Progress × List Sign) :=
  match s.char with
  | '\\' => escaped? d p rest
  | '(' => opened? d p rest
  | ')' =>
      match p.groups with
      | group :: groups => some ({ p.repeatable group with groups := groups }, rest)
      | [] => none
  | '[' => (Bracket.after? d rest).map (p.repeatable true, ·)
  | '*' | '+' | '?' => if p.isRepeatable then some (p.repeatable false, skipLazy rest) else none
  | '{' =>
      match bounds? rest with
      | some ((low, high), rest) =>
          if p.isRepeatable ∧ low ≤ high then some (p.repeatable false, skipLazy rest) else none
      | none => if d.isStrict then none else some (p.repeatable true, rest)
  | '}' | ']' => if d.isStrict then none else some (p.repeatable true, rest)
  | '|' | '^' | '$' => some (p.repeatable false, rest)
  | _ => some (p.repeatable true, rest)

def reads (d : Dialect) : (steps : Nat) → Progress → List Sign → Bool
  | _, p, [] => p.isComplete
  | 0, _, _ => false
  | steps + 1, p, s :: rest =>
      match step? d p s rest with
      | some (p, rest) => reads d steps p rest
      | none => false

/-- How many groups are opened in a pattern, and whether any has a name. What stands in brackets or
after a backslash is passed over. -/
def survey : (inSet : Bool) → List Sign → Nat × Bool
  | _, [] => (0, false)
  | _, [⟨'\\', _⟩] => (0, false)
  | inSet, ⟨'\\', _⟩ :: _ :: rest => survey inSet rest
  | true, s :: rest => survey (s.char != ']') rest
  | false, ⟨'[', _⟩ :: rest => survey true rest
  | false, ⟨'(', _⟩ :: rest =>
      let (count, hasNames) := survey false rest
      match rest with
      | ⟨'?', _⟩ :: ⟨'<', _⟩ :: s :: _ =>
          if s.char = '=' ∨ s.char = '!' then (count, hasNames) else (count + 1, true)
      | ⟨'?', _⟩ :: _ => (count, hasNames)
      | _ => (count + 1, hasNames)
  | false, _ :: rest => survey false rest

def isValid (pattern flags : String) : Bool :=
  let isStrict := flags.toList.contains 'u' || flags.toList.contains 'v'
  let signs := Sign.ofText isStrict pattern
  let (groups, hasNames) := survey false signs
  let d : Dialect := ⟨isStrict, flags.toList.contains 'v', hasNames, groups⟩
  flagsAreValid flags.toList && reads d (signs.length + 1) ⟨[], false, [], []⟩ signs

/-- A pattern as it is shown between slashes: a slash outside of brackets and the ends of lines are
escaped, unless they are already. -/
def source : (inSet isEscaped : Bool) → List Char → List Char
  | _, _, [] => []
  | inSet, isEscaped, c :: cs =>
      let inSet' := if isEscaped then inSet
        else if c = '[' then true
        else if c = ']' then false
        else inSet
      let rest := source inSet' (c = '\\' && !isEscaped) cs
      let written (signs : List Char) : List Char := (if isEscaped then [] else ['\\']) ++ signs
      if c = '/' ∧ !inSet ∧ !isEscaped then '\\' :: c :: rest
      else if c = '\n' then written ['n'] ++ rest
      else if c = '\r' then written ['r'] ++ rest
      else if c.toNat = 0x2028 then written "u2028".toList ++ rest
      else if c.toNat = 0x2029 then written "u2029".toList ++ rest
      else c :: rest

def text (pattern flags : String) : String :=
  let shown := if pattern = "" then "(?:)" else String.ofList (source false false pattern.toList)
  "/" ++ shown ++ "/" ++ String.ofList (flagLetters.filter flags.toList.contains)

end Evidence.Pattern
