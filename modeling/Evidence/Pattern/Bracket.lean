import Evidence.Pattern.Property

namespace Evidence.Pattern.Bracket

inductive Member where
  | one (code : Nat)
  | many

def classLetters : List Char := ['d', 'D', 's', 'S', 'w', 'W']

def class? (d : Dialect) : Parse Bool
  | s :: rest =>
      if classLetters.contains s.char then some (false, rest)
      else if d.isStrict ∧ (s.char = 'p' ∨ s.char = 'P') then
        Property.after? d (s.char = 'P') rest
      else none
  | [] => none

def needsClass (d : Dialect) (s : Sign) : Bool :=
  classLetters.contains s.char || (d.isStrict && (s.char = 'p' || s.char = 'P'))

def escaped? (d : Dialect) : Parse Nat
  | [] => none
  | s :: rest =>
      if s.char = 'b' then some (8, rest)
      else if s.char = '-' ∧ d.isStrict then some (s.code, rest)
      else Sign.escaped? d true (s :: rest)

def member? (d : Dialect) : Parse Member
  | [] => none
  | ⟨'\\', _⟩ :: rest =>
      if rest.head?.any (needsClass d) then
        (class? d rest).map fun p => (.many, p.2)
      else (escaped? d rest).map fun p => (.one p.1, p.2)
  | s :: rest => some (.one s.code, rest)

def afterRow? (d : Dialect) : (steps : Nat) → List Sign → Option (List Sign)
  | _, ⟨']', _⟩ :: rest => some rest
  | 0, _ => none
  | steps + 1, signs => do
      let (low, rest) ← member? d signs
      match rest with
      | ⟨'-', _⟩ :: ⟨']', _⟩ :: rest => some rest
      | ⟨'-', _⟩ :: rest =>
          let (high, rest) ← member? d rest
          match low, high with
          | .one m, .one n => if m ≤ n then afterRow? d steps rest else none
          | _, _ => if d.isStrict then none else afterRow? d steps rest
      | rest => afterRow? d steps rest

def reserved : List Char := ['(', ')', '[', ']', '{', '}', '/', '-', '\\', '|']

def punctuation : List Char :=
  ['&', '-', '!', '#', '%', ',', ':', ';', '<', '=', '>', '@', '`', '~']

def doubled : List Char := ['&', '!', '#', '$', '%', '*', '+', ',', '.', ':', ';', '<', '=', '>',
  '?', '@', '^', '`', '~']

def character? (d : Dialect) : Parse Nat
  | [] => none
  | ⟨'\\', _⟩ :: s :: rest =>
      if punctuation.contains s.char then some (s.code, rest) else escaped? d (s :: rest)
  | s :: rest =>
      if reserved.contains s.char then none
      else if doubled.contains s.char ∧ rest.head? = some s then none
      else some (s.code, rest)

def texts? (d : Dialect) : (steps characters : Nat) → Parse Bool
  | 0, _, _ => none
  | _, characters, ⟨'}', _⟩ :: rest => some (characters != 1, rest)
  | steps + 1, characters, ⟨'|', _⟩ :: rest => do
      let (others, rest) ← texts? d steps 0 rest
      some (characters != 1 || others, rest)
  | steps + 1, characters, signs => do
      let (_, rest) ← character? d signs
      texts? d steps (characters + 1) rest

structure Operand where
  member : Member
  hasTexts : Bool

mutual

def operand? (d : Dialect) : (steps : Nat) → Parse Operand
  | 0, _ => none
  | steps + 1, signs =>
      match signs with
      | ⟨'\\', _⟩ :: ⟨'q', _⟩ :: ⟨'{', _⟩ :: rest =>
          (texts? d steps 0 rest).map fun p => (⟨.many, p.1⟩, p.2)
      | ⟨'\\', _⟩ :: s :: rest =>
          if needsClass d s then (class? d (s :: rest)).map fun p => (⟨.many, p.1⟩, p.2)
          else (character? d signs).map fun p => (⟨.one p.1, false⟩, p.2)
      | ⟨'[', _⟩ :: rest => (set? d steps rest).map fun p => (⟨.many, p.1⟩, p.2)
      | signs => (character? d signs).map fun p => (⟨.one p.1, false⟩, p.2)

def set? (d : Dialect) : (steps : Nat) → Parse Bool
  | 0, _ => none
  | steps + 1, signs => do
      let isNegated := signs.head?.any (·.char = '^')
      let inner := if isNegated then signs.tail else signs
      let (hasTexts, rest) ← match inner with
        | ⟨']', _⟩ :: rest => some (false, rest)
        | inner => do
            let (first, rest) ← operand? d steps inner
            match rest with
            | ⟨'-', _⟩ :: ⟨'-', _⟩ :: _ => (less? d steps rest).map fun p => (first.hasTexts, p.2)
            | ⟨'&', _⟩ :: ⟨'&', _⟩ :: _ =>
                (common? d steps rest).map fun p => (first.hasTexts && p.1, p.2)
            | rest => (union? d steps first rest).map fun p => (first.hasTexts || p.1, p.2)
      if isNegated && hasTexts then none else some (hasTexts, rest)

def less? (d : Dialect) : (steps : Nat) → Parse Unit
  | 0, _ => none
  | _, ⟨']', _⟩ :: rest => some ((), rest)
  | steps + 1, ⟨'-', _⟩ :: ⟨'-', _⟩ :: rest => do
      let (_, rest) ← operand? d steps rest
      less? d steps rest
  | _, _ => none

def common? (d : Dialect) : (steps : Nat) → Parse Bool
  | 0, _ => none
  | _, ⟨']', _⟩ :: rest => some (true, rest)
  | steps + 1, ⟨'&', _⟩ :: ⟨'&', _⟩ :: rest => do
      if rest.head?.any (·.char = '&') then none
      let (o, rest) ← operand? d steps rest
      let (others, rest) ← common? d steps rest
      some (o.hasTexts && others, rest)
  | _, _ => none

def union? (d : Dialect) : (steps : Nat) → Operand → Parse Bool
  | 0, _, _ => none
  | _, _, ⟨']', _⟩ :: rest => some (false, rest)
  | _, _, ⟨'-', _⟩ :: ⟨'-', _⟩ :: _ => none
  | steps + 1, last, ⟨'-', _⟩ :: rest => do
      let (high, rest) ← operand? d steps rest
      match last.member, high.member with
      | .one m, .one n => if m ≤ n then union? d steps ⟨.many, false⟩ rest else none
      | _, _ => none
  | steps + 1, _, signs => do
      let (o, rest) ← operand? d steps signs
      let (others, rest) ← union? d steps o rest
      some (o.hasTexts || others, rest)

end

def after? (d : Dialect) (signs : List Sign) : Option (List Sign) :=
  if d.hasSets then (set? d (2 * signs.length + 2) signs).map (·.2)
  else
    let inner := if signs.head?.any (·.char = '^') then signs.tail else signs
    afterRow? d (inner.length + 1) inner

end Evidence.Pattern.Bracket
