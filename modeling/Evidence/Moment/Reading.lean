import Evidence.Moment.Draft
import Evidence.Moment.Token

namespace Evidence.Moment

inductive Word where
  | month (n : Nat)
  | half (more : Nat)
  | zone (hours : Int)
  | unknown

def zones : List (String × Int) := [
  ("ut", 0), ("utc", 0), ("z", 0), ("gmt", 0), ("est", -5), ("edt", -4), ("cst", -6), ("cdt", -5),
  ("mst", -7), ("mdt", -6), ("pst", -8), ("pdt", -7)]

def Word.ofLetters (start : List Char) (length : Nat) : Word :=
  let s := String.ofList start
  match monthNames.findIdx? fun name => name.toLower = s with
  | some i => .month (i + 1)
  | none =>
      if 3 < length then .unknown
      else if s = "am" then .half 0
      else if s = "pm" then .half 12
      else
        match zones.lookup s with
        | some hours => .zone hours
        | none => .unknown

def milliseconds (n length : Nat) : Nat :=
  let length := min length Token.countedDigits
  if length ≤ 3 then n * Nat.pow 10 (3 - length) else n / Nat.pow 10 (length - 3)

def isZulu : Token → Bool
  | .word ['z'] 1 => true
  | _ => false

def pair? (least greatest : Nat) : List Token → Option (Nat × List Token)
  | .number n 2 :: rest => if least ≤ n ∧ n ≤ greatest then some (n, rest) else none
  | _ => none

def marked? (mark : Char) (least greatest : Nat) : List Token → Option (Nat × List Token)
  | .sign c :: rest => if c = mark then pair? least greatest rest else none
  | _ => none

def zone? : List Token → Option Zone
  | [] => some ⟨none, none, none⟩
  | [.word ['z'] 1] => some (.ofHours 0)
  | .sign c :: rest => do
      let sign : Int ← if c = '+' then some 1 else if c = '-' then some (-1) else none
      match rest with
      | [.number n 4] =>
          if n / 100 < 24 ∧ n % 100 < 60 then some ⟨some sign, some (n / 100), some (n % 100)⟩
          else none
      | rest => do
          let (hours, rest) ← pair? 0 23 rest
          let (minutes, rest) ← marked? ':' 0 59 rest
          if rest = [] then some ⟨some sign, some hours, some minutes⟩ else none
  | _ => none

def seconds? (greatest : Nat) : List Token → Option (List Nat × List Token)
  | .sign ':' :: rest => do
      let (second, rest) ← pair? 0 greatest rest
      match rest with
      | .sign '.' :: .number n length :: rest =>
          if greatest = 0 ∧ n ≠ 0 then none else some ([second, milliseconds n length], rest)
      | .sign '.' :: _ => none
      | rest => some ([second], rest)
  | rest => some ([], rest)

def clock? (d : Draft) (tokens : List Token) : Option Draft := do
  let (hour, rest) ← pair? 0 24 tokens
  let greatest := if hour = 24 then 0 else 59
  let (minute, rest) ← marked? ':' 0 greatest rest
  let (seconds, rest) ← seconds? greatest rest
  let zone ← zone? rest
  some { d with clock := hour :: minute :: seconds, zone := zone, isNumeric := true }

inductive Numeric where
  | complete (d : Draft)
  | broken
  | other (d : Draft) (rest : List Token)

def numericClock (d : Draft) : List Token → Numeric
  | [] => .complete { d with isNumeric := true, zone := .ofHours 0 }
  | .word ['t'] 1 :: rest =>
      match clock? d rest with
      | some d => .complete d
      | none => .broken
  | rest => .other d rest

def numericDate (year : Int) (tokens : List Token) : Numeric :=
  let d : Draft := { Draft.empty with day := [year] }
  match tokens with
  | .sign '-' :: rest =>
      match pair? 1 12 rest with
      | none => .other d rest
      | some (month, rest) =>
          let d := { d with day := [year, month] }
          match rest with
          | .sign '-' :: rest =>
              match pair? 1 31 rest with
              | none => .other d rest
              | some (day, rest) => numericClock { d with day := [year, month, day] } rest
          | rest => numericClock d rest
  | rest => numericClock d rest

/-- The numeric form. A year with a sign has six digits, and there is no negative year zero. -/
def numeric : List Token → Numeric
  | .sign '+' :: .number n 6 :: rest => numericDate n rest
  | .sign '-' :: .number n 6 :: rest =>
      if n = 0 then .other .empty (.sign '-' :: rest) else numericDate (-(n : Int)) rest
  | .number n 4 :: rest => numericDate n rest
  | tokens => .other .empty tokens

def endsClock : Token → Bool
  | .blank | .sign '+' | .sign '-' => true
  | token => isZulu token

def skip (mark : Char) : List Token → List Token
  | .sign c :: rest => if c = mark then rest else .sign c :: rest
  | rest => rest

def isNumber : Token → Bool
  | .number .. => true
  | _ => false

/-- A number, with what follows it. Before a colon it belongs to the clock, before a point it is the
seconds with a fraction; otherwise it is taken for whatever is still missing. -/
def addNumber? (d : Draft) (n : Nat) : List Token → Option (Draft × List Token)
  | .sign ':' :: .sign ':' :: rest =>
      if d.clock = [] then some ({ d with clock := [n, 0] }, rest) else none
  | .sign ':' :: rest => (d.addClock? n).map fun d => (d, skip '.' rest)
  | tokens =>
      match tokens, d.awaits n with
      | .sign '.' :: rest, true =>
          match rest, d.addClock? n with
          | .number m length :: rest, some d => some (d.endClock (milliseconds m length), rest)
          | _, _ => none
      | tokens, awaited =>
          let rest := skip '.' tokens
          if d.zone.hours.isSome ∧ d.zone.minutes.isNone ∧ n < 60 then
            some ({ d with zone := { d.zone with minutes := some n } }, rest)
          else if awaited then
            if rest.head?.all endsClock then some (d.endClock n, rest) else none
          else (d.addDay? n).map fun d => (d, skip '-' rest)

def addWord? (d : Draft) (hasNumber : Bool) (w : Word) (rest : List Token) :
    Option (Draft × List Token) :=
  let unknown := if hasNumber || rest.head?.any isNumber then none else some (d, rest)
  match w with
  | .month n => some ({ d with month := some n }, skip '-' rest)
  | .half more => if d.clock = [] then unknown else some ({ d with afternoon := some more }, rest)
  | .zone hours => if hasNumber then some ({ d with zone := .ofHours hours }, rest) else unknown
  | .unknown => unknown

def addZone? (d : Draft) (sign : Int) (tokens : List Token) : Option (Draft × List Token) :=
  let (n, length, rest) := match tokens with
    | .number n length :: rest => (n, length, rest)
    | rest => (0, 0, rest)
  let zoned (hours : Nat) (minutes : Option Nat) : Option (Draft × List Token) :=
    some ({ d with zone := ⟨some sign, some hours, minutes⟩ }, rest)
  if rest.head? = some (.sign ':') then zoned n none
  else if length = 1 ∨ length = 2 then zoned n (some 0)
  else if length = 3 ∨ length = 4 then zoned (n / 100) (some (n % 100))
  else none

def loose? : (steps : Nat) → (hasNumber : Bool) → Draft → List Token → Option Draft
  | _, _, d, [] => some d
  | 0, _, _, _ => none
  | steps + 1, hasNumber, d, token :: rest =>
      match token with
      | .number n _ => do
          let (d, rest) ← addNumber? d n rest
          loose? steps true d rest
      | .word start length => do
          let (d, rest) ← addWord? d hasNumber (.ofLetters start length) rest
          loose? steps hasNumber d rest
      | .sign c =>
          if (c = '+' ∨ c = '-') ∧ (d.zone.isUniversal ∨ d.clock ≠ []) then do
            let (d, rest) ← addZone? d (if c = '+' then 1 else -1) rest
            loose? steps true d rest
          else if (c = '+' ∨ c = '-' ∨ c = ')') ∧ hasNumber then none
          else loose? steps hasNumber d rest
      | .blank | .other => loose? steps hasNumber d rest

def ofText? (s : String) : Option Int :=
  match numeric (Token.ofText s) with
  | .complete d => d.moment?
  | .broken => none
  | .other d rest => do (← loose? (rest.length + 1) (!d.day.isEmpty) d rest).moment?

end Evidence.Moment
