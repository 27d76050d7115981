import Evidence.Number.Digits

namespace Evidence.Moment

/-- The day count of a date of the Gregorian calendar. A month begins where days are counted in
years that start with March, so that the leap day comes last. -/
def dayOf (year month day : Int) : Int :=
  let y := if month ≤ 2 then year - 1 else year
  let m := (month + 9) % 12
  365 * y + y / 4 - y / 100 + y / 400 + (153 * m + 2) / 5 + day - 719469

def dateOf (days : Int) : Int × Int × Int :=
  let z := days + 719468
  let era := z / 146097
  let inEra := z % 146097
  let yearOfEra := (inEra - inEra / 1460 + inEra / 36524 - inEra / 146096) / 365
  let inYear := inEra - (365 * yearOfEra + yearOfEra / 4 - yearOfEra / 100)
  let m := (5 * inYear + 2) / 153
  let month := if m < 10 then m + 3 else m - 9
  let year := yearOfEra + era * 400 + (if month ≤ 2 then 1 else 0)
  (year, month, inYear - (153 * m + 2) / 5 + 1)

def greatest : Int := 8640000000000000

def ofMilliseconds? (t : Int) : Option Int := if t.natAbs ≤ greatest.natAbs then some t else none

def dayNames : List String := ["Thu", "Fri", "Sat", "Sun", "Mon", "Tue", "Wed"]

def monthNames : List String :=
  ["Jan", "Feb", "Mar", "Apr", "May", "Jun", "Jul", "Aug", "Sep", "Oct", "Nov", "Dec"]

def padded (width : Nat) (n : Nat) : String :=
  let digits := Nat.toDigits 10 n
  String.ofList (List.replicate (width - digits.length) '0' ++ digits)

def clockText (t : Int) : String :=
  let seconds := (t % 86400000 / 1000).toNat
  padded 2 (seconds / 3600) ++ ":" ++ padded 2 (seconds / 60 % 60) ++ ":" ++ padded 2 (seconds % 60)

def text (t : Int) : String :=
  let days := t / 86400000
  let (year, month, day) := dateOf days
  let yearText := (if year < 0 then "-" else "") ++ padded 4 year.natAbs
  dayNames.getD (days % 7).toNat "" ++ " " ++ monthNames.getD (month - 1).toNat "" ++ " " ++
    padded 2 day.toNat ++ " " ++ yearText ++ " " ++ clockText t ++
    " GMT+0000 (Coordinated Universal Time)"

def numericText (t : Int) : String :=
  let (year, month, day) := dateOf (t / 86400000)
  let yearText :=
    if year < 0 then "-" ++ padded 6 year.natAbs
    else if 9999 < year then "+" ++ padded 6 year.natAbs
    else padded 4 year.natAbs
  yearText ++ "-" ++ padded 2 month.toNat ++ "-" ++ padded 2 day.toNat ++ "T" ++ clockText t ++
    "." ++ padded 3 (t % 1000).toNat ++ "Z"

def invalidText : String := "Invalid Date"

end Evidence.Moment
