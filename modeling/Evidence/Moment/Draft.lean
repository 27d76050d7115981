import Evidence.Moment.Basic

namespace Evidence.Moment

structure Zone where
  sign : Option Int
  hours : Option Nat
  minutes : Option Nat

structure Draft where
  day : List Int
  month : Option Nat
  isNumeric : Bool
  clock : List Nat
  afternoon : Option Nat
  zone : Zone

namespace Zone

def ofHours (hours : Int) : Zone := ⟨some (if hours < 0 then -1 else 1), some hours.natAbs, some 0⟩

def isUniversal (z : Zone) : Bool := z.hours = some 0 && z.minutes = some 0

/-- The milliseconds by which the clock is ahead. A clock of which nothing is said shows universal
time. The seconds are kept in a word of 32 bits, of which the sign takes one. -/
def ahead? (z : Zone) : Option Int :=
  let seconds := ((z.hours.getD 0 * 60 + z.minutes.getD 0) * 60) % 4294967296
  match z.sign with
  | none => some 0
  | some sign => if seconds < 2147483648 then some (sign * seconds * 1000) else none

end Zone

def isMonth (n : Int) : Bool := 1 ≤ n && n ≤ 12

def isDay (n : Int) : Bool := 1 ≤ n && n ≤ 31

namespace Draft

def empty : Draft := ⟨[], none, false, [], none, ⟨none, none, none⟩⟩

def addDay? (d : Draft) (n : Int) : Option Draft :=
  if d.day.length < 3 then some { d with day := d.day ++ [n] } else none

def addClock? (d : Draft) (n : Nat) : Option Draft :=
  if d.clock.length < 4 then some { d with clock := d.clock ++ [n] } else none

def endClock (d : Draft) (n : Nat) : Draft :=
  { d with clock := (d.clock ++ [n, 0, 0, 0]).take 4 }

def awaits (d : Draft) (n : Nat) : Bool :=
  match d.clock.length with
  | 1 | 2 => n < 60
  | 3 => n < 1000
  | _ => false

def fullYear (year : Int) : Int :=
  if 0 ≤ year ∧ year ≤ 49 then year + 2000
  else if 50 ≤ year ∧ year ≤ 99 then year + 1900
  else year

def date (d : Draft) : Int × Int × Int :=
  let first := d.day.getD 0 1
  let second := d.day.getD 1 1
  let third := d.day.getD 2 1
  match d.month with
  | some month =>
      if isDay first then (fullYear second, month, first) else (fullYear first, month, second)
  | none =>
      if d.isNumeric then (first, second, third)
      else if isDay first then (fullYear third, first, second)
      else (fullYear first, second, third)

def hour? (d : Draft) : Option Nat :=
  let hour := d.clock.getD 0 0
  match d.afternoon with
  | none => some hour
  | some more => if hour ≤ 12 then some (hour % 12 + more) else none

def time? (d : Draft) : Option Int := do
  let hour ← d.hour?
  let minute := d.clock.getD 1 0
  let second := d.clock.getD 2 0
  let millisecond := d.clock.getD 3 0
  let passed : Nat := ((hour * 60 + minute) * 60 + second) * 1000 + millisecond
  if minute < 60 ∧ second < 60 ∧ millisecond < 1000 ∧ (hour < 24 ∨ passed = 86400000) then
    some passed
  else none

def moment? (d : Draft) : Option Int := do
  let (year, month, day) := d.date
  let time ← d.time?
  let ahead ← d.zone.ahead?
  if d.day ≠ [] ∧ isMonth month ∧ isDay day then
    ofMilliseconds? (dayOf year month day * 86400000 + time - ahead)
  else none

end Draft

end Evidence.Moment
