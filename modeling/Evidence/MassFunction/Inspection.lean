import Evidence.MassFunction.Entries

namespace Evidence

structure Entry (α : Type) where
  event : Except (Fault α) Event
  hindrance : Option Misuse
  mass : Value α
  name : String

/-- What has been seen so far. The total counts every mass within range, also one whose event has
a fault. -/
structure Inspection (α : Type) where
  total : α
  masses : Tally Mask α
  faults : List (Fault α)

namespace Inspection

variable {α : Type} [Scalar α]

def start : Inspection α := ⟨0, [], []⟩

def note (s : Inspection α) (f : Fault α) : Inspection α := { s with faults := s.faults ++ [f] }

def inRange? : Value α → Option α
  | .number (.finite x) => if 0 ≤ x ∧ x ≤ 1 then some x else none
  | _ => none

def file (s : Inspection α) (name : String) (e : Event) (x : α) : Inspection α :=
  if x ≤ 0 then s
  else if e.isEmpty then s.note (.massOnEmpty name x)
  else if s.masses.has e.mask then s.note (.repeatedSet e)
  else { s with masses := s.masses ++ [(e.mask, x)] }

def step (s : Inspection α) (entry : Entry α) : Inspection α :=
  match inRange? entry.mass with
  | none => s.note (.massOutOfRange entry.name entry.mass)
  | some x =>
      let s := { s with total := s.total + x }
      match entry.event with
      | .error f => s.note f
      | .ok e => s.file entry.name e x

def finish (f : Frame) (epsilon : α) (s : Inspection α) : Inspection α :=
  if epsilon < distance s.total 1 then s.note (.unnormalized s.total epsilon f) else s

def run (f : Frame) (epsilon : α) (entries : List (Entry α)) : Inspection α :=
  finish f epsilon (entries.foldl step start)

end Inspection

variable {α : Type} [Scalar α]

/-- Why an entry cannot be inspected. A mass out of range is shown by its text; only where the mass
is in range is the event looked for. -/
def Entry.misuse? (e : Entry α) : Option Misuse :=
  match Inspection.inRange? e.mass with
  | some _ => e.hindrance
  | none => if e.mass.hasText then none else some .noText

def Inspection.attempt (f : Frame) (epsilon : α) (entries : List (Entry α)) :
    Except (Failure α) (Inspection α) :=
  match entries.findSome? Entry.misuse? with
  | some m => .error (.misuse m)
  | none => .ok (Inspection.run f epsilon entries)

def MassFunction.ofInspection (f : Frame) (epsilon : α) (s : Inspection α) :
    Except (Fault α) (MassFunction α) :=
  match s.faults with
  | [] => .ok ⟨f, s.masses, epsilon⟩
  | fault :: _ => .error fault

def MassFunction.ofInspected (f : Frame) (epsilon : α) (entries : List (Entry α)) :
    Except (Failure α) (MassFunction α) := do
  let s ← Inspection.attempt f epsilon entries
  Failure.ofFault (ofInspection f epsilon s)

end Evidence
