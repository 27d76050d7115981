import Evidence.Value.Basic
import Evidence.Schema.Issue

namespace Evidence

/-- The value, unless its kind was wrong, and the issues. A value that only fails a check of its
range stays usable, so that later checks are still made. -/
structure Checked (α : Type) where
  value : Option (Value α)
  issues : List Issue

abbrev Schema (α : Type) := Value α → Checked α

namespace Checked

variable {α : Type}

def accepted (v : Value α) : Checked α := ⟨some v, []⟩

def wrong (cause : Issue.Cause) : Checked α := ⟨none, [.here cause]⟩

def wrongKind (expected : String) (v : Value α) : Checked α :=
  wrong (if v.isAbsent then .missing else .wrongKind expected v.kind)

def note (c : Checked α) (i : Issue) : Checked α := { c with issues := c.issues ++ [i] }

def below (step : Issue.Step) (c : Checked α) : Checked α :=
  { c with issues := c.issues.map (·.below step) }

def gather {κ : Type} (parts : List (κ × Checked α)) (whole : List (κ × Value α) → Value α) :
    Checked α where
  value := (parts.mapM fun (p : κ × Checked α) => p.2.value.map (p.1, ·)).map whole
  issues := parts.flatMap (·.2.issues)

end Checked

namespace Schema

variable {α : Type}

def validate (s : Schema α) (v : Value α) : Except (List Issue) (Value α) :=
  match s v with
  | ⟨some checked, []⟩ => .ok checked
  | ⟨_, issues⟩ => .error issues

def optional (s : Schema α) : Schema α
  | .absent => .accepted .absent
  | v => s v

def literal (expected : String) : Schema α
  | .text s => if s = expected then .accepted (.text s) else .wrong (.notLiteral expected)
  | _ => .wrong (.notLiteral expected)

def choice (choices : List String) : Schema α
  | .text s => if choices.contains s then .accepted (.text s) else .wrong (.notChoice choices s)
  | v => .wrongKind (Issue.choicesText choices) v

def bool : Schema α
  | .bool b => .accepted (.bool b)
  | v => .wrongKind "boolean" v

def text : Schema α
  | .text s => .accepted (.text s)
  | v => .wrongKind "string" v

def nonemptyText : Schema α
  | .text s =>
      let c := Checked.accepted (.text s)
      if s = "" then c.note (.here (.tooSmall "String must contain at least 1 character(s)")) else c
  | v => text v

structure Requirement (α : Type) where
  holds : Quantity α → Bool
  cause : Issue.Cause

def number (requirements : List (Requirement α)) : Schema α
  | .number .nan => .wrongKind "number" (.number .nan)
  | .number x =>
      (requirements.filter fun r => !r.holds x).foldl (fun c r => c.note (.here r.cause))
        (.accepted (.number x))
  | v => .wrongKind "number" v

def either (first second : Schema α) : Schema α := fun v =>
  match first v, second v with
  | ⟨some a, []⟩, _ => .accepted a
  | _, ⟨some b, []⟩ => .accepted b
  | ⟨some a, issues⟩, _ => ⟨some a, issues⟩
  | _, ⟨some b, issues⟩ => ⟨some b, issues⟩
  | _, _ => .wrong .noneFits

def nonemptyList (item : Schema α) : Schema α
  | .list items =>
      let parts := items.mapIdx fun i v => (i, (item v).below (.item i))
      let c := Checked.gather parts fun checked => .list (checked.map (·.2))
      if items.isEmpty then
        c.note (.here (.tooSmall "Array must contain at least 1 element(s)"))
      else c
  | v => .wrongKind "array" v

variable [NatCast α]

def record (item : Schema α) : Schema α := fun v =>
  match v.record? with
  | some fields =>
      let parts := fields.map fun (key, v) => (key, (item v).below (.field key))
      Checked.gather parts fun checked => .object (Record.erase Record.unkeptKey checked)
  | none => .wrongKind "object" v

/-- An object with the fields of a shape. Other fields are dropped, and a field that was not given
stays away even where its schema allows that. -/
def object (shape : List (String × Schema α)) : Schema α := fun v =>
  match v.record? with
  | some fields =>
      let parts := shape.map fun (key, s) =>
        (key, (s ((Record.get? key fields).getD .absent)).below (.field key))
      Checked.gather parts fun checked =>
        .object (checked.filter fun p => (Record.get? p.1 fields).isSome || !p.2.isAbsent)
  | none => .wrongKind "object" v

def refine (s : Schema α) (condition : Value α → Bool) (issue : Issue) : Schema α := fun v =>
  match s v with
  | ⟨some checked, issues⟩ =>
      if condition checked then ⟨some checked, issues⟩ else ⟨some checked, issues ++ [issue]⟩
  | unusable => unusable

end Schema

end Evidence
