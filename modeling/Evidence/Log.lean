import Evidence.Value.Basic
import Evidence.Text.Blank

namespace Evidence.Log

inductive Level where
  | debug
  | info
  | warn
  | error
  deriving DecidableEq

namespace Level

def all : List Level := [debug, info, warn, error]

def name : Level → String
  | debug => "debug"
  | info => "info"
  | warn => "warn"
  | error => "error"

def rank : Level → Nat
  | debug => 0
  | info => 1
  | warn => 2
  | error => 3

def variableName : String := "DSFUSION_LOG_LEVEL"

/-- A setting as the environment keeps it: its first NUL ends it. -/
def kept (setting : String) : String := String.ofList (setting.toList.takeWhile (·.toNat ≠ 0))

/-- The level that a setting names, whatever its case and the blanks around it. Only ASCII letters
have a case that matters here. Without such a name it is the level of warnings. -/
def ofSetting (setting : Option String) : Level :=
  match setting with
  | none => warn
  | some s =>
      let wanted := (Text.trim (kept s)).map Char.toLower
      (all.find? (·.name = wanted)).getD warn

end Level

inductive Channel where
  | warn
  | error

def Channel.name : Channel → String
  | warn => "warn"
  | error => "error"

structure Entry (α : Type) where
  level : Level
  message : String
  context : List (String × Value α)

structure Line (α : Type) where
  channel : Channel
  message : String
  context : Option (List (String × Value α))

variable {α : Type}

def Entry.line? (lowest : Level) (e : Entry α) : Option (Line α) :=
  if e.level.rank < lowest.rank then none
  else some {
    channel := if e.level = .warn then .warn else .error
    message := e.message
    context := if e.context.isEmpty then none else some e.context }

end Evidence.Log
