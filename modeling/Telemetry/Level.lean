/-!
# Severity levels

Four levels, ordered by severity.  A level travels as one byte, is named in
configuration files by its name and in log lines by its label.
-/

namespace Telemetry

inductive Level where
  | debug
  | info
  | warning
  | error
  deriving DecidableEq, Repr

namespace Level

/-- All levels, least severe first. -/
def all : List Level := [debug, info, warning, error]

/-- The byte that stands for a level on the wire. -/
def code : Level → UInt8
  | debug => 0
  | info => 1
  | warning => 2
  | error => 3

def ofCode? (code : UInt8) : Option Level :=
  all.find? (·.code = code)

/-- The name used in configuration documents. -/
def name : Level → String
  | debug => "Debug"
  | info => "Info"
  | warning => "Warning"
  | error => "Error"

def ofName? (name : String) : Option Level :=
  all.find? (·.name = name)

/-- The label used in log lines. -/
def label : Level → String
  | debug => "DEBUG"
  | info => "INFO"
  | warning => "WARN"
  | error => "ERROR"

instance : Ord Level where
  compare a b := compare a.code b.code

instance : Max Level where
  max a b := if a.code ≤ b.code then b else a

instance : ToString Level where
  toString := label

@[simp]
theorem ofCode?_code (level : Level) : ofCode? level.code = some level := by
  cases level <;> rfl

@[simp]
theorem ofName?_name (level : Level) : ofName? level.name = some level := by
  cases level <;> decide

end Level

end Telemetry
