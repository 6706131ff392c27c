/-!
# OptionPresets.Diagnostic

A diagnostic is a message with a severity and the flag or input text it is
about. It prints as one line,

```
origin: severity: message
```

and without the `origin: ` part when it has no origin.
-/

namespace OptionPresets

/-! ## severities -/

/-- How grave a diagnostic is: only an error makes a run fail. -/
inductive Severity where
  | note
  | warning
  | error
  deriving DecidableEq, Repr

/-- The word that stands for a severity in print. -/
def Severity.text : Severity → String
  | .note => "note"
  | .warning => "warning"
  | .error => "error"

/-! ## diagnostics -/

/-- A message about `origin`, which is empty when the message is about no particular text. -/
structure Diagnostic where
  severity : Severity
  origin : String
  message : String
  deriving DecidableEq, Repr

namespace Diagnostic

/-- An error about `origin`. -/
def error (origin message : String) : Diagnostic := ⟨.error, origin, message⟩

@[simp] theorem severity_error (origin message : String) :
    (error origin message).severity = .error := rfl

@[simp] theorem origin_error (origin message : String) :
    (error origin message).origin = origin := rfl

@[simp] theorem message_error (origin message : String) :
    (error origin message).message = message := rfl

/-- The printed line, with its newline. -/
def render (d : Diagnostic) : String :=
  (if d.origin = "" then "" else d.origin ++ ": ") ++ d.severity.text ++ ": " ++ d.message ++ "\n"

end Diagnostic

end OptionPresets
