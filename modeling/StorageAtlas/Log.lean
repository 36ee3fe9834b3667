import StorageAtlas.Text.Basic

/-!
Messages for the reader of a log, each with its severity.
-/

namespace StorageAtlas

inductive Severity where
  | debug
  | info
  | warning
  | error
  deriving DecidableEq, Repr

def Severity.name : Severity → Text
  | debug => "DEBUG"
  | info => "INFO"
  | warning => "WARNING"
  | error => "ERROR"

structure LogLine where
  severity : Severity
  message : Text
  deriving DecidableEq, Repr

namespace LogLine

def debug (message : Text) : LogLine := ⟨.debug, message⟩
def info (message : Text) : LogLine := ⟨.info, message⟩
def warning (message : Text) : LogLine := ⟨.warning, message⟩
def error (message : Text) : LogLine := ⟨.error, message⟩

def text (line : LogLine) : Text := "[" ++ line.severity.name ++ "] " ++ line.message

end LogLine
end StorageAtlas
