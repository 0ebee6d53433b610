/-
# Faults of file operations

Why an operation on files does not succeed, with the path that it was about and, for a move, the
path that it moves to.
-/
import SchemaTypes.Text.Quoted

namespace SchemaTypes

/-- Why a file operation fails. -/
inductive FaultCause where
  | missing
  | busy
  | exists
  | notDirectory
  | isDirectory
  | nameTooLong
  | nullByte
deriving DecidableEq, Repr

/-- A failed file operation. -/
structure Fault where
  cause : FaultCause
  path : String
  target : Option String := none
deriving DecidableEq, Repr

namespace FaultCause

/-- The word for a cause in a message. -/
def name : FaultCause → String
  | .missing => "FileNotFoundError"
  | .busy => "OSError"
  | .exists => "FileExistsError"
  | .notDirectory => "NotADirectoryError"
  | .isDirectory => "IsADirectoryError"
  | .nameTooLong => "OSError"
  | .nullByte => "ValueError"

/-- The number and the words of the operating system for a cause. -/
def report : FaultCause → String
  | .missing => "[Errno 2] No such file or directory"
  | .busy => "[Errno 16] Device or resource busy"
  | .exists => "[Errno 17] File exists"
  | .notDirectory => "[Errno 20] Not a directory"
  | .isDirectory => "[Errno 21] Is a directory"
  | .nameTooLong => "[Errno 36] File name too long"
  | .nullByte => "embedded null byte"

/-- The operating system found the fault; a null byte does not get that far. -/
def isSystem (c : FaultCause) : Bool := c != .nullByte

/-- There is nothing at the path, and this is no failure for a question about it. -/
def isAbsence (c : FaultCause) : Bool := c == .missing || c == .notDirectory || c == .nullByte

end FaultCause

/-- The text of a fault. -/
def Fault.text (f : Fault) : String :=
  if f.cause.isSystem then
    f.cause.report ++ ": " ++ Text.quotedText f.path
      ++ (match f.target with
          | some t => " -> " ++ Text.quotedText t
          | none => "")
  else f.cause.report

end SchemaTypes
