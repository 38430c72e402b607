import LiteralAudit.Text.Basic

/-!
# Faults of the file system

Why a file or directory could not be read or written.
-/

namespace LiteralAudit

/-- Why an operation on files failed. -/
inductive IoFault where
  /-- There is nothing at the path. -/
  | missing
  /-- A step of the path that should be a directory is none. -/
  | notDirectory
  /-- There is a directory where a file is needed. -/
  | isDirectory
  /-- There is something else at the path. -/
  | alreadyExists
  /-- The path goes through too many links. -/
  | tooManyLinks
  /-- A name is too long. -/
  | nameTooLong
  /-- A name holds a zero byte. -/
  | zeroByte
  /-- The bytes of the file are no text. -/
  | notText
  /-- Another reason, given in words. -/
  | other (message : Text)
  /-- The file is not there, as said in words. -/
  | missingBecause (message : Text)
  deriving DecidableEq, Repr

namespace IoFault

/-- Whether the fault is that nothing is there. -/
def isMissing : IoFault → Bool
  | .missing | .missingBecause _ => true
  | _ => false

/-- The words for a fault. -/
def message : IoFault → Text
  | .missing => "No such file or directory (os error 2)"
  | .notDirectory => "Not a directory (os error 20)"
  | .isDirectory => "Is a directory (os error 21)"
  | .alreadyExists => "File exists (os error 17)"
  | .tooManyLinks => "Too many levels of symbolic links (os error 40)"
  | .nameTooLong => "File name too long (os error 36)"
  | .zeroByte => "file name contained an unexpected NUL byte"
  | .notText => "stream did not contain valid UTF-8"
  | .other message => message
  | .missingBecause message => message

end IoFault

end LiteralAudit
