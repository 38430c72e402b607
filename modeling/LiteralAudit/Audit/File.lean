import LiteralAudit.Diagnostic

/-!
# The audit of a file

The findings of one file are kept by category.  Within a category they stay in the order in
which they were added, and the categories are in the order of reports.  A category may be
present without a finding.
-/

namespace LiteralAudit

/-- The findings of one file. -/
structure FileAudit where
  /-- The findings by category, in the order of the categories. -/
  groups : List (Category × List Diagnostic)
  /-- The number of documents in the file, if it was read as such. -/
  documents : Option Nat
  deriving DecidableEq, Repr

namespace FileAudit

/-- An audit without findings. -/
def empty : FileAudit := ⟨[], none⟩

/-- The groups with one changed.  A group that was not there comes in empty, in its place. -/
def modifyGroup (category : Category) (change : List Diagnostic → List Diagnostic) :
    List (Category × List Diagnostic) → List (Category × List Diagnostic)
  | [] => [(category, change [])]
  | (other, found) :: groups =>
      if category.ctorIdx < other.ctorIdx then
        (category, change []) :: (other, found) :: groups
      else if category = other then (other, change found) :: groups
      else (other, found) :: modifyGroup category change groups

/-- The audit with one more finding. -/
def push (audit : FileAudit) (found : Diagnostic) : FileAudit :=
  { audit with groups := modifyGroup found.category (· ++ [found]) audit.groups }

/-- The audit with a category present. -/
def touch (audit : FileAudit) (category : Category) : FileAudit :=
  { audit with groups := modifyGroup category id audit.groups }

/-- The audit with more findings. -/
def pushAll (audit : FileAudit) (found : List Diagnostic) : FileAudit := found.foldl push audit

/-- The findings of a category. -/
def get (audit : FileAudit) (category : Category) : List Diagnostic :=
  match audit.groups.find? fun group => group.1 = category with
  | some group => group.2
  | none => []

/-- The findings, category by category. -/
def toList (audit : FileAudit) : List Diagnostic := audit.groups.flatMap Prod.snd

/-- The number of findings. -/
def total (audit : FileAudit) : Nat :=
  (audit.groups.map fun group => group.2.length).foldr (· + ·) 0

/-- Whether there are no findings. -/
def isClean (audit : FileAudit) : Bool := audit.groups.all fun group => group.2.isEmpty

/-- Whether the file could not be read as what it is. -/
def hasParseError (audit : FileAudit) : Bool := !(audit.get .parseError).isEmpty

end FileAudit

/-- What an auditor that breaks down says, if anything. -/
structure Breakdown where
  /-- The words it leaves behind. -/
  words : Option Text
  deriving DecidableEq, Repr

/-- The audit of a path and the text found there. -/
abbrev FileAuditor := Path → Text → Except Breakdown FileAudit

end LiteralAudit
