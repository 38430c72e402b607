import LiteralAudit.Config.Reading
import Mathlib.Data.List.Forall2

/-!
# What a configuration file may say

A configuration file has sections with settings, and each setting is of some kind (`schema`).  A
document *misfits* if it has a key that is not known or a value that is not of its kind, at any
level (`Misfits`).  Otherwise it *gives* a configuration: a setting that it has is as it says, and
any other keeps its default (`Gives`).

Both are stated for any form that a section may have.  The usual form is a table.  The other one
is an array that gives the settings by position.
-/

namespace LiteralAudit

open Toml

/-! ## Kinds of values -/

namespace Toml.Node

/-- The items of an array. -/
def items? : Node → Option (List Node)
  | .array items _ => some items
  | .tables items _ => some items.reverse
  | _ => none

/-- Whether a table has no entries, or an array no items. -/
def isHollow : Node → Bool
  | .table _ [] _ | .array [] _ => true
  | _ => false

/-- A value is a text. -/
def IsText (node : Node) (text : Text) : Prop := ∃ span, node = .scalar (.text text) span

/-- A value is an array of texts. -/
def IsTexts (node : Node) (texts : List Text) : Prop :=
  ∃ items, node.items? = some items ∧ List.Forall₂ IsText items texts

/-- A value is a truth value. -/
def IsFlag (node : Node) (flag : Bool) : Prop := ∃ span, node = .scalar (.bool flag) span

/-- A value is the text of a path. -/
def IsPath (node : Node) (path : Path) : Prop := ∃ text, node.IsText text ∧ path = .ofText text

/-- A value is a natural number of at most 64 bits. -/
def IsCount (node : Node) (count : Nat) : Prop :=
  ∃ span, node = .scalar (.whole count) span ∧ count < Nat.pow 2 64

/-- A value is the name of a mode, or a table with that name as its only key and nothing in
it. -/
def IsMode (node : Node) (mode : Theme) : Prop :=
  node.IsText mode.name ∨
    ∃ origin place inner span, node = .table origin [(mode.name, place, inner)] span ∧
      inner.isHollow = true

end Toml.Node

/-- The names and values of some entries. -/
def Toml.Entries.values (entries : Entries) : List (Text × Node) :=
  entries.map fun entry => (entry.1, entry.2.2)

namespace ConfigFile

/-- The kinds of settings. -/
inductive Kind where
  /-- An array of texts. -/
  | texts
  /-- A truth value. -/
  | flag
  /-- A path. -/
  | path
  /-- A mode. -/
  | mode
  /-- A natural number. -/
  | count
  deriving DecidableEq, Repr

/-- A value is of a kind. -/
def Kind.Fits : Kind → Node → Prop
  | .texts, node => ∃ texts, node.IsTexts texts
  | .flag, node => ∃ flag, node.IsFlag flag
  | .path, node => ∃ path, node.IsPath path
  | .mode, node => ∃ mode, node.IsMode mode
  | .count, node => ∃ count, node.IsCount count

/-! ## Sections -/

/-- The settings of the walk. -/
def scannerSettings : List (Text × Kind) :=
  [("exclude_dirs", .texts), ("exclude", .texts), ("gitignore", .flag)]

/-- The settings of the audit. -/
def auditSettings : List (Text × Kind) :=
  [("extensions", .texts), ("tokens", .path), ("mode", .mode), ("max_listed", .count)]

/-- The settings of the YAML check. -/
def yamlSettings : List (Text × Kind) := [("extensions", .texts)]

/-- The sections and their settings, in their order. -/
def schema : List (Text × List (Text × Kind)) :=
  [("scanner", scannerSettings), ("audit", auditSettings), ("yaml", yamlSettings)]

/-- The form of a section: the names and values that a value gives to a section with some names,
if it can be a section at all. -/
abbrev Form := List Text → Node → Option (List (Text × Node))

namespace Form

/-- A section is a table. -/
def table : Form
  | _, .table _ entries _ => some (Entries.values entries)
  | _, _ => none

/-- A section is a table, or an array that gives its settings in order.  Further items are not
looked at. -/
def tableOrArray : Form := fun names node =>
  table names node <|> node.items?.map names.zip

end Form

/-- The value with a name. -/
def valueOf? (name : Text) (values : List (Text × Node)) : Option Node :=
  (values.find? fun value => value.1 = name).map Prod.snd

/-- The value of a setting in a section. -/
def setting? (form : Form) (document : Entries) (part : Text × List (Text × Kind))
    (setting : Text) : Option Node := do
  let (_, node) ← document.get? part.1
  let values ← form (part.2.map Prod.fst) node
  valueOf? setting values

/-- A document has a key that is not known, or a value that is not of its kind. -/
inductive Misfits (form : Form) (document : Entries) : Prop
  /-- There is no such section. -/
  | unknownSection {name : Text} {span : Span} {node : Node} : (name, span, node) ∈ document →
      name ∉ schema.map Prod.fst → Misfits form document
  /-- A value does not have the form of a section. -/
  | noSection {name : Text} {span : Span} {node : Node} {settings : List (Text × Kind)} :
      (name, span, node) ∈ document → (name, settings) ∈ schema →
      form (settings.map Prod.fst) node = none → Misfits form document
  /-- There is no such setting in the section. -/
  | unknownSetting {name setting : Text} {span : Span} {node value : Node}
      {settings : List (Text × Kind)} {values : List (Text × Node)} :
      (name, span, node) ∈ document → (name, settings) ∈ schema →
      form (settings.map Prod.fst) node = some values → (setting, value) ∈ values →
      setting ∉ settings.map Prod.fst → Misfits form document
  /-- A value is not of the kind of its setting. -/
  | wrongKind {name setting : Text} {span : Span} {node value : Node} {kind : Kind}
      {settings : List (Text × Kind)} {values : List (Text × Node)} :
      (name, span, node) ∈ document → (name, settings) ∈ schema →
      form (settings.map Prod.fst) node = some values → (setting, value) ∈ values →
      (setting, kind) ∈ settings → ¬kind.Fits value → Misfits form document

/-! ## Settings -/

/-- A setting is as a value says if there is one, and keeps its default otherwise. -/
def Sets {β : Type} (found : Option Node) (Is : Node → β → Prop) (default setting : β) : Prop :=
  match found with
  | some node => Is node setting
  | none => setting = default

/-- An optional setting is there. -/
def Present {β : Type} (Is : Node → β → Prop) (node : Node) (setting : Option β) : Prop :=
  ∃ value, setting = some value ∧ Is node value

/-- The configuration that a document gives. -/
structure Gives (form : Form) (document : Entries) (config : Config) : Prop where
  /-- The names of directories that are not entered. -/
  excludeDirs : Sets (setting? form document ("scanner", scannerSettings) "exclude_dirs")
    Node.IsTexts Config.default.scanner.excludeDirs config.scanner.excludeDirs
  /-- The globs of what is left out. -/
  exclude : Sets (setting? form document ("scanner", scannerSettings) "exclude")
    Node.IsTexts Config.default.scanner.exclude config.scanner.exclude
  /-- Whether ignore files are respected. -/
  gitignore : Sets (setting? form document ("scanner", scannerSettings) "gitignore")
    Node.IsFlag Config.default.scanner.gitignore config.scanner.gitignore
  /-- The extensions of the audited files. -/
  extensions : Sets (setting? form document ("audit", auditSettings) "extensions")
    Node.IsTexts Config.default.audit.extensions config.audit.extensions
  /-- The token document. -/
  tokens : Sets (setting? form document ("audit", auditSettings) "tokens")
    (Present Node.IsPath) Config.default.audit.tokens config.audit.tokens
  /-- The mode. -/
  mode : Sets (setting? form document ("audit", auditSettings) "mode")
    (Present Node.IsMode) Config.default.audit.mode config.audit.mode
  /-- How many entries are listed. -/
  maxListed : Sets (setting? form document ("audit", auditSettings) "max_listed")
    Node.IsCount Config.default.audit.maxListed config.audit.maxListed
  /-- The extensions of the checked files. -/
  yamlExtensions : Sets (setting? form document ("yaml", yamlSettings) "extensions")
    Node.IsTexts Config.default.yaml.extensions config.yaml.extensions

end ConfigFile

end LiteralAudit
