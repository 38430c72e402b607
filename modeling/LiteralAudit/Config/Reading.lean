import LiteralAudit.Config
import LiteralAudit.Decimal.Notation
import LiteralAudit.Decimal.Reading
import LiteralAudit.Text.Quote
import LiteralAudit.Toml.Table

/-!
# Configurations in TOML

A configuration file has up to three sections.  A setting that is not there keeps its default, and
one that no section knows is a fault.  A section may also be an array that gives its settings in
order.  The entries of a section are read in the order of their names, so the first fault in that
order is the one that is told.
-/

namespace LiteralAudit

open Toml

namespace ConfigReading

/-! ## Words for what is there -/

/-- The words for a binary number as it is written in a document. -/
def binaryWords (written : Text) : Text :=
  match Decimal.dropSign written with
  | (_, ['n', 'a', 'n']) => "floating point `NaN`"
  | (isNegative, digits) =>
      let number : Text :=
        match Decimal.readFinite? digits with
        | some bits =>
            Decimal.inMessage (if isNegative then bits ||| Decimal.signBit else bits)
        | none => if isNegative then "-inf" else "inf"
      "floating point `" ++ number ++ "`"

/-- The words for a whole number.  One of more than 64 bits is called by its size. -/
def wholeWords (value : Int) : Text :=
  let size : Text :=
    if -Int.pow 2 63 ≤ value && value < Int.pow 2 64 then []
    else if value < Int.pow 2 127 then " as i128"
    else " as u128"
  "integer `" ++ Text.ofInt value ++ "`" ++ size

/-- The words for a value. -/
def words : Node → Text
  | .scalar (.text text) _ => "string " ++ Text.quoted text
  | .scalar (.whole value) _ => wholeWords value
  | .scalar (.binary written) _ => binaryWords written
  | .scalar (.bool value) _ => "boolean `" ++ (if value then "true" else "false") ++ "`"
  | .scalar .dateTime _ | .table _ _ _ => "map"
  | .array _ _ | .tables _ _ => "sequence"

/-- A fault in a value. -/
def fail {α : Type} (node : Node) (message : Text) : Except Fault α :=
  .error ⟨.unwanted message, node.span⟩

/-- Whether a whole number has more than 128 bits. -/
def isHuge : Node → Bool
  | .scalar (.whole value) _ => value < -Int.pow 2 127 || Int.pow 2 128 ≤ value
  | _ => false

/-- A value is not of the kind that is expected. -/
def wrongKind {α : Type} (expected : Text) (node : Node) : Except Fault α :=
  if isHuge node then fail node "integer number overflowed"
  else fail node ("invalid type: " ++ words node ++ ", expected " ++ expected)

/-- Names in backquotes. -/
def oneOf : List Text → Text
  | [name] => "`" ++ name ++ "`"
  | [first, second] => "`" ++ first ++ "` or `" ++ second ++ "`"
  | names => "one of " ++ Text.join ", " (names.map fun name => "`" ++ name ++ "`")

/-- A name is none of those known. -/
def unknown (kind name : Text) (known : List Text) : Text :=
  "unknown " ++ kind ++ " `" ++ name ++ "`, expected " ++ oneOf known

/-! ## Values of settings -/

/-- A truth value. -/
def readBool : Node → Except Fault Bool
  | .scalar (.bool value) _ => .ok value
  | node => wrongKind "a boolean" node

/-- A text. -/
def readText : Node → Except Fault Text
  | .scalar (.text text) _ => .ok text
  | node => wrongKind "a string" node

/-- A list of texts. -/
def readTexts : Node → Except Fault (List Text)
  | .array items _ => items.mapM readText
  | .tables items _ => items.reverse.mapM readText
  | node => wrongKind "a sequence" node

/-- A path. -/
def readPath : Node → Except Fault Path
  | .scalar (.text text) _ => .ok (Path.ofText text)
  | node => wrongKind "path string" node

/-- A natural number of at most 64 bits. -/
def readNatural (node : Node) : Except Fault Nat :=
  match node with
  | .scalar (.whole value) _ =>
      if -Int.pow 2 63 ≤ value && value < 0 then
        fail node ("invalid value: " ++ wholeWords value ++ ", expected usize")
      else if 0 ≤ value && value < Int.pow 2 64 then .ok value.toNat
      else wrongKind "usize" node
  | _ => wrongKind "usize" node

/-- The mode of a name, written in small letters. -/
def readModeName (span : Span) (name : Text) : Except Fault Theme :=
  if name = Theme.light.name then .ok .light
  else if name = Theme.dark.name then .ok .dark
  else .error ⟨.unwanted (unknown "variant" name [Theme.light.name, Theme.dark.name]), span⟩

/-- A mode: its name, or a table with the name as its only key and nothing in it. -/
def readMode (node : Node) : Except Fault Theme :=
  match node with
  | .scalar (.text name) span => readModeName span name
  | .table _ [] _ => fail node "wanted exactly 1 element, found 0 elements"
  | .table _ [(name, span, inner)] _ => do
      let mode ← readModeName span name
      match inner with
      | .table _ [] _ | .array [] _ => .ok mode
      | .table _ _ _ => fail inner "expected empty table"
      | .array _ _ | .tables _ _ => fail inner "expected empty array"
      | .scalar _ _ => fail inner ("expected table, found " ++ inner.kind)
  | .table _ _ _ => fail node "wanted exactly 1 element, more than 1 element"
  | _ => fail node "wanted string or table"

/-! ## Sections -/

/-- A section of settings. -/
structure Section (α : Type) where
  /-- What a section is called in messages. -/
  title : Text
  /-- The names of its settings, in their order. -/
  names : List Text
  /-- The section with a setting read from a value. -/
  set : α → (name : Text) → Node → Except Fault α

/-- The section with a setting that is given by name. -/
def Section.setNamed {α : Type} (part : Section α) (config : α) (entry : Text × Span × Node) :
    Except Fault α :=
  let (name, span, node) := entry
  if part.names.contains name then part.set config name node
  else .error ⟨.unwanted (unknown "field" name part.names), span⟩

/-- The name under which a date is read as a table. -/
def dateTimeField : Text := "$__toml_private_datetime"

/-- The section with the settings of a value. -/
def Section.read {α : Type} (part : Section α) (config : α) (node : Node) : Except Fault α :=
  let setInOrder (items : List Node) : Except Fault α :=
    (part.names.zip items).foldlM (fun config item => part.set config item.1 item.2) config
  match node with
  | .table _ entries _ => entries.foldlM part.setNamed config
  | .array items _ => setInOrder items
  | .tables items _ => setInOrder items.reverse
  | .scalar .dateTime span => part.setNamed config (dateTimeField, span, node)
  | node => wrongKind ("struct " ++ part.title) node

/-- The settings of the walk. -/
def scanSection : Section ScanConfig where
  title := "ScannerConfig"
  names := ["exclude_dirs", "exclude", "gitignore"]
  set config name node :=
    if name = ("exclude_dirs" : Text) then
      (readTexts node).map fun names => { config with excludeDirs := names }
    else if name = ("exclude" : Text) then
      (readTexts node).map fun globs => { config with exclude := globs }
    else (readBool node).map fun value => { config with gitignore := value }

/-- The settings of the audit. -/
def auditSection : Section AuditConfig where
  title := "AuditConfig"
  names := ["extensions", "tokens", "mode", "max_listed"]
  set config name node :=
    if name = ("extensions" : Text) then
      (readTexts node).map fun extensions => { config with extensions }
    else if name = ("tokens" : Text) then
      (readPath node).map fun path => { config with tokens := some path }
    else if name = ("mode" : Text) then
      (readMode node).map fun mode => { config with mode := some mode }
    else (readNatural node).map fun count => { config with maxListed := count }

/-- The settings of the YAML check. -/
def yamlSection : Section YamlConfig where
  title := "YamlConfig"
  names := ["extensions"]
  set config _ node := (readTexts node).map fun extensions => { config with extensions }

/-- The whole configuration. -/
def wholeSection : Section Config where
  title := "Config"
  names := ["scanner", "audit", "yaml"]
  set config name node :=
    if name = ("scanner" : Text) then
      (scanSection.read .default node).map fun scanner => { config with scanner }
    else if name = ("audit" : Text) then
      (auditSection.read .default node).map fun audit => { config with audit }
    else (yamlSection.read .default node).map fun yaml => { config with yaml }

end ConfigReading

namespace Config

/-- The configuration of a document. -/
def ofEntries (entries : Entries) : Except Fault Config :=
  entries.foldlM ConfigReading.wholeSection.setNamed .default

/-- The configuration of a text. -/
def read (text : Text) : Except Fault Config := Toml.read text >>= ofEntries

end Config

end LiteralAudit
