import LiteralAudit.CommandLine
import LiteralAudit.Text.Utf8

/-!
# Reading command lines

The arguments are read from left to right.  Those before the name of the command and those behind
it are read apart: an option that may stand on either side is taken from behind the name if it is
given there.

An option waits for its value until the next argument.  The value is looked at when the next
option comes or when the arguments end, so an unknown option is told before a bad value directly
in front of it.
-/

namespace LiteralAudit

/-- An argument, as the bytes that it is given by. -/
abbrev Argument := List UInt8

namespace CommandLine

/-- Where an argument stands. -/
inductive Level where
  /-- Before the name of the command. -/
  | outer
  /-- Behind the name of the YAML check. -/
  | yaml
  /-- Behind the name of the audit. -/
  | audit
  deriving DecidableEq, Repr

/-- An option without a value. -/
inductive Switch where
  /-- More is said. -/
  | verbose
  /-- The report is not printed. -/
  | quiet
  /-- No configuration is loaded. -/
  | noConfig
  /-- Help is printed. -/
  | help
  /-- The version is printed. -/
  | version
  deriving DecidableEq, Repr

/-- What takes values: an option or the arguments without a name. -/
inductive Slot where
  /-- When colors are used. -/
  | color
  /-- The configuration file. -/
  | config
  /-- The format of the report. -/
  | format
  /-- The file for the report. -/
  | output
  /-- The token document. -/
  | tokens
  /-- The mode. -/
  | mode
  /-- The extensions. -/
  | ext
  /-- The globs to leave out. -/
  | exclude
  /-- The number of listed entries. -/
  | maxListed
  /-- The files and directories. -/
  | paths
  deriving DecidableEq, Repr

/-- What an option is. -/
inductive Opt where
  /-- An option without a value. -/
  | switch (switch : Switch)
  /-- An option with a value. -/
  | slot (slot : Slot)
  deriving DecidableEq, Repr

/-- An option with its long name and its short one. -/
structure NamedOpt where
  /-- The long name. -/
  long : Text
  /-- The short name. -/
  short : Option Char
  /-- The option. -/
  opt : Opt
  deriving DecidableEq, Repr

/-- The options of every level. -/
def sharedOptions : List NamedOpt :=
  [⟨"verbose", some 'v', .switch .verbose⟩, ⟨"quiet", some 'q', .switch .quiet⟩,
    ⟨"color", none, .slot .color⟩, ⟨"no-config", none, .switch .noConfig⟩,
    ⟨"help", some 'h', .switch .help⟩]

/-- The options of both commands. -/
def reportOptions : List NamedOpt :=
  [⟨"config", some 'c', .slot .config⟩, ⟨"format", some 'f', .slot .format⟩,
    ⟨"output", some 'o', .slot .output⟩]

/-- The options of the audit alone. -/
def auditOptions : List NamedOpt :=
  [⟨"tokens", none, .slot .tokens⟩, ⟨"mode", none, .slot .mode⟩, ⟨"ext", none, .slot .ext⟩,
    ⟨"exclude", some 'x', .slot .exclude⟩, ⟨"max-listed", none, .slot .maxListed⟩]

/-- The options of a level. -/
def options : Level → List NamedOpt
  | .outer => sharedOptions ++ [⟨"version", some 'V', .switch .version⟩]
  | .yaml => sharedOptions ++ reportOptions
  | .audit => sharedOptions ++ reportOptions ++ auditOptions

/-- The option of a long name. -/
def long? (level : Level) (name : Argument) : Option Opt :=
  ((options level).find? fun option => Text.Utf8.encode option.long = name).map NamedOpt.opt

/-- The option of a short name. -/
def short? (level : Level) (byte : UInt8) : Option Opt :=
  ((options level).find? fun option => option.short.any (·.toNat = byte.toNat)).map NamedOpt.opt

/-- What is given on a level. -/
structure Given where
  /-- How often more is asked to be said, if at all. -/
  verbose : Option Nat
  /-- Whether the report is not to be printed. -/
  quiet : Bool
  /-- Whether no configuration is to be loaded. -/
  noConfig : Bool
  /-- When colors are used. -/
  color : Option ColorChoice
  /-- The configuration file. -/
  config : Option Path
  /-- The format of the report. -/
  format : Option ReportFormat
  /-- The file for the report. -/
  output : Option Path
  /-- The token document. -/
  tokens : Option Path
  /-- The mode. -/
  mode : Option Theme
  /-- The extensions. -/
  ext : Option (List Text)
  /-- The globs to leave out. -/
  exclude : List Text
  /-- The number of listed entries. -/
  maxListed : Option Nat
  /-- The files and directories. -/
  paths : List Path

namespace Given

/-- Nothing is given. -/
def nothing : Given :=
  ⟨none, false, false, none, none, none, none, none, none, none, [], none, []⟩

/-- Whether anything of what can stand before a command is given. -/
def isAnything (given : Given) : Bool :=
  given.verbose.isSome || given.quiet || given.noConfig || given.color.isSome

end Given

/-! ## Values -/

/-- A value as a text. -/
def readText (value : Argument) : Except UsageFault Text :=
  match Text.Utf8.decode? value with
  | some text => .ok text
  | none => .error .notText

/-- A value as a path. -/
def readPath (value : Argument) : Except UsageFault Path :=
  if value.isEmpty then .error .invalidValue else .ok ⟨value⟩

/-- A value as a choice of colors. -/
def readColor (value : Argument) : Except UsageFault ColorChoice :=
  match [ColorChoice.auto, .always, .never].find? fun choice =>
      Text.Utf8.encode choice.name = value with
  | some choice => .ok choice
  | none => .error .invalidValue

/-- What is read of a text, or the text is malformed. -/
def readWith {α : Type} (read? : Text → Option α) (value : Argument) : Except UsageFault α := do
  match read? (← readText value) with
  | some result => .ok result
  | none => .error .malformedValue

/-- A natural number of at most 64 bits, with a plus sign or without. -/
def natural? (text : Text) : Option Nat :=
  let digits := (Text.dropStart? ['+'] text).getD text
  if digits.isEmpty || !digits.all Text.isDigit || Nat.pow 2 64 ≤ Text.value digits then none
  else some (Text.value digits)

/-- The pieces of a value between commas. -/
def splitCommas : Argument → List Argument
  | [] => [[]]
  | byte :: bytes =>
      if byte = 0x2c then [] :: splitCommas bytes
      else
        match splitCommas bytes with
        | [] => [[byte]]
        | piece :: pieces => (byte :: piece) :: pieces

/-- A value that may be given once. -/
def once {α : Type} (old : Option α) (value : Except UsageFault α) :
    Except UsageFault (Option α) :=
  if old.isSome then .error .repeated else value.map some

/-- What is given, with the values of a slot. -/
def store (given : Given) (slot : Slot) (values : List Argument) : Except UsageFault Given :=
  match values with
  | [] => .error .invalidValue
  | value :: _ =>
      match slot with
      | .color => return { given with color := ← once given.color (readColor value) }
      | .config => return { given with config := ← once given.config (readPath value) }
      | .format =>
          return { given with format := ← once given.format (readWith ReportFormat.ofName? value) }
      | .output => return { given with output := ← once given.output (readPath value) }
      | .tokens => return { given with tokens := ← once given.tokens (readPath value) }
      | .mode => return { given with mode := ← once given.mode (readWith Theme.ofName? value) }
      | .ext => do
          let extensions ← (splitCommas value).mapM readText
          return { given with ext := some (given.ext.getD [] ++ extensions) }
      | .exclude => return { given with exclude := given.exclude ++ [← readText value] }
      | .maxListed =>
          return { given with maxListed := ← once given.maxListed (readWith natural? value) }
      | .paths => return { given with paths := given.paths ++ (← values.mapM readPath) }

/-! ## Arguments -/

/-- How far the arguments of a level have been read. -/
structure Reader where
  /-- What is given. -/
  given : Given
  /-- The slot whose values have not been looked at yet, and the values. -/
  pending : Option (Slot × List Argument)
  /-- Whether the next argument is the value of the pending option. -/
  awaitsValue : Bool
  /-- Whether two hyphens have ended the options. -/
  pastOptions : Bool

namespace Reader

/-- Nothing read yet. -/
def start : Reader := ⟨.nothing, none, false, false⟩

/-- Looks at the pending values. -/
def settle (reader : Reader) : Except UsageFault Reader :=
  match reader.pending with
  | none => .ok reader
  | some (slot, values) =>
      (store reader.given slot values).map fun given => { reader with given, pending := none }

/-- An option without a value. -/
def switch (reader : Reader) (switch : Switch) : Except UsageFault Reader := do
  let reader ← reader.settle
  let given := reader.given
  let reader := { reader with awaitsValue := false }
  match switch with
  | .verbose =>
      .ok { reader with
        given := { given with verbose := some (min 255 (given.verbose.getD 0 + 1)) } }
  | .quiet =>
      if given.quiet then .error .repeated
      else .ok { reader with given := { given with quiet := true } }
  | .noConfig =>
      if given.noConfig then .error .repeated
      else .ok { reader with given := { given with noConfig := true } }
  | .help => .error .helpWanted
  | .version => .error .versionWanted

/-- An option with a value, which is given with it or is the next argument. -/
def slot (reader : Reader) (slot : Slot) (value : Option Argument) : Except UsageFault Reader := do
  let reader ← reader.settle
  match value with
  | some value =>
      let given ← store reader.given slot [value]
      .ok { reader with given, awaitsValue := false }
  | none => .ok { reader with pending := some (slot, []), awaitsValue := true }

/-- An option in its long form, without the hyphens. -/
def long (level : Level) (reader : Reader) (argument : Argument) : Except UsageFault Reader :=
  let name := argument.takeWhile (· ≠ 0x3d)
  let value := match argument.dropWhile (· ≠ 0x3d) with
    | [] => none
    | _ :: value => some value
  match long? level name with
  | none => .error .unknownArgument
  | some (.slot slot) => reader.slot slot value
  | some (.switch switch) =>
      if value.isSome then .error .needlessValue else reader.switch switch

/-- Options in their short form, without the hyphen.  What follows one with a value is its
value. -/
def short (level : Level) (reader : Reader) : Argument → Except UsageFault Reader
  | [] => .ok reader
  | byte :: rest =>
      match short? level byte with
      | none => .error .unknownArgument
      | some (.switch switch) => do short level (← reader.switch switch) rest
      | some (.slot slot) =>
          match rest with
          | [] => reader.slot slot none
          | 0x3d :: value => reader.slot slot (some value)
          | value => reader.slot slot (some value)

/-- The number of paths that have been given. -/
def pathCount (reader : Reader) : Nat :=
  match reader.pending with
  | some (.paths, values) => reader.given.paths.length + values.length
  | _ => reader.given.paths.length

/-- A file or directory.  The audit takes only one. -/
def addPath (level : Level) (reader : Reader) (argument : Argument) : Except UsageFault Reader :=
  match level, reader.pending with
  | .outer, _ => .error .unknownCommand
  | .yaml, some (.paths, values) =>
      .ok { reader with pending := some (.paths, values ++ [argument]) }
  | _, _ =>
      if level = .audit && reader.pathCount ≠ 0 then .error .unknownArgument
      else
        reader.settle.map fun reader =>
          { reader with pending := some (.paths, [argument]), awaitsValue := false }

/-- One more argument of a level. -/
def add (level : Level) (reader : Reader) (argument : Argument) : Except UsageFault Reader :=
  match reader.pastOptions, argument with
  | true, _ => reader.addPath level argument
  | false, [0x2d, 0x2d] => .ok { reader with pastOptions := true }
  | false, 0x2d :: 0x2d :: rest => reader.long level rest
  | false, 0x2d :: byte :: rest => reader.short level (byte :: rest)
  | false, _ =>
      match reader.awaitsValue, reader.pending with
      | true, some (slot, values) =>
          .ok { reader with pending := some (slot, values ++ [argument]), awaitsValue := false }
      | _, _ => reader.addPath level argument

end Reader

/-- The level behind the name of a command. -/
def command? (argument : Argument) : Option Level :=
  if Text.Utf8.decode? argument = some "yaml" then some .yaml
  else if Text.Utf8.decode? argument = some "audit" then some .audit
  else none

/-- Whether an argument is the name of the command that prints help. -/
def isHelp (argument : Argument) : Bool := Text.Utf8.decode? argument = some "help"

/-- What help is asked about. -/
def readHelp : List Argument → UsageFault
  | [] => .helpWanted
  | [argument] =>
      if isHelp argument || (command? argument).isSome then .helpWanted else .unknownCommand
  | _ => .unknownCommand

/-- What is given behind the name of a command. -/
def readInner (level : Level) (arguments : List Argument) : Except UsageFault Given := do
  let reader ← arguments.foldlM (Reader.add level) .start
  let reader ← reader.settle
  if level = .yaml && reader.given.paths.isEmpty then .error .missingArgument
  else .ok reader.given

/-- What is given before the name of a command, the level of the command, and what is given
behind its name. -/
def readOuter (reader : Reader) : List Argument → Except UsageFault (Given × Level × Given)
  | [] => do
      let reader ← reader.settle
      .error (if reader.given.isAnything then .noCommand else .nothingGiven)
  | argument :: arguments =>
      let isName := isHelp argument || (command? argument).isSome
      if reader.pastOptions && isName then .error .unknownArgument
      else if reader.awaitsValue || !isName then do
        readOuter (← reader.add .outer argument) arguments
      else
        match command? argument with
        | none => .error (readHelp arguments)
        | some level => do
            let inner ← readInner level arguments
            let reader ← reader.settle
            .ok (reader.given, level, inner)

/-- What some arguments ask for. -/
def read (arguments : List Argument) : Except UsageFault CommandLine := do
  let (outer, level, inner) ← readOuter .start arguments
  let format := inner.format.getD .text
  let command : Command :=
    if level = .yaml then .yaml ⟨inner.paths, inner.config, format, inner.output⟩
    else
      .audit
        { path := inner.paths.head?.getD ⟨[0x2e]⟩
          config := inner.config
          tokens := inner.tokens
          mode := inner.mode
          ext := inner.ext
          exclude := inner.exclude
          format := format
          output := inner.output
          maxListed := inner.maxListed }
  .ok
    { verbose := (inner.verbose <|> outer.verbose).getD 0
      quiet := inner.quiet || outer.quiet
      color := (inner.color <|> outer.color).getD .auto
      noConfig := inner.noConfig || outer.noConfig
      command := command }

end CommandLine

end LiteralAudit
