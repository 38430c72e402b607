import LiteralAudit.FileSystem
import LiteralAudit.Scan.IgnoreFile
import LiteralAudit.UserPlaces

/-!
# The user's own ignore file

Besides the ignore files of a tree there is one of the user.  A setting `excludesfile` in the
user's configuration of the version control names it; without the setting it has a usual place.  The
configuration is a file in the home directory, and a second one in the directory for settings.
-/

namespace LiteralAudit.GlobalIgnore

/-- The bytes that separate words. -/
def isSpace (byte : UInt8) : Bool := byte = 0x20 || (0x09 ≤ byte && byte ≤ 0x0d)

/-- Whether only space follows up to the end of a line. -/
def endsLine (bytes : List UInt8) : Bool :=
  (bytes.takeWhile isSpace).contains 0x0a || bytes.all isSpace

/-- Whether nothing but space and one quote follows up to the end of a line. -/
def endsValue (bytes : List UInt8) : Bool :=
  endsLine bytes ||
    match bytes.dropWhile isSpace with
    | 0x22 :: rest => endsLine rest
    | _ => false

/-- The shortest word at the beginning that ends a value. -/
def word? : List UInt8 → Option (List UInt8)
  | [] => none
  | byte :: bytes =>
      if isSpace byte then none
      else if endsValue bytes then some [byte]
      else (word? bytes).map (byte :: ·)

/-- The value behind an equals sign, in quotes or not. -/
def value? (bytes : List UInt8) : Option (List UInt8) :=
  let bytes := bytes.dropWhile isSpace
  let inQuotes := match bytes with
    | 0x22 :: rest => word? (rest.dropWhile isSpace)
    | _ => none
  inQuotes <|> word? bytes

/-- What follows a name in any letter case. -/
def dropName? : (name : Text) → List UInt8 → Option (List UInt8)
  | [], bytes => some bytes
  | _ :: _, [] => none
  | c :: name, byte :: bytes =>
      if c = (Char.ofNat byte.toNat).toLower then dropName? name bytes else none

/-- The value of the setting, if it is made at the beginning. -/
def settingAt? (bytes : List UInt8) : Option (List UInt8) :=
  match dropName? "excludesfile" (bytes.dropWhile isSpace) with
  | none => none
  | some rest =>
      match rest.dropWhile isSpace with
      | 0x3d :: rest => value? rest
      | _ => none

/-- The value of the setting on the first line where it is made. -/
def settingFrom? (isLineStart : Bool) (bytes : List UInt8) : Option (List UInt8) :=
  match bytes with
  | [] => none
  | byte :: rest =>
      (if isLineStart then settingAt? bytes else none) <|> settingFrom? (byte = 0x0a) rest

/-- A text with every tilde replaced by the home directory, if there is one. -/
def expandTilde (home : Option Path) (text : Text) : Text :=
  match home with
  | none => text
  | some home => text.flatMap fun c => if c = '~' then home.display else [c]

/-- The path that a configuration of the version control gives. -/
def configured? (home : Option Path) (bytes : List UInt8) : Option Path :=
  (settingFrom? true bytes >>= Text.Utf8.decode?).map fun text =>
    Path.ofText (expandTilde home text)

/-- The configurations of the version control, in the order in which they are asked. -/
def configurations (user : UserPlaces) : List Path :=
  (user.home.map (·.under (Path.ofText ".gitconfig"))).toList ++
    (user.versionControl?.map (·.under (Path.ofText "git/config"))).toList

/-- The path of the user's ignore file. -/
def path? (system : FileSystem) (user : UserPlaces) : Option Path :=
  (configurations user).findSome? (fun configuration =>
      (system.read configuration).toOption >>= configured? user.home) <|>
    user.versionControl?.map (·.under (Path.ofText "git/ignore"))

/-- The user's ignore file.  Its rules are relative to the working directory. -/
def file (system : FileSystem) (user : UserPlaces) : IgnoreFile :=
  match (path? system user).map system.read with
  | some (.ok bytes) => .ofBytes ⟨[]⟩ bytes
  | _ => .empty ⟨[]⟩

end LiteralAudit.GlobalIgnore
