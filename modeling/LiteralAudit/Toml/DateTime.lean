import LiteralAudit.Text.Basic

/-!
# Dates and times

Whether a text is a date, a time, or both.  A date has four, two and two digits.  A time has two
digits for hours and minutes, may have two for seconds, and then a fraction.  Only a time behind
a date has an offset.
-/

namespace LiteralAudit.Toml.DateTime

/-- What is wrong: the part and what is expected there. -/
def fail {α : Type} (part expected : Text) : Except Text α :=
  .error ("invalid " ++ part ++ ", expected " ++ expected)

/-- Reads a run of digits. -/
def takeDigits (part expected : Text) (text : Text) : Except Text (Text × Text) :=
  let (digits, rest) := text.span Text.isDigit
  if digits.isEmpty then fail part expected else .ok (digits, rest)

/-- Reads one of some characters. -/
def takeMark (part expected : Text) (marks : List Char) : Text → Except Text Text
  | c :: rest => if marks.contains c then .ok rest else fail part expected
  | [] => fail part expected

/-- A number of a fixed width between two bounds. -/
def checkNumber (part : Text) (width : Nat) (widthWords : Text) (low high : Nat)
    (rangeWords : Text) (digits : Text) : Except Text Unit :=
  if digits.length ≠ width then fail part widthWords
  else if Text.value digits < low || high < Text.value digits then fail part rangeWords
  else .ok ()

/-- Whether a year has a day more. -/
def isLeapYear (year : Nat) : Bool := year % 4 = 0 && (year % 100 ≠ 0 || year % 400 = 0)

/-- The number of days of a month. -/
def daysIn (year month : Nat) : Nat :=
  if month = 2 then if isLeapYear year then 29 else 28
  else if [4, 6, 9, 11].contains month then 30
  else 31

/-- Checks the digits of a date. -/
def checkDate (year month day : Text) : Except Text Unit := do
  if year.length ≠ 4 then fail "date" "a four-digit year (YYYY)"
  if month.length ≠ 2 then fail "date" "a two-digit month (MM)"
  if day.length ≠ 2 then fail "date" "a two-digit day (DD)"
  checkNumber "date" 2 "a two-digit month (MM)" 1 12 "month between 01 and 12" month
  let days := daysIn (Text.value year) (Text.value month)
  checkNumber "date" 2 "a two-digit day (DD)" 1 days
    ("day between 01 and " ++ Text.ofNat days) day

/-- Reads the month and the day behind a year and a dash. -/
def takeDate (year text : Text) : Except Text Text := do
  let (month, rest) ← takeDigits "date" "month" text
  let rest ← takeMark "date" "`-` (MM-DD)" ['-'] rest
  let (day, rest) ← takeDigits "date" "day" rest
  checkDate year month day
  .ok rest

/-- Reads the seconds and their fraction, if they are there. -/
def takeSeconds (text : Text) : Except Text (Option Text × Text) :=
  match text with
  | ':' :: rest => do
      let (second, rest) ← takeDigits "time" "second" rest
      match rest with
      | '.' :: rest => do
          let (_, rest) ← takeDigits "time" "nanosecond" rest
          .ok (some second, rest)
      | _ => .ok (some second, rest)
  | _ => .ok (none, text)

/-- Reads a time. -/
def takeTime (text : Text) : Except Text Text := do
  let (hour, rest) ← takeDigits "time" "hour" text
  let rest ← takeMark "time" "`:` (HH:MM)" [':'] rest
  let (minute, rest) ← takeDigits "time" "minute" rest
  let (second, rest) ← takeSeconds rest
  if hour.length ≠ 2 then fail "time" "a two-digit hour (HH)"
  if minute.length ≠ 2 then fail "time" "a two-digit minute (MM)"
  if second.any fun digits => digits.length ≠ 2 then fail "time" "a two-digit second (SS)"
  checkNumber "time" 2 "a two-digit hour (HH)" 0 23 "hour between 00 and 23" hour
  checkNumber "time" 2 "a two-digit minute (MM)" 0 59 "minute between 00 and 59" minute
  checkNumber "time" 2 "a two-digit second (SS)" 0 60 "second between 00 and 60"
    (second.getD ['0', '0'])
  .ok rest

/-- Reads the offset of a time, if it is there. -/
def takeOffset (text : Text) : Except Text Text :=
  match text with
  | [] => .ok []
  | c :: rest =>
      if c = 'Z' || c = 'z' then .ok rest
      else if c = '+' || c = '-' then do
        let (hour, rest) ← takeDigits "offset" "hour" rest
        let rest ← takeMark "offset" "`:` (HH:MM)" [':'] rest
        let (minute, rest) ← takeDigits "offset" "minute" rest
        checkNumber "offset" 2 "a two-digit hour (HH)" 0 23 "hours between 00 and 23" hour
        checkNumber "offset" 2 "a two-digit minute (MM)" 0 59 "minutes between 00 and 59" minute
        .ok rest
      else fail "offset" "`Z`, +OFFSET, -OFFSET"

/-- Checks a date, a time, or both. -/
def check (text : Text) : Except Text Unit := do
  let (year, rest) := text.span Text.isDigit
  let left ← match rest with
    | '-' :: rest => do
        match ← takeDate year rest with
        | [] => .ok []
        | c :: rest => do
            if c = 'T' || c = 't' || c = ' ' then
              let rest ← takeTime rest
              takeOffset rest
            else fail "date-time" "`T` between date and time"
    | _ => takeTime text
  if left.isEmpty then .ok () else .error "invalid datetime"

end LiteralAudit.Toml.DateTime
