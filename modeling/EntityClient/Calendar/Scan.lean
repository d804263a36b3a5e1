import EntityClient.Calendar.Date
import EntityClient.Text.Blank

/-!
Reading dates and timestamps from the left, stopping at the first fault. Numbers may have blanks
in front and are read greedily: up to four digits of a year, up to two of anything else, any
number of digits after the sign of a year. Each number is held against its range at once; whether
the day exists is asked at the end.
-/

namespace EntityClient

/-- Why a text is not a date or timestamp. -/
inductive ScanFault where
  | tooShort
  | invalid
  | outOfRange
  | trailing
deriving DecidableEq, Repr

def ScanFault.message : ScanFault → String
  | .tooShort => "premature end of input"
  | .invalid => "input contains invalid characters"
  | .outOfRange => "input is out of range"
  | .trailing => "trailing input"

namespace Calendar

/-- One digit at least, `most` at most. -/
def scanNumber (most : Nat) (cs : List Char) : Except ScanFault (Nat × List Char) :=
  match cs with
  | [] => .error .tooShort
  | c :: _ =>
      if c.isDigit then
        let digits := (cs.take most).takeWhile Char.isDigit
        .ok (Nat.ofDigitChars 10 digits 0, cs.drop digits.length)
      else .error .invalid

/-- A number of one or two digits within a range. -/
def scanField (low high : Nat) (cs : List Char) : Except ScanFault (Nat × List Char) := do
  let (n, rest) ← scanNumber 2 (Text.trimLeft cs)
  if low ≤ n ∧ n ≤ high then .ok (n, rest) else .error .outOfRange

/-- A year of up to four digits, or a sign and any number of digits. -/
def scanYear (cs : List Char) : Except ScanFault (Int × List Char) := do
  let (year, rest) ← match Text.trimLeft cs with
    | '-' :: digits => (scanNumber digits.length digits).map fun (n, rest) => (-(n : Int), rest)
    | '+' :: digits => (scanNumber digits.length digits).map fun (n, rest) => ((n : Int), rest)
    | digits => (scanNumber 4 digits).map fun (n, rest) => ((n : Int), rest)
  if -2147483648 ≤ year ∧ year < 2147483648 then .ok (year, rest) else .error .outOfRange

def scanMark (mark : Char) : List Char → Except ScanFault (List Char)
  | [] => .error .tooShort
  | c :: rest => if c = mark then .ok rest else .error .invalid

/-- Year, month and day. -/
def scanDay (cs : List Char) : Except ScanFault ((Int × Nat × Nat) × List Char) := do
  let (year, cs) ← scanYear cs
  let (month, cs) ← scanField 1 12 (← scanMark '-' cs)
  let (day, cs) ← scanField 1 31 (← scanMark '-' cs)
  return ((year, month, day), cs)

def scanHour : List Char → Except ScanFault (Nat × List Char) := scanField 0 23

def scanMinute : List Char → Except ScanFault (Nat × List Char) := scanField 0 59

def scanSecond : List Char → Except ScanFault (Nat × List Char) := scanField 0 60

def scanEnd : List Char → Except ScanFault Unit
  | [] => .ok ()
  | _ :: _ => .error .trailing

def dateOf (day : Int × Nat × Nat) : Except ScanFault Date :=
  if h : IsDate day.1 day.2.1 day.2.2 then .ok ⟨day.1, day.2.1, day.2.2, h⟩
  else .error .outOfRange

/-- What stands between the date and the time. -/
inductive Separator where
  /-- Any run of blanks, also none. -/
  | blank
  | letterT
deriving DecidableEq, Repr

def Separator.scan : Separator → List Char → Except ScanFault (List Char)
  | .blank, cs => .ok (Text.trimLeft cs)
  | .letterT, cs => scanMark 'T' cs

/-- A time of day within its bounds. -/
def timestampOf (date : Date) (hour minute second : Nat) : Except ScanFault Timestamp :=
  if h : hour ≤ 23 ∧ minute ≤ 59 ∧ second ≤ 60 then
    .ok ⟨date, hour, minute, second, h.1, h.2.1, h.2.2⟩
  else .error .outOfRange

end Calendar

namespace Date

/-- Reads `YYYY-MM-DD`. -/
def scan (cs : List Char) : Except ScanFault Date := do
  let (day, rest) ← Calendar.scanDay cs
  Calendar.scanEnd rest
  Calendar.dateOf day

/-- Reads a date, blanks around it ignored. -/
def parse (s : String) : Except ScanFault Date := scan (Text.trim s.toList)

end Date

namespace Timestamp

/-- Reads a date, the separator and `HH:MM:SS`. -/
def scan (separator : Calendar.Separator) (cs : List Char) : Except ScanFault Timestamp := do
  let (day, cs) ← Calendar.scanDay cs
  let (hour, cs) ← Calendar.scanHour (← separator.scan cs)
  let (minute, cs) ← Calendar.scanMinute (← Calendar.scanMark ':' cs)
  let (second, cs) ← Calendar.scanSecond (← Calendar.scanMark ':' cs)
  Calendar.scanEnd cs
  let date ← Calendar.dateOf day
  Calendar.timestampOf date hour minute second

/-- Reads a timestamp with either separator, blanks around it ignored. A text that fits neither
is at fault for the letter. -/
def parse (s : String) : Except ScanFault Timestamp :=
  let cs := Text.trim s.toList
  match scan .blank cs with
  | .ok t => .ok t
  | .error _ => scan .letterT cs

end Timestamp
end EntityClient
