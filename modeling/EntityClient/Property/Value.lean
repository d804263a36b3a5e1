import EntityClient.Failure
import EntityClient.Property.Attachment

/-!
Property values and their datatypes. Without a datatype a value is taken as JSON shows it: scalars
become scalars, arrays and objects stay raw. A datatype asks for more only where JSON has no
form of its own: dates, timestamps, files and images. Null fits every datatype.
-/

namespace EntityClient

inductive Value where
  | null
  | bool (b : Bool)
  | int (n : Int64)
  | numeric (x : Double)
  | text (s : String)
  | date (d : Date)
  | timestamp (t : Timestamp)
  | file (f : Attachment)
  | image (p : Picture)
  | raw (v : Json)
deriving DecidableEq, Repr

/-- Reads a date for a property. -/
def readDate (raw : String) : Except Failure Date :=
  match Date.parse raw with
  | .ok d => .ok d
  | .error fault => .error (.malformed (.date raw fault))

/-- Reads a timestamp for a property. -/
def readTimestamp (raw : String) : Except Failure Timestamp :=
  match Timestamp.parse raw with
  | .ok t => .ok t
  | .error fault => .error (.malformed (.timestamp (String.ofList (Text.trim raw.toList)) fault))

namespace Value

/-- The value as JSON shows it; an integer beyond the signed words becomes a double. -/
def ofJson : Json → Value
  | .null => .null
  | .bool b => .bool b
  | .int n =>
      match n.int64? with
      | some i => .int i
      | none => .numeric (.ofInt n.val)
  | .float x => .numeric (.finite x)
  | .str s => .text s
  | v => .raw v

def toJson : Value → Json
  | .null => .null
  | .bool b => .bool b
  | .int n => .int (.ofInt64 n)
  | .numeric x => .ofDouble x
  | .text s => .str s
  | .date d => .str d.render
  | .timestamp t => .str t.render
  | .file f => f.toJson
  | .image p => p.toJson
  | .raw v => v

def isNull : Value → Bool
  | .null => true
  | _ => false

def text? : Value → Option String
  | .text s => some s
  | _ => none

def int? : Value → Option Int64
  | .int n => some n
  | _ => none

/-- The number of an integer or numeric value. -/
def double? : Value → Option Double
  | .int n => some (.ofInt n.toInt)
  | .numeric x => some x
  | _ => none

def bool? : Value → Option Bool
  | .bool b => some b
  | _ => none

def date? : Value → Option Date
  | .date d => some d
  | _ => none

def timestamp? : Value → Option Timestamp
  | .timestamp t => some t
  | _ => none

/-- The file of a file or image value. -/
def file? : Value → Option Attachment
  | .file f => some f
  | .image p => some p.file
  | _ => none

def image? : Value → Option Picture
  | .image p => some p
  | _ => none

end Value

inductive Datatype where
  | autoincrement
  | int
  | numeric
  | bool
  | text
  | longtext
  | file
  | image
  | date
  | timestamp
deriving DecidableEq, Repr

namespace Datatype

def tags : List (String × Datatype) :=
  [("autoincrement", .autoincrement), ("int", .int), ("numeric", .numeric), ("bool", .bool),
    ("text", .text), ("longtext", .longtext), ("file", .file), ("image", .image), ("date", .date),
    ("timestamp", .timestamp)]

def ofTag? (tag : String) : Option Datatype := tags.lookup tag

def expectText : Json → Except Failure String
  | .str s => .ok s
  | v => .error (.malformed (.notText v))

def expectRecord {α : Type} : Except RecordFault α → Except Failure α
  | .ok r => .ok r
  | .error fault => .error (.malformed (.record fault))

/-- The value that raw JSON stands for under a datatype. -/
def interpret (datatype : Datatype) (raw : Json) : Except Failure Value :=
  if raw.isNull then .ok .null
  else
    match datatype with
    | .date => do return .date (← readDate (← expectText raw))
    | .timestamp => do return .timestamp (← readTimestamp (← expectText raw))
    | .file => do return .file (← expectRecord (Attachment.ofJson raw))
    | .image => do return .image (← expectRecord (Picture.ofJson raw))
    | _ => .ok (.ofJson raw)

end Datatype
end EntityClient
