import EntityClient.Calendar.Scan
import EntityClient.Json.Compact
import EntityClient.Text.Quoted

/-!
Records read from JSON field by field. An object gives the fields by name: its members are checked
in key order first, then the first field missing in declaration order is reported. An array gives
the fields by position, in declaration order.
-/

namespace EntityClient

inductive RecordKind where
  | file
  | image
  | property
deriving DecidableEq, Repr

namespace RecordKind

def name : RecordKind → String
  | .file => "FileRef"
  | .image => "ImageRef"
  | .property => "PropertyDef"

/-- The number of fields by position. -/
def arity : RecordKind → Nat
  | .file => 5
  | .image => 6
  | .property => 3

end RecordKind

inductive Expected where
  | text
  | word
  | record (kind : RecordKind)
deriving DecidableEq, Repr

def Expected.name : Expected → String
  | .text => "a string"
  | .word => "u64"
  | .record kind => "struct " ++ kind.name

/-- Why a value is not a record. -/
inductive RecordFault where
  | wrongType (found : Json) (expected : Expected)
  | negative (n : Int)
  | missing (field : String)
  | tooShort (length : Nat) (kind : RecordKind)
  | tooLong (length : Nat)
  | timestamp (raw : String) (fault : ScanFault)
deriving DecidableEq, Repr

/-- The words for a text that is no timestamp. -/
def timestampMessage (raw : String) (fault : ScanFault) : String :=
  "invalid timestamp \"" ++ raw ++ "\": " ++ fault.message

namespace RecordFault

/-- A value named by its type, scalars with their text. -/
def describe : Json → String
  | .null => "null"
  | .bool b => "boolean `" ++ (Json.bool b).compact ++ "`"
  | .int n => "integer `" ++ (Json.int n).compact ++ "`"
  | .float x => "floating point `" ++ (Json.float x).compact ++ "`"
  | .str s => "string " ++ Text.quoted s
  | .arr _ => "sequence"
  | .obj _ => "map"

def message : RecordFault → String
  | .wrongType found expected => "invalid type: " ++ describe found ++ ", expected " ++ expected.name
  | .negative n => "invalid value: integer `" ++ toString n ++ "`, expected u64"
  | .missing field => "missing field `" ++ field ++ "`"
  | .tooShort length kind =>
      "invalid length " ++ toString length ++ ", expected struct " ++ kind.name ++ " with " ++
        toString kind.arity ++ " elements"
  | .tooLong length =>
      "invalid length " ++ toString length ++ ", expected fewer elements in array"
  | .timestamp raw fault => "parse error: " ++ timestampMessage raw fault

end RecordFault

namespace Record

def readText : Json → Except RecordFault String
  | .str s => .ok s
  | v => .error (.wrongType v .text)

def readWord : Json → Except RecordFault UInt64
  | .int n =>
      match n.word? with
      | some w => .ok w
      | none => .error (.negative n.val)
  | v => .error (.wrongType v .word)

def readOptionalWord : Json → Except RecordFault (Option UInt64)
  | .null => .ok none
  | v => (readWord v).map some

def readTimestamp (v : Json) : Except RecordFault Timestamp := do
  let raw ← readText v
  match Timestamp.parse raw with
  | .ok t => .ok t
  | .error fault => .error (.timestamp (String.ofList (Text.trim raw.toList)) fault)

/-- The fields of a record as they were given. -/
inductive Fields where
  | named (members : List (String × Json))
  | listed (items : List Json)

namespace Fields

/-- The fields in an object or array. -/
def ofJson (kind : RecordKind) : Json → Except RecordFault Fields
  | .obj members => .ok (.named members)
  | .arr items => .ok (.listed items)
  | v => .error (.wrongType v (.record kind))

def find? (fields : Fields) (index : Nat) (name : String) : Option Json :=
  match fields with
  | .named members => SortedMap.lookup name members
  | .listed items => items[index]?

/-- Checks named members in their order; `check` accepts the names it does not know. -/
def checkNamed (fields : Fields) (check : String → Json → Except RecordFault Unit) :
    Except RecordFault Unit :=
  match fields with
  | .named members => members.forM fun (name, v) => check name v
  | .listed _ => .ok ()

def required {α : Type} (fields : Fields) (kind : RecordKind) (index : Nat) (name : String)
    (read : Json → Except RecordFault α) : Except RecordFault α :=
  match fields.find? index name, fields with
  | some v, _ => read v
  | none, .named _ => .error (.missing name)
  | none, .listed _ => .error (.tooShort index kind)

/-- Refuses positions after the last field. -/
def checkEnd (fields : Fields) (kind : RecordKind) : Except RecordFault Unit :=
  match fields with
  | .named _ => .ok ()
  | .listed items => if items.length > kind.arity then .error (.tooLong items.length) else .ok ()

end Fields
end Record
end EntityClient
