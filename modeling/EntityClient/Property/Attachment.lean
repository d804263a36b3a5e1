import EntityClient.Property.Record

/-!
Files and images held by properties. An image is a file with dimensions, which may be any JSON
value and are null when absent. Files may be given by name or position, images by name only.
-/

namespace EntityClient

structure Attachment where
  href : String
  size : UInt64
  extension : String
  mime : String
  modified : Timestamp
deriving DecidableEq, Repr

structure Picture where
  file : Attachment
  dimensions : Json
deriving DecidableEq, Repr

namespace Attachment

def checkMember (name : String) (v : Json) : Except RecordFault Unit :=
  if name = "href" ∨ name = "ext" ∨ name = "mime" then (Record.readText v).map fun _ => ()
  else if name = "size" then (Record.readWord v).map fun _ => ()
  else if name = "timestamp" then (Record.readTimestamp v).map fun _ => ()
  else .ok ()

def ofFields (fields : Record.Fields) : Except RecordFault Attachment := do
  fields.checkNamed checkMember
  let href ← fields.required .file 0 "href" Record.readText
  let size ← fields.required .file 1 "size" Record.readWord
  let extension ← fields.required .file 2 "ext" Record.readText
  let mime ← fields.required .file 3 "mime" Record.readText
  let modified ← fields.required .file 4 "timestamp" Record.readTimestamp
  fields.checkEnd .file
  return ⟨href, size, extension, mime, modified⟩

def ofJson (v : Json) : Except RecordFault Attachment := do ofFields (← Record.Fields.ofJson .file v)

def toJson (file : Attachment) : Json :=
  .object [("href", .str file.href), ("size", .word file.size), ("ext", .str file.extension),
    ("mime", .str file.mime), ("timestamp", .str file.modified.render)]

end Attachment

namespace Picture

def ofJson : Json → Except RecordFault Picture
  | .obj members => do
      let file ← Attachment.ofFields (.named members)
      return ⟨file, (SortedMap.lookup "dimensions" members).getD .null⟩
  | v => .error (.wrongType v (.record .image))

def toJson (image : Picture) : Json :=
  .object [("dimensions", image.dimensions), ("href", .str image.file.href),
    ("size", .word image.file.size), ("ext", .str image.file.extension),
    ("mime", .str image.file.mime), ("timestamp", .str image.file.modified.render)]

end Picture
end EntityClient
