import EntityClient.Property.Schema
import EntityClient.Proofs.Calendar.RoundTrip
import EntityClient.Proofs.Number.Nearest
import EntityClient.Proofs.Outcome

/-!
Property values read back from the JSON that they are written as. A value that was read from JSON,
under whatever datatype, is read again from its own JSON under that datatype as the same value. The
JSON itself may be another: dates get one form, positional files get names, and an integer beyond
the signed words has become a double.
-/

namespace EntityClient

namespace Record.Fields

variable {α : Type} {members : List (String × Json)} {name : String} {v : Json}

theorem required_named (kind : RecordKind) (index : Nat) (read : Json → Except RecordFault α)
    (h : SortedMap.lookup name members = some v) :
    (named members).required kind index name read = read v := by
  simp only [required, find?, h]

end Record.Fields

theorem Record.readTimestamp_render (t : Timestamp) :
    Record.readTimestamp (.str t.render) = .ok t := by
  simp only [Record.readTimestamp, Record.readText, bind, Except.bind, t.parse_render]

namespace Attachment

/-- The members that a file is written with. -/
def fields (file : Attachment) : List (String × Json) :=
  [("href", .str file.href), ("size", .word file.size), ("ext", .str file.extension),
    ("mime", .str file.mime), ("timestamp", .str file.modified.render)]

theorem checkMember_fields (file : Attachment) :
    ∀ e ∈ file.fields, checkMember e.1 e.2 = .ok () := by
  intro e he
  simp only [fields, List.mem_cons, List.not_mem_nil, or_false] at he
  obtain rfl | rfl | rfl | rfl | rfl := he
  · rfl
  · simp [checkMember, Record.readWord, Json.word, Except.map]
  · rfl
  · rfl
  · simp [checkMember, Record.readTimestamp_render, Except.map]

/-- A file is read from members that hold its fields, and dimensions perhaps. -/
theorem ofFields_named {file : Attachment} {members : List (String × Json)}
    (held : ∀ e ∈ file.fields, SortedMap.lookup e.1 members = some e.2)
    (known : ∀ e ∈ members, e ∈ file.fields ∨ e.1 = "dimensions") :
    ofFields (.named members) = .ok file := by
  have checked : (Record.Fields.named members).checkNamed checkMember = .ok () := by
    refine forM_eq_ok fun e he => ?_
    cases known e he with
    | inl field => exact checkMember_fields file e field
    | inr other => simp [checkMember, other]
  have href := Record.Fields.required_named .file 0 Record.readText
    (held ("href", .str file.href) (by simp [fields]))
  have size := Record.Fields.required_named .file 1 Record.readWord
    (held ("size", .word file.size) (by simp [fields]))
  have extension := Record.Fields.required_named .file 2 Record.readText
    (held ("ext", .str file.extension) (by simp [fields]))
  have mime := Record.Fields.required_named .file 3 Record.readText
    (held ("mime", .str file.mime) (by simp [fields]))
  have modified := Record.Fields.required_named .file 4 Record.readTimestamp
    (held ("timestamp", .str file.modified.render) (by simp [fields]))
  simp only [ofFields, checked, href, size, extension, mime, modified, Record.readText,
    Record.readWord, Json.word, Whole.word?_ofWord, Record.readTimestamp_render, bind, Except.bind]
  rfl

theorem ofJson_toJson (file : Attachment) : ofJson file.toJson = .ok file := by
  have nodup : (file.fields.map Prod.fst).Nodup := by simp [fields]
  exact ofFields_named (fun e he => SortedMap.get?_ofList nodup he)
    fun e he => .inl (SortedMap.mem_of_mem_ofList he)

end Attachment

theorem Picture.ofJson_toJson (image : Picture) : ofJson image.toJson = .ok image := by
  let members := ("dimensions", image.dimensions) :: image.file.fields
  have nodup : (members.map Prod.fst).Nodup := by simp [members, Attachment.fields]
  have file : Attachment.ofFields (.named (SortedMap.ofList members).entries) = .ok image.file :=
    Attachment.ofFields_named
      (fun e he => SortedMap.get?_ofList nodup (List.mem_cons_of_mem _ he)) fun e he => by
        cases List.mem_cons.mp (SortedMap.mem_of_mem_ofList he) with
        | inl dimensions => exact .inr (congrArg Prod.fst dimensions)
        | inr field => exact .inl field
  have dimensions : SortedMap.lookup "dimensions" (SortedMap.ofList members).entries =
      some image.dimensions := SortedMap.get?_ofList nodup List.mem_cons_self
  change (do
    let file ← Attachment.ofFields (.named (SortedMap.ofList members).entries)
    return (⟨file, (SortedMap.lookup "dimensions" (SortedMap.ofList members).entries).getD .null⟩ :
      Picture)) = Except.ok image
  rw [file, dimensions]
  rfl

namespace Value

/-- The datatype of a value for which JSON has no form of its own. -/
def datatype? : Value → Option Datatype
  | .date _ => some .date
  | .timestamp _ => some .timestamp
  | .file _ => some .file
  | .image _ => some .image
  | _ => none

/-- What JSON shows of a value is shown again by the JSON of that value. -/
theorem ofJson_toJson_ofJson (raw : Json) : ofJson (ofJson raw).toJson = ofJson raw := by
  cases raw with
  | null | bool _ | float _ | str _ | arr _ | obj _ => rfl
  | int n =>
      simp only [ofJson]
      cases n.int64? with
      | some i => simp [toJson]
      | none =>
          obtain ⟨x, hx⟩ := Double.exists_ofInt n
          simp [hx, toJson, Json.ofDouble]

/-- JSON that becomes a value without a datatype is what is shown of the value, unless it is an
integer beyond the signed words. -/
theorem toJson_ofJson_iff (raw : Json) :
    (ofJson raw).toJson = raw ↔ ∀ n, raw = .int n → n.val < 9223372036854775808 := by
  cases raw with
  | null | bool _ | float _ | str _ | arr _ | obj _ =>
      exact ⟨fun _ n h => Json.noConfusion h, fun _ => rfl⟩
  | int n =>
      simp only [Json.int.injEq, forall_eq']
      by_cases small : n.val < 9223372036854775808
      · have same : (Int64.ofInt n.val).toInt = n.val := Int64.toInt_ofInt_of_le n.lower small
        have back : Whole.ofInt64 (Int64.ofInt n.val) = n := by
          obtain ⟨val, lower, upper⟩ := n
          simp only [Whole.ofInt64, same]
        simp [ofJson, Whole.int64?, toJson, small, back]
      · obtain ⟨x, hx⟩ := Double.exists_ofInt n
        simp [ofJson, Whole.int64?, toJson, Json.ofDouble, small, hx]

end Value

namespace Datatype

/-- The other datatypes ask for no more than JSON shows. -/
theorem interpret_plain {d : Datatype} (plain : d ∉ [.date, .timestamp, .file, .image])
    (raw : Json) : d.interpret raw = .ok (.ofJson raw) := by
  cases raw with
  | null => rfl
  | bool _ | int _ | float _ | str _ | arr _ | obj _ => cases d <;> simp at plain <;> rfl

section Special

variable {raw : Json} (present : raw.isNull = false)
include present

theorem interpret_date :
    interpret .date raw = do return .date (← readDate (← expectText raw)) := by
  simp [interpret, present]

theorem interpret_timestamp :
    interpret .timestamp raw = do return .timestamp (← readTimestamp (← expectText raw)) := by
  simp [interpret, present]

theorem interpret_file :
    interpret .file raw = do return .file (← expectRecord (Attachment.ofJson raw)) := by
  simp [interpret, present]

theorem interpret_image :
    interpret .image raw = do return .image (← expectRecord (Picture.ofJson raw)) := by
  simp [interpret, present]

end Special

theorem interpret_null (d : Datatype) : d.interpret .null = .ok .null := by
  simp [interpret, Json.isNull]

/-- A value with a datatype of its own is read from its JSON under that datatype. -/
theorem interpret_own {v : Value} {d : Datatype} (own : v.datatype? = some d) :
    d.interpret v.toJson = .ok v := by
  cases v with
  | date date =>
      cases own
      rw [Value.toJson, interpret_date rfl]
      simp only [expectText, readDate, date.parse_render, bind, Except.bind]
      rfl
  | timestamp t =>
      cases own
      rw [Value.toJson, interpret_timestamp rfl]
      simp only [expectText, readTimestamp, t.parse_render, bind, Except.bind]
      rfl
  | file file =>
      cases own
      rw [Value.toJson, interpret_file rfl, file.ofJson_toJson]
      rfl
  | image image =>
      cases own
      rw [Value.toJson, interpret_image rfl, image.ofJson_toJson]
      rfl
  | null | bool _ | int _ | numeric _ | text _ | raw _ => cases own

/-- A value is read from its own JSON under the datatype that it was read with. -/
theorem interpret_toJson {d : Datatype} {raw : Json} {v : Value} (h : d.interpret raw = .ok v) :
    d.interpret v.toJson = .ok v := by
  by_cases null : raw.isNull = true
  · have hraw : raw = .null := by
      cases raw with
      | null => rfl
      | _ => cases null
    rw [hraw, interpret_null] at h
    cases h
    exact interpret_null d
  have present : raw.isNull = false := Bool.eq_false_iff.mpr null
  cases d with
  | date =>
      rw [interpret_date present] at h
      obtain ⟨s, -, h⟩ := exists_of_bind_ok h
      obtain ⟨date, -, h⟩ := exists_of_bind_ok h
      cases h
      exact interpret_own rfl
  | timestamp =>
      rw [interpret_timestamp present] at h
      obtain ⟨s, -, h⟩ := exists_of_bind_ok h
      obtain ⟨t, -, h⟩ := exists_of_bind_ok h
      cases h
      exact interpret_own rfl
  | file =>
      rw [interpret_file present] at h
      obtain ⟨file, -, h⟩ := exists_of_bind_ok h
      cases h
      exact interpret_own rfl
  | image =>
      rw [interpret_image present] at h
      obtain ⟨image, -, h⟩ := exists_of_bind_ok h
      cases h
      exact interpret_own rfl
  | autoincrement | int | numeric | bool | text | longtext =>
      rw [interpret_plain (by decide)] at h
      cases h
      rw [interpret_plain (by decide), Value.ofJson_toJson_ofJson]

/-- Values survive being written as JSON: those of a datatype of their own under that datatype, and
whatever was read under a datatype, be it null or of a scalar one, under the same. -/
theorem values_survive :
    (∀ (v : Value) (d : Datatype), v.datatype? = some d → d.interpret v.toJson = .ok v) ∧
      ∀ (d : Datatype) (raw : Json) (v : Value), d.interpret raw = .ok v →
        d.interpret v.toJson = .ok v :=
  ⟨fun _ _ own => interpret_own own, fun _ _ _ read => interpret_toJson read⟩

/-- The first minute of the calendar, given in a form that it is not written in. -/
example : (Datatype.timestamp.interpret (.str " -262143-1-1T00:00:60")).map Value.toJson =
    .ok (.str "-262143-01-01 00:00:60") := rfl

end Datatype

theorem TypeSchema.interpret_toJson {s : TypeSchema} {title : String} {raw : Json} {v : Value}
    (h : s.interpret title raw = .ok v) : s.interpret title v.toJson = .ok v := by
  obtain ⟨p, hp, h⟩ := exists_of_bind_ok h
  rw [interpret, hp]
  cases known : Datatype.ofTag? p.datatype with
  | none =>
      rw [known] at h
      cases h
  | some d =>
      rw [known] at h
      simp only [bind, Except.bind, known]
      exact Datatype.interpret_toJson h

end EntityClient
