import EntityClient.Proofs.Property.RoundTrip

/-!
Which JSON fits a property. Null fits every datatype, and the datatypes that ask for no more than
JSON shows take everything. A date or a timestamp has to be a string that can be scanned, a file or
an image a record of its fields. With a schema a property has to be defined under its title and have
one of the known datatypes; without one everything fits.
-/

namespace EntityClient

namespace Datatype

theorem ofTag?_eq_some_iff {tag : String} {d : Datatype} :
    ofTag? tag = some d ↔ (tag, d) ∈ tags := by
  have all : ∀ e ∈ tags, ofTag? e.1 = some e.2 := by decide
  constructor
  · intro found
    obtain ⟨before, after, split, -⟩ := List.lookup_eq_some_iff.mp found
    rw [split]
    exact List.mem_append_right before List.mem_cons_self
  · exact all (tag, d)

/-- The value that JSON stands for under a datatype. -/
inductive Fits : Datatype → Json → Value → Prop
  | null (d) : Fits d .null .null
  | plain {d} (plain : d ∉ [.date, .timestamp, .file, .image]) (raw) : Fits d raw (.ofJson raw)
  | date {s day} (scanned : Date.parse s = .ok day) : Fits .date (.str s) (.date day)
  | timestamp {s t} (scanned : Timestamp.parse s = .ok t) :
      Fits .timestamp (.str s) (.timestamp t)
  | file {raw f} (read : Attachment.ofJson raw = .ok f) : Fits .file raw (.file f)
  | image {raw p} (read : Picture.ofJson raw = .ok p) : Fits .image raw (.image p)

/-- Why JSON stands for no value under a datatype. -/
inductive Misfit : Datatype → Json → Failure → Prop
  | noText {d raw} (scans : d = .date ∨ d = .timestamp) (present : raw ≠ .null)
      (noText : ∀ s, raw ≠ .str s) : Misfit d raw (.malformed (.notText raw))
  | date {s fault} (unscanned : Date.parse s = .error fault) :
      Misfit .date (.str s) (.malformed (.date s fault))
  | timestamp {s fault} (unscanned : Timestamp.parse s = .error fault) :
      Misfit .timestamp (.str s)
        (.malformed (.timestamp (String.ofList (Text.trim s.toList)) fault))
  | file {raw fault} (present : raw ≠ .null) (unread : Attachment.ofJson raw = .error fault) :
      Misfit .file raw (.malformed (.record fault))
  | image {raw fault} (present : raw ≠ .null) (unread : Picture.ofJson raw = .error fault) :
      Misfit .image raw (.malformed (.record fault))

theorem isNull_eq_false {raw : Json} (present : raw ≠ .null) : raw.isNull = false := by
  cases raw with
  | null => exact absurd rfl present
  | bool _ | int _ | float _ | str _ | arr _ | obj _ => rfl

theorem interpret_of_fits {d : Datatype} {raw : Json} {v : Value} (fits : d.Fits raw v) :
    d.interpret raw = .ok v := by
  cases fits with
  | null => exact interpret_null d
  | plain plain => exact interpret_plain plain raw
  | date scanned =>
      rw [interpret_date rfl]
      simp only [expectText, readDate, scanned, bind, Except.bind]
      rfl
  | timestamp scanned =>
      rw [interpret_timestamp rfl]
      simp only [expectText, readTimestamp, scanned, bind, Except.bind]
      rfl
  | file read =>
      have present : raw ≠ .null := by
        rintro rfl
        cases read
      rw [interpret_file (isNull_eq_false present), read]
      rfl
  | image read =>
      have present : raw ≠ .null := by
        rintro rfl
        cases read
      rw [interpret_image (isNull_eq_false present), read]
      rfl

theorem interpret_of_misfit {d : Datatype} {raw : Json} {x : Failure} (misfit : d.Misfit raw x) :
    d.interpret raw = .error x := by
  cases misfit with
  | noText scans present noText =>
      have refused : expectText raw = .error (.malformed (.notText raw)) := by
        cases raw with
        | str s => exact absurd rfl (noText s)
        | null | bool _ | int _ | float _ | arr _ | obj _ => rfl
      obtain rfl | rfl := scans
      · rw [interpret_date (isNull_eq_false present), refused]
        rfl
      · rw [interpret_timestamp (isNull_eq_false present), refused]
        rfl
  | date unscanned =>
      rw [interpret_date rfl]
      simp only [expectText, readDate, unscanned, bind, Except.bind]
  | timestamp unscanned =>
      rw [interpret_timestamp rfl]
      simp only [expectText, readTimestamp, unscanned, bind, Except.bind]
  | file present unread =>
      rw [interpret_file (isNull_eq_false present), unread]
      rfl
  | image present unread =>
      rw [interpret_image (isNull_eq_false present), unread]
      rfl

theorem fits_or_misfit (d : Datatype) (raw : Json) :
    (∃ v, d.Fits raw v) ∨ ∃ x, d.Misfit raw x := by
  by_cases null : raw = .null
  · exact .inl ⟨.null, null ▸ .null d⟩
  cases d with
  | date =>
      by_cases text : ∃ s, raw = .str s
      · obtain ⟨s, rfl⟩ := text
        cases scanned : Date.parse s with
        | ok day => exact .inl ⟨_, .date scanned⟩
        | error fault => exact .inr ⟨_, .date scanned⟩
      · exact .inr ⟨_, .noText (.inl rfl) null (not_exists.mp text)⟩
  | timestamp =>
      by_cases text : ∃ s, raw = .str s
      · obtain ⟨s, rfl⟩ := text
        cases scanned : Timestamp.parse s with
        | ok t => exact .inl ⟨_, .timestamp scanned⟩
        | error fault => exact .inr ⟨_, .timestamp scanned⟩
      · exact .inr ⟨_, .noText (.inr rfl) null (not_exists.mp text)⟩
  | file =>
      cases read : Attachment.ofJson raw with
      | ok f => exact .inl ⟨_, .file read⟩
      | error fault => exact .inr ⟨_, .file null read⟩
  | image =>
      cases read : Picture.ofJson raw with
      | ok p => exact .inl ⟨_, .image read⟩
      | error fault => exact .inr ⟨_, .image null read⟩
  | autoincrement | int | numeric | bool | text | longtext =>
      exact .inl ⟨_, .plain (by decide) raw⟩

end Datatype

namespace TypeSchema

/-- The value that JSON stands for under a title. -/
def Fits (s : TypeSchema) (title : String) (raw : Json) (v : Value) : Prop :=
  ∃ p d, s.byTitle.get? title = some p ∧ (p.datatype, d) ∈ Datatype.tags ∧ d.Fits raw v

/-- Why JSON stands for no value under a title. -/
inductive Misfit (s : TypeSchema) (title : String) (raw : Json) : Failure → Prop
  | undefined (undefined : s.byTitle.get? title = none) :
      Misfit s title raw (.unknownProperty s.type (.title title))
  | unsupported {p} (defined : s.byTitle.get? title = some p)
      (unsupported : ∀ d, (p.datatype, d) ∉ Datatype.tags) :
      Misfit s title raw (.unsupportedDatatype title p.datatype)
  | value {p d x} (defined : s.byTitle.get? title = some p)
      (supported : (p.datatype, d) ∈ Datatype.tags) (misfit : d.Misfit raw x) :
      Misfit s title raw x

variable {s : TypeSchema} {title : String} {raw : Json} {p : PropertySpec} {d : Datatype}

theorem interpret_undefined (undefined : s.byTitle.get? title = none) :
    s.interpret title raw = .error (.unknownProperty s.type (.title title)) := by
  rw [interpret, property, undefined]
  rfl

theorem interpret_unsupported (defined : s.byTitle.get? title = some p)
    (unsupported : Datatype.ofTag? p.datatype = none) :
    s.interpret title raw = .error (.unsupportedDatatype title p.datatype) := by
  simp only [interpret, property, defined, bind, Except.bind, unsupported]

theorem interpret_supported (defined : s.byTitle.get? title = some p)
    (supported : (p.datatype, d) ∈ Datatype.tags) :
    s.interpret title raw = d.interpret raw := by
  have known := Datatype.ofTag?_eq_some_iff.mpr supported
  simp only [interpret, property, defined, bind, Except.bind, known]

theorem exact_interpret (s : TypeSchema) (title : String) (raw : Json) :
    Exact (s.interpret title raw) (s.Fits title raw) (s.Misfit title raw) := by
  refine exact_of_total ?_ (fun x misfit => ?_) ?_
  · rintro v ⟨p, d, defined, supported, fits⟩
    rw [interpret_supported defined supported, Datatype.interpret_of_fits fits]
  · cases misfit with
    | undefined undefined => exact interpret_undefined undefined
    | unsupported defined unsupported =>
        refine interpret_unsupported defined (Option.eq_none_iff_forall_ne_some.mpr ?_)
        exact fun d known => unsupported d (Datatype.ofTag?_eq_some_iff.mp known)
    | value defined supported misfit =>
        rw [interpret_supported defined supported, Datatype.interpret_of_misfit misfit]
  · cases defined : s.byTitle.get? title with
    | none => exact .inr ⟨_, .undefined defined⟩
    | some p =>
        by_cases supported : ∃ d, (p.datatype, d) ∈ Datatype.tags
        · obtain ⟨d, supported⟩ := supported
          obtain ⟨v, fits⟩ | ⟨x, misfit⟩ := d.fits_or_misfit raw
          · exact .inl ⟨v, p, d, defined, supported, fits⟩
          · exact .inr ⟨x, .value defined supported misfit⟩
        · exact .inr ⟨_, .unsupported defined (not_exists.mp supported)⟩

end TypeSchema
end EntityClient
