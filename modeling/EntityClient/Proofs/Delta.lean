import EntityClient.Delta
import EntityClient.Proofs.Entity.Ids

/-!
Change sets, read from the store's answer. An answer has many ways to write down the same sets, and
all of them are read as the same change set: `ofJson_exact` says of which change set each answer is
an encoding, and which answers are refused.
-/

namespace EntityClient

namespace IdSet

theorem contains_ofList {ids : List UInt64} {id : UInt64} :
    (ofList ids).contains id = true ↔ id ∈ ids := by
  rw [ofList, SortedMap.contains_ofList]
  simp

/-- A set is what it contains. -/
theorem ext {s t : IdSet} (h : ∀ id, s.contains id = true ↔ t.contains id = true) : s = t := by
  refine SortedMap.ext_get? fun id => ?_
  have same : (s.get? id).isSome = (t.get? id).isSome := Bool.eq_iff_iff.mpr (h id)
  cases hs : s.get? id <;> cases ht : t.get? id <;> simp_all

theorem increasing_keys (s : IdSet) : s.keys.Pairwise (· < ·) :=
  s.increasing.imp Std.compare_eq_lt.mp

end IdSet

/-- The member lists the ids of the set, in any order and as often as it likes. -/
def Lists (member : Option Json) (s : IdSet) : Prop :=
  ∃ ids, IdListForm member ids ∧ ∀ id, id ∈ ids ↔ s.contains id = true

theorem Lists.unique {member : Option Json} {s t : IdSet} (hs : Lists member s)
    (ht : Lists member t) : s = t := by
  obtain ⟨ids, form, hs⟩ := hs
  obtain ⟨ids', form', ht⟩ := ht
  have same : ids = ids' := Except.ok.inj
    ((readIds_eq_ok_iff.mpr form).symm.trans (readIds_eq_ok_iff.mpr form'))
  exact IdSet.ext fun id => (hs id).symm.trans (same ▸ ht id)

theorem exists_lists_iff {member : Option Json} : (∃ s, Lists member s) ↔ ¬ NoIdList member := by
  rw [noIdList_iff]
  constructor
  · rintro ⟨s, ids, form, -⟩ none
    exact none ids form
  · intro some
    obtain ⟨ids, form⟩ := not_forall_not.mp some
    exact ⟨.ofList ids, ids, form, fun id => IdSet.contains_ofList.symm⟩

namespace TypeDelta

/-- The members give the three sets of a type. -/
structure Encodes (body : List (String × Json)) (t : TypeDelta) : Prop where
  created : Lists (SortedMap.lookup "created" body) t.created
  updated : Lists (SortedMap.lookup "updated" body) t.updated
  deleted : Lists (SortedMap.lookup "deleted" body) t.deleted

variable {body : List (String × Json)} {t : TypeDelta}

theorem Encodes.unique {t' : TypeDelta} (h : Encodes body t) (h' : Encodes body t') : t = t' := by
  obtain ⟨created, updated, deleted⟩ := t
  cases h.created.unique h'.created
  cases h.updated.unique h'.updated
  cases h.deleted.unique h'.deleted
  rfl

theorem readSet_eq_ok_iff {member : Option Json} {s : IdSet} :
    (do return IdSet.ofList (← readIds member)) = Except.ok s ↔ Lists member s := by
  constructor
  · intro h
    obtain ⟨ids, read, h⟩ := exists_of_bind_ok h
    cases h
    exact ⟨ids, readIds_eq_ok_iff.mp read, fun id => IdSet.contains_ofList.symm⟩
  · rintro ⟨ids, form, all⟩
    have set : IdSet.ofList ids = s := IdSet.ext fun id => IdSet.contains_ofList.trans (all id)
    rw [readIds_eq_ok_iff.mpr form, ← set]
    rfl

theorem ofMembers_eq_ok_iff : ofMembers body = .ok t ↔ Encodes body t := by
  constructor
  · intro h
    obtain ⟨created, hcreated, h⟩ := exists_of_bind_ok h
    obtain ⟨updated, hupdated, h⟩ := exists_of_bind_ok h
    obtain ⟨deleted, hdeleted, h⟩ := exists_of_bind_ok h
    cases h
    exact ⟨readSet_eq_ok_iff.mp hcreated, readSet_eq_ok_iff.mp hupdated,
      readSet_eq_ok_iff.mp hdeleted⟩
  · intro h
    have created := readSet_eq_ok_iff.mpr h.created
    have updated := readSet_eq_ok_iff.mpr h.updated
    have deleted := readSet_eq_ok_iff.mpr h.deleted
    simp only [ofMembers, created, updated, deleted]
    rfl

/-- No three sets are given if one of the members is no list of ids. -/
theorem exists_encodes_iff :
    (∃ t, Encodes body t) ↔
      ∀ field ∈ ["created", "updated", "deleted"], ¬ NoIdList (SortedMap.lookup field body) := by
  simp only [List.forall_mem_cons, List.not_mem_nil, false_imp_iff, implies_true, and_true,
    ← exists_lists_iff]
  constructor
  · rintro ⟨t, created, updated, deleted⟩
    exact ⟨⟨_, created⟩, ⟨_, updated⟩, ⟨_, deleted⟩⟩
  · rintro ⟨⟨created, hcreated⟩, ⟨updated, hupdated⟩, ⟨deleted, hdeleted⟩⟩
    exact ⟨⟨created, updated, deleted⟩, hcreated, hupdated, hdeleted⟩

end TypeDelta

namespace Delta

/-- The payload is an object that writes down the change set: the revision as an integer, and for
each type an object with its sets. Members of other kinds may stand between them. -/
structure Encodes (payload : Json) (d : Delta) : Prop where
  object : ∃ members, payload = .obj members
  revision : ∀ n, payload.get? "revision" = some (.word n) ↔ d.revision = some n
  reserved : d.get? "revision" = none
  described : ∀ type t, d.get? type = some t →
    ∃ body, payload.get? type = some (.obj body) ∧ TypeDelta.Encodes body t
  complete : ∀ type body, type ≠ "revision" → payload.get? type = some (.obj body) →
    ∃ t, d.get? type = some t

theorem Encodes.unique {payload : Json} {d d' : Delta} (h : Encodes payload d)
    (h' : Encodes payload d') (since : d.since = d'.since) : d = d' := by
  have revision : d.revision = d'.revision :=
    Option.ext fun n => (h.revision n).symm.trans (h'.revision n)
  have agree {d d' : Delta} (h : Encodes payload d) (h' : Encodes payload d') {type : String}
      {t : TypeDelta} (found : d.get? type = some t) : d'.get? type = some t := by
    obtain ⟨body, given, sets⟩ := h.described type t found
    have plain : type ≠ "revision" := by
      rintro rfl
      rw [h.reserved] at found
      cases found
    obtain ⟨t', found'⟩ := h'.complete type body plain given
    obtain ⟨body', given', sets'⟩ := h'.described type t' found'
    rw [given] at given'
    cases given'
    rw [found', sets.unique sets']
  have types : d.types = d'.types :=
    SortedMap.ext_get? fun type => Option.ext fun t => ⟨agree h h', agree h' h⟩
  obtain ⟨_, _, _⟩ := d
  cases since
  cases revision
  cases types
  rfl

/-- The type that a member describes, and how. The revision describes none. -/
def typeMember? : String × Json → Option (String × List (String × Json))
  | (key, .obj body) => if key = "revision" then none else some (key, body)
  | _ => none

theorem typeMember?_eq_some_iff {e : String × Json} {type : String} {body : List (String × Json)} :
    typeMember? e = some (type, body) ↔ type ≠ "revision" ∧ e = (type, .obj body) := by
  constructor
  · intro h
    simp only [typeMember?] at h
    split at h
    next key body' =>
      split at h
      next => cases h
      next plain =>
        cases h
        exact ⟨plain, rfl⟩
    next => cases h
  · rintro ⟨plain, rfl⟩
    exact if_neg plain

/-- The types that an object describes. -/
def typeMembers (members : List (String × Json)) : List (String × List (String × Json)) :=
  members.filterMap typeMember?

section Members

variable {members : List (String × Json)}

theorem mem_typeMembers {type : String} {body : List (String × Json)} :
    (type, body) ∈ typeMembers members ↔
      type ≠ "revision" ∧ (type, .obj body) ∈ members := by
  simp only [typeMembers, List.mem_filterMap, typeMember?_eq_some_iff]
  exact ⟨fun ⟨_, mem, plain, he⟩ => ⟨plain, he ▸ mem⟩, fun ⟨plain, mem⟩ => ⟨_, mem, plain, rfl⟩⟩

theorem readTypes_eq (members : List (String × Json)) :
    readTypes members =
      (typeMembers members).mapM fun e => do return (e.1, ← TypeDelta.ofMembers e.2) := by
  induction members with
  | nil => rfl
  | cons e rest ih =>
      obtain ⟨key, v⟩ := e
      cases v with
      | obj body =>
          by_cases special : key = "revision"
          · simp only [readTypes, typeMembers, typeMember?, List.filterMap_cons, special, if_true]
            exact ih
          · simp only [readTypes, typeMembers, typeMember?, List.filterMap_cons, special, if_false,
              List.mapM_cons, ih]
            cases TypeDelta.ofMembers body <;> rfl
      | null | bool _ | int _ | float _ | str _ | arr _ => exact ih

/-- The types are those of the members that describe one, with what is given for them. -/
theorem readTypes_eq_ok_iff {types : List (String × TypeDelta)} :
    readTypes members = .ok types ↔
      List.Forall₂ (fun x y => x.1 = y.1 ∧ TypeDelta.Encodes x.2 y.2)
        (typeMembers members) types := by
  have step (x : String × List (String × Json)) (y : String × TypeDelta) :
      (do return (x.1, ← TypeDelta.ofMembers x.2)) = Except.ok y ↔
        x.1 = y.1 ∧ TypeDelta.Encodes x.2 y.2 := by
    rw [← TypeDelta.ofMembers_eq_ok_iff]
    cases TypeDelta.ofMembers x.2 with
    | error e => simp [bind, Except.bind]
    | ok t =>
        simp only [bind, Except.bind, pure, Except.pure, Except.ok.injEq]
        exact Prod.ext_iff
  simp only [readTypes_eq, mapM_eq_ok_iff, step]

theorem exists_readTypes_iff :
    (∃ types, readTypes members = .ok types) ↔
      ∀ type body, (type, body) ∈ typeMembers members → ∃ t, TypeDelta.Encodes body t := by
  simp only [readTypes_eq_ok_iff, exists_forall₂_iff, Prod.exists, Prod.forall, exists_and_left,
    exists_eq_left']

variable (increasing : (members.map Prod.fst).Pairwise (fun a b => compare a b = .lt))
include increasing

theorem mem_typeMembers_iff_lookup {type : String} {body : List (String × Json)} :
    (type, body) ∈ typeMembers members ↔
      type ≠ "revision" ∧ SortedMap.lookup type members = some (.obj body) := by
  rw [mem_typeMembers, SortedMap.lookup_eq_some_iff increasing]

theorem increasing_typeMembers :
    ((typeMembers members).map Prod.fst).Pairwise (fun a b => compare a b = .lt) := by
  rw [List.pairwise_map] at increasing ⊢
  refine increasing.filterMap _ fun e e' before x hx x' hx' => ?_
  rw [(typeMember?_eq_some_iff.mp hx).2, (typeMember?_eq_some_iff.mp hx').2] at before
  exact before

/-- The map of the types that were read has each member that describes one, and no more. -/
theorem get?_of_readTypes {types : List (String × TypeDelta)}
    (read : readTypes members = .ok types) {type : String} {t : TypeDelta} :
    (SortedMap.ofList types).get? type = some t ↔
      ∃ body, (type, body) ∈ typeMembers members ∧ TypeDelta.Encodes body t := by
  have places := readTypes_eq_ok_iff.mp read
  have keys : types.map Prod.fst = (typeMembers members).map Prod.fst :=
    keys_eq_of_forall₂ places fun _ _ h => h.1
  have entries : (SortedMap.ofList types).entries = types :=
    SortedMap.entries_ofList (keys ▸ increasing_typeMembers increasing)
  rw [SortedMap.get?_eq_some_iff, entries]
  constructor
  · intro mem
    obtain ⟨⟨_, body⟩, hbody, rfl, sets⟩ := exists_of_forall₂_right places mem
    exact ⟨body, hbody, sets⟩
  · rintro ⟨body, hbody, sets⟩
    obtain ⟨⟨_, t'⟩, mem, rfl, sets'⟩ := exists_of_forall₂_left places hbody
    rwa [sets.unique sets']

end Members

variable {since : UInt64} {payload : Json} {d : Delta}

theorem encodes_of_ofJson (wf : payload.WellFormed) (read : ofJson since payload = .ok d) :
    d.since = since ∧ Encodes payload d := by
  cases payload with
  | obj members =>
      obtain ⟨types, readTypes, h⟩ := exists_of_bind_ok read
      cases h
      have found_iff {type : String} {t : TypeDelta} :
          (SortedMap.ofList types).get? type = some t ↔
            ∃ body, (type, body) ∈ typeMembers members ∧ TypeDelta.Encodes body t :=
        get?_of_readTypes wf.1 readTypes
      refine ⟨rfl, ⟨members, rfl⟩, ?revision, ?reserved, ?described, ?complete⟩
      case revision =>
        intro n
        rw [Option.bind_eq_some_iff]
        simp only [Json.word?_eq_some_iff, exists_eq_right]
        exact Iff.rfl
      case reserved =>
        rw [Option.eq_none_iff_forall_ne_some]
        intro t found
        obtain ⟨body, mem, -⟩ := found_iff.mp found
        exact (mem_typeMembers.mp mem).1 rfl
      case described =>
        intro type t found
        obtain ⟨body, mem, sets⟩ := found_iff.mp found
        exact ⟨body, ((mem_typeMembers_iff_lookup wf.1).mp mem).2, sets⟩
      case complete =>
        intro type body plain given
        have mem := (mem_typeMembers_iff_lookup wf.1).mpr ⟨plain, given⟩
        obtain ⟨t, sets⟩ := exists_readTypes_iff.mp ⟨types, readTypes⟩ type body mem
        exact ⟨t, found_iff.mpr ⟨body, mem, sets⟩⟩
  | null | bool _ | int _ | float _ | str _ | arr _ => cases read

/-- Whether a payload is read depends on its type members alone. -/
theorem exists_ofJson_iff (wf : payload.WellFormed) :
    (∃ d, ofJson since payload = .ok d) ↔
      (∃ members, payload = .obj members) ∧
        ∀ type body, type ≠ "revision" → payload.get? type = some (.obj body) →
          ∃ t, TypeDelta.Encodes body t := by
  cases payload with
  | obj members =>
      have types : (∃ d, ofJson since (.obj members) = .ok d) ↔
          ∃ types, readTypes members = .ok types := by
        simp only [ofJson]
        cases readTypes members <;> simp [bind, Except.bind, pure, Except.pure]
      simp only [types, exists_readTypes_iff, mem_typeMembers_iff_lookup wf.1, and_imp]
      exact (and_iff_right ⟨members, rfl⟩).symm
  | null | bool _ | int _ | float _ | str _ | arr _ =>
      constructor
      · rintro ⟨d, read⟩
        cases read
      · rintro ⟨⟨members, object⟩, -⟩
        cases object

/-- A change set is read from its encodings, and from nothing else. -/
theorem ofJson_eq_ok_iff (wf : payload.WellFormed) :
    ofJson since payload = .ok d ↔ d.since = since ∧ Encodes payload d := by
  refine ⟨encodes_of_ofJson wf, fun ⟨base, encodes⟩ => ?_⟩
  have read : ∃ d', ofJson since payload = .ok d' := by
    refine (exists_ofJson_iff wf).mpr ⟨encodes.object, fun type body plain given => ?_⟩
    obtain ⟨t, found⟩ := encodes.complete type body plain given
    obtain ⟨body', given', sets⟩ := encodes.described type t found
    rw [given] at given'
    cases given'
    exact ⟨t, sets⟩
  obtain ⟨d', read⟩ := read
  obtain ⟨base', encodes'⟩ := encodes_of_ofJson wf read
  rw [read, encodes'.unique encodes (base'.trans base.symm)]

theorem ofJson_error_iff (wf : payload.WellFormed) :
    (∃ e, ofJson since payload = .error e) ↔
      (∀ members, payload ≠ .obj members) ∨
        ∃ type body field, type ≠ "revision" ∧ payload.get? type = some (.obj body) ∧
          field ∈ ["created", "updated", "deleted"] ∧
          NoIdList (SortedMap.lookup field body) := by
  rw [exists_error_iff, ← not_exists, exists_ofJson_iff wf]
  simp only [TypeDelta.exists_encodes_iff]
  grind

/-- The list has the ids of the set, each once and in increasing order. -/
structure Enumerates (l : IdList) (type : String) (s : IdSet) : Prop where
  type_eq : l.type = type
  increasing : l.ids.Pairwise (· < ·)
  mem_iff : ∀ id, id ∈ l.ids ↔ s.contains id = true

variable {type : String} {t : TypeDelta}

theorem list_enumerates (pick : TypeDelta → IdSet) (found : d.get? type = some t) :
    Enumerates (d.list pick type) type (pick t) := by
  have keys : (d.list pick type).ids = (pick t).keys := by
    rw [list, found]
    rfl
  exact ⟨rfl, keys ▸ (pick t).increasing_keys, fun id => keys ▸ SortedMap.mem_keys_iff⟩

theorem list_of_none (pick : TypeDelta → IdSet) (missing : d.get? type = none) :
    d.list pick type = ⟨type, []⟩ := by
  rw [list, missing]
  rfl

/-- An answer is read as the change set that it encodes, whose lists are its sets in increasing
order. Refused are the answers that encode none: what is no object, and what describes a type by a
member that is no list of ids. -/
theorem ofJson_exact (wf : payload.WellFormed) :
    (∀ d, ofJson since payload = .ok d ↔ d.since = since ∧ Encodes payload d) ∧
    (∀ (d : Delta) (type : String),
      (∀ t, d.get? type = some t → Enumerates (d.created type) type t.created ∧
        Enumerates (d.updated type) type t.updated ∧
        Enumerates (d.deleted type) type t.deleted) ∧
      (d.get? type = none → d.created type = ⟨type, []⟩ ∧ d.updated type = ⟨type, []⟩ ∧
        d.deleted type = ⟨type, []⟩)) ∧
    ((∃ e, ofJson since payload = .error e) ↔
      (∀ members, payload ≠ .obj members) ∨
        ∃ type body field, type ≠ "revision" ∧ payload.get? type = some (.obj body) ∧
          field ∈ ["created", "updated", "deleted"] ∧
          NoIdList (SortedMap.lookup field body)) := by
  refine ⟨fun d => ofJson_eq_ok_iff wf, fun d type => ⟨?listed, ?unlisted⟩, ofJson_error_iff wf⟩
  case listed =>
    intro t found
    exact ⟨list_enumerates _ found, list_enumerates _ found, list_enumerates _ found⟩
  case unlisted =>
    intro missing
    exact ⟨list_of_none _ missing, list_of_none _ missing, list_of_none _ missing⟩

/-- Ids as integers and as numerals, repeated and out of order; a set that is null, and sets left
out; a member of another kind. -/
theorem ofJson_exact_mixed :
    let payload : Json := .object [("revision", .word 9), ("quota", .str "full"),
      ("member", .object [("created", .arr [.word 3, .str " 1\n", .str "003"]), ("deleted", .null)])]
    let d : Delta := ⟨7, some 9,
      .ofList [("member", ⟨.ofList [1, 3], .ofList [], .ofList []⟩)]⟩
    payload.WellFormed ∧ ofJson 7 payload = .ok d ∧ Encodes payload d ∧
      Enumerates (d.created "member") "member" (.ofList [1, 3]) ∧
      d.updated "document" = ⟨"document", []⟩ := by
  intro payload d
  have wf : payload.WellFormed := by
    refine Json.wellFormed_object fun e he => ?_
    simp only [List.mem_cons, List.not_mem_nil, or_false] at he
    obtain rfl | rfl | rfl := he
    · trivial
    · trivial
    · refine Json.wellFormed_object fun e he => ?_
      simp only [List.mem_cons, List.not_mem_nil, or_false] at he
      obtain rfl | rfl := he
      · exact ⟨trivial, trivial, trivial, trivial⟩
      · trivial
  have read : ofJson 7 payload = .ok d := rfl
  obtain ⟨encodes, listed, -⟩ := @ofJson_exact 7 payload wf
  exact ⟨wf, read, ((encodes d).mp read).2, ((listed d "member").1 _ rfl).1,
    ((listed d "document").2 rfl).2.1⟩

end Delta

end EntityClient
