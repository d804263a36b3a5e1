import EntityClient.Proofs.Entity.Ids
import EntityClient.Proofs.Filter.Incomplete
import EntityClient.Proofs.Session.Requests
import EntityClient.Proofs.SortOrder

/-!
The request of a listing. The directions of the order are checked first and the clauses of the query
next, and a listing that is refused for one of them sends nothing. Any other asks for the type once,
with the texts of query and order as far as there are any; a listing of ids does no more than that.
-/

namespace EntityClient.Session

open EntityClient.Action

/-- Why a listing is refused: for the first unknown direction, or, if the directions are known, for
the first clause without a condition. -/
inductive Refused (query : Option Filter.Query) (order : List (String × String)) : Failure → Prop
  | direction {e} (first : First (fun e => ¬ Direction.Known e.2) order e) :
      Refused query order (.sortDirection e.1 e.2)
  | clause {q c} (known : ∀ e ∈ order, Direction.Known e.2) (asked : query = some q)
      (first : First Filter.Clause.Incomplete (q.clauses.map Prod.snd) c) :
      Refused query order (.filter (.missing c.property))

/-- The text of an optional query. -/
def FilterText (query : Option Filter.Query) (filter : String) : Prop :=
  match query with
  | none => filter = ""
  | some q => q.render = .ok filter

/-- The value is an object with an array of ids, and the ids are these. -/
def ServesIds (v : Json) (ids : List UInt64) : Prop :=
  ∃ members items, v = .obj members ∧ SortedMap.lookup "objects" members = some (.arr items) ∧
    List.Forall₂ IdForm items ids

section Texts

variable {query : Option Filter.Query} {order : List (String × String)} {filter : String}

theorem renderFilter_eq_ok_iff : renderFilter query = .ok filter ↔ FilterText query filter := by
  cases query with
  | none => simp [renderFilter, FilterText, eq_comm]
  | some q =>
      simp only [renderFilter, FilterText]
      cases q.render <;> simp

theorem renderFilter_of_first {q : Filter.Query} {c : Filter.Clause} (asked : query = some q)
    (first : First Filter.Clause.Incomplete (q.clauses.map Prod.snd) c) :
    renderFilter query = .error (.filter (.missing c.property)) := by
  subst asked
  simp only [renderFilter, Filter.Query.render_of_first first]

theorem texts_of_not_refused (accepted : ∀ x, ¬ Refused query order x) :
    ∃ orderText filter, SortOrder.render order = .ok orderText ∧
      (orderText = "" ↔ order = []) ∧ FilterText query filter := by
  have known : ∀ e ∈ order, Direction.Known e.2 := by
    by_contra! unknown
    obtain ⟨e, first⟩ := exists_first_iff.mpr unknown
    exact accepted _ (.direction first)
  obtain ⟨orderText, ordered, empty⟩ := SortOrder.render_of_known known
  have filtered : ∃ filter, FilterText query filter := by
    cases query with
    | none => exact ⟨"", rfl⟩
    | some q =>
        refine q.renders.succeeds.mpr ?_
        by_contra! incomplete
        obtain ⟨c, first⟩ := exists_first_iff.mpr incomplete
        exact accepted _ (.clause known rfl first)
  obtain ⟨filter, filtered⟩ := filtered
  exact ⟨orderText, filter, ordered, empty, filtered⟩

theorem listedIds_eq_ok_iff {path : String} {v : Json} {ids : List UInt64} :
    listedIds path v = .ok ids ↔ ServesIds v ids := by
  constructor
  · intro read
    unfold listedIds at read
    split at read
    next items served =>
      cases v with
      | obj members =>
          cases readIds_eq_ok_iff.mp read with
          | array forms => exact ⟨members, items, rfl, served, forms⟩
      | null | bool _ | int _ | float _ | str _ | arr _ => cases served
    next => cases read
  · rintro ⟨members, items, rfl, found, forms⟩
    have served : (Json.obj members).get? "objects" = some (.arr items) := found
    rw [listedIds, served]
    exact readIds_eq_ok_iff.mpr (.array forms)

/-- A list of ids is given just for an answer that serves them. -/
theorem ids_eq_ok_iff {answer : Except Failure Json} {path type : String} {l : IdList} :
    (answer.bind fun v => (listedIds path v).map fun ids => (⟨type, ids⟩ : IdList)) = .ok l ↔
      l.type = type ∧ ∃ v, answer = .ok v ∧ ServesIds v l.ids := by
  obtain ⟨type', ids⟩ := l
  cases answer with
  | error e => simp [Except.bind]
  | ok v =>
      have read : listedIds path v = .ok ids ↔ ServesIds v ids := listedIds_eq_ok_iff
      simp only [Except.bind, Except.ok.injEq, exists_eq_left']
      rw [← read]
      cases listedIds path v <;> simp [Except.map, eq_comm]

end Texts

/-- The parameters of a request for these texts. -/
def askedFor (filter : String) (order : List (String × String)) (orderText : String)
    (full : Bool) : List (String × String) :=
  (if filter = "" then [] else [("filter", filter)]) ++
    (if order = [] then [] else [("order", orderText)]) ++
    if full = true then [("format", "full")] else []

theorem listParameters_eq {order : List (String × String)} {orderText : String}
    (empty : orderText = "" ↔ order = []) (filter : String) (full : Bool) :
    listParameters filter orderText full = askedFor filter order orderText full := by
  simp only [listParameters, askedFor, empty]

section Listing

variable {σ : Type} {type filter orderText : String} {query : Option Filter.Query}
  {order : List (String × String)} {x : Failure}

theorem exec_list_refused (t : Transport σ) (s : Session σ) (full : Bool)
    (refused : Refused query order x) : exec (list t type query order full) s = (.error x, s) := by
  cases refused with
  | direction first =>
      rw [list, SortOrder.render_of_first first]
      rfl
  | clause known asked first =>
      obtain ⟨orderText, ordered, -⟩ := SortOrder.render_of_known known
      rw [list, ordered, renderFilter_of_first asked first]
      rfl

/-- A listing of ids is the ids in the answer to its one request. -/
theorem exec_list_ids {t : Transport σ} {s : Session σ} {answer : Except Failure Json} {remote : σ}
    (ordered : SortOrder.render order = .ok orderText) (filtered : renderFilter query = .ok filter)
    (served : t.read ("/" ++ type) (listParameters filter orderText false) s.remote =
      (answer, remote)) :
    exec (list t type query order false) s =
      (answer.bind fun v => (listedIds ("/" ++ type) v).map fun ids => ⟨type, ids⟩,
        { s with remote }) := by
  rw [list, ordered, filtered, exec_bind_of_ok (exec_liftM (.ok orderText) s),
    exec_bind_of_ok (exec_liftM (.ok filter) s)]
  simp only [exec_bind, exec_read, served]
  cases answer with
  | error e => rfl
  | ok v =>
      simp only [Bool.false_eq_true, if_false, exec_bind, exec_liftM, Except.bind]
      cases listedIds ("/" ++ type) v <;> rfl

/-- What a listing has done that asked the store with these parameters: this was the first request
and none behind it writes. A listing of ids has done nothing else, and gives a list just if ids are
served, which it lists in the order served. -/
structure Listed (t : Transport σ) (type : String) (parameters : List (String × String))
    (full : Bool) (s s' : Session (σ × List Request)) (outcome : Except Failure IdList) :
    Prop where
  first : ∃ more, s'.remote.2 = s.remote.2 ++ .read ("/" ++ type) parameters :: more ∧
    ∀ w, Request.write w ∉ more
  alone : full = false → Quiet [.read ("/" ++ type) parameters] s s' ∧ s'.schema = s.schema
  succeeds : full = false → ∀ l, outcome = .ok l ↔ l.type = type ∧
    ∃ v, (t.read ("/" ++ type) parameters s.remote.1).1 = .ok v ∧ ServesIds v l.ids

theorem listed_of_texts (t : Transport σ) (s : Session (σ × List Request)) (full : Bool)
    (ordered : SortOrder.render order = .ok orderText) (empty : orderText = "" ↔ order = [])
    (filtered : FilterText query filter) :
    Listed t type (askedFor filter order orderText full) full s
      (exec (list t.recorded type query order full) s).2
      (exec (list t.recorded type query order full) s).1 := by
  have filtered' := renderFilter_eq_ok_iff.mpr filtered
  rw [← listParameters_eq empty]
  refine ⟨?_, ?_, ?_⟩
  · obtain ⟨more, log, asks⟩ := (asked_reading t).list_rendered s full ordered filtered'
    refine ⟨more, ?_, asks⟩
    rw [log]
    exact List.append_assoc _ _ _
  · rintro rfl
    rw [exec_list_ids ordered filtered' rfl]
    exact ⟨quiet_read t _ _ s, rfl⟩
  · rintro rfl l
    rw [exec_list_ids ordered filtered' rfl]
    exact ids_eq_ok_iff

/-- Every listing, in every state and over every store. It is refused for its first unknown
direction, or else for the first clause of its query without a condition, and then nothing has
happened. Otherwise it asks for its type first, with the filter if that has a text, the order if
there is one, the format if the objects are wanted, and nothing more. A listing of ids ends there,
changes neither pool nor schema, and gives the ids served. -/
theorem list_request (t : Transport σ) (s : Session (σ × List Request)) (type : String)
    (query : Option Filter.Query) (order : List (String × String)) (full : Bool) :
    (∀ x, Refused query order x →
      exec (list t.recorded type query order full) s = (.error x, s)) ∧
    ((∀ x, ¬ Refused query order x) →
      ∃ orderText filter, SortOrder.render order = .ok orderText ∧ FilterText query filter ∧
        Listed t type (askedFor filter order orderText full) full s
          (exec (list t.recorded type query order full) s).2
          (exec (list t.recorded type query order full) s).1) := by
  refine ⟨fun x refused => exec_list_refused t.recorded s full refused, fun accepted => ?_⟩
  obtain ⟨orderText, filter, ordered, empty, filtered⟩ := texts_of_not_refused accepted
  exact ⟨orderText, filter, ordered, filtered, listed_of_texts t s full ordered empty filtered⟩

/-- A query of an empty group leaves no filter, and the ids are listed as they are served. A wrong
direction counts before a clause without a condition. -/
theorem list_request_members :
    let t := serving (.obj [("objects", .arr [.word 2, .str " +1 ", .word 2])])
    let s := start ((), []) { typed := true }
    let query : Filter.Query := .group .or .nil .nil
    let incomplete : Filter.Query := .ofClause ⟨"name", false, none⟩
    (∀ x, ¬ Refused (some query) [("name", "ASC")] x) ∧
      (∃ s', exec (list t.recorded "member" (some query) [("name", "ASC")] false) s =
          (.ok ⟨"member", [2, 1, 2]⟩, s') ∧
        s'.remote.2 = [.read "/member" [("order", "name ASC")]]) ∧
      Refused (some incomplete) [("name", "ASC"), ("age", "asc")] (.sortDirection "age" "asc") ∧
      exec (list t.recorded "member" (some incomplete) [("name", "ASC"), ("age", "asc")] true) s =
        (.error (.sortDirection "age" "asc"), s) := by
  intro t s query incomplete
  have accepted : ∀ x, ¬ Refused (some query) [("name", "ASC")] x := by
    have known : ∀ e ∈ [("name", "ASC")], Direction.Known e.2 := by decide
    intro x refused
    cases refused with
    | direction first => exact first.holds (known _ first.mem)
    | clause _ asked first =>
        cases asked
        exact not_first_nil first
  have refused :
      Refused (some incomplete) [("name", "ASC"), ("age", "asc")] (.sortDirection "age" "asc") :=
    .direction ⟨[("name", "ASC")], [], rfl, by decide, by decide⟩
  obtain ⟨orderText, filter, ordered, filtered, listed⟩ :=
    (list_request t s "member" (some query) [("name", "ASC")] false).2 accepted
  cases (Except.ok.inj ordered : "name ASC" = orderText)
  cases (Except.ok.inj filtered : "" = filter)
  refine ⟨accepted, ⟨_, rfl, ?_⟩, refused, ?_⟩
  · exact (listed.alone rfl).1.log
  · exact (list_request t s "member" (some incomplete) _ true).1 _ refused

end Listing

end EntityClient.Session
