import EntityClient.Proofs.Session.SchemaLoading

/-!
Full listings that succeed. Every object listed is read as finding would read it, and the pool takes
them in by their order: with refreshing the last object of an identity counts, without it the first,
and only where nothing was cached. Other identities and their instances are left alone.
-/

namespace EntityClient

namespace Pool

open Entity

variable {p : Pool} {refresh : Bool} {type : String} {i j : Identity} {id : UInt64} {h : Handle}
  {e : Entity} {listed : List (UInt64 × Entity)}

theorem Coherent.list (hp : p.Coherent) (named : e.identity = some i) (refresh : Bool) :
    (p.list refresh i e).Coherent := by
  unfold Pool.list
  cases cached : p.lookup i with
  | none => exact (hp.move (.enter cached named)).1
  | some h =>
      simp only
      split
      · exact hp.refresh cached named
      · exact hp

theorem Coherent.held_of_lookup (hp : p.Coherent) (cached : p.lookup i = some h) :
    ∃ e, p.held i = some e := by
  obtain ⟨e, live, -⟩ := hp i h cached
  exact ⟨e, (Pool.held_of_lookup cached).trans live⟩

theorem Coherent.held_enter (hp : p.Coherent) (i : Identity) (e : Entity) :
    (p.enter i e).2.held j = if j = i then some e else p.held j := by
  by_cases hj : j = i
  · have new : (p.enter i e).2.lookup j = some p.instances.length := by
      rw [lookup_enter, if_pos hj]
    rw [Pool.held_of_lookup new, get?_enter, if_pos rfl, if_pos hj]
  · have same : (p.enter i e).2.lookup j = p.lookup j := by rw [lookup_enter, if_neg hj]
    rw [if_neg hj]
    cases cached : p.lookup j with
    | none => rw [held, held, same, cached, Option.bind_none, Option.bind_none]
    | some g =>
        obtain ⟨old, live, -⟩ := hp j g cached
        rw [Pool.held_of_lookup (same.trans cached), Pool.held_of_lookup cached, live]
        exact get?_create_of_some e live

/-- No other identity shares the instance that is refreshed. -/
theorem Coherent.held_refresh (hp : p.Coherent) (cached : p.lookup i = some h)
    (named : e.identity = some i) :
    (p.update h (·.takeOver e)).held j = if j = i then some e else p.held j := by
  rw [held, lookup_update]
  by_cases hj : j = i
  · obtain ⟨old, live, -⟩ := hp i h cached
    rw [hj, cached, Option.bind_some, get?_update_self _ live, takeOver_of_identity named,
      if_pos rfl]
  · rw [if_neg hj, held]
    cases other : p.lookup j with
    | none => rfl
    | some g =>
        have hne : g ≠ h := by
          rintro rfl
          exact hj (hp.lookup_injective other cached)
        rw [Option.bind_some, Option.bind_some, get?_update, if_neg hne]

/-- A listed entity is what is held under its identity, unless it is not to replace another. -/
theorem Coherent.held_list (hp : p.Coherent) (named : e.identity = some i) :
    (p.list refresh i e).held j =
      if j = i then (if refresh then some e else (p.held i).or (some e)) else p.held j := by
  unfold Pool.list
  cases cached : p.lookup i with
  | none =>
      have free : p.held i = none := by rw [held, cached, Option.bind_none]
      rw [hp.held_enter i e, free, Option.none_or, ite_self]
  | some h =>
      obtain ⟨old, hold⟩ := hp.held_of_lookup cached
      cases refresh with
      | true => exact hp.held_refresh cached named
      | false =>
          by_cases hj : j = i
          · rw [if_pos hj, hold, hj]
            exact hold
          · rw [if_neg hj]
            rfl

theorem lookup_listAll_of_unlisted (unlisted : ∀ x ∈ listed, i ≠ ⟨type, x.1⟩) :
    (p.listAll refresh type listed).lookup i = p.lookup i := by
  cases before : p.lookup i with
  | some h => exact lookup_listAll_of_some before
  | none =>
      refine Option.eq_none_iff_forall_ne_some.mpr fun h after => ?_
      cases lookup_listAll_cases after with
      | inl cached =>
          rw [before] at cached
          cases cached
      | inr new =>
          obtain ⟨x, mem, hx⟩ := new
          exact unlisted x mem hx

/-- The entities that are listed with an id, in order. -/
def under (id : UInt64) (listed : List (UInt64 × Entity)) : List Entity :=
  listed.filterMap fun x => if x.1 = id then some x.2 else none

/-- With refreshing the last entity listed under an identity is held in the end, without it what was
held before, or else the first. -/
theorem Coherent.held_listAll (hp : p.Coherent) (refresh : Bool) (id : UInt64)
    (named : ∀ x ∈ listed, x.2.identity = some ⟨type, x.1⟩) :
    (p.listAll refresh type listed).held ⟨type, id⟩ =
      if refresh then (under id listed).getLast?.or (p.held ⟨type, id⟩)
      else (p.held ⟨type, id⟩).or (under id listed).head? := by
  induction listed generalizing p with
  | nil => simp [listAll, under]
  | cons x rest ih =>
      have first : x.2.identity = some ⟨type, x.1⟩ := named x List.mem_cons_self
      have later := ih (hp.list first refresh) fun y mem => named y (List.mem_cons_of_mem x mem)
      refine later.trans ?_
      rw [hp.held_list first]
      by_cases hid : x.1 = id
      · subst hid
        cases refresh <;> simp [under, List.getLast?_cons]
      · have hne : (⟨type, id⟩ : Identity) ≠ ⟨type, x.1⟩ := by simp [Ne.symm hid]
        simp [under, hid, hne]

end Pool

namespace Session

open EntityClient.Action Pool

variable {σ : Type}

/-- In a session with these settings and this schema, finding the identity when the store serves the
object makes the entity its cached instance. -/
def FoundAs (settings : Settings) (schema : Option Schema) (i : Identity) (object : Json)
    (e : Entity) : Prop :=
  ∀ {σ : Type} (t : Transport σ) (s : Session σ), s.settings = settings → s.schema = schema →
    s.pool.lookup i = none → (t.read i.path [] s.remote).1 = .ok object →
    ∃ h s', exec (find t i) s = (.ok h, s') ∧ s'.schema = schema ∧ s'.pool.lookup i = some h ∧
      s'.pool.get? h = some e

theorem foundAs_of_ofJson {settings : Settings} {schema : Option Schema} {i : Identity}
    {object : Json} {e : Entity} (ready : settings.typed = true → schema ≠ none)
    (readable : Entity.ofJson i.type i.id object (schema.bind (·.get? i.type)) = .ok e) :
    FoundAs settings schema i object e := by
  intro σ t s hsettings hschema uncached served
  subst hsettings hschema
  let asked : Session σ := { s with remote := (t.read i.path [] s.remote).2 }
  have hread : exec (read t i.path []) s = (.ok object, asked) := by rw [exec_read, served]
  have hensure : exec (ensureSchema t) asked = (.ok (), asked) := exec_ensureSchema_idle t ready
  have hentity : exec (readEntity i object) asked = (.ok e, asked) := by
    rw [exec_readEntity_eq]
    exact congrArg (·, asked) readable
  refine ⟨s.pool.instances.length, { asked with pool := (s.pool.enter i e).2 }, ?_, rfl, ?_, ?_⟩
  · rw [find, exec_bind_of_ok (exec_get s), uncached]
    simp only
    rw [exec_bind_of_ok hread, exec_bind_of_ok hensure, exec_bind_of_ok hentity]
    rfl
  · rw [lookup_enter, if_pos rfl]
  · rw [get?_enter, if_pos rfl]

/-- The objects that are listed with an id, in order. -/
def objectsUnder (type : String) (id : UInt64) (objects : List Json) : List Json :=
  objects.filter fun object => (listedId ("/" ++ type) object).toOption = some id

/-- Each entity listed with an id is read from the object listed with it. -/
theorem forall₂_under {schema : Option TypeSchema} {type : String} {objects : List Json}
    {listed : List (UInt64 × Entity)} (id : UInt64)
    (readable : objects.mapM (readListed schema type) = .ok listed) :
    List.Forall₂ (fun object e => Entity.ofJson type id object schema = .ok e)
      (objectsUnder type id objects) (under id listed) := by
  rw [objectsUnder, ← List.filterMap_eq_filter]
  refine List.rel_filterMap ?_ (mapM_eq_ok_iff.mp readable)
  intro object x hread
  obtain ⟨hid, he⟩ := readListed_eq_ok_iff.mp hread
  by_cases same : x.1 = id
  · subst same
    simpa [Option.guard, hid, Except.toOption] using Option.Rel.some he
  · simp [Option.guard, hid, Except.toOption, same]

section Rows

variable {α β : Type} {R : α → β → Prop} {l : List α} {l' : List β} {y : β}

theorem exists_head_of_forall₂ (h : List.Forall₂ R l l') (first : l'.head? = some y) :
    ∃ x, l.head? = some x ∧ R x y := by
  cases h with
  | nil => cases first
  | cons hx _ =>
      cases first
      exact ⟨_, rfl, hx⟩

theorem exists_last_of_forall₂ (h : List.Forall₂ R l l') (last : l'.getLast? = some y) :
    ∃ x, l.getLast? = some x ∧ R x y := by
  rw [← List.head?_reverse] at last ⊢
  exact exists_head_of_forall₂ (List.forall₂_reverse_iff.mpr h) last

end Rows

/-- What a full listing has done with the objects of the store when it gives a list. -/
structure FullListing (type : String) (objects : List Json) (l : IdList) (s s' : Session σ) :
    Prop where
  listType : l.type = type
  ids : objects.mapM (listedId ("/" ++ type)) = .ok l.ids
  unlisted : ∀ i, (∀ id ∈ l.ids, i ≠ ⟨type, id⟩) → s'.pool.lookup i = s.pool.lookup i
  spared : ∀ h e, s.pool.get? h = some e →
    (∀ id ∈ l.ids, s.pool.lookup ⟨type, id⟩ ≠ some h) → s'.pool.get? h = some e
  cached : ∀ id ∈ l.ids, ∀ h, s.pool.lookup ⟨type, id⟩ = some h →
    s'.pool.lookup ⟨type, id⟩ = some h
  refreshed : s.settings.refreshListed = true → ∀ id ∈ l.ids, ∃ object e,
    (objectsUnder type id objects).getLast? = some object ∧
      FoundAs s.settings s'.schema ⟨type, id⟩ object e ∧ s'.pool.held ⟨type, id⟩ = some e
  kept : s.settings.refreshListed = false → ∀ id ∈ l.ids, ∀ e,
    s.pool.held ⟨type, id⟩ = some e → s'.pool.held ⟨type, id⟩ = some e
  entered : s.settings.refreshListed = false → ∀ id ∈ l.ids, s.pool.held ⟨type, id⟩ = none →
    ∃ object e, (objectsUnder type id objects).head? = some object ∧
      FoundAs s.settings s'.schema ⟨type, id⟩ object e ∧ s'.pool.held ⟨type, id⟩ = some e

theorem under_ne_nil {listed : List (UInt64 × Entity)} {id : UInt64}
    (mem : id ∈ listed.map Prod.fst) : under id listed ≠ [] := by
  obtain ⟨x, hx, rfl⟩ := List.mem_map.mp mem
  refine List.ne_nil_of_mem (a := x.2) (List.mem_filterMap.mpr ⟨x, hx, ?_⟩)
  exact if_pos rfl

/-- Objects that have been read one after another, and taken into the pool. -/
theorem fullListing_of_readable {s : Session σ} {type : String} {objects : List Json}
    {listed : List (UInt64 × Entity)} {schema : Option Schema} (remote : σ)
    (coherent : s.pool.Coherent) (ready : s.settings.typed = true → schema ≠ none)
    (readable : objects.mapM (readListed (schema.bind (·.get? type)) type) = .ok listed) :
    FullListing type objects ⟨type, listed.map Prod.fst⟩ s
      { s with remote, schema, pool := s.pool.listAll s.settings.refreshListed type listed } := by
  have rows := mapM_eq_ok_iff.mp readable
  have named : ∀ x ∈ listed, x.2.identity = some ⟨type, x.1⟩ := by
    intro x mem
    obtain ⟨object, -, read⟩ := exists_of_mapM_ok readable mem
    exact Entity.identity_ofJson (ofJson_of_readListed read)
  have reads (id : UInt64) := forall₂_under id readable
  have found {id : UInt64} {object : Json} {e : Entity}
      (read : Entity.ofJson type id object (schema.bind (·.get? type)) = .ok e) :
      FoundAs s.settings schema ⟨type, id⟩ object e := foundAs_of_ofJson ready read
  have held (id : UInt64) := coherent.held_listAll s.settings.refreshListed id named
  refine ⟨rfl, ?_, ?_, ?_, ?_, ?_, ?_, ?_⟩
  · rw [mapM_eq_ok_iff, List.forall₂_map_right_iff]
    exact rows.imp fun object x read => (readListed_eq_ok_iff.mp read).1
  · intro i other
    refine lookup_listAll_of_unlisted fun x mem => ?_
    exact other x.1 (List.mem_map_of_mem mem)
  · intro h e live spared
    refine get?_listAll live fun _ x mem => ?_
    exact spared x.1 (List.mem_map_of_mem mem)
  · exact fun id _ h cached => lookup_listAll_of_some cached
  · intro refresh id mem
    obtain ⟨e, last⟩ := Option.ne_none_iff_exists'.mp
      (fun none => under_ne_nil mem (List.getLast?_eq_none_iff.mp none))
    obtain ⟨object, lastObject, read⟩ := exists_last_of_forall₂ (reads id) last
    refine ⟨object, e, lastObject, found read, ?_⟩
    rw [held id, if_pos refresh, last, Option.some_or]
  · intro refresh id mem e before
    rw [held id, if_neg (by simp [refresh]), before, Option.some_or]
  · intro refresh id mem free
    obtain ⟨e, first⟩ := Option.ne_none_iff_exists'.mp
      (fun none => under_ne_nil mem (List.head?_eq_none_iff.mp none))
    obtain ⟨object, firstObject, read⟩ := exists_head_of_forall₂ (reads id) first
    refine ⟨object, e, firstObject, found read, ?_⟩
    rw [held id, if_neg (by simp [refresh]), free, Option.none_or, first]

/-- A full listing that succeeds, in any state of any run over any store: it lists the ids of the
objects served, and caches an instance for each. An identity that was cached keeps its handle. With
refreshing the instance is what finding would make of the last object of its identity; without it
the instance stays as it was, or is new and made of the first. Nothing else changes in the pool. -/
theorem fullListing_of_list (t : Transport σ) (remote : σ) (settings : Settings) (calls : List Call)
    {type : String} {query : Option Filter.Query} {order : List (String × String)} {l : IdList}
    {s' : Session σ}
    (ok : exec (list t type query order true) (run t (start remote settings) calls) =
      (.ok l, s')) :
    let s := run t (start remote settings) calls
    ∃ orderText filter objects, SortOrder.render order = .ok orderText ∧
      renderFilter query = .ok filter ∧
      (t.read ("/" ++ type) (listParameters filter orderText true) s.remote).1 =
        .ok (.arr objects) ∧
      FullListing type objects l s s' := by
  intro s
  have coherent : s.pool.Coherent := (run_coherent Coherent.empty calls).1
  rw [list_full] at ok
  obtain ⟨x, remote', schema, hopen⟩ |
    ⟨orderText, filter, objects, remote', schema, ordered, filtered, served, hopen⟩ :=
    exec_openListing t type query order s
  · rw [exec_bind_of_error hopen] at ok
    cases ok
  · rw [exec_bind_of_ok hopen] at ok
    obtain ⟨ids, s₁, hrow, ok⟩ := exec_bind_succeeded ok
    cases ok
    obtain ⟨listed, readable, rfl, rfl⟩ := exec_mapM_listObject hrow
    refine ⟨orderText, filter, objects, ordered, filtered, served, ?_⟩
    refine fullListing_of_readable remote' coherent (fun typed => ?_) readable
    obtain ⟨D, hD⟩ := schema_of_opened typed hopen
    rw [show schema = some D from hD]
    exact nofun

/-- Serves any member, and a listing that names the first member twice. -/
def twiceListed : Transport Unit where
  read path _ s :=
    (.ok (if path = "/member" then
        .arr [.obj [("id", .word 1), ("readonly", .bool true)], .obj [("id", .word 2)],
          .obj [("id", .str "1"), ("parents", .arr [.word 3])]]
      else .obj []), s)
  write _ s := (.error (.notFound ""), s)

/-- The member found before is refreshed by the last object of the listing. -/
theorem fullListing_of_list_twice :
    let s := run twiceListed (start () {}) [.find ⟨"member", 1⟩]
    let l : IdList := ⟨"member", [1, 2, 1]⟩
    let s' := (exec (list twiceListed "member" none [] true) s).2
    exec (list twiceListed "member" none [] true) s = (.ok l, s') ∧
      (∃ objects, FullListing "member" objects l s s') ∧
      s'.pool.lookup ⟨"member", 1⟩ = some 0 ∧
      (s'.pool.get? 0).map (fun e => (e.readonly, e.parents)) = some (false, [3]) := by
  intro s l s'
  have ok : exec (list twiceListed "member" none [] true) s = (.ok l, s') := rfl
  obtain ⟨-, -, objects, -, -, -, effect⟩ :=
    fullListing_of_list twiceListed () {} [.find ⟨"member", 1⟩] ok
  exact ⟨ok, ⟨objects, effect⟩, effect.cached 1 List.mem_cons_self 0 rfl, rfl⟩

end Session
end EntityClient
