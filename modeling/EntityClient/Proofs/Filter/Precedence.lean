import EntityClient.Proofs.Filter.Readability
import Mathlib.Data.List.Nodup

/-!
The worth of a filter under the two ways in which a row of items can be read: strictly from left to
right, or with AND before OR. A group that mixes the connectives is rendered as one row without
further brackets. The two readings agree on it when no AND stands behind an OR, and if one does they
come apart for some worth of the conditions, as long as no condition is repeated.
-/

namespace EntityClient.Filter

inductive Reading where
  | leftToRight
  | andFirst
deriving DecidableEq, Repr

abbrev Valuation := String × Option Condition → Bool

def Clause.test (c : Clause) : String × Option Condition := (c.property, c.condition)

def Clause.holds (v : Valuation) (c : Clause) : Bool := v c.test != c.negated

/-- The part of a row that has been read: its last items, and whether an alternative before them
holds that they can no longer change. -/
structure Pending where
  earlier : Bool := false
  current : Bool := true
deriving DecidableEq, Repr

namespace Reading

/-- Reads one more item. Only an OR that binds less than AND ends what stands before it. -/
def join (r : Reading) (s : Pending) (lead : Option Connective) (x : Bool) : Pending :=
  match lead, r with
  | some .or, .andFirst => ⟨s.earlier || s.current, x⟩
  | some .or, .leftToRight => { s with current := s.current || x }
  | some .and, _ | none, _ => { s with current := s.current && x }

theorem join_and (r : Reading) {s : Pending} {lead : Option Connective} {x : Bool}
    (hlead : lead ≠ some .or) : r.join s lead x = { s with current := s.current && x } := by
  cases r <;> rcases lead with _ | _ | _ <;> first | rfl | exact absurd rfl hlead

theorem join_earlier (r : Reading) (current : Bool) (lead : Option Connective) (x : Bool) :
    ∃ later, r.join ⟨true, current⟩ lead x = ⟨true, later⟩ := by
  cases r <;> rcases lead with _ | _ | _ <;> exact ⟨_, rfl⟩

theorem join_true (r : Reading) (earlier : Bool) (lead : Option Connective) :
    ∃ later, r.join ⟨earlier, true⟩ lead true = ⟨later, true⟩ := by
  cases r <;> rcases lead with _ | _ | _ <;> exact ⟨_, rfl⟩

theorem join_false (r : Reading) {current : Bool} {lead : Option Connective}
    (h : current = false ∨ (lead != some .or) = true) :
    r.join ⟨false, current⟩ lead false = ⟨false, false⟩ := by
  obtain rfl | hlead := h
  · cases r <;> rcases lead with _ | _ | _ <;> rfl
  · cases r <;> cases current <;> rcases lead with _ | _ | _ <;> first | rfl | cases hlead

end Reading

namespace Phrase

/-- What the rest of a row makes of the part before it; brackets are read on their own. -/
def value (r : Reading) (v : Valuation) (s : Pending) : Phrase → Bool
  | .nil => s.earlier || s.current
  | .clause lead c rest => rest.value r v (r.join s lead (c.holds v))
  | .group lead inner rest => rest.value r v (r.join s lead (inner.value r v {}))

/-- No AND stands behind an OR of the same row, at any depth, where `ors` says whether an OR has
been read. -/
def andsFirst (ors : Bool) : Phrase → Bool
  | .nil => true
  | .clause lead _ rest => (!ors || lead == some .or) && rest.andsFirst (ors || lead == some .or)
  | .group lead inner rest =>
      (!ors || lead == some .or) && inner.andsFirst false &&
        rest.andsFirst (ors || lead == some .or)

/-! Where the readings agree -/

theorem join_of_andsFirst {ors : Bool} {lead : Option Connective} {s : Pending} (x : Bool)
    (ordered : (!ors || lead == some .or) = true) (fresh : ors = false → s.earlier = false) :
    let s' := Reading.andFirst.join s lead x
    Reading.leftToRight.join ⟨false, s.earlier || s.current⟩ lead x =
        ⟨false, s'.earlier || s'.current⟩ ∧
      ((ors || lead == some .or) = false → s'.earlier = false) := by
  by_cases hlead : lead = some .or
  · simp [hlead, Reading.join]
  · obtain rfl : ors = false := by simpa [hlead] using ordered
    have hearlier : s.earlier = false := fresh rfl
    simp [Reading.join_and _ hlead, hearlier]

theorem value_eq_of_andsFirst (v : Valuation) {p : Phrase} {ors : Bool} {s : Pending}
    (ordered : p.andsFirst ors = true) (fresh : ors = false → s.earlier = false) :
    p.value .andFirst v s = p.value .leftToRight v ⟨false, s.earlier || s.current⟩ := by
  induction p generalizing ors s with
  | nil => simp [value]
  | clause lead c rest ih =>
      simp only [andsFirst, Bool.and_eq_true] at ordered
      obtain ⟨hjoin, hors⟩ := join_of_andsFirst (c.holds v) ordered.1 fresh
      rw [value, value, hjoin, ih ordered.2 hors]
  | group lead inner rest ihinner ih =>
      simp only [andsFirst, Bool.and_eq_true] at ordered
      have hinner : inner.value .andFirst v {} = inner.value .leftToRight v {} :=
        ihinner ordered.1.2 fun _ => rfl
      obtain ⟨hjoin, hors⟩ :=
        join_of_andsFirst (inner.value .leftToRight v {}) ordered.1.1 fresh
      rw [value, value, hinner, hjoin, ih ordered.2 hors]

/-! Where they do not -/

theorem value_congr {p : Phrase} {v w : Valuation} (r : Reading) (s : Pending)
    (same : ∀ c ∈ p.clauses, v c.test = w c.test) : p.value r v s = p.value r w s := by
  induction p generalizing s with
  | nil => rfl
  | clause lead c rest ih =>
      simp only [clauses, List.forall_mem_cons] at same
      have hc : c.holds v = c.holds w := by rw [Clause.holds, Clause.holds, same.1]
      rw [value, value, hc, ih _ same.2]
  | group lead inner rest ihinner ih =>
      simp only [clauses, List.forall_mem_append] at same
      rw [value, value, ihinner _ same.1, ih _ same.2]

theorem value_of_earlier (p : Phrase) (r : Reading) (v : Valuation) (current : Bool) :
    p.value r v ⟨true, current⟩ = true := by
  induction p generalizing current with
  | nil => rfl
  | clause lead c rest ih =>
      obtain ⟨later, hjoin⟩ := r.join_earlier current lead (c.holds v)
      rw [value, hjoin, ih]
  | group lead inner rest _ ih =>
      obtain ⟨later, hjoin⟩ := r.join_earlier current lead (inner.value r v {})
      rw [value, hjoin, ih]

def opens : Phrase → Bool
  | .nil => false
  | .clause lead _ _ | .group lead _ _ => lead != some .or

/-- Every group of the row has items, the first of which is no alternative. -/
def Proper : Phrase → Prop
  | .nil => True
  | .clause _ _ rest => rest.Proper
  | .group _ inner rest => inner.opens = true ∧ inner.Proper ∧ rest.Proper

theorem value_of_all {p : Phrase} {v : Valuation} (r : Reading) (earlier : Bool)
    (all : ∀ c ∈ p.clauses, c.holds v = true) : p.value r v ⟨earlier, true⟩ = true := by
  induction p generalizing earlier with
  | nil => simp [value]
  | clause lead c rest ih =>
      simp only [clauses, List.forall_mem_cons] at all
      obtain ⟨later, hjoin⟩ := r.join_true earlier lead
      rw [value, all.1, hjoin, ih _ all.2]
  | group lead inner rest ihinner ih =>
      simp only [clauses, List.forall_mem_append] at all
      obtain ⟨later, hjoin⟩ := r.join_true earlier lead
      rw [value, ihinner false all.1, hjoin, ih _ all.2]

theorem value_of_none {p : Phrase} {v : Valuation} (r : Reading) (proper : p.Proper)
    (none : ∀ c ∈ p.clauses, c.holds v = false) {current : Bool}
    (hcurrent : current = false ∨ p.opens = true) : p.value r v ⟨false, current⟩ = false := by
  induction p generalizing current with
  | nil => simpa [value, opens] using hcurrent
  | clause lead c rest ih =>
      simp only [clauses, List.forall_mem_cons] at none
      rw [value, none.1, r.join_false hcurrent, ih proper none.2 (.inl rfl)]
  | group lead inner rest ihinner ih =>
      simp only [clauses, List.forall_mem_append] at none
      obtain ⟨hopens, hinner, hrest⟩ := proper
      rw [value, ihinner hinner none.1 (.inr hopens), r.join_false hcurrent,
        ih hrest none.2 (.inl rfl)]

def Distinct (p : Phrase) : Prop := (p.clauses.map Clause.test).Nodup

theorem Distinct.tail {lead : Option Connective} {c : Clause} {rest : Phrase}
    (h : (Phrase.clause lead c rest).Distinct) : rest.Distinct := (List.nodup_cons.mp h).2

theorem Distinct.left {lead : Option Connective} {inner rest : Phrase}
    (h : (Phrase.group lead inner rest).Distinct) : inner.Distinct := by
  rw [Distinct, clauses, List.map_append] at h
  exact h.of_append_left

theorem Distinct.right {lead : Option Connective} {inner rest : Phrase}
    (h : (Phrase.group lead inner rest).Distinct) : rest.Distinct := by
  rw [Distinct, clauses, List.map_append] at h
  exact h.of_append_right

theorem exists_valuation {cs : List Clause} (distinct : (cs.map Clause.test).Nodup)
    (f : Clause → Bool) : ∃ v : Valuation, ∀ c ∈ cs, c.holds v = f c := by
  induction cs with
  | nil => exact ⟨fun _ => true, by simp⟩
  | cons c cs ih =>
      rw [List.map_cons, List.nodup_cons] at distinct
      obtain ⟨v, hv⟩ := ih distinct.2
      refine ⟨Function.update v c.test (f c != c.negated), ?_⟩
      rw [List.forall_mem_cons]
      constructor
      · simp [Clause.holds]
      · intro d hd
        have hne : d.test ≠ c.test := fun h => distinct.1 (h ▸ List.mem_map_of_mem hd)
        rw [← hv d hd, Clause.holds, Clause.holds, Function.update_of_ne hne]

/-- Two parts of a row without common conditions can be given their valuations separately. -/
theorem exists_splice {cs ds : List Clause} (distinct : ((cs ++ ds).map Clause.test).Nodup)
    (v w : Valuation) :
    ∃ u : Valuation, (∀ c ∈ cs, u c.test = v c.test) ∧ ∀ d ∈ ds, u d.test = w d.test := by
  rw [List.map_append, List.nodup_append] at distinct
  refine ⟨fun t => if t ∈ cs.map Clause.test then v t else w t, fun c hc => ?_, fun d hd => ?_⟩
  · exact if_pos (List.mem_map_of_mem hc)
  · refine if_neg fun hmem => ?_
    exact distinct.2.2 _ hmem _ (List.mem_map_of_mem hd) rfl

/-- The row is `item` under `lead` before `rest`, and `item` can be made worth what is wanted
without a change to what `rest` is worth. -/
structure Headed (p : Phrase) (lead : Option Connective) (item : Reading → Valuation → Bool)
    (rest : Phrase) : Prop where
  value_eq : ∀ r v s, p.value r v s = rest.value r v (r.join s lead (item r v))
  opens_eq : p.opens = (lead != some .or)
  set : ∀ v b, ∃ w, (∀ r s, rest.value r w s = rest.value r v s) ∧ ∀ r, item r w = b

theorem headed_clause {lead : Option Connective} {c : Clause} {rest : Phrase}
    (distinct : (Phrase.clause lead c rest).Distinct) :
    Headed (.clause lead c rest) lead (fun _ v => c.holds v) rest := by
  refine ⟨fun _ _ _ => rfl, rfl, fun v b => ?_⟩
  obtain ⟨w, hw⟩ := @exists_valuation [c] (List.nodup_singleton c.test) fun _ => b
  obtain ⟨u, huw, huv⟩ := @exists_splice [c] _ distinct w v
  refine ⟨u, fun r s => value_congr r s huv, fun _ => ?_⟩
  rw [Clause.holds, huw c List.mem_cons_self]
  exact hw c List.mem_cons_self

theorem headed_group {lead : Option Connective} {inner rest : Phrase}
    (proper : (Phrase.group lead inner rest).Proper)
    (distinct : (Phrase.group lead inner rest).Distinct) :
    Headed (.group lead inner rest) lead (fun r v => inner.value r v {}) rest := by
  refine ⟨fun _ _ _ => rfl, rfl, fun v b => ?_⟩
  obtain ⟨hopens, hinner, -⟩ := proper
  obtain ⟨w, hw⟩ := exists_valuation distinct.left fun _ => b
  obtain ⟨u, huw, huv⟩ := @exists_splice inner.clauses _ distinct w v
  refine ⟨u, fun r s => value_congr r s huv, fun r => ?_⟩
  rw [value_congr r {} huw]
  cases b with
  | true => exact value_of_all r false hw
  | false => exact value_of_none r hinner hw (.inr hopens)

/-- Behind an item that fails when read from left to right and holds with AND first, the row can do
the same. -/
def Carries (p : Phrase) : Prop :=
  ∃ v, p.value .leftToRight v ⟨false, false⟩ = false ∧ p.value .andFirst v ⟨false, true⟩ = true

theorem Headed.carries {p rest : Phrase} {lead : Option Connective}
    {item : Reading → Valuation → Bool} (head : Headed p lead item rest) (proper : p.Proper)
    (distinct : p.Distinct) (hrest : rest.Carries) : p.Carries := by
  by_cases hlead : lead = some .or
  · -- an alternative: nothing behind it has to hold any more
    obtain ⟨v, hv⟩ := exists_valuation distinct fun _ => false
    refine ⟨v, value_of_none _ proper hv (.inl rfl), ?_⟩
    rw [head.value_eq, hlead]
    exact value_of_earlier rest _ v _
  · obtain ⟨v, hleft, hfirst⟩ := hrest
    obtain ⟨w, hw, hitem⟩ := head.set v true
    refine ⟨w, ?_, ?_⟩
    · rw [head.value_eq, hitem, Reading.join_and _ hlead, hw]
      exact hleft
    · rw [head.value_eq, hitem, Reading.join_and _ hlead, hw]
      exact hfirst

theorem carries {p : Phrase} (proper : p.Proper) (distinct : p.Distinct) : p.Carries := by
  induction p with
  | nil => exact ⟨fun _ => true, rfl, rfl⟩
  | clause lead c rest ih =>
      exact (headed_clause distinct).carries proper distinct (ih proper distinct.tail)
  | group lead inner rest _ ih =>
      exact (headed_group proper distinct).carries proper distinct (ih proper.2.2 distinct.right)

/-- The readings come apart on the row. Either they do from one state of what stands before, or an
OR has been read, so that with AND first the row may hold already, and it can still fail when read
from left to right. -/
inductive Apart (ors : Bool) (p : Phrase) : Prop
  | here (v : Valuation) (current : Bool) (start : p.opens = true → current = true)
      (left : p.value .leftToRight v ⟨false, current⟩ = false)
      (first : p.value .andFirst v ⟨false, current⟩ = true)
  | behind (v : Valuation) (seen : ors = true) (left : p.value .leftToRight v ⟨false, true⟩ = false)

theorem Headed.apart {p rest : Phrase} {lead : Option Connective}
    {item : Reading → Valuation → Bool} {ors : Bool} (head : Headed p lead item rest)
    (hrest : rest.Apart (ors || lead == some .or)) : p.Apart ors := by
  by_cases hlead : lead = some .or
  · have hopens : p.opens = false := by simp [head.opens_eq, hlead]
    cases hrest with
    | here v current start left first =>
        -- with nothing before it, the alternative makes the state
        obtain ⟨w, hw, hitem⟩ := head.set v current
        refine .here w false (by simp [hopens]) ?_ ?_
        · rw [head.value_eq, hitem, hlead, hw]
          exact left
        · rw [head.value_eq, hitem, hlead, hw]
          exact first
    | behind v seen left =>
        -- what stands before the OR holds
        refine .here v true (by simp) ?_ ?_
        · rw [head.value_eq, hlead]
          exact left
        · rw [head.value_eq, hlead]
          exact value_of_earlier rest _ v _
  · cases hrest with
    | here v current start left first =>
        obtain ⟨w, hw, hitem⟩ := head.set v current
        refine .here w true (by simp) ?_ ?_
        · rw [head.value_eq, hitem, Reading.join_and _ hlead, hw]
          exact left
        · rw [head.value_eq, hitem, Reading.join_and _ hlead, hw]
          exact first
    | behind v seen left =>
        obtain ⟨w, hw, hitem⟩ := head.set v true
        refine .behind w (by simpa [hlead] using seen) ?_
        rw [head.value_eq, hitem, Reading.join_and _ hlead, hw]
        exact left

theorem apart_of_opens {p : Phrase} (proper : p.Proper) (distinct : p.Distinct)
    (hopens : p.opens = true) : p.Apart true := by
  obtain ⟨v, hv⟩ := exists_valuation distinct fun _ => false
  exact .behind v rfl (value_of_none _ proper hv (.inr hopens))

/-- A bracket in which the readings come apart. -/
theorem apart_of_inner {lead : Option Connective} {inner rest : Phrase} (ors : Bool)
    (proper : (Phrase.group lead inner rest).Proper)
    (distinct : (Phrase.group lead inner rest).Distinct) (hinner : inner.Apart false) :
    (Phrase.group lead inner rest).Apart ors := by
  cases hinner with
  | behind v seen left => cases seen
  | here v current start left first =>
      cases start proper.1
      obtain ⟨w, hleft, hfirst⟩ := carries proper.2.2 distinct.right
      obtain ⟨u, huv, huw⟩ := @exists_splice inner.clauses _ distinct v w
      refine .here u (lead != some .or) (by simp [opens]) ?_ ?_
      · have hcurrent : (lead != some .or) = false ∨ (lead != some .or) = true := by
          cases lead != some .or <;> simp
        rw [value, value_congr _ _ huv, left, Reading.join_false _ hcurrent, value_congr _ _ huw]
        exact hleft
      · rw [value, value_congr _ _ huv, first, value_congr _ _ huw]
        have hjoin : Reading.andFirst.join ⟨false, lead != some .or⟩ lead true = ⟨false, true⟩ := by
          rcases lead with _ | _ | _ <;> rfl
        rw [hjoin]
        exact hfirst

theorem apart_of_not_andsFirst {p : Phrase} {ors : Bool} (proper : p.Proper) (distinct : p.Distinct)
    (unordered : p.andsFirst ors = false) : p.Apart ors := by
  induction p generalizing ors with
  | nil => cases unordered
  | clause lead c rest ih =>
      simp only [andsFirst, Bool.and_eq_false_iff] at unordered
      obtain hhere | hrest := unordered
      · obtain ⟨rfl, hlead⟩ : ors = true ∧ lead ≠ some .or := by simpa using hhere
        exact apart_of_opens proper distinct (bne_iff_ne.mpr hlead)
      · exact (headed_clause distinct).apart (ih proper distinct.tail hrest)
  | group lead inner rest ihinner ih =>
      simp only [andsFirst, Bool.and_eq_false_iff] at unordered
      obtain (hhere | hinner) | hrest := unordered
      · obtain ⟨rfl, hlead⟩ : ors = true ∧ lead ≠ some .or := by simpa using hhere
        exact apart_of_opens proper distinct (bne_iff_ne.mpr hlead)
      · exact apart_of_inner ors proper distinct (ihinner proper.2.1 distinct.left hinner)
      · exact (headed_group proper distinct).apart (ih proper.2.2 distinct.right hrest)

end Phrase

namespace Query

theorem opens_phrase {q : Query} (hq : q ≠ .nil) : (q.phrase true).opens = true := by
  cases q with
  | nil => exact absurd rfl hq
  | clause | group => rfl

theorem proper_phrase {q : Query} (hq : q.Filled) (first : Bool) : (q.phrase first).Proper := by
  induction q generalizing first with
  | nil => trivial
  | clause j c rest ih => exact ih hq false
  | group j inner rest ihinner ih =>
      exact ⟨opens_phrase hq.1, ihinner hq.2.1 true, ih hq.2.2 false⟩

def worth (q : Query) (r : Reading) (v : Valuation) : Bool := q.normal.value r v {}

/-- The worth of a query is one of its filter: queries of one filter are worth the same. -/
theorem worth_eq_of_render_eq {q r : Query} (hq : q.Every Clause.Readable)
    (hr : r.Every Clause.Readable) (h : q.render = r.render) : q.worth = r.worth := by
  rw [render_of_complete fun c hc => (hq c hc).1, render_of_complete fun c hc => (hr c hc).1] at h
  have hnormal : q.normal = r.normal :=
    normal_injective hq hr (String.ofList_injective (Except.ok.inj h))
  funext reading v
  rw [worth, worth, hnormal]

/-- The filter of a complete query is worth the same under both readings, whatever its conditions
are worth, if no AND stands behind an OR between the same brackets. If its conditions are all
different it is so only then. -/
theorem worth_eq_of_andsFirst (q : Query) (complete : q.Every Clause.Complete) :
    q.render = .ok (String.ofList q.normal.text) ∧
    (q.normal.andsFirst false = true → ∀ v, q.worth .andFirst v = q.worth .leftToRight v) ∧
    ((q.clauses.map fun (_, c) => c.test).Nodup → q.normal.andsFirst false = false →
      ∃ v, q.worth .andFirst v = true ∧ q.worth .leftToRight v = false) := by
  refine ⟨render_of_complete complete, fun ordered v => ?_, fun distinct unordered => ?_⟩
  · exact Phrase.value_eq_of_andsFirst v ordered fun _ => rfl
  · have hdistinct : q.normal.Distinct := by
      rw [Phrase.Distinct, clauses_normal, List.map_map]
      exact distinct
    have hitems : q.reduce ≠ .nil := by
      intro hnil
      rw [normal, hnil] at unordered
      cases unordered
    have hproper : q.normal.Proper := proper_phrase (filled_reduce q) true
    cases Phrase.apart_of_not_andsFirst hproper hdistinct unordered with
    | behind v seen => cases seen
    | here v current start left first =>
        cases start (opens_phrase hitems)
        exact ⟨v, first, left⟩

def emptiness (property : String) : Clause := ⟨property, false, some .isEmpty⟩

/-- The brackets keep the OR before the AND behind them. -/
theorem worth_bracketed :
    let q : Query := .group .and (.clause .and (emptiness "a") (.clause .or (emptiness "b") .nil))
      (.clause .and (emptiness "c") .nil)
    q.Every Clause.Complete ∧ q.render = .ok "(a IS EMPTY OR b IS EMPTY) AND c IS EMPTY" ∧
      ∀ v, q.worth .andFirst v = q.worth .leftToRight v := by
  intro q
  have complete : q.Every Clause.Complete := by decide
  obtain ⟨hrender, hsame, -⟩ := worth_eq_of_andsFirst q complete
  exact ⟨complete, hrender.trans (by rfl), hsame (by decide)⟩

/-- The two readings of an OR with an AND behind it. -/
theorem worth_or_and :
    let q : Query := .clause .and (emptiness "a") (.clause .or (emptiness "b")
      (.clause .and (emptiness "c") .nil))
    q.Every Clause.Complete ∧ q.render = .ok "a IS EMPTY OR b IS EMPTY AND c IS EMPTY" ∧
      q.worth .andFirst (fun test => test.1 == "a") = true ∧
      q.worth .leftToRight (fun test => test.1 == "a") = false :=
  ⟨by decide, by rfl, by decide, by decide⟩

end Query
end EntityClient.Filter
