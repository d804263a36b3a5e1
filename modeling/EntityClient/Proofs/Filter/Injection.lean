import EntityClient.Proofs.Filter.Endings

/-!
Names against the filter around them. A name in back-ticks ends at its first back-tick, so one that
holds a back-tick can spell further conditions. One clause whose names hold none is safe, also from
queries whose names do: such a name would have to end inside the clause's operand.
-/

namespace EntityClient.Filter

/-- A name that holds a back-tick ends later than one that holds none. -/
theorem nameText_split {p q u v : List Char} (hp : tick ∉ p) (hq : tick ∈ q)
    (h : nameText p ++ u = nameText q ++ v) : ∃ x, u = x ++ tick :: v := by
  have hbare : ¬isBare q = true := fun hbare =>
    absurd ((isBare_iff.mp hbare).2 tick hq) (by simp [isBareChar_tick])
  rw [nameText_of_not_bare hbare] at h
  by_cases hbare' : isBare p = true
  · rw [nameText_of_bare hbare'] at h
    exact absurd h (bare_ne_tick hbare')
  · rw [nameText_of_not_bare hbare'] at h
    have hinner : p ++ tick :: u = q ++ tick :: v := by simpa using h
    obtain ⟨x, rfl, hx⟩ := prefix_split hp hinner
    cases x with
    | nil => exact absurd (by simpa using hq) hp
    | cons c x =>
        obtain ⟨rfl, hu⟩ := List.cons.inj hx
        exact ⟨x, hu⟩

theorem Keyword.no_tick (k : Keyword) : tick ∉ k.text := by
  cases k with
  | relation r => cases r <;> decide
  | is | inside | filter | contains => decide

namespace Condition

variable {p q : String} {a b : Condition} {u : List Char} {m : Nat}

theorem property_tickFree (hp : tick ∉ p.toList) (ha : ∀ n ∈ a.names, tick ∉ n.toList)
    (hu : Follows u) (h : b.text q ++ u = a.text p ++ List.replicate m ')') : tick ∉ q.toList := by
  intro hq
  have hnames : nameText p.toList ++
        (' ' :: a.keyword.text ++ ' ' :: a.operand ++ List.replicate m ')') =
      nameText q.toList ++ (' ' :: b.keyword.text ++ ' ' :: b.operand ++ u) := by
    simpa [text_eq] using h.symm
  obtain ⟨x, hx⟩ := nameText_split hp hq hnames
  have hkeyword : ' ' :: a.keyword.text ++ [' '] ++ (a.operand ++ List.replicate m ')') =
      x ++ tick :: (' ' :: b.keyword.text ++ ' ' :: b.operand ++ u) := by
    simpa using hx
  have htick : tick ∉ ' ' :: a.keyword.text ++ [' '] := by
    simp [a.keyword.no_tick, show tick ≠ ' ' by decide]
  obtain ⟨y, -, hy⟩ := prefix_split htick hkeyword
  exact operand_ne ha (hu.concludes b.keyword b) hy

theorem operand_tickFree (hk : a.keyword = b.keyword) (ha : ∀ n ∈ a.names, tick ∉ n.toList)
    (h : b.operand ++ u = a.operand ++ List.replicate m ')') : ∀ n ∈ b.names, tick ∉ n.toList := by
  intro n hn htick
  cases b with
  | isEmpty | oneOf | startsWith | contains => cases hn
  | compare r t =>
      cases t with
      | value v => cases hn
      | property n' =>
          cases List.mem_singleton.mp hn
          cases a with
          | isEmpty | oneOf | startsWith | contains => cases hk
          | compare r' t' =>
              cases t' with
              | property p =>
                  obtain ⟨x, hx⟩ := nameText_split (ha p List.mem_cons_self) htick h.symm
                  have hmem : tick ∈ List.replicate m ')' := by simp [hx]
                  exact absurd (List.eq_of_mem_replicate hmem) (by decide)
              | value v => exact absurd h.symm valueText_ne_nameText

theorem text_tickFree (hp : tick ∉ p.toList) (ha : ∀ n ∈ a.names, tick ∉ n.toList)
    (hu : Follows u) (h : b.text q ++ u = a.text p ++ List.replicate m ')') :
    tick ∉ q.toList ∧ ∀ n ∈ b.names, tick ∉ n.toList := by
  have hq : tick ∉ q.toList := property_tickFree hp ha hu h
  refine ⟨hq, ?_⟩
  simp only [text_eq, List.append_assoc, List.cons_append] at h
  obtain ⟨-, hkeyword⟩ := nameText_cancel hq hp (ends_cons.mpr (by decide))
    (ends_cons.mpr (by decide)) h
  obtain ⟨hk, hoperand⟩ := Keyword.text_cancel (List.cons.inj hkeyword).2
  exact operand_tickFree hk.symm ha hoperand

end Condition

theorem Clause.tickFree_of_shown {c d : Clause} {u : List Char} (hc : c.Readable) (hd : d.Complete)
    (hu : Follows u) (h : d.shown ++ u = c.shown) : d.TickFree := by
  obtain ⟨a, ha, hanames, hashown⟩ := hc.cases
  obtain ⟨b, hb⟩ := Option.isSome_iff_exists.mp hd
  have hfree : tick ∉ d.property.toList ∧ ∀ n ∈ b.names, tick ∉ n.toList := by
    rw [hashown, shown_of_condition hb] at h
    cases hdneg : d.negated with
    | false =>
        rw [hdneg, if_neg Bool.false_ne_true] at h
        cases hcneg : c.negated with
        | false =>
            rw [hcneg, if_neg Bool.false_ne_true] at h
            have hplain : b.text d.property ++ u = a.text c.property ++ List.replicate 0 ')' := by
              simpa using h
            exact Condition.text_tickFree hc.property hanames hu hplain
        | true =>
            rw [hcneg, if_pos rfl, List.append_assoc] at h
            exact absurd h Condition.text_ne_not
    | true =>
        rw [hdneg, if_pos rfl] at h
        cases hcneg : c.negated with
        | false =>
            rw [hcneg, if_neg Bool.false_ne_true, List.append_assoc, List.append_assoc,
              ← List.append_nil (a.text c.property)] at h
            exact absurd h.symm Condition.text_ne_not
        | true =>
            rw [hcneg, if_pos rfl] at h
            have hinside : b.text d.property ++ ')' :: u =
                a.text c.property ++ List.replicate 1 ')' := by
              simpa using h
            exact Condition.text_tickFree hc.property hanames hu.bracket hinside
  intro n hn
  obtain rfl | hoperand : n = d.property ∨ n ∈ b.names := by simpa [names, hb] using hn
  · exact hfree.1
  · exact hfree.2 n hoperand

namespace Query

/-- A filter that reads as one clause whose names hold no back-tick is the filter of nothing else,
whatever the names of the others are. -/
theorem normal_eq_clause {c : Clause} {q : Query} (hc : c.Readable) (hq : q.Every Clause.Complete)
    (h : q.normal.text = c.shown) : q.normal = .clause none c .nil := by
  rw [normal] at h ⊢
  have hcomplete : q.reduce.Every Clause.Complete := (every_reduce q).mpr hq
  have hfilled : q.reduce.Filled := filled_reduce q
  cases hreduce : q.reduce with
  | nil =>
      obtain ⟨x, rest, hshown, -⟩ := Clause.shown_head hc
      rw [hreduce, hshown] at h
      cases h
  | group j inner rest =>
      rw [hreduce] at h
      have hbracket : c.shown ++ [] =
          '(' :: ((inner.phrase true).text ++ ')' :: (rest.phrase false).text) := by
        simpa [phrase, Phrase.text, leadText] using h.symm
      exact absurd hbracket (Clause.shown_ne hc (by decide))
  | clause j d rest =>
      rw [hreduce] at h hcomplete hfilled
      rw [every_clause] at hcomplete
      have hshown : d.shown ++ (rest.phrase false).text = c.shown := by
        simpa [phrase, Phrase.text, leadText] using h
      have hrest : Follows (rest.phrase false).text := @follows_phrase rest hfilled hcomplete.2
      have hd : d.Readable := ⟨hcomplete.1, Clause.tickFree_of_shown hc hcomplete.1 hrest hshown⟩
      have hends : Ends isBareChar (rest.phrase false).text := by
        simpa using @ends_phrase rest [] (by simp [Closes])
      have happend : d.shown ++ (rest.phrase false).text = c.shown ++ [] := by
        rw [hshown, List.append_nil]
      obtain ⟨rfl, hnone⟩ := Clause.shown_cancel hd hc hends (by simp [Ends]) happend
      cases rest with
      | nil => rfl
      | clause | group => cases hnone

/-- Names without back-ticks inject nothing: a complete query of any names renders like one clause
only when its normal form is that clause, so never when it has two conditions. -/
theorem render_eq_ofClause_iff (c : Clause) (q : Query) (complete : c.Complete)
    (tickFree : c.TickFree) (hq : q.Every Clause.Complete) :
    ∃ f g, (Query.ofClause c).render = .ok f ∧ q.render = .ok g ∧
      (g = f ↔ q.normal = (Query.ofClause c).normal) ∧ (2 ≤ q.normal.clauses.length → g ≠ f) := by
  have hofClause : (Query.ofClause c).Every Clause.Complete := by
    simpa [ofClause, Every, clauses] using complete
  have hiff : String.ofList q.normal.text = String.ofList (Query.ofClause c).normal.text ↔
      q.normal = (Query.ofClause c).normal := by
    constructor
    · intro h
      have htext : q.normal.text = c.shown := by
        rw [String.ofList_injective h]
        simp [ofClause, normal, reduce, phrase, Phrase.text, leadText]
      exact normal_eq_clause ⟨complete, tickFree⟩ hq htext
    · exact fun h => by rw [h]
  refine ⟨_, _, render_of_complete hofClause, render_of_complete hq, hiff, fun htwo h => ?_⟩
  rw [hiff.mp h] at htwo
  exact absurd htwo (by simp [ofClause, normal, reduce, phrase, Phrase.clauses])

def emptyDisjunction (p q : String) : Query :=
  .clause .and ⟨p, false, some .isEmpty⟩ (.clause .or ⟨q, false, some .isEmpty⟩ .nil)

/-- The value spells the end of the other query's first name and its second condition. -/
theorem render_value_ne :
    let c : Clause := ⟨"a b", false, some (.compare .equal (.value "` IS EMPTY OR `b "))⟩
    let q : Query := emptyDisjunction "a b` = \"" "b \""
    (c.Complete ∧ c.TickFree ∧ q.Every Clause.Complete ∧ 2 ≤ q.normal.clauses.length) ∧
      ∃ f g, (Query.ofClause c).render = .ok f ∧ q.render = .ok g ∧ g ≠ f := by
  intro c q
  obtain ⟨f, g, hf, hg, -, hne⟩ :=
    render_eq_ofClause_iff c q (by decide) (by decide) (by decide)
  exact ⟨by decide, f, g, hf, hg, hne (by decide)⟩

/-- A back-tick in a name ends it, and what follows is read as the rest of the filter. -/
theorem render_name_injects :
    let c : Clause := ⟨"a ` IS EMPTY OR `b ", false, some .isEmpty⟩
    let q : Query := emptyDisjunction "a " "b "
    (c.Complete ∧ q.Every Clause.Complete ∧ q.normal.clauses.length = 2) ∧
      ∃ f, (Query.ofClause c).render = .ok f ∧ q.render = .ok f :=
  ⟨by decide, _, rfl, rfl⟩

end Query
end EntityClient.Filter
