import EntityClient.Proofs.Filter.Normal
import EntityClient.Proofs.Filter.Quoting

/-!
Unique readability. Read from the left, the text of a filter says at each place which clause or
bracket comes next and where it ends, so two complete queries whose names hold no back-tick render
alike exactly when they have the same normal form.
-/

namespace EntityClient.Filter

/-- What stands between a condition's property and its operand. -/
inductive Keyword where
  | relation (r : Relation)
  | is
  | inside
  | filter
  | contains
deriving DecidableEq

namespace Keyword

def text : Keyword → List Char
  | .relation r => r.symbol
  | .is => ['I', 'S']
  | .inside => ['I', 'N']
  | .filter => ['F', 'I', 'L', 'T', 'E', 'R']
  | .contains => ['C', 'O', 'N', 'T', 'A', 'I', 'N', 'S']

def all : List Keyword :=
  [.relation .less, .relation .lessOrEqual, .relation .greater, .relation .greaterOrEqual,
    .relation .equal, .relation .notEqual, .is, .inside, .filter, .contains]

def read (t : List Char) : Option Keyword := all.find? (·.text = t)

theorem read_text (k : Keyword) : read k.text = some k := by
  cases k with
  | relation r => cases r <;> rfl
  | is | inside | filter | contains => rfl

theorem text_injective {k l : Keyword} (h : k.text = l.text) : k = l := by
  have hread := congrArg read h
  rw [read_text, read_text] at hread
  exact Option.some.inj hread

theorem text_plain (k : Keyword) : ∀ c ∈ k.text, c ≠ ' ' ∧ c ≠ '(' := by
  cases k with
  | relation r => cases r <;> simp [text, Relation.symbol]
  | is | inside | filter | contains => simp [text]

theorem text_cancel {k l : Keyword} {u v : List Char}
    (h : k.text ++ ' ' :: u = l.text ++ ' ' :: v) : k = l ∧ u = v := by
  have hblank (w : List Char) : Ends (· != ' ') (' ' :: w) := ends_cons.mpr rfl
  have hrun := run_cancel (fun c hc => bne_iff_ne.mpr (k.text_plain c hc).1)
    (fun c hc => bne_iff_ne.mpr (l.text_plain c hc).1) (hblank u) (hblank v) h
  exact ⟨text_injective hrun.1, (List.cons.inj hrun.2).2⟩

end Keyword

namespace Condition

def keyword : Condition → Keyword
  | .compare relation _ => .relation relation
  | .isEmpty => .is
  | .oneOf _ => .inside
  | .startsWith _ => .filter
  | .contains _ => .contains

def operand : Condition → List Char
  | .compare _ term => term.text
  | .isEmpty => ['E', 'M', 'P', 'T', 'Y']
  | .oneOf values => '(' :: valueList values ++ [')']
  | .startsWith part | .contains part => valueText part.toList

theorem text_eq (property : String) (a : Condition) :
    a.text property = nameText property.toList ++ ' ' :: a.keyword.text ++ ' ' :: a.operand := by
  cases a <;> simp [text, keyword, operand, Keyword.text]

theorem operand_cancel {a b : Condition} {u v : List Char} (hk : a.keyword = b.keyword)
    (ha : ∀ n ∈ a.names, tick ∉ n.toList) (hb : ∀ n ∈ b.names, tick ∉ n.toList)
    (hu : Ends isBareChar u) (hv : Ends isBareChar v) (h : a.operand ++ u = b.operand ++ v) :
    a = b ∧ u = v := by
  cases a with
  | compare r s =>
      cases b with
      | compare r' t =>
          obtain ⟨hst, hrest⟩ := Term.text_cancel (fun n hn => ha n (by simp [names, hn]))
            (fun n hn => hb n (by simp [names, hn])) hu hv h
          exact ⟨by rw [Keyword.relation.inj hk, hst], hrest⟩
      | isEmpty | oneOf | startsWith | contains => cases hk
  | isEmpty =>
      cases b with
      | isEmpty => exact ⟨rfl, List.append_cancel_left h⟩
      | compare | oneOf | startsWith | contains => cases hk
  | oneOf vs =>
      cases b with
      | oneOf ws =>
          obtain ⟨hvs, hrest⟩ := valueList_cancel (by simpa [operand] using h)
          exact ⟨by rw [hvs], hrest⟩
      | compare | isEmpty | startsWith | contains => cases hk
  | startsWith p =>
      cases b with
      | startsWith q =>
          obtain ⟨hpq, hrest⟩ := valueText_cancel h
          exact ⟨by rw [String.toList_inj.mp hpq], hrest⟩
      | compare | isEmpty | oneOf | contains => cases hk
  | contains p =>
      cases b with
      | contains q =>
          obtain ⟨hpq, hrest⟩ := valueText_cancel h
          exact ⟨by rw [String.toList_inj.mp hpq], hrest⟩
      | compare | isEmpty | oneOf | startsWith => cases hk

theorem text_cancel {p q : String} {a b : Condition} {u v : List Char} (hp : tick ∉ p.toList)
    (hq : tick ∉ q.toList) (ha : ∀ n ∈ a.names, tick ∉ n.toList)
    (hb : ∀ n ∈ b.names, tick ∉ n.toList) (hu : Ends isBareChar u) (hv : Ends isBareChar v)
    (h : a.text p ++ u = b.text q ++ v) : p = q ∧ a = b ∧ u = v := by
  simp only [text_eq, List.append_assoc, List.cons_append] at h
  obtain ⟨hpq, hkeyword⟩ := nameText_cancel hp hq (ends_cons.mpr (by decide))
    (ends_cons.mpr (by decide)) h
  obtain ⟨hk, hoperand⟩ := Keyword.text_cancel (List.cons.inj hkeyword).2
  exact ⟨String.toList_inj.mp hpq, operand_cancel hk ha hb hu hv hoperand⟩

/-- No keyword starts with a bracket, so a property called `NOT` is no negation. -/
theorem text_ne_not {p : String} {a : Condition} {u v : List Char} :
    a.text p ++ u ≠ "NOT (".toList ++ v := by
  intro h
  have hnot : "NOT (".toList ++ v = nameText "NOT".toList ++ ' ' :: '(' :: v := rfl
  simp only [hnot, text_eq, List.append_assoc, List.cons_append] at h
  have hp : tick ∉ p.toList := by
    intro htick
    rw [nameText_of_not_bare fun hbare => by
      simpa [isBareChar_tick] using (isBare_iff.mp hbare).2 tick htick] at h
    exact absurd (List.cons.inj h).1 (by decide)
  obtain ⟨_, hkeyword⟩ := nameText_cancel hp (by decide) (ends_cons.mpr (by decide))
    (ends_cons.mpr (by decide)) h
  have hbracket := (List.cons.inj hkeyword).2
  cases hk : a.keyword.text with
  | nil => simp [hk] at hbracket
  | cons c rest =>
      rw [hk, List.cons_append] at hbracket
      have hc : c ≠ '(' := (a.keyword.text_plain c (by simp [hk])).2
      exact hc (List.cons.inj hbracket).1

end Condition

def Clause.Readable (c : Clause) : Prop := c.Complete ∧ c.TickFree

namespace Clause

theorem Readable.property {c : Clause} (hc : c.Readable) : tick ∉ c.property.toList :=
  hc.2 c.property List.mem_cons_self

theorem shown_of_condition {c : Clause} {a : Condition} (ha : c.condition = some a) :
    c.shown = if c.negated then "NOT (".toList ++ a.text c.property ++ [')'] else
      a.text c.property := by
  rw [shown, ha]
  rfl

theorem Readable.cases {c : Clause} (hc : c.Readable) :
    ∃ a, c.condition = some a ∧ (∀ n ∈ a.names, tick ∉ n.toList) ∧
      c.shown = if c.negated then "NOT (".toList ++ a.text c.property ++ [')'] else
        a.text c.property := by
  obtain ⟨a, ha⟩ := Option.isSome_iff_exists.mp hc.1
  refine ⟨a, ha, fun n hn => hc.2 n ?_, shown_of_condition ha⟩
  simp [names, ha, hn]

theorem shown_cancel {c d : Clause} {u v : List Char} (hc : c.Readable) (hd : d.Readable)
    (hu : Ends isBareChar u) (hv : Ends isBareChar v) (h : c.shown ++ u = d.shown ++ v) :
    c = d ∧ u = v := by
  obtain ⟨a, ha, hanames, hashown⟩ := hc.cases
  obtain ⟨b, hb, hbnames, hbshown⟩ := hd.cases
  rw [hashown, hbshown] at h
  have hclose (w : List Char) : Ends isBareChar (')' :: w) := ends_cons.mpr (by decide)
  obtain ⟨p, cneg, ccond⟩ := c
  obtain ⟨q, dneg, dcond⟩ := d
  cases ha
  cases hb
  cases cneg with
  | false =>
      cases dneg with
      | false =>
          obtain ⟨rfl, rfl, hrest⟩ :=
            Condition.text_cancel hc.property hd.property hanames hbnames hu hv h
          exact ⟨rfl, hrest⟩
      | true =>
          rw [if_neg Bool.false_ne_true, if_pos rfl, List.append_assoc, List.append_assoc] at h
          exact absurd h Condition.text_ne_not
  | true =>
      cases dneg with
      | false =>
          rw [if_neg Bool.false_ne_true, if_pos rfl, List.append_assoc, List.append_assoc] at h
          exact absurd h.symm Condition.text_ne_not
      | true =>
          simp only [if_true, List.append_assoc, List.append_cancel_left_eq] at h
          obtain ⟨rfl, rfl, hrest⟩ := Condition.text_cancel hc.property hd.property hanames hbnames
            (hclose u) (hclose v) h
          exact ⟨rfl, (List.cons.inj hrest).2⟩

theorem shown_head {c : Clause} (hc : c.Readable) :
    ∃ x rest, c.shown = x :: rest ∧ (isBareChar x = true ∨ x = tick) := by
  obtain ⟨a, _, _, hshown⟩ := hc.cases
  rw [hshown]
  split
  · exact ⟨'N', _, rfl, .inl (by decide)⟩
  · obtain ⟨x, rest, hname, hx⟩ := nameText_head c.property.toList
    refine ⟨x, rest ++ ' ' :: a.keyword.text ++ ' ' :: a.operand, ?_, hx⟩
    simp [Condition.text_eq, hname]

theorem shown_ne {c : Clause} {x : Char} {u v : List Char} (hc : c.Readable)
    (hx : isBareChar x = false ∧ x ≠ tick) : c.shown ++ u ≠ x :: v := by
  obtain ⟨y, rest, hshown, hy⟩ := shown_head hc
  intro h
  rw [hshown] at h
  cases (List.cons.inj h).1
  cases hy with
  | inl hbare => exact Bool.false_ne_true (hx.1.symm.trans hbare)
  | inr htick => exact hx.2 htick

end Clause

/-- What can stand behind the items of a group: nothing, or its closing bracket. -/
def Closes (u : List Char) : Prop := ∀ c ∈ u.head?, c = ')'

theorem closes_cons {c : Char} {u : List Char} : Closes (c :: u) ↔ c = ')' := by
  simp [Closes]

theorem Closes.ends {u : List Char} (hu : Closes u) : Ends isBareChar u := by
  intro c hc
  rw [hu c hc]
  decide

theorem leadText_cancel {first : Bool} {j k : Connective} {u v : List Char}
    (h : leadText (if first then none else some j) ++ u =
      leadText (if first then none else some k) ++ v) : (first = true ∨ j = k) ∧ u = v := by
  cases first with
  | true => exact ⟨.inl rfl, h⟩
  | false => cases j <;> cases k <;> simp_all [leadText, Connective.keyword]

namespace Query

/-- No item starts like a closing bracket. -/
theorem phrase_opens {q : Query} {first : Bool} {u : List Char} (hq : q.Every Clause.Readable)
    (h : Closes ((q.phrase first).text ++ u)) : q = .nil := by
  cases first with
  | false =>
      cases q with
      | nil => rfl
      | clause | group => exact absurd (closes_cons.mp h) (by decide)
  | true =>
      cases q with
      | nil => rfl
      | group => exact absurd (closes_cons.mp h) (by decide)
      | clause j c rest =>
          obtain ⟨x, t, hshown, hx⟩ := Clause.shown_head ((every_clause j c rest).mp hq).1
          simp only [phrase, Phrase.text, if_true, leadText, hshown, List.nil_append,
            List.cons_append] at h
          cases closes_cons.mp h
          exact absurd hx (by decide)

theorem ends_phrase {q : Query} {u : List Char} (hu : Closes u) :
    Ends isBareChar ((q.phrase false).text ++ u) := by
  cases q with
  | nil => exact hu.ends
  | clause | group => exact ends_cons.mpr (by decide)

/-- What a group shows determines it and what stands behind. Both groups are read item by item;
behind an inner group stand its closing bracket and the group's further items. -/
theorem phrase_cancel {q r : Query} {first : Bool} {u v : List Char}
    (hq : q.Every Clause.Readable) (hr : r.Every Clause.Readable) (hu : Closes u) (hv : Closes v)
    (h : (q.phrase first).text ++ u = (r.phrase first).text ++ v) :
    q.phrase first = r.phrase first ∧ u = v := by
  induction q generalizing r first u v with
  | nil =>
      have hcloses : Closes ((r.phrase first).text ++ v) := by
        rw [← h]
        exact hu
      cases phrase_opens hr hcloses
      exact ⟨rfl, h⟩
  | clause j c rest ih =>
      cases r with
      | nil =>
          rw [phrase, Phrase.text, List.nil_append] at h
          cases phrase_opens hq (h.symm ▸ hv)
      | clause k d rest' =>
          rw [every_clause] at hq hr
          simp only [phrase, Phrase.text, List.append_assoc] at h
          obtain ⟨hlead, hitem⟩ := leadText_cancel h
          obtain ⟨rfl, hrest⟩ :=
            Clause.shown_cancel hq.1 hr.1 (ends_phrase hu) (ends_phrase hv) hitem
          obtain ⟨hphrase, huv⟩ := ih hq.2 hr.2 hu hv hrest
          refine ⟨?_, huv⟩
          cases hlead with
          | inl hfirst => simp [phrase, hfirst, hphrase]
          | inr hjk => simp [phrase, hjk, hphrase]
      | group k inner rest' =>
          simp only [phrase, Phrase.text, List.append_assoc, List.cons_append] at h
          exact absurd (leadText_cancel h).2
            (Clause.shown_ne ((every_clause j c rest).mp hq).1 (by decide))
  | group j inner rest ihinner ih =>
      cases r with
      | nil =>
          rw [phrase, Phrase.text, List.nil_append] at h
          cases phrase_opens hq (h.symm ▸ hv)
      | clause k d rest' =>
          simp only [phrase, Phrase.text, List.append_assoc, List.cons_append] at h
          exact absurd (leadText_cancel h).2.symm
            (Clause.shown_ne ((every_clause k d rest').mp hr).1 (by decide))
      | group k inner' rest' =>
          rw [every_group] at hq hr
          simp only [phrase, Phrase.text, List.append_assoc, List.cons_append] at h
          obtain ⟨hlead, hitem⟩ := leadText_cancel h
          have hbracket (w : List Char) : Closes (')' :: w) := closes_cons.mpr rfl
          obtain ⟨hin, hclosed⟩ :=
            ihinner hq.1 hr.1 (hbracket _) (hbracket _) (List.cons.inj hitem).2
          obtain ⟨hphrase, huv⟩ := ih hq.2 hr.2 hu hv (List.cons.inj hclosed).2
          refine ⟨?_, huv⟩
          cases hlead with
          | inl hfirst => simp [phrase, hfirst, hin, hphrase]
          | inr hjk => simp [phrase, hjk, hin, hphrase]

theorem normal_injective {q r : Query} (hq : q.Every Clause.Readable)
    (hr : r.Every Clause.Readable) (h : q.normal.text = r.normal.text) : q.normal = r.normal := by
  have hnone : Closes [] := by simp [Closes]
  have happend : (q.reduce.phrase true).text ++ [] = (r.reduce.phrase true).text ++ [] := by
    rw [List.append_nil, List.append_nil]
    exact h
  exact (phrase_cancel ((every_reduce q).mpr hq) ((every_reduce r).mpr hr) hnone hnone happend).1

theorem render_of_complete {q : Query} (hq : q.Every Clause.Complete) :
    q.render = .ok (String.ofList q.normal.text) := by
  rw [render, text_of_complete hq]
  rfl

/-- Two complete queries without back-ticks in names both render, and render alike exactly when
their normal forms agree, whatever their values are. -/
theorem render_eq_render_iff (q r : Query) (hq : q.Every Clause.Complete)
    (hr : r.Every Clause.Complete) (hqticks : q.Every Clause.TickFree)
    (hrticks : r.Every Clause.TickFree) :
    ∃ f g, q.render = .ok f ∧ r.render = .ok g ∧ (f = g ↔ q.normal = r.normal) := by
  refine ⟨_, _, render_of_complete hq, render_of_complete hr, fun h => ?_, fun h => by rw [h]⟩
  exact normal_injective (fun c hc => ⟨hq c hc, hqticks c hc⟩) (fun c hc => ⟨hr c hc, hrticks c hc⟩)
    (String.ofList_injective h)

/-- One clause, whose value spells the rest of `disjunction`'s filter. -/
def spelled : Query := .ofClause ⟨"a", false, some (.compare .equal (.value "1\" OR b = \"2"))⟩

def disjunction : Query :=
  .clause .and ⟨"a", false, some (.compare .equal (.value "1"))⟩
    (.group .or (.ofClause ⟨"b", false, some (.compare .equal (.value "2"))⟩) .nil)

theorem render_spelled_ne :
    (spelled.Every Clause.Complete ∧ disjunction.Every Clause.Complete ∧
      spelled.Every Clause.TickFree ∧ disjunction.Every Clause.TickFree) ∧
    ∃ f g, spelled.render = .ok f ∧ disjunction.render = .ok g ∧ f ≠ g := by
  have hnormal : spelled.normal ≠ disjunction.normal := by decide
  obtain ⟨f, g, hf, hg, hiff⟩ := render_eq_render_iff spelled disjunction (by decide) (by decide)
    (by decide) (by decide)
  refine ⟨by decide, f, g, hf, hg, fun h => hnormal (hiff.mp h)⟩

end Query
end EntityClient.Filter
