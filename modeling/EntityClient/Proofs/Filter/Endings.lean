import EntityClient.Proofs.Filter.Readability
import Mathlib.Data.List.Basic

/-!
The end of a filter. Up to closing brackets its last character tells whether the last operand is a
word, a name in back-ticks or values, and where that operand starts no value can be open: a quote
without a backslash would close it, and the number of such quotes behind it has the wrong parity.
-/

namespace EntityClient.Filter

/-- The last character of a text that is no closing bracket. -/
def ending (t : List Char) : Option Char := (t.filter (· != ')')).getLast?

theorem ending_append {s t : List Char} {c : Char} (ht : ending t = some c) :
    ending (s ++ t) = some c := by
  rw [ending] at ht
  simp [ending, List.getLast?_append, ht]

theorem ending_brackets (t : List Char) (m : Nat) :
    ending (t ++ List.replicate m ')') = ending t := by
  simp [ending]

theorem ending_snoc (t : List Char) {c : Char} (hc : c ≠ ')') : ending (t ++ [c]) = some c := by
  simp [ending, hc]

theorem ending_name (n : List Char) : ending (tick :: n ++ [tick]) = some tick :=
  ending_snoc (tick :: n) (by decide)

theorem mem_of_ending {t : List Char} {c : Char} (h : ending t = some c) : c ∈ t :=
  (List.mem_filter.mp (List.mem_of_getLast? h)).1

/-- The quotes of a text that stand without a backslash. -/
def quotes : List Char → Nat
  | [] => 0
  | '"' :: rest => quotes rest + 1
  | '\\' :: _ :: rest => quotes rest
  | _ :: rest => quotes rest

theorem quotes_escapeValue (value u : List Char) :
    quotes (escapeValue value ++ '"' :: u) = quotes u + 1 := by
  induction value with
  | nil => rfl
  | cons c value ih =>
      rw [escapeValue]
      split
      · rw [List.cons_append, List.cons_append, quotes, ih]
      · next hplain =>
          obtain ⟨hquote, hslash⟩ := not_or.mp hplain
          rw [List.cons_append, quotes, ih]
          · exact hquote
          · exact fun _ _ h _ => hslash h

theorem quotes_brackets (m : Nat) : quotes (List.replicate m ')') = 0 := by
  induction m with
  | zero => rfl
  | succ m ih => exact ih

theorem quotes_moreValues (vs : List String) (m : Nat) :
    quotes (moreValues vs ++ List.replicate m ')') = 2 * vs.length := by
  induction vs with
  | nil => exact quotes_brackets m
  | cons w vs ih =>
      have hcons : moreValues (w :: vs) ++ List.replicate m ')' =
          ',' :: ' ' :: '"' ::
            (escapeValue w.toList ++ '"' :: (moreValues vs ++ List.replicate m ')')) := by
        simp [moreValues, valueText]
      rw [hcons, quotes, quotes, quotes, quotes_escapeValue, ih, List.length_cons]
      · omega
      all_goals simp

/-- A quote without a backslash closes the value or stands behind it. -/
theorem escapeValue_split {value t x u : List Char} (hx : ¬['\\'] <:+ x)
    (h : escapeValue value ++ '"' :: t = x ++ '"' :: u) :
    u = t ∨ ∃ y, x = escapeValue value ++ '"' :: y ∧ t = y ++ '"' :: u := by
  induction value generalizing x with
  | nil =>
      cases x with
      | nil => exact .inl (List.cons.inj h).2.symm
      | cons c y =>
          obtain ⟨rfl, hrest⟩ := List.cons.inj h
          exact .inr ⟨y, rfl, hrest⟩
  | cons c value ih =>
      have htail {d : Char} {y : List Char} (hdy : ¬['\\'] <:+ d :: y) : ¬['\\'] <:+ y :=
        fun hy => hdy (hy.trans (List.suffix_cons d y))
      rw [escapeValue] at h ⊢
      by_cases hescaped : c = '"' ∨ c = '\\'
      · rw [if_pos hescaped] at h ⊢
        cases x with
        | nil => cases (List.cons.inj h).1
        | cons d y =>
            obtain ⟨rfl, hpair⟩ := List.cons.inj h
            cases y with
            | nil => exact absurd List.suffix_rfl hx
            | cons e y =>
                obtain ⟨rfl, hrest⟩ := List.cons.inj hpair
                obtain hclose | ⟨z, rfl, hz⟩ := ih (htail (htail hx)) hrest
                · exact .inl hclose
                · exact .inr ⟨z, rfl, hz⟩
      · rw [if_neg hescaped] at h ⊢
        cases x with
        | nil => exact absurd (.inl (List.cons.inj h).1) hescaped
        | cons d y =>
            obtain ⟨rfl, hrest⟩ := List.cons.inj h
            obtain hclose | ⟨z, rfl, hz⟩ := ih (htail hx) hrest
            · exact .inl hclose
            · exact .inr ⟨z, rfl, hz⟩

theorem valueText_split {value t x u : List Char} (hx : ¬['\\'] <:+ x)
    (h : valueText value ++ t = x ++ '"' :: u) :
    x = [] ∨ u = t ∨ ∃ y, x = valueText value ++ y ∧ t = y ++ '"' :: u := by
  cases x with
  | nil => exact .inl rfl
  | cons c x =>
      have hinner : '"' :: (escapeValue value ++ '"' :: t) = c :: (x ++ '"' :: u) := by
        simpa [valueText] using h
      obtain ⟨rfl, hrest⟩ := List.cons.inj hinner
      have hlast : ¬['\\'] <:+ x := fun hsuffix => hx (hsuffix.trans (List.suffix_cons '"' x))
      obtain hclose | ⟨y, rfl, hy⟩ := escapeValue_split hlast hrest
      · exact .inr (.inl hclose)
      · exact .inr (.inr ⟨y, by simp [valueText], hy⟩)

/-- Behind the first value of a list a quote without a backslash opens a value, behind a comma and a
blank, or closes one, with an even number of them to come. -/
theorem moreValues_split {vs : List String} {m : Nat} {x u : List Char} (hx : ¬['\\'] <:+ x)
    (h : moreValues vs ++ List.replicate m ')' = x ++ '"' :: u) :
    [',', ' '] <:+ x ∨ quotes u % 2 = 0 := by
  induction vs generalizing x with
  | nil =>
      have hmem : '"' ∈ moreValues [] ++ List.replicate m ')' := by
        rw [h]
        simp
      simp [moreValues] at hmem
  | cons w vs ih =>
      have hcons : ',' :: ' ' :: (valueText w.toList ++ (moreValues vs ++ List.replicate m ')')) =
          x ++ '"' :: u := by
        simpa [moreValues] using h
      cases x with
      | nil => cases (List.cons.inj hcons).1
      | cons c y =>
          obtain ⟨rfl, hblank⟩ := List.cons.inj hcons
          cases y with
          | nil => cases (List.cons.inj hblank).1
          | cons d y =>
              obtain ⟨rfl, hrest⟩ := List.cons.inj hblank
              have hinside {z : List Char} (hz : z <:+ y) : z <:+ ',' :: ' ' :: y :=
                (hz.trans (List.suffix_cons ' ' y)).trans (List.suffix_cons ',' (' ' :: y))
              obtain rfl | rfl | ⟨z, rfl, hz⟩ := valueText_split (fun hy => hx (hinside hy)) hrest
              · exact .inl List.suffix_rfl
              · right
                rw [quotes_moreValues]
                omega
              · have hz' : z <:+ valueText w.toList ++ z := List.suffix_append _ z
                obtain hopen | heven := ih (fun hslash => hx (hinside (hslash.trans hz'))) hz
                · exact .inl (hinside (hopen.trans hz'))
                · exact .inr heven

theorem ending_values (s : List Char) (v : String) (vs : List String) (m : Nat) :
    ending (s ++ valueText v.toList ++ moreValues vs ++ List.replicate m ')') = some '"' := by
  rw [ending_brackets]
  induction vs generalizing s v with
  | nil =>
      have hlast : s ++ valueText v.toList ++ moreValues [] =
          s ++ '"' :: escapeValue v.toList ++ ['"'] := by simp [moreValues, valueText]
      rw [hlast]
      exact ending_snoc _ (by decide)
  | cons w vs ih =>
      have hnext : s ++ valueText v.toList ++ moreValues (w :: vs) =
          s ++ valueText v.toList ++ [',', ' '] ++ valueText w.toList ++ moreValues vs := by
        simp [moreValues]
      rw [hnext]
      exact ih _ w

inductive Condition.Shape (a : Condition) : Prop
  | word (plain : ∀ c ∈ a.operand, c ≠ tick ∧ c ≠ '"') (c : Char) (ends : ending a.operand = some c)
  | name (n : String) (named : n ∈ a.names) (shown : a.operand = tick :: n.toList ++ [tick])
  | values (opening : List Char) (v : String) (vs : List String) (m : Nat)
      (opens : opening = [] ∨ opening = ['('])
      (shown : a.operand = opening ++ valueText v.toList ++ moreValues vs ++ List.replicate m ')')

namespace Condition

theorem shape (a : Condition) : a.Shape := by
  have hvalue (v : String) (h : a.operand = valueText v.toList) : a.Shape :=
    .values [] v [] 0 (.inl rfl) (by simp [h, moreValues])
  cases a with
  | compare relation term =>
      cases term with
      | value v => exact hvalue v rfl
      | property n =>
          by_cases hbare : isBare n.toList = true
          · have hshown : operand (.compare relation (.property n)) = n.toList :=
              nameText_of_bare hbare
            obtain ⟨hne, hall⟩ := isBare_iff.mp hbare
            obtain ⟨init, last, hlast⟩ := (List.eq_nil_or_concat' n.toList).resolve_left hne
            refine .word (fun c hc => ?_) last ?_
            · have hc' : isBareChar c = true := hall c (hshown ▸ hc)
              constructor <;> rintro rfl <;> exact absurd hc' (by decide)
            · have hbracket : last ≠ ')' := by
                rintro rfl
                exact absurd (hall ')' (by simp [hlast])) (by decide)
              rw [hshown, hlast]
              exact ending_snoc init hbracket
          · exact .name n (by simp [names]) (nameText_of_not_bare hbare)
  | isEmpty => exact .word (by simp [operand, tick]) 'Y' (by decide)
  | oneOf values =>
      cases values with
      | nil => exact .word (by simp [operand, valueList, tick]) '(' (by decide)
      | cons v vs => exact .values ['('] v vs 1 (.inr rfl) (by simp [operand, valueList_cons])
  | startsWith part | contains part => exact hvalue part rfl

end Condition

/-- The text ends with an operand, behind its keyword and before closing brackets. -/
def Concludes (t : List Char) : Prop :=
  ∃ (x : List Char) (k : Keyword) (a : Condition) (m : Nat),
    t = x ++ k.text ++ ' ' :: a.operand ++ List.replicate m ')'

theorem Concludes.append {t : List Char} (ht : Concludes t) (s : List Char) :
    Concludes (s ++ t) := by
  obtain ⟨x, k, a, m, rfl⟩ := ht
  exact ⟨s ++ x, k, a, m, by simp⟩

theorem Concludes.bracket {t : List Char} (ht : Concludes t) : Concludes (t ++ [')']) := by
  obtain ⟨x, k, a, m, rfl⟩ := ht
  exact ⟨x, k, a, m + 1, by simp [List.replicate_succ']⟩

theorem Condition.concludes (p : String) (a : Condition) : Concludes (a.text p) :=
  ⟨nameText p.toList ++ [' '], a.keyword, a, 0, by simp [Condition.text_eq]⟩

theorem Clause.concludes {c : Clause} (hc : c.Complete) : Concludes c.shown := by
  obtain ⟨a, ha⟩ := Option.isSome_iff_exists.mp hc
  rw [shown_of_condition ha]
  split
  · exact ((a.concludes c.property).append _).bracket
  · exact a.concludes c.property

theorem Query.concludes_phrase {q : Query} (filled : q.Filled) (complete : q.Every Clause.Complete)
    (hq : q ≠ .nil) (first : Bool) : Concludes (q.phrase first).text := by
  induction q generalizing first with
  | nil => exact absurd rfl hq
  | clause j c rest ih =>
      rw [every_clause] at complete
      rw [phrase, Phrase.text]
      by_cases hrest : rest = .nil
      · rw [hrest]
        simpa [phrase, Phrase.text] using (Clause.concludes complete.1).append _
      · exact (ih filled complete.2 hrest false).append _
  | group j inner rest ihinner ih =>
      rw [every_group] at complete
      rw [phrase, Phrase.text]
      by_cases hrest : rest = .nil
      · rw [hrest]
        have hinner := ihinner filled.2.1 complete.1 filled.1 true
        simpa [phrase, Phrase.text] using (hinner.bracket.append ['(']).append _
      · have hrest' := (ih filled.2.2 complete.2 hrest false).append
          (leadText (if first then none else some j) ++ '(' :: (inner.phrase true).text ++ [')'])
        simpa using hrest'

/-- What can stand behind an operand: closing brackets, or more of the filter. -/
def Follows (u : List Char) : Prop := (∃ m, u = List.replicate m ')') ∨ Concludes u

theorem Follows.bracket {u : List Char} (hu : Follows u) : Follows (')' :: u) := by
  obtain ⟨m, rfl⟩ | hu := hu
  · exact .inl ⟨m + 1, rfl⟩
  · exact .inr (hu.append [')'])

theorem Follows.concludes {u : List Char} (hu : Follows u) (k : Keyword) (a : Condition) :
    Concludes (' ' :: k.text ++ ' ' :: a.operand ++ u) := by
  obtain ⟨m, rfl⟩ | hu := hu
  · exact ⟨[' '], k, a, m, by simp⟩
  · exact hu.append _

theorem Query.follows_phrase {q : Query} (filled : q.Filled) (complete : q.Every Clause.Complete) :
    Follows (q.phrase false).text := by
  by_cases hq : q = .nil
  · exact .inl ⟨0, by rw [hq]; rfl⟩
  · exact .inr (concludes_phrase filled complete hq false)

/-- Two back-ticks are too few for the end of a name and another name. -/
theorem name_ne {n n' x y : List Char} {m j : Nat} (hn : tick ∉ n) :
    tick :: n ++ [tick] ++ List.replicate m ')' ≠
      x ++ tick :: y ++ (tick :: n' ++ [tick]) ++ List.replicate j ')' := by
  intro h
  have hcount := congrArg (List.count tick) h
  have hnone : List.count tick n = 0 := List.count_eq_zero.mpr hn
  have hbrackets (i : Nat) : List.count tick (List.replicate i ')') = 0 := by
    simp [List.count_replicate, tick]
  simp only [List.count_append, List.count_cons_self, List.count_nil, hnone, hbrackets] at hcount
  omega

theorem Keyword.no_comma (k : Keyword) (s : List Char) : ¬[','] <:+ s ++ k.text := by
  rintro ⟨t, ht⟩
  have hlast := congrArg List.getLast? ht
  cases k with
  | relation r => cases r <;> simp [text, Relation.symbol] at hlast
  | is | inside | filter | contains => simp [text] at hlast

theorem before_values (s : List Char) (k : Keyword) {opening : List Char}
    (hopening : opening = [] ∨ opening = ['(']) :
    ¬['\\'] <:+ s ++ k.text ++ ' ' :: opening ∧ ¬[',', ' '] <:+ s ++ k.text ++ ' ' :: opening := by
  constructor
  · rintro ⟨t, ht⟩
    have hlast := congrArg List.getLast? ht
    obtain rfl | rfl := hopening <;> simp at hlast
  · rintro ⟨t, ht⟩
    have hlast := congrArg List.getLast? ht
    obtain rfl | rfl := hopening
    · have hblank : t ++ [','] ++ [' '] = s ++ k.text ++ [' '] := by simpa using ht
      exact k.no_comma _ ⟨t, List.append_cancel_right hblank⟩
    · simp at hlast

/-- The quote that opens the second row of values stands behind a blank or a bracket, so in the
first row it would be a closing one. An even number of quotes follows such a one, and here it is
odd. -/
theorem values_ne {opening opening' x y : List Char} {v w : String} {vs ws : List String}
    {m j : Nat} (k : Keyword) (hopening : tick ∉ opening)
    (hopening' : opening' = [] ∨ opening' = ['(']) :
    opening ++ valueText v.toList ++ moreValues vs ++ List.replicate m ')' ≠
      x ++ tick :: y ++ k.text ++ ' ' ::
        (opening' ++ valueText w.toList ++ moreValues ws ++ List.replicate j ')') := by
  intro h
  have hsplit : opening ++ (valueText v.toList ++ (moreValues vs ++ List.replicate m ')')) =
      x ++ tick :: (y ++ k.text ++ ' ' ::
        (opening' ++ valueText w.toList ++ moreValues ws ++ List.replicate j ')')) := by
    simpa using h
  obtain ⟨z, rfl, hz⟩ := prefix_split hopening hsplit
  have hquote : valueText v.toList ++ (moreValues vs ++ List.replicate m ')') =
      (z ++ tick :: y ++ k.text ++ ' ' :: opening') ++ '"' ::
        (escapeValue w.toList ++ '"' :: (moreValues ws ++ List.replicate j ')')) := by
    simpa [valueText] using hz
  have hodd : quotes
      (escapeValue w.toList ++ '"' :: (moreValues ws ++ List.replicate j ')')) % 2 = 1 := by
    rw [quotes_escapeValue, quotes_moreValues]
    omega
  obtain ⟨hslash, hcomma⟩ := before_values (z ++ tick :: y) k hopening'
  obtain hnil | hclose | ⟨z', hz', hrest⟩ := valueText_split hslash hquote
  · simp at hnil
  · rw [hclose, quotes_moreValues] at hodd
    omega
  · have hsuffix : z' <:+ z ++ tick :: y ++ k.text ++ ' ' :: opening' := ⟨_, hz'.symm⟩
    obtain hopen | heven := moreValues_split (fun hlast => hslash (hlast.trans hsuffix)) hrest
    · exact hcomma (hopen.trans hsuffix)
    · omega

/-- No operand without back-ticks in its names runs over a back-tick into another operand. -/
theorem Condition.operand_ne {a : Condition} (ha : ∀ n ∈ a.names, tick ∉ n.toList) {m : Nat}
    {x t : List Char} (ht : Concludes t) : a.operand ++ List.replicate m ')' ≠ x ++ tick :: t := by
  intro h
  obtain ⟨y, k, b, j, rfl⟩ := ht
  have hends {c : Char} (hb : ending b.operand = some c) : ending a.operand = some c := by
    rw [← ending_brackets a.operand m, h]
    have hjoin : x ++ tick :: (y ++ k.text ++ ' ' :: b.operand ++ List.replicate j ')') =
        (x ++ tick :: (y ++ k.text ++ [' '])) ++ b.operand ++ List.replicate j ')' := by simp
    rw [hjoin, ending_brackets]
    exact ending_append hb
  -- the two operands are of one kind, told by the last character
  cases a.shape with
  | word plain c hc =>
      have hmem : tick ∈ a.operand ++ List.replicate m ')' := by simp [h]
      obtain hoperand | hbracket := List.mem_append.mp hmem
      · exact (plain tick hoperand).1 rfl
      · exact absurd (List.eq_of_mem_replicate hbracket) (by decide)
  | name n named shown =>
      have haends : ending a.operand = some tick := by rw [shown, ending_name]
      cases b.shape with
      | word plain c hc =>
          cases haends.symm.trans (hends hc)
          exact (plain tick (mem_of_ending hc)).1 rfl
      | name n' _ shown' =>
          refine @name_ne n.toList n'.toList x (y ++ k.text ++ [' ']) m j (ha n named) ?_
          simpa [shown, shown'] using h
      | values opening v vs m' opens shown' =>
          have hbends : ending b.operand = some '"' := by rw [shown', ending_values]
          exact absurd (haends.symm.trans (hends hbends)) (by decide)
  | values opening v vs m' opens shown =>
      have haends : ending a.operand = some '"' := by rw [shown, ending_values]
      cases b.shape with
      | word plain c hc =>
          cases haends.symm.trans (hends hc)
          exact (plain '"' (mem_of_ending hc)).2 rfl
      | name n' _ shown' =>
          have hbends : ending b.operand = some tick := by rw [shown', ending_name]
          exact absurd (haends.symm.trans (hends hbends)) (by decide)
      | values opening' w ws m'' opens' shown' =>
          have hopening : tick ∉ opening := by
            obtain rfl | rfl := opens <;> decide
          have hvalues :
              opening ++ valueText v.toList ++ moreValues vs ++ List.replicate (m' + m) ')' =
              x ++ tick :: y ++ k.text ++ ' ' :: (opening' ++ valueText w.toList ++
                moreValues ws ++ List.replicate (m'' + j) ')') := by
            simpa [shown, shown', ← List.replicate_append_replicate] using h
          exact values_ne k hopening opens' hvalues

end EntityClient.Filter
