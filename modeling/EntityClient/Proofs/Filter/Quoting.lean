import EntityClient.Filter.Clause

/-!
Names, values and value lists in a filter can be read back: where one stands in front of a text
that cannot continue it, the whole determines both. For a name in back-ticks this needs that the
name holds none itself; a value may hold anything, since no quote in it stands without a backslash.
-/

namespace EntityClient.Filter

/-- The text is empty or starts with a character outside `P`. -/
def Ends (P : Char → Bool) (u : List Char) : Prop := ∀ c ∈ u.head?, P c = false

theorem ends_cons {P : Char → Bool} {c : Char} {u : List Char} : Ends P (c :: u) ↔ P c = false := by
  simp [Ends]

theorem Ends.takeWhile {P : Char → Bool} {u : List Char} (hu : Ends P u) :
    u.takeWhile P = [] := by
  cases u with
  | nil => rfl
  | cons c u => exact List.takeWhile_cons_of_neg (by simp [ends_cons.mp hu])

/-- A run of `P` characters is as long as it can be. -/
theorem run_cancel {P : Char → Bool} {a b u v : List Char} (ha : ∀ c ∈ a, P c) (hb : ∀ c ∈ b, P c)
    (hu : Ends P u) (hv : Ends P v) (h : a ++ u = b ++ v) : a = b ∧ u = v := by
  have hrun := congrArg (List.takeWhile P) h
  rw [List.takeWhile_append_of_pos ha, List.takeWhile_append_of_pos hb, hu.takeWhile,
    hv.takeWhile, List.append_nil, List.append_nil] at hrun
  subst hrun
  exact ⟨rfl, List.append_cancel_left h⟩

/-- The first `x` of a text stands behind every part before it that holds none. -/
theorem prefix_split {x : Char} {s r n t : List Char} (hs : x ∉ s) (h : s ++ r = n ++ x :: t) :
    ∃ m, n = s ++ m ∧ r = m ++ x :: t := by
  obtain ⟨m, hn, hr⟩ | ⟨m, hm, hr⟩ := List.append_eq_append_iff.mp h
  · exact ⟨m, hn, hr⟩
  · cases m with
    | nil => exact ⟨[], by simpa using hm.symm, by simpa using hr.symm⟩
    | cons y m =>
        have hmem : x ∈ s := by simp [hm, (List.cons.inj hr).1]
        exact absurd hmem hs

theorem nameText_of_bare {n : List Char} (hn : isBare n = true) : nameText n = n := if_pos hn

theorem nameText_of_not_bare {n : List Char} (hn : ¬isBare n = true) :
    nameText n = tick :: n ++ [tick] := if_neg hn

theorem isBareChar_tick : isBareChar tick = false := by decide

theorem isBare_iff {n : List Char} : isBare n = true ↔ n ≠ [] ∧ ∀ c ∈ n, isBareChar c = true := by
  simp [isBare]

theorem bare_ne_tick {n u v : List Char} (hn : isBare n = true) : n ++ u ≠ tick :: v := by
  obtain ⟨hne, hall⟩ := isBare_iff.mp hn
  cases n with
  | nil => exact absurd rfl hne
  | cons c n =>
      intro h
      have hc : isBareChar c = true := hall c List.mem_cons_self
      rw [(List.cons.inj h).1, isBareChar_tick] at hc
      exact Bool.false_ne_true hc

theorem nameText_cancel {m n u v : List Char} (hm : tick ∉ m) (hn : tick ∉ n)
    (hu : Ends isBareChar u) (hv : Ends isBareChar v) (h : nameText m ++ u = nameText n ++ v) :
    m = n ∧ u = v := by
  by_cases hbm : isBare m = true
  · rw [nameText_of_bare hbm] at h
    by_cases hbn : isBare n = true
    · rw [nameText_of_bare hbn] at h
      exact run_cancel (isBare_iff.mp hbm).2 (isBare_iff.mp hbn).2 hu hv h
    · rw [nameText_of_not_bare hbn] at h
      exact absurd h (bare_ne_tick hbm)
  · rw [nameText_of_not_bare hbm] at h
    by_cases hbn : isBare n = true
    · rw [nameText_of_bare hbn] at h
      exact absurd h.symm (bare_ne_tick hbn)
    · rw [nameText_of_not_bare hbn] at h
      have hinner : m ++ tick :: u = n ++ tick :: v := by simpa using h
      have hticks : Ends (· != tick) (tick :: u) ∧ Ends (· != tick) (tick :: v) := by
        simp [ends_cons]
      have hrun := run_cancel (by simpa using fun c hc => ne_of_mem_of_not_mem hc hm)
        (by simpa using fun c hc => ne_of_mem_of_not_mem hc hn) hticks.1 hticks.2 hinner
      exact ⟨hrun.1, (List.cons.inj hrun.2).2⟩

theorem nameText_head (n : List Char) :
    ∃ c rest, nameText n = c :: rest ∧ (isBareChar c = true ∨ c = tick) := by
  by_cases hbare : isBare n = true
  · obtain ⟨hne, hall⟩ := isBare_iff.mp hbare
    obtain ⟨c, rest, rfl⟩ := List.exists_cons_of_ne_nil hne
    exact ⟨c, rest, nameText_of_bare hbare, .inl (hall c List.mem_cons_self)⟩
  · exact ⟨tick, n ++ [tick], nameText_of_not_bare hbare, .inr rfl⟩

/-- Reads an escaped value up to its closing quote: the value, and what stands behind. -/
def readValue : List Char → Option (List Char × List Char)
  | [] => none
  | '"' :: u => some ([], u)
  | '\\' :: c :: rest => (readValue rest).map fun (value, u) => (c :: value, u)
  | c :: rest => (readValue rest).map fun (value, u) => (c :: value, u)

/-- Cuts a text at its first quote that does not stand behind a backslash: a backslash is skipped
together with the character after it. -/
def cutAtQuote : List Char → Option (List Char × List Char)
  | [] => none
  | '"' :: u => some ([], u)
  | '\\' :: c :: rest => (cutAtQuote rest).map fun (inner, u) => ('\\' :: c :: inner, u)
  | c :: rest => (cutAtQuote rest).map fun (inner, u) => (c :: inner, u)

/-- Drops each backslash that stands before a character, and keeps the character. -/
def unescape : List Char → List Char
  | [] => []
  | '\\' :: c :: rest => c :: unescape rest
  | c :: rest => c :: unescape rest

theorem escapeValue_escaped {c : Char} (value : List Char) (hc : c = '"' ∨ c = '\\') :
    escapeValue (c :: value) = '\\' :: c :: escapeValue value := if_pos hc

theorem escapeValue_plain {c : Char} (value : List Char) (hc : ¬(c = '"' ∨ c = '\\')) :
    escapeValue (c :: value) = c :: escapeValue value := if_neg hc

/-- Every quote of an escaped value stands behind a backslash that hides it. -/
theorem cutAtQuote_escapeValue (value u : List Char) :
    cutAtQuote (escapeValue value ++ '"' :: u) = some (escapeValue value, u) := by
  induction value with
  | nil => rfl
  | cons c value ih =>
      by_cases hc : c = '"' ∨ c = '\\'
      · rw [escapeValue_escaped value hc, List.cons_append, List.cons_append, cutAtQuote, ih]
        rfl
      · obtain ⟨hquote, hslash⟩ := not_or.mp hc
        rw [escapeValue_plain value hc, List.cons_append, cutAtQuote, ih]
        · rfl
        · exact hquote
        · exact fun _ _ h _ => hslash h

theorem unescape_escapeValue (value : List Char) : unescape (escapeValue value) = value := by
  induction value with
  | nil => rfl
  | cons c value ih =>
      by_cases hc : c = '"' ∨ c = '\\'
      · rw [escapeValue_escaped value hc, unescape, ih]
      · rw [escapeValue_plain value hc, unescape, ih]
        exact fun _ _ h _ => hc (.inr h)

/-- Reading a value is cutting at its closing quote and taking the backslashes off what lies
before it. -/
theorem readValue_eq (text : List Char) :
    readValue text = (cutAtQuote text).map fun (inner, u) => (unescape inner, u) := by
  induction text using readValue.induct with
  | case1 => rfl
  | case2 u => rfl
  | case3 c rest ih =>
      rw [readValue, cutAtQuote, ih, Option.map_map, Option.map_map]
      rfl
  | case4 c rest hquote hslash ih =>
      rw [readValue, cutAtQuote, ih, Option.map_map, Option.map_map]
      · apply Option.map_congr
        intro (inner, u) cut
        have kept : unescape (c :: inner) = c :: unescape inner := by
          rw [unescape]
          -- a backslash at the very end has no quote behind it to cut at
          intro d more hc _
          cases rest with
          | nil => cases cut
          | cons d rest => exact hslash d rest hc rfl
        exact congrArg (·, u) kept.symm
      all_goals assumption

theorem readValue_escapeValue (value u : List Char) :
    readValue (escapeValue value ++ '"' :: u) = some (value, u) := by
  rw [readValue_eq, cutAtQuote_escapeValue]
  exact congrArg (fun inner => some (inner, u)) (unescape_escapeValue value)

theorem valueText_cancel {a b u v : List Char} (h : valueText a ++ u = valueText b ++ v) :
    a = b ∧ u = v := by
  have hinner : escapeValue a ++ '"' :: u = escapeValue b ++ '"' :: v := by
    simpa [valueText] using h
  have hread := congrArg readValue hinner
  rw [readValue_escapeValue, readValue_escapeValue] at hread
  exact Prod.mk.inj (Option.some.inj hread)

/-- A quoted value ends at its first quote that no backslash hides, whatever stands behind it, and
without its backslashes what lies between is the value again. So a text starts with one quoted
value at most. -/
theorem quoteValue_self_delimiting (v : String) :
    (∃ inner, (quoteValue v).toList = '"' :: inner ++ ['"'] ∧ unescape inner = v.toList ∧
      ∀ s, cutAtQuote (inner ++ '"' :: s) = some (inner, s)) ∧
    ∀ w s t : String, quoteValue v ++ s = quoteValue w ++ t ↔ v = w ∧ s = t := by
  refine ⟨⟨escapeValue v.toList, String.toList_ofList, unescape_escapeValue v.toList,
    cutAtQuote_escapeValue v.toList⟩, fun w s t => ?_⟩
  constructor
  · intro h
    have texts : valueText v.toList ++ s.toList = valueText w.toList ++ t.toList := by
      simpa [quoteValue] using congrArg String.toList h
    obtain ⟨hv, hs⟩ := valueText_cancel texts
    exact ⟨String.toList_inj.mp hv, String.toList_inj.mp hs⟩
  · rintro ⟨rfl, rfl⟩
    rfl

/-- Texts in a row are the first one, and each other one behind a separator. -/
theorem intercalate_cons_eq (sep first : List Char) (rest : List (List Char)) :
    sep.intercalate (first :: rest) = first ++ rest.flatMap fun t => sep ++ t := by
  induction rest generalizing first with
  | nil => simp
  | cons t rest ih => simp [List.intercalate_cons_cons, ih]

/-- The values of a list behind its first one. -/
def moreValues (vs : List String) : List Char :=
  vs.flatMap fun w => ',' :: ' ' :: valueText w.toList

theorem moreValues_cons (w : String) (vs : List String) :
    moreValues (w :: vs) = ',' :: ' ' :: (valueText w.toList ++ moreValues vs) := rfl

theorem valueList_cons (v : String) (vs : List String) :
    valueList (v :: vs) = valueText v.toList ++ moreValues vs := by
  rw [valueList, List.map_cons, intercalate_cons_eq, List.flatMap_map]
  rfl

theorem moreValues_cancel {vs ws : List String} {u v : List Char}
    (h : moreValues vs ++ ')' :: u = moreValues ws ++ ')' :: v) : vs = ws ∧ u = v := by
  induction vs generalizing ws with
  | nil =>
      cases ws with
      | nil => exact ⟨rfl, (List.cons.inj h).2⟩
      | cons w ws => simp [moreValues] at h
  | cons x vs ih =>
      cases ws with
      | nil => simp [moreValues] at h
      | cons w ws =>
          simp only [moreValues_cons, List.cons_append, List.append_assoc, List.cons.injEq,
            true_and] at h
          obtain ⟨hx, hrest⟩ := valueText_cancel h
          obtain ⟨hvs, hu⟩ := ih hrest
          exact ⟨by rw [String.toList_inj.mp hx, hvs], hu⟩

theorem valueList_cancel {vs ws : List String} {u v : List Char}
    (h : valueList vs ++ ')' :: u = valueList ws ++ ')' :: v) : vs = ws ∧ u = v := by
  cases vs with
  | nil =>
      cases ws with
      | nil => exact ⟨rfl, (List.cons.inj h).2⟩
      | cons w ws => simp [valueText, valueList] at h
  | cons x vs =>
      cases ws with
      | nil => simp [valueText, valueList] at h
      | cons w ws =>
          rw [valueList_cons, valueList_cons, List.append_assoc, List.append_assoc] at h
          obtain ⟨hx, hrest⟩ := valueText_cancel h
          obtain ⟨hvs, hu⟩ := moreValues_cancel hrest
          exact ⟨by rw [String.toList_inj.mp hx, hvs], hu⟩

/-- A quote opens a value and no name. -/
theorem valueText_ne_nameText {value n u v : List Char} :
    valueText value ++ u ≠ nameText n ++ v := by
  obtain ⟨c, rest, hname, hc⟩ := nameText_head n
  intro h
  rw [hname] at h
  have hc' : '"' = c := (List.cons.inj h).1
  subst hc'
  exact absurd hc (by decide)

theorem Term.text_cancel {s t : Term} {u v : List Char}
    (hs : ∀ n, s = .property n → tick ∉ n.toList) (ht : ∀ n, t = .property n → tick ∉ n.toList)
    (hu : Ends isBareChar u) (hv : Ends isBareChar v) (h : s.text ++ u = t.text ++ v) :
    s = t ∧ u = v := by
  cases s with
  | value a =>
      cases t with
      | value b =>
          obtain ⟨hab, hrest⟩ := valueText_cancel h
          exact ⟨by rw [String.toList_inj.mp hab], hrest⟩
      | property n => exact absurd h valueText_ne_nameText
  | property m =>
      cases t with
      | value b => exact absurd h.symm valueText_ne_nameText
      | property n =>
          obtain ⟨hmn, hrest⟩ := nameText_cancel (hs m rfl) (ht n rfl) hu hv h
          exact ⟨by rw [String.toList_inj.mp hmn], hrest⟩

end EntityClient.Filter
