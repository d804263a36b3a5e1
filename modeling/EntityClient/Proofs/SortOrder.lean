import EntityClient.Proofs.Filter.Quoting
import EntityClient.Proofs.Outcome
import EntityClient.SortOrder
import Mathlib.Data.Set.List

/-!
Sort orders, read back. A name is followed by a blank, whether it stands bare or in back-ticks, and
a direction by the end or by a comma, so the text of an order says where each property and each
direction ends, although bare names may hold commas and quoted ones anything but a back-tick.
-/

namespace EntityClient

namespace Direction

/-- The word names a direction. -/
def Known (word : String) : Prop := word = "ASC" ∨ word = "DESC"

instance : DecidablePred Known := fun word =>
  inferInstanceAs (Decidable (word = "ASC" ∨ word = "DESC"))

theorem known_iff {word : String} : Known word ↔ ∃ d : Direction, d.keyword = word := by
  constructor
  · rintro (rfl | rfl)
    · exact ⟨.ascending, rfl⟩
    · exact ⟨.descending, rfl⟩
  · rintro ⟨d, rfl⟩
    cases d with
    | ascending => exact .inl rfl
    | descending => exact .inr rfl

theorem parse_keyword (property : String) (d : Direction) :
    parse property d.keyword = .ok d := by
  cases d <;> rfl

theorem parse_of_not_known {property word : String} (unknown : ¬ Known word) :
    parse property word = .error (.sortDirection property word) := by
  obtain ⟨ascending, descending⟩ := not_or.mp unknown
  rw [parse, if_neg ascending, if_neg descending]

theorem keyword_cancel {d e : Direction} {u v : List Char}
    (h : d.keyword.toList ++ u = e.keyword.toList ++ v) : d = e ∧ u = v := by
  cases d <;> cases e <;> simp_all [keyword]

end Direction

open EntityClient.Filter

namespace SortOrder

/-- A pair as it is given. -/
def given (e : String × Direction) : String × String := (e.1, e.2.keyword)

/-- The text of an order. -/
def text (pairs : List (String × Direction)) : List Char :=
  [',', ' '].intercalate (pairs.map fun e => itemText e.1 e.2)

/-- The items of an order behind its first one. -/
def moreItems (pairs : List (String × Direction)) : List Char :=
  pairs.flatMap fun e => ',' :: ' ' :: itemText e.1 e.2

theorem text_cons (e : String × Direction) (pairs : List (String × Direction)) :
    text (e :: pairs) = itemText e.1 e.2 ++ moreItems pairs := by
  rw [text, List.map_cons, intercalate_cons_eq, List.flatMap_map]
  rfl

theorem moreItems_cons (e : String × Direction) (pairs : List (String × Direction)) :
    moreItems (e :: pairs) = ',' :: ' ' :: (itemText e.1 e.2 ++ moreItems pairs) := rfl

theorem text_eq_nil_iff {pairs : List (String × Direction)} : text pairs = [] ↔ pairs = [] := by
  cases pairs with
  | nil => exact iff_of_true rfl rfl
  | cons e rest =>
      rw [text_cons]
      simp [itemText]

/-! Rendering -/

/-- The text of one pair, if its direction is known. -/
def item (e : String × String) : Except Failure (List Char) :=
  (Direction.parse e.1 e.2).map (itemText e.1)

theorem render_eq (order : List (String × String)) :
    render order =
      (order.mapM item).map fun items => String.ofList ([',', ' '].intercalate items) := by
  have step (e : String × String) :
      (do return itemText e.1 (← Direction.parse e.1 e.2)) = item e := by
    rw [item]
    cases Direction.parse e.1 e.2 <;> rfl
  simp only [render, step]
  cases order.mapM item <;> rfl

theorem render_given (pairs : List (String × Direction)) :
    render (pairs.map given) = .ok (String.ofList (text pairs)) := by
  have row : (pairs.map given).mapM item = .ok (pairs.map fun e => itemText e.1 e.2) := by
    rw [mapM_eq_ok_iff, List.forall₂_map_left_iff, List.forall₂_map_right_iff]
    refine List.forall₂_same.mpr fun e _ => ?_
    rw [item, given, Direction.parse_keyword]
    rfl
  rw [render_eq, row]
  rfl

theorem exists_given_iff {order : List (String × String)} :
    (∃ pairs, List.map given pairs = order) ↔ ∀ e ∈ order, Direction.Known e.2 := by
  have pairs := Set.range_list_map given
  rw [← Set.mem_range, pairs, Set.mem_ofPred_eq]
  refine forall₂_congr fun e _ => ?_
  rw [Direction.known_iff, Set.mem_range, Prod.exists]
  simp [given, Prod.ext_iff]

theorem item_refused_iff {e : String × String} :
    (∀ t, item e ≠ .ok t) ↔ ¬ Direction.Known e.2 := by
  rw [item]
  constructor
  · intro none known
    obtain ⟨d, hd⟩ := Direction.known_iff.mp known
    rw [← hd, Direction.parse_keyword] at none
    exact none _ rfl
  · intro unknown
    rw [Direction.parse_of_not_known unknown]
    exact nofun

theorem render_of_first {order : List (String × String)} {e : String × String}
    (first : First (fun e => ¬ Direction.Known e.2) order e) :
    render order = .error (.sortDirection e.1 e.2) := by
  have row : order.mapM item = .error (.sortDirection e.1 e.2) := by
    refine mapM_eq_error_iff.mpr ⟨e, (first_congr fun _ _ => item_refused_iff).mpr first, ?_⟩
    rw [item, Direction.parse_of_not_known first.holds]
    rfl
  rw [render_eq, row]
  rfl

/-- A known order has a text, which is empty just for the empty order. -/
theorem render_of_known {order : List (String × String)}
    (known : ∀ e ∈ order, Direction.Known e.2) :
    ∃ t, render order = .ok t ∧ (t = "" ↔ order = []) := by
  obtain ⟨pairs, rfl⟩ := exists_given_iff.mpr known
  refine ⟨_, render_given pairs, ?_⟩
  rw [List.map_eq_nil_iff, ← text_eq_nil_iff]
  exact ⟨fun empty => String.ofList_injective empty, fun none => by rw [none]⟩

/-! Reading back -/

theorem itemText_cancel {p q : String} {d d' : Direction} {u v : List Char}
    (hp : tick ∉ p.toList) (hq : tick ∉ q.toList)
    (h : itemText p d ++ u = itemText q d' ++ v) : p = q ∧ d = d' ∧ u = v := by
  have blank (w : List Char) : Ends isBareChar (' ' :: w) := ends_cons.mpr (by decide)
  simp only [itemText, List.append_assoc, List.cons_append] at h
  obtain ⟨name, behind⟩ := nameText_cancel hp hq (blank _) (blank _) h
  obtain ⟨direction, rest⟩ := Direction.keyword_cancel (List.cons.inj behind).2
  exact ⟨String.toList_inj.mp name, direction, rest⟩

/-- No name of the order holds a back-tick. -/
def TickFree (names : List String) : Prop := ∀ n ∈ names, tick ∉ n.toList

instance : DecidablePred TickFree := fun names =>
  inferInstanceAs (Decidable (∀ n ∈ names, tick ∉ n.toList))

variable {pairs pairs' : List (String × Direction)}

theorem moreItems_injective (ticks : TickFree (pairs.map Prod.fst))
    (ticks' : TickFree (pairs'.map Prod.fst)) (h : moreItems pairs = moreItems pairs') :
    pairs = pairs' := by
  induction pairs generalizing pairs' with
  | nil =>
      cases pairs' with
      | nil => rfl
      | cons e' rest' => cases h
  | cons e rest ih =>
      cases pairs' with
      | nil => cases h
      | cons e' rest' =>
          obtain ⟨he, hrest⟩ := List.forall_mem_cons.mp ticks
          obtain ⟨he', hrest'⟩ := List.forall_mem_cons.mp ticks'
          simp only [moreItems_cons, List.cons.injEq, true_and] at h
          obtain ⟨name, direction, more⟩ := itemText_cancel he he' h
          rw [Prod.ext name direction, ih hrest hrest' more]

theorem text_injective (ticks : TickFree (pairs.map Prod.fst))
    (ticks' : TickFree (pairs'.map Prod.fst)) (h : text pairs = text pairs') :
    pairs = pairs' := by
  cases pairs with
  | nil => exact (text_eq_nil_iff.mp h.symm).symm
  | cons e rest =>
      cases pairs' with
      | nil => exact text_eq_nil_iff.mp h
      | cons e' rest' =>
          -- behind a separator the two texts are the further items of an order
          refine moreItems_injective ticks ticks' ?_
          rw [text_cons, text_cons] at h
          rw [moreItems_cons, moreItems_cons, h]

/-- An order has a text just if every direction in it is a known word, and is refused with the
first pair whose direction is none. Two orders without back-ticks in names have the same text only
if they are the same pairs in the same order, whatever else their names hold. -/
theorem render_faithful (order : List (String × String)) :
    ((∃ t, render order = .ok t) ↔ ∀ e ∈ order, Direction.Known e.2) ∧
      (∀ x, render order = .error x ↔
        ∃ e, First (fun e => ¬ Direction.Known e.2) order e ∧ x = .sortDirection e.1 e.2) ∧
      (TickFree (order.map Prod.fst) → ∀ order' t, TickFree (order'.map Prod.fst) →
        render order = .ok t → render order' = .ok t → order = order') := by
  have decided (order : List (String × String)) :=
    outcome_by_first (r := render order) (f := fun e => Failure.sortDirection e.1 e.2)
      (fun known => (render_of_known fun e mem => not_not.mp (known e mem)).imp fun _ => And.left)
      fun e first => render_of_first first
  have accepted (order : List (String × String)) :
      (∃ t, render order = .ok t) ↔ ∀ e ∈ order, Direction.Known e.2 := by
    rw [(decided order).2]
    exact forall₂_congr fun e _ => not_not
  refine ⟨accepted order, (decided order).1, fun ticks order' t ticks' rendered rendered' => ?_⟩
  obtain ⟨pairs, rfl⟩ := exists_given_iff.mpr ((accepted order).mp ⟨t, rendered⟩)
  obtain ⟨pairs', rfl⟩ := exists_given_iff.mpr ((accepted order').mp ⟨t, rendered'⟩)
  rw [render_given] at rendered rendered'
  have same : text pairs = text pairs' :=
    String.ofList_injective ((Except.ok.inj rendered).trans (Except.ok.inj rendered').symm)
  have names (pairs : List (String × Direction)) :
      (pairs.map given).map Prod.fst = pairs.map Prod.fst := List.map_map
  rw [names] at ticks ticks'
  rw [text_injective ticks ticks' same]

/-- One name that spells the order by two names, commas and directions included. -/
theorem render_faithful_spelled :
    let order := [("a,b ASC, c", "DESC")]
    let order' := [("a,b", "ASC"), ("c", "DESC")]
    (TickFree (order.map Prod.fst) ∧ TickFree (order'.map Prod.fst)) ∧
      ∃ t t', render order = .ok t ∧ render order' = .ok t' ∧ t ≠ t' := by
  intro order order'
  have ticks : TickFree (order.map Prod.fst) := by decide
  have ticks' : TickFree (order'.map Prod.fst) := by decide
  obtain ⟨t, rendered⟩ := (render_faithful order).1.mpr (by decide)
  obtain ⟨t', rendered'⟩ := (render_faithful order').1.mpr (by decide)
  refine ⟨⟨ticks, ticks'⟩, t, t', rendered, rendered', fun same => ?_⟩
  have equal : order = order' :=
    (render_faithful order).2.2 ticks order' t ticks' rendered (same ▸ rendered')
  exact absurd equal (by decide)

end SortOrder
end EntityClient
