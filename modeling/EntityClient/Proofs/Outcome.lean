import Mathlib.Data.List.Forall2

/-!
Outcomes of steps that may fail: what the success or the failure of two steps, or of a row of them,
says about each.
-/

namespace EntityClient

variable {ε α β : Type}

theorem exists_of_bind_ok {a : Except ε α} {f : α → Except ε β} {y : β}
    (h : (a >>= f) = .ok y) : ∃ x, a = .ok x ∧ f x = .ok y := by
  cases a with
  | error e => cases h
  | ok x => exact ⟨x, rfl, h⟩

theorem bind_eq_error_iff {a : Except ε α} {f : α → Except ε β} {e : ε} :
    (a >>= f) = .error e ↔ a = .error e ∨ ∃ x, a = .ok x ∧ f x = .error e := by
  cases a with
  | error e' => simp [bind, Except.bind]
  | ok x => simp [bind, Except.bind]

/-- A step fails unless it succeeds. -/
theorem exists_error_iff {r : Except ε α} : (∃ e, r = .error e) ↔ ∀ x, r ≠ .ok x := by
  cases r <;> simp

theorem eq_of_map_eq {f : α → β} (hf : ∀ x y, f x = f y → x = y) {r r' : Except ε α}
    (h : r.map f = r'.map f) : r = r' := by
  cases r with
  | error e =>
      cases r' with
      | error e' => exact congrArg Except.error (Except.error.inj h)
      | ok x => cases h
  | ok x =>
      cases r' with
      | error e' => cases h
      | ok x' => exact congrArg Except.ok (hf x x' (Except.ok.inj h))

/-! Rows, related place by place -/

section Rows

variable {R : α → β → Prop} {l : List α} {ys : List β}

theorem exists_of_forall₂_right (h : List.Forall₂ R l ys) {y : β} (mem : y ∈ ys) :
    ∃ x ∈ l, R x y := by
  induction h with
  | nil => cases mem
  | @cons x z rest zs hx _ ih =>
      cases List.mem_cons.mp mem with
      | inl heq => exact ⟨x, List.mem_cons_self, heq ▸ hx⟩
      | inr later =>
          obtain ⟨x', hmem, hx'⟩ := ih later
          exact ⟨x', List.mem_cons_of_mem x hmem, hx'⟩

theorem exists_of_forall₂_left (h : List.Forall₂ R l ys) {x : α} (mem : x ∈ l) :
    ∃ y ∈ ys, R x y :=
  exists_of_forall₂_right (R := flip R) (List.Forall₂.flip h) mem

/-- A row has a counterpart if each of its places has one. -/
theorem exists_forall₂_iff : (∃ ys, List.Forall₂ R l ys) ↔ ∀ x ∈ l, ∃ y, R x y := by
  constructor
  · rintro ⟨ys, h⟩ x mem
    obtain ⟨y, -, hy⟩ := exists_of_forall₂_left h mem
    exact ⟨y, hy⟩
  · intro all
    induction l with
    | nil => exact ⟨[], .nil⟩
    | cons x rest ih =>
        obtain ⟨y, hy⟩ := all x List.mem_cons_self
        obtain ⟨ys, h⟩ := ih fun x' mem => all x' (List.mem_cons_of_mem x mem)
        exact ⟨y :: ys, .cons hy h⟩

/-- What is related entry by entry, each under its own key, has the same keys. -/
theorem keys_eq_of_forall₂ {κ : Type} {R : κ × α → κ × β → Prop} {l : List (κ × α)}
    {m : List (κ × β)} (h : List.Forall₂ R l m) (keyed : ∀ x y, R x y → x.1 = y.1) :
    m.map Prod.fst = l.map Prod.fst := by
  rw [eq_comm, ← List.forall₂_eq_eq_eq, List.forall₂_map_left_iff, List.forall₂_map_right_iff]
  exact h.imp keyed

end Rows

/-! The first of a list -/

/-- The first element of the list that has the property. -/
def First (P : α → Prop) (l : List α) (x : α) : Prop :=
  ∃ before after, l = before ++ x :: after ∧ (∀ y ∈ before, ¬ P y) ∧ P x

section First

variable {P Q : α → Prop} {l m : List α} {x y : α}

theorem First.holds (first : First P l x) : P x := first.choose_spec.choose_spec.2.2

theorem First.mem (first : First P l x) : x ∈ l := by
  obtain ⟨before, after, rfl, -⟩ := first
  exact List.mem_append_right before List.mem_cons_self

theorem not_first_nil : ¬ First P [] x := fun first => List.not_mem_nil first.mem

theorem first_cons : First P (y :: l) x ↔ P y ∧ x = y ∨ ¬ P y ∧ First P l x := by
  constructor
  · rintro ⟨before, after, split, earlier, hx⟩
    cases before with
    | nil =>
        obtain ⟨rfl, -⟩ := List.cons.inj split
        exact .inl ⟨hx, rfl⟩
    | cons z before =>
        obtain ⟨rfl, rfl⟩ := List.cons.inj split
        have hy : ¬ P y := earlier y List.mem_cons_self
        exact .inr ⟨hy, before, after, rfl, fun w mem => earlier w (List.mem_cons_of_mem y mem), hx⟩
  · rintro (⟨hy, rfl⟩ | ⟨hy, before, after, rfl, earlier, hx⟩)
    · exact ⟨[], l, rfl, List.forall_mem_nil _, hy⟩
    · exact ⟨y :: before, after, rfl, List.forall_mem_cons.mpr ⟨hy, earlier⟩, hx⟩

theorem first_append :
    First P (l ++ m) x ↔ First P l x ∨ (∀ y ∈ l, ¬ P y) ∧ First P m x := by
  induction l with
  | nil => simp [not_first_nil]
  | cons y l ih =>
      rw [List.cons_append, first_cons, ih, first_cons, List.forall_mem_cons]
      tauto

/-- If some element has the property, there is a first one. -/
theorem exists_first_iff : (∃ x, First P l x) ↔ ∃ x ∈ l, P x := by
  constructor
  · rintro ⟨x, first⟩
    exact ⟨x, first.mem, first.holds⟩
  · intro present
    induction l with
    | nil =>
        obtain ⟨x, mem, -⟩ := present
        cases mem
    | cons y l ih =>
        by_cases hy : P y
        · exact ⟨y, first_cons.mpr (.inl ⟨hy, rfl⟩)⟩
        · obtain ⟨x, mem, hx⟩ := present
          have later : x ∈ l := by
            cases List.mem_cons.mp mem with
            | inl same => exact absurd (same ▸ hx) hy
            | inr later => exact later
          obtain ⟨z, first⟩ := ih ⟨x, later, hx⟩
          exact ⟨z, first_cons.mpr (.inr ⟨hy, first⟩)⟩

theorem first_congr (same : ∀ y ∈ l, P y ↔ Q y) : First P l x ↔ First Q l x := by
  induction l with
  | nil => exact iff_of_false not_first_nil not_first_nil
  | cons y l ih =>
      rw [first_cons, first_cons, same y List.mem_cons_self,
        ih fun z mem => same z (List.mem_cons_of_mem y mem)]

/-- What fails with the first element that has the property, and succeeds if none has, fails just
with that and succeeds just then. -/
theorem outcome_by_first {r : Except ε β} {f : α → ε}
    (succeeds : (∀ x ∈ l, ¬ P x) → ∃ y, r = .ok y)
    (fails : ∀ x, First P l x → r = .error (f x)) :
    (∀ e, r = .error e ↔ ∃ x, First P l x ∧ e = f x) ∧
      ((∃ y, r = .ok y) ↔ ∀ x ∈ l, ¬ P x) := by
  by_cases present : ∃ x ∈ l, P x
  · obtain ⟨x, first⟩ := exists_first_iff.mpr present
    have failed := fails x first
    refine ⟨fun e => ⟨fun h => ?_, ?_⟩, ?_⟩
    · rw [failed] at h
      exact ⟨x, first, (Except.error.inj h).symm⟩
    · rintro ⟨z, first', rfl⟩
      exact fails z first'
    · refine iff_of_false (by simp [failed]) fun none => ?_
      exact none x first.mem first.holds
  · have none : ∀ x ∈ l, ¬ P x := fun x mem hx => present ⟨x, mem, hx⟩
    obtain ⟨y, ok⟩ := succeeds none
    refine ⟨fun e => iff_of_false (by simp [ok]) ?_, iff_of_true ⟨y, ok⟩ none⟩
    rintro ⟨x, first, -⟩
    exact none x first.mem first.holds

end First

/-- A row succeeds if all its steps do. -/
theorem mapM_eq_ok_iff {f : α → Except ε β} {l : List α} {ys : List β} :
    l.mapM f = .ok ys ↔ List.Forall₂ (fun x y => f x = .ok y) l ys := by
  induction l generalizing ys with
  | nil =>
      rw [List.forall₂_nil_left_iff]
      exact ⟨fun h => (Except.ok.inj h).symm, fun h => h ▸ rfl⟩
  | cons x rest ih =>
      rw [List.mapM_cons, List.forall₂_cons_left_iff]
      constructor
      · intro h
        obtain ⟨y, hx, h⟩ := exists_of_bind_ok h
        obtain ⟨zs, hrest, h⟩ := exists_of_bind_ok h
        cases h
        exact ⟨y, zs, hx, ih.mp hrest, rfl⟩
      · rintro ⟨y, zs, hx, hrest, rfl⟩
        rw [hx, ih.mpr hrest]
        rfl

/-- A row fails with its first step that fails. -/
theorem mapM_eq_error_iff {f : α → Except ε β} {l : List α} {e : ε} :
    l.mapM f = .error e ↔ ∃ x, First (fun x => ∀ y, f x ≠ .ok y) l x ∧ f x = .error e := by
  induction l with
  | nil =>
      refine iff_of_false (fun h => nomatch h) ?_
      rintro ⟨x, first, -⟩
      exact not_first_nil first
  | cons x rest ih =>
      rw [List.mapM_cons]
      simp only [bind_eq_error_iff, ih, first_cons]
      cases hx : f x with
      | error e' => simp [hx]
      | ok y => simp [pure, Except.pure]

/-! Exact outcomes -/

/-- The step gives the results that are told by `Form`, and fails as is told by `Fault`. -/
structure Exact (r : Except ε α) (Form : α → Prop) (Fault : ε → Prop) : Prop where
  ok_iff : ∀ x, r = .ok x ↔ Form x
  error_iff : ∀ e, r = .error e ↔ Fault e

section Exact

variable {r : Except ε α} {Form : α → Prop} {Fault : ε → Prop}

/-- It is enough that there is a form or a fault, and that the step goes by it. -/
theorem exact_of_total (form : ∀ x, Form x → r = .ok x) (fault : ∀ e, Fault e → r = .error e)
    (total : (∃ x, Form x) ∨ ∃ e, Fault e) : Exact r Form Fault := by
  obtain ⟨x, hx⟩ | ⟨e, he⟩ := total
  · have ok := form x hx
    refine ⟨fun y => ⟨fun h => ?_, form y⟩, fun e => ⟨fun h => ?_, fault e⟩⟩
    · rw [ok] at h
      exact Except.ok.inj h ▸ hx
    · rw [ok] at h
      cases h
  · have failed := fault e he
    refine ⟨fun y => ⟨fun h => ?_, form y⟩, fun e' => ⟨fun h => ?_, fault e'⟩⟩
    · rw [failed] at h
      cases h
    · rw [failed] at h
      exact Except.error.inj h ▸ he

theorem Exact.total (exact : Exact r Form Fault) : (∃ x, Form x) ∨ ∃ e, Fault e := by
  cases h : r with
  | ok x => exact .inl ⟨x, (exact.ok_iff x).mp h⟩
  | error e => exact .inr ⟨e, (exact.error_iff e).mp h⟩

theorem Exact.fails_iff (exact : Exact r Form Fault) : (∀ x, r ≠ .ok x) ↔ ∀ x, ¬ Form x :=
  forall_congr' fun x => not_congr (exact.ok_iff x)

/-- A row of exact steps gives a form for each, or fails with the first that has none. -/
theorem Exact.row {f : α → Except ε β} {Form : α → β → Prop} {Fault : α → ε → Prop}
    (exact : ∀ x, Exact (f x) (Form x) (Fault x)) (l : List α) :
    Exact (l.mapM f) (List.Forall₂ Form l)
      fun e => ∃ x, First (fun x => ∀ y, ¬ Form x y) l x ∧ Fault x e where
  ok_iff ys := by
    rw [mapM_eq_ok_iff]
    simp only [(exact _).ok_iff]
  error_iff e := by
    rw [mapM_eq_error_iff]
    simp only [(exact _).fails_iff, (exact _).error_iff]

theorem Exact.keyed {κ : Type} (exact : Exact r Form Fault) (k : κ) :
    Exact (r.map fun x => (k, x)) (fun y => k = y.1 ∧ Form y.2) Fault := by
  refine exact_of_total ?_ ?_ ?_
  · rintro ⟨k', x⟩ ⟨rfl, form⟩
    rw [(exact.ok_iff x).mpr form]
    rfl
  · intro e fault
    rw [(exact.error_iff e).mpr fault]
    rfl
  · obtain ⟨x, form⟩ | fails := exact.total
    · exact .inl ⟨(k, x), rfl, form⟩
    · exact .inr fails

/-- A row of entries, each read under its own key. -/
theorem Exact.entries {κ : Type} {f : κ × α → Except ε β} {Form : κ × α → β → Prop}
    {Fault : κ × α → ε → Prop} (exact : ∀ e, Exact (f e) (Form e) (Fault e))
    (l : List (κ × α)) :
    Exact (l.mapM fun e => (f e).map fun y => (e.1, y))
      (List.Forall₂ (fun e y => e.1 = y.1 ∧ Form e y.2) l)
      fun x => ∃ e, First (fun e => ∀ y, ¬ Form e y) l e ∧ Fault e x := by
  have unkeyed (e : κ × α) :
      (∀ y : κ × β, ¬ (e.1 = y.1 ∧ Form e y.2)) ↔ ∀ y, ¬ Form e y :=
    ⟨fun none y form => none (e.1, y) ⟨rfl, form⟩, fun none y form => none y.2 form.2⟩
  have row := Exact.row (fun e => (exact e).keyed e.1) l
  simpa only [unkeyed] using row

end Exact

/-- A row succeeds with what each of its steps gives. -/
theorem mapM_eq_ok {f : α → Except ε β} {g : β → α} {l : List β} (h : ∀ y ∈ l, f (g y) = .ok y) :
    (l.map g).mapM f = .ok l := by
  rw [mapM_eq_ok_iff, List.forall₂_map_left_iff]
  exact List.forall₂_same.mpr h

theorem exists_of_mapM_ok {f : α → Except ε β} {l : List α} {ys : List β} {y : β}
    (h : l.mapM f = .ok ys) (mem : y ∈ ys) : ∃ x ∈ l, f x = .ok y :=
  exists_of_forall₂_right (mapM_eq_ok_iff.mp h) mem

theorem forM_eq_ok {f : α → Except ε PUnit} {l : List α} (h : ∀ x ∈ l, f x = .ok ⟨⟩) :
    l.forM f = .ok ⟨⟩ := by
  induction l with
  | nil => rfl
  | cons x rest ih =>
      have hrest : rest.forM f = .ok ⟨⟩ := ih fun y hy => h y (List.mem_cons_of_mem x hy)
      rw [List.forM_eq_forM] at hrest ⊢
      rw [List.forM_cons, h x List.mem_cons_self]
      exact hrest

end EntityClient
