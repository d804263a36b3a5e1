/-!
Finite maps held as lists in increasing key order, each key once. The order is part of the
type, so maps that answer every look-up alike are equal (`ext_get?`) and no iteration sorts.
Main statements: what `insert` and `erase` do to `get?`.
-/

namespace EntityClient

universe u v w

/-- A map from `κ` to `α`, in increasing key order. -/
structure SortedMap (κ : Type u) (α : Type v) [Ord κ] where
  entries : List (κ × α)
  increasing : (entries.map Prod.fst).Pairwise (fun a b => compare a b = .lt)
deriving DecidableEq

namespace SortedMap

section Lists

variable {κ : Type u} {α : Type v} [Ord κ]

/-- The value of the first entry whose key compares equal. -/
def lookup (k : κ) : List (κ × α) → Option α
  | [] => none
  | (k', v) :: rest => if compare k k' = .eq then some v else lookup k rest

/-- Puts an entry at its place, over an entry with the same key. -/
def place (k : κ) (v : α) : List (κ × α) → List (κ × α)
  | [] => [(k, v)]
  | (k', v') :: rest =>
      match compare k k' with
      | .lt => (k, v) :: (k', v') :: rest
      | .eq => (k, v) :: rest
      | .gt => (k', v') :: place k v rest

theorem forall_key_place {P : κ → Prop} {k : κ} (v : α) {l : List (κ × α)} (hk : P k)
    (hl : ∀ x ∈ l.map Prod.fst, P x) : ∀ x ∈ (place k v l).map Prod.fst, P x := by
  induction l with
  | nil => simpa [place] using hk
  | cons e rest ih =>
      obtain ⟨k', v'⟩ := e
      have hrest : ∀ x ∈ rest.map Prod.fst, P x := fun x hx => hl x (by simp [hx])
      have hk' : P k' := hl k' (by simp)
      simp only [place]
      split
      · simpa [hk, hk'] using hrest
      · simpa [hk] using hrest
      · simpa [hk'] using ih hrest

theorem mem_place {k : κ} {v : α} {l : List (κ × α)} {e : κ × α} (h : e ∈ place k v l) :
    e = (k, v) ∨ e ∈ l := by
  induction l with
  | nil => simpa [place] using h
  | cons e' rest ih =>
      obtain ⟨k', v'⟩ := e'
      simp only [place] at h
      split at h
      · simpa using h
      · rcases List.mem_cons.1 h with rfl | h <;> simp_all
      · rcases List.mem_cons.1 h with rfl | h
        · simp
        · rcases ih h with rfl | h <;> simp_all

/-- An entry whose key is larger than all others has its place at the end. -/
theorem place_last [Std.OrientedOrd κ] {k : κ} (v : α) {l : List (κ × α)}
    (h : ∀ x ∈ l.map Prod.fst, compare x k = .lt) : place k v l = l ++ [(k, v)] := by
  induction l with
  | nil => rfl
  | cons e rest ih =>
      obtain ⟨k', v'⟩ := e
      have hgt : compare k k' = .gt := Std.OrientedCmp.gt_iff_lt.2 (h k' (by simp))
      simp only [place, hgt, ih fun x hx => h x (by simp [hx]), List.cons_append]

variable [Std.LawfulEqOrd κ]

theorem increasing_place [Std.TransOrd κ] (k : κ) (v : α) {l : List (κ × α)}
    (h : (l.map Prod.fst).Pairwise (fun a b => compare a b = .lt)) :
    ((place k v l).map Prod.fst).Pairwise (fun a b => compare a b = .lt) := by
  induction l with
  | nil => simp [place]
  | cons e rest ih =>
      obtain ⟨k', v'⟩ := e
      obtain ⟨hhead, htail⟩ := List.pairwise_cons.1 h
      simp only [place]
      split
      next hlt =>
        refine List.pairwise_cons.2 ⟨fun x hx => ?_, h⟩
        rcases List.mem_cons.1 hx with rfl | hx
        · exact hlt
        · exact Std.TransCmp.lt_trans hlt (hhead x hx)
      next heq =>
        cases Std.LawfulEqCmp.eq_of_compare heq
        exact List.pairwise_cons.2 ⟨hhead, htail⟩
      next hgt =>
        exact List.pairwise_cons.2
          ⟨forall_key_place v (Std.OrientedCmp.gt_iff_lt.1 hgt) hhead, ih htail⟩

theorem lookup_place [DecidableEq κ] (k : κ) (v : α) (l : List (κ × α)) (x : κ) :
    lookup x (place k v l) = if x = k then some v else lookup x l := by
  induction l with
  | nil => simp [place, lookup]
  | cons e rest ih =>
      obtain ⟨k', v'⟩ := e
      simp only [place]
      split
      next => simp [lookup]
      next heq =>
        cases Std.LawfulEqCmp.eq_of_compare heq
        simp only [lookup, Std.compare_eq_iff_eq]
        split <;> rfl
      next hgt =>
        simp only [lookup, Std.compare_eq_iff_eq, ih]
        by_cases hx : x = k'
        · subst hx
          have hne : x ≠ k := by rintro rfl; simp at hgt
          simp [hne]
        · simp [hx]

theorem lookup_eq_some_iff {k : κ} {v : α} {l : List (κ × α)}
    (h : (l.map Prod.fst).Pairwise (fun a b => compare a b = .lt)) :
    lookup k l = some v ↔ (k, v) ∈ l := by
  induction l with
  | nil => simp [lookup]
  | cons e rest ih =>
      obtain ⟨k', v'⟩ := e
      obtain ⟨hhead, htail⟩ := List.pairwise_cons.1 h
      simp only [lookup, Std.compare_eq_iff_eq, List.mem_cons, Prod.mk.injEq]
      by_cases hk : k = k'
      · subst hk
        have hout : (k, v) ∉ rest := fun hmem => by
          have := hhead k (List.mem_map.2 ⟨_, hmem, rfl⟩)
          simp at this
        simp [hout, eq_comm]
      · simp [hk, ih htail]

theorem lookup_filter_ne [DecidableEq κ] (k x : κ) (l : List (κ × α)) :
    lookup x (l.filter fun e => compare k e.1 != .eq) = if x = k then none else lookup x l := by
  induction l with
  | nil => simp [lookup]
  | cons e rest ih =>
      obtain ⟨k', v'⟩ := e
      by_cases hk : k = k'
      · subst hk
        by_cases hx : x = k
        · simpa [hx] using ih
        · simp [lookup, ih, hx]
      · by_cases hx : x = k
        · subst hx; simp [lookup, ih, hk]
        · simp [lookup, ih, hk, hx]

private theorem eq_of_mem_iff [Std.TransOrd κ] {l m : List (κ × α)}
    (hl : (l.map Prod.fst).Pairwise (fun a b => compare a b = .lt))
    (hm : (m.map Prod.fst).Pairwise (fun a b => compare a b = .lt))
    (h : ∀ e, e ∈ l ↔ e ∈ m) : l = m := by
  have order {l : List (κ × α)}
      (hl : (l.map Prod.fst).Pairwise (fun a b => compare a b = .lt)) :
      l.Pairwise (fun a b => compare a.1 b.1 = .lt) := List.pairwise_map.1 hl
  refine List.Perm.eq_of_pairwise (fun a b _ _ hab hba => ?_) (order hl) (order hm) ?_
  · have := Std.TransCmp.lt_trans hab hba
    simp at this
  · have nodup {l : List (κ × α)}
        (hl : (l.map Prod.fst).Pairwise (fun a b => compare a b = .lt)) : l.Nodup :=
      (order hl).imp fun {a b} hab heq => by subst heq; simp at hab
    exact (List.perm_ext_iff_of_nodup (nodup hl) (nodup hm)).2 h

end Lists

section Maps

variable {κ : Type u} {α : Type v} {β : Type w} [Ord κ]

/-- The map without entries. -/
def empty : SortedMap κ α := ⟨[], .nil⟩

instance : Inhabited (SortedMap κ α) := ⟨empty⟩

def get? (m : SortedMap κ α) (k : κ) : Option α := lookup k m.entries

def contains (m : SortedMap κ α) (k : κ) : Bool := (m.get? k).isSome

def size (m : SortedMap κ α) : Nat := m.entries.length

def isEmpty (m : SortedMap κ α) : Bool := m.entries.isEmpty

def keys (m : SortedMap κ α) : List κ := m.entries.map Prod.fst

def values (m : SortedMap κ α) : List α := m.entries.map Prod.snd

/-- Drops the entry of `k`, if there is one. -/
def erase (m : SortedMap κ α) (k : κ) : SortedMap κ α where
  entries := m.entries.filter fun e => compare k e.1 != .eq
  increasing := m.increasing.sublist (List.filter_sublist.map _)

def map (f : α → β) (m : SortedMap κ α) : SortedMap κ β where
  entries := m.entries.map fun e => (e.1, f e.2)
  increasing := by simpa [Function.comp_def] using m.increasing

@[simp]
theorem get?_empty (k : κ) : (empty : SortedMap κ α).get? k = none := rfl

theorem length_keys (m : SortedMap κ α) : m.keys.length = m.size := List.length_map _

variable [Std.LawfulEqOrd κ]

@[simp]
theorem get?_erase [DecidableEq κ] (m : SortedMap κ α) (k x : κ) :
    (m.erase k).get? x = if x = k then none else m.get? x :=
  lookup_filter_ne k x m.entries

theorem get?_eq_some_iff {m : SortedMap κ α} {k : κ} {v : α} :
    m.get? k = some v ↔ (k, v) ∈ m.entries :=
  lookup_eq_some_iff m.increasing

theorem mem_keys_iff {m : SortedMap κ α} {k : κ} : k ∈ m.keys ↔ m.contains k = true := by
  simp [keys, contains, Option.isSome_iff_exists, get?_eq_some_iff]

theorem nodup_keys (m : SortedMap κ α) : m.keys.Nodup :=
  m.increasing.imp fun {a b} before heq => by
    subst heq
    simp at before

theorem keys_erase [DecidableEq κ] (m : SortedMap κ α) (k : κ) :
    (m.erase k).keys = m.keys.erase k := by
  rw [m.nodup_keys.erase_eq_filter, keys, keys, List.filter_map]
  refine congrArg (List.map Prod.fst) (List.filter_congr fun e _ => ?_)
  rw [Bool.eq_iff_iff]
  simp only [Function.comp_apply, bne_iff_ne, ne_eq, Std.compare_eq_iff_eq]
  exact not_congr eq_comm

theorem size_erase_of_contains [DecidableEq κ] {m : SortedMap κ α} {k : κ}
    (h : m.contains k = true) : (m.erase k).size + 1 = m.size := by
  have mem : k ∈ m.keys := mem_keys_iff.mpr h
  rw [← length_keys, ← length_keys, keys_erase, List.length_erase_of_mem mem]
  exact Nat.sub_add_cancel (List.length_pos_of_mem mem)

variable [Std.TransOrd κ]

/-- Adds an entry, over an entry with the same key. -/
def insert (m : SortedMap κ α) (k : κ) (v : α) : SortedMap κ α :=
  ⟨place k v m.entries, increasing_place k v m.increasing⟩

/-- The map of a list of entries; of entries with one key the last counts. -/
def ofList (l : List (κ × α)) : SortedMap κ α :=
  l.foldl (fun m e => m.insert e.1 e.2) empty

@[simp]
theorem get?_insert [DecidableEq κ] (m : SortedMap κ α) (k : κ) (v : α) (x : κ) :
    (m.insert k v).get? x = if x = k then some v else m.get? x :=
  lookup_place k v m.entries x

private theorem entries_foldl_insert (m : SortedMap κ α) {l : List (κ × α)}
    (h : ((m.entries ++ l).map Prod.fst).Pairwise (fun a b => compare a b = .lt)) :
    (l.foldl (fun m e => m.insert e.1 e.2) m).entries = m.entries ++ l := by
  induction l generalizing m with
  | nil => simp
  | cons e rest ih =>
      have hlast : ∀ x ∈ m.entries.map Prod.fst, compare x e.1 = .lt := by
        rw [List.map_append] at h
        exact fun x hx => (List.pairwise_append.1 h).2.2 x hx e.1 (by simp)
      have hm : (m.insert e.1 e.2).entries = m.entries ++ [e] := place_last e.2 hlast
      rw [List.foldl_cons, ih (m.insert e.1 e.2) (by rw [hm]; simpa using h), hm]
      simp

/-- A map takes over entries that are in order. -/
theorem entries_ofList {l : List (κ × α)}
    (h : (l.map Prod.fst).Pairwise (fun a b => compare a b = .lt)) : (ofList l).entries = l :=
  entries_foldl_insert empty h

theorem ofList_entries (m : SortedMap κ α) : ofList m.entries = m := by
  obtain ⟨l, h⟩ := m
  have heq : (ofList l).entries = l := entries_ofList h
  generalize ofList l = n at heq
  subst heq
  rfl

private theorem get?_foldl_insert_iff [DecidableEq κ] (m : SortedMap κ α) {l : List (κ × α)}
    {k : κ} {v : α} :
    (l.foldl (fun m e => m.insert e.1 e.2) m).get? k = some v ↔
      (∃ after, (k, v) :: after <:+ l ∧ k ∉ after.map Prod.fst) ∨
        k ∉ l.map Prod.fst ∧ m.get? k = some v := by
  induction l generalizing m with
  | nil => simp
  | cons e rest ih =>
      obtain ⟨k', v'⟩ := e
      simp only [List.foldl_cons, ih, get?_insert, List.suffix_cons_iff, List.map_cons,
        List.mem_cons, not_or, List.cons.injEq, Prod.mk.injEq]
      by_cases hk : k = k'
      · subst hk
        simp only [true_and, not_true, false_and, or_false, if_true, Option.some.injEq]
        constructor
        · rintro (⟨after, tail, last⟩ | ⟨last, rfl⟩)
          · exact ⟨after, .inr tail, last⟩
          · exact ⟨rest, .inl ⟨rfl, rfl⟩, last⟩
        · rintro ⟨after, ⟨rfl, rfl⟩ | tail, last⟩
          · exact .inr ⟨last, rfl⟩
          · exact .inl ⟨after, tail, last⟩
      · simp [hk]

/-- Of the entries with a key the last one is found. -/
theorem get?_ofList_eq_some_iff [DecidableEq κ] {l : List (κ × α)} {k : κ} {v : α} :
    (ofList l).get? k = some v ↔
      ∃ after, (k, v) :: after <:+ l ∧ k ∉ after.map Prod.fst := by
  rw [ofList, get?_foldl_insert_iff]
  simp

/-- Of the elements that give an entry with a key the last one is found. -/
theorem get?_ofList_filterMap [DecidableEq κ] {f : β → Option (κ × α)} {l : List β} {k : κ}
    {v : α} :
    (ofList (l.filterMap f)).get? k = some v ↔
      ∃ x after, x :: after <:+ l ∧ f x = some (k, v) ∧
        ∀ y ∈ after, ∀ w, f y ≠ some (k, w) := by
  simp only [get?_ofList_eq_some_iff, List.suffix_filterMap_iff]
  constructor
  · rintro ⟨_, ⟨l', tail, hl'⟩, last⟩
    obtain ⟨skipped, x, after, rfl, -, hx, rfl⟩ := List.filterMap_eq_cons_iff.mp hl'.symm
    refine ⟨x, after, (List.suffix_append skipped _).trans tail, hx, fun y mem w hy => last ?_⟩
    exact List.mem_map.mpr ⟨(k, w), List.mem_filterMap.mpr ⟨y, mem, hy⟩, rfl⟩
  · rintro ⟨x, after, tail, hx, last⟩
    refine ⟨after.filterMap f, ⟨x :: after, tail, by simp [hx]⟩, fun mem => ?_⟩
    obtain ⟨⟨_, w⟩, hw, rfl⟩ := List.mem_map.mp mem
    obtain ⟨y, hy, hfy⟩ := List.mem_filterMap.mp hw
    exact last y hy w hfy

theorem mem_of_mem_ofList {l : List (κ × α)} {e : κ × α} (h : e ∈ (ofList l).entries) : e ∈ l := by
  classical
  obtain ⟨after, tail, -⟩ := get?_ofList_eq_some_iff.mp (get?_eq_some_iff.mpr h)
  exact tail.mem List.mem_cons_self

theorem get?_ofList_of_not_mem [DecidableEq κ] {l : List (κ × α)} {k : κ}
    (h : k ∉ l.map Prod.fst) : (ofList l).get? k = none := by
  refine Option.eq_none_iff_forall_ne_some.mpr fun v found => ?_
  obtain ⟨after, tail, -⟩ := get?_ofList_eq_some_iff.mp found
  exact h (List.mem_map_of_mem (tail.mem List.mem_cons_self))

/-- A map of entries with different keys answers with each of them. -/
theorem get?_ofList [DecidableEq κ] {l : List (κ × α)} (nodup : (l.map Prod.fst).Nodup) {k : κ}
    {v : α} (h : (k, v) ∈ l) : (ofList l).get? k = some v := by
  obtain ⟨before, after, rfl⟩ := List.append_of_mem h
  rw [List.map_append, List.map_cons, List.nodup_append] at nodup
  have last : k ∉ after.map Prod.fst := (List.nodup_cons.1 nodup.2.1).1
  exact get?_ofList_eq_some_iff.mpr ⟨after, List.suffix_append before _, last⟩

private theorem contains_foldl_insert (m : SortedMap κ α) {l : List (κ × α)} {k : κ} :
    (l.foldl (fun m e => m.insert e.1 e.2) m).contains k = true ↔
      m.contains k = true ∨ k ∈ l.map Prod.fst := by
  classical
  induction l generalizing m with
  | nil => simp
  | cons e rest ih =>
      rw [List.foldl_cons, ih, List.map_cons, List.mem_cons, ← or_assoc]
      refine or_congr_left ?_
      by_cases hk : k = e.1 <;> simp [contains, hk]

theorem contains_ofList {l : List (κ × α)} {k : κ} :
    (ofList l).contains k = true ↔ k ∈ l.map Prod.fst := by
  rw [ofList, contains_foldl_insert]
  simp [contains]

/-- A map is what it answers. -/
theorem ext_get? {m n : SortedMap κ α} (h : ∀ k, m.get? k = n.get? k) : m = n := by
  obtain ⟨l, hl⟩ := m
  obtain ⟨l', hl'⟩ := n
  have : l = l' := eq_of_mem_iff hl hl' fun e => by
    rw [← lookup_eq_some_iff hl, ← lookup_eq_some_iff hl']
    exact iff_of_eq (congrArg (· = some e.2) (h e.1))
  subst this
  rfl

theorem get?_ofList_iff_mem [DecidableEq κ] {l : List (κ × α)} (nodup : (l.map Prod.fst).Nodup)
    {k : κ} {v : α} : (ofList l).get? k = some v ↔ (k, v) ∈ l :=
  ⟨fun found => mem_of_mem_ofList (get?_eq_some_iff.mp found), get?_ofList nodup⟩

/-- The order of entries with different keys does not matter. -/
theorem ofList_eq_of_perm {l l' : List (κ × α)} (nodup : (l.map Prod.fst).Nodup)
    (perm : l.Perm l') : ofList l = ofList l' := by
  classical
  have nodup' : (l'.map Prod.fst).Nodup := (perm.map Prod.fst).nodup_iff.mp nodup
  refine ext_get? fun k => Option.ext fun v => ?_
  rw [get?_ofList_iff_mem nodup, get?_ofList_iff_mem nodup', perm.mem_iff]

theorem entries_ofList_perm {l : List (κ × α)} (nodup : (l.map Prod.fst).Nodup) :
    (ofList l).entries.Perm l := by
  classical
  have entries {l : List (κ × α)} (keys : (l.map Prod.fst).Nodup) : l.Nodup :=
    List.Pairwise.of_map Prod.fst (fun _ _ ne same => ne (congrArg Prod.fst same)) keys
  refine (List.perm_ext_iff_of_nodup (entries (ofList l).nodup_keys) (entries nodup)).mpr ?_
  exact fun e => by rw [← get?_ofList_iff_mem nodup, get?_eq_some_iff]

end Maps

end SortedMap
end EntityClient
