import EntityClient.Text.Blank
import EntityClient.Text.Decimal
import Mathlib.Data.List.DropRight
import Mathlib.Data.List.TakeWhile

/-!
What trimming leaves, and which texts are numerals. Trimmed text stands between the characters that
were dropped, and text without such characters is found again between them. A word is read from its
digits alone: its value is theirs, so it fits into 64 bits as it is.
-/

namespace EntityClient.Text

theorem isBlank_of_isDigit {c : Char} (h : c.isDigit = true) : isBlank c = false := by
  have bounds : 48 ≤ c.toNat ∧ c.toNat ≤ 57 := Char.isDigit_iff_toNat.mp h
  simp only [isBlank, Bool.or_eq_false_iff, Bool.and_eq_false_iff, decide_eq_false_iff_not,
    beq_eq_false_iff_ne]
  omega

theorem trimLeft_append {front : List Char} (rest : List Char) (ne : front ≠ [])
    (solid : ∀ c ∈ front, isBlank c = false) : trimLeft (front ++ rest) = front ++ rest := by
  cases front with
  | nil => exact absurd rfl ne
  | cons c cs =>
      have hc : isBlank c = false := solid c List.mem_cons_self
      simp [trimLeft, hc]

theorem dropTail_append {p : Char → Bool} {back : List Char} (rest : List Char) (ne : back ≠ [])
    (solid : ∀ c ∈ back, p c = false) : dropTail p (rest ++ back) = rest ++ back := by
  have hlast : p (back.getLast ne) = false := solid _ (List.getLast_mem ne)
  rw [← List.dropLast_concat_getLast ne, ← List.append_assoc]
  simp [dropTail, hlast]

/-- Blanks inside a text are kept if there are none at its ends. -/
theorem trim_append {front back : List Char} (inner : List Char) (hfront : front ≠ [])
    (hback : back ≠ []) (solid : ∀ c ∈ front ++ back, isBlank c = false) :
    trim (front ++ (inner ++ back)) = front ++ (inner ++ back) := by
  rw [trim, trimLeft_append _ hfront fun c hc => solid c (List.mem_append_left back hc),
    ← List.append_assoc]
  exact dropTail_append _ hback fun c hc => solid c (List.mem_append_right front hc)

theorem trimLeft_trimLeft (cs : List Char) : trimLeft (trimLeft cs) = trimLeft cs :=
  List.dropWhile_idempotent isBlank cs

/-- A run of blanks is dropped whole before a text that starts with none. -/
theorem trimLeft_run {blanks rest : List Char} (all : ∀ c ∈ blanks, isBlank c = true)
    (solid : ∀ c ∈ rest.head?, isBlank c = false) : trimLeft (blanks ++ rest) = rest := by
  rw [trimLeft, List.dropWhile_append_of_pos all]
  cases rest with
  | nil => rfl
  | cons c rest => exact List.dropWhile_cons_of_neg (by simp [solid c rfl])

/-- Nothing is dropped that stands before a character which is kept. -/
theorem dropTail_append_of_mem {p : Char → Bool} (front : List Char) {back : List Char}
    (kept : ∃ c ∈ back, p c = false) : dropTail p (front ++ back) = front ++ dropTail p back := by
  have ne : back.reverse.dropWhile p ≠ [] := by
    simpa [List.dropWhile_eq_nil_iff] using kept
  simp [dropTail, List.dropWhile_append, ne]

/-- The blanks may be dropped at the end first. -/
theorem trim_eq (cs : List Char) : trim cs = trimLeft (dropTail isBlank cs) := by
  change (cs.dropWhile isBlank).rdropWhile isBlank = (cs.rdropWhile isBlank).dropWhile isBlank
  induction cs using List.reverseRecOn with
  | nil => rfl
  | append_singleton cs c ih =>
      rw [List.dropWhile_append]
      by_cases hc : isBlank c = true
      · rw [List.rdropWhile_concat_pos isBlank cs c hc, ← ih]
        cases cs.dropWhile isBlank with
        | nil => simp [hc]
        | cons d rest => exact List.rdropWhile_concat_pos isBlank (d :: rest) c hc
      · rw [List.rdropWhile_concat_neg isBlank cs c hc, List.dropWhile_append]
        cases cs.dropWhile isBlank with
        | nil => simp [hc]
        | cons d rest => exact List.rdropWhile_concat_neg isBlank (d :: rest) c hc

/-! Trimming on both sides -/

/-- The text is the inner one between characters that satisfy `p`. -/
def Within (p : Char → Bool) (text inner : List Char) : Prop :=
  ∃ front back, text = front ++ (inner ++ back) ∧ ∀ c ∈ front ++ back, p c = true

section Within

variable {p : Char → Bool} {text inner : List Char}

theorem within_trimmed (p : Char → Bool) (text : List Char) :
    Within p text (dropTail p (text.dropWhile p)) := by
  let rest := text.dropWhile p
  refine ⟨text.takeWhile p, (rest.reverse.takeWhile p).reverse, ?_, ?_⟩
  · have hrest : dropTail p rest ++ (rest.reverse.takeWhile p).reverse = rest := by
      rw [dropTail, ← List.reverse_append, List.takeWhile_append_dropWhile, List.reverse_reverse]
    rw [hrest, List.takeWhile_append_dropWhile]
  · intro c hc
    cases List.mem_append.mp hc with
    | inl front => exact List.mem_takeWhile_imp front
    | inr back => exact List.mem_takeWhile_imp (List.mem_reverse.mp back)

theorem dropWhile_of_solid {rest : List Char} (solid : ∀ c ∈ rest, p c = false) :
    rest.dropWhile p = rest := by
  cases rest with
  | nil => rfl
  | cons c cs =>
      rw [List.dropWhile_cons_of_neg]
      simp [solid c List.mem_cons_self]

/-- Text without such characters is what trimming leaves. -/
theorem trimmed_of_within (h : Within p text inner) (solid : ∀ c ∈ inner, p c = false) :
    dropTail p (text.dropWhile p) = inner := by
  obtain ⟨front, back, rfl, sides⟩ := h
  have hfront : ∀ c ∈ front, p c = true := fun c hc => sides c (List.mem_append_left _ hc)
  have hback : ∀ c ∈ back, p c = true := fun c hc => sides c (List.mem_append_right _ hc)
  rw [List.dropWhile_append_of_pos hfront]
  cases inner with
  | nil =>
      have none : back.dropWhile p = [] := List.dropWhile_eq_nil_iff.mpr hback
      rw [List.nil_append, none]
      rfl
  | cons c cs =>
      have hc : ¬ p c = true := by simp [solid c List.mem_cons_self]
      rw [List.cons_append, List.dropWhile_cons_of_neg hc, ← List.cons_append, dropTail,
        List.reverse_append,
        List.dropWhile_append_of_pos fun x hx => hback x (List.mem_reverse.mp hx),
        dropWhile_of_solid fun x hx => solid x (List.mem_reverse.mp hx), List.reverse_reverse]

end Within

/-! Numerals -/

/-- The text is a numeral of the word: digits with its value, after a plus sign or not. -/
def Numeral (text : List Char) (n : UInt64) : Prop :=
  ∃ digits, (text = digits ∨ text = '+' :: digits) ∧ digits ≠ [] ∧
    (∀ c ∈ digits, c.isDigit = true) ∧ Nat.ofDigitChars 10 digits 0 = n.toNat

theorem nat?_eq_some_iff {cs : List Char} {n : Nat} :
    nat? cs = some n ↔
      cs ≠ [] ∧ (∀ c ∈ cs, c.isDigit = true) ∧ Nat.ofDigitChars 10 cs 0 = n := by
  unfold nat?
  simp [and_assoc]

/-- A word is made of its digits without a carry. -/
theorem fitting_eq_some_iff {digits : List Char} {n : UInt64} :
    ((nat? digits).bind fun m =>
        if m < 18446744073709551616 then some (UInt64.ofNat m) else none) = some n ↔
      digits ≠ [] ∧ (∀ c ∈ digits, c.isDigit = true) ∧
        Nat.ofDigitChars 10 digits 0 = n.toNat := by
  rw [← nat?_eq_some_iff, Option.bind_eq_some_iff]
  constructor
  · rintro ⟨m, hm, fits⟩
    split at fits
    next small =>
      cases fits
      rw [hm, UInt64.toNat_ofNat_of_lt' small]
    next => cases fits
  · intro h
    refine ⟨n.toNat, h, ?_⟩
    rw [if_pos n.toNat_lt, UInt64.ofNat_toNat]

theorem word?_eq_some_iff {cs : List Char} {n : UInt64} : word? cs = some n ↔ Numeral cs n := by
  unfold word?
  rw [fitting_eq_some_iff]
  split
  next rest =>
    constructor
    · exact fun h => ⟨rest, .inr rfl, h⟩
    · rintro ⟨digits, rfl | signed, h⟩
      · -- a plus sign is no digit
        exact absurd (h.2.1 '+' List.mem_cons_self) (by decide)
      · exact (List.cons.inj signed).2 ▸ h
  next unsigned =>
    constructor
    · exact fun h => ⟨cs, .inl rfl, h⟩
    · rintro ⟨digits, rfl | signed, h⟩
      · exact h
      · exact absurd signed (unsigned digits)

theorem toList_word (n : UInt64) : (toString n).toList = Nat.toDigits 10 n.toNat :=
  Nat.toList_repr

/-- A word is read from its own numeral. -/
theorem word?_toString (n : UInt64) : word? (toString n).toList = some n := by
  rw [word?_eq_some_iff, toList_word]
  exact ⟨_, .inl rfl, Nat.toDigits_ne_nil,
    fun c hc => Nat.isDigit_of_mem_toDigits (by decide) (by decide) hc,
    Nat.ofDigitChars_ten_toDigits⟩

theorem Numeral.chars {cs : List Char} {n : UInt64} (h : Numeral cs n) :
    ∀ c ∈ cs, c = '+' ∨ c.isDigit = true := by
  obtain ⟨digits, rfl | rfl, -, all, -⟩ := h
  · exact fun c hc => .inr (all c hc)
  · intro c hc
    cases List.mem_cons.mp hc with
    | inl plus => exact .inl plus
    | inr digit => exact .inr (all c digit)

theorem Numeral.isBlank {cs : List Char} {n : UInt64} (h : Numeral cs n) :
    ∀ c ∈ cs, isBlank c = false := by
  intro c hc
  cases h.chars c hc with
  | inl plus => rw [plus]; rfl
  | inr digit => exact isBlank_of_isDigit digit

end EntityClient.Text
