import EntityClient.Number.Double
import EntityClient.SortedMap

/-!
JSON values. A number is an integer within the signed or unsigned 64-bit range or a finite
double; the members of an object are listed in key order, each key once. The member order is
the predicate `Json.WellFormed`, which every value built by `Json.object` from well-formed
members satisfies.
-/

namespace EntityClient

/-- An integer that a JSON number carries exactly: from `-2 ^ 63`, below `2 ^ 64`. -/
structure Whole where
  val : Int
  lower : -9223372036854775808 ≤ val
  upper : val < 18446744073709551616
deriving DecidableEq, Repr

namespace Whole

def ofWord (n : UInt64) : Whole where
  val := n.toNat
  lower := by omega
  upper := by have := n.toNat_lt; omega

def ofInt64 (n : Int64) : Whole where
  val := n.toInt
  lower := n.le_toInt
  upper := by have := n.toInt_lt; omega

/-- The value as an unsigned word, unless it is negative. -/
def word? (w : Whole) : Option UInt64 := if 0 ≤ w.val then some (UInt64.ofNat w.val.toNat) else none

/-- The value as a signed word, unless it is too large. -/
def int64? (w : Whole) : Option Int64 :=
  if w.val < 9223372036854775808 then some (Int64.ofInt w.val) else none

@[simp]
theorem word?_ofWord (n : UInt64) : (ofWord n).word? = some n := by
  simp [word?, ofWord]

@[simp]
theorem int64?_ofInt64 (n : Int64) : (ofInt64 n).int64? = some n := by
  have := n.toInt_lt
  simp only [int64?, ofInt64, Int64.ofInt_toInt]
  rw [if_pos (by omega)]

end Whole

inductive Json where
  | null
  | bool (b : Bool)
  | int (n : Whole)
  | float (x : FiniteDouble)
  | str (s : String)
  | arr (items : List Json)
  | obj (members : List (String × Json))
deriving Inhabited, Repr

namespace Json

mutual

private def decEq : (a b : Json) → Decidable (a = b)
  | .null, .null => isTrue rfl
  | .bool a, .bool b => decidable_of_iff (a = b) (by simp)
  | .int a, .int b => decidable_of_iff (a = b) (by simp)
  | .float a, .float b => decidable_of_iff (a = b) (by simp)
  | .str a, .str b => decidable_of_iff (a = b) (by simp)
  | .arr a, .arr b => @decidable_of_iff _ (a = b) (by simp) (decEqItems a b)
  | .obj a, .obj b => @decidable_of_iff _ (a = b) (by simp) (decEqMembers a b)
  | .null, .bool _ | .null, .int _ | .null, .float _ | .null, .str _ | .null, .arr _
  | .null, .obj _ => isFalse (by simp)
  | .bool _, .null | .bool _, .int _ | .bool _, .float _ | .bool _, .str _ | .bool _, .arr _
  | .bool _, .obj _ => isFalse (by simp)
  | .int _, .null | .int _, .bool _ | .int _, .float _ | .int _, .str _ | .int _, .arr _
  | .int _, .obj _ => isFalse (by simp)
  | .float _, .null | .float _, .bool _ | .float _, .int _ | .float _, .str _ | .float _, .arr _
  | .float _, .obj _ => isFalse (by simp)
  | .str _, .null | .str _, .bool _ | .str _, .int _ | .str _, .float _ | .str _, .arr _
  | .str _, .obj _ => isFalse (by simp)
  | .arr _, .null | .arr _, .bool _ | .arr _, .int _ | .arr _, .float _ | .arr _, .str _
  | .arr _, .obj _ => isFalse (by simp)
  | .obj _, .null | .obj _, .bool _ | .obj _, .int _ | .obj _, .float _ | .obj _, .str _
  | .obj _, .arr _ => isFalse (by simp)

private def decEqItems : (a b : List Json) → Decidable (a = b)
  | [], [] => isTrue rfl
  | [], _ :: _ | _ :: _, [] => isFalse (by simp)
  | x :: xs, y :: ys =>
      match decEq x y, decEqItems xs ys with
      | isTrue h, isTrue h' => isTrue (by rw [h, h'])
      | isFalse h, _ => isFalse (by simp [h])
      | _, isFalse h => isFalse (by simp [h])

private def decEqMembers : (a b : List (String × Json)) → Decidable (a = b)
  | [], [] => isTrue rfl
  | [], _ :: _ | _ :: _, [] => isFalse (by simp)
  | (k, x) :: xs, (k', y) :: ys =>
      match decEq x y, decEqMembers xs ys with
      | isTrue h, isTrue h' => decidable_of_iff (k = k') (by simp [h, h'])
      | isFalse h, _ => isFalse (by simp [h])
      | _, isFalse h => isFalse (by simp [h])

end

instance : DecidableEq Json := decEq

mutual

/-- At every depth keys increase strictly. -/
def WellFormed : Json → Prop
  | .arr items => WellFormedItems items
  | .obj members =>
      (members.map Prod.fst).Pairwise (fun a b => compare a b = .lt) ∧ WellFormedMembers members
  | _ => True

def WellFormedItems : List Json → Prop
  | [] => True
  | v :: rest => WellFormed v ∧ WellFormedItems rest

def WellFormedMembers : List (String × Json) → Prop
  | [] => True
  | (_, v) :: rest => WellFormed v ∧ WellFormedMembers rest

end

/-- The object with these members, the last of equal keys counting. -/
def object (members : List (String × Json)) : Json := .obj (SortedMap.ofList members).entries

def word (n : UInt64) : Json := .int (.ofWord n)

/-- A double as a number; what is not finite has no number and is null. -/
def ofDouble : Double → Json
  | .finite x => .float x
  | _ => .null

def isNull : Json → Bool
  | .null => true
  | _ => false

def bool? : Json → Option Bool
  | .bool b => some b
  | _ => none

def word? : Json → Option UInt64
  | .int n => n.word?
  | _ => none

def str? : Json → Option String
  | .str s => some s
  | _ => none

def items? : Json → Option (List Json)
  | .arr items => some items
  | _ => none

def members? : Json → Option (List (String × Json))
  | .obj members => some members
  | _ => none

/-- The value under a key, if this is an object that has it. -/
def get? (v : Json) (key : String) : Option Json := v.members?.bind (SortedMap.lookup key)

theorem wellFormedMembers_iff {members : List (String × Json)} :
    WellFormedMembers members ↔ ∀ e ∈ members, WellFormed e.2 := by
  induction members with
  | nil => simp [WellFormedMembers]
  | cons e rest ih => simp [WellFormedMembers, ih]

theorem WellFormed.get? {v w : Json} {key : String} (wf : v.WellFormed)
    (found : v.get? key = some w) : w.WellFormed := by
  cases v with
  | obj members =>
      have mem := (SortedMap.lookup_eq_some_iff wf.1).mp found
      exact wellFormedMembers_iff.mp wf.2 _ mem
  | null | bool _ | int _ | float _ | str _ | arr _ => cases found

theorem wellFormed_object {members : List (String × Json)}
    (h : ∀ e ∈ members, WellFormed e.2) : WellFormed (object members) := by
  refine ⟨(SortedMap.ofList members).increasing, wellFormedMembers_iff.2 ?_⟩
  suffices ∀ m : SortedMap String Json, (∀ e ∈ m.entries, WellFormed e.2) →
      ∀ e ∈ (members.foldl (fun m e => m.insert e.1 e.2) m).entries, WellFormed e.2 from
    this .empty (by simp [SortedMap.empty])
  induction members with
  | nil => simp
  | cons e rest ih =>
      intro m hm
      refine ih (fun x hx => h x (by simp [hx])) (m.insert e.1 e.2) fun x hx => ?_
      rcases SortedMap.mem_place hx with rfl | hx
      · exact h e (by simp)
      · exact hm x hx

theorem WellFormed.object {members : List (String × Json)} (h : WellFormedMembers members) :
    (object members).WellFormed :=
  wellFormed_object (wellFormedMembers_iff.mp h)

end Json
end EntityClient
