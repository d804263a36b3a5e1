import EntityClient.Filter.Draft
import EntityClient.Proofs.Filter.Clauses
import Mathlib.Data.List.Infix

/-!
Drafts as bracketed words. The steps of a draft are a word of clauses and brackets; a closing
bracket that closes nothing is ignored, and closings that are missing come at the end. The draft's
query is the one tree whose word that is.
-/

namespace EntityClient.Filter

/-- A bracket opens with the connective that its group is added under. -/
inductive Token where
  | clause (j : Connective) (c : Clause)
  | opening (j : Connective)
  | closing
deriving DecidableEq, Repr

namespace Token

def clause? : Token → Option (Connective × Clause)
  | .clause j c => some (j, c)
  | .opening _ | .closing => none

/-- The word with `n` brackets open before it, each closing dropped that closes nothing and each
bracket closed at the end that is still open there. -/
def balance : Nat → List Token → List Token
  | n, [] => List.replicate n .closing
  | n, .clause j c :: w => .clause j c :: balance n w
  | n, .opening j :: w => .opening j :: balance (n + 1) w
  | 0, .closing :: w => balance 0 w
  | n + 1, .closing :: w => .closing :: balance n w

/-- The closings of a word that close nothing opened in it. -/
def surplus : List Token → Nat
  | [] => 0
  | .clause _ _ :: w => surplus w
  | .opening _ :: w => surplus w - 1
  | .closing :: w => surplus w + 1

/-- The openings of a word that nothing in it closes: what follows one has no surplus closing. -/
def unmatched : List Token → Nat
  | [] => 0
  | .clause _ _ :: w => unmatched w
  | .opening _ :: w => if surplus w = 0 then unmatched w + 1 else unmatched w
  | .closing :: w => unmatched w

theorem filterMap_balance (n : Nat) (w : List Token) :
    (balance n w).filterMap clause? = w.filterMap clause? := by
  induction w generalizing n with
  | nil =>
      induction n with
      | zero => rfl
      | succ n ih => exact ih
  | cons token w ih =>
      cases token with
      | clause j c => exact congrArg ((j, c) :: ·) (ih n)
      | opening j => exact ih (n + 1)
      | closing =>
          cases n with
          | zero => exact ih 0
          | succ n => exact ih n

end Token

namespace Query

open Token

def word : Query → List Token
  | .nil => []
  | .clause j c rest => .clause j c :: rest.word
  | .group j inner rest => .opening j :: inner.word ++ .closing :: rest.word

theorem word_append (q r : Query) : (q ++ r).word = q.word ++ r.word := by
  induction q with
  | nil => rfl
  | clause j c rest ih => simp [word, ih]
  | group j inner rest _ ih => simp [word, ih]

theorem clauses_eq (q : Query) : q.clauses = q.word.filterMap clause? := by
  induction q with
  | nil => rfl
  | clause j c rest ih => simp [clauses, word, clause?, ih]
  | group j inner rest ihinner ih =>
      simp [clauses, word, List.filterMap_cons, clause?, ihinner, ih]

theorem word_pushClause (q : Query) (j : Connective) (c : Clause) :
    (q.pushClause j c).word = q.word ++ [.clause j c] := word_append q _

theorem word_pushGroup (q : Query) (j : Connective) (g : Query) :
    (q.pushGroup j g).word = q.word ++ .opening j :: g.word ++ [.closing] := by
  rw [pushGroup, word_append]
  simp [word]

end Query

namespace Draft

open Token

/-- A step of a draft: a condition, negated any number of times before it is set, a prepared
clause, or a bracket. -/
inductive Step where
  | condition (j : Connective) (property : String) (negations : Nat) (c : Condition)
  | push (j : Connective) (c : Clause)
  | openGroup (j : Connective)
  | closeGroup

def Step.token : Step → Token
  | .condition j property negations c => .clause j ⟨property, 0 < negations, some c⟩
  | .push j c => .clause j c
  | .openGroup j => .opening j
  | .closeGroup => .closing

def take (d : Draft) : Step → Draft
  | .condition j property negations c =>
      (Nat.repeat PendingClause.negate negations (d.start j property)).finish c
  | .push j c => d.push j c
  | .openGroup j => d.openGroup j
  | .closeGroup => d.closeGroup

def takeAll (d : Draft) (steps : List Step) : Draft := steps.foldl take d

def Step.ofToken : Token → Step
  | .clause j c => .push j c
  | .opening j => .openGroup j
  | .closing => .closeGroup

theorem repeat_negate (p : PendingClause) (n : Nat) :
    Nat.repeat PendingClause.negate n p = { p with negated := p.negated || decide (0 < n) } := by
  induction n with
  | zero => simp [Nat.repeat]
  | succ n ih => simp [Nat.repeat, ih, PendingClause.negate]

theorem take_eq (d : Draft) (s : Step) : d.take s = d.take (.ofToken s.token) := by
  cases s with
  | condition j property negations c =>
      simp [take, Step.ofToken, Step.token, repeat_negate, PendingClause.finish, start]
  | push | openGroup | closeGroup => rfl

/-- What has been said so far: the innermost open group stands last, and nothing is closed yet. -/
def wordFrom (root : Query) : List (Connective × Query) → List Token
  | [] => root.word
  | (j, g) :: outer => wordFrom root outer ++ .opening j :: g.word

def word (d : Draft) : List Token := wordFrom d.root d.opened

theorem word_modify (d : Draft) {f : Query → Query} {u : List Token}
    (hf : ∀ q, (f q).word = q.word ++ u) : (d.modify f).word = d.word ++ u := by
  obtain ⟨root, opened⟩ := d
  cases opened with
  | nil => exact hf root
  | cons group outer => simp [word, modify, wordFrom, hf]

theorem depth_modify (d : Draft) (f : Query → Query) : (d.modify f).depth = d.depth := by
  obtain ⟨root, opened⟩ := d
  cases opened <;> rfl

theorem word_close (root : Query) (j : Connective) (g : Query)
    (outer : List (Connective × Query)) :
    (close root j g outer).word =
      wordFrom root ((j, g) :: outer) ++ List.replicate (outer.length + 1) .closing := by
  induction outer generalizing j g with
  | nil => exact Query.word_pushGroup root j g
  | cons group outer ih =>
      rw [close, ih]
      simp [wordFrom, Query.word_pushGroup, List.replicate_succ]

theorem word_query (d : Draft) : d.query.word = d.word ++ List.replicate d.depth .closing := by
  obtain ⟨root, opened⟩ := d
  cases opened with
  | nil => exact (List.append_nil _).symm
  | cons group outer => exact word_close root group.1 group.2 outer

/-- The steps still to come stand balanced behind what has been said so far. -/
theorem word_takeAll (d : Draft) (steps : List Step) :
    (d.takeAll steps).query.word = d.word ++ balance d.depth (steps.map Step.token) := by
  induction steps generalizing d with
  | nil => exact word_query d
  | cons s rest ih =>
      change ((d.take s).takeAll rest).query.word = _
      rw [ih, take_eq, List.map_cons]
      cases s.token with
      | clause j c =>
          simp only [take, Step.ofToken, push, depth_modify]
          rw [word_modify d fun q => q.word_pushClause j c]
          simp [balance]
      | opening j =>
          simp [take, Step.ofToken, openGroup, word, wordFrom, depth, balance, Query.word]
      | closing =>
          obtain ⟨root, opened⟩ := d
          cases opened with
          | nil => rfl
          | cons group outer =>
              simp only [take, Step.ofToken, closeGroup, depth_modify]
              rw [word_modify _ fun q => by
                rw [q.word_pushGroup group.1 group.2, List.append_assoc]]
              simp [word, wordFrom, depth, balance]

theorem depth_takeAll (d : Draft) (steps : List Step) :
    (d.takeAll steps).depth =
      d.depth - surplus (steps.map Step.token) + unmatched (steps.map Step.token) := by
  induction steps generalizing d with
  | nil => simp [takeAll, surplus, unmatched]
  | cons s rest ih =>
      change ((d.take s).takeAll rest).depth = _
      rw [ih, take_eq, List.map_cons]
      cases s.token with
      | clause j c => simp [take, Step.ofToken, push, depth_modify, surplus, unmatched]
      | opening j =>
          have hd : (d.take (.ofToken (.opening j))).depth = d.depth + 1 := rfl
          rw [hd]
          simp only [surplus, unmatched]
          split <;> omega
      | closing =>
          have hd : (d.take (.ofToken .closing)).depth = d.depth - 1 := by
            obtain ⟨root, opened⟩ := d
            cases opened with
            | nil => rfl
            | cons group outer => exact depth_modify _ _
          rw [hd]
          simp only [surplus, unmatched]
          omega

theorem modify_modify (d : Draft) (f g : Query → Query) :
    (d.modify f).modify g = d.modify fun q => g (f q) := by
  obtain ⟨root, opened⟩ := d
  cases opened <;> rfl

/-- The steps of a tree's word add the tree to the innermost open group. -/
theorem takeAll_word (d : Draft) (q : Query) :
    d.takeAll (q.word.map Step.ofToken) = d.modify (· ++ q) := by
  induction q generalizing d with
  | nil =>
      obtain ⟨root, opened⟩ := d
      cases opened <;> simp [takeAll, Query.word, modify]
  | clause j c rest ih =>
      change (d.push j c).takeAll (rest.word.map Step.ofToken) = _
      rw [ih, push, modify_modify]
      simp only [Query.pushClause, Query.append_assoc]
      rfl
  | group j inner rest ihinner ih =>
      have hsplit : d.takeAll ((Query.group j inner rest).word.map Step.ofToken) =
          ((d.openGroup j).takeAll (inner.word.map Step.ofToken)).closeGroup.takeAll
            (rest.word.map Step.ofToken) := by
        simp [takeAll, Query.word, List.foldl_append, Step.ofToken, take]
      rw [hsplit, ihinner, ih]
      change (d.modify (·.pushGroup j inner)).modify (· ++ rest) = _
      rw [modify_modify]
      simp only [Query.pushGroup, Query.append_assoc]
      rfl

/-- Builds before every step and at the end: the texts, and the draft that is left. -/
def trace (d : Draft) : List Step → List (Except Fault String) × Draft
  | [] => ([d.render], d)
  | s :: rest =>
      let (texts, last) := (d.take s).trace rest
      (d.render :: texts, last)

theorem trace_eq (d : Draft) (steps : List Step) :
    d.trace steps =
      (steps.inits.map fun done => (d.takeAll done).query.render, d.takeAll steps) := by
  induction steps generalizing d with
  | nil => rfl
  | cons s rest ih =>
      rw [trace, ih]
      simp only [List.inits_cons, List.map_cons, List.map_map]
      rfl

end Draft

theorem Query.word_injective {q r : Query} (h : q.word = r.word) : q = r := by
  have build (q : Query) : (Draft.takeAll {} (q.word.map Draft.Step.ofToken)).query = q := by
    rw [Draft.takeAll_word]
    rfl
  rw [← build q, h, build r]

namespace Draft

open Token

/-- A draft's query is the one tree whose word is the balanced word of the steps. Its depth counts
the openings that nothing closes, its clauses are those of the steps in order, building on the way
shows the query so far and disturbs nothing, and every tree comes from its own word. -/
theorem takeAll_bracketing (steps : List Step) :
    let d := takeAll {} steps
    let w := steps.map Step.token
    (∀ q : Query, q = d.query ↔ q.word = balance 0 w) ∧
    (∀ n, (takeAll {} (steps.take n)).depth = unmatched (w.take n)) ∧
    d.query.clauses = w.filterMap clause? ∧
    trace {} steps = (steps.inits.map fun done => (takeAll {} done).query.render, d) ∧
    ∀ q : Query, takeAll {} (q.word.map Step.ofToken) = { root := q } := by
  intro d w
  have hword : d.query.word = balance 0 w := word_takeAll {} steps
  refine ⟨fun q => ⟨fun h => ?_, fun h => ?_⟩, fun n => ?_, ?_, trace_eq {} steps, takeAll_word {}⟩
  · rw [h, hword]
  · exact Query.word_injective (h.trans hword.symm)
  · rw [← List.map_take]
    exact (depth_takeAll {} (steps.take n)).trans (by simp [depth])
  · rw [Query.clauses_eq, hword, filterMap_balance]

end Draft
end EntityClient.Filter
