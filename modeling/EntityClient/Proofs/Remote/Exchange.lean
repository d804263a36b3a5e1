import EntityClient.Proofs.Remote.Perform

/-!
What a call over HTTP is answered with. The client brings back a response, or the reason why there
is none; the method, the status and the body decide the rest. `perform_classified` tells the cases
apart, by what the body carries and not by how it is looked at.
-/

namespace EntityClient

namespace HttpResponse

/-- The words of an error member: its own if it is a string, else its text. Null, false and the
empty string have none, since they say that there is no error. -/
inductive ErrorWords : Json → String → Prop
  | string {s} (ne : s ≠ "") : ErrorWords (.str s) s
  | other {v} (present : v ≠ .null) (raised : v ≠ .bool false) (noString : ∀ s, v ≠ .str s) :
      ErrorWords v v.compact

/-- The body is a JSON object whose error member carries the message. -/
def Carries (body message : String) : Prop :=
  ∃ members v, Json.parse? body = some (.obj members) ∧
    SortedMap.lookup "error" members = some v ∧ ErrorWords v message

theorem errorText?_eq_some_iff {member : Option Json} {message : String} :
    errorText? member = some message ↔ ∃ v, member = some v ∧ ErrorWords v message := by
  constructor
  · intro h
    unfold errorText? at h
    split at h
    next => cases h
    next => cases h
    next => cases h
    next =>
      split at h
      next => cases h
      next ne =>
        cases h
        exact ⟨_, rfl, .string ne⟩
    next v present raised noString =>
      cases h
      exact ⟨v, rfl, .other present raised noString⟩
  · rintro ⟨v, rfl, words⟩
    cases words with
    | string ne => exact if_neg ne
    | other present raised noString => rw [errorText?] <;> assumption

theorem errorText?_body {body message : String} :
    errorText? ((Json.parse? body).bind (·.get? "error")) = some message ↔
      Carries body message := by
  rw [errorText?_eq_some_iff]
  constructor
  · rintro ⟨v, found, words⟩
    obtain ⟨document, parsed, found⟩ := Option.bind_eq_some_iff.mp found
    obtain ⟨members, object, found⟩ := Option.bind_eq_some_iff.mp found
    cases document with
    | obj _ =>
        cases object
        exact ⟨members, v, parsed, found, words⟩
    | null | bool _ | int _ | float _ | str _ | arr _ => cases object
  · rintro ⟨members, v, parsed, found, words⟩
    exact ⟨v, by rw [parsed]; exact found, words⟩

theorem failure_of_carries {status : UInt16} {body message : String} (h : Carries body message) :
    failure ⟨status, body⟩ =
      if status = 404 then .notFound message else .rejected status message := by
  rw [failure, errorText?_body.mpr h]

theorem failure_of_silent {status : UInt16} {body : String}
    (silent : ∀ message, ¬ Carries body message) :
    failure ⟨status, body⟩ = .status (some status) body := by
  have none : errorText? ((Json.parse? body).bind (·.get? "error")) = none :=
    Option.eq_none_iff_forall_ne_some.mpr fun message h => silent message (errorText?_body.mp h)
  rw [failure, none]

end HttpResponse

theorem Method.successStatus_ne_notFound (m : Method) : (404 : UInt16) ≠ m.successStatus := by
  cases m <;> decide

theorem Request.method_write_ne (w : Write) : (Request.write w).method ≠ .get := by
  cases w <;> nofun

namespace HttpClient

open HttpResponse

/-- What an exchange makes of what the client brings back. -/
def judge (r : Request) : Except String HttpResponse → Except Failure String
  | .error message => .error (.status none message)
  | .ok response =>
      if response.status = r.method.successStatus then .ok response.body
      else .error response.failure

section Judgement

variable {r : Request} {status : UInt16} {body : String}

theorem judge_of_expected (expected : status = r.method.successStatus) :
    judge r (.ok ⟨status, body⟩) = .ok body := if_pos expected

theorem judge_of_unexpected (unexpected : status ≠ r.method.successStatus) :
    judge r (.ok ⟨status, body⟩) = .error (failure ⟨status, body⟩) := if_neg unexpected

end Judgement

section Exchange

variable {γ : Type} (c : HttpClient γ) (account : Account)

theorem exchange_eq (r : Request) (s : HttpState γ) :
    (c.exchange account r s).1 = judge r (c.send (account.request r) s.client).1 ∧
      (c.exchange account r s).2.client = (c.send (account.request r) s.client).2 := by
  unfold exchange
  obtain ⟨message | response, client⟩ := c.send (account.request r) s.client
  · exact ⟨rfl, rfl⟩
  · simp only [judge]
    split <;> exact ⟨rfl, rfl⟩

theorem read_eq (path : String) (query : List (String × String)) (s : HttpState γ) :
    ((c.transport account).read path query s).1 =
        (c.exchange account (.read path query) s).1.bind parseBody ∧
      ((c.transport account).read path query s).2.client =
        (c.exchange account (.read path query) s).2.client := by
  simp only [transport]
  obtain ⟨e | body, s'⟩ := c.exchange account (.read path query) s
  · exact ⟨rfl, rfl⟩
  · cases parsed : parseBody body with
    | ok v => simp [parsed, Except.bind]
    | error e => simp [parsed, Except.bind, fail]

/-- The client makes one step for each request. -/
theorem perform_client (r : Request) (s : HttpState γ) :
    ((c.transport account).perform r s).2.client = (c.send (account.request r) s.client).2 := by
  cases r with
  | read path query =>
      exact ((read_eq c account path query s).2).trans (exchange_eq c account _ s).2
  | write w => exact (exchange_eq c account (.write w) s).2

/-- The answer to a request, by what the client brings back for it. -/
def verdict (r : Request) (outcome : Except String HttpResponse) : Except Failure Answer :=
  match r with
  | .read _ _ => ((judge r outcome).bind parseBody).map .document
  | .write _ => (judge r outcome).map .text

theorem perform_answer (r : Request) (s : HttpState γ) :
    ((c.transport account).perform r s).1 =
      verdict r (c.send (account.request r) s.client).1 := by
  cases r with
  | read path query =>
      refine congrArg (Except.map Answer.document) ?_
      rw [(read_eq c account path query s).1, (exchange_eq c account (.read path query) s).1]
  | write w =>
      exact congrArg (Except.map Answer.text) (exchange_eq c account (.write w) s).1

end Exchange

/-- Which answer belongs to which outcome. -/
inductive Classified (r : Request) : Except String HttpResponse → Except Failure Answer → Prop
  | unanswered {message} : Classified r (.error message) (.error (.status none message))
  | document {status body v} (reads : r.method = .get)
      (expected : status = r.method.successStatus) (parses : Json.parse? body = some v) :
      Classified r (.ok ⟨status, body⟩) (.ok (.document v))
  | malformed {status body} (reads : r.method = .get)
      (expected : status = r.method.successStatus) (parses : Json.parse? body = none) :
      Classified r (.ok ⟨status, body⟩) (.error (.malformed .notJson))
  | text {status body} (writes : r.method ≠ .get) (expected : status = r.method.successStatus) :
      Classified r (.ok ⟨status, body⟩) (.ok (.text body))
  | notFound {body message} (carries : Carries body message) :
      Classified r (.ok ⟨404, body⟩) (.error (.notFound message))
  | rejected {status body message} (other : status ≠ 404)
      (unexpected : status ≠ r.method.successStatus) (carries : Carries body message) :
      Classified r (.ok ⟨status, body⟩) (.error (.rejected status message))
  | status {status body} (unexpected : status ≠ r.method.successStatus)
      (silent : ∀ message, ¬ Carries body message) :
      Classified r (.ok ⟨status, body⟩) (.error (.status (some status) body))

section Classification

variable {r : Request} {outcome : Except String HttpResponse} {a : Except Failure Answer}

theorem verdict_of_failed {x : Failure} (failed : judge r outcome = .error x) :
    verdict r outcome = .error x := by
  cases r <;> simp only [verdict, failed] <;> rfl

theorem verdict_of_classified (h : Classified r outcome a) : verdict r outcome = a := by
  cases h with
  | unanswered => exact verdict_of_failed rfl
  | @document status body v reads expected parses =>
      cases r with
      | read path query =>
          simp only [verdict, judge_of_expected expected, Except.bind, parseBody, parses, Except.map]
      | write w => exact absurd reads (Request.method_write_ne w)
  | @malformed status body reads expected parses =>
      cases r with
      | read path query =>
          simp only [verdict, judge_of_expected expected, Except.bind, parseBody, parses, Except.map]
      | write w => exact absurd reads (Request.method_write_ne w)
  | text writes expected =>
      cases r with
      | read path query => exact absurd rfl writes
      | write w => simp only [verdict, judge_of_expected expected, Except.map]
  | notFound carries =>
      refine verdict_of_failed ?_
      rw [judge_of_unexpected (Method.successStatus_ne_notFound _), failure_of_carries carries,
        if_pos rfl]
  | rejected other unexpected carries =>
      refine verdict_of_failed ?_
      rw [judge_of_unexpected unexpected, failure_of_carries carries, if_neg other]
  | status unexpected silent =>
      refine verdict_of_failed ?_
      rw [judge_of_unexpected unexpected, failure_of_silent silent]

/-- Every outcome is of one of the kinds. -/
theorem exists_classified (r : Request) (outcome : Except String HttpResponse) :
    ∃ a, Classified r outcome a := by
  cases outcome with
  | error message => exact ⟨_, .unanswered⟩
  | ok response =>
      obtain ⟨status, body⟩ := response
      by_cases expected : status = r.method.successStatus
      · by_cases reads : r.method = .get
        · cases parses : Json.parse? body with
          | some v => exact ⟨_, .document reads expected parses⟩
          | none => exact ⟨_, .malformed reads expected parses⟩
        · exact ⟨_, .text reads expected⟩
      · by_cases carried : ∃ message, Carries body message
        · obtain ⟨message, carries⟩ := carried
          by_cases gone : status = 404
          · subst gone
            exact ⟨_, .notFound carries⟩
          · exact ⟨_, .rejected gone expected carries⟩
        · exact ⟨_, .status expected (not_exists.mp carried)⟩

theorem verdict_eq_iff : verdict r outcome = a ↔ Classified r outcome a := by
  constructor
  · intro h
    obtain ⟨b, classified⟩ := exists_classified r outcome
    have same : b = a := (verdict_of_classified classified).symm.trans h
    exact same ▸ classified
  · exact verdict_of_classified

/-- Only the expected status makes a success. -/
theorem Classified.status_of_ok {x : Answer} (h : Classified r outcome (.ok x)) :
    ∃ body, outcome = .ok ⟨r.method.successStatus, body⟩ := by
  cases h with
  | document reads expected parses => exact ⟨_, by rw [expected]⟩
  | text writes expected => exact ⟨_, by rw [expected]⟩

/-- Only 404 says that something was not found. -/
theorem Classified.status_of_notFound {message : String}
    (h : Classified r outcome (.error (.notFound message))) :
    ∃ body, outcome = .ok ⟨404, body⟩ := by
  cases h with
  | notFound carries => exact ⟨_, rfl⟩

end Classification

/-- The same client, keeping every request in order. -/
def recorded {γ : Type} (c : HttpClient γ) : HttpClient (γ × List HttpRequest) where
  send r s := ((c.send r s.1).1, (c.send r s.1).2, s.2 ++ [r])

/-- A call sends one request, and what the client brings back for it decides the answer. No call
succeeds with a status that its method does not expect, and nothing but 404 is a missing object. -/
theorem perform_classified {γ : Type} (c : HttpClient γ) (account : Account) (r : Request)
    (s : HttpState (γ × List HttpRequest)) :
    let sent : HttpRequest := ⟨r.method, account.url r.path r.query, r.body.map Json.compact⟩
    let outcome := (c.send sent s.client.1).1
    let call := (c.recorded.transport account).perform r s
    call.2.client = ((c.send sent s.client.1).2, s.client.2 ++ [sent]) ∧
      (∀ a, call.1 = a ↔ Classified r outcome a) ∧
      (∀ x, call.1 = .ok x → ∃ body, outcome = .ok ⟨r.method.successStatus, body⟩) ∧
      ∀ message, call.1 = .error (.notFound message) → ∃ body, outcome = .ok ⟨404, body⟩ := by
  intro sent outcome call
  have answered (a : Except Failure Answer) : call.1 = a ↔ Classified r outcome a := by
    rw [← verdict_eq_iff, perform_answer c.recorded account r s]
    rfl
  refine ⟨perform_client c.recorded account r s, answered, fun x ok => ?_, fun message gone => ?_⟩
  · exact ((answered _).mp ok).status_of_ok
  · exact ((answered _).mp gone).status_of_notFound

/-- A deletion wants 204, so 200 fails it. -/
example : judge (.write (.delete "/member/1")) (.ok ⟨200, "done"⟩) =
    .error (.status (some 200) "done") := rfl

end HttpClient
end EntityClient
