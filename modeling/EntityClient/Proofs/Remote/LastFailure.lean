import EntityClient.Proofs.Remote.Perform

/-!
The failure that the transport over HTTP keeps. It is cleared when an exchange succeeds and set when
a call fails, be it in the exchange or in parsing what came back, so after every call it tells how
that call ended.
-/

namespace EntityClient

/-- What there is to say about an outcome: nothing, or the words of the failure. -/
def failureText {α : Type} : Except Failure α → Option String
  | .ok _ => none
  | .error e => some e.message

@[simp]
theorem failureText_map {α β : Type} (f : α → β) (r : Except Failure α) :
    failureText (r.map f) = failureText r := by
  cases r <;> rfl

namespace HttpClient

variable {γ : Type} (c : HttpClient γ) (account : Account)

theorem exchange_lastFailure (r : Request) (s : HttpState γ) :
    (c.exchange account r s).2.lastFailure = failureText (c.exchange account r s).1 := by
  unfold exchange
  obtain ⟨message | response, client⟩ := c.send (account.request r) s.client
  · rfl
  · by_cases expected : response.status = r.method.successStatus
    · simp only [if_pos expected]
      rfl
    · simp only [if_neg expected]
      rfl

/-- Reading clears the kept failure with the exchange, and sets it again if the body is no JSON. -/
theorem read_lastFailure (path : String) (query : List (String × String)) (s : HttpState γ) :
    ((c.transport account).read path query s).2.lastFailure =
      failureText ((c.transport account).read path query s).1 := by
  have kept := exchange_lastFailure c account (.read path query) s
  simp only [transport]
  rcases hr : c.exchange account (.read path query) s with ⟨e | body, s'⟩
  · rw [hr] at kept
    exact kept
  · rw [hr] at kept
    cases parsed : parseBody body with
    | ok v =>
        simp only [parsed]
        exact kept
    | error e =>
        simp only [parsed]
        rfl

/-- One call, in any state. -/
theorem perform_lastFailure (r : Request) (s : HttpState γ) :
    ((c.transport account).perform r s).2.lastFailure =
      failureText ((c.transport account).perform r s).1 := by
  cases r with
  | read path query =>
      rw [Transport.perform, failureText_map]
      exact read_lastFailure c account path query s
  | write w =>
      rw [Transport.perform, failureText_map]
      exact exchange_lastFailure c account (.write w) s

/-- Any row of calls, in any state. -/
theorem after_lastFailure (requests : List Request) (s : HttpState γ) :
    ((c.transport account).after s requests).lastFailure =
      (((c.transport account).answers s requests).getLast?.map failureText).getD s.lastFailure := by
  induction requests generalizing s with
  | nil => rfl
  | cons r rest ih =>
      rw [Transport.after_cons, ih, perform_lastFailure, Transport.answers, List.getLast?_cons]
      cases ((c.transport account).answers ((c.transport account).perform r s).2 rest).getLast? with
      | none => rfl
      | some a => rfl

/-- After any row of calls, whatever the client does, the kept failure is that of the last call, if
that has failed; before the first call there is none. So a success forgets the failure before it and
a document that cannot be parsed leaves its own behind. -/
theorem lastFailure_eq (client : γ) (requests : List Request) :
    let t := c.transport account
    let s := t.after { client } requests
    s.lastFailure = (t.answers { client } requests).getLast?.bind failureText ∧
      ∀ path query body next,
        c.send (account.request (.read path query)) s.client = (.ok ⟨200, body⟩, next) →
        Json.parse? body = none →
        t.read path query s = (.error (.malformed .notJson),
          { client := next, lastFailure := some (Failure.malformed .notJson).message }) := by
  intro t s
  constructor
  · have kept := after_lastFailure c account requests { client }
    rw [kept]
    cases (t.answers { client } requests).getLast? <;> rfl
  · intro path query body next sent malformed
    have expected : (200 : UInt16) = (Request.read path query).method.successStatus := rfl
    have exchanged : c.exchange account (.read path query) s = (.ok body, ⟨next, none⟩) := by
      simp only [exchange, sent, if_pos expected]
    have unreadable : parseBody body = .error (.malformed .notJson) := by
      rw [parseBody, malformed]
    simp only [t, transport, exchanged, unreadable]
    rfl

/-- Answers from a list, whatever the requests are. -/
def queued : HttpClient (List (Except String HttpResponse)) where
  send _ answers := (answers.headD (.error "connection reset"), answers.tail)

/-- A deletion fails, another one succeeds, and then a page comes in place of a document. -/
theorem lastFailure_eq_page :
    let t := queued.transport { subdomain := "demo", key := "k" }
    let start : HttpState (List (Except String HttpResponse)) :=
      { client := [.error "connection reset", .ok ⟨204, ""⟩, .ok ⟨200, "<html>"⟩] }
    let s := t.after start [.write (.delete "/member/2"), .write (.delete "/member/1")]
    (t.after start [.write (.delete "/member/2")]).lastFailure =
        some "HTTP error: connection reset" ∧
      s.lastFailure = none ∧
      (t.read "/member" [] s).2.lastFailure = some "parse error: <json>" := by
  intro t start s
  obtain ⟨failed, -⟩ := lastFailure_eq queued { subdomain := "demo", key := "k" } start.client
    [.write (.delete "/member/2")]
  obtain ⟨kept, malformed⟩ := lastFailure_eq queued { subdomain := "demo", key := "k" }
    start.client [.write (.delete "/member/2"), .write (.delete "/member/1")]
  refine ⟨failed, kept, ?_⟩
  have page := malformed "/member" [] "<html>" [] rfl (by decide +kernel)
  exact congrArg (fun r => r.2.lastFailure) page

end HttpClient
end EntityClient
