import EntityClient.Proofs.Remote.Exchange
import EntityClient.Proofs.Remote.LastFailure
import EntityClient.Proofs.Remote.Url
import EntityClient.Proofs.Session.Lockstep
import EntityClient.Remote.RouteTable
import Mathlib.Data.List.Forall2

/-!
A session over HTTP and a session over a table of answers, side by side. When the client answers
each request with a response that stands for the table's answer, the two transports answer alike, so
the sessions run in lockstep, and what is sent over HTTP can be read back as what the table was
asked.
-/

namespace EntityClient

namespace HttpResponse

/-- The body is JSON with this error message. -/
def ErrorBody (body message : String) : Prop :=
  message ≠ "" ∧ (Json.parse? body).bind (·.get? "error") = some (.str message)

/-- The body carries no error message: it is no JSON, or has no error member, or one that says that
there is no error. -/
def SilentBody (body : String) : Prop :=
  ∀ v, (Json.parse? body).bind (·.get? "error") = some v →
    v = .null ∨ v = .bool false ∨ v = .str ""

theorem ErrorBody.carries {body message : String} (h : ErrorBody body message) :
    Carries body message :=
  errorText?_body.mp (by rw [h.2, errorText?, if_neg h.1])

theorem SilentBody.silent {body : String} (h : SilentBody body) (message : String) :
    ¬ Carries body message := by
  intro carries
  obtain ⟨v, found, words⟩ := errorText?_eq_some_iff.mp (errorText?_body.mpr carries)
  obtain rfl | rfl | rfl := h v found
  · cases words with
    | other present => exact present rfl
  · cases words with
    | other _ raised => exact raised rfl
  · cases words with
    | string ne => exact ne rfl
    | other _ _ noString => exact noString "" rfl

end HttpResponse

open HttpResponse

/-- What the client brings back stands for an answer of the table. -/
inductive Counterpart (r : Request) : Except Failure Json → Except String HttpResponse → Prop
  | document {v body} (reads : r.method = .get) (parses : Json.parse? body = some v) :
      Counterpart r (.ok v) (.ok ⟨200, body⟩)
  | text {body} (writes : r.method ≠ .get) :
      Counterpart r (.ok (.str body)) (.ok ⟨r.method.successStatus, body⟩)
  | notFound {message body} (named : ErrorBody body message) :
      Counterpart r (.error (.notFound message)) (.ok ⟨404, body⟩)
  | rejected {status message body} (other : status ≠ 404)
      (unexpected : status ≠ r.method.successStatus) (named : ErrorBody body message) :
      Counterpart r (.error (.rejected status message)) (.ok ⟨status, body⟩)
  | status {status body} (unexpected : status ≠ r.method.successStatus)
      (silent : SilentBody body) :
      Counterpart r (.error (.status (some status) body)) (.ok ⟨status, body⟩)
  | unanswered {message} : Counterpart r (.error (.status none message)) (.error message)

namespace HttpClient

section Counterparts

variable {r : Request} {v : Json} {outcome : Except String HttpResponse}

theorem classified_of_error {x : Failure} (h : Counterpart r (.error x) outcome) :
    Classified r outcome (.error x) := by
  cases h with
  | notFound named => exact .notFound named.carries
  | rejected other unexpected named => exact .rejected other unexpected named.carries
  | status unexpected silent => exact .status unexpected silent.silent
  | unanswered => exact .unanswered

theorem classified_of_document (reads : r.method = .get) (h : Counterpart r (.ok v) outcome) :
    Classified r outcome (.ok (.document v)) := by
  cases h with
  | document _ parses => exact .document reads (by rw [reads]; rfl) parses
  | text writes => exact absurd reads writes

theorem classified_of_text (writes : r.method ≠ .get) (h : Counterpart r (.ok v) outcome) :
    Classified r outcome (.ok (.text (RouteTable.bodyText v))) := by
  cases h with
  | document reads _ => exact absurd reads writes
  | text _ => exact .text writes rfl

end Counterparts

variable {γ : Type} (c : HttpClient γ) (account : Account)

/-- A counterpart of the table's answer makes the transport over HTTP answer as the table does. -/
theorem perform_of_counterpart {table : RouteTable} {r : Request} {s : HttpState γ}
    (h : Counterpart r (table.answer r.method r.path) (c.send (account.request r) s.client).1) :
    (RouteTable.transport.perform r table).1 = ((c.transport account).perform r s).1 := by
  rw [perform_answer, eq_comm, verdict_eq_iff]
  cases r with
  | read path query =>
      change Classified _ _ ((table.answer .get path).map .document)
      change Counterpart _ (table.answer .get path) _ at h
      cases answered : table.answer .get path with
      | error x => exact classified_of_error (answered ▸ h)
      | ok v => exact classified_of_document rfl (answered ▸ h)
  | write w =>
      let r := Request.write w
      change Classified r _ (((table.answer r.method r.path).map RouteTable.bodyText).map .text)
      cases answered : table.answer r.method r.path with
      | error x => exact classified_of_error (answered ▸ h)
      | ok v => exact classified_of_text (Request.method_write_ne w) (answered ▸ h)

/-- One after another, the client answers requests with counterparts of the table's answers. -/
def StandsIn (table : RouteTable) : γ → List Request → Prop
  | _, [] => True
  | client, r :: rest =>
      Counterpart r (table.answer r.method r.path) (c.send (account.request r) client).1 ∧
        StandsIn table (c.send (account.request r) client).2 rest

variable {c account} {table : RouteTable}

theorem StandsIn.recorded {requests : List Request} {client : γ × List HttpRequest}
    (h : StandsIn c account table client.1 requests) :
    StandsIn c.recorded account table client requests := by
  induction requests generalizing client with
  | nil => trivial
  | cons r rest ih =>
      obtain ⟨first, later⟩ := h
      have next : StandsIn c account table (c.recorded.send (account.request r) client).2.1 rest :=
        later
      exact ⟨first, ih next⟩

theorem StandsIn.answers {requests : List Request} {s : HttpState γ}
    (h : StandsIn c account table s.client requests) :
    RouteTable.transport.answers table requests = (c.transport account).answers s requests := by
  induction requests generalizing s with
  | nil => rfl
  | cons r rest ih =>
      have same : (RouteTable.transport.perform r table).2 = table := by cases r <;> rfl
      obtain ⟨first, later⟩ := h
      rw [← perform_client c account r s] at later
      rw [Transport.answers, Transport.answers, perform_of_counterpart c account first, same,
        ih later]

variable (c account) in
theorem after_recorded (requests : List Request) (s : HttpState (γ × List HttpRequest)) :
    ((c.recorded.transport account).after s requests).client.2 =
      s.client.2 ++ requests.map account.request := by
  induction requests generalizing s with
  | nil => rw [Transport.after_nil, List.map_nil, List.append_nil]
  | cons r rest ih =>
      rw [Transport.after_cons, ih, perform_client, List.map_cons, HttpClient.recorded,
        List.append_assoc, List.singleton_append]

end HttpClient

/-- What was sent over HTTP is the request: its method, the text of its body, and a URL that is made
of its path and its parameters. A path without question mark and the parameters apart from the key
can be read off the URL from the left as well; what is read is the very path of the request unless
that starts with several slashes. -/
structure Conveys (a : Account) (r : Request) (sent : HttpRequest) : Prop where
  method : sent.method = r.method
  addresses : a.Addresses r.path r.query sent.url
  url : '?' ∉ r.path.toList → ∃ parameters,
    a.readUrl? sent.url = some (Account.oneSlash r.path, parameters) ∧
      parameters.filter (·.1 != "apikey") = r.query.filter (·.1 != "apikey")
  path : ∀ rest, r.path.toList = '/' :: rest → '?' ∉ rest →
    ((a.readUrl? sent.url).map Prod.fst = some r.path ↔ rest.head? ≠ some '/')
  body : sent.body = r.body.map Json.compact

theorem conveys_request (a : Account) (r : Request) : Conveys a r (a.request r) where
  method := rfl
  addresses := a.addresses_url r.path r.query
  url plain := ⟨_, a.readUrl?_url plain r.query, a.filter_parameters r.query⟩
  path rest slash plain := by
    have unmarked : '?' ∉ r.path.toList := by simpa [slash] using plain
    have read : a.readUrl? (a.request r).url =
        some (Account.oneSlash r.path, a.parameters r.query) := a.readUrl?_url unmarked r.query
    rw [read, Option.map_some, Option.some.injEq, Account.oneSlash_eq_iff slash]
  body := rfl

namespace Session

open HttpClient

variable {γ : Type}

/-- The table and HTTP are interchangeable. As long as the client answers what the session over the
table asks with counterparts of the table's answers, the session over HTTP answers every call alike,
ends with the same instances, cache and schema, and sends the same requests. -/
theorem run_interchangeable (c : HttpClient γ) (account : Account) (table : RouteTable)
    (client : γ) (settings : Settings) (calls : List Call) :
    let overTable := RouteTable.transport.recorded
    let overHttp := c.recorded.transport account
    let s := run overTable (start (table, []) settings) calls
    let v := run overHttp (start { client := (client, []) } settings) calls
    StandsIn c account table client s.remote.2 →
      replies overTable (start (table, []) settings) calls =
          replies overHttp (start { client := (client, []) } settings) calls ∧
        v.pool = s.pool ∧ v.schema = s.schema ∧
        List.Forall₂ (Conveys account) s.remote.2 v.remote.client.2 := by
  intro overTable overHttp s v standsIn
  have agree : Agree RouteTable.transport overHttp table { client := (client, []) } s :=
    StandsIn.answers (s := { client := (client, []) }) standsIn.recorded
  have lockstep : Lockstep RouteTable.transport overHttp table { client := (client, []) }
      (start (table, []) settings) (start { client := (client, []) } settings) :=
    ⟨⟨rfl, rfl, rfl⟩, rfl, rfl⟩
  obtain ⟨-, follows⟩ := run_lockstep RouteTable.transport overHttp table
    { client := (client, []) } (start (table, []) settings) calls
  obtain ⟨answers, last⟩ := follows _ lockstep agree
  refine ⟨answers, last.pool, last.schema, ?_⟩
  have sent : v.remote.client.2 = s.remote.2.map account.request := by
    rw [last.second]
    exact after_recorded c account s.remote.2 { client := (client, []) }
  rw [sent, List.forall₂_map_right_iff]
  exact List.forall₂_same.mpr fun r _ => conveys_request account r

/-- A type that starts with a slash has one slash more in front of its path than the URL keeps. -/
theorem run_interchangeable_slash :
    let account : Account := { subdomain := "demo", key := "key" }
    let table : RouteTable := ⟨[((.get, "//member/1"), .ok (.obj []))]⟩
    let c : HttpClient Unit := ⟨fun _ _ => (.ok ⟨200, "\x7b\x7d"⟩, ())⟩
    let calls := [Call.find ⟨"/member", 1⟩]
    let s := run RouteTable.transport.recorded (start (table, []) {}) calls
    let v := run (c.recorded.transport account) (start { client := ((), []) } {}) calls
    StandsIn c account table () s.remote.2 ∧
      s.remote.2.map Request.path = ["//member/1"] ∧
      v.remote.client.2.map (fun r => (account.readUrl? r.url).map Prod.fst) =
        [some "/member/1"] := by
  intro account table c calls s v
  refine ⟨⟨.document rfl ?_, trivial⟩, rfl, ?_⟩
  · decide +kernel
  · decide +kernel

/-- A member is found and saved, and another one is gone. -/
theorem run_interchangeable_members :
    let account : Account := { subdomain := "demo", key := "key" }
    let table : RouteTable :=
      ⟨[((.get, "/member/1"), .ok (.obj [])), ((.put, "/member/1"), .ok (.str "")),
        ((.get, "/member/2"), .error (.notFound "gone"))]⟩
    let responses : List (Except String HttpResponse) :=
      [.ok ⟨200, "\x7b\x7d"⟩, .ok ⟨204, ""⟩, .ok ⟨404, "\x7b\"error\":\"gone\"\x7d"⟩]
    let calls := [Call.find ⟨"member", 1⟩, .save 0, .find ⟨"member", 2⟩]
    let s := run RouteTable.transport.recorded (start (table, []) {}) calls
    let v := run (queued.recorded.transport account) (start { client := (responses, []) } {}) calls
    StandsIn queued account table responses s.remote.2 ∧ s.remote.2.length = 3 ∧
      v.pool = s.pool ∧ List.Forall₂ (Conveys account) s.remote.2 v.remote.client.2 := by
  intro account table responses calls s v
  have standsIn : StandsIn queued account table responses s.remote.2 := by
    refine ⟨.document rfl ?_, .text ?_, .notFound ⟨?_, ?_⟩, trivial⟩
    · decide +kernel
    · decide
    · decide
    · decide +kernel
  obtain ⟨-, pool, -, sent⟩ :=
    run_interchangeable queued account table responses {} calls standsIn
  exact ⟨standsIn, rfl, pool, sent⟩

end Session
end EntityClient
