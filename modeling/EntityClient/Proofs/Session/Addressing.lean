import EntityClient.Proofs.Remote.Exchange
import EntityClient.Proofs.Remote.Url
import EntityClient.Proofs.Session.Frame

/-!
What a listing sends over HTTP. The first request of a listing is the one that lists the type, and
its URL shows the parameters, so the filter reaches the store as the query renders it, and no other.
-/

namespace EntityClient

namespace Session

open EntityClient.Action HttpClient

variable {γ : Type}

/-- The requests that were sent over HTTP stay in the log. -/
def Logs (s s' : Session (HttpState (γ × List HttpRequest))) : Prop :=
  s.remote.client.2 <+: s'.remote.client.2

instance : Std.Refl (Logs (γ := γ)) := ⟨fun s => List.prefix_refl s.remote.client.2⟩

instance : IsTrans (Session (HttpState (γ × List HttpRequest))) Logs :=
  ⟨fun _ _ _ => List.IsPrefix.trans⟩

variable (c : HttpClient γ) (a : Account)

theorem log_read (path : String) (query : List (String × String))
    (s : HttpState (γ × List HttpRequest)) :
    ((c.recorded.transport a).read path query s).2.client.2 =
      s.client.2 ++ [a.request (.read path query)] :=
  congrArg Prod.snd (perform_client c.recorded a (.read path query) s)

theorem logs_reading : Reading (c.recorded.transport a) Logs where
  read s path query := by
    rw [Logs, log_read]
    exact List.prefix_append _ _
  schema s schema _ := List.prefix_refl _
  pool s pool := List.prefix_refl _

/-- What a listing sends over HTTP: nothing if its order or its query has no text, else first of all
a request to list the type, whose parameters have the text of the query as their filter. -/
structure SendsFilter (type : String) (query : Option Filter.Query)
    (order : List (String × String)) (full : Bool) (before after : List HttpRequest) : Prop where
  refused : ∀ x, SortOrder.render order = .error x ∨ renderFilter query = .error x → after = before
  sent : ∀ orderText filter, SortOrder.render order = .ok orderText →
    renderFilter query = .ok filter →
    ∃ request more parameters, after = before ++ request :: more ∧ request.method = .get ∧
      a.Addresses ("/" ++ type) (listParameters filter orderText full) request.url ∧
      Account.readQuery? (Account.behindMark request.url) = some parameters ∧
      parameters.filter (·.1 == "filter") = if filter = "" then [] else [("filter", filter)]

theorem filter_listParameters (filter order : String) (full : Bool) :
    (a.parameters (listParameters filter order full)).filter (·.1 == "filter") =
      if filter = "" then [] else [("filter", filter)] := by
  by_cases hfilter : filter = "" <;> by_cases horder : order = "" <;> cases full <;>
    simp [Account.parameters, listParameters, hfilter, horder]

theorem list_sendsFilter (s : Session (HttpState (γ × List HttpRequest))) (type : String)
    (query : Option Filter.Query) (order : List (String × String)) (full : Bool) :
    SendsFilter a type query order full s.remote.client.2
      (exec (list (c.recorded.transport a) type query order full) s).2.remote.client.2 where
  refused x refused := by
    obtain unordered | unfiltered := refused
    · rw [list, unordered]
      rfl
    · rw [list, unfiltered]
      cases SortOrder.render order <;> rfl
  sent orderText filter ordered filtered := by
    obtain ⟨more, rest⟩ := (logs_reading c a).list_rendered s full ordered filtered
    rw [log_read, List.append_assoc] at rest
    have addressed := a.addresses_url ("/" ++ type) (listParameters filter orderText full)
    refine ⟨_, more, _, rest.symm, rfl, addressed, addressed.decoded, ?_⟩
    rw [← Account.parameters_eq]
    exact filter_listParameters a filter orderText full

end Session

end EntityClient
