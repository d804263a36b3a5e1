import EntityClient.Remote.Http

/-!
Requests on a transport one after another, whatever each of them is: their answers in order, and the
state that they leave.
-/

namespace EntityClient

/-- What a request is answered with: the document read, or the text of the response to a write. -/
inductive Answer where
  | document (v : Json)
  | text (s : String)

namespace Transport

variable {σ : Type}

def perform (t : Transport σ) : Request → σ → Except Failure Answer × σ
  | .read path query, s => ((t.read path query s).1.map .document, (t.read path query s).2)
  | .write w, s => ((t.write w s).1.map .text, (t.write w s).2)

/-- The state after a row of requests. -/
def after (t : Transport σ) (s : σ) (requests : List Request) : σ :=
  requests.foldl (fun s r => (t.perform r s).2) s

/-- The answers to a row of requests, in order. -/
def answers (t : Transport σ) (s : σ) : List Request → List (Except Failure Answer)
  | [] => []
  | r :: rest => (t.perform r s).1 :: t.answers (t.perform r s).2 rest

@[simp]
theorem after_nil (t : Transport σ) (s : σ) : t.after s [] = s := rfl

@[simp]
theorem after_cons (t : Transport σ) (s : σ) (r : Request) (rest : List Request) :
    t.after s (r :: rest) = t.after (t.perform r s).2 rest := rfl

theorem after_append (t : Transport σ) (s : σ) (first more : List Request) :
    t.after s (first ++ more) = t.after (t.after s first) more :=
  List.foldl_append

end Transport
end EntityClient
