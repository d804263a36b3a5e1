import EntityClient.Text.Percent
import EntityClient.Text.Quoted

/-!
Accounts of the remote store and the URLs of their requests. Every URL carries the account's key
as the first parameter, unless the request brings a parameter of that name.
-/

namespace EntityClient

structure Account where
  subdomain : String
  key : String
  version : UInt32 := 1
  /-- Replaces the base that the subdomain gives. -/
  baseUrl : Option String := none
  /-- In milliseconds. -/
  timeout : UInt64 := 30000
  agent : String := "webling-rs/0.3.0"
deriving DecidableEq, Repr

namespace Account

/-- The root of all URLs, which ends in a slash. -/
def root (a : Account) : String :=
  match a.baseUrl with
  | some url => if url.toList.getLast? = some '/' then url else url ++ "/"
  | none => "https://" ++ a.subdomain ++ ".webling.ch/api/" ++ toString a.version ++ "/"

/-- The parameters that are sent for a query. -/
def parameters (a : Account) (query : List (String × String)) : List (String × String) :=
  if query.any fun p => p.1 == "apikey" then query else ("apikey", a.key) :: query

def parameterText (p : String × String) : List Char :=
  Text.percentEncode p.1 ++ '=' :: Text.percentEncode p.2

def queryText (query : List (String × String)) : List Char :=
  ['&'].intercalate (query.map parameterText)

def url (a : Account) (path : String) (query : List (String × String)) : String :=
  a.root ++ String.ofList
    (path.toList.dropWhile (· == '/') ++ '?' :: queryText (a.parameters query))

/-- How the account's transport shows itself. -/
def debugText (a : Account) : String :=
  "HttpTransport \x7b base_uri: " ++ Text.quoted a.root ++ ", .. \x7d"

end Account
end EntityClient
