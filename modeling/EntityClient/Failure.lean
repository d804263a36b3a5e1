import EntityClient.Filter.Clause
import EntityClient.Property.Record

/-!
Failures of the client, by cause. The remote store is at fault for the first four kinds: it
answered with an error, with something malformed, or not at all. `Failure.message` words them.
-/

namespace EntityClient

/-- What is malformed about an answer or a value. -/
inductive Malformation where
  /-- Text that is not JSON. -/
  | notJson
  | date (raw : String) (fault : ScanFault)
  | timestamp (raw : String) (fault : ScanFault)
  | notText (found : Json)
  | record (fault : RecordFault)
  | schema
  | properties (type : String) (found : Json)
  | entity (type : String) (id : UInt64)
  | entityId (found : Json)
  | idList (found : Json)
  | idMap (found : Json)
  /-- A listing without a list of ids. -/
  | listing (path : String)
  /-- A full listing that is no list. -/
  | fullListing (path : String)
  | listedWithoutId (path : String)
  | createReply (body : String)
  | noRevision
  | changes (since : UInt64)
  | described (message : String)
deriving DecidableEq, Repr

/-- The text of each cause. The parser has words of its own for text that is not JSON; these are not
kept, and `<json>` stands for them. -/
def Malformation.message : Malformation → String
  | .notJson => "<json>"
  | .date raw fault => "invalid date \"" ++ raw ++ "\": " ++ fault.message
  | .timestamp raw fault => timestampMessage raw fault
  | .notText found => "expected a string, got " ++ found.compact
  | .record fault => fault.message
  | .schema => "definition must be a JSON object"
  | .properties type found => "unexpected properties for " ++ type ++ ": " ++ found.compact
  | .entity type id => type ++ "/" ++ toString id ++ ": expected a JSON object"
  | .entityId found => "invalid entity ID: " ++ found.compact
  | .idList found => "expected a list of IDs, got " ++ found.compact
  | .idMap found => "expected an ID map, got " ++ found.compact
  | .listing path => path ++ ": expected an \"objects\" list"
  | .fullListing path => path ++ ": expected a list of objects for format=full"
  | .listedWithoutId path => path ++ ": object without \"id\""
  | .createReply body => "invalid ID in create response: " ++ Text.quoted body
  | .noRevision => "replication response without \"revision\""
  | .changes since => "changes since " ++ toString since ++ ": expected a JSON object"
  | .described message => message

/-- The property a schema was asked for. -/
inductive PropertyRef where
  | title (t : String)
  | id (n : UInt64)
  | described (t : String)
deriving DecidableEq, Repr

def PropertyRef.text : PropertyRef → String
  | .title t => "\"" ++ t ++ "\""
  | .id n => "with ID " ++ toString n
  | .described t => t

inductive Failure where
  /-- No response, or one with an unexpected status and no error message. -/
  | status (code : Option UInt16) (message : String)
  | notFound (message : String)
  /-- The store answered with an error message. -/
  | rejected (code : UInt16) (message : String)
  | malformed (cause : Malformation)
  | filter (fault : Filter.Fault)
  | readonly (type : String) (id : Option UInt64)
  | withoutId (type : String)
  | sortDirection (property direction : String)
  | unsupportedDatatype (property datatype : String)
  | unknownProperty (type : String) (property : PropertyRef)
deriving DecidableEq, Repr

namespace Failure

def message : Failure → String
  | .status none message => "HTTP error: " ++ message
  | .status (some code) message => "HTTP error " ++ toString code ++ ": " ++ message
  | .notFound message => "not found: " ++ message
  | .rejected code message => "API error " ++ toString code ++ ": " ++ message
  | .malformed cause => "parse error: " ++ cause.message
  | .filter fault => "query error: " ++ fault.message
  | .readonly type none => "entity " ++ type ++ " is readonly"
  | .readonly type (some id) => "entity " ++ type ++ "/" ++ toString id ++ " is readonly"
  | .withoutId type => "entity of type " ++ type ++ " must have an ID"
  | .sortDirection property direction =>
      "invalid sorting direction \"" ++ direction ++ "\" for property \"" ++ property ++ "\""
  | .unsupportedDatatype property datatype =>
      "datatype \"" ++ datatype ++ "\" of property \"" ++ property ++ "\" is not supported"
  | .unknownProperty type property =>
      "property " ++ property.text ++ " does not exist in the " ++ type ++ " definition"

/-- Whether the failure came from the store or the way to it. -/
def isFromStore : Failure → Bool
  | .status _ _ | .notFound _ | .rejected _ _ | .malformed _ => true
  | _ => false

end Failure
end EntityClient
