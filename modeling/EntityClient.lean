import EntityClient.Filter.Draft
import EntityClient.Remote.RouteTable
import EntityClient.Remote.Script
import EntityClient.Session.Collection
import EntityClient.Session.Revision
import EntityClient.Session.Write
import EntityClient.Proofs.Outcome
import EntityClient.Proofs.Calendar.RoundTrip
import EntityClient.Proofs.Number.Nearest
import EntityClient.Proofs.Entity.RoundTrip
import EntityClient.Proofs.Session.Exec
import EntityClient.Proofs.Session.Run
import EntityClient.Proofs.Session.IdentityMap
import EntityClient.Proofs.Session.Stability
import EntityClient.Proofs.Filter.Bracketing
import EntityClient.Proofs.Filter.Normal
import EntityClient.Proofs.Filter.Quoting
import EntityClient.Proofs.Filter.Readability
import EntityClient.Proofs.Session.Atomicity
import EntityClient.Proofs.Session.Listing
import EntityClient.Proofs.Filter.Precedence
import EntityClient.Proofs.Filter.Endings
import EntityClient.Proofs.Filter.Injection
import EntityClient.Proofs.Session.Requests
import EntityClient.Proofs.Session.Hydration
import EntityClient.Proofs.Session.Children
import EntityClient.Proofs.Session.Readonly
import EntityClient.Proofs.Session.Untyped
import EntityClient.Proofs.Remote.Perform
import EntityClient.Proofs.Remote.LastFailure
import EntityClient.Proofs.Session.SchemaLoading
import EntityClient.Proofs.Session.LookupOrder
import EntityClient.Proofs.Remote.Url
import EntityClient.Proofs.Session.Lockstep
import EntityClient.Proofs.Session.Interchange
import EntityClient.Proofs.Text.Numeral
import EntityClient.Proofs.Session.WriteLog
import EntityClient.Proofs.Session.FullListing
import EntityClient.Proofs.Session.Saving
import EntityClient.Proofs.Session.Addressing
import EntityClient.Proofs.Remote.Exchange
import EntityClient.Proofs.Delta
import EntityClient.Proofs.Session.Eviction
import EntityClient.Proofs.Property.Lookups
import EntityClient.Proofs.Property.SchemaForms
import EntityClient.Proofs.Session.Deleting
import EntityClient.Proofs.Session.Resolving
import EntityClient.Proofs.Filter.Incomplete
import EntityClient.Proofs.SortOrder
import EntityClient.Proofs.Session.ListRequest
import EntityClient.Proofs.Property.Fitting
import EntityClient.Proofs.Entity.Layout
import EntityClient.Proofs.Calendar.Separators
import EntityClient.Proofs.Filter.FirstCondition
