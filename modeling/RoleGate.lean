import RoleGate.Command.Invocation
import RoleGate.Exchange.Enforcement
import RoleGate.Exchange.Markup
import RoleGate.Exchange.Routing
import RoleGate.Exchange.Session
import RoleGate.Main
import RoleGate.Proofs.Enforcement.Walk
import RoleGate.Site.Basic
import RoleGate.Proofs.Enforcement.Rewriting
import RoleGate.Proofs.Enforcement.Isolation
import RoleGate.Proofs.Access.Satisfaction
import RoleGate.Proofs.Access.Expressions
import RoleGate.Proofs.Access.Decision
import RoleGate.Proofs.Exchange.Restrictions
import RoleGate.Proofs.Routing.Table
import RoleGate.Proofs.Session.Timeline
import RoleGate.Proofs.Session.Doing
import RoleGate.Proofs.Session.Keeping
import RoleGate.Proofs.Session.Returning
import RoleGate.Proofs.Site.Routers
import RoleGate.Proofs.Routing.Dispatch
import RoleGate.Proofs.Routing.Current
import RoleGate.Proofs.Routing.Servable
import RoleGate.Proofs.Site.Servable
import RoleGate.Proofs.Session.Restoring
import RoleGate.Proofs.Session.Notified
import RoleGate.Proofs.Site.Refreshed
import RoleGate.Proofs.Markup.Canonical
import RoleGate.Proofs.Markup.Reading
import RoleGate.Proofs.Markup.Tags
import RoleGate.Proofs.Markup.RoundTrip
import RoleGate.Proofs.Markup.Parsed
import RoleGate.Proofs.Enforcement.Settled
import RoleGate.Proofs.Markup.Events
import RoleGate.Proofs.Markup.Exactness
import RoleGate.Proofs.Markup.Reloading
import RoleGate.Proofs.Markup.WellFormed
import RoleGate.Proofs.Enforcement.Stability
import RoleGate.Proofs.Enforcement.Sweeping
import RoleGate.Proofs.Command.Bodies
import RoleGate.Proofs.Session.Attributes
import RoleGate.Proofs.Template.Rendering
import RoleGate.Proofs.Template.Filling
import RoleGate.Proofs.Session.Histories
import RoleGate.Proofs.Enforcement.Ending
import RoleGate.Proofs.Enforcement.Idempotence
import RoleGate.Proofs.Enforcement.Stopping
import RoleGate.Proofs.Session.Overlays
import RoleGate.Proofs.Session.Configuring
import RoleGate.Proofs.Enforcement.Audited
import RoleGate.Proofs.Access.Forms
import RoleGate.Proofs.Markup.SourceOrder
import RoleGate.Proofs.Markup.Places
import RoleGate.Proofs.Markup.Omission
import RoleGate.Proofs.Routing.Matching
import RoleGate.Proofs.Routing.Refreshing
import RoleGate.Proofs.Template.Dividing
import RoleGate.Proofs.Text.Slicing
import RoleGate.Proofs.Markup.Positions
import RoleGate.Proofs.Markup.Remainder
import RoleGate.Proofs.Markup.Boundaries
import RoleGate.Proofs.Text.Numerals
import RoleGate.Proofs.Markup.References
import RoleGate.Proofs.Markup.AttributeMap
import RoleGate.Proofs.Routing.Compiling
