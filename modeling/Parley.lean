import Parley.Answer
import Parley.Contract
import Parley.ContractId
import Parley.Digest.Sha1
import Parley.Dispatch.Basic
import Parley.Double.Basic
import Parley.Double.Text
import Parley.Engine.Assembly
import Parley.Engine.Manager
import Parley.Engine.Processor
import Parley.Engine.Tally
import Parley.Handling.Attempt
import Parley.Handling.Basic
import Parley.Handling.Duty
import Parley.Handling.Member
import Parley.Json.Basic
import Parley.Json.Number
import Parley.Json.Printer
import Parley.Json.Reader
import Parley.Ledger.Basic
import Parley.Ledger.Desk
import Parley.Ledger.Lease
import Parley.Logging.Filter
import Parley.Message
import Parley.Moment
import Parley.Negotiation.Basic
import Parley.Negotiation.State
import Parley.Pace.Delay
import Parley.Pace.Retry
import Parley.Pace.Wait
import Parley.Scenario.Basic
import Parley.Scenario.Script
import Parley.Scenario.Session
import Parley.Scenario.Step
import Parley.Scenario.Timeline
import Parley.Scenario.World
import Parley.Settings.Assembly
import Parley.Settings.Basic
import Parley.Settings.Dialect
import Parley.Settings.JsonForm
import Parley.Settings.Layers
import Parley.Settings.Loading
import Parley.Settings.TomlForm
import Parley.Settings.Tree
import Parley.Settings.Validation
import Parley.Settings.YamlForm
import Parley.Text.Alphanumeric
import Parley.Text.Blank
import Parley.Text.Digits
import Parley.Text.Lower
import Parley.Text.Utf8
import Parley.Toml.Basic
import Parley.Toml.Quoted
import Parley.Toml.Reader
import Parley.Toml.Scalar
import Parley.Uuid
import Parley.Wire.Answer
import Parley.Wire.Contract
import Parley.Wire.Fields
import Parley.Wire.Message
import Parley.Wire.Negotiation
import Parley.Wire.Settings
import Parley.Yaml.Block
import Parley.Yaml.Cursor
import Parley.Yaml.Node
import Parley.Yaml.Quoted
import Parley.Yaml.Token
import Parley.Proofs.Ledger.Calls
import Parley.Proofs.Ledger.Exclusion
import Parley.Proofs.Ledger.Batches
import Parley.Proofs.Ledger.Histories
import Parley.Proofs.Ledger.Sharing
import Parley.Proofs.Negotiation.Visits
import Parley.Proofs.Handling.Duty
import Parley.Proofs.Handling.Agreement
import Parley.Proofs.Handling.Run
import Parley.Proofs.Handling.Stale
import Parley.Proofs.Handling.Revisit
import Parley.Proofs.Engine.Waiting
import Parley.Proofs.Workshop.Basic
import Parley.Proofs.Workshop.Steps
import Parley.Proofs.Workshop.Order
import Parley.Proofs.Workshop.Course
import Parley.Proofs.Workshop.Serial
import Parley.Proofs.Workshop.Budget
import Parley.Proofs.Workshop.Sends
import Parley.Proofs.Workshop.Rounds
import Parley.Proofs.Workshop.Shifts
import Parley.Proofs.Workshop.Overlooked
import Parley.Proofs.Workshop.Sides
import Parley.Proofs.Workshop.Agreements
import Parley.Proofs.Workshop.Signing
import Parley.Proofs.Workshop.Reasons
import Parley.Proofs.Workshop.Leases
import Parley.Proofs.Workshop.Protocol
import Parley.Proofs.Workshop.Footprint
import Parley.Proofs.Workshop.Releases
import Parley.Proofs.Workshop.Upshot
import Parley.Proofs.Workshop.Interleaving
import Parley.Proofs.Engine.Counting
import Parley.Proofs.Handling.Sending
import Parley.Proofs.Workshop.Ticks
import Parley.Proofs.Workshop.Attempts
import Parley.Proofs.Workshop.Backoff
import Parley.Proofs.Json.Text
import Parley.Proofs.Wire.Forms
import Parley.Proofs.Wire.RoundTrip
import Parley.Proofs.Ledger.Selection
import Parley.Proofs.Negotiation.History
import Parley.Proofs.Handling.Failing
import Parley.Proofs.Handling.Table
import Parley.Proofs.Naming.Uuid
import Parley.Proofs.Naming.ContractId
import Parley.Proofs.Handling.Addressing
import Parley.Proofs.Double.Whole
import Parley.Proofs.Pace.Doubling
import Parley.Proofs.Handling.Agreeing
import Parley.Proofs.Double.Rounding
import Parley.Proofs.Pace.Ceiling
import Parley.Proofs.Dispatch.Routing
import Parley.Proofs.Dispatch.Office
import Parley.Proofs.Settings.Leaves
import Parley.Proofs.Settings.Validity
import Parley.Proofs.Settings.Fields
import Parley.Proofs.Settings.Precedence
import Parley.Proofs.Text.Digits
import Parley.Proofs.Double.Shortest
import Parley.Proofs.Double.Text
import Parley.Proofs.Settings.Verbatim
import Parley.Proofs.Settings.Names
import Parley.Proofs.Settings.Forms
import Parley.Proofs.Settings.Formats
import Parley.Proofs.Settings.Agreement
