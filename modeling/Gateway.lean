import Gateway.Exchange
import Gateway.Main
import Gateway.Proofs.Connection.Correlation
import Gateway.Proofs.Connection.Interleaving
import Gateway.Proofs.Frame.Decoding
import Gateway.Proofs.Frame.Chunks
import Gateway.Proofs.Decimal.Canonical
import Gateway.Proofs.Json.Strings
import Gateway.Proofs.Json.Numbers
import Gateway.Proofs.Json.RoundTrip
import Gateway.Proofs.Frame.Stream
import Gateway.Proofs.Json.Reading
import Gateway.Proofs.Limiter.Allowance
import Gateway.Proofs.Limiter.Isolation
import Gateway.Proofs.Switchboard.Conservation
import Gateway.Proofs.Rehearsal.Admission
import Gateway.Proofs.Lifecycle.Phases
import Gateway.Proofs.Lifecycle.Draining
import Gateway.Proofs.Lifecycle.Intake
import Gateway.Proofs.Rehearsal.FanOut
import Gateway.Proofs.Json.Depth
import Gateway.Proofs.Packet.Delivery
import Gateway.Proofs.Metrics.Tallies
import Gateway.Proofs.Switchboard.Counting
import Gateway.Proofs.Rehearsal.Counting
import Gateway.Proofs.Client.Slots
import Gateway.Proofs.Client.Turns
import Gateway.Proofs.Client.Quiet
import Gateway.Proofs.Client.Operations
import Gateway.Proofs.Client.Succession
import Gateway.Proofs.Frame.Grammar
import Gateway.Proofs.Limiter.Blocking
import Gateway.Proofs.Json.Records
import Gateway.Proofs.Packet.RoundTrip
import Gateway.Proofs.Switchboard.Closing
import Gateway.Proofs.Server.Turns
import Gateway.Proofs.Server.Release
import Gateway.Proofs.Limiter.Retrying
import Gateway.Proofs.Rehearsal.Routing
import Gateway.Proofs.Client.Absence
import Gateway.Proofs.Client.Oversized
import Gateway.Proofs.Rehearsal.Boards
import Gateway.Proofs.Rehearsal.Deadlines
import Gateway.Proofs.Client.Cancelling
import Gateway.Proofs.Exchange.Accounts
import Gateway.Proofs.Exchange.Expiry
import Gateway.Proofs.Registry.Wiring
import Gateway.Proofs.Text.Trimming
import Gateway.Proofs.Registry.Environment
import Gateway.Proofs.Broadcast.Strict
import Gateway.Proofs.Token.Letters
import Gateway.Proofs.Json.Passing
import Gateway.Proofs.Json.Pacing
import Gateway.Proofs.Json.Showing
import Gateway.Proofs.Token.Genuine
import Gateway.Proofs.Http.Callers
import Gateway.Proofs.Frame.Extent
import Gateway.Proofs.Packet.Agreement
