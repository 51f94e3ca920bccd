import Coap.Bytes.Buffer
import Coap.ExtendedField
import Coap.Header
import Coap.Token
import Coap.Option.Wire
import Coap.Option.Outline
import Coap.Net.SocketAddress
import Coap.Message.Wire
import Coap.Uri.Options
import Coap.Time.Duration
import Coap.Decimal.Shortest
import Coap.Transport
import Coap.Config
import Coap.InFlight.Queue
import Coap.Endpoint.Handler
import Coap.Simulation.Session
import Coap.Proofs.Codec.RoundTrip
import Coap.Proofs.Codec.Room
import Coap.Proofs.Codec.Passes
import Coap.Proofs.Outcome.ExactlyOnce
import Coap.Proofs.Runs.Invariant
import Coap.Proofs.Runs.Serial
import Coap.Proofs.Runs.Turns
import Coap.Proofs.Runs.Scans
import Coap.Proofs.Runs.Fates
import Coap.Proofs.Outcome.History
import Coap.Proofs.Outcome.Causes
import Coap.Proofs.Outcome.Budget
import Coap.Proofs.Outcome.Ledger
import Coap.Proofs.Outcome.FailedSend
import Coap.Proofs.Outcome.Cancellation
import Coap.Proofs.InFlight.PlainList
import Coap.Proofs.Requests.Pieces
import Coap.Proofs.Requests.Sending
import Coap.Proofs.Outcome.Independence
import Coap.Proofs.Exchange.Answers
import Coap.Proofs.Options.Order
import Coap.Proofs.Options.Lookup
import Coap.Proofs.Options.Values
import Coap.Proofs.Codec.Overlong
import Coap.Proofs.Text.Numerals
import Coap.Proofs.Uri.Writing
import Coap.Proofs.Net.AddressText
import Coap.Proofs.Uri.Naming
import Coap.Proofs.Loop.Paths
import Coap.Proofs.Loop.Rounds
import Coap.Proofs.Loop.Delivery
import Coap.Proofs.Loop.Sessions
import Coap.Proofs.Calls.Reached
import Coap.Proofs.Calls.EntryWise
import Coap.Proofs.Calls.AllOrNothing
import Coap.Proofs.Calls.Receiving
import Coap.Proofs.Calls.Precedence
import Coap.Proofs.Runs.Locks
import Coap.Proofs.Noise.Alike
import Coap.Proofs.Noise.Unnoticed
import Coap.Proofs.Exchange.Cycle
import Coap.Proofs.InFlight.Questions
import Coap.Proofs.Calls.OutOfRange
import Coap.Proofs.InFlight.Schedule
import Coap.Proofs.Codec.HeaderWord
import Coap.Proofs.Bytes.Span
import Coap.Proofs.Bytes.Storing
import Coap.Proofs.Bytes.Reads
import Coap.Proofs.Uri.Acceptance
