import Wirebench.Address.Packed
import Wirebench.Json.Parser
import Wirebench.Json.Printer
import Wirebench.Main
import Wirebench.Script.Device
import Wirebench.Script.Masking
import Wirebench.Script.Run
import Wirebench.Scripted.Duet
import Wirebench.Proofs.Telnet.Carrier
import Wirebench.Proofs.Telnet.Stack
import Wirebench.Proofs.Telnet.Setup
import Wirebench.Proofs.Telnet.Transparency
import Wirebench.Proofs.Scripted.Pipe
import Wirebench.Proofs.Loopback.Moves
import Wirebench.Proofs.Loopback.Ownership
import Wirebench.Proofs.Loopback.Steps
import Wirebench.Proofs.Loopback.Entries
import Wirebench.Proofs.Loopback.Vacancy
import Wirebench.Proofs.Loopback.Uninterrupted
import Wirebench.Proofs.Loopback.Flow
import Wirebench.Proofs.Loopback.Delivery
import Wirebench.Proofs.Loopback.Stopping
import Wirebench.Proofs.Loopback.ShutDown
import Wirebench.Proofs.Loopback.PendingPorts
import Wirebench.Proofs.Relay.Transducer
import Wirebench.Proofs.Relay.Trace
import Wirebench.Proofs.Relay.Deliveries
import Wirebench.Proofs.Relay.Invariants
import Wirebench.Proofs.Relay.Record
import Wirebench.Proofs.Relay.Schedule
import Wirebench.Proofs.Telnet.Grammar
import Wirebench.Proofs.Telnet.Words
import Wirebench.Proofs.Telnet.Agreement
import Wirebench.Proofs.Telnet.Rendezvous
import Wirebench.Proofs.Bench.Ledger
import Wirebench.Proofs.Bench.Exchanges
import Wirebench.Proofs.Bench.Openings
import Wirebench.Proofs.Bench.Stages
import Wirebench.Proofs.Bench.Cleanup
import Wirebench.Proofs.Bench.Phases
import Wirebench.Proofs.Bench.SettingUp
import Wirebench.Proofs.Text.Numerals
import Wirebench.Proofs.Text.Fields
import Wirebench.Proofs.Descriptor.RoundTrip
import Wirebench.Proofs.Address.Ip
import Wirebench.Proofs.Address.RoundTrip
import Wirebench.Proofs.Wire.Streams
import Wirebench.Proofs.Bench.Comparison
import Wirebench.Proofs.Telnet.Interruption
import Wirebench.Proofs.Telnet.OptionSets
import Wirebench.Proofs.Telnet.Replies
import Wirebench.Proofs.Wire.Calls
import Wirebench.Proofs.Wire.Requests
import Wirebench.Proofs.Wire.Steps
import Wirebench.Proofs.Wire.Setups
import Wirebench.Proofs.Wire.Lifecycle
import Wirebench.Proofs.Wire.Listening
import Wirebench.Proofs.Config.RoundTrip
import Wirebench.Proofs.Loopback.MatchingStacks
import Wirebench.Proofs.Wire.Queries
import Wirebench.Proofs.Config.Admission
import Wirebench.Proofs.Descriptor.Grammar
import Wirebench.Proofs.Bench.Closing
import Wirebench.Proofs.Loopback.Datagrams
import Wirebench.Proofs.Bench.Faithful
import Wirebench.Proofs.Address.Packed
import Wirebench.Proofs.CommandLine.Notations
import Wirebench.Proofs.Relay.Succession
