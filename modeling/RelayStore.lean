import RelayStore.Address.Scan
import RelayStore.Address.Socket
import RelayStore.Address.V4
import RelayStore.Address.V6
import RelayStore.Admission
import RelayStore.Answer
import RelayStore.Cluster
import RelayStore.Cluster.Run
import RelayStore.Command
import RelayStore.CommandLine.Flag
import RelayStore.CommandLine.Invocation
import RelayStore.CommandLine.Notice
import RelayStore.CommandLine.Page
import RelayStore.CommandLine.Similar
import RelayStore.Config
import RelayStore.Console
import RelayStore.Dialogue
import RelayStore.Fault
import RelayStore.Gate
import RelayStore.Inbox
import RelayStore.Line.Framer
import RelayStore.Line.Sink
import RelayStore.Main
import RelayStore.Network
import RelayStore.Proofs.Address.Readback
import RelayStore.Proofs.Admission.Callers
import RelayStore.Proofs.Admission.Courses
import RelayStore.Proofs.Admission.Following
import RelayStore.Proofs.Admission.Mirror
import RelayStore.Proofs.Admission.Permits
import RelayStore.Proofs.Admission.Register
import RelayStore.Proofs.Admission.Requests
import RelayStore.Proofs.Admission.Steps
import RelayStore.Proofs.Admission.Turns
import RelayStore.Proofs.Admission.Unheard
import RelayStore.Proofs.Cluster.Absence
import RelayStore.Proofs.Cluster.Alone
import RelayStore.Proofs.Cluster.Cutoff
import RelayStore.Proofs.Cluster.Delivery
import RelayStore.Proofs.Cluster.Exchange
import RelayStore.Proofs.Cluster.Hops
import RelayStore.Proofs.Cluster.InFlight
import RelayStore.Proofs.Cluster.Interleaved
import RelayStore.Proofs.Cluster.Ledger
import RelayStore.Proofs.Cluster.Members
import RelayStore.Proofs.Cluster.Reached
import RelayStore.Proofs.Cluster.Relay
import RelayStore.Proofs.Cluster.Unseen
import RelayStore.Proofs.CommandLine.Carried
import RelayStore.Proofs.CommandLine.Written
import RelayStore.Proofs.Line.Endings
import RelayStore.Proofs.Line.Filling
import RelayStore.Proofs.Line.Room
import RelayStore.Proofs.Line.Roundtrip
import RelayStore.Proofs.Line.Sent
import RelayStore.Proofs.Line.Splitter
import RelayStore.Proofs.Request.Accepted
import RelayStore.Proofs.Request.Grammar
import RelayStore.Proofs.Request.Marked
import RelayStore.Proofs.Request.MarkedForm
import RelayStore.Proofs.Request.Rendered
import RelayStore.Proofs.Request.Reparsed
import RelayStore.Proofs.Session.Arrivals
import RelayStore.Proofs.Session.Filtered
import RelayStore.Proofs.Session.Interrupted
import RelayStore.Proofs.Session.Pairing
import RelayStore.Proofs.Session.Readback
import RelayStore.Proofs.Session.Replay
import RelayStore.Proofs.Session.ReplyLimit
import RelayStore.Proofs.Session.Spliced
import RelayStore.Proofs.Session.Stopped
import RelayStore.Proofs.Session.Texts
import RelayStore.Proofs.Session.Transcript
import RelayStore.Proofs.Session.Typed
import RelayStore.Proofs.Store.Applied
import RelayStore.Proofs.Store.Clean
import RelayStore.Proofs.Store.History
import RelayStore.Proofs.Text.Coding
import RelayStore.Proofs.Text.Cut
import RelayStore.Proofs.Text.Decimal
import RelayStore.Proofs.Text.Order
import RelayStore.Proofs.Text.Spelling
import RelayStore.Proofs.Text.WellFormed
import RelayStore.Proofs.Text.Words
import RelayStore.Reply
import RelayStore.Request
import RelayStore.Service
import RelayStore.Session
import RelayStore.Store
import RelayStore.Store.Call
import RelayStore.Text.Numeral
import RelayStore.Text.Quoted
import RelayStore.Text.Token
import RelayStore.Text.Unprintable
import RelayStore.Text.Utf8
import RelayStore.Text.White
