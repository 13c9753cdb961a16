import StreamConformance.Bench
import StreamConformance.Loopback
import StreamConformance.Main
import StreamConformance.Proofs.Sections
import StreamConformance.Proofs.Crew
import StreamConformance.Proofs.Channel.SignalOrder
import StreamConformance.Proofs.Channel.Echoing
import StreamConformance.Proofs.Channel.Line
import StreamConformance.Proofs.Channel.OpenLine
import StreamConformance.Proofs.Channel.EndToEnd
import StreamConformance.Proofs.Trial.Ledgers
import StreamConformance.Proofs.Trial.Session
import StreamConformance.Proofs.Trial.Law
import StreamConformance.Proofs.Trial.Verdict
import StreamConformance.Proofs.Trial.Handshake
import StreamConformance.Proofs.Trial.LedgerLaw
import StreamConformance.Proofs.Trial.Recital
import StreamConformance.Proofs.Channel.Chronicle
import StreamConformance.Proofs.Channel.Refusal
import StreamConformance.Proofs.Wire.Framing
import StreamConformance.Proofs.Consumer.Accounting
import StreamConformance.Proofs.Consumer.Subscriptions
import StreamConformance.Proofs.Consumer.Waits
import StreamConformance.Proofs.Channel.HandOver
import StreamConformance.Proofs.Channel.Mirror
import StreamConformance.Proofs.Channel.Hushed
import StreamConformance.Proofs.Channel.Wakeups
import StreamConformance.Proofs.Request.WireOrder
import StreamConformance.Proofs.Client.Closing
import StreamConformance.Proofs.Client.Isolation
import StreamConformance.Proofs.Client.Table
import StreamConformance.Proofs.Responder.Channels
import StreamConformance.Proofs.Suite.Names
import StreamConformance.Proofs.Suite.Series
import StreamConformance.Proofs.Script.Blocks
import StreamConformance.Proofs.Script.Segments
import StreamConformance.Proofs.Inquiry.EndToEnd
import StreamConformance.Proofs.Uris
import StreamConformance.Proofs.Marbles
import StreamConformance.Proofs.Responder.Sizes
