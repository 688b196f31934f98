import NetEngine.Engine.Poll
import NetEngine.Link.Scripted
import NetEngine.Proofs.Arp.Remembering
import NetEngine.Proofs.Bounds.Receiving
import NetEngine.Proofs.Checksum.Flipping
import NetEngine.Proofs.Checksum.Streaming
import NetEngine.Proofs.Engine.Echoing
import NetEngine.Proofs.Engine.Elapsing
import NetEngine.Proofs.Engine.Emitting
import NetEngine.Proofs.Engine.Handshakes
import NetEngine.Proofs.Engine.Neighbours
import NetEngine.Proofs.Engine.Ports
import NetEngine.Proofs.Engine.Reading
import NetEngine.Proofs.Engine.Refusal
import NetEngine.Proofs.Engine.Rejecting
import NetEngine.Proofs.Engine.Roles
import NetEngine.Proofs.Engine.Routing
import NetEngine.Proofs.Engine.Sending
import NetEngine.Proofs.Engine.Unassigned
import NetEngine.Proofs.Ipv4.RoundTrip
import NetEngine.Proofs.Link.Transmitting
import NetEngine.Proofs.Net.Repeating
import NetEngine.Proofs.Net.Resolving
import NetEngine.Proofs.Tcp.Handshake
import NetEngine.Proofs.Tcp.Opened
import NetEngine.Proofs.Tcp.Options
import NetEngine.Proofs.Tcp.Outstanding
import NetEngine.Proofs.Tcp.Period
import NetEngine.Proofs.Tcp.Racing
import NetEngine.Proofs.Tcp.RoundTrip
import NetEngine.Proofs.Tcp.Silence
import NetEngine.Proofs.Tcp.Stream
import NetEngine.Proofs.Tcp.Tracking
import NetEngine.Proofs.Tcp.Transition
import NetEngine.Proofs.Tcp.Unanswered
import NetEngine.Proofs.Udp.Naming
import NetEngine.Proofs.Udp.RoundTrip
