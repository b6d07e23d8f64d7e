import DietExchange.Engine.Exchange
import DietExchange.Engine.Run
import DietExchange.Packet.Grammar
import DietExchange.Proofs.Engine.Completion
import DietExchange.Proofs.Engine.Gate
import DietExchange.Proofs.Engine.Provenance
import DietExchange.Proofs.Network.Commitment
import DietExchange.Proofs.Network.Standstill
import DietExchange.Proofs.Engine.Issued
import DietExchange.Proofs.Network.Opening
import DietExchange.Proofs.Engine.Accounting
import DietExchange.Proofs.Engine.InPlace
import DietExchange.Proofs.Packet.Checksum
import DietExchange.Proofs.Packet.RoundTrip
import DietExchange.Proofs.Packet.BitFlip
import DietExchange.Proofs.Engine.Representation
import DietExchange.Proofs.Cmac.Operations
import DietExchange.Proofs.Puzzle.Rotation
import DietExchange.Proofs.Engine.Admission
import DietExchange.Proofs.Engine.Solved
import DietExchange.Proofs.Engine.Coverage
import DietExchange.Proofs.Engine.Deadline
import DietExchange.Proofs.Engine.Outgoing
import DietExchange.Proofs.Network.Record
import DietExchange.Proofs.Network.Restart
import DietExchange.Proofs.Network.Recovery
import DietExchange.Proofs.Engine.Secrets
import DietExchange.Proofs.Network.Stranded
import DietExchange.Proofs.Network.Renewal
import DietExchange.Proofs.Packet.Authenticated
import DietExchange.Proofs.Packet.Acceptance
import DietExchange.Proofs.Engine.Establishments
import DietExchange.Proofs.Engine.Clock
import DietExchange.Proofs.Engine.Entries
import DietExchange.Proofs.Engine.Lapses
import DietExchange.Proofs.Engine.Independence
import DietExchange.Proofs.Engine.Isolation
import DietExchange.Proofs.Engine.Faults
import DietExchange.Proofs.Engine.Destination
import DietExchange.Proofs.Engine.Sweeps
import DietExchange.Proofs.Network.Collision
import DietExchange.Proofs.Puzzle.LeadingBits
import DietExchange.Proofs.Puzzle.Stepping
import DietExchange.Proofs.KeySet
import DietExchange.Proofs.Engine.VisitingOrder
import DietExchange.Proofs.Engine.Repeated
import DietExchange.Proofs.Packet.PrefixFree
import DietExchange.Proofs.Packet.Tag
import DietExchange.Proofs.Packet.WordSum
import DietExchange.Proofs.KeyStream
