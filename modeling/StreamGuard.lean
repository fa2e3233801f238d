import StreamGuard.Lookup
import StreamGuard.Scenario
import StreamGuard.Proofs.Handout
import StreamGuard.Proofs.DigestIntegrity
import StreamGuard.Proofs.Refusal
import StreamGuard.Proofs.Honesty
import StreamGuard.Proofs.SizeBound
import StreamGuard.Proofs.Delivery
import StreamGuard.Proofs.Verdict
import StreamGuard.Proofs.Locate
import StreamGuard.Proofs.Termination
import StreamGuard.Proofs.Fetch
import StreamGuard.Proofs.Likeness
import StreamGuard.Proofs.Tally
import StreamGuard.Proofs.WrapOrder
import StreamGuard.Proofs.Breach
import StreamGuard.Proofs.Miscount
import StreamGuard.Proofs.Moves
import StreamGuard.Proofs.Interruption
import StreamGuard.Proofs.Lifecycle
import StreamGuard.Proofs.Closing
import StreamGuard.Proofs.PassThrough
import StreamGuard.Proofs.Adapter
import StreamGuard.Proofs.Standing
import StreamGuard.Proofs.Openings
import StreamGuard.Proofs.Uses
import StreamGuard.Proofs.Ownership
import StreamGuard.Proofs.Ledger
import StreamGuard.Proofs.Network
import StreamGuard.Proofs.Session
import StreamGuard.Proofs.Methods
import StreamGuard.Proofs.Gauge
import StreamGuard.Proofs.Cues
import StreamGuard.Proofs.Ways
import StreamGuard.Proofs.Lines
import StreamGuard.Proofs.Chronicle
import StreamGuard.Proofs.Accumulator
import StreamGuard.Proofs.Channels
import StreamGuard.Proofs.Records
import StreamGuard.Proofs.Counters
import StreamGuard.Proofs.Lockstep
import StreamGuard.Proofs.Dispatch
