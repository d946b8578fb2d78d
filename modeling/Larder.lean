import Larder.Bytes
import Larder.Checksum
import Larder.Client
import Larder.Command
import Larder.Configuration
import Larder.Connection
import Larder.Counters
import Larder.Decimal
import Larder.Disk
import Larder.Engine
import Larder.ExpiryWheel
import Larder.FileOperation
import Larder.FileTree
import Larder.FiniteMap
import Larder.Frame
import Larder.Framer
import Larder.Grammar
import Larder.Limits
import Larder.Main
import Larder.Path
import Larder.Proofs.Client.InOrder
import Larder.Proofs.Client.InStep
import Larder.Proofs.Connection.Frames
import Larder.Proofs.Connection.Refused
import Larder.Proofs.Connection.Segments
import Larder.Proofs.Decimal
import Larder.Proofs.Disk
import Larder.Proofs.DistinctKeys
import Larder.Proofs.Engine.Admitted
import Larder.Proofs.Engine.ByteCounts
import Larder.Proofs.Engine.Commands
import Larder.Proofs.Engine.Counting
import Larder.Proofs.Engine.Histories
import Larder.Proofs.Engine.Isolation
import Larder.Proofs.Engine.Orderly
import Larder.Proofs.Engine.Parsing
import Larder.Proofs.Engine.Payloads
import Larder.Proofs.Engine.Reached
import Larder.Proofs.Engine.ReadOnly
import Larder.Proofs.Engine.Refusals
import Larder.Proofs.Engine.Related
import Larder.Proofs.Engine.Settled
import Larder.Proofs.Engine.Streaming
import Larder.Proofs.Engine.Sweeps
import Larder.Proofs.Engine.Turns
import Larder.Proofs.Engine.Visits
import Larder.Proofs.Engine.WholeCommands
import Larder.Proofs.ExpiryBatch
import Larder.Proofs.ExpiryRounds
import Larder.Proofs.ExpiryTimes
import Larder.Proofs.ExpiryWheel
import Larder.Proofs.FiniteMap
import Larder.Proofs.Framing.Delivery
import Larder.Proofs.Framing.Encoded
import Larder.Proofs.Framing.Faults
import Larder.Proofs.Framing.Grammar
import Larder.Proofs.Framing.Pieces
import Larder.Proofs.Framing.Scan
import Larder.Proofs.Grammar.RuleOrder
import Larder.Proofs.Recency
import Larder.Proofs.Registry
import Larder.Proofs.Registry.DueKeys
import Larder.Proofs.Registry.Held
import Larder.Proofs.Registry.Reached
import Larder.Proofs.Registry.Related
import Larder.Proofs.Registry.Stored
import Larder.Proofs.Registry.Sweep
import Larder.Proofs.Response
import Larder.Proofs.Server.Restart
import Larder.Proofs.Shell.Commands
import Larder.Proofs.Shell.Lines
import Larder.Proofs.Shell.Sending
import Larder.Proofs.Snapshot.Abandoned
import Larder.Proofs.Snapshot.Accepted
import Larder.Proofs.Snapshot.Archive
import Larder.Proofs.Snapshot.Damage
import Larder.Proofs.Snapshot.Draft
import Larder.Proofs.Snapshot.Dropping
import Larder.Proofs.Snapshot.Field
import Larder.Proofs.Snapshot.Fields
import Larder.Proofs.Snapshot.FileName
import Larder.Proofs.Snapshot.Image
import Larder.Proofs.Snapshot.Kept
import Larder.Proofs.Snapshot.Passes
import Larder.Proofs.Snapshot.RoundTrip
import Larder.Proofs.Snapshot.Successors
import Larder.Proofs.Snapshot.Writing
import Larder.Proofs.Stash.Answers
import Larder.Proofs.Stash.Change
import Larder.Proofs.Stash.Coherence
import Larder.Proofs.Stash.Dirty
import Larder.Proofs.Stash.Invariant
import Larder.Proofs.Stash.Leaner
import Larder.Proofs.Stash.Ledger
import Larder.Proofs.Stash.Operation
import Larder.Proofs.Stash.Reached
import Larder.Proofs.Stash.Records
import Larder.Proofs.Stash.Refinement
import Larder.Proofs.Stash.Restoring
import Larder.Proofs.Stash.Stored
import Larder.Proofs.Text.Sizes
import Larder.Proofs.UseOrder
import Larder.Proofs.Worker.Accounts
import Larder.Recency
import Larder.Registry
import Larder.Response
import Larder.Server
import Larder.Shell.Words
import Larder.Snapshot.Archive
import Larder.Snapshot.Error
import Larder.Snapshot.Field
import Larder.Snapshot.Image
import Larder.Snapshot.Pass
import Larder.Snapshot.Writer
import Larder.Stash
import Larder.Text.Lossy
import Larder.Text.Printable
import Larder.Timer
import Larder.Worker
