import IntWalk.Error.Inspect
import IntWalk.Main
import IntWalk.Proofs.Checked.Runs
import IntWalk.Proofs.Parts.Contract
import IntWalk.Proofs.Parts.FiniteSet
import IntWalk.Proofs.Parts.Stored
import IntWalk.Proofs.RoundTrip
import IntWalk.Proofs.Sequence.Contract
import IntWalk.Proofs.Parts.Missing
import IntWalk.Proofs.Cursor.Trace
import IntWalk.Proofs.Cursor.Stateful
import IntWalk.Proofs.Cursor.Turns
import IntWalk.Proofs.Cursor.Exact
import IntWalk.Proofs.Failures
import IntWalk.Proofs.Cursor.Journal
import IntWalk.Proofs.Journals
import IntWalk.Proofs.Cursor.Filtering
import IntWalk.Proofs.Cursor.Skipping
import IntWalk.Proofs.Cursor.Streaming
import IntWalk.Proofs.Removals
import IntWalk.Proofs.Parts.Neighbours
import IntWalk.Proofs.Bits.OfList
import IntWalk.Proofs.Parts.MaximalRuns
import IntWalk.Proofs.CommandLine.Shown
import IntWalk.Proofs.CommandLine.Transfer
import IntWalk.Proofs.CommandLine.Filters
import IntWalk.Proofs.Parts.Scan
