import Tabular.Main
import Tabular.Transfer.Script
import Tabular.Machine
import Tabular.Proofs.Transfer.Moves
import Tabular.Proofs.Transfer.Consistency
import Tabular.Proofs.Transfer.History
import Tabular.Proofs.Transfer.Order
import Tabular.Proofs.Transfer.Failures
import Tabular.Proofs.Transfer.Outcome
import Tabular.Proofs.Inference.Observation
import Tabular.Proofs.Inference.Pool
import Tabular.Proofs.Transfer.Schedule
import Tabular.Proofs.Inference.Progress
import Tabular.Proofs.Inference.Invariance
import Tabular.Proofs.Delimited.Value
import Tabular.Proofs.Inference.Columns
import Tabular.Proofs.Delimited.Typed
import Tabular.Proofs.Delimited.Records
import Tabular.Proofs.Delimited.Reads
import Tabular.Proofs.Inference.ReadBack
import Tabular.Proofs.Files.Spelling
import Tabular.Proofs.Pipeline.Input
import Tabular.Proofs.Transfer.Progress
import Tabular.Proofs.Transfer.Token
import Tabular.Proofs.Transfer.Writes
import Tabular.Proofs.Transfer.Counts
import Tabular.Proofs.Transfer.Closings
import Tabular.Proofs.Transfer.Firing
import Tabular.Proofs.Command.Overrides
import Tabular.Proofs.Pipeline.RoundTrip
import Tabular.Proofs.Pipeline.Refusal
import Tabular.Proofs.Pipeline.Refinement
import Tabular.Proofs.Sink.Contract
import Tabular.Proofs.Source.Contract
import Tabular.Proofs.Inference.Determined
import Tabular.Proofs.Inference.Reinference
import Tabular.Proofs.Pipeline.Fixpoint
import Tabular.Proofs.Inference.Cap
import Tabular.Proofs.Inference.Cancellation
import Tabular.Proofs.Delimited.Conformance
import Tabular.Proofs.Delimited.Segments
import Tabular.Proofs.Schema.Layouts
import Tabular.Proofs.Config.Members
import Tabular.Proofs.Config.Encoding
import Tabular.Proofs.Inference.Agreement
import Tabular.Proofs.Machine.Limits
