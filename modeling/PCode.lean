import PCode.Channel.Memory
import PCode.Channel.Queue
import PCode.ErrorType.Grammar
import PCode.ErrorType.Printer
import PCode.Machine.Session
import PCode.Proofs.Execution.Rules
import PCode.Proofs.Stack.Effect
import PCode.Proofs.Execution.Failure
import PCode.Proofs.Session.History
import PCode.Proofs.Execution.Moves
import PCode.Proofs.Session.Bounds
import PCode.Proofs.Session.Lifecycle
import PCode.Proofs.Execution.Kinds
import PCode.Proofs.Session.Fault
import PCode.Proofs.Frame.Return
import PCode.Proofs.Frame.Live
import PCode.Proofs.Frame.Discipline
import PCode.Proofs.Frame.Scope
import PCode.Proofs.Session.Range
import PCode.Proofs.Session.Budget
import PCode.Proofs.Channel.Lines
import PCode.Proofs.Channel.Mirror
import PCode.Proofs.Channel.Tokens
import PCode.Proofs.Session.Simulation
import PCode.Proofs.Instruction.Codec
import PCode.Proofs.Session.Locality
import PCode.Proofs.Session.Causality
import PCode.Proofs.Execution.Capacity
import PCode.Proofs.Session.Capacity
import PCode.Proofs.Session.Record
import PCode.Proofs.Session.Run
import PCode.Proofs.Session.Observation
import PCode.Proofs.Calendar.Checked
import PCode.Proofs.Session.Decoding
import PCode.Proofs.Channel.Transcript
import PCode.Proofs.Session.Relay
import PCode.Proofs.Execution.Arithmetic
import PCode.Proofs.Session.Operation
import PCode.Proofs.Session.Effect
import PCode.Proofs.Session.Exhaustion
import PCode.Proofs.Session.Recall
import PCode.Proofs.Session.Chronicle
import PCode.Proofs.Stack.Calls
import PCode.Proofs.Settings.Rendering
import PCode.Proofs.Log.Timestamp
import PCode.Proofs.Session.Journal
import PCode.Proofs.Program.Listing
import PCode.Proofs.ErrorType.Renaming
import PCode.Proofs.ErrorType.Acceptance
import PCode.Proofs.ErrorType.Template
import PCode.Proofs.ErrorType.Rendering
import PCode.Proofs.ErrorType.Interpolation
import PCode.Proofs.Trace.Column
