import LispMachine.Application
import LispMachine.Assembly
import LispMachine.BindingLog
import LispMachine.Boot
import LispMachine.Buffer
import LispMachine.Callable
import LispMachine.Caller
import LispMachine.Checkpoint
import LispMachine.CommandLine
import LispMachine.Condition
import LispMachine.Decimal.Binary
import LispMachine.Decimal.FloatText
import LispMachine.Decimal.Numeral
import LispMachine.Decimal.Shortest
import LispMachine.Depth
import LispMachine.Double
import LispMachine.Dispatch
import LispMachine.Editing
import LispMachine.Evaluation
import LispMachine.Execution.Compilation
import LispMachine.Execution.Frame
import LispMachine.Execution.Interpreter
import LispMachine.Execution.Invocation
import LispMachine.Execution.Native
import LispMachine.Execution.Operation
import LispMachine.Execution.Translation
import LispMachine.Fault
import LispMachine.Folder
import LispMachine.Function
import LispMachine.Handler
import LispMachine.Heap.Basic
import LispMachine.Heap.Equality
import LispMachine.Help
import LispMachine.Instruction.Basic
import LispMachine.Instruction.Decode
import LispMachine.Instruction.Encode
import LispMachine.Instruction.Opcode
import LispMachine.Instruction.Operation
import LispMachine.Instruction.Text
import LispMachine.Json.Basic
import LispMachine.Json.Number
import LispMachine.Json.Parser
import LispMachine.Json.Printer
import LispMachine.Listing
import LispMachine.Machine
import LispMachine.Main
import LispMachine.Meter
import LispMachine.Motion
import LispMachine.NativeCode
import LispMachine.Number
import LispMachine.OperandStack
import LispMachine.Primitive.Action
import LispMachine.Primitive.Argument
import LispMachine.Primitive.Arithmetic
import LispMachine.Primitive.Catalogue
import LispMachine.Primitive.Control
import LispMachine.Primitive.Data
import LispMachine.Primitive.Editing
import LispMachine.Primitive.Matching
import LispMachine.Primitive.Sequence
import LispMachine.Primitive.Text
import LispMachine.Printing
import LispMachine.Program.Basic
import LispMachine.Program.Loading
import LispMachine.Program.Reading
import LispMachine.Proofs.Assembly.Failing
import LispMachine.Proofs.Assembly.Patching
import LispMachine.Proofs.Assembly.Transcript
import LispMachine.Proofs.Decimal.Rounding
import LispMachine.Proofs.Depth.Exactness
import LispMachine.Proofs.Depth.Facts
import LispMachine.Proofs.Depth.Paths
import LispMachine.Proofs.Depth.Running
import LispMachine.Proofs.Instruction.Canonical
import LispMachine.Proofs.Instruction.Decoding
import LispMachine.Proofs.Instruction.RoundTrip
import LispMachine.Proofs.Instruction.Spelling
import LispMachine.Proofs.Machine.Boot
import LispMachine.Proofs.Machine.Buffers
import LispMachine.Proofs.Machine.Compiling
import LispMachine.Proofs.Machine.Control
import LispMachine.Proofs.Machine.Execution
import LispMachine.Proofs.Machine.Invocation
import LispMachine.Proofs.Machine.Loading
import LispMachine.Proofs.Machine.Reached
import LispMachine.Proofs.Machine.Sessions
import LispMachine.Proofs.Machine.Sound
import LispMachine.Proofs.OperandStack
import LispMachine.Proofs.Run.Agreement
import LispMachine.Proofs.Run.Arguments
import LispMachine.Proofs.Run.Balance
import LispMachine.Proofs.Run.Bindings
import LispMachine.Proofs.Run.Composed
import LispMachine.Proofs.Run.Coupled
import LispMachine.Proofs.Run.Delivery
import LispMachine.Proofs.Run.Dispatching
import LispMachine.Proofs.Run.Equal
import LispMachine.Proofs.Run.Faults
import LispMachine.Proofs.Run.Frames
import LispMachine.Proofs.Run.Inherited
import LispMachine.Proofs.Run.Invocations
import LispMachine.Proofs.Run.Journal
import LispMachine.Proofs.Run.Law
import LispMachine.Proofs.Run.Lawful
import LispMachine.Proofs.Run.Leads
import LispMachine.Proofs.Run.Metering
import LispMachine.Proofs.Run.Ownership
import LispMachine.Proofs.Run.Progress
import LispMachine.Proofs.Run.Quits
import LispMachine.Proofs.Run.Resuming
import LispMachine.Proofs.Run.Room
import LispMachine.Proofs.Run.Shortcuts
import LispMachine.Proofs.Run.Stepped
import LispMachine.Proofs.Run.Together
import LispMachine.Proofs.Run.Turns
import LispMachine.Proofs.Run.Undoing
import LispMachine.Proofs.Run.Unwinding
import LispMachine.Proofs.Sequence.Circularity
import LispMachine.Proofs.Sequence.InPlace
import LispMachine.Proofs.Sequence.Traversal
import LispMachine.Proofs.Store.Actions
import LispMachine.Proofs.Store.Applied
import LispMachine.Proofs.Store.Cells
import LispMachine.Proofs.Store.Chains
import LispMachine.Proofs.Store.Computing
import LispMachine.Proofs.Store.Editing
import LispMachine.Proofs.Store.Growth
import LispMachine.Proofs.Store.Lists
import LispMachine.Proofs.Store.Markers
import LispMachine.Proofs.Store.Paths
import LispMachine.Proofs.Store.Primitives
import LispMachine.Proofs.Store.Sound
import LispMachine.Proofs.Store.Structures
import LispMachine.Proofs.Translation.Equivalence
import LispMachine.Proofs.Translation.Places
import LispMachine.Proofs.Translation.Simulation
import LispMachine.Regexp.Basic
import LispMachine.Regexp.Dialect
import LispMachine.Regexp.Footprint
import LispMachine.Regexp.Matching
import LispMachine.Regexp.Normal
import LispMachine.Regexp.Parser
import LispMachine.Regexp.Program
import LispMachine.Regexp.SetParser
import LispMachine.Scan
import LispMachine.Settings.Basic
import LispMachine.Settings.File
import LispMachine.Signal
import LispMachine.Size
import LispMachine.SlotStack
import LispMachine.Store
import LispMachine.Symbol.Builtin
import LispMachine.Symbol.Table
import LispMachine.Template
import LispMachine.Text.Alphanumeric
import LispMachine.Text.Blank
import LispMachine.Text.ByteSequence
import LispMachine.Text.CharRanges
import LispMachine.Text.DecimalDigit
import LispMachine.Text.LetterCase
import LispMachine.Text.Quoted
import LispMachine.Text.SkipSet
import LispMachine.Text.SyntaxClass
import LispMachine.Text.Unprintable
import LispMachine.Text.WordCharacter
import LispMachine.Toml.Document
import LispMachine.Toml.Reader
import LispMachine.Toml.Scalar
import LispMachine.Toml.Table
import LispMachine.Toml.Text
import LispMachine.Unwinding
import LispMachine.Value
import LispMachine.Variable
import LispMachine.Word
import LispMachine.Proofs.Run.Parameters
import LispMachine.Proofs.Run.Clauses
import LispMachine.Proofs.Arithmetic.Words
import LispMachine.Proofs.Arithmetic.Promotion
import LispMachine.Proofs.Buffer.Text
import LispMachine.Proofs.Buffer.Following
import LispMachine.Proofs.Buffer.Restriction
import LispMachine.Proofs.Buffer.Lines
import LispMachine.Proofs.Symbol.Aliases
import LispMachine.Proofs.Symbol.Variables
import LispMachine.Proofs.Symbol.Functions
import LispMachine.Proofs.Equality.Equivalence
import LispMachine.Proofs.Equality.Structural
import LispMachine.Proofs.Program.Hexadecimal
import LispMachine.Proofs.Buffer.Skipping
import LispMachine.Proofs.Translation.Boundaries
import LispMachine.Proofs.OperandStack.BoundedList
import LispMachine.Proofs.OperandStack.Slots
