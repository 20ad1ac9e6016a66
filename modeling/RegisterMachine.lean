import RegisterMachine.Assembly
import RegisterMachine.CommandLine
import RegisterMachine.CommandLine.Log
import RegisterMachine.CommandLine.Options
import RegisterMachine.CommandLine.Plan
import RegisterMachine.CommandLine.Usage
import RegisterMachine.Config
import RegisterMachine.Embedding
import RegisterMachine.Error
import RegisterMachine.Fault
import RegisterMachine.File
import RegisterMachine.Files
import RegisterMachine.Instruction
import RegisterMachine.Instruction.Code
import RegisterMachine.Listing
import RegisterMachine.Machine
import RegisterMachine.Machine.Arguments
import RegisterMachine.Machine.Dispatch
import RegisterMachine.Machine.Load
import RegisterMachine.Machine.Request
import RegisterMachine.Machine.State
import RegisterMachine.Main
import RegisterMachine.Memory
import RegisterMachine.Numeral
import RegisterMachine.Opcode
import RegisterMachine.Output
import RegisterMachine.Path
import RegisterMachine.Registers
import RegisterMachine.Registry
import RegisterMachine.Registry.Call
import RegisterMachine.Source.Line
import RegisterMachine.Source.Literal
import RegisterMachine.Symbols
import RegisterMachine.Text.CString
import RegisterMachine.Text.Grid
import RegisterMachine.Text.Letter
import RegisterMachine.Text.LetterRanges
import RegisterMachine.Text.Utf8
import RegisterMachine.Trace
import RegisterMachine.Word
import RegisterMachine.Proofs.Code
import RegisterMachine.Proofs.Except
import RegisterMachine.Proofs.Effect
import RegisterMachine.Proofs.Deed
import RegisterMachine.Proofs.Execution
import RegisterMachine.Proofs.Invariant
import RegisterMachine.Proofs.Faults
import RegisterMachine.Proofs.Layout
import RegisterMachine.Proofs.Limit
import RegisterMachine.Proofs.Rerun
import RegisterMachine.Proofs.Tracing
import RegisterMachine.Proofs.History
import RegisterMachine.Proofs.Handles
import RegisterMachine.Proofs.Acts
import RegisterMachine.Proofs.Nesting
import RegisterMachine.Proofs.CStrings
import RegisterMachine.Proofs.Messages
import RegisterMachine.Proofs.Reentry
import RegisterMachine.Proofs.Reading
import RegisterMachine.Proofs.Reassembly
import RegisterMachine.Proofs.Requests
import RegisterMachine.Proofs.Lifecycle
import RegisterMachine.Proofs.Writing
import RegisterMachine.Proofs.Refusal
import RegisterMachine.Proofs.Independence
import RegisterMachine.Proofs.Acceptance
import RegisterMachine.Proofs.Seeding
import RegisterMachine.Proofs.Naming
import RegisterMachine.Proofs.Printing
import RegisterMachine.Proofs.Rationing
import RegisterMachine.Proofs.Commands
import RegisterMachine.Proofs.Causes
import RegisterMachine.Proofs.Footprint
import RegisterMachine.Proofs.Tiling
import RegisterMachine.Proofs.Stack
import RegisterMachine.Proofs.Arithmetic
import RegisterMachine.Proofs.Comparison
import RegisterMachine.Proofs.Progress
import RegisterMachine.Proofs.Loading
import RegisterMachine.Proofs.Contents
import RegisterMachine.Proofs.Insertion
import RegisterMachine.Proofs.Slots
import RegisterMachine.Proofs.Literals
import RegisterMachine.Proofs.Escapes
import RegisterMachine.Proofs.Occupancy
import RegisterMachine.Proofs.Fetching
import RegisterMachine.Proofs.Drafts
import RegisterMachine.Proofs.Recasing
import RegisterMachine.Proofs.Edits
