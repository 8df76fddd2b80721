import ScriptedIR.Builder
import ScriptedIR.Cli
import ScriptedIR.CodeError
import ScriptedIR.Constant
import ScriptedIR.Decimal.Nearest
import ScriptedIR.Decimal.Shortest
import ScriptedIR.Decimal.Text
import ScriptedIR.Function
import ScriptedIR.Instruction
import ScriptedIR.Json
import ScriptedIR.Json.Code
import ScriptedIR.Json.Module
import ScriptedIR.Layout
import ScriptedIR.Main
import ScriptedIR.Module
import ScriptedIR.Op
import ScriptedIR.Proofs.Accounts
import ScriptedIR.Proofs.Addresses
import ScriptedIR.Proofs.Agreement
import ScriptedIR.Proofs.Answers
import ScriptedIR.Proofs.Bits
import ScriptedIR.Proofs.Blocks
import ScriptedIR.Proofs.Bodies
import ScriptedIR.Proofs.Casting
import ScriptedIR.Proofs.Cells
import ScriptedIR.Proofs.Codes
import ScriptedIR.Proofs.Comparison
import ScriptedIR.Proofs.Completion
import ScriptedIR.Proofs.Conversion
import ScriptedIR.Proofs.Course
import ScriptedIR.Proofs.Division
import ScriptedIR.Proofs.Edits
import ScriptedIR.Proofs.Emission
import ScriptedIR.Proofs.Encoding
import ScriptedIR.Proofs.Endings
import ScriptedIR.Proofs.Entries
import ScriptedIR.Proofs.Entry
import ScriptedIR.Proofs.Evaluation
import ScriptedIR.Proofs.Execution
import ScriptedIR.Proofs.Exit
import ScriptedIR.Proofs.Faults
import ScriptedIR.Proofs.Fields
import ScriptedIR.Proofs.Formatting
import ScriptedIR.Proofs.Generation
import ScriptedIR.Proofs.Globals
import ScriptedIR.Proofs.Growth
import ScriptedIR.Proofs.History
import ScriptedIR.Proofs.Importing
import ScriptedIR.Proofs.Insertion
import ScriptedIR.Proofs.Interning
import ScriptedIR.Proofs.Keeping
import ScriptedIR.Proofs.Lifetimes
import ScriptedIR.Proofs.Linking
import ScriptedIR.Proofs.Lookup
import ScriptedIR.Proofs.Lossless
import ScriptedIR.Proofs.Lowering
import ScriptedIR.Proofs.Meaning
import ScriptedIR.Proofs.Members
import ScriptedIR.Proofs.Nesting
import ScriptedIR.Proofs.Numerals
import ScriptedIR.Proofs.Orderly
import ScriptedIR.Proofs.Outline
import ScriptedIR.Proofs.Places
import ScriptedIR.Proofs.Printing
import ScriptedIR.Proofs.Ranges
import ScriptedIR.Proofs.Reading
import ScriptedIR.Proofs.Realization
import ScriptedIR.Proofs.Rebuilding
import ScriptedIR.Proofs.Reentry
import ScriptedIR.Proofs.Regions
import ScriptedIR.Proofs.Reordering
import ScriptedIR.Proofs.Resizing
import ScriptedIR.Proofs.Rooted
import ScriptedIR.Proofs.SessionTree
import ScriptedIR.Proofs.SingleExit
import ScriptedIR.Proofs.Soundness
import ScriptedIR.Proofs.Steps
import ScriptedIR.Proofs.Straight
import ScriptedIR.Proofs.Strict
import ScriptedIR.Proofs.Structured
import ScriptedIR.Proofs.Symbols
import ScriptedIR.Proofs.Texts
import ScriptedIR.Proofs.Trace
import ScriptedIR.Proofs.Tracking
import ScriptedIR.Proofs.Typing
import ScriptedIR.Proofs.Untaken
import ScriptedIR.Proofs.Values
import ScriptedIR.Proofs.Verified
import ScriptedIR.Proofs.Visibility
import ScriptedIR.Proofs.Zeros
import ScriptedIR.Run.Arith
import ScriptedIR.Run.Datum
import ScriptedIR.Run.Error
import ScriptedIR.Run.Host
import ScriptedIR.Run.Machine
import ScriptedIR.Run.Memory
import ScriptedIR.Samples
import ScriptedIR.Script.Body
import ScriptedIR.Script.Build
import ScriptedIR.Script.Convert
import ScriptedIR.Script.Error
import ScriptedIR.Script.Gen
import ScriptedIR.Script.Gen.Control
import ScriptedIR.Script.Gen.Operation
import ScriptedIR.Script.Gen.Return
import ScriptedIR.Script.Library
import ScriptedIR.Script.Operand
import ScriptedIR.Script.Operator
import ScriptedIR.Script.Program
import ScriptedIR.Script.Session
import ScriptedIR.Script.Stmt
import ScriptedIR.Script.Table
import ScriptedIR.Single
import ScriptedIR.Text.Blank
import ScriptedIR.Text.Extending
import ScriptedIR.Text.Hidden
import ScriptedIR.Text.Number
import ScriptedIR.Text.Quoted
import ScriptedIR.Text.Range
import ScriptedIR.Text.Unassigned
import ScriptedIR.Text.Utf8
import ScriptedIR.Ty
import ScriptedIR.Verify
import ScriptedIR.Word
