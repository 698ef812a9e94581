import BytecodeDebugger.Code.Constant
import BytecodeDebugger.Code.Json
import BytecodeDebugger.Code.LineTable
import BytecodeDebugger.Code.Object
import BytecodeDebugger.Command.Basic
import BytecodeDebugger.Command.Dialogue
import BytecodeDebugger.Command.Disassemble
import BytecodeDebugger.Command.Handler
import BytecodeDebugger.Command.Help
import BytecodeDebugger.Command.List
import BytecodeDebugger.Command.Quit
import BytecodeDebugger.Command.Script
import BytecodeDebugger.Command.Setting
import BytecodeDebugger.Connect.Action
import BytecodeDebugger.Connect.Address
import BytecodeDebugger.Connect.Adopted
import BytecodeDebugger.Connect.CommandLine
import BytecodeDebugger.Connect.Connection
import BytecodeDebugger.Connect.Duplex
import BytecodeDebugger.Connect.Endpoint
import BytecodeDebugger.Connect.Error
import BytecodeDebugger.Connect.FileTree
import BytecodeDebugger.Connect.Host
import BytecodeDebugger.Connect.HostName
import BytecodeDebugger.Connect.Link
import BytecodeDebugger.Connect.Options
import BytecodeDebugger.Connect.Queue
import BytecodeDebugger.Connect.Transport
import BytecodeDebugger.Debuggee
import BytecodeDebugger.Decimal.Binary64
import BytecodeDebugger.Decimal.Literal
import BytecodeDebugger.Decimal.Shortest
import BytecodeDebugger.Decode.Instruction
import BytecodeDebugger.Decode.Json
import BytecodeDebugger.Decode.Operand
import BytecodeDebugger.Decode.Step
import BytecodeDebugger.Decode.Trace
import BytecodeDebugger.Json.Parse
import BytecodeDebugger.Json.Print
import BytecodeDebugger.Json.Shape
import BytecodeDebugger.Json.Value
import BytecodeDebugger.Listing.Format
import BytecodeDebugger.Listing.Highlight
import BytecodeDebugger.Listing.Json
import BytecodeDebugger.Listing.Policy
import BytecodeDebugger.Listing.Rows
import BytecodeDebugger.Listing.Sink
import BytecodeDebugger.Listing.Source
import BytecodeDebugger.Opcode.Builtin
import BytecodeDebugger.Opcode.Json
import BytecodeDebugger.Opcode.Kind
import BytecodeDebugger.Opcode.Table
import BytecodeDebugger.Processor
import BytecodeDebugger.Registry.Basic
import BytecodeDebugger.Registry.Lookup
import BytecodeDebugger.Session.Client
import BytecodeDebugger.Session.Interface
import BytecodeDebugger.Session.Rendezvous
import BytecodeDebugger.Session.Server
import BytecodeDebugger.Settings.Basic
import BytecodeDebugger.Settings.Value
import BytecodeDebugger.Store.NameMap
import BytecodeDebugger.Text.Blank
import BytecodeDebugger.Text.Combining
import BytecodeDebugger.Text.Fold
import BytecodeDebugger.Text.Lines
import BytecodeDebugger.Text.Pad
import BytecodeDebugger.Text.Quoted
import BytecodeDebugger.Text.Unprintable
import BytecodeDebugger.Text.Unsigned
import BytecodeDebugger.Text.Utf8
import BytecodeDebugger.Wire.Frame
import BytecodeDebugger.Wire.IoError
import BytecodeDebugger.Wire.Reader
import BytecodeDebugger.Wire.Writer
import BytecodeDebugger.Proofs.Text.Utf8
import BytecodeDebugger.Proofs.Wire.Header
import BytecodeDebugger.Proofs.Wire.Chunking
import BytecodeDebugger.Proofs.Wire.RoundTrip
import BytecodeDebugger.Proofs.Wire.Grammar
import BytecodeDebugger.Proofs.Decode.Cursor
import BytecodeDebugger.Proofs.Decode.Tiles
import BytecodeDebugger.Proofs.Decode.Coverage
import BytecodeDebugger.Proofs.Decode.Assembly
import BytecodeDebugger.Proofs.Decode.RoundTrip
import BytecodeDebugger.Proofs.Command.Execution
import BytecodeDebugger.Proofs.Connect.QueueConnection
import BytecodeDebugger.Proofs.Connect.LifeCycle
import BytecodeDebugger.Proofs.Connect.Parting
import BytecodeDebugger.Proofs.Connect.StreamConnection
import BytecodeDebugger.Proofs.Session.DebuggerEnd
import BytecodeDebugger.Proofs.Session.FrontEnd
import BytecodeDebugger.Proofs.Session.Lockstep
import BytecodeDebugger.Proofs.Session.RemoteListing
import BytecodeDebugger.Proofs.Store.NameMap
import BytecodeDebugger.Proofs.Registry.Admission
import BytecodeDebugger.Proofs.Listing.Agreement
import BytecodeDebugger.Proofs.Registry.Resolution
import BytecodeDebugger.Proofs.Command.Failure
import BytecodeDebugger.Proofs.Decode.JumpTargets
import BytecodeDebugger.Proofs.Registry.Order
import BytecodeDebugger.Proofs.Command.Unbroken
import BytecodeDebugger.Proofs.Command.Changes
import BytecodeDebugger.Proofs.Command.Members
import BytecodeDebugger.Proofs.Decode.Spelling
import BytecodeDebugger.Proofs.Decode.Widening
import BytecodeDebugger.Proofs.Decode.LineInEffect
import BytecodeDebugger.Proofs.Decode.Ranges
import BytecodeDebugger.Proofs.Decode.FailureOffset
import BytecodeDebugger.Proofs.Listing.StatementCap
import BytecodeDebugger.Proofs.Listing.EndOffset
import BytecodeDebugger.Proofs.Registry.Lookup
import BytecodeDebugger.Proofs.Session.Question
import BytecodeDebugger.Proofs.Session.Relay
import BytecodeDebugger.Proofs.Listing.Containers
import BytecodeDebugger.Proofs.Connect.UnreliableQueue
import BytecodeDebugger.Proofs.Session.Breakdown
import BytecodeDebugger.Proofs.Session.Service
import BytecodeDebugger.Proofs.Code.LineMap
import BytecodeDebugger.Proofs.Listing.Refusal
import BytecodeDebugger.Proofs.Listing.Decoration
import BytecodeDebugger.Proofs.Command.Paging
import BytecodeDebugger.Proofs.Wire.Capacity
import BytecodeDebugger.Proofs.Listing.LineCount
import BytecodeDebugger.Proofs.Registry.Minimum
import BytecodeDebugger.Proofs.Opcode.Validation
import BytecodeDebugger.Proofs.Code.OffsetSpan
import BytecodeDebugger.Proofs.Command.Bounds
import BytecodeDebugger.Proofs.Json.Token
import BytecodeDebugger.Proofs.Json.Grammar
import BytecodeDebugger.Proofs.Json.Written
import BytecodeDebugger.Proofs.Json.Shape
import BytecodeDebugger.Proofs.Code.Document
import BytecodeDebugger.Proofs.Settings.Document
import BytecodeDebugger.Proofs.Listing.Records
import BytecodeDebugger.Proofs.Command.Records
import BytecodeDebugger.Proofs.Decimal.Characters
import BytecodeDebugger.Proofs.Code.Quotation
import BytecodeDebugger.Proofs.Listing.TextConstants
