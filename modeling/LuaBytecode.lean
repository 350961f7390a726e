import LuaBytecode.Bytes
import LuaBytecode.Text.Utf8
import LuaBytecode.Text.Printable
import LuaBytecode.Text.Quoted
import LuaBytecode.Text.Diagnostic
import LuaBytecode.Number.Binary64
import LuaBytecode.Number.Decimal
import LuaBytecode.Number.Numeral
import LuaBytecode.Instruction.Opcode
import LuaBytecode.Instruction.Basic
import LuaBytecode.Chunk.Platform
import LuaBytecode.Chunk.Name
import LuaBytecode.Chunk.Constant
import LuaBytecode.Chunk.LineTable
import LuaBytecode.Chunk.Prototype
import LuaBytecode.Chunk.Basic
import LuaBytecode.Reader.Fault
import LuaBytecode.Reader.Cursor
import LuaBytecode.Reader.Chunk
import LuaBytecode.Writer.Field
import LuaBytecode.Writer.Chunk
import LuaBytecode.Json.Basic
import LuaBytecode.Json.Token
import LuaBytecode.Json.Grammar
import LuaBytecode.Json.Object
import LuaBytecode.Json.Relaxed
import LuaBytecode.Chunk.Json
import LuaBytecode.Listing.Sink
import LuaBytecode.Listing.Printer
import LuaBytecode.Listing.Names
import LuaBytecode.Listing.Comment
import LuaBytecode.Listing.Basic
import LuaBytecode.Bzip2.Bits
import LuaBytecode.Bzip2.Huffman
import LuaBytecode.Bzip2.Block
import LuaBytecode.Bzip2.File
import LuaBytecode.Settings.Setting
import LuaBytecode.Settings.Basic
import LuaBytecode.Command.Arguments
import LuaBytecode.Command.Files
import LuaBytecode.Command.Help
import LuaBytecode.Command.Wording
import LuaBytecode.Command.Batch
import LuaBytecode.Command.Completion
import LuaBytecode.Command.Configuration
import LuaBytecode.Command.Basic
import LuaBytecode.Main
import LuaBytecode.Proofs.Numerals
import LuaBytecode.Proofs.Varint
import LuaBytecode.Proofs.Format
import LuaBytecode.Proofs.Reads
import LuaBytecode.Proofs.VarintOutcomes
import LuaBytecode.Proofs.Layout
import LuaBytecode.Proofs.Prefix
import LuaBytecode.Proofs.Platform
import LuaBytecode.Proofs.Utf8
import LuaBytecode.Proofs.Literals
import LuaBytecode.Proofs.Checkpoints
import LuaBytecode.Proofs.WellFormed
import LuaBytecode.Proofs.Word
import LuaBytecode.Proofs.WordFields
import LuaBytecode.Proofs.Descriptions
import LuaBytecode.Proofs.InstructionTexts
import LuaBytecode.Proofs.RoundTrip
import LuaBytecode.Proofs.Repaired
import LuaBytecode.Proofs.HeaderFields
import LuaBytecode.Proofs.Accepted
import LuaBytecode.Proofs.Limits
import LuaBytecode.Proofs.Lines
import LuaBytecode.Proofs.LineIndices
import LuaBytecode.Proofs.LocalNames
import LuaBytecode.Proofs.ChunkNames
import LuaBytecode.Proofs.Steps
import LuaBytecode.Proofs.Faults
import LuaBytecode.Proofs.Weight
import LuaBytecode.Proofs.Room
import LuaBytecode.Proofs.Paths
import LuaBytecode.Proofs.Writable
import LuaBytecode.Proofs.Printed
import LuaBytecode.Proofs.Listed
import LuaBytecode.Proofs.Schedules
import LuaBytecode.Proofs.Shown
import LuaBytecode.Proofs.FunctionNames
import LuaBytecode.Proofs.Jumps
import LuaBytecode.Proofs.Mentions
import LuaBytecode.Proofs.Merged
