import LuaBytecode.Number.Decimal
import LuaBytecode.Instruction.Basic
import LuaBytecode.Chunk.LineTable
import LuaBytecode.Chunk.Basic

/-!
Faults: why the bytes of a chunk cannot be read, at which byte, and inside which part of the chunk.
-/

namespace LuaBytecode

inductive FaultKind where
  | truncated
  | badSignature
  | badMagic
  | unsupportedVersion
  | unsupportedFormat
  | platformMismatch
  | unknownConstantTag
  | unknownOpcode
  | invalidUpvalueKind
  | structuralMismatch
  | overflow
  | recursionLimitExceeded
  | allocationLimitExceeded
  deriving DecidableEq

namespace FaultKind

def all : List FaultKind :=
  [.truncated, .badSignature, .badMagic, .unsupportedVersion, .unsupportedFormat, .platformMismatch,
   .unknownConstantTag, .unknownOpcode, .invalidUpvalueKind, .structuralMismatch, .overflow,
   .recursionLimitExceeded, .allocationLimitExceeded]

def code (kind : FaultKind) : Nat :=
  kind.ctorIdx + 1

def name : FaultKind → String
  | .truncated => "truncated"
  | .badSignature => "bad signature"
  | .badMagic => "bad magic"
  | .unsupportedVersion => "unsupported version"
  | .unsupportedFormat => "unsupported format"
  | .platformMismatch => "platform mismatch"
  | .unknownConstantTag => "unknown constant tag"
  | .unknownOpcode => "unknown opcode"
  | .invalidUpvalueKind => "invalid upvalue kind"
  | .structuralMismatch => "structural mismatch"
  | .overflow => "overflow"
  | .recursionLimitExceeded => "recursion limit exceeded"
  | .allocationLimitExceeded => "allocation limit exceeded"

def ofCode? (code : Int) : Option FaultKind :=
  if code ≤ 0 then none else all[code.toNat - 1]?

def nameOfCode (code : Int) : String :=
  match ofCode? code with
  | some kind => kind.name
  | none => s!"ErrorKind({code})"

end FaultKind

inductive Cause where
  | endOfInput
  | notAChunk
  | corruptedCheck
  | version (found : Version)
  | format (found : UInt8)
  | numericSize (what : String) (found : UInt8)
  | integerSample
  | floatSample (found : Binary64)
  | constantTag (tag : UInt8)
  | absentConstantString
  | opcode (unknown : UnknownOpcode)
  | variableKind (found : UInt8)
  | lineCount (found : Nat) (code : Int)
  | checkpoints (problem : CheckpointProblem)
  | upvalueNameCount (found : Nat) (upvalues : Int)
  | upvalueCount (header : UInt8) (main : Nat)
  | longVarint
  | largeSize (found : Nat)
  | depth (limit : Nat)
  | tableSize (found limit : Nat)
  deriving DecidableEq

namespace Cause

def kind : Cause → FaultKind
  | .endOfInput => .truncated
  | .notAChunk => .badSignature
  | .corruptedCheck => .badMagic
  | .version _ => .unsupportedVersion
  | .format _ => .unsupportedFormat
  | .numericSize .. => .platformMismatch
  | .integerSample => .platformMismatch
  | .floatSample _ => .platformMismatch
  | .constantTag _ => .unknownConstantTag
  | .absentConstantString => .structuralMismatch
  | .opcode _ => .unknownOpcode
  | .variableKind _ => .invalidUpvalueKind
  | .lineCount .. => .structuralMismatch
  | .checkpoints _ => .structuralMismatch
  | .upvalueNameCount .. => .structuralMismatch
  | .upvalueCount .. => .structuralMismatch
  | .longVarint => .overflow
  | .largeSize _ => .overflow
  | .depth _ => .recursionLimitExceeded
  | .tableSize .. => .allocationLimitExceeded

def hexByte (b : UInt8) : String :=
  String.ofList ['0', 'x', (b.toNat / 16).digitChar, (b.toNat % 16).digitChar]

def detail : Cause → String
  | .endOfInput => "unexpected EOF"
  | .notAChunk => "not a precompiled chunk"
  | .corruptedCheck => "corrupted chunk"
  | .version found => s!"version {found.text}"
  | .format found => s!"format {found}"
  | .numericSize what found => s!"unsupported {what} size ({found})"
  | .integerSample => "integer format mismatch"
  | .floatSample found => s!"float format mismatch (got {found.text})"
  | .constantTag tag => s!"unknown type {hexByte tag}"
  | .absentConstantString => "bad format for constant string"
  | .opcode unknown => unknown.message
  | .variableKind found => s!"unknown kind {hexByte found}"
  | .lineCount found code => s!"{found} entries for {code} instructions"
  | .checkpoints problem => problem.message
  | .upvalueNameCount found upvalues => s!"length ({found}) does not match table ({upvalues})"
  | .upvalueCount header main =>
    s!"header upvalue count ({header}) != main function upvalue count ({main})"
  | .longVarint => "variable-length integer exceeds 64 bits"
  | .largeSize found => s!"{found} does not fit in an int"
  | .depth limit => s!"functions nested more than {limit} levels deep"
  | .tableSize found limit => s!"{found} elements exceeds limit of {limit}"

end Cause

inductive Place where
  | part (name : String)
  | table (name : Bytes)
  | element (table : Bytes) (index : Nat)
  deriving DecidableEq

def Place.text : Place → Bytes
  | .part name => utf8 name
  | .table name => name
  | .element name index => name ++ utf8 s!"[{index}]"

/--
A fault at a byte of the input. The path leads from the outermost part to the innermost.
-/
structure Fault where
  cause : Cause
  offset : Nat
  path : List Place := []
  deriving DecidableEq

namespace Fault

def kind (fault : Fault) : FaultKind :=
  fault.cause.kind

def within (place : Place) (fault : Fault) : Fault :=
  { fault with path := place :: fault.path }

def headline (name : String) (offset : Int) (detail : Option String) : String :=
  match detail with
  | none => s!"{name} at offset {offset}"
  | some detail => s!"{name} at offset {offset}: {detail}"

def message (fault : Fault) : Bytes :=
  (fault.path.flatMap fun place => place.text ++ utf8 ": ")
    ++ utf8 (headline fault.kind.name fault.offset (some fault.cause.detail))

end Fault

end LuaBytecode
