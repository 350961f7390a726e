import LuaBytecode.Listing.Printer
import LuaBytecode.Listing.Comment

/-!
Listings: a block of lines for every function of a chunk, a function before the functions inside it.
-/

namespace LuaBytecode.Listing

def counted (n : Nat) (noun : String) : Bytes :=
  Bytes.digits 10 n ++ utf8 (" " ++ noun ++ if n = 1 then "" else "s")

def originText (name : ChunkName) : Bytes :=
  match name.description?, name.fileName? with
  | some text, _ => text
  | none, some file => file
  | none, none =>
    if name.head? = Header.signature.head? then utf8 "(bstring)" else utf8 "(string)"

def headingText (f : Prototype) (origin : ChunkName) (name : Bytes) : Bytes :=
  utf8 (if f.isMain then "\nmain <" else "\nfunction <") ++ originText origin ++ utf8 ":"
    ++ Bytes.decimal f.lineDefined.toInt ++ utf8 "," ++ Bytes.decimal f.lastLineDefined.toInt
    ++ utf8 "> (" ++ counted f.code.length "instruction" ++ utf8 " for " ++ name ++ utf8 ")"

def sizesText (f : Prototype) : Bytes :=
  Bytes.digits 10 f.numParams.toNat ++ utf8 (if f.vararg.isVararg then "+" else "")
    ++ utf8 (if f.numParams = 1 then " param, " else " params, ")
    ++ Bytes.join (utf8 ", ") [
      counted f.maxStackSize.toNat "slot", counted f.upvalues.length "upvalue",
      counted f.debug.locals.length "local", counted f.constants.length "constant",
      counted f.functions.length "function"]

open PrintM

def lineCell (f : Prototype) (pc : Nat) : Bytes :=
  match f.line? (Int64.ofNat pc) with
  | some line => utf8 "[" ++ Bytes.decimal line.toInt ++ utf8 "]\t"
  | none => utf8 "[-]\t"

def printInstruction (opts : Options) (names : Names) (path : List Nat) (f : Prototype) (pc : Nat)
    (i : Instruction) : PrintM Unit := do
  print (utf8 "\t" ++ Bytes.digits 10 (opts.base + pc) ++ utf8 "\t")
  print (lineCell f pc)
  print i.text
  let text := comment opts names f path pc i
  if text ≠ [] then
    print (utf8 "\t; ")
    print text
  flush

def kindLetter : ConstantKind → String
  | .nil => "N"
  | .boolean => "B"
  | .integer => "I"
  | .float => "F"
  | .string => "S"

def row (cells : List Bytes) : Bytes :=
  cells.flatMap (Bytes.ofChar '\t' :: ·)

def constantRow (index : Nat) (c : Constant) : Bytes :=
  row [Bytes.digits 10 index, utf8 (kindLetter c.kind), c.text]

def localRow (opts : Options) (index : Nat) (v : LocalVariable) : Bytes :=
  let address (pc : Int64) : Bytes := Bytes.decimal (Int64.ofNat opts.base + pc).toInt
  row [Bytes.digits 10 index, v.name, address v.startPC, address v.endPC]

def upvalueRow (f : Prototype) (index : Nat) (u : Upvalue) : Bytes :=
  row [Bytes.digits 10 index, upvalueText f index, Bytes.digits 10 u.inStack.toNat,
    Bytes.digits 10 u.index.toNat, Bytes.digits 10 u.kind.code.toNat]

def tableHeading (what : String) (n : Nat) (name : Bytes) : Bytes :=
  utf8 (what ++ " (") ++ Bytes.digits 10 n ++ utf8 ") for " ++ name ++ utf8 ":"

def printTable (what : String) (name : Bytes) (toRow : Nat → α → Bytes) (entries : List α) :
    PrintM Unit := do
  printLine (tableHeading what entries.length name)
  printEach (fun i a => printLine (toRow i a)) 0 entries

def printTables (opts : Options) (names : Names) (path : List Nat) (f : Prototype) : PrintM Unit := do
  printTable "constants" (names.get path) constantRow f.constants
  printTable "locals" (names.get path) (localRow opts) f.debug.locals
  printTable "upvalues" (names.get path) (upvalueRow f) f.upvalues

mutual

/--
Prints a function and those inside it. `path` leads to the function, and `outer` is the name of the chunk
around it.
-/
def printFunction (opts : Options) (names : Names) (path : List Nat) (outer : ChunkName) :
    Prototype → PrintM Unit
  | f@{ name, functions, .. } => do
    let origin := name.getD outer
    printLine (headingText f origin (names.get path))
    printLine (sizesText f)
    printEach (printInstruction opts names path f) 0 f.code
    if opts.full then
      printTables opts names path f
    printFunctions opts names path origin 0 functions

def printFunctions (opts : Options) (names : Names) (path : List Nat) (outer : ChunkName) (i : Nat) :
    List Prototype → PrintM Unit
  | [] => pure ()
  | f :: rest => do
    printFunction opts names (path ++ [i]) outer f
    printFunctions opts names path outer (i + 1) rest

end

def write (opts : Options) (c : Chunk) : WriteM Unit :=
  run (printFunction opts (.ofRoot c.main) [] ChunkName.unknown c.main)

def headerText (name : Bytes) (c : Chunk) : Bytes :=
  name ++ utf8 s!": Lua {c.header.version.text} chunk, format {c.header.format}, "
    ++ utf8 (match c.header.byteOrder with | .little => "little-endian" | .big => "big-endian")
    ++ utf8 "\n\tinstruction " ++ counted c.header.instructionSize.toNat "byte"
    ++ utf8 ", integer " ++ counted c.header.integerSize.bytes "byte"
    ++ utf8 ", float " ++ counted c.header.numberSize.bytes "byte"
    ++ utf8 "\n\t" ++ counted c.upvalueCount.toNat "upvalue"
    ++ utf8 ", main function from " ++ (c.main.name.getD ChunkName.unknown).abbreviate ++ utf8 "\n"

end LuaBytecode.Listing
