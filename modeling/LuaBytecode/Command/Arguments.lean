import LuaBytecode.Number.Numeral
import LuaBytecode.Text.Diagnostic

/-!
The arguments of the command: options, which may stand anywhere before a `--`, and the names of the
files to decode.
-/

namespace LuaBytecode.Command

inductive Flag where
  | config | debug | header | help | json | list | maxCount | maxDepth | rawPC | strictPlatform
  deriving DecidableEq

namespace Flag

def all : List Flag :=
  [.config, .debug, .header, .help, .json, .list, .maxCount, .maxDepth, .rawPC, .strictPlatform]

def name : Flag → String
  | .config => "config"
  | .debug => "debug"
  | .header => "header"
  | .help => "help"
  | .json => "json"
  | .list => "list"
  | .maxCount => "max-count"
  | .maxDepth => "max-depth"
  | .rawPC => "raw-pc"
  | .strictPlatform => "strict-platform"

def letter? : Flag → Option Char
  | .help => some 'h'
  | .list => some 'l'
  | .rawPC => some '0'
  | _ => none

def implied? : Flag → Option String
  | .config | .maxCount | .maxDepth => none
  | .list => some "+1"
  | _ => some "true"

def valueMark : Char :=
  Char.ofNat 0x60

def description : Flag → String
  | .config => "read configuration from `path` (can be passed multiple times)"
  | .debug => "show debugging output"
  | .header => "only show a summary of each chunk's header"
  | .help => "help for luadec"
  | .json => "print the decoded chunks as JSON"
  | .list => "list constants, locals, and upvalues (when given twice)"
  | .maxCount => "maximum `number` of elements in any table of a function"
  | .maxDepth => "maximum nesting `depth` of functions"
  | .rawPC => "show literal PC values"
  | .strictPlatform => "reject chunks whose float sample is not 370.5"

def ofName? (name : Bytes) : Option Flag :=
  all.find? fun flag => utf8 flag.name = name

/--
The option of a letter, and its value if none is given. All options that have a letter can do without one.
-/
def ofLetter? (letter : UInt8) : Option (Flag × Bytes) :=
  all.findSome? fun flag =>
    match flag.letter?, flag.implied? with
    | some c, some value => if Bytes.ofChar c = letter then some (flag, utf8 value) else none
    | _, _ => none

def title (flag : Flag) : String :=
  match flag.letter? with
  | some letter => s!"-{letter}, --{flag.name}"
  | none => s!"--{flag.name}"

end Flag

inductive ValueProblem where
  | notBool
  | notInteger (problem : Numeral.Problem)
  deriving DecidableEq

def ValueProblem.message (value : Bytes) : ValueProblem → Bytes
  | .notBool => utf8 "strconv.ParseBool: parsing " ++ Text.showText value ++ utf8 ": invalid syntax"
  | .notInteger problem =>
    utf8 "strconv.ParseInt: parsing " ++ Text.showText value ++ utf8 (": " ++ problem.message)

inductive UsageError where
  | malformed (argument : Bytes)
  | unknownName (name : Bytes)
  | unknownLetter (letter : UInt8) (cluster : Bytes)
  | missingValue (argument : Bytes)
  | badValue (flag : Flag) (value : Bytes) (problem : ValueProblem)
  | noFiles
  | headerAndJson
  deriving DecidableEq

def UsageError.message : UsageError → Bytes
  | .malformed argument => utf8 "bad flag syntax: " ++ argument
  | .unknownName name => utf8 "unknown flag: --" ++ name
  | .unknownLetter letter cluster =>
    utf8 "unknown shorthand flag: " ++ Text.showLetter letter ++ utf8 " in -" ++ cluster
  | .missingValue argument => utf8 "flag needs an argument: " ++ argument
  | .badValue flag value problem =>
    utf8 "invalid argument " ++ Text.showText value ++ utf8 " for \"" ++ utf8 flag.title
      ++ utf8 "\" flag: " ++ problem.message value
  | .noFiles => utf8 "requires at least 1 arg(s), only received 0"
  | .headerAndJson =>
    utf8 "if any flags in the group [header json] are set none of the others can be; "
      ++ utf8 "[header json] were all set"

structure Arguments where
  given : List Flag := []
  configs : List Bytes := []
  debug : Bool := false
  header : Bool := false
  help : Bool := false
  json : Bool := false
  list : Int64 := 0
  maxCount : Option Int64 := none
  maxDepth : Option Int64 := none
  rawPC : Bool := false
  strictPlatform : Bool := false
  files : List Bytes := []
  deriving DecidableEq

namespace Arguments

def boolean (text : Bytes) : Except ValueProblem Bool :=
  if ["1", "t", "T", "true", "TRUE", "True"].any (utf8 · = text) then .ok true
  else if ["0", "f", "F", "false", "FALSE", "False"].any (utf8 · = text) then .ok false
  else .error .notBool

def integer (text : Bytes) : Except ValueProblem Int64 :=
  (Numeral.integer text).mapError .notInteger

def set (a : Arguments) (flag : Flag) (value : Bytes) : Except ValueProblem Arguments := do
  match flag with
  | .config => return { a with configs := a.configs ++ [value] }
  | .debug => return { a with debug := ← boolean value }
  | .header => return { a with header := ← boolean value }
  | .help => return { a with help := ← boolean value }
  | .json => return { a with json := ← boolean value }
  | .list =>
    -- The value that counts up is the one of an option without a value.
    if value = utf8 "+1" then return { a with list := a.list + 1 }
    else return { a with list := ← integer value }
  | .maxCount => return { a with maxCount := some (← integer value) }
  | .maxDepth => return { a with maxDepth := some (← integer value) }
  | .rawPC => return { a with rawPC := ← boolean value }
  | .strictPlatform => return { a with strictPlatform := ← boolean value }

def assign (a : Arguments) (flag : Flag) (value : Bytes) : Except UsageError Arguments :=
  match a.set flag value with
  | .ok a => .ok { a with given := flag :: a.given }
  | .error problem => .error (.badValue flag value problem)

/--
Sets the options of a cluster of letters. Only the last of them can have a value, behind an equals sign.
Clusters that start with `test.` are reserved, and nothing is done about them.
-/
def setCluster (a : Arguments) : Bytes → Except UsageError Arguments
  | [] => .ok a
  | letter :: rest =>
    if (utf8 "test.").isPrefixOf (letter :: rest) then .ok a
    else
      match Flag.ofLetter? letter, rest with
      | none, _ => .error (.unknownLetter letter (letter :: rest))
      | some (flag, _), 0x3d :: b :: value => a.assign flag (b :: value)
      | some (flag, implied), _ => do
        let a ← a.assign flag implied
        a.setCluster rest

def parse.go (a : Arguments) : List Bytes → Except UsageError Arguments
  | [] => .ok a
  | (0x2d :: 0x2d :: body) :: rest =>
    match body with
    | [] => .ok { a with files := a.files ++ rest }
    | 0x2d :: _ | 0x3d :: _ => .error (.malformed (0x2d :: 0x2d :: body))
    | body => do
      let (name, value?) := Bytes.cut 0x3d body
      match Flag.ofName? name with
      | none => throw (.unknownName name)
      | some flag =>
        match value?, flag.implied?, rest with
        | some value, _, rest => parse.go (← a.assign flag value) rest
        | none, some implied, rest => parse.go (← a.assign flag (utf8 implied)) rest
        | none, none, value :: rest => parse.go (← a.assign flag value) rest
        | none, none, [] => throw (.missingValue (0x2d :: 0x2d :: body))
  | (0x2d :: letter :: cluster) :: rest => do
    parse.go (← a.setCluster (letter :: cluster)) rest
  -- A dash alone is the name of a file.
  | file :: rest => parse.go { a with files := a.files ++ [file] } rest

def parse (arguments : List Bytes) : Except UsageError Arguments :=
  parse.go {} arguments

def check (a : Arguments) : Except UsageError Unit := do
  if a.files = [] then throw .noFiles
  if a.given.contains .header && a.given.contains .json then throw .headerAndJson

end Arguments

end LuaBytecode.Command
