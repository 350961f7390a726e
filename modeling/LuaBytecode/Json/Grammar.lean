import LuaBytecode.Json.Token

/-!
The grammar of JSON values over their tokens, as a machine that reads one token after another. It
remembers the containers that are open and what may come next.
-/

namespace LuaBytecode.Json

structure Rules where
  trailingCommas : Bool
  repeatedNames : Bool
  maxDepth : Option Nat

/--
A container that is open. An object remembers the names of its members.
-/
inductive Container where
  | array
  | object (names : List Bytes)

inductive Next where
  | value
  | firstElement
  | element
  | firstMember
  | member
  | colon
  | delimiter
  deriving DecidableEq

structure GrammarState where
  next : Next
  stack : List Container

namespace GrammarState

def start : GrammarState :=
  ⟨.value, []⟩

def isComplete (s : GrammarState) : Bool :=
  s.next == .delimiter && s.stack.isEmpty

def push (rules : Rules) (s : GrammarState) (container : Container) (next : Next) :
    Option GrammarState :=
  if rules.maxDepth.all (s.stack.length < ·) then some ⟨next, container :: s.stack⟩ else none

def readValue (rules : Rules) (s : GrammarState) : Token → Option GrammarState
  | .openObject => s.push rules (.object []) .firstMember
  | .openArray => s.push rules .array .firstElement
  | .null => some { s with next := .delimiter }
  | .bool _ => some { s with next := .delimiter }
  | .number _ => some { s with next := .delimiter }
  | .string _ => some { s with next := .delimiter }
  | _ => none

def close (s : GrammarState) : Token → Option GrammarState
  | .closeArray =>
    match s.stack with
    | .array :: stack => some ⟨.delimiter, stack⟩
    | _ => none
  | .closeObject =>
    match s.stack with
    | .object _ :: stack => some ⟨.delimiter, stack⟩
    | _ => none
  | _ => none

def readName (rules : Rules) (s : GrammarState) : Token → Option GrammarState
  | .string name =>
    match s.stack with
    | .object names :: stack =>
      if !rules.repeatedNames && names.contains name then none
      else some ⟨.colon, .object (name :: names) :: stack⟩
    | _ => none
  | _ => none

def step (rules : Rules) (s : GrammarState) (token : Token) : Option GrammarState :=
  match s.next with
  | .value => s.readValue rules token
  | .firstElement => if token = .closeArray then s.close token else s.readValue rules token
  | .element =>
    if token = .closeArray && rules.trailingCommas then s.close token else s.readValue rules token
  | .firstMember => if token = .closeObject then s.close token else s.readName rules token
  | .member =>
    if token = .closeObject && rules.trailingCommas then s.close token else s.readName rules token
  | .colon => if token = .colon then some { s with next := .value } else none
  | .delimiter =>
    if token = .comma then
      match s.stack with
      | .array :: _ => some { s with next := .element }
      | .object _ :: _ => some { s with next := .member }
      | [] => none
    else s.close token

end GrammarState

def skipFrom (rules : Rules) (s : GrammarState) : List Token → Option (List Token)
  | [] => none
  | token :: rest =>
    match s.step rules token with
    | none => none
    | some s => if s.isComplete then some rest else skipFrom rules s rest

def skipValue (rules : Rules) (tokens : List Token) : Option (List Token) :=
  skipFrom rules .start tokens

end LuaBytecode.Json
