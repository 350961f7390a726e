import LuaBytecode.Json.Basic
import LuaBytecode.Json.Grammar

/-!
Reading values one at a time, and objects member by member: what stands before a fault is read.
-/

namespace LuaBytecode.Json

/--
A value as far as it matters to a reader that expects a single datum.
-/
inductive Datum where
  | null
  | bool (value : Bool)
  | number (integer? : Option Int)
  | string (value : Bytes)
  | container
  | brokenNull
  | broken
  deriving DecidableEq

def strictRules (depth : Nat) : Rules where
  trailingCommas := false
  repeatedNames := false
  maxDepth := some (maxNesting - depth)

/--
Reads a value inside of `depth` containers. There is a rest unless the value is broken.
-/
def readDatum (depth : Nat) (tokens : List Token) : Datum × Option (List Token) :=
  match tokens with
  | .null :: rest => (.null, some rest)
  | .bool value :: rest => (.bool value, some rest)
  | .number integer? :: rest => (.number integer?, some rest)
  | .string value :: rest => (.string value, some rest)
  | .invalid first :: _ => (if first = Bytes.ofChar 'n' then .brokenNull else .broken, none)
  | _ =>
    match skipValue (strictRules depth) tokens with
    | some rest => (.container, some rest)
    | none => (.broken, none)

structure Object where
  members : List (Bytes × Datum)
  rest? : Option (List Token)

def readMembers (depth : Nat) :
    (room : Nat) → (reversed : List (Bytes × Datum)) → List Token → Object
  | room + 1, reversed, .string name :: tokens =>
    if reversed.any (·.1 == name) then ⟨reversed.reverse, none⟩
    else
      let (datum, rest?) := match tokens with
        | .colon :: rest => readDatum depth rest
        | _ => (.broken, none)
      let reversed := (name, datum) :: reversed
      match rest? with
      | some (.comma :: rest) => readMembers depth room reversed rest
      | some (.closeObject :: rest) => ⟨reversed.reverse, some rest⟩
      | _ => ⟨reversed.reverse, none⟩
  | _, reversed, _ => ⟨reversed.reverse, none⟩

def readObject : List Token → Object
  | .closeObject :: rest => ⟨[], some rest⟩
  | tokens => readMembers 1 tokens.length [] tokens

end LuaBytecode.Json
