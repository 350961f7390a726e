import LuaBytecode.Json.Basic
import LuaBytecode.Json.Object

/-!
Settings that may be left open. A setting remembers its last value also when it is open again.
-/

namespace LuaBytecode

structure Setting (α : Type) where
  value : α
  isSet : Bool
  deriving DecidableEq

namespace Setting

def unset (zero : α) : Setting α :=
  ⟨zero, false⟩

def set (value : α) : Setting α :=
  ⟨value, true⟩

def get? (s : Setting α) : Option α :=
  if s.isSet then some s.value else none

def getD (s : Setting α) (default : α) : α :=
  if s.isSet then s.value else default

def text (f : α → Bytes) (s : Setting α) : Bytes :=
  match s.get? with
  | some value => f value
  | none => utf8 "null"

def toJson (f : α → Json) (s : Setting α) : Json :=
  match s.get? with
  | some value => f value
  | none => .null

/--
Makes the setting that a datum describes: null clears it, and what `accept` refuses leaves it open. The second
result tells whether the datum was accepted.
-/
def assign (zero : α) (accept : Json.Datum → Option α) (s : Setting α) (datum : Json.Datum) :
    Setting α × Bool :=
  match datum with
  | .null => (unset zero, true)
  | .brokenNull => (s, false)
  | _ =>
    match accept datum with
    | some value => (set value, true)
    | none => ({ s with isSet := false }, false)

/--
Makes the setting that a whole JSON text describes. A text that goes on behind a complete value is refused
after the setting was made.
-/
def assignText (zero : α) (accept : Json.Datum → Option α) (s : Setting α) (text : Bytes) :
    Setting α × Bool :=
  let (datum, rest?) := Json.readDatum 0 (Json.tokens text)
  let (s, accepted) := s.assign zero accept datum
  (s, accepted && rest? == some [])

end Setting

namespace Json.Datum

def integer? : Datum → Option Int
  | .number (some n) => if Int64.minValue.toInt ≤ n && n ≤ Int64.maxValue.toInt then some n else none
  | _ => none

def bool? : Datum → Option Bool
  | .bool value => some value
  | _ => none

def string? : Datum → Option Bytes
  | .string value => some value
  | _ => none

end Json.Datum

end LuaBytecode
