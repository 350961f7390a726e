import LuaBytecode.Text.Utf8

/-!
The tokens of JSON texts. A text that is not made of tokens gives those before the first fault and an
`invalid` one in its place, so that readers meet the fault only when they get there.
-/

namespace LuaBytecode.Json

inductive Token where
  | openObject | closeObject | openArray | closeArray | colon | comma
  | null
  | bool (value : Bool)
  | number (integer? : Option Int)
  | string (value : Bytes)
  | invalid (first : UInt8)
  deriving DecidableEq

def isBlank (b : UInt8) : Bool :=
  b == 0x20 || b == 0x09 || b == 0x0a || b == 0x0d

def isDigit (b : UInt8) : Bool :=
  0x30 ≤ b && b ≤ 0x39

def ofDigits (digits : Bytes) : Nat :=
  digits.foldl (fun n b => n * 10 + (b.toNat - 0x30)) 0

def spanDigits (bytes : Bytes) : Bytes × Bytes :=
  (bytes.takeWhile isDigit, bytes.dropWhile isDigit)

def scanExponent (bytes : Bytes) : Option (Bool × Bytes) :=
  match bytes with
  | e :: rest =>
    if e == Bytes.ofChar 'e' || e == Bytes.ofChar 'E' then
      let unsigned := match rest with
        | s :: after => if s == Bytes.ofChar '+' || s == Bytes.ofChar '-' then after else rest
        | [] => rest
      match spanDigits unsigned with
      | ([], _) => none
      | (_ :: _, after) => some (true, after)
    else some (false, bytes)
  | [] => some (false, [])

def scanFraction (bytes : Bytes) : Option (Bool × Bytes) :=
  match bytes with
  | p :: rest =>
    if p == Bytes.ofChar '.' then
      match spanDigits rest with
      | ([], _) => none
      | (_ :: _, after) => some (true, after)
    else some (false, bytes)
  | [] => some (false, [])

/--
An integer with more digits is not looked at; it is greater than all that fit in 64 bits.
-/
def longestInteger : Nat := 20

def scanWhole (bytes : Bytes) : Option (Bytes × Bytes) :=
  match bytes with
  | 0x30 :: rest => some ([0x30], rest)
  | _ =>
    match spanDigits bytes with
    | ([], _) => none
    | (digits, rest) => some (digits, rest)

def scanNumber (bytes : Bytes) : Option (Option Int × Bytes) := do
  let (negative, unsigned) := match bytes with
    | 0x2d :: rest => (true, rest)
    | _ => (false, bytes)
  let (digits, rest) ← scanWhole unsigned
  let (hasFraction, rest) ← scanFraction rest
  let (hasExponent, rest) ← scanExponent rest
  if hasFraction || hasExponent || longestInteger < digits.length then
    return (none, rest)
  else
    let value : Int := ofDigits digits
    return (some (if negative then -value else value), rest)

def scanString (reversed : Bytes) : Bytes → Option (Bytes × Bytes)
  | [] => none
  | 0x22 :: rest => some (reversed.reverse, rest)
  | 0x5c :: escaped :: rest => scanString (escaped :: 0x5c :: reversed) rest
  | b :: rest => if b < 0x20 then none else scanString (b :: reversed) rest

def hexDigit? (b : UInt8) : Option Nat :=
  if isDigit b then some (b.toNat - 0x30)
  else if 0x61 ≤ b && b ≤ 0x66 then some (b.toNat - 0x61 + 10)
  else if 0x41 ≤ b && b ≤ 0x46 then some (b.toNat - 0x41 + 10)
  else none

def hex4? (a b c d : UInt8) : Option Nat := do
  return (((← hexDigit? a) * 16 + (← hexDigit? b)) * 16 + (← hexDigit? c)) * 16 + (← hexDigit? d)

def simpleEscape? (letter : UInt8) : Option UInt8 :=
  match letter with
  | 0x22 => some 0x22
  | 0x5c => some 0x5c
  | 0x2f => some 0x2f
  | 0x62 => some 0x08
  | 0x66 => some 0x0c
  | 0x6e => some 0x0a
  | 0x72 => some 0x0d
  | 0x74 => some 0x09
  | _ => none

def wellEscaped : Bytes → Bool
  | [] => true
  | 0x5c :: 0x75 :: a :: b :: c :: d :: rest => (hex4? a b c d).isSome && wellEscaped rest
  | 0x5c :: letter :: rest => (simpleEscape? letter).isSome && wellEscaped rest
  | _ :: rest => wellEscaped rest

/--
Replaces the escapes of a string by what they stand for. A surrogate stands for something only as half of a
pair.
-/
def unescape (reversed : Bytes) : Bytes → Option Bytes
  | [] => some reversed.reverse
  | 0x5c :: 0x75 :: a :: b :: c :: d :: rest =>
    match hex4? a b c d with
    | none => none
    | some unit =>
      if 0xd800 ≤ unit && unit < 0xdc00 then
        match rest with
        | 0x5c :: 0x75 :: a :: b :: c :: d :: rest =>
          match hex4? a b c d with
          | none => none
          | some low =>
            if 0xdc00 ≤ low && low < 0xe000 then
              let code := 0x10000 + (unit - 0xd800) * 0x400 + (low - 0xdc00)
              unescape ((Utf8.encode code).reverse ++ reversed) rest
            else none
        | _ => none
      else if 0xdc00 ≤ unit && unit < 0xe000 then none
      else unescape ((Utf8.encode unit).reverse ++ reversed) rest
  | 0x5c :: letter :: rest =>
    match simpleEscape? letter with
    | some b => unescape (b :: reversed) rest
    | none => none
  | b :: rest => if b = 0x5c then none else unescape (b :: reversed) rest

def stringValue? (inside : Bytes) : Option Bytes :=
  if Utf8.isValid inside then unescape [] inside else none

def afterWord? (word : String) (bytes : Bytes) : Option Bytes :=
  let letters := utf8 word
  if letters.isPrefixOf bytes then some (bytes.drop letters.length) else none

def punctuation? (b : UInt8) : Option Token :=
  match b with
  | 0x7b => some .openObject
  | 0x7d => some .closeObject
  | 0x5b => some .openArray
  | 0x5d => some .closeArray
  | 0x3a => some .colon
  | 0x2c => some .comma
  | _ => none

def scanToken? (b : UInt8) (rest : Bytes) : Option (Token × Bytes) :=
  match punctuation? b with
  | some token => some (token, rest)
  | none =>
    if b = 0x22 then do
      let (inside, rest) ← scanString [] rest
      return (.string (← stringValue? inside), rest)
    else if b = Bytes.ofChar 'n' then (afterWord? "ull" rest).map (.null, ·)
    else if b = Bytes.ofChar 't' then (afterWord? "rue" rest).map (.bool true, ·)
    else if b = Bytes.ofChar 'f' then (afterWord? "alse" rest).map (.bool false, ·)
    else (scanNumber (b :: rest)).map fun (integer?, rest) => (.number integer?, rest)

/--
The tokens of a text. Each token has at least one byte, so the length of the text is room for all.
-/
def tokens.go : (room : Nat) → List Token → Bytes → List Token
  | 0, found, _ => found.reverse
  | room + 1, found, bytes =>
    match bytes.dropWhile isBlank with
    | [] => found.reverse
    | b :: rest =>
      match scanToken? b rest with
      | some (token, rest) => go room (token :: found) rest
      | none => (Token.invalid b :: found).reverse

def tokens (bytes : Bytes) : List Token :=
  tokens.go bytes.length [] bytes

end LuaBytecode.Json
