import LuaBytecode.Json.Grammar

/-!
JSON with comments and trailing commas. Such a text is made standard by leaving out what plain JSON does
not have. Strings are passed on as they are written: whether they are valid UTF-8 is not looked at here.
-/

namespace LuaBytecode.Json.Relaxed

structure Lexeme where
  token : Token
  written : Bytes

def afterMark? (mark : Bytes) : (reversed : Bytes) → Bytes → Option (Bytes × Bytes)
  | _, [] => none
  | reversed, b :: rest =>
    if mark.isPrefixOf (b :: rest) then some (reversed.reverse, (b :: rest).drop mark.length)
    else afterMark? mark (b :: reversed) rest

/--
What follows the comment whose first slash stands before `rest`. A line comment needs its line break. Comments
are valid UTF-8.
-/
def skipComment? (rest : Bytes) : Option Bytes := do
  let (inside, after) ← match rest with
    | 0x2f :: rest => afterMark? [0x0a] [] rest
    | 0x2a :: rest => afterMark? [0x2a, 0x2f] [] rest
    | _ => none
  if Utf8.isValid inside then some after else none

def isWordByte (b : UInt8) : Bool :=
  isDigit b || (0x61 ≤ b && b ≤ 0x7a) || (0x41 ≤ b && b ≤ 0x5a) || b == 0x2d || b == 0x2b || b == 0x2e

def wordToken? (word : Bytes) : Option Token :=
  if word = utf8 "null" then some .null
  else if word = utf8 "true" then some (.bool true)
  else if word = utf8 "false" then some (.bool false)
  else
    match scanNumber word with
    | some (integer?, []) => some (.number integer?)
    | _ => none

def scanLexeme? (b : UInt8) (rest : Bytes) : Option (Lexeme × Bytes) :=
  match punctuation? b with
  | some token => some (⟨token, [b]⟩, rest)
  | none =>
    if b = 0x22 then
      match scanString [] rest with
      | some (inside, rest) =>
        if wellEscaped inside then some (⟨.string inside, 0x22 :: inside ++ [0x22]⟩, rest) else none
      | none => none
    else
      let word := (b :: rest).takeWhile isWordByte
      (wordToken? word).map (⟨⟨·, word⟩, (b :: rest).drop word.length⟩)

def lexemes?.go : (room : Nat) → (reversed : List Lexeme) → Bytes → Option (List Lexeme)
  | 0, reversed, bytes => if bytes.isEmpty then some reversed.reverse else none
  | room + 1, reversed, bytes =>
    match bytes.dropWhile isBlank with
    | [] => some reversed.reverse
    | 0x2f :: rest =>
      match skipComment? rest with
      | some rest => go room reversed rest
      | none => none
    | b :: rest =>
      match scanLexeme? b rest with
      | some (lexeme, rest) => go room (lexeme :: reversed) rest
      | none => none

def lexemes? (bytes : Bytes) : Option (List Lexeme) :=
  lexemes?.go bytes.length [] bytes

def rules : Rules where
  trailingCommas := true
  repeatedNames := true
  maxDepth := none

/--
Checks the grammar from the state `s` on, and leaves out a comma in `reversed` if a bracket closes behind it.
-/
def standardLexemes? (s : GrammarState) (reversed : List Lexeme) :
    List Lexeme → Option (List Lexeme)
  | [] => if s.isComplete then some reversed.reverse else none
  | lexeme :: rest =>
    match s.step rules lexeme.token with
    | none => none
    | some after =>
      let trailing := (s.next = .element && lexeme.token = .closeArray)
        || (s.next = .member && lexeme.token = .closeObject)
      let kept := if trailing then reversed.tail else reversed
      standardLexemes? after (lexeme :: kept) rest

def standardize? (bytes : Bytes) : Option Bytes := do
  let standard ← standardLexemes? .start [] (← lexemes? bytes)
  return standard.flatMap Lexeme.written

end LuaBytecode.Json.Relaxed
