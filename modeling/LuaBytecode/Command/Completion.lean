import LuaBytecode.Command.Arguments

/-!
Completion: a shell asks, with a word of its own in front of the words that were typed so far, what could
stand in place of the last of them. Names of options are proposed; everything else is left to the shell.
-/

namespace LuaBytecode.Command

def isDashed (word : Bytes) : Bool :=
  word.head? = some 0x2d

def hasValue (word : Bytes) : Bool :=
  word.contains 0x3d

structure CompletionRequest where
  described : Bool
  words : List Bytes
  deriving DecidableEq

namespace CompletionRequest

def marks : List (Bytes × Bool) :=
  [(utf8 "__complete", true), (utf8 "__completeNoDesc", false)]

def takesNext (word : Bytes) : Bool :=
  match word with
  | 0x2d :: 0x2d :: name =>
    !hasValue name && (Flag.ofName? name).all fun flag => flag = .help || flag.implied? = none
  | [0x2d, letter] => letter ≠ 0x3d && (Flag.ofLetter? letter).all fun (flag, _) => flag = .help
  | _ => false

/--
Looks for the mark of a shell among words of which `seen` are passed over. Only the first word that is neither
an option nor the value of one can be the mark.
-/
def ofArguments?.go (seen : List Bytes) : List Bytes → Option CompletionRequest
  | [] => none
  | word :: rest =>
    if word = utf8 "--" then none
    else if takesNext word then
      match rest with
      | [] => none
      | value :: rest => go (value :: word :: seen) rest
    else if word = [] || isDashed word then go (word :: seen) rest
    else (marks.lookup word).map fun described => ⟨described, seen.reverse ++ rest⟩

def ofArguments? (arguments : List Bytes) : Option CompletionRequest :=
  ofArguments?.go [] arguments

end CompletionRequest

structure Completion where
  proposals : List Bytes := []
  files : Bool := true
  deriving DecidableEq

namespace Completion

def code (c : Completion) : Nat :=
  if c.files then 0 else 4

def lines (c : Completion) : List Bytes :=
  c.proposals ++ [utf8 s!":{c.code}"]

def remark (c : Completion) : Bytes :=
  utf8 "Completion ended with directive: "
    ++ utf8 (if c.files then "ShellCompDirectiveDefault" else "ShellCompDirectiveNoFileComp")

/--
Whether an option is still worth proposing. Only paths of configurations can be given repeatedly, and a file
is shown in one way.
-/
def isOpen (a : Arguments) (flag : Flag) : Bool :=
  match flag with
  | .config => true
  | .header | .json => !a.given.contains .header && !a.given.contains .json
  | flag => !a.given.contains flag

def spellings (word : Bytes) (flag : Flag) : List Bytes :=
  let name := utf8 ("--" ++ flag.name)
  let letter := flag.letter?.toList.map fun c => utf8 (String.ofList ['-', c])
  (name :: letter).filter word.isPrefixOf

def proposeOptions (described : Bool) (a : Arguments) (word : Bytes) : List Bytes :=
  (Flag.all.filter (isOpen a)).flatMap fun flag =>
    (spellings word flag).map fun spelling =>
      if described then spelling ++ utf8 ("\t" ++ flag.description) else spelling

def namedOption? (name : Bytes) : Option Flag :=
  match name with
  | [letter] => (Flag.ofLetter? letter).map (·.1)
  | name => Flag.ofName? name

def frontName (front : Bytes) : Bytes :=
  match front with
  | 0x2d :: 0x2d :: name => name
  | front => front.drop (front.length - 1)

def pendingName (word : Bytes) : Bytes :=
  match word with
  | 0x2d :: 0x2d :: name => if hasValue name then [] else name
  | 0x2d :: cluster => if hasValue cluster then [] else cluster.drop (cluster.length - 1)
  | _ => []

structure Focus where
  before : List Bytes
  word : Bytes
  isValue : Bool := false
  known : Bool := true
  deriving DecidableEq

/--
What is to be completed if no option stands in front of the value in the same word. An option in the word
before it that waits for a value does not count; nor does any other one if there is an equals sign with
nothing in front.
-/
def Focus.ofValue (before : List Bytes) (word value : Bytes) (equals : Bool) : Focus :=
  match pendingName (before.getLastD []) with
  | [] => { before, word := value }
  | name =>
    match namedOption? name with
    | none => { before, word, known := false }
    | some flag =>
      if equals || flag.implied?.isNone then { before := before.dropLast, word := value, isValue := true }
      else { before, word := value }

def Focus.ofWords (before : List Bytes) (word : Bytes) : Focus :=
  match isDashed word, Bytes.cut 0x3d word with
  | true, (_, none) => { before, word }
  | true, (front, some value) =>
    match frontName front with
    | [] => .ofValue before word value true
    | name =>
      match namedOption? name with
      | none => { before, word, known := false }
      | some _ => { before, word := value, isValue := true }
  | false, _ => .ofValue before word word false

def allowsOptions (words : List Bytes) (a : Arguments) : Bool :=
  match Arguments.parse (words ++ [utf8 "--"]) with
  | .ok b => b.files.length = a.files.length
  | .error _ => true

def ofWords (described : Bool) (before : List Bytes) (word : Bytes) : Completion :=
  let focus := Focus.ofWords before word
  match Arguments.parse focus.before with
  | .error _ => {}
  | .ok a =>
    let options := allowsOptions focus.before a
    if !focus.known && options then {}
    else if a.given.contains .help then { files := false }
    else if !focus.isValue && isDashed focus.word && !hasValue focus.word && options then
      { proposals := proposeOptions described a focus.word, files := false }
    else {}

end Completion

def CompletionRequest.answer (request : CompletionRequest) : Except UsageError Completion :=
  match request.words.getLast? with
  | none => .error .noFiles
  | some word => .ok (Completion.ofWords request.described request.words.dropLast word)

end LuaBytecode.Command
