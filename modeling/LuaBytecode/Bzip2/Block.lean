import LuaBytecode.Bzip2.Huffman

/-!
Blocks of a compressed file. A block was made from a text in four steps: runs of four equal bytes got
a length, the bytes were sorted by what follows them, each byte was replaced by its place in a list of
the recently used ones, and the places were written with the codes of several trees. Reading a block
undoes these steps from the last to the first.
-/

namespace LuaBytecode.Bzip2

def moveToFront (list : List α) (index : Nat) : Option (α × List α) :=
  match list[index]? with
  | some a => some (a, a :: list.eraseIdx index)
  | none => none

/--
Reads which of the 256 bytes occur: sixteen flags for groups of sixteen, then the flags of the groups that are
set.
-/
def readAlphabet : BitM (List UInt8) := do
  let groups ← BitM.repeated BitM.bit 16 #[]
  let members (group : Nat) : BitM (List UInt8) := do
    let flags ← BitM.repeated BitM.bit 16 #[]
    return flags.toList.zipIdx.filterMap fun (set, i) =>
      if set then some (16 * group + i).toUInt8 else none
  let used := groups.toList.zipIdx.filterMap fun (set, i) => if set then some i else none
  return (← used.mapM members).flatten

def readSelector (trees : Nat) : (room place : Nat) → BitM Nat
  | 0, _ => BitM.fail .selector
  | room + 1, place => do
    if ← BitM.bit then readSelector trees room (place + 1)
    else if place < trees then return place
    else BitM.fail .selector

def selectTrees : List Nat → (recent : List Nat) → (found : Array Nat) → Option (Array Nat)
  | [], _, found => some found
  | place :: rest, recent, found =>
    match moveToFront recent place with
    | some (tree, recent) => selectTrees rest recent (found.push tree)
    | none => none

structure Symbols where
  found : Array Nat
  complete : Bool

def readGroup (code : Code) (last blockSize : Nat) : (left : Nat) → (found : Array Nat) → BitM Symbols
  | 0, found => pure ⟨found, false⟩
  | left + 1, found => do
    let symbol ← code.read
    if symbol = last then return ⟨found, true⟩
    else if found.size < blockSize then readGroup code last blockSize left (found.push symbol)
    else BitM.fail .blockTooLarge

def readSymbols (codes : Array Code) (last blockSize : Nat) :
    (trees : List Nat) → (found : Array Nat) → BitM (Array Nat)
  | [], _ => BitM.fail .tooFewSelectors
  | tree :: rest, found => do
    match codes[tree]? with
    | none => BitM.fail .selector
    | some code =>
      let symbols ← readGroup code last blockSize 50 found
      if symbols.complete then return symbols.found
      else readSymbols codes last blockSize rest symbols.found

def pushRun (blockSize count : Nat) (b : UInt8) (out : Array UInt8) : Option (Array UInt8) :=
  if out.size + count ≤ blockSize then some (out ++ Array.replicate count b) else none

/--
Turns symbols into bytes. The first two symbols are the digits of the length of a run of the most recent byte,
the lowest first, in a system with the digits one and two; `run` is the length so far and `weight` that of the
next digit. The other symbols are places among the recent bytes.
-/
def unfoldSymbols (blockSize : Nat) :
    List Nat → (recent : List UInt8) → (run weight : Nat) → Array UInt8 → Option (Array UInt8)
  | [], recent, run, _, out => pushRun blockSize run (recent.headD 0) out
  | symbol :: rest, recent, run, weight, out =>
    if symbol < 2 then
      if blockSize < run then none
      else unfoldSymbols blockSize rest recent (run + (symbol + 1) * weight) (2 * weight) out
    else
      match pushRun blockSize run (recent.headD 0) out with
      | none => none
      | some out =>
        match moveToFront recent (symbol - 1) with
        | none => none
        | some (b, recent) =>
          if out.size < blockSize then unfoldSymbols blockSize rest recent 0 1 (out.push b) else none

def sortedPlaces (bytes : Array UInt8) : Array Nat :=
  let counts := bytes.foldl (fun n b => n.modify b.toNat (· + 1)) (Array.replicate 256 0)
  let starts := (counts.foldl (fun (acc : Array Nat × Nat) n => (acc.1.push acc.2, acc.2 + n))
    (Array.emptyWithCapacity 256, 0)).1
  let place (acc : Array Nat × Array Nat × Nat) (b : UInt8) : Array Nat × Array Nat × Nat :=
    let (starts, places, i) := acc
    let slot := starts.getD b.toNat 0
    (starts.modify b.toNat (· + 1), places.setIfInBounds slot i, i + 1)
  (bytes.foldl place (starts, Array.replicate bytes.size 0, 0)).2.1

def followPlaces (bytes : Array UInt8) (places : Array Nat) :
    (left place : Nat) → (out : Array UInt8) → Array UInt8
  | 0, _, out => out
  | left + 1, place, out =>
    followPlaces bytes places left (places.getD place 0) (out.push (bytes.getD place 0))

def unsort (bytes : Array UInt8) (origin : Nat) : Array UInt8 :=
  let places := sortedPlaces bytes
  followPlaces bytes places bytes.size (places.getD origin 0) (Array.emptyWithCapacity bytes.size)

/--
Expands the runs: behind four equal bytes stands how many more there are. `same` counts the bytes before that
are equal to `last`.
-/
def expandRuns : List UInt8 → (last : UInt8) → (same : Nat) → Array UInt8 → Option (Array UInt8)
  | [], _, same, out => if same = 4 then none else some out
  | b :: rest, last, same, out =>
    if same = 4 then expandRuns rest last 0 (out ++ Array.replicate b.toNat last)
    else if b = last then expandRuns rest last (same + 1) (out.push b)
    else expandRuns rest b 1 (out.push b)

def checksumBit (crc : UInt32) : UInt32 :=
  if crc ≥ 0x80000000 then (crc <<< 1) ^^^ 0x04c11db7 else crc <<< 1

def checksumByte (crc : UInt32) (b : UInt8) : UInt32 :=
  let mixed := crc ^^^ (b.toUInt32 <<< 24)
  checksumBit (checksumBit (checksumBit (checksumBit (checksumBit (checksumBit (checksumBit
    (checksumBit mixed)))))))

def checksumOf (bytes : Array UInt8) : UInt32 :=
  bytes.foldl checksumByte 0xffffffff ^^^ 0xffffffff

def orFail (problem : Problem) : Option α → BitM α
  | some a => pure a
  | none => BitM.fail problem

structure Block where
  text : Array UInt8
  checksum : UInt32

def Block.read (room blockSize : Nat) : BitM Block := do
  let expected ← BitM.bits 32
  if ← BitM.bit then
    BitM.fail .randomized
  let origin ← BitM.bits 24
  let alphabet ← readAlphabet
  if alphabet.isEmpty then
    BitM.fail .noSymbols
  let trees ← BitM.bits 3
  if trees < 2 || 6 < trees then
    BitM.fail .treeCount
  let selectorCount ← BitM.bits 15
  let places ← BitM.repeated (readSelector trees 6 0) selectorCount #[]
  let selected ← orFail .selector (selectTrees places.toList (List.range trees) #[])
  let codes ← BitM.repeated (Code.readTree room (alphabet.length + 2)) trees #[]
  let symbols ← readSymbols codes (alphabet.length + 1) blockSize selected.toList #[]
  let sorted ← orFail .blockTooLarge (unfoldSymbols blockSize symbols.toList alphabet 0 1 #[])
  if sorted.size ≤ origin then
    BitM.fail .origin
  let text ← orFail .runWithoutLength (expandRuns (unsort sorted origin).toList 0 0 #[])
  if checksumOf text ≠ expected.toUInt32 then
    BitM.fail .blockChecksum
  return ⟨text, expected.toUInt32⟩

end LuaBytecode.Bzip2
