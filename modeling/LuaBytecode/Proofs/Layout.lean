import Mathlib
import LuaBytecode.Reader.Chunk
import LuaBytecode.Proofs.Reads
import LuaBytecode.Proofs.Utf8

/-!
The layout of a chunk: the format of each of its parts, from strings up to the whole chunk, and that the
reader of each part follows its format.
-/

namespace LuaBytecode

open LuaBytecode.Field

namespace Reads

theorem seq {low o : Nat} {p : Platform} {m : ReadM α} {f : α → ReadM β} {F : Format α}
    {G : α → Format β} {q : α → Platform} {r : β → Platform} (first : Reads low o p m F q)
    (rest : ∀ o' a, o ≤ o' → Reads low o' (q a) (f a) (G a) r) :
    Reads low o p (m >>= f) (F >>= G) r := by
  apply Reads.bind first
  intro fields a _
  apply rest
  omega

theorem bind_nothing {low o : Nat} {p : Platform} {m : ReadM α} {f : α → ReadM β}
    {r : β → Platform} (h : Reads low o p m .nothing fun _ => p) :
    Reads low o p (m >>= f) .nothing r := by
  rw [← Format.nothing_bind fun _ => Format.nothing]
  apply Reads.bind h
  intro _ _ ha
  exact ha.elim

theorem require {low o : Nat} {p : Platform} {m : ReadM α} {P : Prop} {F : Unit → Format α}
    {q : α → Platform} (hpos : P → Reads low o p m (F ()) q)
    (hneg : ¬P → Reads low o p m .nothing q) :
    Reads low o p m (.require P >>= F) q := by
  by_cases h : P
  . rw [Format.require_of h, pure_bind]
    exact hpos h
  . rw [Format.require_of_not h, Format.nothing_bind]
    exact hneg h

theorem lift {low o : Nat} {p : Platform} {m : ReadM α} {x : Option β} {F : β → Format α}
    {q : α → Platform} (hsome : ∀ b, x = some b → Reads low o p m (F b) q)
    (hnone : x = none → Reads low o p m .nothing q) :
    Reads low o p m (.lift x >>= F) q := by
  cases x with
  | none =>
    rw [Format.lift_none, Format.nothing_bind]
    exact hnone rfl
  | some b =>
    rw [Format.lift_some, pure_bind]
    exact hsome b rfl

end Reads

namespace Format

def size : Format Nat := do
  let x ← varint
  require (x < 0x8000000000000000)
  return x

def rawString? : Format (Option Bytes) := do
  let n ← size
  if n = 0 then
    return none
  else
    return some (← bytes .body (n - 1))

def string? : Format (Option Bytes) := do
  return (← rawString?).map Utf8.repair

def fixed (p : Platform) (width : Width) : Format Nat := do
  return p.byteOrder.decode (← bytes .group width.bytes)

def integer (p : Platform) : Format Int64 := do
  let n ← fixed p p.integerSize
  return Int64.ofInt (Int.bmod n p.integerSize.values)

def number (p : Platform) : Format Binary64 := do
  let n ← fixed p p.numberSize
  match p.numberSize with
  | .four => return .ofSingle n.toUInt32
  | .eight => return ⟨n.toUInt64⟩

def word (p : Platform) : Format Word := do
  return (← fixed p .four).toUInt32

def table (limits : Limits) (F : Format α) : Format (List α) := do
  let n ← size
  require (n ≤ limits.maxCount)
  replicate F n

end Format

namespace ReadM

variable {low o : Nat} {p : Platform}

theorem size_reads (h : low ≤ o) : Reads low o p size .size fun _ => p := by
  apply Reads.offset
  apply Reads.seq (.varint h)
  intro o' x ho
  apply Reads.require
  . intro hx
    rw [if_pos hx]
    exact .pure x rfl
  . intro hx
    rw [if_neg hx]
    exact .fail h ho

theorem rawString?_reads (h : low ≤ o) : Reads low o p rawString? .rawString? fun _ => p := by
  apply Reads.seq (size_reads h)
  intro o' n ho
  split
  . exact .pure none rfl
  . apply Reads.seq (.bytes (by omega))
    intro o' bs ho
    exact .pure _ rfl

theorem string?_reads (h : low ≤ o) : Reads low o p string? .string? fun _ => p := by
  apply Reads.seq (rawString?_reads h)
  intro o' s ho
  cases s with
  | none => exact .pure none rfl
  | some text =>
    dsimp only
    rw [Utf8.repair_unless_valid]
    exact .pure _ rfl

theorem fixed_reads (width : Width) (h : low ≤ o) :
    Reads low o p (fixed width) (.fixed p width) fun _ => p := by
  apply Reads.seq (.bytes h)
  intro o' bs ho
  apply Reads.platform
  exact .pure _ rfl

theorem integer_reads (h : low ≤ o) : Reads low o p integer (.integer p) fun _ => p := by
  apply Reads.platform
  apply Reads.seq (fixed_reads _ h)
  intro o' n ho
  exact .pure _ rfl

theorem number_reads (h : low ≤ o) : Reads low o p number (.number p) fun _ => p := by
  apply Reads.platform
  apply Reads.seq (fixed_reads _ h)
  intro o' n ho
  cases p.numberSize with
  | four => exact .pure _ rfl
  | eight => exact .pure _ rfl

theorem word_reads (h : low ≤ o) : Reads low o p word (.word p) fun _ => p := by
  apply Reads.seq (fixed_reads _ h)
  intro o' n ho
  exact .pure _ rfl

/--
The elements of a table, whatever room there is for them.
-/
def elements (table : Bytes) (read : ReadM α) (n index : Nat) (found : Array α) : ReadM (List α) :=
  fun c => (traceElements table read 0 n index found c).result

theorem result_traceElements (table : Bytes) (read : ReadM α) (room n index : Nat) (found : Array α)
    (c : Cursor)
    : (traceElements table read room n index found c).result = elements table read n index found c := by
  induction n generalizing index found c with
  | zero => rfl
  | succ n ih =>
    rw [elements, traceElements, traceElements]
    cases read c with
    | ok a c' => exact ih _ _ _
    | error fault c' => rfl

theorem elements_succ (table : Bytes) (read : ReadM α) (left index : Nat) (found : Array α)
    : elements table read (left + 1) index found
        =
      inside (.element table index) read
        >>= fun a => elements table read left (index + 1) (found.push a) := by
  funext c
  simp only [bind, EStateM.bind, elements, traceElements, inside]
  cases read c <;> rfl

theorem elements_reads (table : Bytes) {read : ReadM α} {F : Format α}
    (hread : ∀ o, low ≤ o → Reads low o p read F fun _ => p) (n index : Nat) (found : Array α)
    (h : low ≤ o)
    : Reads low o p (elements table read n index found)
        (do return found.toList ++ (← Format.replicate F n)) fun _ => p := by
  induction n generalizing o index found with
  | zero =>
    rw [Format.replicate, pure_bind, List.append_nil]
    exact .pure _ rfl
  | succ n ih =>
    rw [elements_succ, Format.replicate]
    simp only [bind_assoc, pure_bind]
    apply Reads.seq (.inside (hread o h))
    intro o' a ho
    have := ih (index + 1) (found.push a) (Nat.le_trans h ho)
    simpa using this

theorem vector_eq (limits : Limits) (table : Bytes) (minSize : Nat) (read : ReadM α)
    : vector limits table minSize read = (do
        let start ← offset
        let count ← inside (.table table) (inside (.part "size") size)
        if limits.maxCount < count then
          inside (.table table) (fail start (.tableSize count limits.maxCount))
        else
          elements table read count 0 #[]) := by
  funext c
  unfold vector trace
  rw [bind_apply]
  dsimp only [offset]
  rw [bind_apply]
  cases inside (.table table) (inside (.part "size") size) c with
  | error fault c' => rfl
  | ok count c' =>
    dsimp only
    split
    . rfl
    . split
      . next hzero =>
        rw [hzero]
        rfl
      . exact result_traceElements ..

theorem vector_reads (limits : Limits) (table : Bytes) (minSize : Nat) {read : ReadM α}
    {F : Format α} (hread : ∀ o, low ≤ o → Reads low o p read F fun _ => p) (h : low ≤ o)
    : Reads low o p (vector limits table minSize read) (.table limits F) fun _ => p := by
  rw [vector_eq]
  apply Reads.offset
  apply Reads.seq (.inside (.inside (size_reads h)))
  intro o' n ho
  apply Reads.require
  . intro hn
    rw [if_neg (by omega)]
    simpa using elements_reads table hread n 0 #[] (Nat.le_trans h ho)
  . intro hn
    rw [if_pos (by omega)]
    exact .inside (.fail h ho)

end ReadM

namespace Header

def sizeLayout (valid : UInt8 → Option α) : Format α := do
  Format.lift (valid (← Format.byte))

def layout (limits : Limits) : Format Header := do
  Format.literal signature
  let version ← Format.byte
  Format.require (Version.mk version = .lua54)
  let format ← Format.byte
  Format.require (format = formatByte)
  Format.literal conversionCheck
  let instructionSize ← sizeLayout fun n => if n = instructionBytes then some n else none
  let integerSize ← sizeLayout Width.ofByte?
  let numberSize ← sizeLayout Width.ofByte?
  let byteOrder ← Format.lift (sampleOrder? (← Format.bytes .group integerSize.bytes))
  let numberSample ← Format.number { byteOrder, integerSize, numberSize }
  Format.require (limits.strictPlatform → numberSample = numberSampleValue)
  return {
    version := ⟨version⟩, format, instructionSize, integerSize, numberSize, byteOrder,
    integerSample := Int64.ofNat integerSampleValue, numberSample }

theorem readSize_reads {low o : Nat} {p : Platform} (what : String) (valid : UInt8 → Option α)
    (h : low ≤ o) : Reads low o p (readSize what valid) (sizeLayout valid) fun _ => p := by
  apply Reads.offset
  apply Reads.seq (.inside (.byte h))
  intro o' b ho
  cases valid b with
  | none =>
    rw [Format.lift_none]
    exact .fail h ho
  | some a =>
    rw [Format.lift_some]
    exact .pure a rfl

theorem read_reads (limits : Limits) (p : Platform) :
    Reads 0 0 p (read limits) (layout limits) Header.platform := by
  apply Reads.seq (.expect (Nat.le_refl 0))
  intro o₁ _ _
  apply Reads.offset
  apply Reads.seq (.inside (.byte (Nat.zero_le _)))
  intro o₂ version hversion
  apply Reads.require
  case hneg =>
    intro h
    rw [if_pos h]
    exact .bind_nothing (.fail (Nat.zero_le _) hversion)
  intro h
  rw [if_neg (not_not.mpr h)]
  apply Reads.offset
  apply Reads.seq (.inside (.byte (Nat.zero_le _)))
  intro o₃ format hformat
  apply Reads.require
  case hneg =>
    intro h
    rw [if_pos h]
    exact .bind_nothing (.fail (Nat.zero_le _) hformat)
  intro h
  rw [if_neg (not_not.mpr h)]
  apply Reads.offset
  apply Reads.seq (.expect (Nat.zero_le _))
  intro o₄ _ _
  apply Reads.seq (readSize_reads _ _ (Nat.zero_le _))
  intro o₅ instructionSize _
  apply Reads.seq (readSize_reads _ _ (Nat.zero_le _))
  intro o₆ integerSize _
  apply Reads.seq (readSize_reads _ _ (Nat.zero_le _))
  intro o₇ numberSize _
  apply Reads.platform
  apply Reads.setPlatform
  apply Reads.offset
  apply Reads.seq (.inside (.bytes (Nat.zero_le _)))
  intro o₈ sample hsample
  apply Reads.lift
  case hnone =>
    intro h
    rw [h]
    exact .fail (Nat.zero_le _) hsample
  intro byteOrder h
  rw [h]
  apply Reads.setPlatform
  apply Reads.offset
  apply Reads.seq (.inside (ReadM.number_reads (Nat.zero_le _)))
  intro o₉ numberSample hnumber
  apply Reads.require
  . intro h
    rw [if_neg]
    . exact .pure _ rfl
    . simpa [numberSampleMatches] using h
  . intro h
    rw [if_pos]
    . exact .fail (Nat.zero_le _) hnumber
    . simpa [numberSampleMatches] using h

end Header

section Parts

variable {low o : Nat} {p : Platform}

namespace Constant

def stringLayout (long : Bool) : Format Constant := do
  let value ← Format.lift (← Format.string?)
  return .string value long

def layout (p : Platform) : Format Constant := do
  match ← Format.byte with
  | 0x00 => return .nil
  | 0x01 => return .boolean false
  | 0x03 => return .integer (← Format.integer p)
  | 0x04 => stringLayout false
  | 0x11 => return .boolean true
  | 0x13 => return .float (← Format.number p)
  | 0x14 => stringLayout true
  | _ => Format.nothing

theorem readString_reads (long : Bool) (h : low ≤ o) :
    Reads low o p (readString long) (stringLayout long) fun _ => p := by
  apply Reads.offset
  apply Reads.seq (ReadM.string?_reads h)
  intro o' s ho
  cases s with
  | none =>
    rw [Format.lift_none, Format.nothing_bind]
    exact .fail h ho
  | some value =>
    rw [Format.lift_some, pure_bind]
    exact .pure _ rfl

theorem read_reads (h : low ≤ o) : Reads low o p read (layout p) fun _ => p := by
  apply Reads.offset
  apply Reads.seq (.byte h)
  intro o' tag ho
  have h' : low ≤ o' := Nat.le_trans h ho
  split
  . exact .pure _ rfl
  . exact .pure _ rfl
  . exact .pure _ rfl
  . apply Reads.seq (ReadM.integer_reads h')
    intro o' n ho
    exact .pure _ rfl
  . apply Reads.seq (ReadM.number_reads h')
    intro o' x ho
    exact .pure _ rfl
  . exact readString_reads false h'
  . exact readString_reads true h'
  . split
    case h_8 => exact .fail h ho
    all_goals contradiction

end Constant

namespace Upvalue

def layout : Format Upvalue := do
  match ← Format.bytes .group 3 with
  | [inStack, index, kind] =>
    let variableKind ← Format.lift (VariableKind.ofCode? kind)
    return ⟨inStack != 0, index, variableKind⟩
  | _ => Format.nothing

theorem read_reads (h : low ≤ o) : Reads low o p read layout fun _ => p := by
  apply Reads.bind (.bytes h)
  rintro _ bs ⟨rfl, hlen⟩
  rw [width_singleton, hlen]
  obtain ⟨inStack, index, kind, rfl⟩ := List.length_eq_three.mp hlen
  dsimp only
  apply Reads.lift
  . intro variableKind hkind
    rw [hkind]
    exact .pure _ rfl
  . intro hkind
    rw [hkind]
    apply Reads.offset
    apply Reads.fail
    . omega
    . omega

end Upvalue

namespace Instruction

def layout (p : Platform) : Format Instruction := do
  Format.lift (ofWord (← Format.word p)).toOption

theorem read_reads (h : low ≤ o) : Reads low o p read (layout p) fun _ => p := by
  apply Reads.offset
  apply Reads.seq (ReadM.word_reads h)
  intro o' w ho
  cases ofWord w with
  | ok i =>
    rw [Except.toOption, Format.lift_some]
    exact .pure i rfl
  | error e =>
    rw [Except.toOption, Format.lift_none]
    exact .fail h ho

end Instruction

namespace Checkpoint

def layout : Format Checkpoint := do
  let pc ← Format.size
  let line ← Format.size
  return ⟨Int64.ofNat pc, Int64.ofNat line⟩

theorem read_reads (h : low ≤ o) : Reads low o p read layout fun _ => p := by
  apply Reads.seq (.inside (ReadM.size_reads h))
  intro o₁ pc h₁
  apply Reads.seq (.inside (ReadM.size_reads (by omega)))
  intro o₂ line h₂
  exact .pure _ rfl

end Checkpoint

namespace LocalVariable

def layout : Format LocalVariable := do
  let name ← Format.string?
  let startPC ← Format.size
  let endPC ← Format.size
  return ⟨name.getD [], Int64.ofNat startPC, Int64.ofNat endPC⟩

theorem read_reads (h : low ≤ o) : Reads low o p read layout fun _ => p := by
  apply Reads.seq (.inside (ReadM.string?_reads h))
  intro o₁ name h₁
  apply Reads.seq (.inside (ReadM.size_reads (by omega)))
  intro o₂ startPC h₂
  apply Reads.seq (.inside (ReadM.size_reads (by omega)))
  intro o₃ endPC h₃
  exact .pure _ rfl

end LocalVariable

namespace DebugInfo

def layout (limits : Limits) (codeSize upvalueCount : Nat) : Format DebugInfo := do
  let lineDeltas ← Format.table limits do return (← Format.byte).toInt8
  Format.require (lineDeltas.length = 0 ∨ lineDeltas.length = codeSize)
  let checkpoints ← Format.table limits Checkpoint.layout
  Format.require (LineTable.check lineDeltas checkpoints = .ok ())
  let locals ← Format.table limits LocalVariable.layout
  let upvalueNames ← Format.table limits do return (← Format.string?).getD []
  Format.require (upvalueNames.length = 0 ∨ upvalueNames.length = upvalueCount)
  return { lineDeltas, checkpoints, locals, upvalueNames }

theorem lineDelta_reads (h : low ≤ o)
    : Reads low o p (do return (← ReadM.byte).toInt8) (do return (← Format.byte).toInt8)
        fun _ => p := by
  apply Reads.seq (.byte h)
  intro o' b ho
  exact .pure _ rfl

theorem upvalueName_reads (h : low ≤ o)
    : Reads low o p (do return (← ReadM.string?).getD []) (do return (← Format.string?).getD [])
        fun _ => p := by
  apply Reads.seq (ReadM.string?_reads h)
  intro o' s ho
  exact .pure _ rfl

theorem read_reads (limits : Limits) (codeSize upvalueCount : Nat) (h : low ≤ o)
    : Reads low o p (read limits codeSize upvalueCount) (layout limits codeSize upvalueCount)
        fun _ => p := by
  apply Reads.offset
  apply Reads.seq (ReadM.vector_reads limits _ _ (fun o' => lineDelta_reads) h)
  intro o₁ lineDeltas h₁
  apply Reads.require
  case hneg =>
    intro hlines
    rw [if_pos (by simpa using hlines)]
    exact .bind_nothing (.inside (.fail h h₁))
  intro hlines
  rw [if_neg (by simpa [or_iff_not_imp_left] using hlines)]
  apply Reads.offset
  apply Reads.seq (ReadM.vector_reads limits _ _ (fun o' => Checkpoint.read_reads) (by omega))
  intro o₂ checkpoints h₂
  apply Reads.require
  case hneg =>
    intro hcheck
    cases hresult : LineTable.check lineDeltas checkpoints with
    | ok _ => exact absurd hresult hcheck
    | error problem => exact .bind_nothing (.inside (.fail (by omega) h₂))
  intro hcheck
  rw [hcheck]
  apply Reads.seq (ReadM.vector_reads limits _ _ (fun o' => LocalVariable.read_reads) (by omega))
  intro o₃ locals h₃
  apply Reads.offset
  apply Reads.seq (ReadM.vector_reads limits _ _ (fun o' => upvalueName_reads) (by omega))
  intro o₄ upvalueNames h₄
  apply Reads.require
  . intro hnames
    rw [if_neg (by simpa [or_iff_not_imp_left] using hnames)]
    exact .pure _ rfl
  . intro hnames
    rw [if_pos (by simpa using hnames)]
    exact .bind_nothing (.inside (.fail (by omega) h₄))

end DebugInfo

namespace Prototype

def layout (limits : Limits) (p : Platform) : Nat → Format Prototype
  | 0 => Format.nothing
  | levels + 1 => do
    let name ← Format.string?
    let lineDefined ← Format.size
    let lastLineDefined ← Format.size
    let numParams ← Format.byte
    let vararg ← Format.byte
    let maxStackSize ← Format.byte
    let code ← Format.table limits (Instruction.layout p)
    let constants ← Format.table limits (Constant.layout p)
    let upvalues ← Format.table limits Upvalue.layout
    let functions ← Format.table limits (layout limits p levels)
    let debug ← DebugInfo.layout limits code.length upvalues.length
    return {
      name, lineDefined := Int64.ofNat lineDefined,
      lastLineDefined := Int64.ofNat lastLineDefined,
      numParams, vararg := .ofByte vararg, maxStackSize,
      code, constants, upvalues, functions, debug }

theorem read_reads (limits : Limits) (levels : Nat) (h : low ≤ o) :
    Reads low o p (read limits levels) (layout limits p levels) fun _ => p := by
  induction levels generalizing o with
  | zero =>
    apply Reads.offset
    exact .fail h (Nat.le_refl o)
  | succ levels ih =>
    apply Reads.seq (.inside (ReadM.string?_reads h))
    intro o₁ name h₁
    apply Reads.seq (.inside (ReadM.size_reads (by omega)))
    intro o₂ lineDefined h₂
    apply Reads.seq (.inside (ReadM.size_reads (by omega)))
    intro o₃ lastLineDefined h₃
    apply Reads.seq (.inside (.byte (by omega)))
    intro o₄ numParams h₄
    apply Reads.seq (.inside (.byte (by omega)))
    intro o₅ vararg h₅
    apply Reads.seq (.inside (.byte (by omega)))
    intro o₆ maxStackSize h₆
    apply Reads.seq (ReadM.vector_reads limits _ _ (fun o' => Instruction.read_reads) (by omega))
    intro o₇ code h₇
    apply Reads.seq (ReadM.vector_reads limits _ _ (fun o' => Constant.read_reads) (by omega))
    intro o₈ constants h₈
    apply Reads.seq (ReadM.vector_reads limits _ _ (fun o' => Upvalue.read_reads) (by omega))
    intro o₉ upvalues h₉
    apply Reads.seq (ReadM.vector_reads limits _ _ (fun o' => ih) (by omega))
    intro o₁₀ functions h₁₀
    apply Reads.seq (.inside (DebugInfo.read_reads limits _ _ (by omega)))
    intro o₁₁ debug h₁₁
    exact .pure _ rfl

end Prototype

end Parts

namespace Chunk

structure Contents where
  header : Header
  upvalueCount : UInt8
  main : Prototype

def contents (chunk : Chunk) : Contents :=
  ⟨chunk.header, chunk.upvalueCount, chunk.main⟩

def readContents (limits : Limits) : ReadM Contents := do
  let header ← ReadM.inside (.part "header") (Header.read limits)
  let countOffset ← ReadM.offset
  let upvalueCount ← ReadM.inside (.part "upvalue count") ReadM.byte
  let main ← ReadM.inside (.part "main function") (Prototype.read limits limits.maxDepth)
  if upvalueCount.toNat ≠ main.upvalues.length then
    ReadM.fail countOffset (.upvalueCount upvalueCount main.upvalues.length)
  return ⟨header, upvalueCount, main⟩

def layout (limits : Limits) : Format Contents := do
  let header ← Header.layout limits
  let upvalueCount ← Format.byte
  let main ← Prototype.layout limits header.platform limits.maxDepth
  Format.require (upvalueCount.toNat = main.upvalues.length)
  return ⟨header, upvalueCount, main⟩

theorem read_eq (limits : Limits)
    : read limits
        =
      (do
        let contents ← readContents limits
        return {
          header := contents.header, upvalueCount := contents.upvalueCount, main := contents.main,
          trailingBytes := ← ReadM.remaining }) := by
  simp only [read, readContents, bind_assoc]
  congr
  funext header
  congr
  funext countOffset
  congr
  funext upvalueCount
  congr
  funext main
  split <;> simp

theorem readContents_reads (limits : Limits) (p : Platform)
    : Reads 0 0 p (readContents limits) (layout limits) fun contents => contents.header.platform := by
  apply Reads.seq (.inside (Header.read_reads limits p))
  intro o₁ header _
  apply Reads.offset
  apply Reads.seq (.inside (.byte (Nat.zero_le _)))
  intro o₂ upvalueCount h₂
  apply Reads.seq (.inside (Prototype.read_reads limits _ (Nat.zero_le _)))
  intro o₃ main h₃
  apply Reads.require
  . intro h
    rw [if_neg (not_not.mpr h)]
    exact .pure _ rfl
  . intro h
    rw [if_pos h]
    exact .bind_nothing (.fail (Nat.zero_le _) (by omega))

theorem read_eq_ok_iff {limits : Limits} {input : Bytes} {chunk : Chunk} {c : Cursor}
    : read limits (.ofBytes input) = .ok chunk c
        ↔
      readContents limits (.ofBytes input) = .ok chunk.contents c
        ∧ chunk.trailingBytes = c.rest.length := by
  rw [read_eq, ReadM.bind_apply]
  cases readContents limits (.ofBytes input) with
  | error => simp
  | ok contents c' =>
    simp only [ReadM.bind_apply, ReadM.remaining, pure, EStateM.pure, EStateM.Result.ok.injEq]
    constructor
    . rintro ⟨rfl, rfl⟩
      exact ⟨⟨rfl, rfl⟩, rfl⟩
    . rintro ⟨⟨rfl, rfl⟩, htrailing⟩
      cases chunk
      simp_all [Chunk.contents]

theorem decode_eq_ok_iff {limits : Limits} {input : Bytes} {chunk : Chunk}
    : decode limits input = .ok chunk
        ↔
      ∃ fields rest,
        layout limits fields chunk.contents
          ∧ input = join fields ++ rest
          ∧ chunk.trailingBytes = rest.length := by
  have hreads := readContents_reads limits {}
  have hread : decode limits input = .ok chunk ↔ ∃ c, read limits (.ofBytes input) = .ok chunk c := by
    rw [decode, ReadM.inside]
    cases read limits (.ofBytes input) <;> simp
  rw [hread]
  constructor
  . rintro ⟨c, hok⟩
    obtain ⟨hcontents, htrailing⟩ := read_eq_ok_iff.mp hok
    obtain ⟨fields, rest, hlayout, hinput, rfl⟩ := hreads.exists_of_eq_ok hcontents
    exact ⟨fields, rest, hlayout, hinput, htrailing⟩
  . rintro ⟨fields, rest, hlayout, rfl, htrailing⟩
    exact ⟨_, read_eq_ok_iff.mpr ⟨hreads.eq_ok rest hlayout, htrailing⟩⟩

theorem decode_eq_error_iff {limits : Limits} {input : Bytes} {fault : Fault}
    : decode limits input = .error fault
        ↔
      ∃ inner c,
        readContents limits (.ofBytes input) = .error inner c
          ∧ fault = inner.within (.part "decode lua chunk") := by
  rw [decode, ReadM.inside, read_eq, ReadM.bind_apply]
  cases readContents limits (.ofBytes input) with
  | ok contents c => simp [ReadM.bind_apply, ReadM.remaining, pure, EStateM.pure]
  | error inner c => simp [eq_comm]

def sampleHeader : Header where
  version := .lua54
  format := 0
  instructionSize := 4
  integerSize := .four
  numberSize := .four
  byteOrder := .big
  integerSample := 0x5678
  numberSample := Header.numberSampleValue

def sampleInner : Prototype where
  lineDefined := 2
  lastLineDefined := 300
  numParams := 1
  maxStackSize := 2
  code := [⟨.move, .ab 0 1⟩]
  constants := [.integer (-2), .float (.ofSingle 0xbf800000), .string (utf8 "é") true]

def sampleMain : Prototype where
  name := some (utf8 "@x")
  vararg := ⟨1⟩
  maxStackSize := 2
  code := [⟨.jmp, .sj (-1)⟩, ⟨.loadI, .asbx 0 (-7)⟩]
  constants := [.nil, .boolean true]
  upvalues := [⟨true, 0, .const⟩]
  functions := [sampleInner]
  debug := {
    lineDeltas := [1, lineMarker]
    checkpoints := [⟨1, 300⟩]
    locals := [⟨utf8 "a", 0, 2⟩]
    upvalueNames := [utf8 "_ENV"] }

/--
A chunk for a platform with small numbers. A function with no debug tables is inside its main function.
-/
def sampleInput : Bytes :=
  Header.signature ++ [0x54, 0x00] ++ Header.conversionCheck ++ [4, 4, 4]
    ++ [0x00, 0x00, 0x56, 0x78] ++ [0x43, 0xb9, 0x40, 0x00] ++ [1]
    -- Main function: name, lines and sizes; code; constants; upvalues; one function.
    ++ [0x83, 0x40, 0x78, 0x80, 0x80, 0, 1, 2]
    ++ [0x82, 0x7f, 0xff, 0xff, 0x38, 0x7f, 0xfc, 0x00, 0x01]
    ++ [0x82, 0x00, 0x11] ++ [0x81, 1, 0, 1] ++ [0x81]
    -- The function inside it: the line 300 takes two groups, and the last six tables are empty.
    ++ [0x80, 0x82, 0x02, 0xac, 1, 0, 2] ++ [0x81, 0x00, 0x01, 0x00, 0x00]
    ++ [0x83, 0x03, 0xff, 0xff, 0xff, 0xfe, 0x13, 0xbf, 0x80, 0x00, 0x00, 0x14, 0x83, 0xc3, 0xa9]
    ++ [0x80, 0x80] ++ [0x80, 0x80, 0x80, 0x80]
    -- Debug tables of the main function.
    ++ [0x82, 0x01, 0x80] ++ [0x81, 0x81, 0x02, 0xac] ++ [0x81, 0x82, 0x61, 0x80, 0x82]
    ++ [0x81, 0x85, 0x5f, 0x45, 0x4e, 0x56]

theorem decode_sampleInput
    : decode { maxDepth := 2, maxCount := 3 } sampleInput = .ok ⟨sampleHeader, 1, sampleMain, 0⟩ := by
  rfl

end Chunk

end LuaBytecode
