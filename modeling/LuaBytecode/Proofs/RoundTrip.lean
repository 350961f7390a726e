import Mathlib
import LuaBytecode.Writer.Chunk
import LuaBytecode.Proofs.Layout
import LuaBytecode.Proofs.Utf8
import LuaBytecode.Proofs.Word
import LuaBytecode.Proofs.Accepted

/-!
What is written is read back. `Format.Spells` says that bytes are those of a value in a format; it goes
along the parts of a chunk, and each encoder writes bytes that spell its value. A length that has no
place in 63 bits cannot be written, so the encoders are given that their bytes are fewer than that.
-/

namespace LuaBytecode

open LuaBytecode.Field

namespace Bytes

theorem ofVarint_ne_nil (x : Nat) : ofVarint x ≠ [] := by
  simp [ofVarint]

theorem ofString_ne_nil (s : Bytes) : ofString s ≠ [] := by
  simp [ofString, ofVarint_ne_nil]

theorem length_lt_length_ofString (s : Bytes) : s.length < (ofString s).length := by
  rw [ofString, ofVarint]
  simp
  omega

end Bytes

theorem ofNat_toNatClampNeg {n : Int64} (h : 0 ≤ n) : Int64.ofNat n.toNatClampNeg = n := by
  rw [Int64.le_iff_toInt_le, Int64.toInt_zero] at h
  rw [← Int64.toNat_toInt, ← Int64.ofInt_eq_ofNat, Int.toNat_of_nonneg h, Int64.ofInt_toInt]

theorem Width.ofByte?_bytes (width : Width) : ofByte? width.bytes.toUInt8 = some width := by
  cases width <;> rfl

theorem VariableKind.ofCode?_code (kind : VariableKind) : ofCode? kind.code = some kind := by
  cases kind <;> rfl

theorem VarargFlags.ofByte_bits {flags : VarargFlags} (h : flags.bits ≤ 7) :
    ofByte flags.bits = flags := by
  have hmod : flags.bits.toNat &&& 7 = flags.bits.toNat % 8 := Nat.and_two_pow_sub_one_eq_mod _ 3
  have hbits : flags.bits &&& 7 = flags.bits := by
    apply UInt8.toNat_inj.mp
    rw [UInt8.toNat_and, UInt8.toNat_ofNat, hmod]
    exact Nat.mod_eq_of_lt (Nat.lt_succ_of_le h)
  rw [ofByte, hbits]

namespace Format

def Spells (F : Format α) (bytes : Bytes) (a : α) : Prop :=
  ∃ fields, F fields a ∧ join fields = bytes

namespace Spells

theorem pure (a : α) : (pure a : Format α).Spells [] a := by
  exact ⟨[], ⟨rfl, rfl⟩, rfl⟩

theorem bind {F : Format α} {G : α → Format β} {bs cs : Bytes} {a : α} {b : β}
    (first : F.Spells bs a) (rest : (G a).Spells cs b) : (F >>= G).Spells (bs ++ cs) b := by
  obtain ⟨fs, hfs, rfl⟩ := first
  obtain ⟨gs, hgs, rfl⟩ := rest
  exact ⟨fs ++ gs, ⟨fs, gs, a, rfl, hfs, hgs⟩, join_append fs gs⟩

theorem last {F : Format α} {G : α → Format β} {bs : Bytes} {a : α} {b : β}
    (first : F.Spells bs a) (rest : (G a).Spells [] b) : (F >>= G).Spells bs b := by
  rw [← List.append_nil bs]
  exact bind first rest

theorem map {F : Format α} {g : α → β} {bs : Bytes} {a : α} {b : β} (h : F.Spells bs a)
    (hb : b = g a) : (do return g (← F)).Spells bs b := by
  rw [hb]
  exact last h (pure (g a))

theorem require {P : Prop} {F : Unit → Format α} {bs : Bytes} {a : α} (h : P)
    (rest : (F ()).Spells bs a) : (Format.require P >>= F).Spells bs a := by
  rw [require_of h, pure_bind]
  exact rest

theorem lift {x : Option α} {a : α} {F : α → Format β} {bs : Bytes} {b : β} (h : x = some a)
    (rest : (F a).Spells bs b) : (Format.lift x >>= F).Spells bs b := by
  rw [h, lift_some, pure_bind]
  exact rest

theorem literal (bs : Bytes) : (Format.literal bs).Spells bs () := by
  exact ⟨_, rfl, join_singleton _⟩

theorem byte {F : UInt8 → Format α} {b : UInt8} {bs : Bytes} {a : α} (rest : (F b).Spells bs a) :
    (Format.byte >>= F).Spells (b :: bs) a := by
  have first : Format.byte.Spells [b] b := ⟨_, rfl, join_singleton _⟩
  exact bind first rest

theorem bytes (kind : FieldKind) {bs : Bytes} {n : Nat} (h : bs.length = n) :
    (Format.bytes kind n).Spells bs bs := by
  exact ⟨_, ⟨rfl, h⟩, join_singleton _⟩

theorem replicate {F : Format α} {encode : α → Bytes} {as : List α}
    (h : ∀ a ∈ as, F.Spells (encode a) a) :
    (Format.replicate F as.length).Spells (as.flatMap encode) as := by
  induction as with
  | nil => exact pure []
  | cons a as ih =>
    rw [List.forall_mem_cons] at h
    rw [List.flatMap_cons]
    apply bind h.1
    exact map (ih h.2) rfl

end Spells

theorem spells_groups {groups : Bytes} {n : Nat} (hgroups : Varint.Spells groups n)
    (h : n < 0x8000000000000000) : size.Spells groups n := by
  have hvarint : varint.Spells groups n := ⟨_, ⟨groups, rfl, hgroups⟩, join_singleton _⟩
  apply Spells.last hvarint
  apply Spells.require h
  exact .pure n

theorem spells_size {n : Nat} (h : n < 0x8000000000000000) : size.Spells (Bytes.ofVarint n) n :=
  spells_groups (Bytes.spells_ofVarint n (by omega)) h

theorem spells_ofSize {n : Int64} (h : 0 ≤ n) : size.Spells (Bytes.ofSize n) n.toNatClampNeg := by
  have hn : n.toUInt64.toNat = n.toNatClampNeg := Int64.toNat_toUInt64_of_le h
  rw [Bytes.ofSize, hn]
  exact spells_size n.toNatClampNeg_lt

theorem spells_rawString {groups s : Bytes} (hgroups : Varint.Spells groups (s.length + 1))
    (h : s.length + 1 < 0x8000000000000000) : rawString?.Spells (groups ++ s) (some s) := by
  apply Spells.bind (spells_groups hgroups h)
  rw [if_neg (Nat.succ_ne_zero _)]
  exact Spells.map (.bytes .body rfl) rfl

theorem spells_absent {groups : Bytes} (hgroups : Varint.Spells groups 0) :
    rawString?.Spells groups none := by
  apply Spells.last (spells_groups hgroups (by omega))
  exact .pure none

theorem spells_ofString {s : Bytes} (htext : Utf8.IsText s)
    (hlength : (Bytes.ofString s).length < 0x8000000000000000) :
    string?.Spells (Bytes.ofString s) (some s) := by
  have := Bytes.length_lt_length_ofString s
  have hraw := spells_rawString (Bytes.spells_ofVarint (s.length + 1) (by omega)) (by omega)
  exact Spells.map hraw (by simp [Utf8.repair_of_isText htext])

theorem spells_ofString? {s : Option Bytes} (htext : ∀ t ∈ s, Utf8.IsText t)
    (hlength : (Bytes.ofString? s).length < 0x8000000000000000) :
    string?.Spells (Bytes.ofString? s) s := by
  cases s with
  | none => exact Spells.map (spells_absent (Bytes.spells_ofVarint 0 (by omega))) rfl
  | some s => exact spells_ofString (htext s rfl) hlength

theorem spells_ofTable {limits : Limits} {F : Format α} {encode : α → Bytes} {as : List α}
    (hcount : as.length ≤ limits.maxCount)
    (hlength : (Bytes.ofTable encode as).length < 0x8000000000000000)
    (hpos : ∀ a, encode a ≠ [])
    (helement : ∀ a ∈ as, (encode a).length < 0x8000000000000000 → F.Spells (encode a) a) :
    (table limits F).Spells (Bytes.ofTable encode as) as := by
  rw [Bytes.ofTable, List.length_append] at hlength
  -- Each element takes a byte at least, so the number of elements has a place in a size.
  have hcount' : as.length ≤ (as.flatMap encode).length := by
    rw [List.length_flatMap, ← List.length_map (fun a => (encode a).length)]
    apply List.length_le_sum_of_one_le
    intro n hn
    obtain ⟨a, _, rfl⟩ := List.mem_map.mp hn
    exact List.length_pos_of_ne_nil (hpos a)
  apply Spells.bind (spells_size (by omega))
  apply Spells.require hcount
  apply Spells.replicate
  intro a ha
  apply helement a ha
  have := (List.sublist_flatten_of_mem (List.mem_map_of_mem (f := encode) ha)).length_le
  rw [← List.flatMap_def] at this
  omega

theorem spells_fixed (p : Platform) (width : Width) (n : Nat)
    : (fixed p width).Spells (p.byteOrder.encode width.bytes n) (n % 256 ^ width.bytes) := by
  apply Spells.map (.bytes .group (ByteOrder.length_encode ..))
  rw [ByteOrder.decode_encode]

theorem spells_integer {p : Platform} {n : Int64} (h : p.integerSize.Holds n) :
    (integer p).Spells (p.integerBytes n) n := by
  apply Spells.map (spells_fixed p p.integerSize n.toUInt64.toNat)
  rw [Width.ofInt_bmod_toUInt64 _ _ h]

theorem spells_number {p : Platform} {x : Binary64}
    (h : p.numberSize = .four → ∃ bits, x = .ofSingle bits) (hnan : p.numberSize = .four → ¬x.isNaN)
    : (number p).Spells (p.numberBytes x) x := by
  unfold number Platform.numberBytes
  cases hsize : p.numberSize with
  | four =>
    obtain ⟨bits, rfl⟩ := h hsize
    apply Spells.map (spells_fixed p .four _)
    have hlt : bits.toNat < 256 ^ Width.four.bytes := bits.toNat_lt
    rw [Binary64.toSingle_ofSingle bits (by simpa using hnan hsize), Nat.mod_eq_of_lt hlt]
    simp
  | eight =>
    apply Spells.map (spells_fixed p .eight _)
    have hlt : x.bits.toNat < 256 ^ Width.eight.bytes := x.bits.toNat_lt
    rw [Nat.mod_eq_of_lt hlt]
    simp

theorem spells_word (p : Platform) (w : Word) : (word p).Spells (p.wordBytes w) w := by
  apply Spells.map (spells_fixed p .four w.toNat)
  have hlt : w.toNat < 256 ^ Width.four.bytes := w.toNat_lt
  rw [Nat.mod_eq_of_lt hlt]
  simp

end Format

theorem Reads.eq_ok_of_spells {low o : Nat} {p : Platform} {m : ReadM α} {F : Format α}
    {q : α → Platform} (h : Reads low o p m F q) {bytes : Bytes} {a : α} (rest : Bytes)
    (hspells : F.Spells bytes a) : m ⟨o, bytes ++ rest, p⟩ = .ok a ⟨o + bytes.length, rest, q a⟩ := by
  obtain ⟨fields, hfields, rfl⟩ := hspells
  exact h.eq_ok rest hfields

open Format

/--
On platforms with small floats the constant is not NaN, whose bits are not all kept.
-/
def Constant.Exact (p : Platform) : Constant → Prop
  | .float x => p.numberSize = .four → ¬x.isNaN
  | _ => True

namespace Constant

theorem spells_string {long : Bool} {s : Bytes} (htext : Utf8.IsText s)
    (hlength : (Bytes.ofString s).length < 0x8000000000000000) :
    (stringLayout long).Spells (Bytes.ofString s) (.string s long) := by
  apply Spells.last (spells_ofString htext hlength)
  apply Spells.lift rfl
  exact .pure _

theorem encode_ne_nil (p : Platform) (k : Constant) : k.encode p ≠ [] := by
  unfold encode
  split <;> simp

theorem spells_encode {p : Platform} {k : Constant} (h : k.WellFormed p) (hexact : k.Exact p)
    (hlength : (k.encode p).length < 0x8000000000000000) :
    (layout p).Spells (k.encode p) k := by
  cases k with
  | nil =>
    apply Spells.byte
    exact .pure _
  | boolean value =>
    cases value with
    | false =>
      apply Spells.byte
      exact .pure _
    | true =>
      apply Spells.byte
      exact .pure _
  | integer n =>
    apply Spells.byte
    exact Spells.map (spells_integer h) rfl
  | float x =>
    apply Spells.byte
    exact Spells.map (spells_number h hexact) rfl
  | string s long =>
    have hstring : (Bytes.ofString s).length < 0x8000000000000000 := by
      cases long <;> exact Nat.lt_of_succ_lt hlength
    cases long with
    | false =>
      apply Spells.byte
      exact spells_string h hstring
    | true =>
      apply Spells.byte
      exact spells_string h hstring

end Constant

namespace Instruction

theorem encode_ne_nil (p : Platform) (i : Instruction) : i.encode p ≠ [] := by
  apply List.ne_nil_of_length_pos
  rw [encode, Platform.wordBytes, ByteOrder.length_encode]
  omega

theorem spells_encode (p : Platform) {i : Instruction} (h : i.WellFormed) :
    (layout p).Spells (i.encode p) i := by
  apply Spells.last (spells_word p i.toWord)
  rw [ofWord_toWord i h, Except.toOption, lift_some]
  exact .pure i

end Instruction

namespace Upvalue

theorem encode_ne_nil (u : Upvalue) : u.encode ≠ [] := by
  simp [encode]

theorem spells_encode (u : Upvalue) : layout.Spells u.encode u := by
  have hlength : u.encode.length = 3 := rfl
  apply Spells.last (.bytes .group hlength)
  apply Spells.lift (VariableKind.ofCode?_code u.kind)
  have : (u.inStack.toUInt8 != 0) = u.inStack := by cases u.inStack <;> rfl
  rw [this]
  exact .pure u

end Upvalue

namespace Checkpoint

theorem encode_ne_nil (c : Checkpoint) : c.encode ≠ [] := by
  simp [encode, Bytes.ofSize, Bytes.ofVarint_ne_nil]

theorem spells_encode {c : Checkpoint} (h : c.WellFormed) : layout.Spells c.encode c := by
  apply Spells.bind (spells_ofSize h.pc)
  apply Spells.map (spells_ofSize h.line)
  rw [ofNat_toNatClampNeg h.pc, ofNat_toNatClampNeg h.line]

end Checkpoint

namespace LocalVariable

theorem encode_ne_nil (v : LocalVariable) : v.encode ≠ [] := by
  simp [encode, Bytes.ofString, Bytes.ofVarint_ne_nil]

theorem spells_encode {v : LocalVariable} (h : v.WellFormed)
    (hlength : v.encode.length < 0x8000000000000000) : layout.Spells v.encode v := by
  rw [encode, List.append_assoc] at hlength ⊢
  rw [List.length_append] at hlength
  apply Spells.bind (spells_ofString h.name (by omega))
  apply Spells.bind (spells_ofSize h.startPC)
  apply Spells.map (spells_ofSize h.endPC)
  rw [ofNat_toNatClampNeg h.startPC, ofNat_toNatClampNeg h.endPC, Option.getD_some]

end LocalVariable

namespace DebugInfo

theorem spells_encode {limits : Limits} {codeSize upvalueCount : Nat} {info : DebugInfo}
    (h : info.WellFormed codeSize upvalueCount)
    (hcounts : ∀ n ∈ info.tableLengths, n ≤ limits.maxCount)
    (hlength : info.encode.length < 0x8000000000000000) :
    (layout limits codeSize upvalueCount).Spells info.encode info := by
  simp only [tableLengths, List.forall_mem_cons] at hcounts
  obtain ⟨hdeltas, hcheckpoints, hlocals, hnames, _⟩ := hcounts
  simp only [encode, List.append_assoc, List.length_append] at hlength ⊢
  have hdelta : ∀ delta : Int8, (do return (← Format.byte).toInt8).Spells [delta.toUInt8] delta := by
    intro delta
    apply Spells.byte
    exact .pure _
  have hname : ∀ s ∈ info.upvalueNames, (Bytes.ofString s).length < 0x8000000000000000 →
      (do return (← Format.string?).getD []).Spells (Bytes.ofString s) s := by
    intro s hs hlength
    exact Spells.map (spells_ofString (h.upvalueNames s hs) hlength) rfl
  apply Spells.bind (spells_ofTable hdeltas (by omega) (by simp) fun delta _ _ => hdelta delta)
  apply Spells.require h.lineDeltas_length
  apply Spells.bind (spells_ofTable hcheckpoints (by omega) Checkpoint.encode_ne_nil
    fun c hc _ => Checkpoint.spells_encode (h.checkpoints c hc))
  apply Spells.require (LineTable.check_eq_ok_iff.mpr h.checkpointPCs)
  apply Spells.bind (spells_ofTable hlocals (by omega) LocalVariable.encode_ne_nil
    fun v hv => LocalVariable.spells_encode (h.locals v hv))
  apply Spells.last (spells_ofTable hnames (by omega) Bytes.ofString_ne_nil hname)
  apply Spells.require h.upvalueNames_length
  exact .pure info

end DebugInfo

namespace Prototype

theorem encodeAll_eq_flatMap (p : Platform) (functions : List Prototype) :
    encodeAll p functions = functions.flatMap (encode p) := by
  induction functions with
  | nil => rfl
  | cons f rest ih => rw [encodeAll, List.flatMap_cons, ih]

theorem encode_eq (p : Platform) (f : Prototype)
    : f.encode p
        =
      Bytes.ofString? f.name ++ (Bytes.ofSize f.lineDefined ++ (Bytes.ofSize f.lastLineDefined
        ++ f.numParams :: f.vararg.bits :: f.maxStackSize
        :: (Bytes.ofTable (Instruction.encode p) f.code
        ++ (Bytes.ofTable (Constant.encode p) f.constants
        ++ (Bytes.ofTable Upvalue.encode f.upvalues
        ++ (Bytes.ofTable (encode p) f.functions ++ f.debug.encode)))))) := by
  cases f
  rw [encode, encodeAll_eq_flatMap]
  simp [Bytes.ofTable]

theorem encode_ne_nil (p : Platform) (f : Prototype) : f.encode p ≠ [] := by
  rw [encode_eq]
  simp [Bytes.ofSize, Bytes.ofVarint_ne_nil]

theorem spells_encode {limits : Limits} {p : Platform} {levels : Nat} {f : Prototype}
    (hfits : f.Fits levels limits.maxCount) (h : ∀ g ∈ f.preorder, g.WellFormed p)
    (hexact : ∀ g ∈ f.preorder, ∀ k ∈ g.constants, k.Exact p)
    (hlength : (f.encode p).length < 0x8000000000000000) :
    (layout limits p levels).Spells (f.encode p) f := by
  -- The levels that are left go down with each function that is entered.
  induction levels generalizing f with
  | zero => exact absurd hfits (not_fits_zero _ f)
  | succ levels ih =>
    rw [fits_succ_iff] at hfits
    rw [forall_mem_preorder_iff] at h hexact
    obtain ⟨htables, hfits⟩ := hfits
    obtain ⟨hf, hfunctions⟩ := h
    obtain ⟨hconstantsExact, hexact⟩ := hexact
    simp only [tableLengths, List.forall_mem_append, List.forall_mem_cons] at htables
    obtain ⟨⟨hcode, hconstants, hupvalues, hcount, _⟩, hdebug⟩ := htables
    simp only [encode_eq p f, List.length_append, List.length_cons] at hlength ⊢
    apply Spells.bind (spells_ofString? hf.name (by omega))
    apply Spells.bind (spells_ofSize hf.lineDefined)
    apply Spells.bind (spells_ofSize hf.lastLineDefined)
    apply Spells.byte
    apply Spells.byte
    apply Spells.byte
    apply Spells.bind (spells_ofTable hcode (by omega) (Instruction.encode_ne_nil p)
      fun i hi _ => Instruction.spells_encode p (hf.code i hi))
    apply Spells.bind (spells_ofTable hconstants (by omega) (Constant.encode_ne_nil p)
      fun k hk => Constant.spells_encode (hf.constants k hk) (hconstantsExact k hk))
    apply Spells.bind (spells_ofTable hupvalues (by omega) Upvalue.encode_ne_nil
      fun u _ _ => Upvalue.spells_encode u)
    apply Spells.bind (spells_ofTable hcount (by omega) (encode_ne_nil p)
      fun g hg => ih (hfits g hg) (hfunctions g hg) (hexact g hg))
    apply Spells.map (DebugInfo.spells_encode hf.debug hdebug (by omega))
    rw [ofNat_toNatClampNeg hf.lineDefined, ofNat_toNatClampNeg hf.lastLineDefined,
      VarargFlags.ofByte_bits hf.vararg]
    cases f
    rfl

end Prototype

namespace Header

theorem sampleOrder?_encode (order : ByteOrder) (width : Width)
    : sampleOrder? (order.encode width.bytes (Int64.ofNat integerSampleValue).toUInt64.toNat)
        =
      some order := by
  cases order <;> cases width <;> decide

theorem spells_sizeLayout {valid : UInt8 → Option α} {F : α → Format β} {b : UInt8} {a : α}
    {bs : Bytes} {c : β} (h : valid b = some a) (rest : (F a).Spells bs c) :
    (sizeLayout valid >>= F).Spells (b :: bs) c := by
  rw [sizeLayout, bind_assoc]
  apply Spells.byte
  exact Spells.lift h rest

theorem spells_layout {limits : Limits} {p : Platform} {sample : Bytes} {x : Binary64}
    (hsample : (number p).Spells sample x) (hstrict : limits.strictPlatform → x = numberSampleValue)
    : (layout limits).Spells
        (signature ++ [0x54, 0x00] ++ conversionCheck
          ++ [4, p.integerSize.bytes.toUInt8, p.numberSize.bytes.toUInt8]
          ++ p.byteOrder.encode p.integerSize.bytes 0x5678 ++ sample)
        ⟨.lua54, 0, 4, p.integerSize, p.numberSize, p.byteOrder, 0x5678, x⟩ := by
  simp only [List.append_assoc, List.cons_append, List.nil_append]
  apply Spells.bind (.literal signature)
  apply Spells.byte
  apply Spells.require rfl
  apply Spells.byte
  apply Spells.require rfl
  apply Spells.bind (.literal conversionCheck)
  refine spells_sizeLayout rfl ?_
  apply spells_sizeLayout (Width.ofByte?_bytes p.integerSize)
  apply spells_sizeLayout (Width.ofByte?_bytes p.numberSize)
  apply Spells.bind (.bytes .group (ByteOrder.length_encode ..))
  apply Spells.lift (sampleOrder?_encode p.byteOrder p.integerSize)
  apply Spells.last hsample
  apply Spells.require hstrict
  exact .pure _

theorem spells_encode {limits : Limits} {h : Header} (hwf : h.WellFormed)
    (hsample : h.numberSample = numberSampleValue) :
    (layout limits).Spells h.encode h := by
  obtain ⟨version, format, instructionSize, integerSize, numberSize, byteOrder, integerSample,
    numberSample⟩ := h
  obtain ⟨rfl, rfl, rfl, rfl⟩ := hwf
  dsimp only at hsample
  subst hsample
  have hnumber := spells_number (p := ⟨byteOrder, integerSize, numberSize⟩) (x := numberSampleValue)
    (fun _ => ⟨0x43b94000, by decide⟩) fun _ => by decide
  exact spells_layout hnumber fun _ => rfl

end Header

namespace Chunk

/--
A chunk that was written is read back, whatever follows it. Lengths are stored in 63 bits, so a chunk of
2^63 bytes or more is not considered.
-/
theorem decode_encode_append (limits : Limits) (header : Header) (main : Prototype) (more : Bytes)
    (hheader : header.WellFormed) (hsample : header.numberSample = Header.numberSampleValue)
    (hmain : ∀ f ∈ main.preorder, f.WellFormed header.platform)
    (hexact : ∀ f ∈ main.preorder, ∀ k ∈ f.constants, k.Exact header.platform)
    (hupvalues : main.upvalues.length ≤ 255) (hfits : main.Fits limits.maxDepth limits.maxCount)
    (hlength : (encode header main).length < 0x8000000000000000)
    : ∃ chunk,
        decode limits (encode header main ++ more) = .ok chunk
          ∧ chunk.header = header
          ∧ chunk.upvalueCount.toNat = main.upvalues.length
          ∧ chunk.main = main
          ∧ chunk.trailingBytes = more.length := by
  have hcount : main.upvalues.length.toUInt8.toNat = main.upvalues.length := by
    simp
    omega
  have hspells : (layout limits).Spells (encode header main)
      ⟨header, main.upvalues.length.toUInt8, main⟩ := by
    rw [encode, List.length_append, List.length_cons] at hlength
    rw [encode]
    apply Spells.bind (Header.spells_encode hheader hsample)
    apply Spells.byte
    apply Spells.last (Prototype.spells_encode hfits hmain hexact (by omega))
    apply Spells.require hcount
    exact .pure _
  obtain ⟨fields, hlayout, hjoin⟩ := hspells
  refine ⟨⟨header, main.upvalues.length.toUInt8, main, more.length⟩, ?_, rfl, hcount, rfl, rfl⟩
  rw [decode_eq_ok_iff]
  exact ⟨fields, more, hlayout, by rw [hjoin], rfl⟩

theorem decode_encode_append_sampleMain
    : ∃ chunk,
        decode { maxDepth := 2, maxCount := 3 } (encode sampleHeader sampleMain ++ [1, 2, 3])
            = .ok chunk
          ∧ chunk.header = sampleHeader
          ∧ chunk.upvalueCount.toNat = 1
          ∧ chunk.main = sampleMain
          ∧ chunk.trailingBytes = 3 := by
  obtain ⟨fields, rest, hlayout, _⟩ := decode_eq_ok_iff.mp decode_sampleInput
  obtain ⟨hheader, _, hfits, hmain⟩ := (layout_ensures _).of_fields hlayout
  have hexact : ∀ f ∈ sampleMain.preorder, ∀ k ∈ f.constants, k.Exact sampleHeader.platform := by
    have hpreorder : sampleMain.preorder = [sampleMain, sampleInner] := rfl
    have hfloat : ¬(Binary64.ofSingle 0xbf800000).isNaN := by decide
    rw [hpreorder]
    simp [sampleMain, sampleInner, Constant.Exact, hfloat]
  exact decode_encode_append { maxDepth := 2, maxCount := 3 } sampleHeader sampleMain [1, 2, 3]
    hheader rfl hmain hexact (by decide) hfits (by decide +kernel)

end Chunk

end LuaBytecode
