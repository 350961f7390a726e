import Mathlib
import LuaBytecode.Proofs.Layout
import LuaBytecode.Proofs.Utf8
import LuaBytecode.Proofs.Word
import LuaBytecode.Proofs.WellFormed

/-!
What is accepted is well formed. `Format.Ensures` says that all values of a format have a property, and
follows the format as a postcondition follows a program.
-/

namespace LuaBytecode

namespace Format

structure Ensures (F : Format α) (P : α → Prop) : Prop where
  of_fields : ∀ {fields a}, F fields a → P a

namespace Ensures

theorem pure {P : α → Prop} {a : α} (h : P a) : (pure a : Format α).Ensures P := by
  constructor
  rintro _ _ ⟨_, rfl⟩
  exact h

theorem bind {F : Format α} {G : α → Format β} {P : α → Prop} {Q : β → Prop} (first : F.Ensures P)
    (rest : ∀ a, P a → (G a).Ensures Q) : (F >>= G).Ensures Q := by
  constructor
  rintro _ b ⟨fs, gs, a, _, ha, hb⟩
  exact (rest a (first.of_fields ha)).of_fields hb

theorem skip {F : Format α} {G : α → Format β} {Q : β → Prop} (rest : ∀ a, (G a).Ensures Q) :
    (F >>= G).Ensures Q := by
  constructor
  rintro _ b ⟨_, gs, a, _, _, hb⟩
  exact (rest a).of_fields hb

theorem map {F : Format α} {P : α → Prop} {Q : β → Prop} {g : α → β} (h : F.Ensures P)
    (hg : ∀ a, P a → Q (g a)) : (do return g (← F)).Ensures Q := by
  apply bind h
  intro a ha
  exact pure (hg a ha)

theorem nothing {P : α → Prop} : (Format.nothing : Format α).Ensures P := by
  constructor
  intro _ _ h
  exact h.elim

theorem require {P : Prop} {F : Unit → Format α} {Q : α → Prop} (h : P → (F ()).Ensures Q) :
    (Format.require P >>= F).Ensures Q := by
  constructor
  rintro _ a ⟨_, gs, _, _, ⟨_, hP⟩, ha⟩
  exact (h hP).of_fields ha

theorem lift {x : Option α} {P : α → Prop} (h : ∀ a, x = some a → P a) :
    (Format.lift x).Ensures P := by
  constructor
  rintro _ a ⟨_, ha⟩
  exact h a ha

theorem replicate {F : Format α} {P : α → Prop} (h : F.Ensures P) (n : Nat) :
    (Format.replicate F n).Ensures fun as => as.length = n ∧ ∀ a ∈ as, P a := by
  induction n with
  | zero => exact pure (by simp)
  | succ n ih =>
    apply bind h
    intro a ha
    apply map ih
    rintro as ⟨hlength, has⟩
    rw [List.length_cons, hlength, List.forall_mem_cons]
    exact ⟨rfl, ha, has⟩

end Ensures

theorem size_ensures : size.Ensures (· < 0x8000000000000000) := by
  apply Ensures.skip
  intro x
  apply Ensures.require
  intro hx
  exact .pure hx

theorem string?_ensures : string?.Ensures fun s => ∀ t ∈ s, Utf8.IsText t := by
  apply Ensures.skip
  intro s
  apply Ensures.pure
  intro t ht
  obtain ⟨raw, _, rfl⟩ := Option.map_eq_some_iff.mp ht
  exact Utf8.isText_repair raw

theorem integer_ensures (p : Platform) : (integer p).Ensures p.integerSize.Holds := by
  apply Ensures.skip
  intro n
  exact .pure (Width.holds_ofInt_bmod p.integerSize n)

theorem number_ensures (p : Platform)
    : (number p).Ensures fun x => p.numberSize = .four → ∃ bits, x = .ofSingle bits := by
  apply Ensures.skip
  intro n
  split
  . exact .pure fun _ => ⟨_, rfl⟩
  . next hsize =>
    apply Ensures.pure
    intro h
    rw [hsize] at h
    contradiction

theorem table_ensures (limits : Limits) {F : Format α} {P : α → Prop} (h : F.Ensures P)
    : (table limits F).Ensures fun as => as.length ≤ limits.maxCount ∧ ∀ a ∈ as, P a := by
  apply Ensures.skip
  intro n
  apply Ensures.require
  intro hn
  constructor
  intro fields as has
  obtain ⟨hlength, hall⟩ := (Ensures.replicate h n).of_fields has
  exact ⟨by omega, hall⟩

end Format

open Format

theorem ofNat_nonneg {n : Nat} (h : n < 0x8000000000000000) : 0 ≤ Int64.ofNat n := by
  rw [Int64.le_iff_toInt_le, Int64.toInt_ofNat_of_lt h]
  simp

theorem getD_isText {s : Option Bytes} (h : ∀ t ∈ s, Utf8.IsText t) :
    Utf8.IsText (s.getD []) := by
  cases s with
  | none => exact Utf8.isText_nil
  | some t => exact h t rfl

theorem Constant.layout_ensures (p : Platform) : (layout p).Ensures (WellFormed p) := by
  have hstring : ∀ long, (stringLayout long).Ensures (WellFormed p) := by
    intro long
    apply Ensures.bind string?_ensures
    intro s hs
    apply Ensures.bind (P := fun value => Utf8.IsText value) (.lift hs)
    intro value hvalue
    exact .pure hvalue
  apply Ensures.skip
  intro tag
  split
  . exact .pure trivial
  . exact .pure trivial
  . exact .map (integer_ensures p) fun n hn => hn
  . exact hstring false
  . exact .pure trivial
  . exact .map (number_ensures p) fun x hx => hx
  . exact hstring true
  . exact .nothing

theorem VariableKind.code_le (kind : VariableKind) : kind.code ≤ 3 := by
  cases kind <;> decide

theorem Instruction.layout_ensures (p : Platform) : (layout p).Ensures WellFormed := by
  apply Ensures.skip
  intro w
  apply Ensures.lift
  intro i hi
  cases hword : ofWord w with
  | ok j =>
    rw [hword] at hi
    cases hi
    exact wellFormed_of_ofWord hword
  | error e =>
    rw [hword] at hi
    cases hi

theorem Checkpoint.layout_ensures : layout.Ensures WellFormed := by
  apply Ensures.bind size_ensures
  intro pc hpc
  apply Ensures.map size_ensures
  intro line hline
  exact ⟨ofNat_nonneg hpc, ofNat_nonneg hline⟩

theorem LocalVariable.layout_ensures : layout.Ensures WellFormed := by
  apply Ensures.bind string?_ensures
  intro name hname
  apply Ensures.bind size_ensures
  intro startPC hstart
  apply Ensures.map size_ensures
  intro endPC hend
  exact ⟨getD_isText hname, ofNat_nonneg hstart, ofNat_nonneg hend⟩

theorem DebugInfo.layout_ensures (limits : Limits) (codeSize upvalueCount : Nat)
    : (layout limits codeSize upvalueCount).Ensures fun info =>
        info.WellFormed codeSize upvalueCount ∧ ∀ n ∈ info.tableLengths, n ≤ limits.maxCount := by
  have hdelta : (do return (← Format.byte).toInt8).Ensures fun _ => True := ⟨fun _ => trivial⟩
  have hname : (do return (← Format.string?).getD []).Ensures fun name => Utf8.IsText name :=
    .map string?_ensures fun _ => getD_isText
  apply Ensures.bind (table_ensures limits hdelta)
  intro lineDeltas hdeltas
  apply Ensures.require
  intro hlines
  apply Ensures.bind (table_ensures limits Checkpoint.layout_ensures)
  intro checkpoints hcheckpoints
  apply Ensures.require
  intro hcheck
  apply Ensures.bind (table_ensures limits LocalVariable.layout_ensures)
  intro locals hlocals
  apply Ensures.bind (table_ensures limits hname)
  intro upvalueNames hnames
  apply Ensures.require
  intro hcount
  apply Ensures.pure
  constructor
  . exact {
      lineDeltas_length := hlines
      checkpointPCs := LineTable.check_eq_ok_iff.mp hcheck
      checkpoints := hcheckpoints.2
      locals := hlocals.2
      upvalueNames_length := hcount
      upvalueNames := hnames.2 }
  . simp [tableLengths, hdeltas, hcheckpoints, hlocals, hnames]

theorem VarargFlags.ofByte_le (b : UInt8) : (ofByte b).bits ≤ 7 := by
  rw [ofByte, UInt8.le_iff_toNat_le, UInt8.toNat_and]
  exact Nat.and_le_right

theorem Prototype.layout_ensures (limits : Limits) (p : Platform) (levels : Nat)
    : (layout limits p levels).Ensures fun f =>
        f.Fits levels limits.maxCount ∧ ∀ g ∈ f.preorder, g.WellFormed p := by
  induction levels with
  | zero => exact .nothing
  | succ levels ih =>
    apply Ensures.bind string?_ensures
    intro name hname
    apply Ensures.bind size_ensures
    intro lineDefined hlineDefined
    apply Ensures.bind size_ensures
    intro lastLineDefined hlastLineDefined
    apply Ensures.skip
    intro numParams
    apply Ensures.skip
    intro vararg
    apply Ensures.skip
    intro maxStackSize
    apply Ensures.bind (table_ensures limits (Instruction.layout_ensures p))
    intro code hcode
    apply Ensures.bind (table_ensures limits (Constant.layout_ensures p))
    intro constants hconstants
    apply Ensures.bind (table_ensures limits (P := fun _ => True) ⟨fun _ => trivial⟩)
    intro upvalues hupvalues
    apply Ensures.bind (table_ensures limits ih)
    intro functions hfunctions
    apply Ensures.map (DebugInfo.layout_ensures limits code.length upvalues.length)
    intro debug hdebug
    rw [fits_succ_iff, forall_mem_preorder_iff]
    refine ⟨⟨?_, fun g hg => (hfunctions.2 g hg).1⟩, ?_, fun g hg => (hfunctions.2 g hg).2⟩
    . simp only [tableLengths, List.forall_mem_append]
      exact ⟨by simp [hcode, hconstants, hupvalues, hfunctions], hdebug.2⟩
    . exact {
        name := hname
        lineDefined := ofNat_nonneg hlineDefined
        lastLineDefined := ofNat_nonneg hlastLineDefined
        vararg := VarargFlags.ofByte_le vararg
        code := hcode.2
        constants := hconstants.2
        upvalues := fun u _ => u.kind.code_le
        debug := hdebug.1 }

theorem Header.layout_ensures (limits : Limits) : (layout limits).Ensures WellFormed := by
  apply Ensures.skip
  intro _
  apply Ensures.skip
  intro version
  apply Ensures.require
  intro hversion
  apply Ensures.skip
  intro format
  apply Ensures.require
  intro hformat
  apply Ensures.skip
  intro _
  have hsize : (sizeLayout fun n => if n = instructionBytes then some n else none).Ensures
      (· = instructionBytes) := by
    apply Ensures.skip
    intro b
    apply Ensures.lift
    intro n hn
    simp at hn
    simp [← hn]
  apply Ensures.bind hsize
  intro instructionSize hinstructionSize
  apply Ensures.skip
  intro integerSize
  apply Ensures.skip
  intro numberSize
  apply Ensures.skip
  intro sample
  apply Ensures.skip
  intro byteOrder
  apply Ensures.skip
  intro numberSample
  apply Ensures.require
  intro _
  apply Ensures.pure
  exact {
    version := hversion
    format := hformat
    instructionSize := hinstructionSize
    integerSample := rfl }

theorem Width.storedAt_of_ofByte? {input : Bytes} {index : Nat} {b : UInt8} {width : Width}
    (hget : input[index]? = some b) (h : ofByte? b = some width) : width.StoredAt input index := by
  refine ⟨b, ?_⟩
  unfold ofByte? at h
  split at h
  . cases h
    exact ⟨by decide, hget, rfl⟩
  . cases h
    exact ⟨by decide, hget, rfl⟩
  . cases h

theorem Header.storedAt_of_layout {limits : Limits} {fields : List Field} {h : Header}
    (hlayout : layout limits fields h) (more : Bytes)
    : h.integerSize.StoredAt (Field.join fields ++ more) 13
        ∧ h.numberSize.StoredAt (Field.join fields ++ more) 14 := by
  -- Fifteen bytes come before the samples: two literals, the version, the format and three sizes.
  obtain ⟨_, _, _, rfl, rfl, _, _, version, rfl, rfl, _, _, _, rfl, ⟨rfl, _⟩, hlayout⟩ := hlayout
  obtain ⟨_, _, format, rfl, rfl, _, _, _, rfl, ⟨rfl, _⟩, _, _, _, rfl, rfl, hlayout⟩ := hlayout
  obtain ⟨_, _, _, rfl, ⟨_, _, instructionSize, rfl, rfl, ⟨rfl, _⟩⟩, hlayout⟩ := hlayout
  obtain ⟨_, _, integerWidth, rfl, ⟨_, _, integerSize, rfl, rfl, ⟨rfl, hinteger⟩⟩, hlayout⟩ := hlayout
  obtain ⟨_, samples, numberWidth, rfl, ⟨_, _, numberSize, rfl, rfl, ⟨rfl, hnumber⟩⟩, hlayout⟩ := hlayout
  have hwidths : h.integerSize = integerWidth ∧ h.numberSize = numberWidth := by
    refine Ensures.of_fields (P := fun h => h.integerSize = _ ∧ h.numberSize = _) ?_ hlayout
    apply Ensures.skip
    intro sample
    apply Ensures.skip
    intro byteOrder
    apply Ensures.skip
    intro numberSample
    apply Ensures.require
    intro _
    exact .pure ⟨rfl, rfl⟩
  rw [hwidths.1, hwidths.2]
  exact ⟨Width.storedAt_of_ofByte? rfl hinteger, Width.storedAt_of_ofByte? rfl hnumber⟩

namespace Chunk

theorem layout_ensures (limits : Limits)
    : (layout limits).Ensures fun contents =>
        contents.header.WellFormed
          ∧ contents.upvalueCount.toNat = contents.main.upvalues.length
          ∧ contents.main.Fits limits.maxDepth limits.maxCount
          ∧ ∀ f ∈ contents.main.preorder, f.WellFormed contents.header.platform := by
  apply Ensures.bind (Header.layout_ensures limits)
  intro header hheader
  apply Ensures.skip
  intro upvalueCount
  apply Ensures.bind (Prototype.layout_ensures limits header.platform limits.maxDepth)
  rintro main ⟨hfits, hmain⟩
  apply Ensures.require
  intro hupvalues
  exact .pure ⟨hheader, hupvalues, hfits, hmain⟩

theorem storedAt_of_layout {limits : Limits} {fields : List Field} {contents : Contents}
    (hlayout : layout limits fields contents) (more : Bytes)
    : contents.header.integerSize.StoredAt (Field.join fields ++ more) 13
        ∧ contents.header.numberSize.StoredAt (Field.join fields ++ more) 14 := by
  obtain ⟨_, _, header, rfl, hheader, hrest⟩ := hlayout
  have hsame : contents.header = header := by
    refine Ensures.of_fields (P := fun contents => contents.header = header) ?_ hrest
    apply Ensures.skip
    intro upvalueCount
    apply Ensures.skip
    intro main
    apply Ensures.require
    intro _
    exact .pure rfl
  rw [hsame, Field.join_append, List.append_assoc]
  exact Header.storedAt_of_layout hheader _

/--
A chunk that is accepted is well formed, at every level of its functions, and the sizes in its header are
those that the input gives.
-/
theorem wellFormed_of_decode (limits : Limits) (input : Bytes) (chunk : Chunk)
    (h : decode limits input = .ok chunk)
    : chunk.header.WellFormed
        ∧ chunk.header.integerSize.StoredAt input 13
        ∧ chunk.header.numberSize.StoredAt input 14
        ∧ chunk.upvalueCount.toNat = chunk.main.upvalues.length
        ∧ chunk.trailingBytes ≤ input.length
        ∧ ∀ f ∈ chunk.main.preorder, f.WellFormed chunk.header.platform := by
  obtain ⟨fields, rest, hlayout, rfl, htrailing⟩ := decode_eq_ok_iff.mp h
  obtain ⟨hheader, hupvalues, _, hmain⟩ := (layout_ensures limits).of_fields hlayout
  obtain ⟨hintegerSize, hnumberSize⟩ := storedAt_of_layout hlayout rest
  refine ⟨hheader, hintegerSize, hnumberSize, hupvalues, ?_, hmain⟩
  rw [htrailing, List.length_append]
  omega

theorem wellFormed_of_decode_sampleInput
    : decode { maxDepth := 2, maxCount := 3 } sampleInput = .ok ⟨sampleHeader, 1, sampleMain, 0⟩
        ∧ sampleHeader.WellFormed
        ∧ Width.four.StoredAt sampleInput 13
        ∧ Width.four.StoredAt sampleInput 14
        ∧ (1 : UInt8).toNat = sampleMain.upvalues.length
        ∧ 0 ≤ sampleInput.length
        ∧ ∀ f ∈ sampleMain.preorder, f.WellFormed sampleHeader.platform :=
  ⟨decode_sampleInput, wellFormed_of_decode _ _ _ decode_sampleInput⟩

end Chunk

end LuaBytecode
