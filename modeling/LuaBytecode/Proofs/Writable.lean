import Mathlib
import LuaBytecode.Chunk.Json
import LuaBytecode.Proofs.Limits
import LuaBytecode.Proofs.Paths
import LuaBytecode.Proofs.RoundTrip

/-!
Decoded chunks have a JSON form. A writer of JSON can stumble over strings that are no text and over
numbers that are not finite; both are kept out of a chunk where it is read, or are shown as other texts.
Opcodes and kinds have types of their own, so that there is a name for each of them.
-/

namespace LuaBytecode

namespace Json

inductive Faulty : Json → Prop
  | string {value : Bytes} (h : ¬Utf8.IsText value) : Faulty (.string value)
  | float {value : Binary64} (h : value.isFinite = false) : Faulty (.float value)
  | element {elements : List Json} {v : Json} (hmem : v ∈ elements) (h : Faulty v) :
    Faulty (.array elements)
  | member {members : List (String × Json)} {name : String} {v : Json} (hmem : (name, v) ∈ members)
    (h : Faulty v) : Faulty (.object members)

@[simp]
theorem not_faulty_null : ¬Faulty .null := by
  rintro ⟨⟩

@[simp]
theorem not_faulty_bool (value : Bool) : ¬Faulty (.bool value) := by
  rintro ⟨⟩

@[simp]
theorem not_faulty_int (value : Int) : ¬Faulty (.int value) := by
  rintro ⟨⟩

@[simp]
theorem faulty_float_iff {value : Binary64} : Faulty (.float value) ↔ value.isFinite = false := by
  constructor
  . rintro ⟨h⟩
    assumption
  . exact .float

@[simp]
theorem faulty_string_iff {value : Bytes} : Faulty (.string value) ↔ ¬Utf8.IsText value := by
  constructor
  . rintro ⟨h⟩
    assumption
  . exact .string

@[simp]
theorem faulty_array_iff {elements : List Json} :
    Faulty (.array elements) ↔ ∃ v ∈ elements, v.Faulty := by
  constructor
  . intro h
    cases h with
    | element hmem h => exact ⟨_, hmem, h⟩
  . rintro ⟨v, hmem, h⟩
    exact .element hmem h

@[simp]
theorem faulty_object_iff {members : List (String × Json)} :
    Faulty (.object members) ↔ ∃ m ∈ members, m.2.Faulty := by
  constructor
  . intro h
    cases h with
    | member hmem h => exact ⟨_, hmem, h⟩
  . rintro ⟨⟨name, v⟩, hmem, h⟩
    exact .member hmem h

@[simp]
theorem not_faulty_text (value : String) : ¬(text value).Faulty := by
  simp only [text, faulty_string_iff, not_not]
  exact ⟨value, rfl⟩

@[simp]
theorem faulty_list_iff {f : α → Json} {values : List α} :
    (list f values).Faulty ↔ ∃ a ∈ values, (f a).Faulty := by
  simp [list]

mutual

theorem isWritable_iff {v : Json} : v.isWritable = true ↔ ¬v.Faulty := by
  cases v with
  | array elements => rw [isWritable, allWritable_iff, faulty_array_iff]
  | object members => rw [isWritable, membersWritable_iff, faulty_object_iff]
  | string value => simp [isWritable, Utf8.isValid_iff_isText]
  | _ => simp [isWritable]

theorem allWritable_iff {elements : List Json} :
    allWritable elements = true ↔ ¬∃ v ∈ elements, v.Faulty := by
  cases elements with
  | nil => simp [allWritable]
  | cons v rest =>
    rw [allWritable, Bool.and_eq_true, isWritable_iff, allWritable_iff]
    simp

theorem membersWritable_iff {members : List (String × Json)} :
    membersWritable members = true ↔ ¬∃ m ∈ members, m.2.Faulty := by
  cases members with
  | nil => simp [membersWritable]
  | cons m rest =>
    rw [membersWritable, Bool.and_eq_true, isWritable_iff, membersWritable_iff]
    simp

end

@[simp]
theorem nesting_text (style : Style) (value : String) : (text value).nesting style = 0 := by
  rw [text, nesting] <;> simp

theorem elementNesting_map_le {style : Style} {f : α → Json} {values : List α} {n : Nat}
    (h : ∀ a ∈ values, (f a).nesting style ≤ n) : elementNesting style (values.map f) ≤ n := by
  induction values with
  | nil => simp [elementNesting]
  | cons a values ih =>
    rw [List.forall_mem_cons] at h
    rw [List.map_cons, elementNesting]
    exact Nat.max_le.mpr ⟨h.1, ih h.2⟩

theorem nesting_list_le {style : Style} {f : α → Json} {values : List α} {n : Nat}
    (h : ∀ a ∈ values, (f a).nesting style ≤ n) : (list f values).nesting style ≤ n + 1 := by
  have hall := elementNesting_map_le h
  cases values with
  | nil =>
    rw [list, List.map_nil, nesting]
    split <;> omega
  | cons a values =>
    rw [List.map_cons, elementNesting] at hall
    rw [list, List.map_cons, nesting]
    omega

end Json

open Json

theorem Instruction.not_faulty_toJson (i : Instruction) : ¬i.toJson.Faulty := by
  obtain ⟨op, operands⟩ := i
  cases operands <;> simp [toJson, Operands.members]

theorem Instruction.nesting_toJson_le (i : Instruction) (style : Style) : i.toJson.nesting style ≤ 1 := by
  obtain ⟨op, operands⟩ := i
  cases operands <;> simp [toJson, Operands.members, nesting, memberNesting]

theorem Constant.not_faulty_toJson {p : Platform} {c : Constant} (h : c.WellFormed p) :
    ¬c.toJson.Faulty := by
  cases c with
  | float value => cases hfinite : value.isFinite <;> simp [toJson, valueMembers, hfinite]
  | string value long =>
    have htext : Utf8.IsText value := h
    cases long <;> simp [toJson, valueMembers, htext]
  | _ => simp [toJson, valueMembers]

theorem Constant.nesting_toJson_le (c : Constant) (style : Style) : c.toJson.nesting style ≤ 1 := by
  cases c with
  | float value =>
    cases hfinite : value.isFinite
      <;> simp [toJson, valueMembers, hfinite, nesting, memberNesting]
  | string value long => cases long <;> simp [toJson, valueMembers, nesting, memberNesting]
  | _ => simp [toJson, valueMembers, nesting, memberNesting]

theorem DebugInfo.not_faulty_toJson {codeSize upvalueCount : Nat} {info : DebugInfo}
    (h : info.WellFormed codeSize upvalueCount) : ¬info.toJson.Faulty := by
  have hlocals : ∀ v ∈ info.locals, ¬v.toJson.Faulty := by
    intro v hv
    simp [LocalVariable.toJson, (h.locals v hv).name]
  simpa [toJson, Checkpoint.toJson] using ⟨hlocals, h.upvalueNames⟩

theorem DebugInfo.nesting_toJson_le (info : DebugInfo) (style : Style) :
    info.toJson.nesting style ≤ 3 := by
  have hdeltas : (Json.list (fun delta => .int delta.toInt) info.lineDeltas).nesting style ≤ 1 :=
    nesting_list_le fun _ _ => by simp [nesting]
  have hcheckpoints : (Json.list Checkpoint.toJson info.checkpoints).nesting style ≤ 2 :=
    nesting_list_le fun _ _ => by simp [Checkpoint.toJson, nesting, memberNesting]
  have hlocals : (Json.list LocalVariable.toJson info.locals).nesting style ≤ 2 :=
    nesting_list_le fun _ _ => by simp [LocalVariable.toJson, nesting, memberNesting]
  have hnames : (Json.list .string info.upvalueNames).nesting style ≤ 1 :=
    nesting_list_le fun _ _ => by simp [nesting]
  simp only [toJson, nesting, memberNesting]
  omega

namespace Prototype

theorem allToJson_eq_map (functions : List Prototype) : allToJson functions = functions.map toJson := by
  induction functions with
  | nil => rfl
  | cons f rest ih => rw [allToJson, List.map_cons, ih]

theorem toJson_eq (f : Prototype)
    : f.toJson
        =
      .object [
        ("source", match f.name with | some name => .string name | none => .null),
        ("lineDefined", .int f.lineDefined.toInt),
        ("lastLineDefined", .int f.lastLineDefined.toInt),
        ("numParams", .int f.numParams.toNat),
        ("vararg", .int f.vararg.bits.toNat),
        ("maxStackSize", .int f.maxStackSize.toNat),
        ("code", .list Instruction.toJson f.code),
        ("constants", .list Constant.toJson f.constants),
        ("upvalues", .list Upvalue.toJson f.upvalues),
        ("functions", .list toJson f.functions),
        ("debug", f.debug.toJson)] := by
  cases f
  conv_lhs => rw [toJson.eq_def]
  dsimp only
  rw [allToJson_eq_map]
  rfl

theorem not_faulty_toJson {p : Platform} {f : Prototype} (h : ∀ g ∈ f.preorder, g.WellFormed p) :
    ¬f.toJson.Faulty := by
  induction f using inside_induction with
  | step f ih =>
    rw [forall_mem_preorder_iff] at h
    obtain ⟨hself, hinside⟩ := h
    have hname : ¬(match f.name with | some name => Json.string name | none => Json.null).Faulty := by
      cases hname : f.name with
      | none => simp
      | some name => simp [hself.name name hname]
    have hcode : ∀ i ∈ f.code, ¬i.toJson.Faulty := by
      intro i _
      exact i.not_faulty_toJson
    have hconstants : ∀ c ∈ f.constants, ¬c.toJson.Faulty := by
      intro c hc
      exact Constant.not_faulty_toJson (hself.constants c hc)
    have hupvalues : ∀ u ∈ f.upvalues, ¬u.toJson.Faulty := by
      intro u _
      simp [Upvalue.toJson]
    have hfunctions : ∀ g ∈ f.functions, ¬g.toJson.Faulty := by
      intro g hg
      exact ih g hg (hinside g hg)
    have hdebug : ¬f.debug.toJson.Faulty := DebugInfo.not_faulty_toJson hself.debug
    rw [toJson_eq]
    simpa [hname, hdebug] using ⟨hcode, hconstants, hupvalues, hfunctions⟩

theorem nesting_toJson_le (f : Prototype) (style : Style) : f.toJson.nesting style ≤ 2 * f.depth + 2 := by
  induction f using inside_induction with
  | step f ih =>
    have hname : (match f.name with | some name => Json.string name | none => Json.null).nesting style
        = 0 := by
      cases f.name <;> simp [nesting]
    have hcode : (Json.list Instruction.toJson f.code).nesting style ≤ 2 :=
      nesting_list_le fun i _ => i.nesting_toJson_le style
    have hconstants : (Json.list Constant.toJson f.constants).nesting style ≤ 2 :=
      nesting_list_le fun c _ => c.nesting_toJson_le style
    have hupvalues : (Json.list Upvalue.toJson f.upvalues).nesting style ≤ 2 :=
      nesting_list_le fun u _ => by simp [Upvalue.toJson, nesting, memberNesting]
    have hdebug := f.debug.nesting_toJson_le style
    obtain ⟨levels, hlevels⟩ := Nat.exists_eq_add_one.mpr f.depth_pos
    -- A level of functions adds an object and an array.
    have hfunctions : (Json.list toJson f.functions).nesting style ≤ 2 * levels + 3 := by
      apply nesting_list_le
      intro g hg
      have := ih g hg
      have := depth_le_succ_iff.mp hlevels.le g hg
      omega
    rw [toJson_eq]
    simp only [nesting, memberNesting, hname]
    omega

end Prototype

theorem Binary64.isFinite_of_value {x : Binary64} {negative : Bool} {mantissa : Nat} {exponent : Int}
    (h : x.value = .finite negative mantissa exponent) : x.isFinite = true := by
  unfold value at h
  split at h
  . split at h <;> cases h
  . next hfield => simp [isFinite, hfield]

theorem Header.not_faulty_toJson (h : Header) : ¬h.toJson.Faulty := by
  have hsample : ¬h.numberSample.sampleJson.Faulty := by
    unfold Binary64.sampleJson
    split
    . simp
    . simp
    . simp
    . next hvalue => simp [Binary64.isFinite_of_value hvalue]
  simp [toJson, hsample]

theorem Header.nesting_toJson (h : Header) (style : Style) : h.toJson.nesting style = 1 := by
  have hsample : h.numberSample.sampleJson.nesting style = 0 := by
    unfold Binary64.sampleJson
    split <;> simp [nesting]
  simp [toJson, nesting, memberNesting, hsample]

namespace Chunk

theorem not_faulty_toJson_of_decode {limits : Limits} {input : Bytes} {chunk : Chunk}
    (h : decode limits input = .ok chunk) : ¬chunk.toJson.Faulty := by
  obtain ⟨fields, rest, hlayout, rfl, _⟩ := decode_eq_ok_iff.mp h
  obtain ⟨_, _, _, hmain⟩ := (layout_ensures limits).of_fields hlayout
  have hfunctions : ¬chunk.main.toJson.Faulty := Prototype.not_faulty_toJson hmain
  simp [toJson, Header.not_faulty_toJson, hfunctions]

theorem nesting_toJson_le (chunk : Chunk) (style : Style) :
    chunk.toJson.nesting style ≤ 2 * chunk.main.depth + 3 := by
  have hheader := chunk.header.nesting_toJson style
  have hmain := chunk.main.nesting_toJson_le style
  simp only [toJson, nesting, memberNesting]
  omega

theorem render?_eq_none_iff_of_decode {limits : Limits} {input : Bytes} {chunk : Chunk}
    (h : decode limits input = .ok chunk) (style : Style) :
    chunk.toJson.render? style = none ↔ maxNesting < chunk.toJson.nesting style := by
  have hwritable := isWritable_iff.mpr (not_faulty_toJson_of_decode h)
  simp [render?, hasText, hwritable]

theorem exists_names_of_decode {limits : Limits} {input : Bytes} {chunk : Chunk} {f : Prototype}
    (h : decode limits input = .ok chunk) (hf : f ∈ chunk.main.preorder)
    : (∀ i ∈ f.code, Opcode.ofCode? i.op.code = some i.op ∧ i.operands.shape = i.op.shape)
        ∧ (∀ u ∈ f.upvalues, VariableKind.ofCode? u.kind.code = some u.kind)
        ∧ ∀ c ∈ f.constants, ∃ code, ConstantKind.ofCode? code = some c.kind := by
  obtain ⟨fields, rest, hlayout, _, _⟩ := decode_eq_ok_iff.mp h
  obtain ⟨_, _, _, hmain⟩ := (layout_ensures limits).of_fields hlayout
  refine ⟨?_, ?_, ?_⟩
  . intro i hi
    exact ⟨Opcode.ofCode?_code i.op, ((hmain f hf).code i hi).1⟩
  . intro u _
    exact VariableKind.ofCode?_code u.kind
  . intro c _
    cases c.kind with
    | nil => exact ⟨0, rfl⟩
    | boolean => exact ⟨1, rfl⟩
    | integer => exact ⟨2, rfl⟩
    | float => exact ⟨3, rfl⟩
    | string => exact ⟨4, rfl⟩

/--
A decoded chunk is written by every writer that refuses nothing but strings that are no text and numbers
that are not finite. A writer that bounds how deep values are nested refuses no chunk whose functions are
nested less than half as deep.
-/
theorem written_of_decode (limits : Limits) (input : Bytes) (chunk : Chunk) (write? : Json → Option Bytes)
    (hwrite : ∀ v, write? v = none → v.Faulty) (h : decode limits input = .ok chunk)
    : (∃ text, write? chunk.toJson = some text)
        ∧ (∀ f ∈ chunk.main.preorder,
            (∀ i ∈ f.code, Opcode.ofCode? i.op.code = some i.op ∧ i.operands.shape = i.op.shape)
              ∧ (∀ u ∈ f.upvalues, VariableKind.ofCode? u.kind.code = some u.kind)
              ∧ ∀ c ∈ f.constants, ∃ code, ConstantKind.ofCode? code = some c.kind)
        ∧ (∀ style, chunk.toJson.render? style = none ↔ maxNesting < chunk.toJson.nesting style)
        ∧ (2 * limits.maxDepth + 3 ≤ maxNesting
            → ∀ style, ∃ text, chunk.toJson.render? style = some text) := by
  refine ⟨?_, fun f => exists_names_of_decode h, render?_eq_none_iff_of_decode h, ?_⟩
  . cases hresult : write? chunk.toJson with
    | some text => exact ⟨text, rfl⟩
    | none => exact absurd (hwrite _ hresult) (not_faulty_toJson_of_decode h)
  . intro hlevels style
    have hdepth := (fits_of_decode h).depth
    have hnesting := chunk.nesting_toJson_le style
    apply Option.ne_none_iff_exists'.mp
    rw [Ne, render?_eq_none_iff_of_decode h]
    omega

/--
A chunk with an infinite sample, a number that is none, and strings with stray bytes.
-/
def strayInput : Bytes :=
  Header.signature ++ [0x54, 0x00] ++ Header.conversionCheck ++ [4, 4, 4]
    ++ [0x00, 0x00, 0x56, 0x78] ++ [0xff, 0x80, 0x00, 0x00] ++ [0]
    ++ [0x83, 0x40, 0xff, 0x80, 0x80, 0, 0, 2] ++ [0x80]
    ++ [0x82, 0x13, 0x7f, 0xc0, 0x00, 0x00, 0x14, 0x83, 0xc3, 0x28] ++ [0x80, 0x80]
    ++ [0x80, 0x80, 0x80, 0x80]

def strayChunk : Chunk where
  header := { sampleHeader with numberSample := .ofSingle 0xff800000 }
  upvalueCount := 0
  main := {
    name := some [0x40, 0xef, 0xbf, 0xbd]
    maxStackSize := 2
    constants := [.float (.ofSingle 0x7fc00000), .string [0xef, 0xbf, 0xbd, 0x28] true] }
  trailingBytes := 0

theorem written_of_decode_strayInput
    : decode { maxDepth := 1, maxCount := 2 } strayInput = .ok strayChunk
        ∧ (∀ v : Json, (if v.isWritable then some (v.render .compact) else none) = none → v.Faulty)
        ∧ (∃ text, (if strayChunk.toJson.isWritable then some (strayChunk.toJson.render .compact) else none)
            = some text)
        ∧ ∀ style, ∃ text, strayChunk.toJson.render? style = some text := by
  have hdecode : decode { maxDepth := 1, maxCount := 2 } strayInput = .ok strayChunk := rfl
  have hwrite : ∀ v : Json, (if v.isWritable then some (v.render .compact) else none) = none
      → v.Faulty := by
    intro v hnone
    by_contra hfaulty
    simp [isWritable_iff.mpr hfaulty] at hnone
  have h := written_of_decode _ _ _ _ hwrite hdecode
  exact ⟨hdecode, hwrite, h.1, h.2.2.2 (by decide)⟩

end Chunk

end LuaBytecode
