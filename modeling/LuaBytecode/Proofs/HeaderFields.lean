import Mathlib
import LuaBytecode.Proofs.RoundTrip

/-!
The fields of a header. `HeaderField` says of every field where it is stored and what it has to hold, for
any bytes and without reading them. `Checks` then goes along the reader: it stops at the first field that
is not right and reports that field, and it reaches the end only if all of them are right.
-/

namespace LuaBytecode

theorem Width.ofByte?_eq_some_iff {b : UInt8} {width : Width} :
    ofByte? b = some width ↔ b = width.bytes.toUInt8 := by
  constructor
  . intro h
    unfold ofByte? at h
    split at h
    . cases h
      rfl
    . cases h
      rfl
    . cases h
  . rintro rfl
    exact ofByte?_bytes width

namespace Platform

def numberOf (p : Platform) (group : Bytes) : Binary64 :=
  match p.numberSize with
  | .four => .ofSingle (p.byteOrder.decode group).toUInt32
  | .eight => ⟨(p.byteOrder.decode group).toUInt64⟩

theorem numberBytes_numberOf (p : Platform) {group : Bytes} (h : group.length = p.numberSize.bytes)
    (hnan : ¬(p.numberOf group).isNaN) : p.numberBytes (p.numberOf group) = group := by
  have hencode := ByteOrder.encode_decode p.byteOrder group
  have hlt : p.byteOrder.decode group < 256 ^ group.length := by
    rw [← hencode, ByteOrder.decode_encode, hencode]
    exact Nat.mod_lt _ (Nat.pow_pos (by omega))
  rw [h] at hencode hlt
  unfold numberOf at hnan ⊢
  unfold numberBytes
  cases hsize : p.numberSize with
  | four =>
    -- Every float but NaN is narrowed to the bits that it was widened from.
    simp only [hsize, Width.bytes] at hencode hlt hnan ⊢
    rw [Binary64.toSingle_ofSingle _ (by simpa using hnan), Nat.toUInt32_eq,
      UInt32.toNat_ofNat_of_lt' hlt]
    exact hencode
  | eight =>
    simp only [hsize, Width.bytes] at hencode hlt ⊢
    rw [Nat.toUInt64_eq, UInt64.toNat_ofNat_of_lt' hlt]
    exact hencode

end Platform

theorem Format.spells_numberOf (p : Platform) {group : Bytes} (h : group.length = p.numberSize.bytes) :
    (number p).Spells group (p.numberOf group) := by
  unfold number Platform.numberOf
  cases hsize : p.numberSize with
  | four =>
    rw [hsize] at h
    exact Spells.map (Spells.map (.bytes .group h) rfl) rfl
  | eight =>
    rw [hsize] at h
    exact Spells.map (Spells.map (.bytes .group h) rfl) rfl

namespace Header

theorem numberOf_eq_sample_iff (p : Platform) {group : Bytes} (h : group.length = p.numberSize.bytes) :
    p.numberOf group = numberSampleValue ↔ group = p.numberBytes numberSampleValue := by
  constructor
  . intro hvalue
    have hnan : ¬(p.numberOf group).isNaN := by
      rw [hvalue]
      decide
    rw [← hvalue, p.numberBytes_numberOf h hnan]
  . rintro rfl
    obtain ⟨order, integerSize, numberSize⟩ := p
    cases order <;> cases integerSize <;> cases numberSize <;> decide

theorem sampleOrder?_eq_some_iff (order : ByteOrder) {sample : Bytes} {width : Width}
    (h : sample.length = width.bytes) :
    sampleOrder? sample = some order ↔ sample = order.encode width.bytes 0x5678 := by
  constructor
  . intro hsample
    unfold sampleOrder? at hsample
    split at hsample
    . next hlittle =>
      cases hsample
      rw [← h, ← integerSampleValue, ← hlittle, ByteOrder.encode_decode]
    split at hsample
    . next hbig =>
      cases hsample
      rw [← h, ← integerSampleValue, ← hbig, ByteOrder.encode_decode]
    . cases hsample
  . rintro rfl
    exact sampleOrder?_encode order width

theorem encode_sample_inj {width : Width} {order order' : ByteOrder}
    (h : order.encode width.bytes 0x5678 = order'.encode width.bytes 0x5678) : order = order' := by
  apply Option.some.inj
  rw [← sampleOrder?_encode order width, ← sampleOrder?_encode order' width]
  exact congrArg sampleOrder? h

end Header

inductive HeaderField where
  | signature
  | version
  | format
  | conversionCheck
  | instructionSize
  | integerSize
  | numberSize
  | integerSample
  | numberSample
  deriving DecidableEq

namespace HeaderField

def all : List HeaderField :=
  [.signature, .version, .format, .conversionCheck, .instructionSize, .integerSize, .numberSize,
   .integerSample, .numberSample]

theorem mem_all (field : HeaderField) : field ∈ all := by
  cases field <;> decide

/--
The size that is stored in a byte. If it is none, the byte is a field that is not right, and the fields
behind it do not matter.
-/
def storedSize (data : Bytes) (index : Nat) : Width :=
  (Width.ofByte? (data.getD index 0)).getD .eight

def storedPlatform (data : Bytes) (byteOrder : ByteOrder) : Platform where
  byteOrder := byteOrder
  integerSize := storedSize data 13
  numberSize := storedSize data 14

def start (data : Bytes) : HeaderField → Nat
  | .signature => 0
  | .version => 4
  | .format => 5
  | .conversionCheck => 6
  | .instructionSize => 12
  | .integerSize => 13
  | .numberSize => 14
  | .integerSample => 15
  | .numberSample => 15 + (storedSize data 13).bytes

def width (data : Bytes) : HeaderField → Nat
  | .signature => 4
  | .conversionCheck => 6
  | .integerSample => (storedSize data 13).bytes
  | .numberSample => (storedSize data 14).bytes
  | _ => 1

def found (data : Bytes) (field : HeaderField) : Bytes :=
  (data.drop (field.start data)).take (field.width data)

def literal? : HeaderField → Option Bytes
  | .signature => some Header.signature
  | .conversionCheck => some Header.conversionCheck
  | _ => none

def Right (strict : Bool) (data : Bytes) : HeaderField → Prop
  | .signature => found data .signature = Header.signature
  | .version => found data .version = [0x54]
  | .format => found data .format = [0x00]
  | .conversionCheck => found data .conversionCheck = Header.conversionCheck
  | .instructionSize => found data .instructionSize = [4]
  | .integerSize => ∃ size : Width, found data .integerSize = [size.bytes.toUInt8]
  | .numberSize => ∃ size : Width, found data .numberSize = [size.bytes.toUInt8]
  | .integerSample =>
    ∃ order : ByteOrder, found data .integerSample = order.encode (width data .integerSample) 0x5678
  | .numberSample =>
    (found data .numberSample).length = width data .numberSample
      ∧ (strict →
          ∃ order : ByteOrder,
            found data .integerSample = order.encode (width data .integerSample) 0x5678
              ∧ found data .numberSample
                  = (storedPlatform data order).numberBytes Header.numberSampleValue)

/--
The input ends in the field, and up to there it may be the start of the field.
-/
def Incomplete (data : Bytes) (field : HeaderField) : Prop :=
  (found data field).length < field.width data
    ∧ ∀ expected ∈ field.literal?, found data field <+: expected

def Wrong (strict : Bool) (data : Bytes) (field : HeaderField) : Prop :=
  ¬field.Right strict data ∧ ¬field.Incomplete data

def kind : HeaderField → FaultKind
  | .signature => .badSignature
  | .version => .unsupportedVersion
  | .format => .unsupportedFormat
  | .conversionCheck => .badMagic
  | _ => .platformMismatch

/--
The fault is that of the first field that is not right, and lies at the start of that field.
-/
def Blames (strict : Bool) (data : Bytes) (fields : List HeaderField) (fault : Fault) : Prop :=
  ∃ before field after,
    fields = before ++ field :: after
      ∧ (∀ earlier ∈ before, earlier.Right strict data)
      ∧ fault.offset = field.start data
      ∧ (field.Incomplete data ∧ fault.kind = .truncated
          ∨ field.Wrong strict data ∧ fault.kind = field.kind)

theorem found_append {data rest : Bytes} (field : HeaderField)
    (h : rest = data.drop (field.start data + field.width data)) :
    found data field ++ rest = data.drop (field.start data) := by
  rw [h, found, ← List.drop_drop, List.take_append_drop]

theorem found_of_lt {data : Bytes} {field : HeaderField}
    (h : (found data field).length < field.width data) :
    found data field = data.drop (field.start data) := by
  rw [found, List.length_take] at h
  rw [found, List.take_of_length_le (by omega)]

theorem not_incomplete_of_length {data : Bytes} {field : HeaderField}
    (h : (found data field).length = field.width data) : ¬field.Incomplete data := by
  intro hincomplete
  exact absurd h (Nat.ne_of_lt hincomplete.1)

theorem storedSize_eq {data : Bytes} {index : Nat} {size : Width}
    (h : (data.drop index).take 1 = [size.bytes.toUInt8]) : storedSize data index = size := by
  have hget : data[index]? = some size.bytes.toUInt8 := by
    simpa [List.head?_take] using congrArg List.head? h
  rw [storedSize, List.getD_eq_getElem?_getD, hget, Option.getD_some, Width.ofByte?_bytes]
  rfl

theorem flatMap_found (data : Bytes)
    : all.flatMap (found data)
          ++ data.drop (15 + (storedSize data 13).bytes + (storedSize data 14).bytes)
        =
      data := by
  simp only [all, List.flatMap_cons, List.flatMap_nil, List.append_nil, List.append_assoc]
  apply found_append .signature
  apply found_append .version
  apply found_append .format
  apply found_append .conversionCheck
  apply found_append .instructionSize
  apply found_append .integerSize
  apply found_append .numberSize
  apply found_append .integerSample
  exact found_append .numberSample rfl

theorem wrong_signature_iff {strict : Bool} {data : Bytes}
    : Wrong strict data .signature
        ↔
      ¬data <+: Header.signature ∧ ¬Header.signature <+: data := by
  constructor
  . rintro ⟨hright, hincomplete⟩
    constructor
    . intro h
      by_cases hlength : data.length < 4
      . have hfound : found data .signature = data := by
          change data.take 4 = data
          exact List.take_of_length_le (by omega)
        apply hincomplete
        rw [Incomplete, hfound]
        exact ⟨hlength, by simpa [literal?] using h⟩
      . apply hright
        rw [h.eq_of_length_le (Nat.le_of_not_lt hlength)]
        rfl
    . intro h
      apply hright
      exact (List.prefix_iff_eq_take.mp h).symm
  . rintro ⟨hcut, hother⟩
    constructor
    . intro h
      apply hother
      rw [← h]
      exact List.take_prefix _ _
    . rintro ⟨hlength, hstart⟩
      rw [found_of_lt hlength] at hstart
      exact hcut (hstart _ rfl)

end HeaderField

open HeaderField

/--
At the cursor `c`, the reader `m` fails at the first of the fields that is not right, and succeeds only if
all of them are right.
-/
def Checks (strict : Bool) (data : Bytes) (fields : List HeaderField) (m : ReadM α) (c : Cursor) : Prop :=
  match m c with
  | .ok _ _ => ∀ field ∈ fields, field.Right strict data
  | .error fault _ => Blames strict data fields fault

structure ReadM.Takes (m : ReadM α) (p : Platform) (n : Nat) (value : Bytes → α) : Prop where
  full : ∀ (head rest : Bytes) (o : Nat),
    head.length = n → m ⟨o, head ++ rest, p⟩ = .ok (value head) ⟨o + n, rest, p⟩
  cut : ∀ (bs : Bytes) (o : Nat),
    bs.length < n → m ⟨o, bs, p⟩ = .error { cause := .endOfInput, offset := o } ⟨o, bs, p⟩

namespace ReadM

theorem byte_takes (p : Platform) : byte.Takes p 1 (·.headD 0) where
  full := by
    intro head rest o h
    obtain ⟨b, rfl⟩ := List.length_eq_one_iff.mp h
    rfl
  cut := by
    intro bs o h
    obtain rfl : bs = [] := List.eq_nil_of_length_eq_zero (by omega)
    rfl

theorem bytes_takes (p : Platform) (n : Nat) : (bytes n).Takes p n id where
  full := fun head rest o h => bytes_append head rest n o p h
  cut := fun bs o h => bytes_of_lt bs n o p h

theorem number_takes (p : Platform) : number.Takes p p.numberSize.bytes p.numberOf where
  full := by
    intro head rest o h
    exact h ▸ (number_reads (Nat.le_refl o)).eq_ok_of_spells rest (Format.spells_numberOf p h)
  cut := by
    intro bs o h
    have hbytes := bytes_of_lt bs p.numberSize.bytes o p h
    rw [number, bind_apply, platform]
    dsimp only
    rw [bind_apply, fixed, bind_apply, hbytes]

end ReadM

namespace Checks

variable {strict : Bool} {data : Bytes} {fields : List HeaderField}
variable {p : Platform} {m : ReadM α} {k : β → ReadM α} {c c' : Cursor} {place : Place}

theorem of_eq {m' : ReadM α} (hm : m c = m' c') (h : Checks strict data fields m' c') :
    Checks strict data fields m c := by
  unfold Checks
  rw [hm]
  exact h

theorem pure (a : α) : Checks strict data [] (pure a) c := by
  intro field h
  cases h

theorem incomplete {field : HeaderField} {fault : Fault} (hm : m c = .error fault c')
    (hkind : fault.kind = .truncated) (hoffset : fault.offset = field.start data)
    (h : field.Incomplete data) : Checks strict data (field :: fields) m c := by
  unfold Checks
  rw [hm]
  exact ⟨[], field, fields, rfl, by simp, hoffset, .inl ⟨h, hkind⟩⟩

theorem wrong {field : HeaderField} {fault : Fault} (hm : m c = .error fault c')
    (hkind : fault.kind = field.kind) (hoffset : fault.offset = field.start data)
    (h : field.Wrong strict data) : Checks strict data (field :: fields) m c := by
  unfold Checks
  rw [hm]
  exact ⟨[], field, fields, rfl, by simp, hoffset, .inr ⟨h, hkind⟩⟩

theorem right {field : HeaderField} (hright : field.Right strict data)
    (h : Checks strict data fields m c) : Checks strict data (field :: fields) m c := by
  unfold Checks at h ⊢
  cases hm : m c with
  | ok a c' =>
    rw [hm] at h
    exact List.forall_mem_cons.mpr ⟨hright, h⟩
  | error fault c' =>
    rw [hm] at h
    obtain ⟨before, blamed, after, rfl, hbefore, hblamed⟩ := h
    exact ⟨field :: before, blamed, after, rfl, List.forall_mem_cons.mpr ⟨hright, hbefore⟩, hblamed⟩

theorem take (field : HeaderField) {r : ReadM β} {value : Bytes → β}
    (hr : r.Takes p (field.width data) value) (hliteral : field.literal? = none)
    (hk : (found data field).length = field.width data →
      Checks strict data (field :: fields) (k (value (found data field)))
        ⟨field.start data + field.width data,
          data.drop (field.start data + field.width data), p⟩)
    : Checks strict data (field :: fields) (ReadM.inside place r >>= k)
        ⟨field.start data, data.drop (field.start data), p⟩ := by
  -- A field that is no literal is taken whole before it is looked at.
  by_cases hlength : (found data field).length < field.width data
  . have herror := hr.cut (data.drop (field.start data)) (field.start data)
      (by rwa [← found_of_lt hlength])
    apply incomplete
    . rw [ReadM.bind_apply, ReadM.inside_eq_error_iff.mpr ⟨_, herror, rfl⟩]
    . rfl
    . rfl
    . exact ⟨hlength, by simp [hliteral]⟩
  . have hfound : (found data field).length = field.width data := by
      apply Nat.le_antisymm
      . exact List.length_take_le _ _
      . omega
    have hok := hr.full (found data field) (data.drop (field.start data + field.width data))
      (field.start data) hfound
    rw [found_append field rfl] at hok
    apply of_eq
    . rw [ReadM.bind_apply, ReadM.inside_eq_ok_iff.mpr hok]
    . exact hk hfound

theorem byte (field : HeaderField) {k : UInt8 → ReadM α} (hwidth : field.width data = 1)
    (hliteral : field.literal? = none)
    (hk : ∀ b,
      found data field = [b] →
        Checks strict data (field :: fields) (k b)
          ⟨field.start data + 1, data.drop (field.start data + 1), p⟩)
    : Checks strict data (field :: fields) (ReadM.inside place ReadM.byte >>= k)
        ⟨field.start data, data.drop (field.start data), p⟩ := by
  apply take field (hwidth ▸ ReadM.byte_takes p) hliteral
  intro hlength
  rw [hwidth] at hlength ⊢
  obtain ⟨b, hb⟩ := List.length_eq_one_iff.mp hlength
  rw [hb]
  exact hk b hb

theorem constant (field : HeaderField) (expected : UInt8) {k : UInt8 → ReadM α}
    (hwidth : field.width data = 1) (hliteral : field.literal? = none)
    (hright : field.Right strict data ↔ found data field = [expected])
    (hother : ∀ b c, b ≠ expected →
      ∃ cause, k b c = .error { cause, offset := field.start data } c ∧ cause.kind = field.kind)
    (hk : Checks strict data fields (k expected)
      ⟨field.start data + 1, data.drop (field.start data + 1), p⟩)
    : Checks strict data (field :: fields) (ReadM.inside place ReadM.byte >>= k)
        ⟨field.start data, data.drop (field.start data), p⟩ := by
  apply byte field hwidth hliteral
  intro b hb
  by_cases h : b = expected
  . subst h
    exact right (hright.mpr hb) hk
  . obtain ⟨cause, herror, hkind⟩ := hother b _ h
    apply wrong herror hkind rfl
    refine ⟨?_, not_incomplete_of_length (by rw [hb, hwidth, List.length_singleton])⟩
    rw [hright, hb]
    simpa using h

theorem size (field : HeaderField) {valid : UInt8 → Option β} {what : String}
    (hwidth : field.width data = 1) (hliteral : field.literal? = none)
    (hkind : field.kind = .platformMismatch)
    (hright : ∀ b, found data field = [b] → (field.Right strict data ↔ ∃ a, valid b = some a))
    (hk : ∀ a b,
      found data field = [b] →
        valid b = some a →
          Checks strict data fields (k a)
            ⟨field.start data + 1, data.drop (field.start data + 1), p⟩)
    : Checks strict data (field :: fields) (Header.readSize what valid >>= k)
        ⟨field.start data, data.drop (field.start data), p⟩ := by
  rw [Header.readSize, bind_assoc]
  change Checks _ _ _ ((ReadM.inside _ ReadM.byte >>= _) >>= k) _
  rw [bind_assoc]
  apply byte field hwidth hliteral
  intro b hb
  cases hvalid : valid b with
  | none =>
    apply wrong
    . rfl
    . exact hkind.symm
    . rfl
    . refine ⟨?_, not_incomplete_of_length (by rw [hb, hwidth, List.length_singleton])⟩
      rw [hright b hb, hvalid]
      simp
  | some a =>
    apply right ((hright b hb).mpr ⟨a, hvalid⟩)
    exact hk a b hb hvalid

theorem literal (field : HeaderField) {k : Unit → ReadM α} {expected : Bytes} {cause : Cause}
    (hliteral : field.literal? = some expected) (hwidth : field.width data = expected.length)
    (hright : field.Right strict data ↔ found data field = expected) (hkind : cause.kind = field.kind)
    (hk : Checks strict data fields (k ())
      ⟨field.start data + field.width data, data.drop (field.start data + field.width data), p⟩)
    : Checks strict data (field :: fields) (ReadM.expect expected (field.start data) cause >>= k)
        ⟨field.start data, data.drop (field.start data), p⟩ := by
  by_cases hfound : found data field = expected
  . have hok := ReadM.expect_append expected (data.drop (field.start data + field.width data))
      (field.start data) (field.start data) p cause
    rw [← hwidth, ← hfound, found_append field rfl, hfound] at hok
    apply right (hright.mpr hfound)
    apply of_eq
    . rw [ReadM.bind_apply, hok]
    . exact hk
  have hprefix : ¬expected <+: data.drop (field.start data) := by
    intro h
    apply hfound
    rw [found, hwidth, ← List.prefix_iff_eq_take.mp h]
  have herror := ReadM.expect_of_mismatch expected (field.start data) cause
    ⟨field.start data, data.drop (field.start data), p⟩ hprefix
  by_cases hcut : data.drop (field.start data) <+: expected
  . rw [if_pos hcut] at herror
    have hlength : (data.drop (field.start data)).length < expected.length := by
      apply Nat.lt_of_le_of_ne hcut.length_le
      intro heq
      apply hprefix
      rw [hcut.eq_of_length heq]
    have hall : found data field = data.drop (field.start data) := by
      rw [found, List.take_of_length_le (by omega)]
    apply incomplete
    . rw [ReadM.bind_apply, herror]
    . rfl
    . rfl
    . rw [Incomplete, hall, hliteral, hwidth]
      exact ⟨hlength, by simpa using hcut⟩
  . rw [if_neg hcut] at herror
    apply wrong
    . rw [ReadM.bind_apply, herror]
    . exact hkind
    . rfl
    . refine ⟨fun h => hfound (hright.mp h), ?_⟩
      rintro ⟨hlength, hstart⟩
      rw [found_of_lt hlength] at hstart
      exact hcut (hstart expected hliteral)

end Checks

namespace Header

theorem read_checks (limits : Limits) (data : Bytes) (p : Platform)
    : Checks limits.strictPlatform data HeaderField.all (read limits) (.ofBytes data p) := by
  change Checks _ _ _ _ ⟨0, data.drop 0, p⟩
  refine Checks.literal .signature rfl rfl .rfl rfl ?_
  refine Checks.constant .version 0x54 rfl rfl .rfl ?_ ?_
  . intro b c hb
    rw [if_pos (by simpa [Version.lua54] using hb)]
    exact ⟨_, rfl, rfl⟩
  rw [if_neg (by decide)]
  refine Checks.constant .format formatByte rfl rfl .rfl ?_ ?_
  . intro b c hb
    rw [if_pos hb]
    exact ⟨_, rfl, rfl⟩
  rw [if_neg (by decide)]
  refine Checks.literal .conversionCheck rfl rfl .rfl rfl ?_
  refine Checks.size .instructionSize rfl rfl rfl ?_ ?_
  . intro b hb
    rw [HeaderField.Right, hb]
    by_cases h : b = 4 <;> simp [instructionBytes, h]
  intro instructionSize _ _ _
  refine Checks.size .integerSize rfl rfl rfl ?_ ?_
  . intro b hb
    rw [HeaderField.Right, hb]
    simp [Width.ofByte?_eq_some_iff]
  intro integerSize b hb hsize
  -- The size that was read is the one by which the fields behind it are found.
  obtain rfl : storedSize data 13 = integerSize :=
    storedSize_eq (Width.ofByte?_eq_some_iff.mp hsize ▸ hb)
  refine Checks.size .numberSize rfl rfl rfl ?_ ?_
  . intro b hb
    rw [HeaderField.Right, hb]
    simp [Width.ofByte?_eq_some_iff]
  intro numberSize b hb hsize
  obtain rfl : storedSize data 14 = numberSize :=
    storedSize_eq (Width.ofByte?_eq_some_iff.mp hsize ▸ hb)
  refine Checks.take .integerSample (ReadM.bytes_takes _ _) rfl ?_
  intro hlength
  have hsample (order : ByteOrder) := sampleOrder?_eq_some_iff order hlength
  rw [id]
  cases horder : sampleOrder? (found data .integerSample) with
  | none =>
    refine Checks.wrong rfl rfl rfl ⟨?_, not_incomplete_of_length hlength⟩
    rintro ⟨order, h⟩
    rw [(hsample order).mpr h] at horder
    cases horder
  | some order =>
    refine Checks.right ⟨order, (hsample order).mp horder⟩ ?_
    refine Checks.take .numberSample (ReadM.number_takes (storedPlatform data order)) rfl ?_
    intro hnumber
    have hmatches := numberOf_eq_sample_iff (storedPlatform data order) hnumber
    dsimp only
    split
    . next h =>
      simp only [numberSampleMatches, Bool.and_eq_true, Bool.not_eq_true', beq_eq_false_iff_ne] at h
      refine Checks.wrong rfl rfl rfl ⟨?_, not_incomplete_of_length hnumber⟩
      rintro ⟨_, hstrict⟩
      -- The sample may not be right in another order, since only one fits the integer sample.
      obtain ⟨order', horder', hbytes⟩ := hstrict h.1
      rw [(hsample order').mpr horder'] at horder
      cases horder
      exact h.2 (hmatches.mpr hbytes)
    . next h =>
      refine Checks.right ⟨hnumber, ?_⟩ (Checks.pure _)
      intro hstrict
      refine ⟨order, (hsample order).mp horder, hmatches.mp ?_⟩
      simpa [numberSampleMatches, hstrict] using h

/--
`data` is a header for the platform `p` with the given bytes as float sample, and then `rest`.
-/
structure OpensWith (strict : Bool) (data : Bytes) (p : Platform) (sample rest : Bytes) : Prop where
  eq_append :
    data
      =
    signature ++ [0x54, 0x00] ++ conversionCheck
      ++ [4, p.integerSize.bytes.toUInt8, p.numberSize.bytes.toUInt8]
      ++ p.byteOrder.encode p.integerSize.bytes 0x5678 ++ sample ++ rest
  length_sample : sample.length = p.numberSize.bytes
  sample_eq : strict → sample = p.numberBytes numberSampleValue

def ofSample (p : Platform) (sample : Bytes) : Header where
  version := .lua54
  format := 0
  instructionSize := 4
  integerSize := p.integerSize
  numberSize := p.numberSize
  byteOrder := p.byteOrder
  integerSample := 0x5678
  numberSample := p.numberOf sample

theorem read_of_opensWith (limits : Limits) (initial : Platform) {data : Bytes} {p : Platform}
    {sample rest : Bytes} (h : OpensWith limits.strictPlatform data p sample rest)
    : read limits (.ofBytes data initial)
        =
      .ok (ofSample p sample) ⟨15 + p.integerSize.bytes + p.numberSize.bytes, rest, p⟩ := by
  have hspells : (layout limits).Spells _ (ofSample p sample) :=
    spells_layout (Format.spells_numberOf p h.length_sample) fun hstrict =>
      (numberOf_eq_sample_iff p h.length_sample).mpr (h.sample_eq hstrict)
  have hok := (read_reads limits initial).eq_ok_of_spells rest hspells
  rw [← h.eq_append] at hok
  rw [Cursor.ofBytes, hok]
  simp only [List.length_append, ByteOrder.length_encode, h.length_sample, Nat.zero_add]
  rfl

theorem exists_opensWith {strict : Bool} {data : Bytes}
    (h : ∀ field ∈ HeaderField.all, field.Right strict data) :
    ∃ p sample rest, OpensWith strict data p sample rest := by
  have hright (field : HeaderField) := h field (mem_all field)
  obtain ⟨integerSize, hintegerSize⟩ := hright .integerSize
  obtain rfl : storedSize data 13 = integerSize := storedSize_eq hintegerSize
  obtain ⟨numberSize, hnumberSize⟩ := hright .numberSize
  obtain rfl : storedSize data 14 = numberSize := storedSize_eq hnumberSize
  obtain ⟨order, horder⟩ := hright .integerSample
  obtain ⟨hlength, hstrict⟩ := hright .numberSample
  refine ⟨storedPlatform data order, found data .numberSample,
    data.drop (15 + (storedSize data 13).bytes + (storedSize data 14).bytes), ?_, hlength, ?_⟩
  . refine (flatMap_found data).symm.trans ?_
    simp only [HeaderField.all, List.flatMap_cons, List.flatMap_nil]
    rw [hright .signature, hright .version, hright .format, hright .conversionCheck,
      hright .instructionSize, hintegerSize, hnumberSize, horder]
    simp [width, storedPlatform]
  . intro h
    obtain ⟨order', horder', hnumber⟩ := hstrict h
    rw [horder] at horder'
    rw [encode_sample_inj horder']
    exact hnumber

/--
Reading a header succeeds exactly on the bytes of one. These fit a single byte order, and from then on
numbers are read as the header describes. In any other input the first field that is not right is at fault.
-/
theorem read_accepts_exactly (limits : Limits) (data : Bytes) (initial : Platform)
    : (∀ h c,
        read limits (.ofBytes data initial) = .ok h c
          ↔
        ∃ p sample rest,
          OpensWith limits.strictPlatform data p sample rest
            ∧ h = ofSample p sample
            ∧ c = ⟨15 + p.integerSize.bytes + p.numberSize.bytes, rest, p⟩)
      ∧ (∀ width : Width,
          ByteOrder.little.encode width.bytes 0x5678 ≠ ByteOrder.big.encode width.bytes 0x5678)
      ∧ (∀ fault c,
          read limits (.ofBytes data initial) = .error fault c
            →
          Blames limits.strictPlatform data HeaderField.all fault)
      ∧ ((∃ fault c,
            read limits (.ofBytes data initial) = .error fault c ∧ fault.kind = .badSignature)
          ↔
        ¬data <+: signature ∧ ¬signature <+: data) := by
  have hchecks := read_checks limits data initial
  refine ⟨?_, ?_, ?_, ?_⟩
  . intro h c
    constructor
    . intro hok
      rw [Checks, hok] at hchecks
      obtain ⟨p, sample, rest, hopens⟩ := exists_opensWith hchecks
      rw [read_of_opensWith limits initial hopens] at hok
      cases hok
      exact ⟨p, sample, rest, hopens, rfl, rfl⟩
    . rintro ⟨p, sample, rest, hopens, rfl, rfl⟩
      exact read_of_opensWith limits initial hopens
  . intro width h
    cases encode_sample_inj h
  . intro fault c herror
    rw [Checks, herror] at hchecks
    exact hchecks
  . constructor
    . rintro ⟨fault, c, herror, hkind⟩
      rw [Checks, herror] at hchecks
      obtain ⟨before, field, after, _, _, _, hincomplete | hwrong⟩ := hchecks
      . rw [hincomplete.2] at hkind
        cases hkind
      . rw [hwrong.2] at hkind
        cases field <;> cases hkind
        exact wrong_signature_iff.mp hwrong.1
    . rintro ⟨hcut, hother⟩
      have herror := ReadM.expect_of_mismatch signature 0 .notAChunk ⟨0, data, initial⟩ hother
      rw [if_neg hcut] at herror
      refine ⟨{ cause := .notAChunk, offset := 0 }, ⟨0, data, initial⟩, ?_, rfl⟩
      rw [read, ReadM.bind_apply, Cursor.ofBytes, herror]

def paddedHeader : Bytes :=
  signature ++ [0x54, 0x00] ++ conversionCheck ++ [4, 8, 8] ++ ByteOrder.little.encode 8 0x5678
    ++ [0x00, 0x00, 0x00, 0x00, 0x00, 0x00, 0x28, 0x77] ++ [0x40]

theorem read_accepts_exactly_paddedHeader
    : (∃ h, read {} (.ofBytes paddedHeader) = .ok h ⟨31, [0x40], {}⟩ ∧ h.byteOrder = .little)
      ∧ ∃ fault c,
          read { strictPlatform := true } (.ofBytes paddedHeader) = .error fault c
            ∧ Blames true paddedHeader HeaderField.all fault
            ∧ fault.kind = .platformMismatch
            ∧ fault.offset = 23 := by
  constructor
  . have hopens : OpensWith false paddedHeader {}
        [0x00, 0x00, 0x00, 0x00, 0x00, 0x00, 0x28, 0x77] [0x40] := ⟨rfl, rfl, by simp⟩
    exact ⟨_, ((read_accepts_exactly {} paddedHeader {}).1 _ _).mpr ⟨_, _, _, hopens, rfl, rfl⟩, rfl⟩
  . have herror : ∃ fault c,
        read { strictPlatform := true } (.ofBytes paddedHeader) = .error fault c
          ∧ fault.kind = .platformMismatch
          ∧ fault.offset = 23 := ⟨_, _, rfl, rfl, rfl⟩
    obtain ⟨fault, c, herror, hkind, hoffset⟩ := herror
    have hblames := (read_accepts_exactly { strictPlatform := true } paddedHeader {}).2.2.1 fault c herror
    exact ⟨fault, c, herror, hblames, hkind, hoffset⟩

end Header

end LuaBytecode
