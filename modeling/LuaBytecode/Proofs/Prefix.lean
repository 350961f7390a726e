import Mathlib
import LuaBytecode.Proofs.Layout

/-!
Decoding depends on the bytes it consumes and on no others: what follows them has no influence, and
wherever they are cut, the fault is that the field with the first missing byte is not complete.
-/

namespace LuaBytecode
namespace Chunk

open LuaBytecode.Field

def consumed (input : Bytes) (chunk : Chunk) : Nat :=
  input.length - chunk.trailingBytes

theorem exists_fields_of_decode_eq_ok {limits : Limits} {input : Bytes} {chunk : Chunk}
    (h : decode limits input = .ok chunk)
    : ∃ fields,
        layout limits fields chunk.contents
          ∧ join fields = input.take (consumed input chunk)
          ∧ width fields = consumed input chunk := by
  obtain ⟨fields, rest, hlayout, rfl, htrailing⟩ := decode_eq_ok_iff.mp h
  have hconsumed : consumed (join fields ++ rest) chunk = width fields := by
    rw [consumed, htrailing, List.length_append, length_join]
    omega
  refine ⟨fields, hlayout, ?_, hconsumed.symm⟩
  rw [hconsumed, ← length_join, List.take_left]

theorem decode_join_append {limits : Limits} {fields : List Field} {chunk : Chunk} (more : Bytes)
    (h : layout limits fields chunk.contents)
    : decode limits (join fields ++ more) = .ok { chunk with trailingBytes := more.length } := by
  apply decode_eq_ok_iff.mpr
  exact ⟨fields, more, h, rfl, rfl⟩

theorem decode_take_join {limits : Limits} {fields : List Field} {contents : Contents} {m : Nat}
    (h : layout limits fields contents) (hm : m < width fields)
    : ∃ fault,
        decode limits ((join fields).take m) = .error fault
          ∧ fault.kind = .truncated
          ∧ fault.offset = startOf fields m := by
  obtain ⟨inner, c, herr, hkind, hoffset⟩ := (readContents_reads limits {}).eq_error_of_cut h hm
  refine ⟨_, decode_eq_error_iff.mpr ⟨inner, c, herr, rfl⟩, hkind, ?_⟩
  rw [Nat.zero_add] at hoffset
  exact hoffset

theorem decode_append_of_eq_error {limits : Limits} {input : Bytes} {fault : Fault} (more : Bytes)
    (h : decode limits input = .error fault) (hkind : fault.kind ≠ .truncated) :
    decode limits (input ++ more) = .error fault := by
  obtain ⟨inner, c, herr, rfl⟩ := decode_eq_error_iff.mp h
  have := (readContents_reads limits {}).eq_error_of_append more herr hkind
  exact decode_eq_error_iff.mpr ⟨inner, _, this, rfl⟩

/--
Of a decoded chunk, what follows the consumed bytes can be exchanged, and every cut through them is a
truncation of the field that holds the first missing byte. Other faults stay when input is added.
-/
theorem decode_depends_on_consumed (limits : Limits) (input : Bytes)
    : (∀ chunk, decode limits input = .ok chunk →
        (∀ more,
          decode limits (input.take (consumed input chunk) ++ more)
            =
          .ok { chunk with trailingBytes := more.length })
        ∧ ∃ fields,
            layout limits fields chunk.contents
              ∧ join fields = input.take (consumed input chunk)
              ∧ (∀ m < consumed input chunk, ∃ fault before field after,
                  decode limits (input.take m) = .error fault
                    ∧ fault.kind = .truncated
                    ∧ fields = before ++ field :: after
                    ∧ width before ≤ m
                    ∧ m < width before + field.bytes.length
                    ∧ fault.offset = width before)
              ∧ ∀ m m' fault fault', m ≤ m' → m' < consumed input chunk
                  → decode limits (input.take m) = .error fault
                  → decode limits (input.take m') = .error fault'
                  → fault.offset ≤ fault'.offset)
      ∧ ∀ fault, decode limits input = .error fault → fault.kind ≠ .truncated
          → ∀ more, decode limits (input ++ more) = .error fault := by
  constructor
  . intro chunk hok
    obtain ⟨fields, hlayout, hjoin, hwidth⟩ := exists_fields_of_decode_eq_ok hok
    have htake : ∀ m < consumed input chunk, input.take m = (join fields).take m := by
      intro m hm
      rw [hjoin, List.take_take, Nat.min_eq_left (Nat.le_of_lt hm)]
    refine ⟨?_, fields, hlayout, hjoin, ?_, ?_⟩
    . intro more
      rw [← hjoin]
      exact decode_join_append more hlayout
    . intro m hm
      rw [← hwidth] at hm
      obtain ⟨fault, herr, hkind, hoffset⟩ := decode_take_join hlayout hm
      obtain ⟨before, field, after, hfields, hstart, hle, hlt⟩ := exists_field_of_lt fields m hm
      refine ⟨fault, before, field, after, ?_, hkind, hfields, hle, hlt, hoffset.trans hstart⟩
      rw [htake m (by omega)]
      exact herr
    . intro m m' fault fault' hle hm' herr herr'
      rw [htake _ (by omega)] at herr herr'
      obtain ⟨cut, hcut, _, hoffset⟩ := decode_take_join (m := m) hlayout (by omega)
      obtain ⟨cut', hcut', _, hoffset'⟩ := decode_take_join (m := m') hlayout (by omega)
      rw [hcut, Except.error.injEq] at herr
      rw [hcut', Except.error.injEq] at herr'
      rw [← herr, ← herr', hoffset, hoffset']
      exact startOf_mono fields hle
  . intro fault herr hkind more
    exact decode_append_of_eq_error more herr hkind

theorem decode_depends_on_consumed_sampleInput
    : (∀ more,
        decode { maxDepth := 2, maxCount := 3 } (sampleInput ++ more)
          =
        .ok ⟨sampleHeader, 1, sampleMain, more.length⟩)
      ∧ (∃ fault,
          decode { maxDepth := 2, maxCount := 3 } (sampleInput.take 52) = .error fault
            ∧ fault.kind = .truncated
            ∧ fault.offset ≤ 52)
      ∧ ∀ more,
          decode {} (Header.signature ++ [0x53] ++ more)
            =
          .error ⟨.version ⟨0x53⟩, 4, [.part "decode lua chunk", .part "header"]⟩ := by
  obtain ⟨hmore, fields, _, _, hcut, _⟩ :=
    (decode_depends_on_consumed { maxDepth := 2, maxCount := 3 } sampleInput).1 _ decode_sampleInput
  refine ⟨hmore, ?_, ?_⟩
  . obtain ⟨fault, before, _, _, herr, hkind, _, hle, _, hoffset⟩ := hcut 52 (by decide)
    exact ⟨fault, herr, hkind, by omega⟩
  . exact (decode_depends_on_consumed {} (Header.signature ++ [0x53])).2 _ rfl (by decide)

end Chunk
end LuaBytecode
