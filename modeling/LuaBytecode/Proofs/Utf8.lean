import Mathlib
import LuaBytecode.Text.Utf8

/-!
The bytes that `isValid` accepts are exactly those of a text. Between the two stands the table of
encodings `Encodes`: `first` finds an encoding wherever one stands, and each encoding is that of a
character. It follows that repaired text is valid and that valid text needs no repair.
-/

namespace LuaBytecode
namespace Utf8

inductive Encodes : Nat → Bytes → Prop
  | one {b : UInt8} (h : b.toNat < 0x80) : Encodes b.toNat [b]
  | two {b₀ b₁ : UInt8} (h₀ : 0xc2 ≤ b₀.toNat ∧ b₀.toNat ≤ 0xdf) (h₁ : isTail b₁) :
    Encodes ((b₀.toNat - 0xc0) * 64 + tailBits b₁) [b₀, b₁]
  | three {b₀ b₁ b₂ : UInt8} (h₁ : isTripleStart b₀ b₁) (h₂ : isTail b₂) :
    Encodes ((b₀.toNat - 0xe0) * 4096 + tailBits b₁ * 64 + tailBits b₂) [b₀, b₁, b₂]
  | four {b₀ b₁ b₂ b₃ : UInt8} (h₁ : isQuadStart b₀ b₁) (h₂ : isTail b₂) (h₃ : isTail b₃) :
    Encodes ((b₀.toNat - 0xf0) * 262144 + tailBits b₁ * 4096 + tailBits b₂ * 64 + tailBits b₃)
      [b₀, b₁, b₂, b₃]

theorem Encodes.of_eq {code code' : Nat} {encoding : Bytes} (h : Encodes code encoding)
    (hcode : code = code') : Encodes code' encoding := by
  rwa [← hcode]

theorem between_iff {low high b : UInt8} :
    (low ≤ b && b ≤ high) = true ↔ low.toNat ≤ b.toNat ∧ b.toNat ≤ high.toNat := by
  simp only [Bool.and_eq_true, decide_eq_true_eq, UInt8.le_iff_toNat_le]

theorem isTail_iff {b : UInt8} : isTail b ↔ 0x80 ≤ b.toNat ∧ b.toNat ≤ 0xbf :=
  between_iff

theorem isTripleStart_iff {b₀ b₁ : UInt8}
    : isTripleStart b₀ b₁
        ↔
      0xe0 ≤ b₀.toNat ∧ b₀.toNat ≤ 0xef ∧ 0x80 ≤ b₁.toNat ∧ b₁.toNat ≤ 0xbf
        ∧ (b₀.toNat = 0xe0 → 0xa0 ≤ b₁.toNat) ∧ (b₀.toNat = 0xed → b₁.toNat ≤ 0x9f) := by
  simp only [isTripleStart, beq_iff_eq, ← UInt8.toNat_inj, UInt8.reduceToNat]
  split
  . simp only [between_iff, UInt8.reduceToNat]
    omega
  . split
    . simp only [between_iff, UInt8.reduceToNat]
      omega
    . rw [Bool.and_eq_true, between_iff, isTail_iff]
      simp only [UInt8.reduceToNat]
      omega

theorem isQuadStart_iff {b₀ b₁ : UInt8}
    : isQuadStart b₀ b₁
        ↔
      0xf0 ≤ b₀.toNat ∧ b₀.toNat ≤ 0xf4 ∧ 0x80 ≤ b₁.toNat ∧ b₁.toNat ≤ 0xbf
        ∧ (b₀.toNat = 0xf0 → 0x90 ≤ b₁.toNat) ∧ (b₀.toNat = 0xf4 → b₁.toNat ≤ 0x8f) := by
  simp only [isQuadStart, beq_iff_eq, ← UInt8.toNat_inj, UInt8.reduceToNat]
  split
  . simp only [between_iff, UInt8.reduceToNat]
    omega
  . split
    . simp only [between_iff, UInt8.reduceToNat]
      omega
    . rw [Bool.and_eq_true, between_iff, isTail_iff]
      simp only [UInt8.reduceToNat]
      omega

theorem encodes_of_first {b : UInt8} {rest encoding : Bytes} {code : Nat}
    (h : first b rest = .scalar code encoding) : Encodes code encoding := by
  unfold first at h
  split at h
  . next hb =>
    cases h
    exact .one (UInt8.lt_iff_toNat_lt.mp hb)
  . split at h
    . cases h
    . split at h
      . next hpair =>
        rw [Segment.scalar.injEq] at h
        obtain ⟨rfl, rfl⟩ := h
        rw [Bool.and_eq_true, between_iff] at hpair
        exact .two hpair.1 hpair.2
      . split at h
        . cases h
        . split at h
          . next htriple =>
            rw [Segment.scalar.injEq] at h
            obtain ⟨rfl, rfl⟩ := h
            rw [Bool.and_eq_true] at htriple
            exact .three htriple.1 htriple.2
          . split at h
            . cases h
            . split at h
              . next hquad =>
                rw [Segment.scalar.injEq] at h
                obtain ⟨rfl, rfl⟩ := h
                rw [Bool.and_eq_true, Bool.and_eq_true] at hquad
                exact .four hquad.1.1 hquad.1.2 hquad.2
              . cases h

theorem first_of_encodes {encoding : Bytes} {code : Nat} (rest : Bytes)
    (h : Encodes code encoding) :
    ∃ b tail, encoding = b :: tail ∧ first b (tail ++ rest) = .scalar code encoding := by
  -- The ranges of the first byte are disjoint, so that no earlier test of `first` succeeds.
  cases h with
  | @one b h =>
    have hsmall : b < 0x80 := UInt8.lt_iff_toNat_lt.mpr h
    exact ⟨b, [], rfl, by simp [first, hsmall]⟩
  | @two b₀ b₁ h₀ h₁ =>
    have hlower : 0xc2 ≤ b₀ := UInt8.le_iff_toNat_le.mpr h₀.1
    have hupper : b₀ ≤ 0xdf := UInt8.le_iff_toNat_le.mpr h₀.2
    have hone : ¬b₀ < 0x80 := UInt8.not_lt.mpr (UInt8.le_trans (by decide) hlower)
    exact ⟨b₀, [b₁], rfl, by simp [first, hone, hlower, hupper, h₁]⟩
  | @three b₀ b₁ b₂ h₁ h₂ =>
    have hlower : 0xe0 ≤ b₀ := UInt8.le_iff_toNat_le.mpr (isTripleStart_iff.mp h₁).1
    have hone : ¬b₀ < 0x80 := UInt8.not_lt.mpr (UInt8.le_trans (by decide) hlower)
    have htwo : ¬b₀ ≤ 0xdf := UInt8.not_le.mpr (UInt8.lt_of_lt_of_le (by decide) hlower)
    exact ⟨b₀, [b₁, b₂], rfl, by simp [first, hone, htwo, h₁, h₂]⟩
  | @four b₀ b₁ b₂ b₃ h₁ h₂ h₃ =>
    have hstart := isQuadStart_iff.mp h₁
    have hlower : 0xf0 ≤ b₀ := UInt8.le_iff_toNat_le.mpr hstart.1
    have hone : ¬b₀ < 0x80 := UInt8.not_lt.mpr (UInt8.le_trans (by decide) hlower)
    have htwo : ¬b₀ ≤ 0xdf := UInt8.not_le.mpr (UInt8.lt_of_lt_of_le (by decide) hlower)
    have hthree : ¬isTripleStart b₀ b₁ := by
      rw [isTripleStart_iff]
      omega
    exact ⟨b₀, [b₁, b₂, b₃], rfl, by simp [first, hone, htwo, hthree, h₁, h₂, h₃]⟩

theorem isValidChar_of_encodes {encoding : Bytes} {code : Nat} (h : Encodes code encoding) :
    code.isValidChar := by
  unfold Nat.isValidChar
  cases h with
  | one h => omega
  | two h₀ h₁ =>
    rw [isTail_iff] at h₁
    unfold tailBits
    omega
  | three h₁ h₂ =>
    rw [isTripleStart_iff] at h₁
    rw [isTail_iff] at h₂
    unfold tailBits
    omega
  | four h₁ h₂ h₃ =>
    rw [isQuadStart_iff] at h₁
    rw [isTail_iff] at h₂ h₃
    unfold tailBits
    omega

theorem utf8EncodeChar_of_encodes {encoding : Bytes} {code : Nat} (h : Encodes code encoding) :
    String.utf8EncodeChar (Char.ofNat code) = encoding := by
  have hcode : (Char.ofNat code).val.toNat = code := by
    rw [Char.ofNat, dif_pos (isValidChar_of_encodes h)]
    rfl
  unfold String.utf8EncodeChar
  rw [hcode]
  clear hcode
  cases h with
  | one h =>
    rw [if_pos (Nat.le_of_lt_succ h)]
    simp
  | two h₀ h₁ =>
    rw [isTail_iff] at h₁
    unfold tailBits
    rw [if_neg (by omega), if_pos (by omega)]
    simp only [List.cons.injEq, ← UInt8.toNat_inj, UInt8.toNat_ofNat', and_true]
    omega
  | three h₁ h₂ =>
    rw [isTripleStart_iff] at h₁
    rw [isTail_iff] at h₂
    unfold tailBits
    rw [if_neg (by omega), if_neg (by omega), if_pos (by omega)]
    simp only [List.cons.injEq, ← UInt8.toNat_inj, UInt8.toNat_ofNat', and_true]
    omega
  | four h₁ h₂ h₃ =>
    rw [isQuadStart_iff] at h₁
    rw [isTail_iff] at h₂ h₃
    unfold tailBits
    rw [if_neg (by omega), if_neg (by omega), if_neg (by omega)]
    simp only [List.cons.injEq, ← UInt8.toNat_inj, UInt8.toNat_ofNat', and_true]
    omega

theorem encodes_utf8EncodeChar (c : Char) : Encodes c.toNat (String.utf8EncodeChar c) := by
  have hvalid : c.toNat < 0xd800 ∨ 0xdfff < c.toNat ∧ c.toNat < 0x110000 := c.valid
  unfold String.utf8EncodeChar
  rw [Char.toNat_val]
  generalize c.toNat = code at hvalid ⊢
  dsimp only
  split
  . refine .of_eq (.one ?_) ?_
    . simp only [UInt8.toNat_ofNat']
      omega
    . simp only [UInt8.toNat_ofNat']
      omega
  . split
    . refine .of_eq (.two ?_ ?_) ?_
      . simp only [UInt8.toNat_ofNat']
        omega
      . simp only [isTail_iff, UInt8.toNat_ofNat']
        omega
      . unfold tailBits
        simp only [UInt8.toNat_ofNat']
        omega
    . split
      . refine .of_eq (.three ?_ ?_) ?_
        . simp only [isTripleStart_iff, UInt8.toNat_ofNat']
          omega
        . simp only [isTail_iff, UInt8.toNat_ofNat']
          omega
        . unfold tailBits
          simp only [UInt8.toNat_ofNat']
          omega
      . refine .of_eq (.four ?_ ?_ ?_) ?_
        . simp only [isQuadStart_iff, UInt8.toNat_ofNat']
          omega
        . simp only [isTail_iff, UInt8.toNat_ofNat']
          omega
        . simp only [isTail_iff, UInt8.toNat_ofNat']
          omega
        . unfold tailBits
          simp only [UInt8.toNat_ofNat']
          omega

theorem encode_toNat (c : Char) : encode c.toNat = String.utf8EncodeChar c := by
  have hvalid : c.toNat < 0xd800 ∨ 0xdfff < c.toNat ∧ c.toNat < 0x110000 := c.valid
  unfold encode String.utf8EncodeChar
  rw [Char.toNat_val]
  generalize c.toNat = code at hvalid ⊢
  simp only [← Nat.lt_succ_iff]
  split
  . rfl
  . split
    . simp only [List.cons.injEq, ← UInt8.toNat_inj, UInt8.toNat_ofNat', and_true]
      omega
    . split
      . simp only [List.cons.injEq, ← UInt8.toNat_inj, UInt8.toNat_ofNat', and_true]
        omega
      . simp only [List.cons.injEq, ← UInt8.toNat_inj, UInt8.toNat_ofNat', and_true]
        omega

theorem encode_of_encodes {encoding : Bytes} {code : Nat} (h : Encodes code encoding) :
    encode code = encoding := by
  have hcode : (Char.ofNat code).toNat = code := by
    rw [Char.toNat_ofNat, if_pos (isValidChar_of_encodes h)]
  rw [← utf8EncodeChar_of_encodes h, ← encode_toNat, hcode]

theorem Encodes.eq_or_le {encoding : Bytes} {code : Nat} {b : UInt8} (h : Encodes code encoding)
    (hmem : b ∈ encoding) : b.toNat = code ∨ 0x80 ≤ b.toNat := by
  cases h with
  | one h =>
    rw [List.mem_singleton] at hmem
    exact .inl (congrArg UInt8.toNat hmem)
  | two h₀ h₁ =>
    rw [isTail_iff] at h₁
    simp only [List.mem_cons, List.not_mem_nil, or_false] at hmem
    rcases hmem with rfl | rfl <;> omega
  | three h₁ h₂ =>
    rw [isTripleStart_iff] at h₁
    rw [isTail_iff] at h₂
    simp only [List.mem_cons, List.not_mem_nil, or_false] at hmem
    rcases hmem with rfl | rfl | rfl <;> omega
  | four h₁ h₂ h₃ =>
    rw [isQuadStart_iff] at h₁
    rw [isTail_iff] at h₂ h₃
    simp only [List.mem_cons, List.not_mem_nil, or_false] at hmem
    rcases hmem with rfl | rfl | rfl | rfl <;> omega

theorem first_bytes (b : UInt8) (rest : Bytes)
    : (first b rest).bytes = b :: rest.take ((first b rest).bytes.length - 1) := by
  unfold first
  split
  . simp [Segment.bytes]
  . split
    . simp [Segment.bytes]
    . split
      . simp [Segment.bytes]
      . split
        . simp [Segment.bytes]
        . split
          . simp [Segment.bytes]
          . split
            . simp [Segment.bytes]
            . split <;> simp [Segment.bytes]

theorem first_bytes_append (b : UInt8) (rest : Bytes)
    : (first b rest).bytes ++ rest.drop ((first b rest).bytes.length - 1) = b :: rest := by
  have h := first_bytes b rest
  generalize (first b rest).bytes = covered at h ⊢
  calc covered ++ rest.drop (covered.length - 1)
    _ = b :: rest.take (covered.length - 1) ++ rest.drop (covered.length - 1) := by rw [← h]
    _ = b :: rest := by simp

theorem segments.go_eq (done : List Segment) (skip : Nat) (bytes : Bytes) :
    segments.go done skip bytes = done.reverse ++ segments (bytes.drop skip) := by
  induction bytes generalizing done skip with
  | nil => simp [segments, segments.go]
  | cons b rest ih =>
    cases skip with
    | zero =>
      rw [List.drop_zero, segments, segments.go, segments.go, ih, ih [_]]
      simp
    | succ skip =>
      rw [segments.go, ih, List.drop_succ_cons]

theorem segments_cons (b : UInt8) (rest : Bytes)
    : segments (b :: rest)
        =
      first b rest :: segments (rest.drop ((first b rest).bytes.length - 1)) := by
  rw [segments, segments.go, segments.go_eq]
  simp

theorem segments_nil : segments [] = [] := by
  rfl

theorem flatMap_segments (bytes : Bytes) : (segments bytes).flatMap Segment.bytes = bytes := by
  induction hn : bytes.length using Nat.strongRecOn generalizing bytes with
  | ind n ih =>
    cases bytes with
    | nil => simp [segments_nil]
    | cons b rest =>
      rw [segments_cons, List.flatMap_cons, ih _ _ _ rfl, first_bytes_append]
      simp at hn ⊢
      omega

theorem encodes_of_mem_segments {bytes encoding : Bytes} {code : Nat}
    (h : .scalar code encoding ∈ segments bytes) : Encodes code encoding := by
  induction hn : bytes.length using Nat.strongRecOn generalizing bytes with
  | ind n ih =>
    cases bytes with
    | nil => simp [segments_nil] at h
    | cons b rest =>
      rw [segments_cons] at h
      cases List.mem_cons.mp h with
      | inl hfirst => exact encodes_of_first hfirst.symm
      | inr hrest =>
        refine ih _ ?_ hrest rfl
        simp at hn ⊢
        omega

theorem segments_append_of_encodes {encoding : Bytes} {code : Nat} (rest : Bytes)
    (h : Encodes code encoding) :
    segments (encoding ++ rest) = .scalar code encoding :: segments rest := by
  obtain ⟨b, tail, rfl, hfirst⟩ := first_of_encodes rest h
  rw [List.cons_append, segments_cons, hfirst]
  simp [Segment.bytes]

def IsText (bytes : Bytes) : Prop :=
  ∃ text : String, bytes = utf8 text

theorem isText_nil : IsText [] :=
  ⟨"", rfl⟩

theorem IsText.cons {encoding rest : Bytes} {code : Nat} (h : Encodes code encoding)
    (hrest : IsText rest) : IsText (encoding ++ rest) := by
  obtain ⟨text, rfl⟩ := hrest
  refine ⟨String.ofList (Char.ofNat code :: text.toList), ?_⟩
  rw [utf8, utf8, String.toList_ofList, List.flatMap_cons, utf8EncodeChar_of_encodes h]

theorem isText_flatMap_bytes {segs : List Segment} (hscalar : segs.all Segment.isScalar = true)
    (hsegs : ∀ code encoding, .scalar code encoding ∈ segs → Encodes code encoding) :
    IsText (segs.flatMap Segment.bytes) := by
  induction segs with
  | nil => exact isText_nil
  | cons seg segs ih =>
    rw [List.all_cons, Bool.and_eq_true] at hscalar
    cases seg with
    | scalar code encoding =>
      rw [List.flatMap_cons]
      apply IsText.cons (hsegs code encoding (List.mem_cons_self ..))
      exact ih hscalar.2 fun code encoding hmem =>
        hsegs code encoding (List.mem_cons_of_mem _ hmem)
    | stray byte => simp [Segment.isScalar] at hscalar

theorem isValid_flatMap_utf8EncodeChar (chars : List Char) :
    isValid (chars.flatMap String.utf8EncodeChar) = true := by
  induction chars with
  | nil => rfl
  | cons c chars ih =>
    rw [isValid] at ih ⊢
    rw [List.flatMap_cons, segments_append_of_encodes _ (encodes_utf8EncodeChar c), List.all_cons, ih]
    rfl

theorem isValid_iff_isText {bytes : Bytes} : isValid bytes = true ↔ IsText bytes := by
  constructor
  . intro h
    rw [← flatMap_segments bytes]
    exact isText_flatMap_bytes h fun _ _ => encodes_of_mem_segments
  . rintro ⟨text, rfl⟩
    exact isValid_flatMap_utf8EncodeChar text.toList

theorem encodes_replacement : Encodes 0xfffd replacement :=
  .of_eq (.three (by decide) (by decide)) (by decide)

theorem repair.isText_go {segs : List Segment} (inRun : Bool)
    (hsegs : ∀ code encoding, .scalar code encoding ∈ segs → Encodes code encoding) :
    IsText (repair.go inRun segs).flatten := by
  induction segs generalizing inRun with
  | nil => exact isText_nil
  | cons seg segs ih =>
    have ih' := fun inRun => ih inRun fun code encoding hmem =>
      hsegs code encoding (List.mem_cons_of_mem _ hmem)
    cases seg with
    | scalar code encoding =>
      rw [repair.go, List.flatten_cons]
      exact .cons (hsegs code encoding (List.mem_cons_self ..)) (ih' false)
    | stray byte =>
      rw [repair.go]
      split
      . exact ih' true
      . rw [List.flatten_cons]
        exact .cons encodes_replacement (ih' true)

theorem isText_repair (bytes : Bytes) : IsText (repair bytes) :=
  repair.isText_go false fun _ _ => encodes_of_mem_segments

theorem repair.go_of_all_isScalar {segs : List Segment} (inRun : Bool)
    (h : segs.all Segment.isScalar = true) :
    (repair.go inRun segs).flatten = segs.flatMap Segment.bytes := by
  induction segs generalizing inRun with
  | nil => rfl
  | cons seg segs ih =>
    rw [List.all_cons, Bool.and_eq_true] at h
    cases seg with
    | scalar code encoding =>
      rw [repair.go, List.flatten_cons, ih false h.2, List.flatMap_cons, Segment.bytes]
    | stray byte => simp [Segment.isScalar] at h

theorem repair_of_isText {bytes : Bytes} (h : IsText bytes) : repair bytes = bytes := by
  rw [repair, repair.go_of_all_isScalar false (isValid_iff_isText.mpr h), flatMap_segments]

theorem repair_unless_valid (bytes : Bytes) :
    (if isValid bytes then bytes else repair bytes) = repair bytes := by
  split
  . next h => exact (repair_of_isText (isValid_iff_isText.mp h)).symm
  . rfl

end Utf8
end LuaBytecode
