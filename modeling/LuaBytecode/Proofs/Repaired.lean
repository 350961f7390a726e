import Mathlib
import LuaBytecode.Proofs.RoundTrip

/-!
Repaired text. `Repairs` says what repair is without saying how it is done: the encodings of characters stay
as they are, and of the other bytes each run that is as long as can be becomes one U+FFFD. `repair` is the
only way to do that, and a string is read as the repair of its bytes.
-/

namespace LuaBytecode
namespace Utf8

def StartsStray (bytes : Bytes) : Prop :=
  ∀ c : Char, ¬String.utf8EncodeChar c <+: bytes

def AllStray (run rest : Bytes) : Prop :=
  ∀ before b after, run = before ++ b :: after → StartsStray (b :: (after ++ rest))

/--
The second text is the first in which each run of stray bytes that cannot be made longer is replaced by one
U+FFFD. The encodings of characters are kept.
-/
inductive Repairs : Bytes → Bytes → Prop
  | text (kept : String) : Repairs (utf8 kept) (utf8 kept)
  | run (kept : String) {run rest repaired : Bytes} (hne : run ≠ []) (hstray : AllStray run rest)
      (hend : rest = [] ∨ ¬StartsStray rest) (hrest : Repairs rest repaired) :
    Repairs (utf8 kept ++ (run ++ rest)) (utf8 kept ++ (replacement ++ repaired))

theorem encodes_ne_nil (c : Char) : String.utf8EncodeChar c ≠ [] := by
  obtain ⟨b, tail, h, _⟩ := first_of_encodes [] (encodes_utf8EncodeChar c)
  rw [h]
  exact List.cons_ne_nil b tail

theorem first_of_startsStray {b : UInt8} {rest : Bytes} (h : StartsStray (b :: rest)) :
    first b rest = .stray b := by
  have hbytes := first_bytes_append b rest
  cases hfirst : first b rest with
  | scalar code encoding =>
    rw [hfirst, Segment.bytes] at hbytes
    have hencoding := utf8EncodeChar_of_encodes (encodes_of_first hfirst)
    refine absurd ?_ (h (Char.ofNat code))
    rw [hencoding, ← hbytes]
    exact List.prefix_append _ _
  | stray byte =>
    rw [hfirst, Segment.bytes] at hbytes
    rw [(List.cons.inj hbytes).1]

theorem exists_char_of_not_startsStray {bytes : Bytes} (h : ¬StartsStray bytes) :
    ∃ c rest, bytes = String.utf8EncodeChar c ++ rest := by
  simp only [StartsStray, not_forall, not_not] at h
  obtain ⟨c, rest, h⟩ := h
  exact ⟨c, rest, h.symm⟩

theorem segments_char (c : Char) (rest : Bytes)
    : segments (String.utf8EncodeChar c ++ rest)
        =
      .scalar c.toNat (String.utf8EncodeChar c) :: segments rest :=
  segments_append_of_encodes rest (encodes_utf8EncodeChar c)

theorem segments_stray {b : UInt8} {rest : Bytes} (h : StartsStray (b :: rest)) :
    segments (b :: rest) = .stray b :: segments rest := by
  rw [segments_cons, first_of_startsStray h]
  rfl

theorem AllStray.cons_iff {b : UInt8} {run rest : Bytes} :
    AllStray (b :: run) rest ↔ StartsStray (b :: (run ++ rest)) ∧ AllStray run rest := by
  constructor
  . intro h
    refine ⟨h [] b run rfl, ?_⟩
    rintro before b' after rfl
    exact h (b :: before) b' after rfl
  . rintro ⟨hfirst, hrun⟩ before b' after heq
    cases before with
    | nil =>
      obtain ⟨rfl, rfl⟩ := List.cons.inj heq
      exact hfirst
    | cons _ before => exact hrun before b' after (List.cons.inj heq).2

theorem segments_run {run rest : Bytes} (h : AllStray run rest) :
    segments (run ++ rest) = run.map Segment.stray ++ segments rest := by
  induction run with
  | nil => rfl
  | cons b run ih =>
    rw [AllStray.cons_iff] at h
    rw [List.cons_append, segments_stray h.1, ih h.2]
    rfl

theorem repair_text_append (kept : String) (rest : Bytes) :
    repair (utf8 kept ++ rest) = utf8 kept ++ repair rest := by
  rw [utf8]
  induction kept.toList with
  | nil => rfl
  | cons c chars ih =>
    rw [List.flatMap_cons, List.append_assoc, List.append_assoc, ← ih, repair, segments_char]
    rfl

theorem repair.go_strays (run : Bytes) (segs : List Segment) :
    repair.go true (run.map Segment.stray ++ segs) = repair.go true segs := by
  induction run with
  | nil => rfl
  | cons b run ih => exact ih

theorem repair.go_of_end {rest : Bytes} (hend : rest = [] ∨ ¬StartsStray rest) :
    repair.go true (segments rest) = repair.go false (segments rest) := by
  cases hend with
  | inl hnil => rw [hnil]; rfl
  | inr hchar =>
    obtain ⟨c, rest, rfl⟩ := exists_char_of_not_startsStray hchar
    rw [segments_char]
    rfl

theorem repair_run_append {run rest : Bytes} (hne : run ≠ []) (hstray : AllStray run rest)
    (hend : rest = [] ∨ ¬StartsStray rest) : repair (run ++ rest) = replacement ++ repair rest := by
  obtain ⟨b, run, rfl⟩ := List.exists_cons_of_ne_nil hne
  rw [repair, segments_run hstray, List.map_cons, List.cons_append, repair.go, if_neg (by decide),
    repair.go_strays, repair.go_of_end hend, List.flatten_cons]
  rfl

theorem exists_run (bytes : Bytes)
    : ∃ run rest, bytes = run ++ rest ∧ AllStray run rest ∧ (rest = [] ∨ ¬StartsStray rest) := by
  induction bytes with
  | nil => exact ⟨[], [], rfl, by rintro before b after h; simp at h, .inl rfl⟩
  | cons b bytes ih =>
    by_cases h : StartsStray (b :: bytes)
    . obtain ⟨run, rest, rfl, hstray, hend⟩ := ih
      exact ⟨b :: run, rest, rfl, AllStray.cons_iff.mpr ⟨h, hstray⟩, hend⟩
    . exact ⟨[], b :: bytes, rfl, by rintro before b after h; simp at h, .inr h⟩

theorem exists_text (bytes : Bytes)
    : ∃ kept rest, bytes = utf8 kept ++ rest ∧ (rest = [] ∨ StartsStray rest) := by
  induction hn : bytes.length using Nat.strongRecOn generalizing bytes with
  | ind n ih =>
    by_cases h : StartsStray bytes
    . exact ⟨"", bytes, rfl, .inr h⟩
    . obtain ⟨c, more, rfl⟩ := exists_char_of_not_startsStray h
      have hpos := List.length_pos_of_ne_nil (encodes_ne_nil c)
      rw [List.length_append] at hn
      obtain ⟨kept, rest, rfl, hrest⟩ := ih more.length (by omega) more rfl
      refine ⟨String.ofList (c :: kept.toList), rest, ?_, hrest⟩
      rw [utf8, utf8, String.toList_ofList, List.flatMap_cons, List.append_assoc]

theorem repairs_repair (bytes : Bytes) : Repairs bytes (repair bytes) := by
  induction hn : bytes.length using Nat.strongRecOn generalizing bytes with
  | ind n ih =>
    obtain ⟨kept, more, rfl, hmore⟩ := exists_text bytes
    rw [repair_text_append]
    obtain ⟨run, rest, rfl, hstray, hend⟩ := exists_run more
    cases run with
    | nil =>
      -- Neither a character nor a stray byte follows the text.
      have hnil : rest = [] := by tauto
      rw [hnil, List.nil_append, repair_of_isText isText_nil, List.append_nil]
      exact .text kept
    | cons b run =>
      have hne := List.cons_ne_nil b run
      rw [repair_run_append hne hstray hend]
      refine .run kept hne hstray hend (ih rest.length ?_ rest rfl)
      simp at hn
      omega

theorem repair_of_repairs {bytes repaired : Bytes} (h : Repairs bytes repaired) :
    repair bytes = repaired := by
  induction h with
  | text kept => exact repair_of_isText ⟨kept, rfl⟩
  | run kept hne hstray hend _ ih =>
    rw [repair_text_append, repair_run_append hne hstray hend, ih]

theorem repairs_iff {bytes repaired : Bytes} : Repairs bytes repaired ↔ repaired = repair bytes := by
  constructor
  . intro h
    exact (repair_of_repairs h).symm
  . rintro rfl
    exact repairs_repair bytes

theorem repair_eq_iff {bytes : Bytes} : repair bytes = bytes ↔ IsText bytes := by
  constructor
  . intro h
    rw [← h]
    exact isText_repair bytes
  . exact repair_of_isText

end Utf8

namespace ReadM

open Utf8

theorem string?_of_groups (o : Nat) (p : Platform) {groups s : Bytes} (rest : Bytes)
    (hgroups : Varint.Spells groups (s.length + 1)) (hlength : s.length + 1 < 0x8000000000000000)
    : string? ⟨o, groups ++ s ++ rest, p⟩
        =
      .ok (some (repair s)) ⟨o + (groups ++ s).length, rest, p⟩ := by
  apply (string?_reads (Nat.zero_le o)).eq_ok_of_spells rest
  exact Format.Spells.map (Format.spells_rawString hgroups hlength) rfl

theorem string?_of_zero (o : Nat) (p : Platform) {groups : Bytes} (rest : Bytes)
    (hgroups : Varint.Spells groups 0) :
    string? ⟨o, groups ++ rest, p⟩ = .ok none ⟨o + groups.length, rest, p⟩ := by
  apply (string?_reads (Nat.zero_le o)).eq_ok_of_spells rest
  exact Format.Spells.map (Format.spells_absent hgroups) rfl

/--
A string is read as the repair of its bytes, which is a valid text and is not repaired again, and the reader
goes on behind the bytes. Sizes have at most 63 bits. A size of zero is that of no string.
-/
theorem string?_repairs (o : Nat) (p : Platform) (rest : Bytes)
    : (∀ groups s, Varint.Spells groups (s.length + 1) → s.length + 1 < 0x8000000000000000 →
        ∃ text,
          string? ⟨o, groups ++ s ++ rest, p⟩ = .ok (some text) ⟨o + (groups ++ s).length, rest, p⟩
            ∧ IsText text
            ∧ (text = s ↔ IsText s)
            ∧ (∀ repaired, Repairs s repaired ↔ repaired = text)
            ∧ (text.length + 1 < 0x8000000000000000 →
                string? ⟨o, Bytes.ofString text ++ rest, p⟩
                  = .ok (some text) ⟨o + (Bytes.ofString text).length, rest, p⟩))
      ∧ ∀ groups, Varint.Spells groups 0 →
          string? ⟨o, groups ++ rest, p⟩ = .ok none ⟨o + groups.length, rest, p⟩ := by
  constructor
  . intro groups s hgroups hlength
    refine ⟨repair s, string?_of_groups o p rest hgroups hlength, isText_repair s, repair_eq_iff,
      fun _ => repairs_iff, ?_⟩
    intro htext
    have hspells := Bytes.spells_ofVarint ((repair s).length + 1) (by omega)
    have hread := string?_of_groups o p rest hspells htext
    rw [repair_of_isText (isText_repair s)] at hread
    exact hread
  . intro groups hgroups
    exact string?_of_zero o p rest hgroups

def strayText : Bytes :=
  [0x61, 0xff, 0xe2, 0x82, 0x62]

theorem string?_repairs_strayText
    : string? ⟨0, [0x86] ++ strayText ++ [0x80], {}⟩ = .ok (some (utf8 "a\ufffdb")) ⟨6, [0x80], {}⟩
        ∧ Repairs strayText (utf8 "a\ufffdb")
        ∧ ¬IsText strayText
        ∧ string? ⟨0, Bytes.ofString (utf8 "a\ufffdb") ++ [0x80], {}⟩
            = .ok (some (utf8 "a\ufffdb"))
                ⟨0 + (Bytes.ofString (utf8 "a\ufffdb")).length, [0x80], {}⟩
        ∧ string? ⟨0, [0x80] ++ [0x80], {}⟩ = .ok none ⟨1, [0x80], {}⟩ := by
  have hread : string? ⟨0, [0x86] ++ strayText ++ [0x80], {}⟩
      = .ok (some (utf8 "a\ufffdb")) ⟨6, [0x80], {}⟩ := rfl
  have hsix : Varint.Spells [0x86] (strayText.length + 1) :=
    ⟨Varint.isComplete_singleton.mpr (by decide), rfl, by decide⟩
  have hzero : Varint.Spells [0x80] 0 :=
    ⟨Varint.isComplete_singleton.mpr (by decide), rfl, by decide⟩
  obtain ⟨hstrings, habsent⟩ := string?_repairs 0 {} [0x80]
  obtain ⟨text, hok, _, hkept, hrepairs, hwritten⟩ := hstrings [0x86] strayText hsix (by decide)
  rw [hread] at hok
  cases hok
  refine ⟨hread, (hrepairs _).mpr rfl, ?_, hwritten (by decide), habsent [0x80] hzero⟩
  rw [← hkept]
  decide

end ReadM

end LuaBytecode
