import Mathlib
import LuaBytecode.Chunk.Name

/-!
Abbreviated names. `Abbreviates` says what the short form of a name is, for each of the three kinds of names,
and `abbreviate` gives the only text that is one. The same text comes out where every piece of a name is taken
by its bounds, so that none of these bounds is outside of the name.
-/

namespace LuaBytecode
namespace ChunkName

def newline : UInt8 :=
  Bytes.ofChar '\n'

inductive IsFirstLine (line : Bytes) : (text : Bytes) → Prop
  | only (h : newline ∉ line) : IsFirstLine line line
  | before (rest : Bytes) (h : newline ∉ line) : IsFirstLine line (line ++ newline :: rest)

/--
What is shown of a program text: a short line as it is, and of everything else the first line up to 45 bytes.
-/
structure IsExcerpt (text part : Bytes) : Prop where
  eq_text_iff : part = text ↔ newline ∉ text ∧ text.length ≤ 48
  cut : part ≠ text →
    ∃ line,
      IsFirstLine line text
        ∧ part = (if line.length ≤ 45 then line else line.take 45) ++ utf8 "..."

structure IsProgramText (name : Bytes) : Prop where
  notDescription : name.head? ≠ some (Bytes.ofChar '=')
  notFile : name.head? ≠ some (Bytes.ofChar '@')

structure Abbreviates (name shown : Bytes) : Prop where
  length_le : shown.length ≤ 59
  description : ∀ text, name = Bytes.ofChar '=' :: text →
    shown = if text.length ≤ 59 then text else text.take 59
  file : ∀ file, name = Bytes.ofChar '@' :: file →
    if file.length ≤ 59 then
      shown = file
    else
      shown.length = 59 ∧ ∃ tail, tail <:+ file ∧ shown = utf8 "..." ++ tail
  programText : IsProgramText name →
    newline ∉ shown
      ∧ ∃ part, shown = utf8 "[string \"" ++ part ++ utf8 "\"]" ∧ IsExcerpt name part

theorem IsFirstLine.notMem {line text : Bytes} (h : IsFirstLine line text) : newline ∉ line := by
  cases h with
  | only h => exact h
  | before rest h => exact h

theorem IsFirstLine.eq_iff {line text : Bytes} (h : IsFirstLine line text) :
    line = text ↔ newline ∉ text := by
  cases h with
  | only h => simp [h]
  | before rest h => simp

theorem IsFirstLine.cut_eq {line text : Bytes} (h : IsFirstLine line text)
    : text.cut newline
        =
      (line, if newline ∈ text then some (text.drop (line.length + 1)) else none) := by
  cases h with
  | only h =>
    rw [Bytes.cut_of_notMem h, if_neg h]
  | before rest h =>
    rw [Bytes.cut_append_cons rest h, if_pos (by simp), List.drop_length_add_append]
    rfl

theorem IsFirstLine.unique {line line' text : Bytes} (h : IsFirstLine line text)
    (h' : IsFirstLine line' text) : line = line' := by
  have hcut := h.cut_eq.symm.trans h'.cut_eq
  exact congrArg Prod.fst hcut

theorem exists_isFirstLine (text : Bytes) : ∃ line, IsFirstLine line text := by
  by_cases h : newline ∈ text
  . obtain ⟨line, rest, rfl, hline⟩ := List.eq_append_cons_of_mem h
    exact ⟨line, .before rest hline⟩
  . exact ⟨text, .only h⟩

theorem take_eq_if (bytes : Bytes) (n : Nat) :
    (if bytes.length ≤ n then bytes else bytes.take n) = bytes.take n := by
  split
  . next h => exact (List.take_of_length_le h).symm
  . rfl

def excerpt (text line : Bytes) : Bytes :=
  if newline ∉ text ∧ text.length ≤ 48 then text else line.take 45 ++ utf8 "..."

theorem length_excerpt_le (text line : Bytes) : (excerpt text line).length ≤ 48 := by
  have hellipsis : (utf8 "...").length = 3 := rfl
  unfold excerpt
  split
  . next h => exact h.2
  . rw [List.length_append, List.length_take, hellipsis]
    omega

theorem newline_notMem_excerpt {text line : Bytes} (h : IsFirstLine line text) :
    newline ∉ excerpt text line := by
  unfold excerpt
  split
  . next htext => exact htext.1
  . intro hmem
    cases List.mem_append.mp hmem with
    | inl htake => exact h.notMem (List.mem_of_mem_take htake)
    | inr hellipsis => exact absurd hellipsis (by decide)

theorem isExcerpt_iff {text line part : Bytes} (h : IsFirstLine line text) :
    IsExcerpt text part ↔ part = excerpt text line := by
  by_cases htext : newline ∉ text ∧ text.length ≤ 48
  . rw [excerpt, if_pos htext]
    constructor
    . intro hpart
      exact hpart.eq_text_iff.mpr htext
    . rintro rfl
      exact ⟨by simp [htext], by simp⟩
  . rw [excerpt, if_neg htext]
    constructor
    . intro hpart
      obtain ⟨line', hline', rfl⟩ := hpart.cut (mt hpart.eq_text_iff.mp htext)
      rw [take_eq_if, h.unique hline']
    . rintro rfl
      have hne : line.take 45 ++ utf8 "..." ≠ text := by
        rintro rfl
        have hlong := length_excerpt_le (line.take 45 ++ utf8 "...") line
        have hline := newline_notMem_excerpt h
        rw [excerpt, if_neg htext] at hlong hline
        exact htext ⟨hline, hlong⟩
      exact ⟨by simp [hne, htext], fun _ => ⟨line, h, by rw [take_eq_if]⟩⟩

theorem after?_of_head?_ne {first : Char} {name : ChunkName}
    (h : name.head? ≠ some (Bytes.ofChar first)) : name.after? first = none := by
  cases name with
  | nil => rfl
  | cons b rest =>
    rw [List.head?_cons, Ne, Option.some.injEq] at h
    rw [after?, if_neg h]

theorem abbreviate_description (text : Bytes) :
    abbreviate (Bytes.ofChar '=' :: text) = text.take 59 := by
  rfl

theorem abbreviate_file (file : Bytes)
    : abbreviate (Bytes.ofChar '@' :: file)
        =
      if file.length ≤ 59 then file else utf8 "..." ++ file.drop (file.length - 56) := by
  rfl

theorem abbreviate_programText {name : ChunkName} {line : Bytes}
    (hname : IsProgramText name) (hline : IsFirstLine line name)
    : abbreviate name = utf8 "[string \"" ++ excerpt name line ++ utf8 "\"]" := by
  rw [abbreviate, description?, after?_of_head?_ne hname.notDescription, fileName?,
    after?_of_head?_ne hname.notFile]
  have hcut : name.cut (Bytes.ofChar '\n') = _ := hline.cut_eq
  dsimp only
  rw [hcut, excerpt]
  by_cases hmem : newline ∈ name
  . rw [if_pos hmem, if_neg (by simp [hmem])]
    rfl
  . obtain rfl := hline.eq_iff.mpr hmem
    rw [if_neg hmem]
    simp only [hmem, not_false_eq_true, true_and]
    rfl

theorem abbreviates_description_iff {text shown : Bytes} :
    Abbreviates (Bytes.ofChar '=' :: text) shown ↔ shown = text.take 59 := by
  constructor
  . intro h
    rw [h.description text rfl, take_eq_if]
  . rintro rfl
    constructor
    . simp
    . intro text' heq
      rw [take_eq_if, (List.cons.inj heq).2]
    . intro file heq
      exact absurd (List.cons.inj heq).1 (by decide)
    . intro h
      exact absurd rfl h.notDescription

theorem abbreviates_file_iff {file shown : Bytes}
    : Abbreviates (Bytes.ofChar '@' :: file) shown
        ↔
      shown = if file.length ≤ 59 then file else utf8 "..." ++ file.drop (file.length - 56) := by
  have hellipsis : (utf8 "...").length = 3 := rfl
  constructor
  . intro h
    have hfile := h.file file rfl
    split
    . next hshort => rwa [if_pos hshort] at hfile
    . next hlong =>
      rw [if_neg hlong] at hfile
      obtain ⟨hlength, tail, htail, rfl⟩ := hfile
      rw [List.length_append, hellipsis] at hlength
      have hlength : tail.length = 56 := by omega
      rw [← hlength, ← List.suffix_iff_eq_drop.mp htail]
  . rintro rfl
    constructor
    . split
      . assumption
      . rw [List.length_append, List.length_drop, hellipsis]
        omega
    . intro text heq
      exact absurd (List.cons.inj heq).1 (by decide)
    . intro file' heq
      rw [← (List.cons.inj heq).2]
      split
      . rfl
      . refine ⟨?_, _, List.drop_suffix _ _, rfl⟩
        rw [List.length_append, List.length_drop, hellipsis]
        omega
    . intro h
      exact absurd rfl h.notFile

theorem abbreviates_programText_iff {name shown line : Bytes}
    (hname : IsProgramText name) (hline : IsFirstLine line name)
    : Abbreviates name shown ↔ shown = utf8 "[string \"" ++ excerpt name line ++ utf8 "\"]" := by
  constructor
  . intro h
    obtain ⟨_, part, rfl, hpart⟩ := h.programText hname
    rw [(isExcerpt_iff hline).mp hpart]
  . rintro rfl
    constructor
    . have hopening : (utf8 "[string \"").length = 9 := rfl
      have hclosing : (utf8 "\"]").length = 2 := rfl
      have := length_excerpt_le name line
      rw [List.length_append, List.length_append, hopening, hclosing]
      omega
    . rintro text rfl
      exact absurd rfl hname.notDescription
    . rintro file rfl
      exact absurd rfl hname.notFile
    . intro _
      refine ⟨?_, _, rfl, (isExcerpt_iff hline).mpr rfl⟩
      have hopening : newline ∉ utf8 "[string \"" := by decide
      have hclosing : newline ∉ utf8 "\"]" := by decide
      have := newline_notMem_excerpt hline
      simp [*]

structure BadSlice where
  first : Int
  last : Int

def slice (bytes : Bytes) (first last : Int) : Except BadSlice Bytes :=
  if 0 ≤ first ∧ first ≤ last ∧ last ≤ bytes.length then
    .ok ((bytes.take last.toNat).drop first.toNat)
  else
    .error ⟨first, last⟩

def shortenBySlices (line : Bytes) (room : Int) : Except BadSlice Bytes :=
  if room < line.length + ellipsis.length then slice line 0 (room - ellipsis.length) else return line

/--
The short form of a name, where each piece of the name is taken by its bounds.
-/
def abbreviateBySlices (name : ChunkName) : Except BadSlice Bytes :=
  match name.description? with
  | some text =>
    if maxLength < text.length then slice text 0 maxLength else return text
  | none =>
    match name.fileName? with
    | some file =>
      if maxLength < file.length then do
        let tail ← slice file (file.length - (maxLength - ellipsis.length : Int)) file.length
        return ellipsis ++ tail
      else return file
    | none =>
      let opening := utf8 "[string \""
      let closing := utf8 "\"]"
      let room : Int := maxLength - opening.length - closing.length
      let (line, others) := name.cut newline
      if others.isNone && line.length ≤ room then return opening ++ line ++ closing
      else do
        let line ← shortenBySlices line room
        return opening ++ line ++ ellipsis ++ closing

theorem slice_eq_ok {bytes : Bytes} {first last : Int} (hfirst : 0 ≤ first) (hle : first ≤ last)
    (hlast : last ≤ bytes.length)
    : slice bytes first last = .ok ((bytes.take last.toNat).drop first.toNat) := by
  unfold slice
  rw [if_pos ⟨hfirst, hle, hlast⟩]

theorem slice_zero {bytes : Bytes} {n : Nat} (h : n ≤ bytes.length) :
    slice bytes 0 n = .ok (bytes.take n) := by
  rw [slice_eq_ok (by omega) (by omega) (by omega)]
  rfl

theorem abbreviateBySlices_description (text : Bytes) :
    abbreviateBySlices (Bytes.ofChar '=' :: text) = .ok (text.take 59) := by
  change (if 59 < text.length then slice text 0 (59 : Nat) else pure text) = _
  split
  . apply slice_zero
    omega
  . rw [List.take_of_length_le (by omega)]
    rfl

theorem abbreviateBySlices_file (file : Bytes)
    : abbreviateBySlices (Bytes.ofChar '@' :: file)
        =
      .ok (if file.length ≤ 59 then file else utf8 "..." ++ file.drop (file.length - 56)) := by
  change (if 59 < file.length then
    slice file (file.length - 56) file.length >>= fun tail => pure (utf8 "..." ++ tail) else pure file) = _
  split
  . next h =>
    rw [slice_eq_ok (by omega) (by omega) (by omega), if_neg (by omega)]
    have hfirst : ((file.length : Int) - 56).toNat = file.length - 56 := by omega
    rw [Int.toNat_natCast, List.take_length, hfirst]
    rfl
  . next h =>
    rw [if_pos (by omega)]
    rfl

theorem shortenBySlices_eq (line : Bytes) : shortenBySlices line 48 = .ok (line.take 45) := by
  change (if (48 : Int) < line.length + 3 then slice line 0 (45 : Nat) else pure line) = _
  split
  . apply slice_zero
    omega
  . rw [List.take_of_length_le (by omega)]
    rfl

theorem abbreviateBySlices_programText {name line : Bytes}
    (hname : IsProgramText name) (hline : IsFirstLine line name)
    : abbreviateBySlices name = .ok (utf8 "[string \"" ++ excerpt name line ++ utf8 "\"]") := by
  have hroom : (maxLength : Int) - (utf8 "[string \"").length - (utf8 "\"]").length = 48 := rfl
  unfold abbreviateBySlices excerpt
  rw [description?, after?_of_head?_ne hname.notDescription, fileName?,
    after?_of_head?_ne hname.notFile, hline.cut_eq]
  dsimp only
  rw [hroom, shortenBySlices_eq]
  by_cases hmem : newline ∈ name
  . rw [if_pos hmem, if_neg (by simp), if_neg (by simp [hmem])]
    simp [pure, Except.pure, bind, Except.bind, ellipsis]
  . obtain rfl := hline.eq_iff.mpr hmem
    rw [if_neg hmem]
    by_cases hlength : line.length ≤ 48
    . rw [if_pos (by simp [hlength]), if_pos ⟨hmem, hlength⟩]
      rfl
    . rw [if_neg (by simp; omega), if_neg (by simp [hlength])]
      simp [pure, Except.pure, bind, Except.bind, ellipsis]

theorem kind_cases (name : ChunkName)
    : (∃ text, name = Bytes.ofChar '=' :: text)
      ∨ (∃ file, name = Bytes.ofChar '@' :: file)
      ∨ IsProgramText name := by
  cases name with
  | nil => exact .inr (.inr ⟨by simp, by simp⟩)
  | cons b rest =>
    by_cases hdescription : b = Bytes.ofChar '='
    . exact .inl ⟨rest, by rw [hdescription]⟩
    . by_cases hfile : b = Bytes.ofChar '@'
      . exact .inr (.inl ⟨rest, by rw [hfile]⟩)
      . exact .inr (.inr ⟨by simp [hdescription], by simp [hfile]⟩)

/--
The short form of a name is the one text that `Abbreviates` allows, and no bound of its pieces is out of range.
-/
theorem abbreviates_iff_abbreviate (name : ChunkName)
    : (∀ shown, Abbreviates name shown ↔ shown = abbreviate name)
      ∧ abbreviateBySlices name = .ok (abbreviate name) := by
  obtain ⟨text, rfl⟩ | ⟨file, rfl⟩ | hname := kind_cases name
  . rw [abbreviate_description]
    exact ⟨fun _ => abbreviates_description_iff, abbreviateBySlices_description text⟩
  . rw [abbreviate_file]
    exact ⟨fun _ => abbreviates_file_iff, abbreviateBySlices_file file⟩
  . obtain ⟨line, hline⟩ := exists_isFirstLine name
    rw [abbreviate_programText hname hline]
    constructor
    . intro shown
      exact abbreviates_programText_iff hname hline
    . exact abbreviateBySlices_programText hname hline

-- A line of 46 bytes is shown whole only if no other line follows.
example
    : abbreviate (List.replicate 46 0x61)
        = utf8 "[string \"" ++ List.replicate 46 0x61 ++ utf8 "\"]"
      ∧ abbreviate (List.replicate 46 0x61 ++ [0x0a])
        = utf8 "[string \"" ++ List.replicate 45 0x61 ++ utf8 "...\"]" :=
  ⟨rfl, rfl⟩

end ChunkName
end LuaBytecode
