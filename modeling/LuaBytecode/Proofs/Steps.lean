import Mathlib
import LuaBytecode.Proofs.Layout

/-!
Readers keep to the input. Whatever is read in whatever order, also behind a failure, the cursor stays in
the input and never moves back, and a fault lies between the places where its reader started and where it
stopped.
-/

namespace LuaBytecode

open LuaBytecode.Field

def Cursor.Reaches (c c' : Cursor) : Prop :=
  ∃ used, c.rest = used ++ c'.rest ∧ c'.offset = c.offset + used.length

namespace Cursor.Reaches

theorem refl (c : Cursor) : c.Reaches c :=
  ⟨[], rfl, rfl⟩

theorem trans {c c' c'' : Cursor} (h : c.Reaches c') (h' : c'.Reaches c'') : c.Reaches c'' := by
  obtain ⟨used, hrest, hoffset⟩ := h
  obtain ⟨used', hrest', hoffset'⟩ := h'
  refine ⟨used ++ used', ?_, ?_⟩
  . rw [hrest, hrest', List.append_assoc]
  . rw [hoffset', hoffset, List.length_append, Nat.add_assoc]

theorem offset_le {c c' : Cursor} (h : c.Reaches c') : c.offset ≤ c'.offset := by
  obtain ⟨used, _, hoffset⟩ := h
  omega

end Cursor.Reaches

namespace ReadM

def stop (m : ReadM α) (c : Cursor) : Cursor :=
  match m c with
  | .ok _ c' => c'
  | .error _ c' => c'

theorem varint.go_stops (bs : Bytes) (start x o : Nat) (p : Platform) (fault : Fault) (c : Cursor)
    (h : go start x o p bs = .error fault c)
    : fault.offset = start ∧ Cursor.Reaches ⟨o, bs, p⟩ c := by
  induction bs generalizing x o with
  | nil =>
    rw [go] at h
    cases h
    exact ⟨rfl, .refl _⟩
  | cons b bs ih =>
    have hstep : Cursor.Reaches ⟨o, b :: bs, p⟩ ⟨o + 1, bs, p⟩ := ⟨[b], rfl, rfl⟩
    rw [go] at h
    split at h
    . cases h
      exact ⟨rfl, hstep⟩
    . dsimp only at h
      split at h
      . cases h
      . obtain ⟨hoffset, hreaches⟩ := ih _ _ h
        exact ⟨hoffset, hstep.trans hreaches⟩

end ReadM

theorem Reads.stops_of_eq_error {low o : Nat} {p : Platform} {m : ReadM α} {F : Format α}
    {q : α → Platform} (h : Reads low o p m F q)
    : ∀ {input : Bytes} {fault : Fault} {c : Cursor},
        m ⟨o, input, p⟩ = .error fault c
          →
        Cursor.Reaches ⟨o, input, p⟩ c ∧ low ≤ fault.offset ∧ fault.offset ≤ c.offset := by
  induction h with
  | pure a ha =>
    intro input fault c herr
    cases herr
  | fail hlow hhigh =>
    intro input fault c herr
    cases herr
    exact ⟨.refl _, hlow, hhigh⟩
  | bind hfirst _ ihfirst ihrest =>
    rename_i m f _ _ _ _ _
    intro input fault c herr
    rw [ReadM.bind_apply] at herr
    -- Either the first reader fails, or the second goes on behind the fields of the first.
    cases hm : m ⟨_, input, _⟩ with
    | ok a c₁ =>
      obtain ⟨fs, rest, ha, rfl, rfl⟩ := hfirst.exists_of_eq_ok hm
      rw [hm] at herr
      obtain ⟨hreaches, hbetween⟩ := ihrest _ _ ha herr
      exact ⟨.trans ⟨join fs, rfl, rfl⟩ hreaches, hbetween⟩
    | error fault₁ c₁ =>
      rw [hm] at herr
      cases herr
      exact ihfirst hm
  | offset _ ih =>
    intro input fault c herr
    exact ih herr
  | platform _ ih =>
    intro input fault c herr
    exact ih herr
  | setPlatform _ ih =>
    intro input fault c herr
    exact ih herr
  | inside _ ih =>
    intro input fault c herr
    obtain ⟨inner, hinner, rfl⟩ := ReadM.inside_eq_error_iff.mp herr
    have := ih hinner
    exact this
  | expect hlow =>
    rename_i expected cause
    intro input fault c herr
    by_cases hpre : expected <+: input
    . obtain ⟨rest, rfl⟩ := hpre
      rw [ReadM.expect_append] at herr
      cases herr
    . rw [ReadM.expect_of_mismatch _ _ _ _ hpre] at herr
      cases herr
      exact ⟨.refl _, hlow, Nat.le_refl _⟩
  | byte hlow =>
    intro input fault c herr
    cases input with
    | nil =>
      cases herr
      exact ⟨.refl _, hlow, Nat.le_refl _⟩
    | cons b input => cases herr
  | bytes hlow =>
    rename_i kind n
    intro input fault c herr
    by_cases hlen : input.length < n
    . rw [ReadM.bytes_of_lt _ _ _ _ hlen] at herr
      cases herr
      exact ⟨.refl _, hlow, Nat.le_refl _⟩
    . have htake : (input.take n).length = n := by simp; omega
      rw [← List.take_append_drop n input, ReadM.bytes_append _ _ _ _ _ htake] at herr
      cases herr
  | varint hlow =>
    intro input fault c herr
    obtain ⟨hoffset, hreaches⟩ := ReadM.varint.go_stops _ _ _ _ _ _ _ herr
    have := hreaches.offset_le
    rw [hoffset]
    exact ⟨hreaches, hlow, this⟩

structure Keeps (low o : Nat) (m : ReadM α) : Prop where
  reaches : ∀ c : Cursor, c.offset = o → c.Reaches (m.stop c)
  between : ∀ (c : Cursor) (fault : Fault) (c' : Cursor), c.offset = o → m c = .error fault c'
    → low ≤ fault.offset ∧ fault.offset ≤ c'.offset

namespace Keeps

variable {low o : Nat}

theorem of_reads {m : ReadM α} {F : Platform → Format α}
    (h : ∀ p, Reads low o p m (F p) fun _ => p) : Keeps low o m := by
  constructor
  . rintro ⟨_, input, p⟩ rfl
    unfold ReadM.stop
    cases hm : m ⟨_, input, p⟩ with
    | ok a c =>
      obtain ⟨fields, rest, _, rfl, rfl⟩ := (h p).exists_of_eq_ok hm
      exact ⟨join fields, rfl, rfl⟩
    | error fault c => exact ((h p).stops_of_eq_error hm).1
  . rintro ⟨_, input, p⟩ fault c rfl herr
    exact ((h p).stops_of_eq_error herr).2

theorem of_eq_ok {m : ReadM α} (h : ∀ c, ∃ a, m c = .ok a c) : Keeps low o m := by
  constructor
  . intro c _
    obtain ⟨a, ha⟩ := h c
    rw [ReadM.stop, ha]
    exact .refl c
  . intro c fault c' _ herr
    obtain ⟨a, ha⟩ := h c
    rw [ha] at herr
    cases herr

theorem pure (a : α) : Keeps low o (pure a) :=
  of_eq_ok fun _ => ⟨a, rfl⟩

theorem fail {offset : Nat} {cause : Cause} (hlow : low ≤ offset) (hhigh : offset ≤ o) :
    Keeps low o (ReadM.fail offset cause : ReadM α) := by
  constructor
  . intro c _
    exact .refl c
  . rintro c fault c' rfl herr
    cases herr
    exact ⟨hlow, hhigh⟩

theorem bind {m : ReadM α} {f : α → ReadM β} (first : Keeps low o m)
    (rest : ∀ a o', o ≤ o' → Keeps low o' (f a)) : Keeps low o (m >>= f) := by
  constructor
  . intro c hc
    have hfirst := first.reaches c hc
    unfold ReadM.stop at hfirst ⊢
    rw [ReadM.bind_apply]
    cases hm : m c with
    | ok a c₁ =>
      rw [hm] at hfirst
      have hle := hfirst.offset_le
      rw [hc] at hle
      exact hfirst.trans ((rest a _ hle).reaches c₁ rfl)
    | error fault c₁ =>
      rw [hm] at hfirst
      exact hfirst
  . intro c fault c' hc herr
    have hfirst := first.reaches c hc
    unfold ReadM.stop at hfirst
    rw [ReadM.bind_apply] at herr
    cases hm : m c with
    | ok a c₁ =>
      rw [hm] at herr hfirst
      have hle := hfirst.offset_le
      rw [hc] at hle
      exact (rest a _ hle).between c₁ fault c' rfl herr
    | error fault₁ c₁ =>
      rw [hm] at herr
      cases herr
      exact first.between c fault c' hc hm

theorem offset {f : Nat → ReadM α} (rest : Keeps low o (f o)) : Keeps low o (ReadM.offset >>= f) := by
  constructor
  . rintro c rfl
    exact rest.reaches c rfl
  . rintro c fault c' rfl herr
    exact rest.between c fault c' rfl herr

theorem inside {place : Place} {m : ReadM α} (h : Keeps low o m) :
    Keeps low o (ReadM.inside place m) := by
  constructor
  . intro c hc
    have hreaches := h.reaches c hc
    unfold ReadM.stop ReadM.inside at *
    cases hm : m c with
    | ok a c' =>
      rw [hm] at hreaches
      exact hreaches
    | error fault c' =>
      rw [hm] at hreaches
      exact hreaches
  . intro c fault c' hc herr
    obtain ⟨inner, hinner, rfl⟩ := ReadM.inside_eq_error_iff.mp herr
    exact h.between c inner c' hc hinner

theorem inside_fail_bind {place : Place} {offset : Nat} {cause : Cause} {f : β → ReadM α}
    (hlow : low ≤ offset) (hhigh : offset ≤ o)
    : Keeps low o (ReadM.inside place (ReadM.fail offset cause) >>= f) := by
  -- Nothing is read behind the fault, so nothing has to be known of `f`.
  constructor
  . intro c _
    exact .refl c
  . rintro c fault c' rfl herr
    cases herr
    exact ⟨hlow, hhigh⟩

theorem elements (table : Bytes) {read : ReadM α} (hread : ∀ o', o ≤ o' → Keeps low o' read)
    (n index : Nat) (found : Array α) : Keeps low o (ReadM.elements table read n index found) := by
  induction n generalizing o index found with
  | zero => exact .pure found.toList
  | succ n ih =>
    rw [ReadM.elements_succ]
    apply bind (.inside (hread o (Nat.le_refl o)))
    intro a o' ho
    apply ih
    intro o'' ho'
    exact hread o'' (Nat.le_trans ho ho')

theorem vector (limits : Limits) (table : Bytes) (minSize : Nat) {read : ReadM α} (hlow : low ≤ o)
    (hread : ∀ o', o ≤ o' → Keeps low o' read)
    : Keeps low o (ReadM.vector limits table minSize read) := by
  rw [ReadM.vector_eq]
  apply offset
  apply bind (.inside (.inside (.of_reads fun p => ReadM.size_reads hlow)))
  intro count o₁ h₁
  split
  . exact .inside (.fail hlow h₁)
  . apply elements
    intro o' ho
    exact hread o' (by omega)

end Keeps

section Parts

variable {low o : Nat}

theorem ReadM.bytes_keeps (n : Int) (h : low ≤ o) : Keeps low o (bytes n) := by
  by_cases hn : n < 0
  . have hfail : bytes n = fun c => .error { cause := .endOfInput, offset := c.offset } c := by
      funext c
      rw [bytes, if_pos hn]
    rw [hfail]
    constructor
    . intro c _
      exact .refl c
    . rintro c fault c' rfl herr
      cases herr
      exact ⟨h, Nat.le_refl _⟩
  . obtain ⟨n, rfl⟩ := Int.eq_ofNat_of_zero_le (Int.not_lt.mp hn)
    exact .of_reads fun p => @Reads.bytes low o p .group n h

theorem ReadM.literal_keeps (expected : Bytes) : Keeps low o (literal expected) := by
  constructor
  . rintro ⟨_, input, p⟩ rfl
    by_cases hpre : expected <+: input
    . obtain ⟨rest, rfl⟩ := hpre
      rw [stop, literal_append]
      exact ⟨expected, rfl, rfl⟩
    . rw [stop, literal_of_mismatch _ _ hpre]
      exact .refl _
  . rintro ⟨_, input, p⟩ fault c' rfl herr
    by_cases hpre : expected <+: input
    . obtain ⟨rest, rfl⟩ := hpre
      rw [literal_append] at herr
      cases herr
    . rw [literal_of_mismatch _ _ hpre] at herr
      cases herr

theorem DebugInfo.read_keeps (limits : Limits) (codeSize upvalueCount : Int) (h : low ≤ o) :
    Keeps low o (read limits codeSize upvalueCount) := by
  apply Keeps.offset
  apply Keeps.bind (.vector limits _ _ h fun o' ho => .of_reads fun p => lineDelta_reads (by omega))
  intro lineDeltas o₁ h₁
  dsimp only
  split
  . exact .inside_fail_bind h h₁
  apply Keeps.offset
  apply Keeps.bind (.vector limits _ _ (by omega)
    fun o' ho => .of_reads fun p => Checkpoint.read_reads (by omega))
  intro checkpoints o₂ h₂
  split
  . exact .inside_fail_bind (by omega) h₂
  apply Keeps.bind (.vector limits _ _ (by omega)
    fun o' ho => .of_reads fun p => LocalVariable.read_reads (by omega))
  intro locals o₃ h₃
  apply Keeps.offset
  apply Keeps.bind (.vector limits _ _ (by omega)
    fun o' ho => .of_reads fun p => upvalueName_reads (by omega))
  intro upvalueNames o₄ h₄
  split
  . exact .inside_fail_bind (by omega) h₄
  . exact .pure _

theorem Prototype.readAt_keeps (limits : Limits) (depth : Int) (h : low ≤ o) :
    Keeps low o (readAt limits depth) := by
  unfold readAt
  split
  . apply Keeps.bind (.of_eq_ok fun c => ⟨_, rfl⟩)
    intro left o' ho
    exact .of_reads fun p => read_reads limits _ (by omega)
  . exact .of_reads fun p => read_reads limits _ h

end Parts

inductive Step : Type → Type 1
  | byte : Step UInt8
  | bytes (n : Int) : Step Bytes
  | literal (expected : Bytes) : Step Bool
  | integer : Step Int64
  | number : Step Binary64
  | word : Step Word
  | varint : Step Nat
  | size : Step Nat
  | rawString? : Step (Option Bytes)
  | string? : Step (Option Bytes)
  | constant : Step Constant
  | upvalue : Step Upvalue
  | instruction : Step Instruction
  | checkpoint : Step Checkpoint
  | localVariable : Step LocalVariable
  | debugInfo (codeSize upvalueCount : Int) : Step DebugInfo
  | function (depth : Int) : Step Prototype
  | vector {α : Type} (table : Bytes) (minSize : Nat) (element : Step α) : Step (List α)

namespace Step

def read (limits : Limits) : Step α → ReadM α
  | .byte => ReadM.byte
  | .bytes n => ReadM.bytes n
  | .literal expected => ReadM.literal expected
  | .integer => ReadM.integer
  | .number => ReadM.number
  | .word => ReadM.word
  | .varint => ReadM.varint
  | .size => ReadM.size
  | .rawString? => ReadM.rawString?
  | .string? => ReadM.string?
  | .constant => Constant.read
  | .upvalue => Upvalue.read
  | .instruction => Instruction.read
  | .checkpoint => Checkpoint.read
  | .localVariable => LocalVariable.read
  | .debugInfo codeSize upvalueCount => DebugInfo.read limits codeSize upvalueCount
  | .function depth => Prototype.readAt limits depth
  | .vector table minSize element => ReadM.vector limits table minSize (element.read limits)

/--
Where steps lead one after another. A step that fails does not keep the next one from being taken.
-/
def after (limits : Limits) (steps : List (Σ α : Type, Step α)) (c : Cursor) : Cursor :=
  steps.foldl (fun c step => (step.2.read limits).stop c) c

theorem read_keeps (limits : Limits) (step : Step α) {low o : Nat} (h : low ≤ o) :
    Keeps low o (step.read limits) := by
  induction step generalizing o with
  | byte => exact .of_reads fun p => .byte h
  | bytes n => exact ReadM.bytes_keeps n h
  | literal expected => exact ReadM.literal_keeps expected
  | integer => exact .of_reads fun p => ReadM.integer_reads h
  | number => exact .of_reads fun p => ReadM.number_reads h
  | word => exact .of_reads fun p => ReadM.word_reads h
  | varint => exact .of_reads fun p => .varint h
  | size => exact .of_reads fun p => ReadM.size_reads h
  | rawString? => exact .of_reads fun p => ReadM.rawString?_reads h
  | string? => exact .of_reads fun p => ReadM.string?_reads h
  | constant => exact .of_reads fun p => Constant.read_reads h
  | upvalue => exact .of_reads fun p => Upvalue.read_reads h
  | instruction => exact .of_reads fun p => Instruction.read_reads h
  | checkpoint => exact .of_reads fun p => Checkpoint.read_reads h
  | localVariable => exact .of_reads fun p => LocalVariable.read_reads h
  | debugInfo codeSize upvalueCount => exact DebugInfo.read_keeps limits codeSize upvalueCount h
  | function depth => exact Prototype.readAt_keeps limits depth h
  | vector table minSize element ih =>
    apply Keeps.vector limits table minSize h
    intro o' ho
    exact ih (Nat.le_trans h ho)

theorem reaches_after (limits : Limits) (steps : List (Σ α : Type, Step α)) (c : Cursor) :
    c.Reaches (after limits steps c) := by
  induction steps generalizing c with
  | nil => exact .refl c
  | cons step steps ih =>
    have hstep := (read_keeps limits step.2 (Nat.le_refl c.offset)).reaches c rfl
    exact hstep.trans (ih _)

end Step

end LuaBytecode
