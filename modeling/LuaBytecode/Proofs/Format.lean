import Mathlib
import LuaBytecode.Proofs.Varint

/-!
The format of a chunk as a relation between fields and values. A field is what is read as a whole, a
format says which sequences of fields stand for which value, and formats are put together as monads
are. Nothing here knows how a chunk is read.
-/

namespace LuaBytecode

inductive FieldKind where
  | literal | byte | group | varint | body
  deriving DecidableEq

structure Field where
  kind : FieldKind
  bytes : Bytes
  deriving DecidableEq

namespace Field

def join (fields : List Field) : Bytes :=
  fields.flatMap Field.bytes

def width (fields : List Field) : Nat :=
  (join fields).length

@[simp]
theorem join_nil : join [] = [] := by
  rfl

@[simp]
theorem join_singleton (f : Field) : join [f] = f.bytes := by
  simp [join]

@[simp]
theorem join_append (fs gs : List Field) : join (fs ++ gs) = join fs ++ join gs := by
  simp [join]

@[simp]
theorem length_join (fs : List Field) : (join fs).length = width fs := by
  rfl

@[simp]
theorem width_nil : width [] = 0 := by
  rfl

@[simp]
theorem width_singleton (f : Field) : width [f] = f.bytes.length := by
  simp [width]

theorem width_cons (f : Field) (fs : List Field) :
    width (f :: fs) = f.bytes.length + width fs := by
  simp [width, join]

@[simp]
theorem width_append (fs gs : List Field) : width (fs ++ gs) = width fs + width gs := by
  rw [width, join_append, List.length_append, length_join, length_join]

/--
The start of the field that holds the byte `n`, counted from the start of the first field.
-/
def startOf : List Field → Nat → Nat
  | [], _ => 0
  | f :: fs, n =>
    if n < f.bytes.length then 0 else f.bytes.length + startOf fs (n - f.bytes.length)

@[simp]
theorem startOf_singleton (f : Field) (n : Nat) (h : n < f.bytes.length) : startOf [f] n = 0 := by
  simp [startOf, h]

theorem startOf_append_of_lt (fs gs : List Field) (n : Nat) (h : n < width fs) :
    startOf (fs ++ gs) n = startOf fs n := by
  induction fs generalizing n with
  | nil => simp at h
  | cons f fs ih =>
    rw [width_cons] at h
    simp only [List.cons_append, startOf]
    split
    . rfl
    . rw [ih]
      omega

theorem startOf_append_of_le (fs gs : List Field) (n : Nat) (h : width fs ≤ n) :
    startOf (fs ++ gs) n = width fs + startOf gs (n - width fs) := by
  induction fs generalizing n with
  | nil => simp
  | cons f fs ih =>
    rw [width_cons] at h ⊢
    simp only [List.cons_append, startOf]
    split
    . omega
    . rw [ih]
      . rw [Nat.sub_sub, Nat.add_assoc]
      . omega

theorem startOf_mono (fs : List Field) {m n : Nat} (h : m ≤ n) : startOf fs m ≤ startOf fs n := by
  induction fs generalizing m n with
  | nil => simp [startOf]
  | cons f fs ih =>
    have := @ih (m - f.bytes.length) (n - f.bytes.length) (by omega)
    simp only [startOf]
    split
    . omega
    . split <;> omega

theorem exists_field_of_lt (fs : List Field) (n : Nat) (h : n < width fs)
    : ∃ before f after,
        fs = before ++ f :: after
          ∧ startOf fs n = width before
          ∧ width before ≤ n
          ∧ n < width before + f.bytes.length := by
  induction fs generalizing n with
  | nil => simp at h
  | cons f fs ih =>
    rw [width_cons] at h
    by_cases hn : n < f.bytes.length
    . exact ⟨[], f, fs, by simp, by simp [startOf, hn], by simp, by simpa using hn⟩
    . obtain ⟨before, g, after, hfs, hstart, hle, hlt⟩ := ih (n - f.bytes.length) (by omega)
      refine ⟨f :: before, g, after, by simp [hfs], ?_, ?_, ?_⟩
      . rw [width_cons, ← hstart]
        simp [startOf, hn]
      . rw [width_cons]
        omega
      . rw [width_cons]
        omega

end Field

/--
Which fields stand for which value.
-/
def Format (α : Type) : Type :=
  List Field → α → Prop

namespace Format

instance : Monad Format where
  pure a := fun fields b => fields = [] ∧ b = a
  bind F G := fun fields b => ∃ first rest a, fields = first ++ rest ∧ F first a ∧ G a rest b

theorem pure_iff {a b : α} {fields : List Field} :
    (pure a : Format α) fields b ↔ fields = [] ∧ b = a := by
  rfl

theorem bind_iff {F : Format α} {G : α → Format β} {fields : List Field} {b : β}
    : (F >>= G) fields b
        ↔
      ∃ first rest a, fields = first ++ rest ∧ F first a ∧ G a rest b := by
  rfl

@[ext]
theorem ext {F G : Format α} (h : ∀ fields a, F fields a ↔ G fields a) : F = G := by
  funext fields a
  exact propext (h fields a)

def nothing : Format α :=
  fun _ _ => False

def require (P : Prop) : Format Unit :=
  fun fields _ => fields = [] ∧ P

def lift (x : Option α) : Format α :=
  fun fields a => fields = [] ∧ x = some a

def literal (expected : Bytes) : Format Unit :=
  fun fields _ => fields = [⟨.literal, expected⟩]

def byte : Format UInt8 :=
  fun fields b => fields = [⟨.byte, [b]⟩]

def bytes (kind : FieldKind) (n : Nat) : Format Bytes :=
  fun fields bs => fields = [⟨kind, bs⟩] ∧ bs.length = n

def varint : Format Nat :=
  fun fields x => ∃ groups, fields = [⟨.varint, groups⟩] ∧ Varint.Spells groups x

theorem require_of {P : Prop} (h : P) : require P = pure () := by
  ext fields a
  simp [require, pure_iff, h]

theorem require_of_not {P : Prop} (h : ¬P) : require P = nothing := by
  ext fields a
  simp [require, nothing, h]

@[simp]
theorem lift_some (a : α) : lift (some a) = pure a := by
  ext fields b
  simp [lift, pure_iff, eq_comm]

@[simp]
theorem lift_none : (lift none : Format α) = nothing := by
  ext fields b
  simp [lift, nothing]

@[simp]
theorem nothing_bind (F : α → Format β) : (nothing >>= F) = nothing := by
  ext fields b
  rw [bind_iff]
  constructor
  . rintro ⟨_, _, _, _, ⟨⟩, _⟩
  . exact False.elim

theorem pure_bind_eq (a : α) (F : α → Format β) : (pure a >>= F) = F a := by
  ext fields b
  rw [bind_iff]
  constructor
  . rintro ⟨_, _, _, rfl, ⟨rfl, rfl⟩, hb⟩
    exact hb
  . intro hb
    exact ⟨[], fields, a, rfl, ⟨rfl, rfl⟩, hb⟩

theorem bind_assoc_eq (F : Format α) (G : α → Format β) (H : β → Format γ) :
    F >>= G >>= H = F >>= fun a => G a >>= H := by
  ext fields c
  constructor
  . rintro ⟨_, hs, b, rfl, ⟨fs, gs, a, rfl, ha, hb⟩, hc⟩
    exact ⟨fs, gs ++ hs, a, by simp, ha, gs, hs, b, rfl, hb, hc⟩
  . rintro ⟨fs, _, a, rfl, ha, gs, hs, b, rfl, hb, hc⟩
    exact ⟨fs ++ gs, hs, b, by simp, ⟨fs, gs, a, rfl, ha, hb⟩, hc⟩

theorem bind_pure_eq (F : Format α) : F >>= pure = F := by
  ext fields a
  constructor
  . rintro ⟨fs, _, a, rfl, ha, rfl, rfl⟩
    simpa using ha
  . intro ha
    exact ⟨fields, [], a, by simp, ha, rfl, rfl⟩

instance : LawfulMonad Format :=
  LawfulMonad.mk' Format bind_pure_eq pure_bind_eq bind_assoc_eq

def replicate (F : Format α) : Nat → Format (List α)
  | 0 => pure []
  | n + 1 => do
    let a ← F
    let as ← replicate F n
    return a :: as

end Format

end LuaBytecode
