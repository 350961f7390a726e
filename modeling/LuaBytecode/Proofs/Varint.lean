import Mathlib
import LuaBytecode.Reader.Cursor
import LuaBytecode.Writer.Field

/-!
Variable-length integers: what groups of seven bits stand for, that the reader finds exactly the groups
whose value has at most 64 bits, and that the writer spells every number.
-/

namespace LuaBytecode
namespace Varint

def valueFrom (x : Nat) (groups : Bytes) : Nat :=
  groups.foldl (fun x b => x * 128 + b.toNat % 128) x

def IsComplete (groups : Bytes) : Prop :=
  ∃ init last, groups = init ++ [last] ∧ (∀ b ∈ init, b.toNat < 128) ∧ 128 ≤ last.toNat

/--
The groups are a complete spelling of `x`, which has at most 64 bits.
-/
def Spells (groups : Bytes) (x : Nat) : Prop :=
  IsComplete groups ∧ valueFrom 0 groups = x ∧ x < 0x10000000000000000

@[simp]
theorem valueFrom_nil (x : Nat) : valueFrom x [] = x := by
  rfl

@[simp]
theorem valueFrom_cons (x : Nat) (b : UInt8) (groups : Bytes) :
    valueFrom x (b :: groups) = valueFrom (x * 128 + b.toNat % 128) groups := by
  rfl

theorem valueFrom_append (x : Nat) (first second : Bytes) :
    valueFrom x (first ++ second) = valueFrom (valueFrom x first) second := by
  simp [valueFrom]

theorem le_valueFrom (x : Nat) (groups : Bytes) : x ≤ valueFrom x groups := by
  induction groups generalizing x with
  | nil => simp
  | cons b groups ih =>
    have := ih (x * 128 + b.toNat % 128)
    rw [valueFrom_cons]
    omega

theorem isComplete_singleton {b : UInt8} : IsComplete [b] ↔ 128 ≤ b.toNat := by
  constructor
  . rintro ⟨init, last, h, _, hlast⟩
    cases init with
    | nil => simp_all
    | cons _ _ => simp at h
  . intro h
    exact ⟨[], b, by simp, by simp, h⟩

theorem isComplete_cons {b : UInt8} {groups : Bytes} (h : b.toNat < 128) :
    IsComplete (b :: groups) ↔ IsComplete groups := by
  constructor
  . rintro ⟨init, last, heq, hinit, hlast⟩
    cases init with
    | nil =>
      simp only [List.nil_append, List.cons.injEq] at heq
      rw [heq.1] at h
      omega
    | cons a init =>
      simp only [List.cons_append, List.cons.injEq] at heq
      exact ⟨init, last, heq.2, fun c hc => hinit c (by simp [hc]), hlast⟩
  . rintro ⟨init, last, rfl, hinit, hlast⟩
    refine ⟨b :: init, last, by simp, ?_, hlast⟩
    intro c hc
    cases List.mem_cons.mp hc with
    | inl hcb => rw [hcb]; exact h
    | inr hci => exact hinit c hci

theorem IsComplete.ne_nil {groups : Bytes} (h : IsComplete groups) : groups ≠ [] := by
  obtain ⟨init, last, rfl, _, _⟩ := h
  simp

end Varint

namespace ReadM.varint

open Varint

theorem go_append_of_unmarked (groups rest : Bytes) (start x o : Nat) (p : Platform)
    (hgroups : ∀ b ∈ groups, b.toNat < 128) (hx : valueFrom x groups < 0x10000000000000000)
    : go start x o p (groups ++ rest)
        =
      go start (valueFrom x groups) (o + groups.length) p rest := by
  induction groups generalizing x o with
  | nil => rfl
  | cons b groups ih =>
    rw [List.forall_mem_cons] at hgroups
    -- The value only grows, so it has room for every group if it has for all.
    have := le_valueFrom (x * 128 + b.toNat % 128) groups
    rw [valueFrom_cons] at hx ⊢
    simp only [List.cons_append, go, List.length_cons]
    rw [if_neg (by omega), if_neg (by omega), ih _ _ hgroups.2 hx, Nat.add_right_comm, Nat.add_assoc]

theorem go_append (groups rest : Bytes) (start x o : Nat) (p : Platform) (hc : IsComplete groups)
    (hx : valueFrom x groups < 0x10000000000000000)
    : go start x o p (groups ++ rest)
        =
      .ok (valueFrom x groups) ⟨o + groups.length, rest, p⟩ := by
  obtain ⟨init, last, rfl, hinit, hlast⟩ := hc
  rw [valueFrom_append, valueFrom_cons, valueFrom_nil] at hx ⊢
  rw [List.append_assoc, go_append_of_unmarked _ _ _ _ _ _ hinit (by omega), List.singleton_append, go,
    if_neg (by omega)]
  dsimp only
  rw [if_pos hlast, List.length_append, List.length_singleton, Nat.add_assoc]

theorem exists_of_go_eq_ok (bs : Bytes) (start x o : Nat) (p : Platform) (y : Nat) (c : Cursor)
    (h : go start x o p bs = .ok y c)
    : ∃ groups,
        bs = groups ++ c.rest
          ∧ IsComplete groups
          ∧ valueFrom x groups = y
          ∧ y < 0x10000000000000000
          ∧ c = ⟨o + groups.length, c.rest, p⟩ := by
  induction bs generalizing x o with
  | nil => simp [go] at h
  | cons b bs ih =>
    simp only [go] at h
    split at h
    . simp at h
    . split at h
      . next hb =>
        simp only [EStateM.Result.ok.injEq] at h
        obtain ⟨rfl, rfl⟩ := h
        refine ⟨[b], by simp, isComplete_singleton.mpr hb, by simp, by omega, by simp⟩
      . next hb =>
        obtain ⟨groups, hbs, hcomplete, hvalue, hy, hcursor⟩ := ih _ _ h
        refine ⟨b :: groups, by simp [← hbs], (isComplete_cons (by omega)).mpr hcomplete, ?_, hy, ?_⟩
        . rw [valueFrom_cons, hvalue]
        . rw [hcursor]
          simp only [List.length_cons, Cursor.mk.injEq, and_true]
          omega

theorem go_take (groups : Bytes) (start x o k : Nat) (p : Platform) (hc : IsComplete groups)
    (hx : valueFrom x groups < 0x10000000000000000) (hk : k < groups.length)
    : go start x o p (groups.take k)
        =
      .error { cause := .endOfInput, offset := start } ⟨o + k, [], p⟩ := by
  obtain ⟨init, last, rfl, hinit, hlast⟩ := hc
  rw [List.length_append, List.length_singleton] at hk
  have hle := le_valueFrom (valueFrom x (init.take k)) (init.drop k ++ [last])
  rw [← valueFrom_append, ← List.append_assoc, List.take_append_drop] at hle
  have hgo := go_append_of_unmarked (init.take k) [] start x o p
    (fun b hb => hinit b (List.mem_of_mem_take hb)) (by omega)
  rw [List.append_nil, List.length_take_of_le (by omega)] at hgo
  rw [List.take_append_of_le_length (by omega), hgo]
  rfl

theorem go_append_of_error (bs more : Bytes) (start x o : Nat) (p : Platform) (fault : Fault)
    (c : Cursor) (h : go start x o p bs = .error fault c) (hkind : fault.kind ≠ .truncated)
    : go start x o p (bs ++ more) = .error fault { c with rest := c.rest ++ more } := by
  induction bs generalizing x o with
  | nil =>
    simp only [go, EStateM.Result.error.injEq] at h
    rw [← h.1] at hkind
    simp [Fault.kind, Cause.kind] at hkind
  | cons b bs ih =>
    simp only [go, List.cons_append] at h ⊢
    split at h
    . next hlarge =>
      simp only [EStateM.Result.error.injEq] at h
      obtain ⟨rfl, rfl⟩ := h
      simp [hlarge]
    . next hlarge =>
      rw [if_neg hlarge]
      split at h
      . simp at h
      . next hb =>
        rw [if_neg hb]
        exact ih _ _ h

end ReadM.varint

namespace Bytes

open Varint

theorem ofVarint.lt_of_mem_high (x : Nat) : ∀ b ∈ ofVarint.high x, b.toNat < 128 := by
  induction x using ofVarint.high.induct with
  | case1 => simp [ofVarint.high]
  | case2 x hx ih =>
    intro b hb
    rw [ofVarint.high, if_neg hx] at hb
    cases List.mem_append.mp hb with
    | inl hhigh => exact ih b hhigh
    | inr hlow =>
      rw [List.mem_singleton.mp hlow]
      simp
      omega

theorem ofVarint.valueFrom_high (x : Nat) : valueFrom 0 (ofVarint.high x) = x := by
  induction x using ofVarint.high.induct with
  | case1 => simp [ofVarint.high]
  | case2 x hx ih =>
    rw [ofVarint.high, if_neg hx, valueFrom_append, ih]
    simp
    omega

theorem spells_ofVarint (x : Nat) (h : x < 0x10000000000000000) : Spells (ofVarint x) x := by
  refine ⟨⟨ofVarint.high (x / 128), _, rfl, ofVarint.lt_of_mem_high _, ?_⟩, ?_, h⟩
  . simp
    omega
  . rw [ofVarint, valueFrom_append, ofVarint.valueFrom_high]
    simp
    omega

end Bytes
end LuaBytecode
