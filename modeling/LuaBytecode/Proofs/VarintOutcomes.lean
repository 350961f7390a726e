import Mathlib
import LuaBytecode.Proofs.Reads

/-!
How reading a variable-length integer ends. The bytes up to the first marked one decide: their value is read
if it has at most 64 bits, and otherwise reading stops at the first byte that makes the value too large. Only
where neither happens the end of the input is at fault. Words of 64 bits hold every value on the way, so the
same reader over machine words never loses a bit.
-/

namespace LuaBytecode
namespace Varint

def groupCount? (bytes : Bytes) : Option Nat :=
  (bytes.findIdx? fun b => 128 ≤ b.toNat).map (· + 1)

def reach (bytes : Bytes) : Nat :=
  (groupCount? bytes).getD bytes.length

/--
The number in the low seven bits of the first `k` bytes, of which the first byte has the most significant ones.
-/
def value (bytes : Bytes) (k : Nat) : Nat :=
  Nat.ofDigits 128 ((bytes.take k).map fun b => b.toNat % 128).reverse

inductive Outcome (o : Nat) (bytes : Bytes) (p : Platform) : EStateM.Result Fault Cursor Nat → Prop
  | complete {k : Nat} (hk : groupCount? bytes = some k) (hx : value bytes k < 2 ^ 64) :
    Outcome o bytes p (.ok (value bytes k) ⟨o + k, bytes.drop k, p⟩)
  | overflow {j : Nat} (hj : IsLeast { j | j ≤ reach bytes ∧ 2 ^ 64 ≤ value bytes j } j) :
    Outcome o bytes p (.error { cause := .longVarint, offset := o } ⟨o + j, bytes.drop j, p⟩)
  | truncated (hk : groupCount? bytes = none) (hx : ∀ j ≤ bytes.length, value bytes j < 2 ^ 64) :
    Outcome o bytes p (.error { cause := .endOfInput, offset := o } ⟨o + bytes.length, [], p⟩)

theorem value_eq_valueFrom (bytes : Bytes) (k : Nat) : value bytes k = valueFrom 0 (bytes.take k) := by
  unfold value valueFrom
  rw [Nat.ofDigits_eq_foldr, List.foldr_reverse, List.foldl_map]
  simp [Nat.add_comm, Nat.mul_comm]

theorem value_succ {bytes : Bytes} {k : Nat} (hk : k < bytes.length) :
    value bytes (k + 1) = value bytes k * 128 + bytes[k].toNat % 128 := by
  rw [value_eq_valueFrom, value_eq_valueFrom, List.take_succ_eq_append_getElem hk, valueFrom_append]
  rfl

theorem groupCount?_eq_none_iff {bytes : Bytes} :
    groupCount? bytes = none ↔ ∀ b ∈ bytes, b.toNat < 128 := by
  unfold groupCount?
  rw [Option.map_eq_none_iff, List.findIdx?_eq_none_iff]
  simp

theorem exists_of_groupCount?_eq_some {bytes : Bytes} {k : Nat} (h : groupCount? bytes = some k)
    : ∃ i, ∃ hi : i < bytes.length,
        k = i + 1 ∧ 128 ≤ bytes[i].toNat ∧ ∀ b ∈ bytes.take i, b.toNat < 128 := by
  unfold groupCount? at h
  obtain ⟨i, hindex, rfl⟩ := Option.map_eq_some_iff.mp h
  obtain ⟨hi, hmarked, hbefore⟩ := List.findIdx?_eq_some_iff_getElem.mp hindex
  refine ⟨i, hi, rfl, by simpa using hmarked, ?_⟩
  intro b hb
  obtain ⟨j, hj, rfl⟩ := List.mem_take_iff_getElem.mp hb
  simpa using hbefore j (by omega)

theorem unmarked_of_lt_reach {bytes : Bytes} {i : Nat} (h : i < reach bytes) :
    i < bytes.length ∧ ∀ b ∈ bytes.take i, b.toNat < 128 := by
  unfold reach at h
  cases hcount : groupCount? bytes with
  | none =>
    rw [hcount, Option.getD_none] at h
    refine ⟨h, ?_⟩
    intro b hb
    exact groupCount?_eq_none_iff.mp hcount b (List.mem_of_mem_take hb)
  | some k =>
    rw [hcount, Option.getD_some] at h
    obtain ⟨k, hk, rfl, _, hbefore⟩ := exists_of_groupCount?_eq_some hcount
    refine ⟨by omega, ?_⟩
    intro b hb
    apply hbefore b
    rw [← Nat.min_eq_left (Nat.le_of_lt_succ h), ← List.take_take] at hb
    exact List.mem_of_mem_take hb

theorem exists_outcome (o : Nat) (bytes : Bytes) (p : Platform) : ∃ r, Outcome o bytes p r := by
  by_cases hlarge : ∃ j, j ≤ reach bytes ∧ 2 ^ 64 ≤ value bytes j
  . refine ⟨_, .overflow (j := Nat.find hlarge) ⟨Nat.find_spec hlarge, ?_⟩⟩
    intro j hj
    exact Nat.find_min' hlarge hj
  . simp only [not_exists, not_and, Nat.not_le] at hlarge
    unfold reach at hlarge
    cases hcount : groupCount? bytes with
    | none =>
      rw [hcount, Option.getD_none] at hlarge
      exact ⟨_, .truncated hcount hlarge⟩
    | some k =>
      rw [hcount, Option.getD_some] at hlarge
      exact ⟨_, .complete hcount (hlarge k (Nat.le_refl k))⟩

theorem Outcome.kind_eq_overflow_iff {o : Nat} {bytes : Bytes} {p : Platform} {fault : Fault} {c : Cursor}
    (h : Outcome o bytes p (.error fault c))
    : fault.kind = .overflow ↔ ∃ j ≤ reach bytes, 2 ^ 64 ≤ value bytes j := by
  cases h with
  | overflow hj => exact ⟨fun _ => ⟨_, hj.1⟩, fun _ => rfl⟩
  | truncated hcount hx =>
    -- Up to the end of the input no value was too large.
    constructor
    . intro hkind
      cases hkind
    . rintro ⟨j, hj, hlarge⟩
      unfold reach at hj
      rw [hcount, Option.getD_none] at hj
      exact absurd (hx j hj) (Nat.not_lt.mpr hlarge)

theorem Outcome.kind_eq {o : Nat} {bytes : Bytes} {p : Platform} {fault : Fault} {c : Cursor}
    (h : Outcome o bytes p (.error fault c)) : fault.kind = .overflow ∨ fault.kind = .truncated := by
  cases h with
  | overflow hj => exact .inl rfl
  | truncated hcount hx => exact .inr rfl

theorem Spells.append_zeros {groups : Bytes} {x : Nat} (n : Nat) (h : Spells groups x) :
    Spells (List.replicate n 0 ++ groups) x := by
  induction n with
  | zero => exact h
  | succ n ih =>
    obtain ⟨hcomplete, hvalue, hx⟩ := ih
    exact ⟨(isComplete_cons (by decide)).mpr hcomplete, hvalue, hx⟩

end Varint

namespace ReadM

open Varint

theorem varint.go_take_append (bytes : Bytes) (o k : Nat) (p : Platform) (hk : k < bytes.length)
    (hgroups : ∀ b ∈ bytes.take k, b.toNat < 128) (hx : value bytes k < 2 ^ 64)
    : go o 0 o p bytes = go o (value bytes k) (o + k) p (bytes[k] :: bytes.drop (k + 1)) := by
  rw [value_eq_valueFrom] at hx ⊢
  have hgo := go_append_of_unmarked (bytes.take k) (bytes.drop k) o 0 o p hgroups hx
  rwa [List.take_append_drop, List.length_take_of_le (by omega), List.drop_eq_getElem_cons hk] at hgo

theorem varint_of_outcome {o : Nat} {bytes : Bytes} {p : Platform}
    {r : EStateM.Result Fault Cursor Nat} (h : Outcome o bytes p r) : varint ⟨o, bytes, p⟩ = r := by
  unfold varint
  cases h with
  | complete hcount hx =>
    obtain ⟨k, hk, rfl, hmarked, hbefore⟩ := exists_of_groupCount?_eq_some hcount
    rw [value_succ hk] at hx ⊢
    rw [varint.go_take_append bytes o k p hk hbefore (by omega), varint.go, if_neg (by omega)]
    dsimp only
    rw [if_pos hmarked]
    rfl
  | overflow hj =>
    next j =>
    obtain ⟨⟨hcount, hlarge⟩, hleast⟩ := hj
    cases j with
    | zero => simp [value] at hlarge
    | succ j =>
      obtain ⟨hk, hbefore⟩ := unmarked_of_lt_reach hcount
      -- The value was still small enough before this byte.
      have hsmall : value bytes j < 2 ^ 64 := by
        by_contra h
        have := hleast ⟨Nat.le_of_lt hcount, Nat.le_of_not_lt h⟩
        omega
      rw [value_succ hk] at hlarge
      rw [varint.go_take_append bytes o j p hk hbefore hsmall, varint.go, if_pos (by omega)]
      rfl
  | truncated hcount hx =>
    have hx := hx bytes.length (Nat.le_refl _)
    rw [value_eq_valueFrom, List.take_length] at hx
    have hgo := varint.go_append_of_unmarked bytes [] o 0 o p (groupCount?_eq_none_iff.mp hcount) hx
    rwa [List.append_nil] at hgo

theorem varint_eq_iff {o : Nat} {bytes : Bytes} {p : Platform} {r : EStateM.Result Fault Cursor Nat} :
    varint ⟨o, bytes, p⟩ = r ↔ Outcome o bytes p r := by
  constructor
  . rintro rfl
    obtain ⟨r, hr⟩ := exists_outcome o bytes p
    rwa [varint_of_outcome hr]
  . exact varint_of_outcome

theorem varint_of_spells {groups : Bytes} {x : Nat} (o : Nat) (p : Platform) (rest : Bytes)
    (h : Spells groups x)
    : varint ⟨o, groups ++ rest, p⟩ = .ok x ⟨o + groups.length, rest, p⟩ := by
  obtain ⟨hcomplete, rfl, hx⟩ := h
  exact varint.go_append groups rest o 0 o p hcomplete hx

theorem size_eq_ok_iff {c c' : Cursor} {n : Nat} :
    size c = .ok n c' ↔ varint c = .ok n c' ∧ n < 0x8000000000000000 := by
  unfold size
  rw [bind_apply]
  dsimp only [offset]
  rw [bind_eq_ok_iff]
  constructor
  . rintro ⟨x, c₁, hvarint, hsize⟩
    split at hsize
    . next hx =>
      cases hsize
      exact ⟨hvarint, hx⟩
    . cases hsize
  . rintro ⟨hvarint, hn⟩
    refine ⟨n, c', hvarint, ?_⟩
    rw [if_pos hn]
    rfl

structure Wrapped where
  word : UInt64
  group : UInt8

def pushGroup (word : UInt64) (b : UInt8) : Except Wrapped UInt64 :=
  let next := word <<< 7 ||| (b &&& 0x7f).toUInt64
  if next.toNat = word.toNat * 128 + b.toNat % 128 then .ok next else .error ⟨word, b⟩

def varintByWords.go (start offset : Nat) (platform : Platform) (word : UInt64) :
    Bytes → Except Wrapped (EStateM.Result Fault Cursor Nat)
  | [] => return .error { cause := .endOfInput, offset := start } ⟨offset, [], platform⟩
  | b :: rest =>
    if (0xffffffffffffffff : UInt64) >>> 7 < word then
      return .error { cause := .longVarint, offset := start } ⟨offset + 1, rest, platform⟩
    else do
      let word ← pushGroup word b
      if b &&& 0x80 ≠ 0 then return .ok word.toNat ⟨offset + 1, rest, platform⟩
      else go start (offset + 1) platform word rest

def varintByWords (c : Cursor) : Except Wrapped (EStateM.Result Fault Cursor Nat) :=
  varintByWords.go c.offset c.offset c.platform 0 c.rest

theorem toNat_and_low (b : UInt8) : (b &&& 0x7f).toNat = b.toNat % 128 := by
  rw [UInt8.toNat_and]
  exact Nat.and_two_pow_sub_one_eq_mod b.toNat 7

theorem and_high_ne_zero_iff (b : UInt8) : b &&& 0x80 ≠ 0 ↔ 128 ≤ b.toNat := by
  have hhigh : (b &&& 0x80).toNat = (b.toNat.testBit 7).toNat * 128 := by
    rw [UInt8.toNat_and]
    exact Nat.and_two_pow b.toNat 7
  have := b.toNat_lt
  rw [Ne, ← UInt8.toNat_inj, hhigh, Nat.testBit_eq_decide_div_mod_eq]
  simp
  omega

theorem pushGroup_eq_ok {word : UInt64} (b : UInt8) (h : word.toNat < 2 ^ 57)
    : ∃ next, pushGroup word b = .ok next ∧ next.toNat = word.toNat * 128 + b.toNat % 128 := by
  have hnext : (word <<< 7 ||| (b &&& 0x7f).toUInt64).toNat = word.toNat * 128 + b.toNat % 128 := by
    have hshift : (word <<< 7).toNat = word.toNat <<< 7 := by
      rw [UInt64.toNat_shiftLeft]
      apply Nat.mod_eq_of_lt
      change word.toNat <<< 7 < 2 ^ 64
      rw [Nat.shiftLeft_eq]
      omega
    rw [UInt64.toNat_or, hshift, UInt8.toNat_toUInt64, toNat_and_low,
      ← Nat.shiftLeft_add_eq_or_of_lt (by omega), Nat.shiftLeft_eq]
  unfold pushGroup
  exact ⟨_, if_pos hnext, hnext⟩

theorem varintByWords.go_eq (start o : Nat) (p : Platform) (word : UInt64) (bytes : Bytes)
    : go start o p word bytes = .ok (varint.go start word.toNat o p bytes) := by
  induction bytes generalizing o word with
  | nil => rfl
  | cons b rest ih =>
    have hguard : (0xffffffffffffffff : UInt64) >>> 7 < word ↔ 0x200000000000000 ≤ word.toNat := by
      rw [UInt64.lt_iff_toNat_lt]
      exact Nat.succ_le_iff.symm
    unfold go varint.go
    by_cases hlarge : 0x200000000000000 ≤ word.toNat
    . rw [if_pos (hguard.mpr hlarge), if_pos hlarge]
      rfl
    . obtain ⟨next, hpush, hnext⟩ := pushGroup_eq_ok b (Nat.lt_of_not_le hlarge)
      rw [if_neg (mt hguard.mp hlarge), if_neg hlarge, hpush, ← hnext]
      simp only [bind, Except.bind, and_high_ne_zero_iff, ih]
      split <;> rfl

theorem varintByWords_eq (c : Cursor) : varintByWords c = .ok (varint c) :=
  varintByWords.go_eq c.offset c.offset c.platform 0 c.rest

/--
Reading a variable-length integer ends as `Outcome` says, and words of 64 bits are enough for it. Zeros in front
of the groups change nothing, what was written is read back, and a size is an integer of at most 63 bits.
-/
theorem varint_eq_iff_outcome (o : Nat) (bytes : Bytes) (p : Platform)
    : (∀ r, varint ⟨o, bytes, p⟩ = r ↔ Outcome o bytes p r)
      ∧ (∀ fault c,
          varint ⟨o, bytes, p⟩ = .error fault c →
            (fault.kind = .overflow ∨ fault.kind = .truncated)
              ∧ (fault.kind = .overflow ↔ ∃ j ≤ reach bytes, 2 ^ 64 ≤ value bytes j))
      ∧ (∀ n groups x,
          Spells groups x →
            varint ⟨o, List.replicate n 0 ++ groups ++ bytes, p⟩
              = .ok x ⟨o + (List.replicate n 0 ++ groups).length, bytes, p⟩)
      ∧ varintByWords ⟨o, bytes, p⟩ = .ok (varint ⟨o, bytes, p⟩)
      ∧ (∀ x < 2 ^ 64,
          varint ⟨o, Bytes.ofVarint x ++ bytes, p⟩ = .ok x ⟨o + (Bytes.ofVarint x).length, bytes, p⟩)
      ∧ ∀ n c,
          size ⟨o, bytes, p⟩ = .ok n c
            ↔
          ∃ k,
            groupCount? bytes = some k
              ∧ value bytes k < 2 ^ 63
              ∧ n = value bytes k
              ∧ c = ⟨o + k, bytes.drop k, p⟩ := by
  refine ⟨fun _ => varint_eq_iff, ?_, ?_, varintByWords_eq _, ?_, ?_⟩
  . intro fault c herror
    have houtcome := varint_eq_iff.mp herror
    exact ⟨houtcome.kind_eq, houtcome.kind_eq_overflow_iff⟩
  . intro n groups x h
    exact varint_of_spells o p bytes (h.append_zeros n)
  . intro x hx
    exact varint_of_spells o p bytes (Bytes.spells_ofVarint x hx)
  . intro n c
    rw [size_eq_ok_iff, varint_eq_iff]
    constructor
    . rintro ⟨houtcome, hn⟩
      cases houtcome with
      | complete hk hx => exact ⟨_, hk, hn, rfl, rfl⟩
    . rintro ⟨k, hk, hn, rfl, rfl⟩
      exact ⟨.complete hk (by omega), hn⟩

def largestGroups : Bytes :=
  0x01 :: (List.replicate 8 0x7f ++ [0xff])

theorem varint_eq_iff_outcome_largestGroups
    : Spells largestGroups 0xffffffffffffffff
        ∧ varint ⟨0, List.replicate 3 0 ++ largestGroups ++ [0x80], {}⟩
            = .ok 0xffffffffffffffff ⟨13, [0x80], {}⟩
        ∧ ∃ fault c,
            varint ⟨0, List.replicate 10 0x7f, {}⟩ = .error fault c
              ∧ fault.kind = .overflow
              ∧ c = ⟨10, [], {}⟩ := by
  have hspells : Spells largestGroups 0xffffffffffffffff :=
    ⟨⟨0x01 :: List.replicate 8 0x7f, 0xff, rfl, by simp, by decide⟩, rfl, by decide⟩
  refine ⟨hspells, ?_, ?_⟩
  . exact (varint_eq_iff_outcome 0 [0x80] {}).2.2.1 3 largestGroups _ hspells
  . refine ⟨_, _, rfl, ?_, rfl⟩
    rw [((varint_eq_iff_outcome 0 (List.replicate 10 0x7f) {}).2.1 _ _ rfl).2]
    exact ⟨10, by decide, by decide⟩

end ReadM
end LuaBytecode
