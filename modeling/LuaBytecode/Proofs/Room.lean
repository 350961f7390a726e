import Mathlib
import LuaBytecode.Proofs.Weight

/-!
A table never outgrows the room that is made for it, whatever number of elements it claims to have. The
reason is that no element takes less than the bytes it was taken to need, a whole function not excepted.
-/

namespace LuaBytecode

open LuaBytecode.Field

namespace ReadM

theorem room_traceElements (table : Bytes) (read : ReadM α) (room n index : Nat) (found : Array α)
    (c : Cursor) : (traceElements table read room n index found c).room = room := by
  induction n generalizing index found c with
  | zero => rfl
  | succ n ih =>
    rw [traceElements]
    cases read c with
    | ok a c' => exact ih _ _ _
    | error fault c' => rfl

structure TakesAtLeast (minSize : Nat) (read : ReadM α) : Prop where
  le_of_eq_ok : ∀ {c a c'}, read c = .ok a c' → minSize + c'.rest.length ≤ c.rest.length

theorem takesAtLeast_of_weighs {minSize : Nat} {read : ReadM α} {F : Platform → Format α}
    (hreads : ∀ o p, Reads 0 o p read (F p) fun _ => p) (hweighs : ∀ p, (F p).Weighs 0 fun _ => minSize)
    : TakesAtLeast minSize read := by
  constructor
  rintro ⟨o, input, p⟩ a c' hread
  obtain ⟨fields, rest, hfields, rfl, rfl⟩ := (hreads o p).exists_of_eq_ok hread
  have := (hweighs p).le_width hfields
  dsimp only
  rw [List.length_append, length_join]
  omega

theorem traceElements_spec (table : Bytes) {read : ReadM α} {minSize : Nat}
    (h : TakesAtLeast minSize read) (room n index : Nat) (found : Array α) (c : Cursor)
    : ∃ k,
        (traceElements table read room n index found c).found.size = found.size + k
          ∧ k ≤ n
          ∧ k * minSize ≤ c.rest.length
          ∧ (∀ as c', (traceElements table read room n index found c).result = .ok as c'
              → (traceElements table read room n index found c).found.toList = as ∧ k = n)
          ∧ ∀ fault c', (traceElements table read room n index found c).result = .error fault c'
              → k < n ∧ ∃ inner : Fault, fault = inner.within (.element table (index + k)) := by
  induction n generalizing index found c with
  | zero =>
    refine ⟨0, rfl, Nat.le_refl 0, by simp, ?_, ?_⟩
    . intro as c' hok
      cases hok
      exact ⟨rfl, rfl⟩
    . intro fault c' herr
      cases herr
  | succ n ih =>
    rw [traceElements]
    cases hread : read c with
    | ok a c₁ =>
      -- What this element has taken is not left for the `k` elements behind it.
      obtain ⟨k, hsize, hk, hbytes, hok, herror⟩ := ih (index + 1) (found.push a) c₁
      have hless := h.le_of_eq_ok hread
      refine ⟨k + 1, ?_, by omega, ?_, ?_, ?_⟩
      . rw [hsize, Array.size_push]
        omega
      . rw [Nat.succ_mul]
        omega
      . intro as c' hresult
        obtain ⟨hfound, hall⟩ := hok as c' hresult
        exact ⟨hfound, by omega⟩
      . intro fault c' hresult
        obtain ⟨hlt, inner, hfault⟩ := herror fault c' hresult
        rw [Nat.add_assoc, Nat.add_comm 1] at hfault
        exact ⟨by omega, inner, hfault⟩
    | error fault c₁ =>
      refine ⟨0, rfl, by omega, by simp, ?_, ?_⟩
      . intro as c' hok
        cases hok
      . intro fault' c' herr
        cases herr
        exact ⟨by omega, fault, rfl⟩

theorem capacity_remainingUpTo (count : Nat) {minSize : Nat} (c : Cursor) (h : 0 < minSize)
    : capacity count minSize (c.remainingUpTo (count * minSize))
        =
      min count (c.rest.length / minSize) := by
  rw [capacity, if_neg (by omega), Cursor.remainingUpTo, List.length_take]
  -- More bytes than `count * minSize` leave room for all elements, however many they are.
  by_cases hle : count * minSize ≤ c.rest.length
  . have := (Nat.le_div_iff_mul_le h).mpr hle
    rw [Nat.min_eq_left hle, Nat.mul_div_cancel _ h, Nat.min_self, Nat.min_eq_left this]
  . rw [Nat.min_eq_right (Nat.le_of_not_le hle)]

section Size

variable {limits : Limits} {table : Bytes} {minSize n : Nat} {read : ReadM α} {c c₁ : Cursor}

theorem trace_of_size (hmin : 0 < minSize) (hsize : size c = .ok n c₁) (hn : n ≤ limits.maxCount)
    : trace limits table minSize read c
        =
      traceElements table read (min n (c₁.rest.length / minSize)) n 0 #[] c₁ := by
  have hinside : inside (.table table) (inside (.part "size") size) c = .ok n c₁ := by
    rw [inside_eq_ok_iff, inside_eq_ok_iff, hsize]
  rw [trace, hinside]
  dsimp only
  rw [if_neg (Nat.not_lt.mpr hn)]
  split
  . next hzero =>
    rw [hzero, Nat.zero_min]
    rfl
  . rw [capacity_remainingUpTo n c₁ hmin]
    rfl

theorem trace_of_limit_lt (hsize : size c = .ok n c₁) (hn : limits.maxCount < n)
    : trace limits table minSize read c
        =
      ⟨0, #[], inside (.table table) (fail c.offset (.tableSize n limits.maxCount)) c₁⟩ := by
  have hinside : inside (.table table) (inside (.part "size") size) c = .ok n c₁ := by
    rw [inside_eq_ok_iff, inside_eq_ok_iff, hsize]
  rw [trace, hinside]
  dsimp only
  rw [if_pos hn]

theorem le_limit_of_vector {as : List α} {c' : Cursor} (hsize : size c = .ok n c₁)
    (h : vector limits table minSize read c = .ok as c') : n ≤ limits.maxCount := by
  by_contra hn
  rw [vector, trace_of_limit_lt hsize (Nat.not_le.mp hn)] at h
  cases h

end Size

end ReadM

open ReadM

/--
The room that is made for a table is what the rest of the input can hold, and it is enough for the
elements that are found, whether all are found or not.
-/
structure Table.KeepsToRoom (t : Table α) (limits : Limits) : Prop where
  found_le : ∀ c, (t.trace limits c).found.size ≤ (t.trace limits c).room
  room_eq : ∀ c n c₁, size c = .ok n c₁ → n ≤ limits.maxCount
    → (t.trace limits c).room = min n (c₁.rest.length / t.minSize)
  of_eq_ok : ∀ c n c₁ as c', size c = .ok n c₁ → t.read limits c = .ok as c'
    → (t.trace limits c).found.toList = as
      ∧ as.length = n
      ∧ n * t.minSize ≤ c₁.rest.length
  of_eq_error : ∀ c n c₁ fault c', size c = .ok n c₁ → n ≤ limits.maxCount
    → t.read limits c = .error fault c'
    → ∃ (i : Nat) (inner : Fault), fault = inner.within (.element t.name i)
      ∧ (t.trace limits c).found.size = i
      ∧ i < n
      ∧ i * t.minSize ≤ c₁.rest.length

theorem Table.keepsToRoom {t : Table α} (h : TakesAtLeast t.minSize t.element) (hmin : 0 < t.minSize)
    (limits : Limits) : t.KeepsToRoom limits where
  found_le := by
    intro c
    rw [trace]
    cases hsize : size c with
    | error fault c₁ =>
      rw [ReadM.trace, inside, inside, hsize]
      exact Nat.le_refl 0
    | ok n c₁ =>
      by_cases hn : n ≤ limits.maxCount
      . obtain ⟨k, hfound, hk, hbytes, _⟩ :=
          traceElements_spec t.name h (min n (c₁.rest.length / t.minSize)) n 0 #[] c₁
        have hdiv := (Nat.le_div_iff_mul_le hmin).mpr hbytes
        rw [trace_of_size hmin hsize hn, room_traceElements, hfound]
        simpa using ⟨hk, hdiv⟩
      . rw [trace_of_limit_lt hsize (Nat.not_le.mp hn)]
        exact Nat.le_refl 0
  room_eq := by
    intro c n c₁ hsize hn
    rw [trace, trace_of_size hmin hsize hn, room_traceElements]
  of_eq_ok := by
    intro c n c₁ as c' hsize hok
    have hn := le_limit_of_vector hsize hok
    obtain ⟨k, hfound, _, hbytes, hall, _⟩ :=
      traceElements_spec t.name h (min n (c₁.rest.length / t.minSize)) n 0 #[] c₁
    rw [read, vector, trace_of_size hmin hsize hn] at hok
    obtain ⟨rfl, rfl⟩ := hall as c' hok
    rw [trace, trace_of_size hmin hsize hn, Array.length_toList, hfound]
    exact ⟨rfl, Nat.zero_add k, hbytes⟩
  of_eq_error := by
    intro c n c₁ fault c' hsize hn herr
    obtain ⟨k, hfound, _, hbytes, _, hcut⟩ :=
      traceElements_spec t.name h (min n (c₁.rest.length / t.minSize)) n 0 #[] c₁
    rw [read, vector, trace_of_size hmin hsize hn] at herr
    obtain ⟨hlt, inner, hfault⟩ := hcut fault c' herr
    rw [Nat.zero_add] at hfault
    rw [trace, trace_of_size hmin hsize hn, hfound]
    exact ⟨k, inner, hfault, Nat.zero_add k, hlt, hbytes⟩

theorem Table.keepsToRoom_of_weighs {t : Table α} {F : Platform → Format α}
    (hreads : ∀ o p, Reads 0 o p t.element (F p) fun _ => p)
    (hweighs : ∀ p, (F p).Weighs 0 fun _ => t.minSize) (hmin : 0 < t.minSize) (limits : Limits) :
    t.KeepsToRoom limits :=
  keepsToRoom (takesAtLeast_of_weighs hreads hweighs) hmin limits

namespace DebugInfo

variable (limits : Limits)

theorem lineDeltaTable_keepsToRoom : lineDeltaTable.KeepsToRoom limits := by
  apply Table.keepsToRoom_of_weighs
  . exact fun o _ => lineDelta_reads (Nat.zero_le o)
  . exact fun _ => lineDelta_weighs
  . decide

theorem checkpointTable_keepsToRoom : checkpointTable.KeepsToRoom limits := by
  apply Table.keepsToRoom_of_weighs
  . exact fun o _ => Checkpoint.read_reads (Nat.zero_le o)
  . exact fun _ => Checkpoint.layout_weighs
  . decide

theorem localTable_keepsToRoom : localTable.KeepsToRoom limits := by
  apply Table.keepsToRoom_of_weighs
  . exact fun o _ => LocalVariable.read_reads (Nat.zero_le o)
  . exact fun _ => LocalVariable.layout_weighs
  . decide

theorem upvalueNameTable_keepsToRoom : upvalueNameTable.KeepsToRoom limits := by
  apply Table.keepsToRoom_of_weighs
  . exact fun o _ => upvalueName_reads (Nat.zero_le o)
  . exact fun _ => upvalueName_weighs
  . decide

end DebugInfo

namespace Prototype

variable (limits : Limits)

theorem codeTable_keepsToRoom : codeTable.KeepsToRoom limits := by
  apply Table.keepsToRoom_of_weighs
  . exact fun o _ => Instruction.read_reads (Nat.zero_le o)
  . exact Instruction.layout_weighs
  . decide

theorem constantTable_keepsToRoom : constantTable.KeepsToRoom limits := by
  apply Table.keepsToRoom_of_weighs
  . exact fun o _ => Constant.read_reads (Nat.zero_le o)
  . exact Constant.layout_weighs
  . decide

theorem upvalueTable_keepsToRoom : upvalueTable.KeepsToRoom limits := by
  apply Table.keepsToRoom_of_weighs
  . exact fun o _ => Upvalue.read_reads (Nat.zero_le o)
  . exact fun _ => Upvalue.layout_weighs
  . decide

theorem read_takesAtLeast (levels : Nat) : TakesAtLeast minSize (read limits levels) := by
  apply takesAtLeast_of_weighs fun o _ => read_reads limits levels (Nat.zero_le o)
  intro p
  constructor
  intro fields f hf
  have hweight := (layout_weighs limits p levels).le_width hf
  have := f.weight_le_total
  rw [minSize]
  omega

theorem functionTable_keepsToRoom (levels : Nat) :
    (functionTable (read limits levels)).KeepsToRoom limits :=
  Table.keepsToRoom (read_takesAtLeast limits levels) (show 0 < minSize by decide) limits

theorem total_weight (f : Prototype)
    : f.total weight
        =
      14 * f.preorder.length + 4 * f.total (·.code.length) + f.total (·.constants.length)
        + 3 * f.total (·.upvalues.length) + f.total (·.debug.lineDeltas.length)
        + 2 * f.total (·.debug.checkpoints.length) + 3 * f.total (·.debug.locals.length)
        + f.total (·.debug.upvalueNames.length) := by
  unfold total
  induction f.preorder with
  | nil => rfl
  | cons g rest ih =>
    simp only [List.map_cons, List.sum_cons, List.length_cons, ih, weight, DebugInfo.weight]
    omega

end Prototype

/--
The tables of a function and of its debug information keep to their room, and an accepted chunk has no
more in it than its bytes can hold.
-/
theorem Chunk.elements_within_input
    : (∀ limits levels,
        Prototype.codeTable.KeepsToRoom limits
          ∧ Prototype.constantTable.KeepsToRoom limits
          ∧ Prototype.upvalueTable.KeepsToRoom limits
          ∧ (Prototype.functionTable (Prototype.read limits levels)).KeepsToRoom limits
          ∧ DebugInfo.lineDeltaTable.KeepsToRoom limits
          ∧ DebugInfo.checkpointTable.KeepsToRoom limits
          ∧ DebugInfo.localTable.KeepsToRoom limits
          ∧ DebugInfo.upvalueNameTable.KeepsToRoom limits)
      ∧ [Prototype.minSize, Instruction.minSize, Constant.minSize, Upvalue.minSize,
          DebugInfo.minLineDeltaSize, Checkpoint.minSize, LocalVariable.minSize,
          DebugInfo.minUpvalueNameSize] = [14, 4, 1, 3, 1, 2, 3, 1]
      ∧ ∀ limits input chunk, decode limits input = .ok chunk
          →
        24 + 14 * chunk.main.preorder.length
            + 4 * chunk.main.total (·.code.length)
            + chunk.main.total (·.constants.length)
            + 3 * chunk.main.total (·.upvalues.length)
            + chunk.main.total (·.debug.lineDeltas.length)
            + 2 * chunk.main.total (·.debug.checkpoints.length)
            + 3 * chunk.main.total (·.debug.locals.length)
            + chunk.main.total (·.debug.upvalueNames.length)
          ≤ input.length - chunk.trailingBytes := by
  refine ⟨?_, rfl, ?_⟩
  . intro limits levels
    exact ⟨Prototype.codeTable_keepsToRoom limits, Prototype.constantTable_keepsToRoom limits,
      Prototype.upvalueTable_keepsToRoom limits, Prototype.functionTable_keepsToRoom limits levels,
      DebugInfo.lineDeltaTable_keepsToRoom limits, DebugInfo.checkpointTable_keepsToRoom limits,
      DebugInfo.localTable_keepsToRoom limits, DebugInfo.upvalueNameTable_keepsToRoom limits⟩
  . intro limits input chunk hdecode
    have hweight := weight_le_of_decode hdecode
    rw [Prototype.total_weight] at hweight
    omega

theorem Chunk.elements_within_input_sampleInput
    : (∃ (fault inner : Fault) (i : Nat),
        Prototype.upvalueTable.read {} ⟨0, [0x7f, 0xff, 1, 0, 0, 0, 1], {}⟩ = .error fault ⟨5, [0, 1], {}⟩
          ∧ fault = inner.within (.element (utf8 "upvalues") i)
          ∧ i < 16383
          ∧ i * 3 ≤ 5)
      ∧ (Prototype.upvalueTable.trace {} ⟨0, [0x7f, 0xff, 1, 0, 0, 0, 1], {}⟩).room = 1
      ∧ decode { maxDepth := 2, maxCount := 3 } sampleInput = .ok ⟨sampleHeader, 1, sampleMain, 0⟩
      ∧ 24 + 14 * sampleMain.preorder.length
            + 4 * sampleMain.total (·.code.length)
            + sampleMain.total (·.constants.length)
            + 3 * sampleMain.total (·.upvalues.length)
            + sampleMain.total (·.debug.lineDeltas.length)
            + 2 * sampleMain.total (·.debug.checkpoints.length)
            + 3 * sampleMain.total (·.debug.locals.length)
            + sampleMain.total (·.debug.upvalueNames.length)
          ≤ sampleInput.length - 0 := by
  have hweight := elements_within_input.2.2 _ _ _ decode_sampleInput
  dsimp only at hweight
  have hroom := (elements_within_input.1 {} 0).2.2.1
  refine ⟨?_, ?_, decode_sampleInput, hweight⟩
  . obtain ⟨i, inner, hfault, _, hlt, hbytes⟩ := hroom.of_eq_error
      ⟨0, [0x7f, 0xff, 1, 0, 0, 0, 1], {}⟩ 16383 ⟨2, [1, 0, 0, 0, 1], {}⟩ _ _ rfl (by decide) rfl
    exact ⟨_, inner, i, rfl, hfault, hlt, hbytes⟩
  . exact hroom.room_eq _ 16383 ⟨2, [1, 0, 0, 0, 1], {}⟩ rfl (by decide)

end LuaBytecode
