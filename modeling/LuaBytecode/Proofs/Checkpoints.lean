import Mathlib
import LuaBytecode.Chunk.LineTable

/-!
The check of a table of checkpoints: it passes exactly the tables whose addresses are those of the
markers, one after another.
-/

namespace LuaBytecode
namespace LineTable

def markedPCs (deltas : List Int8) : List Nat :=
  (List.range deltas.length).filter fun pc => deltas[pc]? = some lineMarker

theorem mem_markedPCs {deltas : List Int8} {pc : Nat} :
    pc ∈ markedPCs deltas ↔ deltas[pc]? = some lineMarker := by
  rw [markedPCs, List.mem_filter, List.mem_range, decide_eq_true_iff, and_iff_right_iff_imp]
  intro h
  exact (List.getElem?_eq_some_iff.mp h).1

theorem pairwise_markedPCs (deltas : List Int8) : (markedPCs deltas).Pairwise (· < ·) := by
  exact List.pairwise_lt_range.filter _

theorem length_markedPCs (deltas : List Int8) : (markedPCs deltas).length = markers deltas := by
  unfold markedPCs markers
  induction deltas with
  | nil => rfl
  | cons delta deltas ih =>
    rw [List.length_cons, List.range_succ_eq_map, List.filter_cons, List.filter_map,
      List.count_cons, ← ih]
    by_cases h : delta = lineMarker
    . simp [h, Function.comp_def]
    . simp [h, Function.comp_def]

theorem check.go_eq_ok_iff {deltas : List Int8} {prev : Int64} {checkpoints : List Checkpoint}
    : check.go deltas prev checkpoints = .ok ()
        ↔
      (prev.toInt :: checkpoints.map (·.pc.toInt)).IsChain (· < ·)
        ∧ ∀ c ∈ checkpoints, deltas[c.pc.toNatClampNeg]? = some lineMarker := by
  induction checkpoints generalizing prev with
  | nil => simp [check.go]
  | cons c rest ih =>
    rw [check.go, List.map_cons, List.isChain_cons_cons, List.forall_mem_cons, ← Int.not_le,
      ← Int64.le_iff_toInt_le]
    split
    . next hle => simp [hle]
    . next hlt =>
      cases hdelta : deltas[c.pc.toNatClampNeg]? with
      | none => simp
      | some delta =>
        by_cases hmarker : delta = lineMarker
        . simp [hmarker, hlt, ih]
        . simp [hmarker]

theorem eq_markedPCs {deltas : List Int8} {pcs : List Nat} (hlength : pcs.length = markers deltas)
    (hsorted : pcs.Pairwise (· < ·)) (hmarked : ∀ pc ∈ pcs, deltas[pc]? = some lineMarker) :
    pcs = markedPCs deltas := by
  have hsubset : pcs ⊆ markedPCs deltas := fun pc hpc => mem_markedPCs.mpr (hmarked pc hpc)
  have hperm : pcs.Perm (markedPCs deltas) := by
    apply (List.subperm_of_subset hsorted.nodup hsubset).perm_of_length_le
    rw [length_markedPCs, hlength]
  apply hperm.eq_of_pairwise _ hsorted (pairwise_markedPCs deltas)
  omega

theorem check_eq_ok_iff {deltas : List Int8} {checkpoints : List Checkpoint}
    : check deltas checkpoints = .ok ()
        ↔
      checkpoints.map (·.pc.toInt) = (markedPCs deltas).map Int.ofNat := by
  have hcheck : check deltas checkpoints = .ok ()
      ↔ checkpoints.length = markers deltas ∧ check.go deltas (-1) checkpoints = .ok () := by
    unfold check
    split <;> simp [*]
  rw [hcheck, check.go_eq_ok_iff, List.isChain_iff_pairwise, List.pairwise_cons]
  constructor
  . rintro ⟨hlength, ⟨hnonneg, hsorted⟩, hmarked⟩
    have hpcs : checkpoints.map (·.pc.toInt)
        = (checkpoints.map (·.pc.toNatClampNeg)).map Int.ofNat := by
      rw [List.map_map]
      apply List.map_congr_left
      intro c hc
      have : -1 < c.pc.toInt := hnonneg _ (List.mem_map_of_mem hc)
      simp [← Int64.toNat_toInt]
      omega
    rw [hpcs] at hsorted ⊢
    apply congrArg (List.map Int.ofNat)
    apply eq_markedPCs
    . simpa using hlength
    . apply List.Pairwise.of_map _ _ hsorted
      intro a b hab
      exact Int.ofNat_lt.mp hab
    . simpa using hmarked
  . intro h
    have hmem : ∀ c ∈ checkpoints, ∃ pc ∈ markedPCs deltas, Int.ofNat pc = c.pc.toInt := by
      intro c hc
      apply List.mem_map.mp
      rw [← h]
      exact List.mem_map_of_mem hc
    refine ⟨?_, ⟨?_, ?_⟩, ?_⟩
    . rw [← length_markedPCs]
      simpa using congrArg List.length h
    . rw [h]
      intro pc hpc
      obtain ⟨n, _, rfl⟩ := List.mem_map.mp hpc
      have : (-1 : Int64).toInt = -1 := by decide
      rw [this]
      exact Int.negSucc_lt_zero 0 |>.trans_le (Int.natCast_nonneg n)
    . rw [h, List.pairwise_map]
      exact (pairwise_markedPCs deltas).imp Int.ofNat_lt.mpr
    . intro c hc
      obtain ⟨pc, hpc, heq⟩ := hmem c hc
      rw [← Int64.toNat_toInt, ← heq]
      exact mem_markedPCs.mp hpc

end LineTable
end LuaBytecode
