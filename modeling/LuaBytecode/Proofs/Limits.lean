import Mathlib
import LuaBytecode.Proofs.Accepted

/-!
Limits only filter. A chunk that is accepted under some limits is accepted under all others that it
fits, and a reader under smaller limits does what it does under greater ones until it stops at a limit.
-/

namespace LuaBytecode

open LuaBytecode.Field

namespace Format

theorem replicate_congr {F G : Format α} {n : Nat} {fields : List Field} {as : List α}
    (h : replicate F n fields as) (hF : ∀ a ∈ as, ∀ fields, F fields a → G fields a) :
    replicate G n fields as := by
  induction n generalizing fields as with
  | zero => exact h
  | succ n ih =>
    obtain ⟨fs, _, a, rfl, ha, gs, _, as, rfl, has, rfl, rfl⟩ := h
    rw [List.forall_mem_cons] at hF
    exact ⟨fs, _, a, rfl, hF.1 fs ha, gs, _, as, rfl, ih has hF.2, rfl, rfl⟩

theorem table_congr {limits limits' : Limits} {F G : Format α} {fields : List Field} {as : List α}
    (h : table limits F fields as) (hlength : as.length ≤ limits'.maxCount)
    (hF : ∀ a ∈ as, ∀ fields, F fields a → G fields a) : table limits' G fields as := by
  obtain ⟨fs, _, n, rfl, hn, _, gs, _, rfl, ⟨rfl, _⟩, has⟩ := h
  have hcount : as.length = n :=
    ((Ensures.replicate (P := fun _ => True) ⟨fun _ => trivial⟩ n).of_fields has).1
  rw [hcount] at hlength
  exact ⟨fs, _, n, rfl, hn, [], gs, (), rfl, ⟨rfl, hlength⟩, replicate_congr has hF⟩

end Format

open Format

theorem DebugInfo.layout_of_layout {limits limits' : Limits} {codeSize upvalueCount : Nat}
    {fields : List Field} {info : DebugInfo} (h : layout limits codeSize upvalueCount fields info)
    (hcounts : ∀ n ∈ info.tableLengths, n ≤ limits'.maxCount) :
    layout limits' codeSize upvalueCount fields info := by
  obtain ⟨fs₁, _, lineDeltas, rfl, hdeltas, _, _, _, rfl, hlines,
    fs₂, _, checkpoints, rfl, hcheckpoints, _, _, _, rfl, hcheck,
    fs₃, _, locals, rfl, hlocals,
    fs₄, _, upvalueNames, rfl, hnames, _, _, _, rfl, hcount, rfl, rfl⟩ := h
  simp only [tableLengths, List.forall_mem_cons] at hcounts
  refine ⟨fs₁, _, lineDeltas, rfl, table_congr hdeltas hcounts.1 ?_, _, _, (), rfl, hlines,
    fs₂, _, checkpoints, rfl, table_congr hcheckpoints hcounts.2.1 ?_, _, _, (), rfl, hcheck,
    fs₃, _, locals, rfl, table_congr hlocals hcounts.2.2.1 ?_,
    fs₄, _, upvalueNames, rfl, table_congr hnames hcounts.2.2.2.1 ?_, _, _, (), rfl, hcount, rfl, rfl⟩
  all_goals exact fun _ _ _ h => h

theorem Prototype.layout_of_layout {limits limits' : Limits} {p : Platform} {levels levels' : Nat}
    {fields : List Field} {f : Prototype} (h : layout limits p levels fields f)
    (hfits : f.Fits levels' limits'.maxCount) : layout limits' p levels' fields f := by
  induction levels' generalizing levels fields f with
  | zero => exact absurd hfits (not_fits_zero _ f)
  | succ levels' ih =>
    cases levels with
    | zero => exact h.elim
    | succ levels =>
      -- Only the tables and what is inside the functions depend on the limits.
      obtain ⟨fs₁, _, name, rfl, hname, fs₂, _, lineDefined, rfl, hlineDefined,
        fs₃, _, lastLineDefined, rfl, hlastLineDefined, fs₄, _, numParams, rfl, hnumParams,
        fs₅, _, vararg, rfl, hvararg, fs₆, _, maxStackSize, rfl, hmaxStackSize,
        fs₇, _, code, rfl, hcode, fs₈, _, constants, rfl, hconstants,
        fs₉, _, upvalues, rfl, hupvalues, fs₁₀, _, functions, rfl, hfunctions,
        fs₁₁, _, debug, rfl, hdebug, rfl, rfl⟩ := h
      rw [fits_succ_iff] at hfits
      obtain ⟨htables, hfits⟩ := hfits
      simp only [tableLengths, List.forall_mem_append, List.forall_mem_cons] at htables
      refine ⟨fs₁, _, name, rfl, hname, fs₂, _, lineDefined, rfl, hlineDefined,
        fs₃, _, lastLineDefined, rfl, hlastLineDefined, fs₄, _, numParams, rfl, hnumParams,
        fs₅, _, vararg, rfl, hvararg, fs₆, _, maxStackSize, rfl, hmaxStackSize,
        fs₇, _, code, rfl, table_congr hcode htables.1.1 ?_,
        fs₈, _, constants, rfl, table_congr hconstants htables.1.2.1 ?_,
        fs₉, _, upvalues, rfl, table_congr hupvalues htables.1.2.2.1 ?_,
        fs₁₀, _, functions, rfl, table_congr hfunctions htables.1.2.2.2.1 ?_,
        fs₁₁, _, debug, rfl, DebugInfo.layout_of_layout hdebug htables.2, rfl, rfl⟩
      case refine_4 => exact fun g hg _ h => ih h (hfits g hg)
      all_goals exact fun _ _ _ h => h

def FaultKind.IsLimit (kind : FaultKind) : Prop :=
  kind = .recursionLimitExceeded ∨ kind = .allocationLimitExceeded

instance (kind : FaultKind) : Decidable kind.IsLimit :=
  inferInstanceAs (Decidable (_ ∨ _))

namespace ReadM

/--
The first reader does what the second one does, unless it stops at a limit.
-/
structure FollowsToLimit (m m' : ReadM α) : Prop where
  eq_or_stops : ∀ c, m c = m' c ∨ ∃ fault c', m c = .error fault c' ∧ fault.kind.IsLimit

namespace FollowsToLimit

theorem refl (m : ReadM α) : FollowsToLimit m m := by
  constructor
  intro c
  exact .inl rfl

theorem bind {m m' : ReadM α} {f f' : α → ReadM β} (first : FollowsToLimit m m')
    (rest : ∀ a, FollowsToLimit (f a) (f' a)) : FollowsToLimit (m >>= f) (m' >>= f') := by
  constructor
  intro c
  rw [bind_apply, bind_apply]
  cases first.eq_or_stops c with
  | inl heq =>
    rw [← heq]
    cases m c with
    | ok a c' => exact (rest a).eq_or_stops c'
    | error fault c' => exact .inl rfl
  | inr hstops =>
    obtain ⟨fault, c', herr, hkind⟩ := hstops
    rw [herr]
    exact .inr ⟨fault, c', rfl, hkind⟩

theorem inside {place : Place} {m m' : ReadM α} (h : FollowsToLimit m m') :
    FollowsToLimit (inside place m) (ReadM.inside place m') := by
  constructor
  intro c
  unfold ReadM.inside
  cases h.eq_or_stops c with
  | inl heq =>
    rw [heq]
    exact .inl rfl
  | inr hstops =>
    obtain ⟨fault, c', herr, hkind⟩ := hstops
    rw [herr]
    exact .inr ⟨fault.within place, c', rfl, hkind⟩

theorem guard {P : Prop} [Decidable P] {stop : ReadM Unit} {f f' : Unit → ReadM α}
    (rest : FollowsToLimit (f ()) (f' ())) :
    FollowsToLimit (if P then stop >>= f else f ()) (if P then stop >>= f' else f' ()) := by
  split
  . apply bind (refl stop)
    intro _
    exact rest
  . exact rest

end FollowsToLimit

theorem elements_followsToLimit {read read' : ReadM α} (table : Bytes)
    (h : FollowsToLimit read read') (n index : Nat) (found : Array α)
    : FollowsToLimit (elements table read n index found) (elements table read' n index found) := by
  induction n generalizing index found with
  | zero => exact .refl _
  | succ n ih =>
    rw [elements_succ, elements_succ]
    apply FollowsToLimit.bind (.inside h)
    intro a
    exact ih _ _

theorem vector_followsToLimit {limits limits' : Limits} {read read' : ReadM α} (table : Bytes)
    (minSize : Nat) (hcount : limits.maxCount ≤ limits'.maxCount) (h : FollowsToLimit read read')
    : FollowsToLimit (vector limits table minSize read) (vector limits' table minSize read') := by
  rw [vector_eq, vector_eq]
  apply FollowsToLimit.bind (.refl _)
  intro start
  apply FollowsToLimit.bind (.refl _)
  intro count
  by_cases hlimit : limits.maxCount < count
  . rw [if_pos hlimit]
    constructor
    intro c
    exact .inr ⟨_, c, rfl, .inr rfl⟩
  . have hlimit' : ¬limits'.maxCount < count := by omega
    rw [if_neg hlimit, if_neg hlimit']
    exact elements_followsToLimit table h _ _ _

end ReadM

open ReadM

section Parts

variable {limits limits' : Limits}

theorem DebugInfo.read_followsToLimit (hcount : limits.maxCount ≤ limits'.maxCount)
    (codeSize upvalueCount : Int)
    : FollowsToLimit (read limits codeSize upvalueCount) (read limits' codeSize upvalueCount) := by
  apply FollowsToLimit.bind (.refl _)
  intro lineOffset
  apply FollowsToLimit.bind (vector_followsToLimit _ _ hcount (.refl _))
  intro lineDeltas
  apply FollowsToLimit.guard
  apply FollowsToLimit.bind (.refl _)
  intro checkpointOffset
  apply FollowsToLimit.bind (vector_followsToLimit _ _ hcount (.refl _))
  intro checkpoints
  cases LineTable.check lineDeltas checkpoints with
  | error problem => exact ⟨fun c => .inl rfl⟩
  | ok _ =>
    apply FollowsToLimit.bind (vector_followsToLimit _ _ hcount (.refl _))
    intro locals
    apply FollowsToLimit.bind (.refl _)
    intro nameOffset
    apply FollowsToLimit.bind (vector_followsToLimit _ _ hcount (.refl _))
    intro upvalueNames
    exact .refl _

theorem Prototype.read_followsToLimit (hcount : limits.maxCount ≤ limits'.maxCount)
    {levels levels' : Nat} (hlevels : levels ≤ levels') :
    FollowsToLimit (read limits levels) (read limits' levels') := by
  induction levels generalizing levels' with
  | zero =>
    -- No level is left, so the reader stops before it looks at the input.
    constructor
    intro c
    exact .inr ⟨_, c, rfl, .inl rfl⟩
  | succ levels ih =>
    cases levels' with
    | zero => omega
    | succ levels' =>
      apply FollowsToLimit.bind (.refl _)
      intro name
      apply FollowsToLimit.bind (.refl _)
      intro lineDefined
      apply FollowsToLimit.bind (.refl _)
      intro lastLineDefined
      apply FollowsToLimit.bind (.refl _)
      intro numParams
      apply FollowsToLimit.bind (.refl _)
      intro vararg
      apply FollowsToLimit.bind (.refl _)
      intro maxStackSize
      apply FollowsToLimit.bind (vector_followsToLimit _ _ hcount (.refl _))
      intro code
      apply FollowsToLimit.bind (vector_followsToLimit _ _ hcount (.refl _))
      intro constants
      apply FollowsToLimit.bind (vector_followsToLimit _ _ hcount (.refl _))
      intro upvalues
      apply FollowsToLimit.bind (vector_followsToLimit _ _ hcount (ih (by omega)))
      intro functions
      apply FollowsToLimit.bind (.inside (DebugInfo.read_followsToLimit hcount _ _))
      intro debug
      exact .refl _

namespace Chunk

theorem layout_of_layout {fields : List Field} {contents : Contents}
    (h : layout limits fields contents)
    (hfits : contents.main.Fits limits'.maxDepth limits'.maxCount)
    (hstrict : limits.strictPlatform = limits'.strictPlatform) :
    layout limits' fields contents := by
  have hheader : Header.layout limits = Header.layout limits' := by
    unfold Header.layout
    rw [hstrict]
  obtain ⟨fs₁, _, header, rfl, hheader₁, fs₂, _, upvalueCount, rfl, hcount,
    fs₃, _, main, rfl, hmain, _, _, _, rfl, hupvalues, rfl, rfl⟩ := h
  rw [hheader] at hheader₁
  exact ⟨fs₁, _, header, rfl, hheader₁, fs₂, _, upvalueCount, rfl, hcount,
    fs₃, _, main, rfl, Prototype.layout_of_layout hmain hfits, _, _, (), rfl, hupvalues, rfl, rfl⟩

theorem decode_of_fits {input : Bytes} {chunk : Chunk} (h : decode limits input = .ok chunk)
    (hfits : chunk.main.Fits limits'.maxDepth limits'.maxCount)
    (hstrict : limits.strictPlatform = limits'.strictPlatform) :
    decode limits' input = .ok chunk := by
  obtain ⟨fields, rest, hlayout, hinput, htrailing⟩ := decode_eq_ok_iff.mp h
  apply decode_eq_ok_iff.mpr
  exact ⟨fields, rest, layout_of_layout hlayout hfits hstrict, hinput, htrailing⟩

theorem fits_of_decode {input : Bytes} {chunk : Chunk} (h : decode limits input = .ok chunk) :
    chunk.main.Fits limits.maxDepth limits.maxCount := by
  obtain ⟨fields, rest, hlayout, _⟩ := decode_eq_ok_iff.mp h
  exact ((layout_ensures limits).of_fields hlayout).2.2.1

theorem read_followsToLimit (hdepth : limits.maxDepth ≤ limits'.maxDepth)
    (hcount : limits.maxCount ≤ limits'.maxCount)
    (hstrict : limits.strictPlatform = limits'.strictPlatform) :
    FollowsToLimit (read limits) (read limits') := by
  have hheader : Header.read limits = Header.read limits' := by
    unfold Header.read
    rw [hstrict]
  unfold read
  rw [hheader]
  apply FollowsToLimit.bind (.refl _)
  intro header
  apply FollowsToLimit.bind (.refl _)
  intro countOffset
  apply FollowsToLimit.bind (.refl _)
  intro upvalueCount
  apply FollowsToLimit.bind (.inside (Prototype.read_followsToLimit hcount hdepth))
  intro main
  exact .refl _

theorem decode_eq_or_stops (hdepth : limits.maxDepth ≤ limits'.maxDepth)
    (hcount : limits.maxCount ≤ limits'.maxCount)
    (hstrict : limits.strictPlatform = limits'.strictPlatform) (input : Bytes)
    : decode limits input = decode limits' input
        ∨ ∃ fault, decode limits input = .error fault ∧ fault.kind.IsLimit := by
  have hread : FollowsToLimit (inside (.part "decode lua chunk") (read limits))
      (inside (.part "decode lua chunk") (read limits')) :=
    .inside (read_followsToLimit hdepth hcount hstrict)
  unfold decode
  cases hread.eq_or_stops (.ofBytes input) with
  | inl heq =>
    rw [heq]
    exact .inl rfl
  | inr hstops =>
    obtain ⟨fault, c, herr, hkind⟩ := hstops
    rw [herr]
    exact .inr ⟨fault, rfl, hkind⟩

end Chunk

end Parts

theorem Limits.ofRequest_of_pos {d c : Nat} (hd : 0 < d) (hc : 0 < c) (strict : Bool) :
    ofRequest d c strict = { maxDepth := d, maxCount := c, strictPlatform := strict } := by
  have hd' : ¬(d : Int) ≤ 0 := by omega
  have hc' : ¬(c : Int) ≤ 0 := by omega
  rw [ofRequest, if_neg hd', if_neg hc', Int.toNat_natCast, Int.toNat_natCast]

/--
Decoding under smaller limits accepts exactly the chunks that fit them, stops at a limit where a chunk
does not, and finds all other faults as under greater limits.
-/
theorem Chunk.decode_filters_by_limits (input : Bytes) (strict : Bool) (d c d' c' : Nat)
    (hd : 0 < d) (hc : 0 < c) (hdd : d ≤ d') (hcc : c ≤ c')
    : (∀ chunk,
        decode (.ofRequest d c strict) input = .ok chunk
          ↔
        decode (.ofRequest d' c' strict) input = .ok chunk ∧ chunk.main.Fits d c)
      ∧ (∀ chunk, decode (.ofRequest d' c' strict) input = .ok chunk → ¬chunk.main.Fits d c
          → ∃ fault, decode (.ofRequest d c strict) input = .error fault ∧ fault.kind.IsLimit)
      ∧ ∀ fault, decode (.ofRequest d c strict) input = .error fault → ¬fault.kind.IsLimit
          → decode (.ofRequest d' c' strict) input = .error fault := by
  rw [Limits.ofRequest_of_pos hd hc, Limits.ofRequest_of_pos (by omega) (by omega)]
  have hstops := @decode_eq_or_stops ⟨d, c, strict⟩ ⟨d', c', strict⟩ hdd hcc rfl input
  refine ⟨?_, ?_, ?_⟩
  . intro chunk
    constructor
    . intro h
      have hfits := fits_of_decode h
      exact ⟨decode_of_fits h (hfits.mono hdd hcc) rfl, hfits⟩
    . rintro ⟨h, hfits⟩
      exact decode_of_fits h hfits rfl
  . intro chunk h hfits
    cases hstops with
    | inl heq =>
      rw [← heq] at h
      exact absurd (fits_of_decode h) hfits
    | inr hstops => exact hstops
  . intro fault h hkind
    cases hstops with
    | inl heq =>
      rw [← heq]
      exact h
    | inr hstops =>
      obtain ⟨fault', herr, hkind'⟩ := hstops
      rw [herr, Except.error.injEq] at h
      rw [h] at hkind'
      exact absurd hkind' hkind

theorem Chunk.decode_filters_by_limits_sampleInput
    : decode (.ofRequest 200 1000 false) sampleInput = .ok ⟨sampleHeader, 1, sampleMain, 0⟩
      ∧ (∃ fault,
          decode (.ofRequest 1 3 false) sampleInput = .error fault ∧ fault.kind.IsLimit)
      ∧ decode (.ofRequest 2 3 false) (sampleInput.take 4)
          = .error ⟨.endOfInput, 4, [.part "decode lua chunk", .part "header", .part "version"]⟩ := by
  refine ⟨?_, ?_, ?_⟩
  . have h := decode_filters_by_limits sampleInput false 2 3 200 1000
      (by decide) (by decide) (by decide) (by decide)
    exact ((h.1 _).mp decode_sampleInput).1
  . have h := decode_filters_by_limits sampleInput false 1 3 2 3
      (by decide) (by decide) (by decide) (by decide)
    apply h.2.1 _ decode_sampleInput
    intro hfits
    exact absurd hfits.depth (by decide)
  . have h := decode_filters_by_limits (sampleInput.take 4) false 1 3 2 3
      (by decide) (by decide) (by decide) (by decide)
    exact h.2.2 _ rfl (by decide)

end LuaBytecode
