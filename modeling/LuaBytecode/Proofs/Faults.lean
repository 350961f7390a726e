import Mathlib
import LuaBytecode.Proofs.Numerals
import LuaBytecode.Proofs.Steps
import LuaBytecode.Proofs.Word

/-!
What is reported when a chunk cannot be decoded: a fault of one of the known kinds inside the input, which
goes back to the end of the input exactly if it is a truncation. No number is read before the header has
said how numbers are stored, so that nothing depends on the platform of the first cursor.
-/

namespace LuaBytecode

theorem Bytes.join_append_singleton (sep : Bytes) (texts : List Bytes) (last : Bytes)
    : join sep (texts ++ [last]) = (texts.flatMap fun text => text ++ sep) ++ last := by
  induction texts with
  | nil => simp [join]
  | cons text texts ih =>
    rw [List.flatMap_cons, List.append_assoc, ← ih]
    cases texts with
    | nil => simp [join]
    | cons next texts => simp [join]

namespace Fault

/--
One of the errors that a fault is made of. Each but the last one wraps the next.
-/
inductive Link where
  | context (place : Place)
  | fault (kind : FaultKind) (offset : Nat)
  | endOfInput
  | complaint (text : String)
  deriving DecidableEq

def Link.text : Link → Bytes
  | .context place => place.text
  | .fault kind offset => utf8 s!"{kind.name} at offset {offset}"
  | .endOfInput => utf8 "unexpected EOF"
  | .complaint text => utf8 text

def root (cause : Cause) : Link :=
  if cause = .endOfInput then .endOfInput else .complaint cause.detail

def chain (fault : Fault) : List Link :=
  fault.path.map .context ++ [.fault fault.kind fault.offset, root fault.cause]

theorem text_root (cause : Cause) : (root cause).text = utf8 cause.detail := by
  unfold root
  split
  . next h =>
    rw [h]
    rfl
  . rfl

theorem message_eq_join (fault : Fault)
    : fault.message = Bytes.join (utf8 ": ") (fault.chain.map Link.text) := by
  have hchain : fault.chain.map Link.text
      = (fault.path.map Place.text ++ [(Link.fault fault.kind fault.offset).text])
        ++ [utf8 fault.cause.detail] := by
    simp only [chain, List.map_append, List.map_map, List.map_cons, List.map_nil, text_root,
      List.append_assoc, List.cons_append, List.nil_append]
    rfl
  rw [hchain, Bytes.join_append_singleton, message, headline]
  simp only [Link.text, List.flatMap_append, List.flatMap_map, List.flatMap_cons, List.flatMap_nil,
    utf8_append, List.append_assoc, List.append_nil]
  rfl

theorem endOfInput_mem_chain_iff (fault : Fault) :
    Link.endOfInput ∈ fault.chain ↔ fault.kind = .truncated := by
  have hroot : Link.endOfInput = root fault.cause ↔ fault.cause = .endOfInput := by
    unfold root
    split <;> simp [*]
  have hcause : fault.cause = .endOfInput ↔ fault.kind = .truncated := by
    unfold kind
    cases fault.cause <;> simp [Cause.kind]
  rw [← hcause, ← hroot]
  simp [chain]

end Fault

theorem FaultKind.code_mem (kind : FaultKind) : 1 ≤ kind.code ∧ kind.code ≤ 13 := by
  cases kind <;> decide

namespace ReadM

def view : EStateM.Result Fault Cursor α → Except Fault α × Nat × Bytes
  | .ok a c => (.ok a, c.offset, c.rest)
  | .error fault c => (.error fault, c.offset, c.rest)

theorem view_inside (place : Place) (m : ReadM α) (c : Cursor)
    : view (inside place m c) = ((view (m c)).1.mapError (Fault.within place), (view (m c)).2) := by
  unfold inside
  cases m c <;> rfl

theorem view_bind {m : ReadM α} {f : α → ReadM β} {c c' : Cursor} (first : view (m c) = view (m c'))
    (rest : ∀ a c₁ c₁', m c = .ok a c₁ → m c' = .ok a c₁'
      → (c₁.offset, c₁.rest) = (c₁'.offset, c₁'.rest) → view (f a c₁) = view (f a c₁'))
    : view ((m >>= f) c) = view ((m >>= f) c') := by
  rw [bind_apply, bind_apply]
  cases hm : m c with
  | ok a c₁ =>
    cases hm' : m c' with
    | ok a' c₁' =>
      rw [hm, hm'] at first
      injection first with ha hcursor
      cases ha
      exact rest a c₁ c₁' hm hm' hcursor
    | error fault' c₁' =>
      rw [hm, hm'] at first
      cases first
  | error fault c₁ =>
    cases hm' : m c' with
    | ok a' c₁' =>
      rw [hm, hm'] at first
      cases first
    | error fault' c₁' =>
      rw [hm, hm'] at first
      injection first with hfault hcursor
      cases hfault
      dsimp only [view]
      rw [hcursor]

structure IgnoresPlatform (m : ReadM α) : Prop where
  view_eq : ∀ o input p p', view (m ⟨o, input, p⟩) = view (m ⟨o, input, p'⟩)

namespace IgnoresPlatform

theorem pure (a : α) : IgnoresPlatform (pure a) := by
  constructor
  intros
  rfl

theorem fail {offset : Nat} {cause : Cause} : IgnoresPlatform (ReadM.fail offset cause : ReadM α) := by
  constructor
  intros
  rfl

theorem fail_bind {offset : Nat} {cause : Cause} {f : β → ReadM α} :
    IgnoresPlatform (ReadM.fail offset cause >>= f) := by
  constructor
  intros
  rfl

theorem offset {f : Nat → ReadM α} (h : ∀ o, IgnoresPlatform (f o)) :
    IgnoresPlatform (ReadM.offset >>= f) := by
  constructor
  intro o input p p'
  exact (h o).view_eq o input p p'

theorem setPlatform {f : Unit → ReadM α} {q : Platform} :
    IgnoresPlatform (ReadM.setPlatform q >>= f) := by
  constructor
  intros
  rfl

theorem changePlatform {f : Unit → ReadM α} {g : Platform → Platform} (h : IgnoresPlatform (f ())) :
    IgnoresPlatform (ReadM.platform >>= fun p => ReadM.setPlatform (g p) >>= f) := by
  constructor
  intro o input p p'
  -- The platform is changed, but not asked for.
  exact h.view_eq o input (g p) (g p')

theorem bind {m : ReadM α} {f : α → ReadM β} (first : IgnoresPlatform m)
    (rest : ∀ a, IgnoresPlatform (f a)) : IgnoresPlatform (m >>= f) := by
  constructor
  intro o input p p'
  apply view_bind (first.view_eq o input p p')
  rintro a ⟨o₁, rest₁, p₁⟩ ⟨o₁', rest₁', p₁'⟩ _ _ hview
  cases hview
  exact (rest a).view_eq _ _ _ _

theorem inside {place : Place} {m : ReadM α} (h : IgnoresPlatform m) :
    IgnoresPlatform (ReadM.inside place m) := by
  constructor
  intro o input p p'
  rw [view_inside, view_inside, h.view_eq o input p p']

theorem byte : IgnoresPlatform ReadM.byte := by
  constructor
  intro o input p p'
  cases input <;> rfl

theorem bytes (n : Int) : IgnoresPlatform (ReadM.bytes n) := by
  constructor
  intro o input p p'
  unfold ReadM.bytes
  split
  . rfl
  . dsimp only
    cases Bytes.splitExact? n.toNat input <;> rfl

theorem expect (expected : Bytes) (offset : Nat) (cause : Cause) :
    IgnoresPlatform (ReadM.expect expected offset cause) := by
  constructor
  intro o input p p'
  by_cases hpre : expected <+: input
  . obtain ⟨rest, rfl⟩ := hpre
    rw [expect_append, expect_append]
    rfl
  . rw [expect_of_mismatch _ _ _ _ hpre, expect_of_mismatch _ _ _ _ hpre]
    rfl

end IgnoresPlatform

end ReadM

open ReadM

theorem Header.readSize_ignoresPlatform (what : String) (valid : UInt8 → Option α) :
    IgnoresPlatform (readSize what valid) := by
  apply IgnoresPlatform.offset
  intro start
  apply IgnoresPlatform.bind (.inside .byte)
  intro b
  split
  . exact .pure _
  . exact .fail

theorem Header.read_ignoresPlatform (limits : Limits) : IgnoresPlatform (read limits) := by
  apply IgnoresPlatform.bind (.expect _ _ _)
  intro _
  apply IgnoresPlatform.offset
  intro versionOffset
  apply IgnoresPlatform.bind (.inside .byte)
  intro version
  dsimp only
  split
  . exact .fail_bind
  apply IgnoresPlatform.offset
  intro formatOffset
  apply IgnoresPlatform.bind (.inside .byte)
  intro format
  split
  . exact .fail_bind
  apply IgnoresPlatform.offset
  intro checkOffset
  apply IgnoresPlatform.bind (.expect _ _ _)
  intro _
  apply IgnoresPlatform.bind (readSize_ignoresPlatform _ _)
  intro instructionSize
  apply IgnoresPlatform.bind (readSize_ignoresPlatform _ _)
  intro integerSize
  apply IgnoresPlatform.bind (readSize_ignoresPlatform _ _)
  intro numberSize
  apply IgnoresPlatform.changePlatform
  apply IgnoresPlatform.offset
  intro sampleOffset
  apply IgnoresPlatform.bind (.inside (.bytes _))
  intro sample
  split
  . exact .fail
  . -- From here on numbers are read as the header says.
    exact .setPlatform

def ReadM.integerOfSize? (size : Nat) : ReadM (Option Int64) := do
  let group ← bytes size
  let n := (← platform).byteOrder.decode group
  match size with
  | 4 => return some (Int64.ofInt (Int.bmod n 0x100000000))
  | 8 => return some (Int64.ofInt (Int.bmod n 0x10000000000000000))
  | _ => return none

def ReadM.numberOfSize? (size : Nat) : ReadM (Option Binary64) := do
  let group ← bytes size
  let n := (← platform).byteOrder.decode group
  match size with
  | 4 => return some (.ofSingle n.toUInt32)
  | 8 => return some ⟨n.toUInt64⟩
  | _ => return none

theorem ReadM.integerOfSize?_eq (c : Cursor) :
    integerOfSize? c.platform.integerSize.bytes c = (some <$> integer) c := by
  obtain ⟨o, input, order, integerSize, numberSize⟩ := c
  rw [map_eq_pure_bind, bind_apply]
  unfold integerOfSize? integer fixed
  simp only [platform, bind_apply]
  cases integerSize with
  | four =>
    simp only [Width.bytes, Width.values]
    cases bytes _ _ <;> rfl
  | eight =>
    simp only [Width.bytes, Width.values]
    cases bytes _ _ <;> rfl

theorem ReadM.numberOfSize?_eq (c : Cursor) :
    numberOfSize? c.platform.numberSize.bytes c = (some <$> number) c := by
  obtain ⟨o, input, order, integerSize, numberSize⟩ := c
  rw [map_eq_pure_bind, bind_apply]
  unfold numberOfSize? number fixed
  simp only [platform, bind_apply]
  cases numberSize with
  | four =>
    simp only [Width.bytes]
    cases bytes _ _ <;> rfl
  | eight =>
    simp only [Width.bytes]
    cases bytes _ _ <;> rfl

namespace Chunk

def decodeOn (p : Platform) (limits : Limits) (input : Bytes) : Except Fault Chunk :=
  (view (inside (.part "decode lua chunk") (Chunk.read limits) (.ofBytes input p))).1

theorem view_read (p p' : Platform) (limits : Limits) (input : Bytes)
    : view (read limits (.ofBytes input p)) = view (read limits (.ofBytes input p')) := by
  have hignores : IgnoresPlatform (inside (.part "header") (Header.read limits)) :=
    .inside (Header.read_ignoresPlatform limits)
  have hreads : ∀ p, Reads 0 0 p (inside (.part "header") (Header.read limits))
      (Header.layout limits) Header.platform :=
    fun p => .inside (Header.read_reads limits p)
  apply view_bind (hignores.view_eq 0 input p p')
  intro header c c' hc hc' hcursor
  -- The header that was read says all about the platform behind it.
  obtain ⟨_, _, _, _, rfl⟩ := (hreads p).exists_of_eq_ok hc
  obtain ⟨_, _, _, _, rfl⟩ := (hreads p').exists_of_eq_ok hc'
  rw [Prod.mk.injEq] at hcursor
  dsimp only at hcursor
  rw [hcursor.1, hcursor.2]

theorem decodeOn_eq_decode (p : Platform) (limits : Limits) (input : Bytes) :
    decodeOn p limits input = decode limits input := by
  have hdecode : decode limits input = decodeOn {} limits input := by
    unfold decode decodeOn
    cases inside _ _ _ <;> rfl
  rw [hdecode, decodeOn, decodeOn, view_inside, view_inside, view_read p {}]

theorem offset_le_of_decode {limits : Limits} {input : Bytes} {fault : Fault}
    (h : decode limits input = .error fault) : fault.offset ≤ input.length := by
  obtain ⟨inner, c, herr, rfl⟩ := decode_eq_error_iff.mp h
  obtain ⟨⟨used, hrest, hoffset⟩, _, hle⟩ := (readContents_reads limits {}).stops_of_eq_error herr
  dsimp only at hrest hoffset
  have hlength := congrArg List.length hrest
  rw [List.length_append] at hlength
  have : (inner.within (.part "decode lua chunk")).offset = inner.offset := rfl
  omega

end Chunk

theorem Fault.fault_mem_chain (fault : Fault) : .fault fault.kind fault.offset ∈ fault.chain := by
  simp [chain]

theorem Instruction.exists_ofWord (w : Word) (op : Opcode) (h : Opcode.ofCode? w.opcode = some op) :
    ∃ i, ofWord w = .ok i ∧ i.op = op ∧ i.operands.shape = op.shape := by
  refine ⟨⟨op, .ofWord w op.shape⟩, ?_, rfl, Operands.shape_ofWord w op.shape⟩
  rw [ofWord, h]

/--
Steps in any order, also behind failures, stay in the input, do not move back and fail in between. There
is no number and no instruction that they are not prepared for. So decoding ends with a chunk or with a
fault of a known kind inside the input.
-/
theorem Step.faults_inside_input
    : (∀ (limits : Limits) (input : Bytes) (p : Platform) (steps : List (Σ α : Type, Step α))
          (c : Cursor) (α : Type) (next : Step α),
        after limits steps (.ofBytes input p) = c
          →
        c.rest <:+ input
          ∧ c.offset + c.rest.length = input.length
          ∧ c.offset ≤ ((next.read limits).stop c).offset
          ∧ ∀ fault c', next.read limits c = .error fault c'
              →
            .fault fault.kind fault.offset ∈ fault.chain
              ∧ c.offset ≤ fault.offset
              ∧ fault.offset ≤ c'.offset)
      ∧ (∀ c : Cursor,
          integerOfSize? c.platform.integerSize.bytes c = (some <$> ReadM.integer) c
            ∧ numberOfSize? c.platform.numberSize.bytes c = (some <$> ReadM.number) c)
      ∧ (∀ w op, Opcode.ofCode? w.opcode = some op
          → ∃ i, Instruction.ofWord w = .ok i ∧ i.op = op ∧ i.operands.shape = op.shape)
      ∧ (∀ p limits input, Chunk.decodeOn p limits input = Chunk.decode limits input)
      ∧ ∀ limits input,
          (∃ chunk, Chunk.decode limits input = .ok chunk)
            ∨ ∃ fault, Chunk.decode limits input = .error fault
                ∧ fault.message = Bytes.join (utf8 ": ") (fault.chain.map Fault.Link.text)
                ∧ .fault fault.kind fault.offset ∈ fault.chain
                ∧ 1 ≤ fault.kind.code
                ∧ fault.kind.code ≤ 13
                ∧ fault.offset ≤ input.length
                ∧ (.endOfInput ∈ fault.chain ↔ fault.kind = .truncated) := by
  refine ⟨?_, ?_, Instruction.exists_ofWord, Chunk.decodeOn_eq_decode, ?_⟩
  . rintro limits input p steps c α next rfl
    have hkeeps := next.read_keeps limits (Nat.le_refl (after limits steps (.ofBytes input p)).offset)
    obtain ⟨used, hrest, hoffset⟩ := reaches_after limits steps (.ofBytes input p)
    have hlength := congrArg List.length hrest
    rw [List.length_append] at hlength
    refine ⟨⟨used, hrest.symm⟩, ?_, (hkeeps.reaches _ rfl).offset_le, ?_⟩
    . dsimp only [Cursor.ofBytes] at hlength hoffset ⊢
      omega
    . intro fault c' herr
      exact ⟨fault.fault_mem_chain, hkeeps.between _ fault c' rfl herr⟩
  . intro c
    exact ⟨integerOfSize?_eq c, numberOfSize?_eq c⟩
  . intro limits input
    cases hdecode : Chunk.decode limits input with
    | ok chunk => exact .inl ⟨chunk, rfl⟩
    | error fault =>
      obtain ⟨hone, hall⟩ := fault.kind.code_mem
      exact .inr ⟨fault, rfl, fault.message_eq_join, fault.fault_mem_chain, hone, hall,
        Chunk.offset_le_of_decode hdecode, fault.endOfInput_mem_chain_iff⟩

theorem Step.faults_inside_input_sample
    : (∃ fault c',
        (vector (utf8 "upvalues") 3 upvalue).read {} ⟨2, [0x82, 1, 0, 0, 0, 1, 9], {}⟩ = .error fault c'
          ∧ (fault.offset, c'.offset) = (8, 9)
          ∧ 2 ≤ fault.offset
          ∧ fault.offset ≤ c'.offset)
      ∧ ∃ i, Instruction.ofWord 0x46 = .ok i ∧ i.op = .ret ∧ i.operands.shape = .abck := by
  have hafter : after {} [⟨_, byte⟩, ⟨_, constant⟩] (.ofBytes [0x7f, 0x42, 0x82, 1, 0, 0, 0, 1, 9])
      = ⟨2, [0x82, 1, 0, 0, 0, 1, 9], {}⟩ := rfl
  have hsteps := faults_inside_input.1 _ _ _ _ _ _ (vector (utf8 "upvalues") 3 upvalue) hafter
  constructor
  . refine ⟨_, _, rfl, rfl, ?_⟩
    exact (hsteps.2.2.2 _ _ rfl).2
  . exact faults_inside_input.2.2.1 0x46 .ret rfl

end LuaBytecode
