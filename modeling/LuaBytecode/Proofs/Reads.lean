import Mathlib
import LuaBytecode.Proofs.Format

/-!
Readers that follow a format. `Reads` derives that a reader, at a known offset and on a known platform,
reads the values of a format. Everything else that is known of readers is proved by induction on such
derivations: a reader succeeds exactly on the fields of its format, wherever the input is cut it
reports the field that the cut goes through, and a fault that is no cut does not depend on what follows.
-/

namespace LuaBytecode

open LuaBytecode.Field

theorem ReadM.bind_apply (m : ReadM α) (f : α → ReadM β) (c : Cursor)
    : (m >>= f) c
        =
      match m c with
      | .ok a c => f a c
      | .error fault c => .error fault c := by
  simp only [bind, EStateM.bind]
  cases m c <;> rfl

theorem ReadM.bind_eq_ok_iff {m : ReadM α} {f : α → ReadM β} {c c'' : Cursor} {b : β} :
    (m >>= f) c = .ok b c'' ↔ ∃ a c', m c = .ok a c' ∧ f a c' = .ok b c'' := by
  rw [bind_apply]
  cases m c <;> simp

/--
`Reads low offset p m F q`: at `offset` and on the platform `p`, the reader `m` reads the values of the
format `F`. Having read `a` it leaves the platform `q a`. Its faults lie between `low` and the place
where it stops.
-/
inductive Reads : {α : Type} → Nat → Nat → Platform → ReadM α → Format α → (α → Platform) → Prop
  | pure {α : Type} {low o : Nat} {p : Platform} {q : α → Platform} (a : α) (h : q a = p) :
    Reads low o p (pure a) (pure a) q
  | fail {α : Type} {low o offset : Nat} {p : Platform} {q : α → Platform} {cause : Cause}
      (hlow : low ≤ offset) (hhigh : offset ≤ o) :
    Reads low o p (ReadM.fail offset cause) .nothing q
  | bind {α β : Type} {low o : Nat} {p : Platform} {m : ReadM α} {f : α → ReadM β} {F : Format α}
      {G : α → Format β} {q : α → Platform} {r : β → Platform} (first : Reads low o p m F q)
      (rest : ∀ fields a, F fields a → Reads low (o + width fields) (q a) (f a) (G a) r) :
    Reads low o p (m >>= f) (F >>= G) r
  | offset {α : Type} {low o : Nat} {p : Platform} {f : Nat → ReadM α} {F : Format α}
      {q : α → Platform} (rest : Reads low o p (f o) F q) :
    Reads low o p (ReadM.offset >>= f) F q
  | platform {α : Type} {low o : Nat} {p : Platform} {f : Platform → ReadM α} {F : Format α}
      {q : α → Platform} (rest : Reads low o p (f p) F q) :
    Reads low o p (ReadM.platform >>= f) F q
  | setPlatform {α : Type} {low o : Nat} {p p' : Platform} {f : Unit → ReadM α} {F : Format α}
      {q : α → Platform} (rest : Reads low o p' (f ()) F q) :
    Reads low o p (ReadM.setPlatform p' >>= f) F q
  | inside {α : Type} {low o : Nat} {p : Platform} {m : ReadM α} {F : Format α} {q : α → Platform}
      {place : Place} (read : Reads low o p m F q) :
    Reads low o p (ReadM.inside place m) F q
  | expect {low o : Nat} {p : Platform} {expected : Bytes} {cause : Cause} (h : low ≤ o) :
    Reads low o p (ReadM.expect expected o cause) (.literal expected) fun _ => p
  | byte {low o : Nat} {p : Platform} (h : low ≤ o) :
    Reads low o p ReadM.byte .byte fun _ => p
  | bytes {low o : Nat} {p : Platform} {kind : FieldKind} {n : Nat} (h : low ≤ o) :
    Reads low o p (ReadM.bytes n) (.bytes kind n) fun _ => p
  | varint {low o : Nat} {p : Platform} (h : low ≤ o) :
    Reads low o p ReadM.varint .varint fun _ => p

namespace ReadM

theorem bytes_append (head rest : Bytes) (n o : Nat) (p : Platform) (h : head.length = n) :
    bytes n ⟨o, head ++ rest, p⟩ = .ok head ⟨o + n, rest, p⟩ := by
  simp [bytes, Bytes.splitExact?_append h, Cursor.advance]

theorem bytes_of_lt (bs : Bytes) (n o : Nat) (p : Platform) (h : bs.length < n)
    : bytes n ⟨o, bs, p⟩ = .error { cause := .endOfInput, offset := o } ⟨o, bs, p⟩ := by
  simp [bytes, Bytes.splitExact?_eq_none_iff.mpr h]

theorem literal_append (expected rest : Bytes) (o : Nat) (p : Platform) :
    literal expected ⟨o, expected ++ rest, p⟩ = .ok true ⟨o + expected.length, rest, p⟩ := by
  simp [literal, Bytes.splitExact?_append, Cursor.advance]

theorem literal_of_mismatch (expected : Bytes) (c : Cursor) (h : ¬expected <+: c.rest) :
    literal expected c = .ok false c := by
  unfold literal
  split
  . next head rest hsplit =>
    have ⟨hrest, _⟩ := Bytes.splitExact?_eq_some_iff.mp hsplit
    rw [if_neg]
    intro hhead
    apply h
    rw [hrest, hhead]
    apply List.prefix_append
  . rfl

theorem expect_append (expected rest : Bytes) (offset o : Nat) (p : Platform) (cause : Cause)
    : expect expected offset cause ⟨o, expected ++ rest, p⟩
        =
      .ok () ⟨o + expected.length, rest, p⟩ := by
  rw [expect, bind_apply, literal_append]
  rfl

theorem expect_of_mismatch (expected : Bytes) (offset : Nat) (cause : Cause) (c : Cursor)
    (h : ¬expected <+: c.rest)
    : expect expected offset cause c
        =
      .error { cause := if c.rest <+: expected then .endOfInput else cause, offset } c := by
  rw [expect, bind_apply, literal_of_mismatch expected c h]
  by_cases hpre : c.rest <+: expected
  . simp [bind_apply, get, getThe, MonadStateOf.get, EStateM.get, fail, hpre]
  . simp [bind_apply, get, getThe, MonadStateOf.get, EStateM.get, fail, hpre]

theorem inside_eq_ok_iff {place : Place} {m : ReadM α} {c c' : Cursor} {a : α} :
    inside place m c = .ok a c' ↔ m c = .ok a c' := by
  unfold inside
  cases m c <;> simp

theorem inside_eq_error_iff {place : Place} {m : ReadM α} {c c' : Cursor} {fault : Fault}
    : inside place m c = .error fault c'
        ↔
      ∃ inner, m c = .error inner c' ∧ fault = inner.within place := by
  unfold inside
  cases m c <;> simp [eq_comm, and_comm]

end ReadM

namespace Reads

theorem eq_ok {low o : Nat} {p : Platform} {m : ReadM α} {F : Format α} {q : α → Platform}
    (h : Reads low o p m F q)
    : ∀ {fields : List Field} {a : α} (rest : Bytes),
        F fields a
          →
        m ⟨o, join fields ++ rest, p⟩ = .ok a ⟨o + width fields, rest, q a⟩ := by
  induction h with
  | pure a ha =>
    rintro fields b rest ⟨rfl, rfl⟩
    rw [ha]
    rfl
  | fail =>
    intro fields a rest ha
    exact ha.elim
  | bind _ _ ihfirst ihrest =>
    rintro fields b rest ⟨fs, gs, a, rfl, ha, hb⟩
    rw [ReadM.bind_apply, join_append, List.append_assoc, ihfirst _ ha]
    dsimp only
    rw [ihrest _ _ ha _ hb, width_append, Nat.add_assoc]
  | offset _ ih =>
    intro fields a rest ha
    exact ih rest ha
  | platform _ ih =>
    intro fields a rest ha
    exact ih rest ha
  | setPlatform _ ih =>
    intro fields a rest ha
    exact ih rest ha
  | inside _ ih =>
    intro fields a rest ha
    exact ReadM.inside_eq_ok_iff.mpr (ih rest ha)
  | expect =>
    rintro fields _ rest rfl
    rw [join_singleton, width_singleton]
    apply ReadM.expect_append
  | byte =>
    rintro fields b rest rfl
    rfl
  | bytes =>
    rintro fields b rest ⟨rfl, hlen⟩
    rw [join_singleton, width_singleton, hlen]
    exact ReadM.bytes_append _ _ _ _ _ hlen
  | varint =>
    rintro fields x rest ⟨groups, rfl, hcomplete, rfl, hlt⟩
    rw [join_singleton, width_singleton]
    exact ReadM.varint.go_append _ _ _ _ _ _ hcomplete hlt

theorem exists_of_eq_ok {low o : Nat} {p : Platform} {m : ReadM α} {F : Format α}
    {q : α → Platform} (h : Reads low o p m F q)
    : ∀ {input : Bytes} {a : α} {c : Cursor},
        m ⟨o, input, p⟩ = .ok a c
          →
        ∃ fields rest,
          F fields a ∧ input = join fields ++ rest ∧ c = ⟨o + width fields, rest, q a⟩ := by
  induction h with
  | pure a ha =>
    intro input b c hok
    cases hok
    exact ⟨[], input, ⟨rfl, rfl⟩, by simp, by simp [ha]⟩
  | fail =>
    intro input a c hok
    cases hok
  | bind _ _ ihfirst ihrest =>
    intro input b c hok
    obtain ⟨a, c₁, hfirst, hrest⟩ := ReadM.bind_eq_ok_iff.mp hok
    obtain ⟨fs, rest, ha, rfl, rfl⟩ := ihfirst hfirst
    obtain ⟨gs, rest, hb, rfl, rfl⟩ := ihrest _ _ ha hrest
    refine ⟨fs ++ gs, rest, ⟨fs, gs, a, rfl, ha, hb⟩, by simp, by simp [Nat.add_assoc]⟩
  | offset _ ih =>
    intro input a c hok
    exact ih hok
  | platform _ ih =>
    intro input a c hok
    exact ih hok
  | setPlatform _ ih =>
    intro input a c hok
    exact ih hok
  | inside _ ih =>
    intro input a c hok
    exact ih (ReadM.inside_eq_ok_iff.mp hok)
  | expect =>
    rename_i expected cause _
    intro input _ c hok
    by_cases hpre : expected <+: input
    . obtain ⟨rest, rfl⟩ := hpre
      rw [ReadM.expect_append] at hok
      cases hok
      exact ⟨_, rest, rfl, by simp, by simp⟩
    . rw [ReadM.expect_of_mismatch _ _ _ _ hpre] at hok
      cases hok
  | byte =>
    intro input b c hok
    cases input with
    | nil => cases hok
    | cons b input =>
      cases hok
      exact ⟨_, input, rfl, by simp, by simp [Cursor.advance]⟩
  | bytes =>
    rename_i kind n _
    intro input bs c hok
    by_cases hlen : input.length < n
    . rw [ReadM.bytes_of_lt _ _ _ _ hlen] at hok
      cases hok
    . have htake : (input.take n).length = n := by simp; omega
      rw [← List.take_append_drop n input, ReadM.bytes_append _ _ _ _ _ htake] at hok
      cases hok
      exact ⟨[⟨kind, _⟩], input.drop n, ⟨rfl, htake⟩, by simp, by simp; omega⟩
  | varint =>
    intro input x c hok
    obtain ⟨groups, hinput, hcomplete, hx, hlt, hc⟩ := ReadM.varint.exists_of_go_eq_ok _ _ _ _ _ _ _ hok
    exact ⟨_, c.rest, ⟨groups, rfl, hcomplete, hx, hlt⟩, by simpa using hinput, by simpa using hc⟩

theorem eq_error_of_cut {low o : Nat} {p : Platform} {m : ReadM α} {F : Format α}
    {q : α → Platform} (h : Reads low o p m F q)
    : ∀ {fields : List Field} {a : α} {n : Nat},
        F fields a
          →
        n < width fields
          →
        ∃ fault c,
          m ⟨o, (join fields).take n, p⟩ = .error fault c
            ∧ fault.kind = .truncated
            ∧ fault.offset = o + startOf fields n := by
  induction h with
  | pure a ha =>
    rintro fields b n ⟨rfl, rfl⟩ hn
    simp at hn
  | fail =>
    intro fields a n ha
    exact ha.elim
  | bind hfirst _ ihfirst ihrest =>
    rintro fields b n ⟨fs, gs, a, rfl, ha, hb⟩ hn
    rw [width_append] at hn
    by_cases hfs : n < width fs
    . obtain ⟨fault, c, herr, hkind, hoffset⟩ := ihfirst ha hfs
      refine ⟨fault, c, ?_, hkind, by rw [hoffset, startOf_append_of_lt _ _ _ hfs]⟩
      rw [join_append, List.take_append_of_le_length (by rw [length_join]; omega),
        ReadM.bind_apply, herr]
    . obtain ⟨fault, c, herr, hkind, hoffset⟩ := ihrest _ _ ha (n := n - width fs) hb (by omega)
      refine ⟨fault, c, ?_, hkind, ?_⟩
      . rw [join_append, List.take_append, length_join, List.take_of_length_le (by simp; omega),
          ReadM.bind_apply, hfirst.eq_ok _ ha]
        exact herr
      . rw [hoffset, startOf_append_of_le _ _ _ (by omega), Nat.add_assoc]
  | offset _ ih =>
    intro fields a n ha hn
    exact ih ha hn
  | platform _ ih =>
    intro fields a n ha hn
    exact ih ha hn
  | setPlatform _ ih =>
    intro fields a n ha hn
    exact ih ha hn
  | inside _ ih =>
    intro fields a n ha hn
    obtain ⟨fault, c, herr, hkind, hoffset⟩ := ih ha hn
    exact ⟨_, c, ReadM.inside_eq_error_iff.mpr ⟨fault, herr, rfl⟩, hkind, hoffset⟩
  | expect =>
    rename_i expected cause _
    rintro fields _ n rfl hn
    simp only [width_singleton] at hn
    have hcut : ¬expected <+: expected.take n := by
      intro hpre
      have := hpre.length_le
      simp at this
      omega
    refine ⟨_, _, ReadM.expect_of_mismatch _ _ _ _ (by simpa using hcut), ?_, by simp [startOf, hn]⟩
    simp [List.take_prefix, Fault.kind, Cause.kind]
  | byte =>
    rintro fields b n rfl hn
    have hzero : n = 0 := by simpa using hn
    subst hzero
    exact ⟨_, _, rfl, rfl, by simp⟩
  | bytes =>
    rintro fields bs n ⟨rfl, hlen⟩ hn
    simp only [width_singleton] at hn
    refine ⟨_, _, ReadM.bytes_of_lt _ _ _ _ ?_, rfl, by simp [startOf, hn]⟩
    simp only [join_singleton, List.length_take]
    omega
  | varint =>
    rintro fields x n ⟨groups, rfl, hcomplete, rfl, hlt⟩ hn
    rw [width_singleton] at hn
    rw [join_singleton]
    exact ⟨_, _, ReadM.varint.go_take _ _ _ _ _ _ hcomplete hlt hn, rfl, by simp [startOf, hn]⟩

theorem eq_error_of_append {low o : Nat} {p : Platform} {m : ReadM α} {F : Format α}
    {q : α → Platform} (h : Reads low o p m F q)
    : ∀ {input : Bytes} {fault : Fault} {c : Cursor} (more : Bytes),
        m ⟨o, input, p⟩ = .error fault c
          →
        fault.kind ≠ .truncated
          →
        m ⟨o, input ++ more, p⟩ = .error fault { c with rest := c.rest ++ more } := by
  induction h with
  | pure a ha =>
    intro input fault c more herr
    cases herr
  | fail =>
    intro input fault c more herr _
    cases herr
    rfl
  | bind hfirst _ ihfirst ihrest =>
    rename_i m f _ _ _ _ _
    intro input fault c more herr hkind
    rw [ReadM.bind_apply] at herr ⊢
    cases hm : m ⟨_, input, _⟩ with
    | ok a c₁ =>
      obtain ⟨fs, rest, ha, rfl, rfl⟩ := hfirst.exists_of_eq_ok hm
      rw [hm] at herr
      rw [List.append_assoc, hfirst.eq_ok _ ha]
      exact ihrest _ _ ha more herr hkind
    | error fault₁ c₁ =>
      rw [hm] at herr
      cases herr
      rw [ihfirst more hm hkind]
  | offset _ ih =>
    intro input fault c more herr hkind
    exact ih more herr hkind
  | platform _ ih =>
    intro input fault c more herr hkind
    exact ih more herr hkind
  | setPlatform _ ih =>
    intro input fault c more herr hkind
    exact ih more herr hkind
  | inside _ ih =>
    intro input fault c more herr hkind
    obtain ⟨inner, hinner, rfl⟩ := ReadM.inside_eq_error_iff.mp herr
    exact ReadM.inside_eq_error_iff.mpr ⟨inner, ih more hinner hkind, rfl⟩
  | expect =>
    rename_i expected cause _
    intro input fault c more herr hkind
    by_cases hpre : expected <+: input
    . obtain ⟨rest, rfl⟩ := hpre
      rw [ReadM.expect_append] at herr
      cases herr
    . rw [ReadM.expect_of_mismatch _ _ _ _ hpre] at herr
      cases herr
      by_cases hinput : input <+: expected
      . simp [hinput, Fault.kind, Cause.kind] at hkind
      . rw [ReadM.expect_of_mismatch]
        . have : ¬input ++ more <+: expected := fun hp =>
            hinput ((List.prefix_append input more).trans hp)
          simp [hinput, this]
        . intro hp
          cases List.prefix_or_prefix_of_prefix hp (List.prefix_append input more) with
          | inl hin => exact hpre hin
          | inr hin => exact hinput hin
  | byte =>
    intro input fault c more herr hkind
    cases input with
    | nil =>
      cases herr
      simp [Fault.kind, Cause.kind] at hkind
    | cons b input => cases herr
  | bytes =>
    rename_i kind n _
    intro input fault c more herr hkind
    by_cases hlen : input.length < n
    . rw [ReadM.bytes_of_lt _ _ _ _ hlen] at herr
      cases herr
      simp [Fault.kind, Cause.kind] at hkind
    . have htake : (input.take n).length = n := by simp; omega
      rw [← List.take_append_drop n input, ReadM.bytes_append _ _ _ _ _ htake] at herr
      cases herr
  | varint =>
    intro input fault c more herr hkind
    exact ReadM.varint.go_append_of_error _ _ _ _ _ _ _ _ herr hkind

end Reads

end LuaBytecode
