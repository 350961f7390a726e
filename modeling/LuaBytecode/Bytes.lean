/-!
Byte strings and the numerals that are written into them. Names and string constants of a chunk are
arbitrary bytes, so all text that may hold one of them is a `Bytes` and not a `String`.
-/

namespace LuaBytecode

abbrev Bytes := List UInt8

def utf8 (text : String) : Bytes :=
  text.toList.flatMap String.utf8EncodeChar

namespace Bytes

def ofChar (c : Char) : UInt8 :=
  c.toNat.toUInt8

def digits (base n : Nat) : Bytes :=
  (Nat.toDigits base n).map ofChar

def decimal : Int → Bytes
  | .ofNat n => digits 10 n
  | .negSucc n => ofChar '-' :: digits 10 (n + 1)

def hex (width n : Nat) : Bytes :=
  let ds := digits 16 n
  List.replicate (width - ds.length) (ofChar '0') ++ ds

def splitExact? (n : Nat) (bytes : Bytes) : Option (Bytes × Bytes) :=
  match bytes.splitAt n with
  | (head, rest) => if head.length = n then some (head, rest) else none

theorem splitExact?_append {n : Nat} {head rest : Bytes} (h : head.length = n) :
    splitExact? n (head ++ rest) = some (head, rest) := by
  simp [splitExact?, List.splitAt_eq, ← h]

theorem splitExact?_eq_some_iff {n : Nat} {bytes head rest : Bytes} :
    splitExact? n bytes = some (head, rest) ↔ bytes = head ++ rest ∧ head.length = n := by
  constructor
  · intro h
    simp only [splitExact?, List.splitAt_eq] at h
    split at h
    · next hlen =>
      simp only [Option.some.injEq, Prod.mk.injEq] at h
      obtain ⟨rfl, rfl⟩ := h
      exact ⟨(List.take_append_drop n bytes).symm, hlen⟩
    · simp at h
  · rintro ⟨rfl, h⟩
    exact splitExact?_append h

theorem splitExact?_eq_none_iff {n : Nat} {bytes : Bytes} :
    splitExact? n bytes = none ↔ bytes.length < n := by
  simp only [splitExact?, List.splitAt_eq, List.length_take]
  split <;> simp <;> omega

/--
The text before the first `sep`, and the text after it if there is one.
-/
def cut (sep : UInt8) (bytes : Bytes) : Bytes × Option Bytes :=
  match bytes.dropWhile (· != sep) with
  | [] => (bytes, none)
  | _ :: after => (bytes.takeWhile (· != sep), some after)

theorem bne_of_notMem {sep : UInt8} {bytes : Bytes} (h : sep ∉ bytes) : ∀ b ∈ bytes, (b != sep) = true := by
  intro b hb
  rw [bne_iff_ne]
  rintro rfl
  exact h hb

theorem cut_append_cons {sep : UInt8} {before : Bytes} (after : Bytes) (h : sep ∉ before) :
    cut sep (before ++ sep :: after) = (before, some after) := by
  have hbefore := bne_of_notMem h
  rw [cut, List.dropWhile_append_of_pos hbefore, List.takeWhile_append_of_pos hbefore,
    List.dropWhile_cons_of_neg (by simp), List.takeWhile_cons_of_neg (by simp), List.append_nil]

theorem cut_of_notMem {sep : UInt8} {bytes : Bytes} (h : sep ∉ bytes) : cut sep bytes = (bytes, none) := by
  have hdrop : bytes.dropWhile (· != sep) = [] := by
    rw [← List.append_nil bytes, List.dropWhile_append_of_pos (bne_of_notMem h), List.dropWhile_nil]
  rw [cut, hdrop]

def join (sep : Bytes) : List Bytes → Bytes
  | [] => []
  | first :: others => first ++ others.flatMap (sep ++ ·)

end Bytes

end LuaBytecode
