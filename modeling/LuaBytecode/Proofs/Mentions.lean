import Mathlib
import LuaBytecode.Settings.Basic

/-!
Settings as what was last said about them. `ofMentions` reads all settings off the datum that was last
given for each name; to make the settings of a member is to update the mentions with it.
-/

namespace LuaBytecode

open Json

namespace Settings

def names : List Bytes :=
  [utf8 "debug", utf8 "maxDepth", utf8 "maxCount", utf8 "indentJSON"]

end Settings

namespace Json

theorem nodup_readMembers (depth room : Nat) {reversed : List (Bytes × Datum)} (tokens : List Token)
    (h : (reversed.map Prod.fst).Nodup) :
    ((readMembers depth room reversed tokens).members.map Prod.fst).Nodup := by
  have hreverse : ∀ members : List (Bytes × Datum), (members.map Prod.fst).Nodup
      → (members.reverse.map Prod.fst).Nodup := by
    intro members hmembers
    rw [List.map_reverse, List.nodup_reverse]
    exact hmembers
  have hcons : ∀ (members : List (Bytes × Datum)) (name : Bytes) (datum : Datum),
      ¬members.any (·.1 == name) = true → (members.map Prod.fst).Nodup
        → (((name, datum) :: members).map Prod.fst).Nodup := by
    intro members name datum hnew hmembers
    rw [List.map_cons, List.nodup_cons]
    refine ⟨?_, hmembers⟩
    simpa using hnew
  fun_induction readMembers depth room reversed tokens with
  | case1 => exact hreverse _ h
  | case2 _ _ _ _ hnew _ _ _ _ ih => exact ih (hcons _ _ _ hnew h)
  | case3 _ _ _ _ hnew => exact hreverse _ (hcons _ _ _ hnew h)
  | case4 _ _ _ _ hnew => exact hreverse _ (hcons _ _ _ hnew h)
  | case5 => exact hreverse _ h

theorem nodup_readObject (tokens : List Token) :
    ((readObject tokens).members.map Prod.fst).Nodup := by
  unfold readObject
  split
  . exact .nil
  . exact nodup_readMembers _ _ _ .nil

end Json

end LuaBytecode
