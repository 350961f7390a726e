import Mathlib
import LuaBytecode.Command.Basic
import LuaBytecode.Proofs.Mentions

/-!
Configuration files one after another. Of each setting counts what the last file says that mentions it, so
it does not matter how the members are spread over the files. The limits of a run follow from what is asked
for on the command line and from these settings.
-/

namespace LuaBytecode

open Json Settings

def Json.Relaxed.members? (text : Bytes) : Option (List (Bytes × Datum)) :=
  match standardize? text with
  | none => none
  | some standard =>
    match tokens standard with
    | .openObject :: rest =>
      if (readObject rest).rest? = some [] then some (readObject rest).members else none
    | _ => none

theorem Json.Relaxed.nodup_members {text : Bytes} {members : List (Bytes × Datum)}
    (h : members? text = some members) : (members.map Prod.fst).Nodup := by
  unfold members? at h
  split at h
  . cases h
  . split at h
    . rw [Option.ite_none_right_eq_some] at h
      cases h.2
      exact nodup_readObject _
    . cases h

namespace Settings

end Settings

namespace Command

inductive Files.Hold (files : Files) : List Bytes → List (List (Bytes × Datum)) → Prop
  | nil : Hold files [] []
  | missing {path : Bytes} {rest : List Bytes} {objects : List (List (Bytes × Datum))}
    (h : files path = .error .notFound) (hrest : Hold files rest objects) :
    Hold files (path :: rest) objects
  | object {path text : Bytes} {rest : List Bytes} {members : List (Bytes × Datum)}
    {objects : List (List (Bytes × Datum))} (h : files path = .ok text)
    (hmembers : Relaxed.members? text = some members) (hrest : Hold files rest objects) :
    Hold files (path :: rest) (members :: objects)

theorem Files.Hold.nodup_names {files : Files} {paths : List Bytes}
    {objects : List (List (Bytes × Datum))} (h : files.Hold paths objects) :
    ∀ members ∈ objects, (members.map Prod.fst).Nodup := by
  induction h with
  | nil => simp
  | missing _ _ ih => exact ih
  | object _ hmembers _ ih =>
    rw [List.forall_mem_cons]
    exact ⟨Relaxed.nodup_members hmembers, ih⟩

end Command

end LuaBytecode
